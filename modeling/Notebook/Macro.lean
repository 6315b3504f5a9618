import Notebook.Placeholder
import Notebook.Settings.Basic
import Notebook.Signature
import Notebook.Tree.Node

/-! # Macros

A macro turns its arguments and its context into nodes. Its body is a program whose requests are
answered by the expansion in which it runs: it asks for notes, has text parsed and has nodes
expanded. So a body cannot change a notebook.

Four macros are built in: one transcludes a note, one shows a field of the note in scope, one
shows its own arguments and one the version. Others are given by their parts.
-/

namespace Notebook

def version : String := "0.3.0"

inductive Body where
  | done (nodes : List Node)
  | fail (e : RenderError)
  /-- Breaks off. There is no message if what is thrown is no text. -/
  | panic (message : Option String)
  | lookup (title : Title) (next : Option Note → Body)
  | parse (type : Option String) (text : String) (next : List Node → Body)
  | parseNote (title : Title) (next : Option (List Node) → Body)
  /-- Expands the calls among the nodes in another context. -/
  | expand (context : Context) (nodes : List Node) (next : List Node → Body)
  | recursion (next : Body)
  | executions (next : Nat → Body)

structure CustomMacro where
  name : String
  signature : Signature
  reads : Arguments → Context → Reads
  body : Arguments → Context → Body
  /-- Text that is appended whenever a refresh passes the call by. -/
  appended : Option String

inductive Macro where
  | transclude
  | view
  | echo
  | version
  | custom (c : CustomMacro)

namespace Transclude

def targetAttribute : String := "data-tiddler-target"

def templateAttribute : String := "data-tiddler-template"

/-- The note whose fields are in scope inside of the frame. -/
def target (args : Arguments) (context : Context) : Option Title :=
  (args.first? "target").or context.scope

def template (args : Arguments) (context : Context) : Option Title :=
  (args.first? "template").or (target args context)

/-- The titles are read before the calls among the arguments have run. -/
def reads (args : Arguments) (context : Context) : Reads :=
  match ((args.literal? "template").or (args.literal? "target")).or context.scope with
  | some title => .title title
  | none => .none

def frameAttributes (page : PageSettings) (target template : Option Title) (missing : Bool) :
    Attributes :=
  let attributes :=
    ((Attributes.withClass {} page.frameClass).withAttribute targetAttribute (target.getD ""))
      |>.withAttribute templateAttribute (template.getD "")
  if missing then attributes.withClass page.missingClass else attributes

/-- Puts content into a frame. The frame is marked if its target is missing. -/
def frame (page : PageSettings) (target template : Option Title) (content : List Node) : Body :=
  let framed (missing : Bool) : Body :=
    .done [.element none "div" (frameAttributes page target template missing) content]
  match target with
  | none => framed true
  | some title => .lookup title fun note => framed note.isNone

/-- The unexpanded content of a template. With arguments for its placeholders, its text is filled
in before it is parsed. -/
def source (args : Arguments) (template : Title) (next : List Node → Body) : Body :=
  if args.contains "with" then
    .lookup template fun note =>
      match note with
      | some note =>
        .parse note.type (Placeholder.substitute note.text (args.all "with")) next
      | none => next []
  else .parseNote template fun nodes => next (nodes.getD [])

def body (page : PageSettings) (args : Arguments) (context : Context) : Body :=
  let target := target args context
  let template := template args context
  match template with
  | none => frame page target template []
  | some title =>
    if context.chain.contains title then
      .recursion (frame page target template [.error (.transclusionRecursion title)])
    else
      source args title fun nodes =>
        .expand ⟨title :: context.chain, target⟩ nodes (frame page target template)

end Transclude

namespace View

def reads (context : Context) : Reads :=
  match context.scope with
  | some title => .title title
  | none => .none

def body (args : Arguments) (context : Context) : Body :=
  match context.scope with
  | none => .done []
  | some title =>
    .lookup title fun note =>
      match note.bind fun note => note.field ((args.first? "field").getD "text") with
      | some value => .done [.text value]
      | none => .done []

end View

namespace Macro

def name : Macro → String
  | transclude => "tiddler"
  | view => "view"
  | echo => "echo"
  | version => "version"
  | custom c => c.name

def signature : Macro → Signature
  | transclude =>
    { params := [
        { name := "target", kind := .titleRef, positional := true },
        { name := "template", kind := .titleRef },
        { name := "with", kind := .callable }]
      cascade := true }
  | view =>
    { params := [{ name := "field", kind := .text, positional := true, required := true }] }
  | echo =>
    { params := [{ name := "text", kind := .text, positional := true, required := true }]
      cascade := true }
  | version => {}
  | custom c => c.signature

def reads : Macro → Arguments → Context → Reads
  | transclude, args, context => Transclude.reads args context
  | view, _, context => View.reads context
  | echo, _, _ => .none
  | version, _, _ => .none
  | custom c, args, context => c.reads args context

def body (page : PageSettings) : Macro → Arguments → Context → Body
  | transclude, args, context => Transclude.body page args context
  | view, args, context => View.body args context
  | echo, args, _ => .done [.text (" ".intercalate (args.all "text"))]
  | version, _, _ => .done [.text Notebook.version]
  | custom c, args, context => c.body args context

def isCustom : Macro → Bool
  | custom _ => true
  | _ => false

def builtin : List Macro := [transclude, view, echo, version]

end Macro

abbrev MacroTable := Catalog Macro

def MacroTable.install (table : MacroTable) (m : Macro) : MacroTable :=
  table.insert m.name m

end Notebook
