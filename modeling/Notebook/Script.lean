import Notebook.Macro

/-! # Scripts

A script is a macro written as a list of steps. Each step adds nodes; a failing step ends the
script and drops what was added before.
-/

namespace Notebook

/-- How a script tells what it reads. -/
inductive ReadsRule where
  | scope
  | param (name : String)
  | fixed (reads : Reads)
  deriving DecidableEq, Repr

inductive ScriptStep where
  | text (s : String)
  | param (name : String)
  | allParams (name separator : String)
  | chain
  | scopeTitle
  | executions
  /-- A node as it is. Calls in it are not expanded. -/
  | node (n : Node)
  /-- Parses and expands text, under one more template or in another scope where these are
  given. -/
  | run (text : String) (type : Option String) (push : Option Title)
      (scope : Option (Option Title))
  | fail (e : RenderError)
  | panic (message : Option String)
  deriving Repr

structure Script where
  name : String
  signature : Signature
  reads : ReadsRule
  steps : List ScriptStep
  appended : Option String
  deriving Repr

namespace Script

def evaluateReads (rule : ReadsRule) (args : Arguments) (context : Context) : Reads :=
  let ofTitle? (title : Option Title) : Reads :=
    match title with
    | some t => .title t
    | none => .none
  match rule with
  | .scope => ofTitle? context.scope
  | .param name => ofTitle? (args.literal? name)
  | .fixed reads => reads

/-- The steps as a body, after the nodes that earlier steps have added. -/
def stepsBody (args : Arguments) (context : Context) : List ScriptStep → List Node → Body
  | [], nodes => .done nodes
  | step :: steps, nodes =>
    let continueWith (added : List Node) : Body := stepsBody args context steps (nodes ++ added)
    match step with
    | .text s => continueWith [.text s]
    | .param name => continueWith ((args.first? name).map Node.text).toList
    | .allParams name separator =>
      continueWith [.text (separator.intercalate (args.all name))]
    | .chain =>
      continueWith [.text ("[" ++ ">".intercalate context.chain.reverse ++ "]")]
    | .scopeTitle => continueWith [.text (context.scope.getD "(none)")]
    | .executions => .executions fun n => continueWith [.text (toString n)]
    | .node n => continueWith [n]
    | .run text type push scope =>
      .parse type text fun parsed =>
        .expand ⟨push.toList ++ context.chain, scope.getD context.scope⟩ parsed continueWith
    | .fail e => .fail e
    | .panic message => .panic message

def toMacro (s : Script) : Macro :=
  .custom
    { name := s.name
      signature := s.signature
      reads := evaluateReads s.reads
      body := fun args context => stepsBody args context s.steps []
      appended := s.appended }

end Script

end Notebook
