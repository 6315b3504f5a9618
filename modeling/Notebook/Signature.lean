import Notebook.Catalog
import Notebook.RenderError
import Notebook.Tree.Call

/-! # Signatures and bindings

A signature declares the parameters of a macro. Binding gives every supplied value to a declared
name, from left to right, and fills in defaults. The values are literal text or calls; what a
call is does not matter for binding, so it is left open.
-/

namespace Notebook

inductive ParamKind where
  | titleRef
  | text
  /-- Text that decides what is read. -/
  | callable
  deriving DecidableEq, Repr

structure ParamSpec where
  name : String
  kind : ParamKind
  positional : Bool := false
  required : Bool := false
  default : Option String := none
  deriving DecidableEq, Repr

/-- Whether a call as value hides what the macro will read. -/
def ParamSpec.affectsReads (spec : ParamSpec) : Bool :=
  spec.kind ≠ .text

/-- In a cascading signature a value without a name takes the last name before it. -/
structure Signature where
  params : List ParamSpec := []
  cascade : Bool := false
  deriving DecidableEq, Repr

/-- A value as it is supplied, and its text: at once for a literal, once it has run for a call. -/
inductive Argument (κ : Type) where
  | literal (text : String)
  | call (c : κ) (text : Option String)
  deriving Repr

namespace Argument

variable {κ μ : Type}

def text? : Argument κ → Option String
  | literal text => some text
  | call _ text => text

def literal? : Argument κ → Option String
  | literal text => some text
  | call .. => none

def call? : Argument κ → Option κ
  | literal _ => none
  | call c _ => some c

def isCall (a : Argument κ) : Bool :=
  a.call?.isSome

def map (f : κ → μ) : Argument κ → Argument μ
  | literal text => literal text
  | call c text => call (f c) text

end Argument

structure Supplied (κ : Type) where
  name : Option String
  value : Argument κ
  deriving Repr

abbrev Binding (κ : Type) := Catalog (List (Argument κ))

namespace Binding

variable {κ μ : Type}

def valuesOf (b : Binding κ) (name : String) : List (Argument κ) :=
  (b.get? name).getD []

def first? (b : Binding κ) (name : String) : Option String :=
  (b.valuesOf name).head?.bind Argument.text?

def all (b : Binding κ) (name : String) : List String :=
  (b.valuesOf name).filterMap Argument.text?

def literal? (b : Binding κ) (name : String) : Option String :=
  (b.valuesOf name).head?.bind Argument.literal?

def hasCall (b : Binding κ) (name : String) : Bool :=
  (b.valuesOf name).any Argument.isCall

def add (b : Binding κ) (name : String) (value : Argument κ) : Binding κ :=
  b.insert name (b.valuesOf name ++ [value])

def calls (b : Binding κ) : List κ :=
  b.values.flatten.filterMap Argument.call?

def mapCalls (f : κ → μ) (b : Binding κ) : Binding μ :=
  b.map fun values => values.map (Argument.map f)

def fillValues : List (Argument κ) → List String → List (Argument κ) × List String
  | [], texts => ([], texts)
  | .literal text :: values, texts =>
    let rest := fillValues values texts
    (.literal text :: rest.1, rest.2)
  | .call c _ :: values, texts =>
    let rest := fillValues values texts.tail
    (.call c texts.head? :: rest.1, rest.2)

/-- Gives the calls their texts, in the order of `calls`. -/
def fill (b : Binding κ) (texts : List String) : Binding κ :=
  (b.mapAccum fillValues texts).1

def resolve [Monad m] (b : Binding κ) (evaluate : κ → m String) : m (Binding κ) := do
  let texts ← b.calls.mapM evaluate
  return b.fill texts

end Binding

namespace Signature

variable {κ : Type}

def find? (signature : Signature) (name : String) : Option ParamSpec :=
  signature.params.find? fun spec => spec.name = name

/-- The first positional parameter without a value. -/
def freeSlot? (signature : Signature) (b : Binding κ) : Option String :=
  (signature.params.find? fun spec => spec.positional && !b.contains spec.name).map ParamSpec.name

/-- The name for a supplied value. `last` is the last name before it. -/
def nameFor (signature : Signature) (callee : String) (shown : Argument κ → String)
    (last : Option String) (b : Binding κ) (s : Supplied κ) : Except RenderError String :=
  match s.name with
  | some name =>
    if (signature.find? name).isSome then .ok name else .error (.unknownParameter callee name)
  | none =>
    match if signature.cascade then last else none with
    | some name => .ok name
    | none =>
      match signature.freeSlot? b with
      | some name => .ok name
      | none => .error (.unexpectedPositional callee (shown s.value))

def bindSupplied (signature : Signature) (callee : String) (shown : Argument κ → String) :
    Option String → Binding κ → List (Supplied κ) → Except RenderError (Binding κ)
  | _, b, [] => .ok b
  | last, b, s :: rest => do
    let name ← signature.nameFor callee shown last b s
    bindSupplied signature callee shown (s.name.or last) (b.add name s.value) rest

def bindDefaults (callee : String) : List ParamSpec → Binding κ → Except RenderError (Binding κ)
  | [], b => .ok b
  | spec :: specs, b =>
    if b.contains spec.name then bindDefaults callee specs b
    else
      match spec.default with
      | some text => bindDefaults callee specs (b.insert spec.name [.literal text])
      | none =>
        if spec.required then .error (.missingParameter callee spec.name)
        else bindDefaults callee specs b

/-- `shown` is how a value appears in an error. -/
def bind (signature : Signature) (callee : String) (shown : Argument κ → String)
    (supplied : List (Supplied κ)) : Except RenderError (Binding κ) := do
  let b ← signature.bindSupplied callee shown none ∅ supplied
  bindDefaults callee signature.params b

end Signature

/-- Bound values of which only the text and the kind are known. -/
abbrev Arguments := Binding Unit

def showArgument (nameOf : κ → String) : Argument κ → String
  | .literal text => text
  | .call c _ => "\x7b\x7b" ++ nameOf c ++ "\x7d\x7d"

def Param.supplied : Param → Supplied Call
  | .literal name text => ⟨name, .literal text⟩
  | .call name callee params => ⟨name, .call ⟨callee, params⟩ none⟩

end Notebook
