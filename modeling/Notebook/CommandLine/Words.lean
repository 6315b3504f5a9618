/-! # The words of a command line

Words are read from left to right. A word that begins with a dash is an option: a flag, which
stands alone, or a setting, which has a value. All other words are operands, and so is everything
behind a double dash. Where commands are known, the first operand must be one of them, and the
words behind it are its own.

Reading may stop early, because some flag asks for help or for the version, or because the words
make no sense. Only the first such word counts.
-/

namespace Notebook.CommandLine

inductive Stop where
  | help
  | version
  | misuse
  deriving DecidableEq, Repr

structure Flag where
  name : String
  short : Option Char := none
  /-- What reading the flag leads to. Without effect it is kept among the arguments. -/
  effect : Option Stop := none

structure Setting where
  name : String
  accepts : String → Bool

structure Grammar where
  flags : List Flag
  settings : List Setting
  commands : List String := []
  maxOperands : Nat := 0

structure Arguments where
  flags : List String := []
  values : List (String × String) := []
  operands : List String := []
  /-- A value in a word of its own is checked when the next option or operand comes up, or at the
  end. -/
  pending : Option (Setting × String) := none
  command : Option (String × List String) := none

namespace Arguments

def value? (a : Arguments) (name : String) : Option String :=
  a.values.lookup name

def hasFlag (a : Arguments) (name : String) : Bool :=
  a.flags.contains name

def store (setting : Setting) (value : String) (a : Arguments) : Except Stop Arguments :=
  if setting.accepts value && (a.value? setting.name).isNone then
    .ok { a with values := a.values ++ [(setting.name, value)] }
  else .error .misuse

def settle (a : Arguments) : Except Stop Arguments :=
  match a.pending with
  | some (setting, value) => store setting value { a with pending := none }
  | none => .ok a

def raise (flag : Flag) (a : Arguments) : Except Stop Arguments := do
  let a ← a.settle
  match flag.effect with
  | some stop => .error stop
  | none =>
    if a.hasFlag flag.name then .error .misuse
    else .ok { a with flags := a.flags ++ [flag.name] }

def addOperand (g : Grammar) (operand : String) (a : Arguments) : Except Stop Arguments := do
  let a ← a.settle
  if a.operands.length < g.maxOperands then .ok { a with operands := a.operands ++ [operand] }
  else .error .misuse

end Arguments

namespace Grammar

inductive Shape where
  | escape
  | long (name : String) (value : Option String)
  | short (letters : List Char)
  | operand

/-- A single dash is an operand. -/
def shape (word : String) : Shape :=
  match word.toList with
  | ['-', '-'] => .escape
  | '-' :: '-' :: cs =>
    let name := String.ofList (cs.takeWhile (· ≠ '='))
    match cs.dropWhile (· ≠ '=') with
    | _ :: value => .long name (some (String.ofList value))
    | [] => .long name none
  | '-' :: c :: cs => .short (c :: cs)
  | _ => .operand

def isOperand (word : String) : Bool :=
  match shape word with
  | .operand => true
  | _ => false

def flag? (g : Grammar) (name : String) : Option Flag :=
  g.flags.find? (·.name = name)

def shortFlag? (g : Grammar) (c : Char) : Option Flag :=
  g.flags.find? (·.short = some c)

def setting? (g : Grammar) (name : String) : Option Setting :=
  g.settings.find? (·.name = name)

def readLetters (g : Grammar) : List Char → Arguments → Except Stop Arguments
  | [], a => .ok a
  | c :: cs, a =>
    match g.shortFlag? c with
    | some flag => do readLetters g cs (← a.raise flag)
    | none => .error .misuse

def readOperands (g : Grammar) : List String → Arguments → Except Stop Arguments
  | [], a => a.settle
  | word :: words, a => do readOperands g words (← a.addOperand g word)

/-- Reads words up to the end or up to a command. A value that is pending before a command is not
checked yet. -/
def read (g : Grammar) : List String → Arguments → Except Stop Arguments
  | [], a => a.settle
  | word :: words, a =>
    match shape word with
    | .escape => g.readOperands words a
    | .short letters => do g.read words (← g.readLetters letters a)
    | .long name value =>
      match g.flag? name, g.setting? name, value with
      | some flag, _, none => do g.read words (← a.raise flag)
      | none, some setting, some value => do
        g.read words (← (← a.settle).store setting value)
      | none, some setting, none =>
        match words with
        | value :: words =>
          if isOperand value then do
            g.read words { ← a.settle with pending := some (setting, value) }
          else .error .misuse
        | [] => .error .misuse
      | _, _, _ => .error .misuse
    | .operand =>
      if g.commands.contains word then .ok { a with command := some (word, words) }
      else do g.read words (← a.addOperand g word)

end Grammar

end Notebook.CommandLine
