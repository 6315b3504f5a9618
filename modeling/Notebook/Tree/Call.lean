import Notebook.Json.Basic

/-! # Calls

A call names a macro and lists parameters, each with or without a name. The value of a parameter
is literal text or another call.
-/

namespace Notebook

inductive Param where
  | literal (name : Option String) (text : String)
  | call (name : Option String) (callee : String) (params : List Param)
  deriving Repr, Inhabited

structure Call where
  name : String
  params : List Param
  deriving Repr, Inhabited

namespace Param

def positional (text : String) : Param := literal none text

def named (name text : String) : Param := literal (some name) text

def ofCall (name : Option String) (c : Call) : Param := call name c.name c.params

def members (name : Option String) (value : Json) : Json :=
  .object ((name.map fun n => ("name", Json.string n)).toList ++ [("value", value)])

mutual

def toJson : Param → Json
  | literal name text => members name (.object [("literal", .string text)])
  | call name callee params =>
    members name
      (.object [("call",
        .object [("name", .string callee), ("params", .array (listToJson params))])])

def listToJson : List Param → List Json
  | [] => []
  | param :: params => toJson param :: listToJson params

end

end Param

end Notebook
