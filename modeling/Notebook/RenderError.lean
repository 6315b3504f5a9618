import Notebook.Json.Basic
import Notebook.Note.Basic

/-! # Errors of an expansion

What can go wrong while a call is expanded. An error takes the place of the content and does not
stop the rest of the page.
-/

namespace Notebook

inductive RenderError where
  | unknownMacro (name : String)
  | missingParameter (callee param : String)
  | unknownParameter (callee param : String)
  | unexpectedPositional (callee value : String)
  | transclusionRecursion (title : Title)
  | macroFailed (callee message : String)
  deriving DecidableEq, Repr

namespace RenderError

def message : RenderError → String
  | unknownMacro name => "Unknown macro <<" ++ name ++ ">>"
  | missingParameter callee param =>
    "Missing required parameter '" ++ param ++ "' for <<" ++ callee ++ ">>"
  | unknownParameter callee param =>
    "Unknown parameter '" ++ param ++ "' for <<" ++ callee ++ ">>"
  | unexpectedPositional callee value =>
    "Unexpected positional parameter '" ++ value ++ "' for <<" ++ callee ++ ">>"
  | transclusionRecursion title =>
    "Transclusion recursion: '" ++ title ++ "' is already being rendered"
  | macroFailed callee message => "<<" ++ callee ++ ">> failed: " ++ message

/-- Whether the parameters written in the call are at fault. -/
def isBinding : RenderError → Bool
  | missingParameter .. | unknownParameter .. | unexpectedPositional .. => true
  | _ => false

def isRecursion : RenderError → Bool
  | transclusionRecursion _ => true
  | _ => false

def tag : RenderError → String
  | unknownMacro _ => "unknown_macro"
  | missingParameter .. => "missing_parameter"
  | unknownParameter .. => "unknown_parameter"
  | unexpectedPositional .. => "unexpected_positional"
  | transclusionRecursion _ => "transclusion_recursion"
  | macroFailed .. => "macro_failed"

def details : RenderError → List (String × String)
  | unknownMacro name => [("name", name)]
  | missingParameter callee param => [("macro_name", callee), ("param", param)]
  | unknownParameter callee param => [("macro_name", callee), ("param", param)]
  | unexpectedPositional callee value => [("macro_name", callee), ("value", value)]
  | transclusionRecursion title => [("title", title)]
  | macroFailed callee message => [("macro_name", callee), ("message", message)]

def toJson (e : RenderError) : Json :=
  .object (("error", .string e.tag) :: e.details.map fun d => (d.1, Json.string d.2))

end RenderError

end Notebook
