import Notebook.Markup.Inline

/-! # Parsers

A parser turns text into nodes. A parser table finds one for a content type: by the type itself,
else by the extension at its end, else the one for plain text. So every type has a parser.
-/

namespace Notebook

inductive Parser where
  | wikitext
  | plain
  /-- Wikitext, under a label by which its runs are counted. -/
  | counted (label : String)
  | constant (nodes : List Node)
  | failing (message : String)
  | custom (label : Option String) (parse : String → Except String (List Node))

namespace Parser

def run (parser : Parser) (text : String) : Except String (List Node) :=
  match parser with
  | wikitext | counted _ => .ok (Markup.parse text)
  | plain => .ok (Markup.parsePlain text)
  | constant nodes => .ok nodes
  | failing message => .error message
  | custom _ parse => parse text

def label? : Parser → Option String
  | counted label => some label
  | custom label _ => label
  | _ => none

end Parser

abbrev ParserTable := Catalog Parser

namespace ParserTable

def plainType : String := "text/plain"

def wikitextType : String := "text/x-tiddlywiki"

def register (table : ParserTable) (keys : List String) (parser : Parser) : ParserTable :=
  keys.foldl (fun acc key => acc.insert key parser) table

def lowerAscii (c : Char) : Char :=
  if 'A' ≤ c && c ≤ 'Z' then Char.ofNat (c.toNat + 32) else c

/-- The last dot of a type and what follows it, in lower case. A slash behind the dot means that
the dot starts no extension. -/
def extension? (type : String) : Option String :=
  let cs := type.toList.reverse
  let tail := (cs.takeWhile (· ≠ '.')).reverse
  if cs.contains '.' && !tail.isEmpty && !tail.contains '/' then
    some (String.ofList ('.' :: tail.map lowerAscii))
  else none

def resolve (table : ParserTable) (type : String) : Parser :=
  match table.get? type with
  | some parser => parser
  | none =>
    match (extension? type).bind table.get? with
    | some parser => parser
    | none => (table.get? plainType).getD .plain

end ParserTable

end Notebook
