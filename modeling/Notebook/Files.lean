/-! # Files

What is found at a path. Text in files is UTF-8.
-/

namespace Notebook

inductive FileEntry where
  | missing
  /-- Something that is there but cannot be read, such as a folder. -/
  | unreadable
  | file (bytes : ByteArray)

namespace FileEntry

def ofText (text : String) : FileEntry :=
  file text.toUTF8

def text? : FileEntry → Option String
  | file bytes => String.fromUTF8? bytes
  | _ => none

end FileEntry

end Notebook
