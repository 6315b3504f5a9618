import Std.Time.Format
import Notebook.CommandLine.Help
import Notebook.CommandLine.Reply

/-! # The program

Reads the files that the command line names, writes what is asked for and, while it watches a
note, lets the clock tick.
-/

open Notebook

namespace Notebook.Program

def readEntry (path : String) : IO FileEntry := do
  try
    return .file (← IO.FS.readBinFile path)
  catch
    | .noFileOrDirectory .. => return .missing
    | _ => return .unreadable

def say (text : String) : IO Unit := do
  IO.println text
  (← IO.getStdout).flush

def clockTime : IO String := do
  return (← Std.Time.PlainDateTime.now).format "HH:mm:ss.SSS"

partial def keepTicking (pauseMs : Nat) (ticks : Option Nat) (w : Watch) : IO Unit := do
  if let some left := Watch.countDown ticks then
    IO.sleep (UInt32.ofNat (min pauseMs 0xFFFFFFFF))
    let w := w.tick (← clockTime)
    if let some text := w.shown then say text
    keepTicking pauseMs left w

def deadEnd : IO UInt32 := do
  IO.eprintln "Error: the expansion does not come to an end"
  return 1

def perform (notebook : OpenNotebook) : CommandLine.Request → IO UInt32
  | .watch title intervalMs ticks => do
    match CommandLine.startWatch notebook title with
    | some w =>
      if let some text := w.shown then say text
      keepTicking (CommandLine.pauseMs notebook intervalMs) ticks w
      return 0
    | none => deadEnd
  | request => do
    match CommandLine.reply notebook [] request with
    | some output =>
      IO.print output.text
      if let some tally := output.tally then IO.eprintln tally.summary
      return 0
    | none => deadEnd

def run (invocation : CommandLine.Invocation) : IO UInt32 := do
  let settings ← readEntry invocation.config
  let notes ←
    match invocation.load with
    | some path => do pure (some (path, ← readEntry path))
    | none => pure none
  match OpenNotebook.ofFiles settings notes with
  | .ok notebook => perform notebook invocation.request
  | .error e =>
    IO.eprintln ("Error: " ++ e.message)
    return 1

end Notebook.Program

def main (words : List String) : IO UInt32 := do
  match CommandLine.read (← IO.getEnv "TIDDLE_LOAD") words with
  | .ok invocation => Program.run invocation
  | .error .help =>
    IO.println CommandLine.helpText
    return 0
  | .error .version =>
    IO.println CommandLine.versionLine
    return 0
  | .error .misuse =>
    IO.eprintln CommandLine.helpText
    return 2
