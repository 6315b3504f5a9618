import Notebook.Opening

/-! # Watching a note

A watch keeps the tree of a note live while a clock note is written over and over. After each
tick it shows the text again, but only if something was expanded anew.
-/

namespace Notebook

structure Watch where
  library : Library Unit
  store : StoreId
  clockTitle : Title
  tree : LiveTree
  shown : Option String := none

namespace Watch

/-- Renders a note and subscribes to all changes. The text is shown at once. -/
def start (notebook : OpenNotebook) (title : Title) : Option Watch := do
  let (tree, lib) ← notebook.render title
  let s := notebook.store
  return {
    library := (Library.busAccess s).modify (fun bus => (bus.subscribe .all ()).2) lib
    store := s
    clockTitle := notebook.settings.watch.clockTitle
    tree
    shown := some tree.text }

def hear (batch : Batch) (w : Watch) : Watch :=
  match w.tree.refresh w.library batch with
  | some (log, tree, library) =>
    { w with library, tree, shown := if log.reexecuted = 0 then none else some tree.text }
  | none => w

def busAccess (s : StoreId) : Bus.Access Watch Unit where
  get w := (Library.busAccess s).get w.library
  modify f w := { w with library := (Library.busAccess s).modify f w.library }

def clockNote (title : Title) (time : String) : Note :=
  { title, text := "The time was recently " ++ time }

/-- Writes the clock note and delivers the change. -/
def tick (time : String) (w : Watch) : Watch :=
  let library := w.library.add w.store (clockNote w.clockTitle time)
  (Bus.flush (busAccess w.store) (fun _ => hear) { w with library, shown := none }).2

/-- Everything that a watch shows, from what it shows now until the last of some ticks. -/
def output (w : Watch) : List String → List String
  | [] => w.shown.toList
  | time :: times => w.shown.toList ++ output (w.tick time) times

/-- How many ticks are left after the next one, unless there is none. Without a number of ticks a
watch goes on forever. -/
def countDown : Option Nat → Option (Option Nat)
  | none => some none
  | some 0 => none
  | some (n + 1) => some (some n)

/-- The times at which a watch ticks, out of those that come. -/
def timesWithin (ticks : Option Nat) : List String → List String
  | [] => []
  | time :: times =>
    match countDown ticks with
    | some left => time :: timesWithin left times
    | none => []

@[simp] theorem timesWithin_none (times : List String) : timesWithin none times = times := by
  induction times with
  | nil => rfl
  | cons time times ih => simp only [timesWithin, countDown, ih]

@[simp] theorem timesWithin_some (n : Nat) (times : List String) :
    timesWithin (some n) times = times.take n := by
  induction times generalizing n with
  | nil => rw [timesWithin, List.take_nil]
  | cons time times ih =>
    cases n with
    | zero => rfl
    | succ n => simp only [timesWithin, countDown, ih, List.take_succ_cons]

end Watch

end Notebook
