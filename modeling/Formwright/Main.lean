import Formwright.Demo

/-
  The command line of the demonstration program: a target and files of analyses, both optional.
-/

namespace Formwright.Demo

/-- The texts of the files that can be read, by path. -/
def readAll (paths : List String) : IO (List (String × String)) :=
  paths.filterMapM fun (path : String) => do
    try return some (path, ← IO.FS.readFile path) catch _ => return none

/-- The text of a file among those that were read. -/
def fileIn (files : List (String × String)) (path : String) : Except Fault String :=
  match files.find? (·.1 == path) with
  | some f => .ok f.2
  | none => .error .missingFile

/-- A moment to count from; only distances from it are shown. -/
def origin : Calendar.Moment := ⟨⟨2024, 1, 1⟩, 0, 0, 0, 0, none⟩

/-- Prints and writes what a run leaves behind. -/
def deliver (o : Output) : IO UInt32 := do
  IO.print o.printed
  for (name, text) in o.written do
    IO.FS.writeFile name text
  return UInt32.ofNat o.exitCode

/-- Tells why a run failed. -/
def fail (f : Fault) : IO UInt32 := do
  IO.eprintln f.message
  return 1

/-- Runs the program and measures how long its batch takes. -/
def runTimed (args : List String) : IO UInt32 := do
  let files ← readAll args.tail
  match prepare args (fileIn files) with
  | .error f => fail f
  | .ok (.inl refused) => deliver refused
  | .ok (.inr p) =>
    let began ← IO.monoMsNow
    match p.generate origin with
    | .error f => fail f
    | .ok r =>
      let ended ← IO.monoMsNow
      let micros := origin.localMicros + 1000 * Int.ofNat (ended - began)
      deliver (p.report (r.finish ((Calendar.Moment.ofMicros? micros).getD origin)))

end Formwright.Demo

def main (args : List String) : IO UInt32 := Formwright.Demo.runTimed args
