/-
Module: StyleAudit.Main
Purpose: The program: it takes a snapshot of the files it may need, runs a command on
  the snapshot, and writes what the command gives.
Trusted boundary: reads directories and files, writes to the two outputs
Main exports: main
-/
import StyleAudit.CommandLine

namespace StyleAudit

/-!
### Snapshots

A command sees the files below the working directory, and the files below the
directories that its arguments name or that hold the files its arguments name.
-/

/-- How deep below a directory a snapshot goes. -/
def snapshotDepth : Nat := 24

/-- What an action gives, or nothing when it fails. -/
def whenPossible {α : Type} (action : IO (List α)) : IO (List α) :=
  tryCatch action fun _ => return []

/-- The places and entries below a directory, to a depth.  What cannot be read is
left out. -/
def entriesBelow : Nat → String → IO (List (Location × Entry))
  | 0, _ => return []
  | depth + 1, directory => whenPossible do
      let items ← (← IO.FS.realPath directory).readDir
      let found ← items.toList.mapM fun item => whenPossible do
        let name : String := item.path.toString
        let place := (Path.ofText name).parts
        match (← item.path.symlinkMetadata).type with
        | .dir => return (place, .directory) :: (← entriesBelow depth name)
        | .file => return [(place, .file (← IO.FS.readBinFile name))]
        | .symlink => return [(place, .link (Path.ofText (← IO.FS.realPath name).toString))]
        | .other => return []
      return found.flatten

/-- The directories that a snapshot starts from: the working directory, every argument,
and the directory that each argument stands in. -/
def snapshotStarts (arguments : List String) : List String :=
  let named := arguments.map fun (argument : String) => Path.ofText argument
  "." :: (named ++ named.map Path.parent).map fun p => p.display.shown

/-- The world as the program finds it. -/
def observe (arguments : List String) : IO World := do
  let here ← IO.FS.realPath "."
  let mut entries : List (Location × Entry) := []
  for start in (snapshotStarts arguments).eraseDups do
    entries := entries ++ (← entriesBelow snapshotDepth start)
  return ⟨⟨entries⟩, (Path.ofText here.toString).parts, []⟩

/-!
### Writing what a command gives
-/

/-- A number of milliseconds as seconds with three places. -/
def secondsText (milliseconds : Nat) : String :=
  toString (milliseconds / 1000) ++ "." ++ paddedDecimal 3 (milliseconds % 1000)

/-- The words for a failure that no command reports. -/
def failureText : Failure → Text
  | .configuration fault => fault.message
  | .document fault => fault.message
  | .raised message => message
  | .linkLoop path => linkLoopMessage path
  | .unusable => "a value of a kind that cannot be used"

/-- Writes what a command gives, and returns its exit code. -/
def CommandOutcome.write : CommandOutcome → IO UInt32
  | .usage => do
      IO.eprintln "Usage: sheetlint [OPTIONS] COMMAND [ARGS]..."
      return 2
  | .finished code output errors => do
      IO.print output
      IO.eprint errors
      return UInt32.ofNat code
  | .failed failure => do
      IO.eprintln (Console.escaped (failureText failure))
      return 1

end StyleAudit

open StyleAudit in
/-- Runs the program. -/
def main (arguments : List String) : IO UInt32 := do
  let start ← IO.monoMsNow
  let run := runCommand (← observe arguments) (arguments.map Text.ofString)
  let elapsed := secondsText ((← IO.monoMsNow) - start)
  for record in run.log do
    IO.eprintln (record.line elapsed)
  run.outcome.write
