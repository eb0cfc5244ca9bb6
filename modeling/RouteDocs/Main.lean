import RouteDocs.Cli
import RouteDocs.Random.Twister
import Std.Time.DateTime

/-!
# `RouteDocs.Main`: the program

The layer around the command line: files on the disk, the clock, a seed where none is
given, and the two channels that lines go to. What a run does is decided by `Cli.run`.
-/

set_option autoImplicit false

namespace RouteDocs

namespace Disk

/-- The storage problem behind an error of the file system, if it is one of those told apart. -/
def problem? : IO.Error → Option StorageProblem
  | .noFileOrDirectory .. => some .notFound
  | .alreadyExists .. => some .occupied
  | .inappropriateType _ 21 _ => some .isDirectory
  | .inappropriateType .. => some .notDirectory
  | .invalidArgument _ 36 _ => some .tooLong
  | _ => none

/-- Performs an action at the name that a path text is. Errors that are no storage problem
are passed on. -/
def attempt {α : Type} (s : Text) (act : String → IO α) : IO (Except Fault α) := do
  match Path.checkText s, s.string? with
  | .error fault, _ => return .error fault
  | .ok (), none => return .error .unencodable
  | .ok (), some name =>
    try
      return .ok (← act name)
    catch e =>
      match problem? e with
      | some problem => return .error (.storage ⟨problem, s⟩)
      | none => throw e

/-- Whether there is something at a name, readable or not. -/
def has (name : String) : IO Bool := do
  try
    let _ ← IO.FS.Handle.mk name .read
    return true
  catch e =>
    match problem? e with
    | some .isDirectory => return true
    | some _ => return false
    | none => return true

/-- Whether there is something at a path text. A path that is too long leads nowhere. -/
def hasText (s : Text) : IO (Except Fault Bool) := do
  match ← attempt s has with
  | .error (.storage _) => return .ok false
  | there => return there

/-- Makes the directory at a name, unless there is one. -/
def makeDirectory (name : String) : IO Unit := do
  try
    IO.FS.createDir name
  catch e =>
    unless ← has (name ++ "/.") do throw e

/-- Makes the directory at a path whose names are given from the last to the first, and those
above it that are missing. -/
def makeDirectories (root : Nat) : (names : List Text) → IO (Except Fault Unit)
  | [] => return .ok ()
  | name :: rest => do
    let path : Path := ⟨root, (name :: rest).reverse⟩
    match ← attempt path.text makeDirectory with
    | .error (.storage ⟨.notFound, _⟩) =>
      match ← makeDirectories root rest with
      | .error fault => return .error fault
      | .ok () => attempt path.text makeDirectory
    | outcome => return outcome

end Disk

/-- Files on the disk. -/
instance : Storage IO where
  has := Disk.hasText
  read p := Disk.attempt p.text fun name => do return (← IO.FS.readBinFile name).toList
  makeDirectories p := Disk.makeDirectories p.root p.names.reverse
  write p content := Disk.attempt p.text fun name => IO.FS.writeBinFile name ⟨content.toArray⟩

/-- The current moment in universal time. -/
def currentMoment : IO Moment := do
  let t := Std.Time.PlainDateTime.ofWallTime ((← Std.Time.Timestamp.now).toWallTime .zero)
  return {
    date := ⟨t.year.toNat, t.month.val.toNat, t.day.val.toNat⟩
    hour := t.hour.val.toNat
    minute := t.minute.val.toNat
    second := t.second.val.toNat
    microsecond := t.nanosecond.val.toNat / 1000
    offset := some 0 }

/-- A seed for runs that are given none. -/
def freshSeed : IO Nat := do
  return (← IO.getRandomBytes 32).toList.foldl (fun n b => 256 * n + b.toNat) 0

/-- Writes a line to its channel. No line of an outcome has a surrogate. -/
def Line.print (l : Line) : IO Unit :=
  let text := l.text.string?.getD ""
  match l.channel with
  | .output => IO.println text
  | .diagnostics => IO.eprintln text

end RouteDocs

open RouteDocs in
/-- Runs the program. -/
def main (args : List String) : IO UInt32 := do
  let seed ← freshSeed
  let env : Cli.Environment Twister :=
    { source := fun given => Twister.ofSeed (given.getD seed), now := ← currentMoment }
  let outcome ← Cli.run env (args.map Text.ofString)
  outcome.lines.forM Line.print
  if outcome.uncaught.isSome then IO.eprintln "Failed."
  return outcome.exitCode.toUInt32
