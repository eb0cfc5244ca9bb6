import RouteDocs.Storage.Basic

/-!
# `RouteDocs.Storage.FileTree`: files in memory

A file tree lists what is stored, each under its place. A place is a path without double
dots, but for some in front: those lead to the directories above the current one, which
are always there, as the current directory and the root are. A path is walked to the place
that it means, and each name on the way has to be a directory.
-/

set_option autoImplicit false

namespace RouteDocs

/-- What is stored at a place. -/
inductive Stored where
  /-- A directory. -/
  | directory
  /-- A file with its content. -/
  | file (content : List UInt8)
deriving DecidableEq, Repr

/-- Places with what is stored there. -/
structure FileTree where
  /-- The entries, each place once. -/
  entries : List (Path × Stored)
deriving DecidableEq, Repr

namespace FileTree

/-- The name that leads to the directory above. -/
def up : Text := ".."

/-- Whether a place is the root, the current directory or one above it. -/
def isGiven (place : Path) : Bool := place.names.all (· = up)

/-- The directory above a place. Above the root is the root. -/
def above (place : Path) : Path :=
  if isGiven place then
    if place.isAbsolute then place else ⟨place.root, place.names ++ [up]⟩
  else place.parent

/-- What is at a place. -/
def at? (t : FileTree) (place : Path) : Option Stored :=
  if isGiven place then some .directory else Entries.get? place t.entries

/-- Stores something at a place. -/
def store (t : FileTree) (place : Path) (s : Stored) : FileTree :=
  ⟨Entries.insert place s t.entries⟩

/-- Walks from a place down a list of names to the place they lead to. The empty name and
the single dot stay where they are, which has to be a directory. -/
def walk (t : FileTree) : (place : Path) → List Text → Except StorageProblem Path
  | place, [] => .ok place
  | place, name :: rest =>
    match t.at? place with
    | none => .error .notFound
    | some (.file _) => .error .notDirectory
    | some .directory =>
      if name.isEmpty || name = "." then t.walk place rest
      else if name = up then t.walk (above place) rest
      else if Path.isLongName name then .error .tooLong
      else t.walk ⟨place.root, place.names ++ [name]⟩ rest

/-- The place that a path means. -/
def locate (t : FileTree) (p : Path) : Except StorageProblem Path :=
  t.walk ⟨min p.root 1, []⟩ p.names

/-- Whether a path text, taken as it is written, leads to something. A slash or a dot at
the end asks for a directory. -/
def hasText (t : FileTree) (s : Text) : Bool :=
  match t.walk ⟨min (Path.ofText s).root 1, []⟩ (Path.pieces s) with
  | .ok place => !s.isEmpty && (t.at? place).isSome
  | .error _ => false

/-- The content of the file at a path. -/
def read (t : FileTree) (p : Path) : Except StorageProblem (List UInt8) := do
  let place ← t.locate p
  match t.at? place with
  | some (.file content) => .ok content
  | some .directory => .error .isDirectory
  | none => .error .notFound

/-- Makes the directory at a path whose parent is there. A directory that is there stays. -/
def makeDirectory (t : FileTree) (p : Path) : Except StorageProblem FileTree := do
  let place ← t.locate p
  match t.at? place with
  | some .directory => .ok t
  | some (.file _) => .error .occupied
  | none => .ok (t.store place .directory)

/-- Makes the directory at a path whose names are given from the last to the first. If
something above it is missing, the directory above is made before. The tree comes back as
it was left, together with what was refused and where. -/
def makeDirectories (root : Nat) : (names : List Text) → FileTree → Except StorageFault Unit × FileTree
  | [], t => (.ok (), t)
  | name :: rest, t =>
    let path : Path := ⟨root, (name :: rest).reverse⟩
    let refuse := fun problem => Except.error (StorageFault.mk problem path.text)
    match t.makeDirectory path with
    | .ok t => (.ok (), t)
    | .error .notFound =>
      match makeDirectories root rest t with
      | (.error fault, t) => (.error fault, t)
      | (.ok (), t) =>
        match t.makeDirectory path with
        | .ok t => (.ok (), t)
        | .error problem => (refuse problem, t)
    | .error problem => (refuse problem, t)

/-- Writes the file at a path, whose directory has to be there. -/
def write (t : FileTree) (p : Path) (content : List UInt8) : Except StorageProblem FileTree := do
  let place ← t.locate p
  match t.at? place with
  | some .directory => .error .isDirectory
  | _ =>
    match t.at? (above place) with
    | some .directory => .ok (t.store place (.file content))
    | _ => .error .notFound

/-- The files of a tree with their contents. -/
def files (t : FileTree) : List (Path × List UInt8) :=
  t.entries.filterMap fun e => match e.2 with
    | .file content => some (e.1, content)
    | .directory => none

/-- Asks for a path. The refusal of a path that can be asked for carries the path. -/
def ask {α : Type} (p : Path) (f : Except StorageProblem α) : Except Fault α := do
  Path.checkText p.text
  f.mapError fun problem => .storage ⟨problem, p.text⟩

/-- A file tree is a storage: what is written is stored, and what is read is looked up. -/
instance : Storage (StateM FileTree) where
  has s := fun t =>
    (match Path.checkText s with
      | .error (.storage _) => .ok false
      | .error fault => .error fault
      | .ok () => .ok (t.hasText s), t)
  read p := fun t => (ask p (t.read p), t)
  makeDirectories p := fun t =>
    match Path.checkText p.text with
    | .error fault => (.error fault, t)
    | .ok () =>
      let (outcome, t) := makeDirectories p.root p.names.reverse t
      (outcome.mapError .storage, t)
  write p content := fun t =>
    match ask p (t.write p content) with
    | .ok t => (.ok (), t)
    | .error fault => (.error fault, t)

end FileTree

end RouteDocs
