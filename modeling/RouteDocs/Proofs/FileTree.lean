import RouteDocs.Storage.FileTree
import RouteDocs.Proofs.Entries

/-!
# `RouteDocs.Proofs.FileTree`: which files a step changes

`fileAt?` is the view of a file tree that a reader of files has: the content at each place.
Making directories does not show in it (`sameFiles_makeDirectories`), and a write shows at one
place only, the one that its path leads to (`exists_of_write`).

A path is walked through directories alone. So what is stored at a place that is no directory
leaves every walk as it was (`walk_store`), and the path of a file that was written still leads
to it.
-/

set_option autoImplicit false

namespace RouteDocs.FileTree

variable {t u : FileTree}

/-- The content of the file at a place, if there is one. -/
def fileAt? (t : FileTree) (place : Path) : Option (List UInt8) :=
  match t.at? place with
  | some (.file content) => some content
  | _ => none

/-- Two trees have the same files with the same contents. -/
def SameFiles (t u : FileTree) : Prop := ∀ place, u.fileAt? place = t.fileAt? place

/-- A tree has the files that it has. -/
theorem SameFiles.refl (t : FileTree) : SameFiles t t := fun _ => rfl

/-- What is the same in two steps is the same. -/
theorem SameFiles.trans {v : FileTree} (h : SameFiles t u) (h' : SameFiles u v) : SameFiles t v :=
  fun place => (h' place).trans (h place)

/-! ### What is stored -/

/-- The root, the current directory and those above it are directories, whatever is stored. -/
theorem at?_of_isGiven {place : Path} (h : isGiven place = true) : t.at? place = some .directory :=
  if_pos h

/-- What is stored at a place is found there, and everything else where it was. -/
theorem at?_store {place : Path} (h : t.at? place ≠ some .directory) (s : Stored) (other : Path) :
    (t.store place s).at? other = if other = place then some s else t.at? other := by
  have hplace : ¬ isGiven place = true := fun hgiven => h (at?_of_isGiven hgiven)
  by_cases hother : isGiven other = true
  · have hne : other ≠ place := fun heq => hplace (heq ▸ hother)
    rw [at?_of_isGiven hother, at?_of_isGiven hother, if_neg hne]
  · rw [at?, if_neg hother, at?, if_neg hother, store, Entries.get?_insert, beq_eq_decide]
    by_cases heq : other = place
    · simp [heq]
    · simp [heq, Ne.symm heq]

/-- The same of the content of files. -/
theorem fileAt?_store_file {place : Path} (h : t.at? place ≠ some .directory)
    (content : List UInt8) (other : Path) :
    (t.store place (.file content)).fileAt? other
      = if other = place then some content else t.fileAt? other := by
  rw [fileAt?, at?_store h]
  by_cases heq : other = place
  · rw [if_pos heq, if_pos heq]
  · rw [if_neg heq, if_neg heq]
    rfl

/-! ### Directories -/

/-- Making a directory changes no file: nothing was at its place. -/
theorem sameFiles_makeDirectory {p : Path} (h : t.makeDirectory p = .ok u) : SameFiles t u := by
  cases hplace : t.locate p with
  | error problem => simp [makeDirectory, hplace, bind, Except.bind] at h
  | ok place =>
      simp only [makeDirectory, hplace, bind, Except.bind] at h
      split at h
      · obtain rfl := Except.ok.inj h
        exact .refl t
      · exact nomatch h
      · rename_i hnone
        obtain rfl := Except.ok.inj h
        intro other
        rw [fileAt?, at?_store (by simp [hnone])]
        by_cases heq : other = place
        · -- There was nothing before, and a directory is no file either.
          rw [if_pos heq, heq, fileAt?, hnone]
        · rw [if_neg heq]
          rfl

/-- Directories that are made on the way down leave the files as they were, also where one of
them is refused. -/
theorem sameFiles_makeDirectories (root : Nat) (names : List Text) (t : FileTree) :
    SameFiles t (makeDirectories root names t).2 := by
  induction names generalizing t with
  | nil => exact .refl t
  | cons name rest ih =>
      rw [makeDirectories]
      dsimp only
      split
      · rename_i h
        exact sameFiles_makeDirectory h
      · have habove := ih t
        split
        · rename_i heq
          rw [heq] at habove
          exact habove
        · rename_i heq
          rw [heq] at habove
          split
          · rename_i h
            exact habove.trans (sameFiles_makeDirectory h)
          · exact habove
      · exact .refl t

/-! ### Walks -/

/-- Where one name leads from a place. -/
def step (t : FileTree) (place : Path) (name : Text) : Except StorageProblem Path :=
  match t.at? place with
  | none => .error .notFound
  | some (.file _) => .error .notDirectory
  | some .directory =>
    if name.isEmpty || name = "." then .ok place
    else if name = up then .ok (above place)
    else if Path.isLongName name then .error .tooLong
    else .ok ⟨place.root, place.names ++ [name]⟩

/-- A walk goes one step, and on from there. -/
theorem walk_cons (start : Path) (name : Text) (rest : List Text) :
    t.walk start (name :: rest) = (t.step start name).bind (t.walk · rest) := by
  rw [walk, step]
  cases t.at? start with
  | none => rfl
  | some stored =>
      cases stored with
      | file content => rfl
      | directory =>
          dsimp only
          split
          · rfl
          · split
            · rfl
            · split <;> rfl

/-- A walk ends with its last step. -/
theorem walk_concat (start : Path) (names : List Text) (name : Text) :
    t.walk start (names ++ [name]) = (t.walk start names).bind (t.step · name) := by
  induction names generalizing start with
  | nil =>
      rw [List.nil_append, walk_cons]
      show _ = t.step start name
      cases t.step start name <;> rfl
  | cons first rest ih =>
      rw [List.cons_append, walk_cons, walk_cons]
      cases t.step start first with
      | error problem => rfl
      | ok place => exact ih place

/-- Only a directory leads anywhere. -/
theorem at?_of_step {start place : Path} {name : Text} (h : t.step start name = .ok place) :
    t.at? start = some .directory := by
  rw [step] at h
  split at h
  · exact nomatch h
  · exact nomatch h
  · assumption

/-- What is stored at a place that is no directory is passed by no walk. -/
theorem walk_store {place : Path} (hplace : t.at? place ≠ some .directory) (s : Stored)
    {names : List Text} {start stop : Path} (h : t.walk start names = .ok stop) :
    (t.store place s).walk start names = .ok stop := by
  induction names generalizing start with
  | nil => exact h
  | cons name rest ih =>
      rw [walk_cons] at h ⊢
      cases hstep : t.step start name with
      | error problem => simp [hstep, Except.bind] at h
      | ok next =>
          have hne : start ≠ place := fun heq => hplace (heq ▸ at?_of_step hstep)
          have hsame : (t.store place s).step start name = .ok next := by
            rw [← hstep, step, step, at?_store hplace, if_neg hne]
          rw [hstep] at h
          rw [hsame]
          exact ih h

/-- A name that is neither empty nor a way to stay or to go up leads to the place of that name in
a directory. -/
theorem step_eq_ok {name : Text} (hname : name ≠ [] ∧ name ≠ "." ∧ name ≠ up) {start place : Path}
    (h : t.step start name = .ok place) : place = ⟨start.root, start.names ++ [name]⟩ := by
  have hstay : ¬ (name.isEmpty || decide (name = ".")) = true := by
    simp [hname.1, hname.2.1]
  rw [step, at?_of_step h] at h
  simp only [if_neg hstay, if_neg hname.2.2] at h
  split at h
  · exact nomatch h
  · exact (Except.ok.inj h).symm

/-- A write stores its content at the place that its path leads to. -/
theorem exists_of_write {p : Path} {content : List UInt8} (h : t.write p content = .ok u) :
    ∃ place, t.locate p = .ok place ∧ t.at? place ≠ some .directory ∧
      u = t.store place (.file content) := by
  cases hplace : t.locate p with
  | error problem => simp [write, hplace, bind, Except.bind] at h
  | ok place =>
      refine ⟨place, rfl, ?_⟩
      simp only [write, hplace, bind, Except.bind] at h
      split at h
      · exact nomatch h
      · rename_i hstored
        split at h
        · exact ⟨hstored, (Except.ok.inj h).symm⟩
        · exact nomatch h

end RouteDocs.FileTree
