import Mathlib.Data.List.TakeWhile
import RouteDocs.Cli
import RouteDocs.Random.Congruential
import RouteDocs.Proofs.FileTree
import RouteDocs.Proofs.PlainText

/-!
# `RouteDocs.Proofs.SavedDocument`: what a run leaves behind

A run of `generate` looks at its arguments, loads settings, base document and manifest, makes the
document, makes the directory, writes the file and says where it is. This module follows the file
tree through these steps.

* `Keeps`: everything up to the document only reads, and so do the other commands (`run_keeps`).
* `save_cases`: making the directory changes no file, and writing changes the one file or nothing.
* `run_generate_cases`: a run fails and leaves all files as they were, or its file is in place.

What is left is the last line. It is written after the file, and a path that holds a surrogate
cannot be written. `run_allOrNothing_iff` says that a run does all or nothing with this one
exception, and `not_allOrNothing_bytePathRun` is a run that is such an exception.

`Saving` holds what a run that gets to its file works with, and the equations that say where each
part comes from. So `Saving.Placed` gives the content of the file in terms of the inputs.
-/

set_option autoImplicit false

namespace RouteDocs

open Text FileTree

namespace Cli

/-! ### Lines that can be written -/

section Lines

/-- A character of an ASCII class is no surrogate. -/
theorem exists_char_of_isOf {p : Char → Bool} {c : CodePoint} (h : c.isOf p = true) :
    ∃ ch, c = .char ch := by
  cases c with
  | char ch => exact ⟨ch, rfl⟩
  | surrogate offset => exact nomatch h

/-- What stands in a style of the terminal are characters, no surrogates. -/
theorem exists_char_of_isStyleParameter {c : CodePoint} (h : isStyleParameter c = true) :
    ∃ ch, c = .char ch := by
  rw [isStyleParameter, Bool.or_eq_true, Bool.or_eq_true, decide_eq_true_iff,
    decide_eq_true_iff] at h
  obtain (h | h) | h := h
  · exact exists_char_of_isOf h
  · exact ⟨_, h⟩
  · exact ⟨_, h⟩

/-- A style sequence has no surrogate. -/
theorem isPlain_take_of_styleLength? {s : Text} {n : Nat} (h : styleLength? s = some n) :
    0 < n ∧ IsPlain (s.take n) := by
  rw [styleLength?.eq_def] at h
  split at h
  · rename_i rest
    dsimp only at h
    split at h
    · rename_i letter after hdrop
      split at h
      · rename_i hletter
        obtain rfl := Option.some.inj h
        -- The sequence is made of the parameters and the letter behind them.
        have hrest : rest = rest.takeWhile isStyleParameter ++ letter :: after := by
          have htake : rest.takeWhile isStyleParameter
              = rest.take (rest.takeWhile isStyleParameter).length :=
            List.prefix_iff_eq_take.mp (List.takeWhile_prefix _)
          have hall := List.take_append_drop (rest.takeWhile isStyleParameter).length rest
          rw [hdrop, ← htake] at hall
          exact hall.symm
        have hparameters : IsPlain (rest.takeWhile isStyleParameter) := fun c hc =>
          exists_char_of_isStyleParameter (List.mem_takeWhile_imp hc)
        generalize rest.takeWhile isStyleParameter = parameters at hrest hparameters ⊢
        obtain ⟨ch, rfl⟩ := exists_char_of_isOf hletter
        subst hrest
        refine ⟨Nat.succ_pos _, ?_⟩
        simp [List.take_append, List.take_of_length_le, hparameters]
      · exact nomatch h
    · exact nomatch h
  · exact nomatch h

/-- Taking styles out of a text takes no surrogate out. -/
theorem isPlain_dropStyles (s : Text) : IsPlain s.dropStyles ↔ IsPlain s := by
  -- The characters that are still to be passed are those of a sequence.
  suffices hgo : ∀ passed, IsPlain (s.take passed) → (IsPlain (dropStyles.go passed s) ↔ IsPlain s) by
    exact hgo 0 (by simp)
  induction s with
  | nil =>
      intro passed _
      rw [dropStyles.go]
  | cons c s ih =>
      intro passed hpassed
      cases passed with
      | succ passed =>
          rw [List.take_succ_cons, IsPlain, List.forall_mem_cons] at hpassed
          obtain ⟨⟨ch, rfl⟩, hpassed⟩ := hpassed
          rw [dropStyles.go, ih passed hpassed, isPlain_cons_char]
      | zero =>
          rw [dropStyles.go]
          cases hstyle : styleLength? (c :: s) with
          | none =>
              show IsPlain (c :: dropStyles.go 0 s) ↔ IsPlain (c :: s)
              rw [IsPlain, IsPlain, List.forall_mem_cons, List.forall_mem_cons]
              exact and_congr_right' (ih 0 (by simp))
          | some length =>
              obtain ⟨hpos, hsequence⟩ := isPlain_take_of_styleLength? hstyle
              obtain ⟨n, rfl⟩ : ∃ n, length = n + 1 := ⟨length - 1, by omega⟩
              rw [List.take_succ_cons, IsPlain, List.forall_mem_cons] at hsequence
              obtain ⟨⟨ch, rfl⟩, hsequence⟩ := hsequence
              rw [isPlain_cons_char]
              exact ih n hsequence

/-- A run that succeeds ends with zero exactly if what it says in the end can be written. -/
theorem exitCode_success (lines : List Line) (text : Text) :
    (Outcome.success lines [say text]).exitCode = 0 ↔ IsPlain text := by
  rw [← isPlain_dropStyles, ← isSome_utf8?_iff]
  have hwritten : written? (say text) = if text.dropStyles.utf8?.isSome then some (say text) else none :=
    rfl
  rw [Outcome.success, written, hwritten]
  cases text.dropStyles.utf8?.isSome with
  | true => exact iff_of_true rfl rfl
  | false => exact iff_of_false nofun nofun

end Lines

/-! ### Steps that only read -/

section Reading

variable {α β ε : Type}

/-- A computation that leaves every file tree as it is. -/
def Keeps (x : StateM FileTree α) : Prop := ∀ t, (x.run t).2 = t

/-- A computation that does nothing leaves every file tree. -/
theorem keeps_pure (a : α) : Keeps (pure a) := fun _ => rfl

/-- A computation whose first step is known goes on from what that step leaves. -/
theorem run_bind_of_eq {x : StateM FileTree α} {f : α → StateM FileTree β} {t u : FileTree} {a : α}
    (h : x.run t = (a, u)) : (x >>= f).run t = (f a).run u := by
  rw [StateT.run_bind, h]
  rfl

/-- After a step that only reads, the next one starts from the same files. -/
theorem Keeps.run_bind {x : StateM FileTree α} (hx : Keeps x) (f : α → StateM FileTree β)
    (t : FileTree) : (x >>= f).run t = (f (x.run t).1).run t := by
  show (f (x.run t).1).run (x.run t).2 = _
  rw [hx t]

/-- Steps that only read only read in a row. -/
theorem Keeps.bind {x : StateM FileTree α} {f : α → StateM FileTree β} (hx : Keeps x)
    (hf : ∀ a, Keeps (f a)) : Keeps (x >>= f) := by
  intro t
  rw [hx.run_bind, hf]

/-- A failure is a result like any other. -/
theorem Keeps.bind_except {x : ExceptT ε (StateM FileTree) α}
    {f : α → ExceptT ε (StateM FileTree) β} (hx : Keeps x.run) (hf : ∀ a, Keeps (f a).run) :
    Keeps (x >>= f).run := by
  rw [ExceptT.run_bind]
  apply Keeps.bind hx
  intro r
  cases r with
  | error e => exact keeps_pure _
  | ok a => exact hf a

section

variable {x : ExceptT ε (StateM FileTree) α} {f : α → ExceptT ε (StateM FileTree) β}
  {t u : FileTree}

/-- After a step that ends, the next one starts from the files that it leaves. -/
theorem run_bind_ok {a : α} (h : x.run.run t = (.ok a, u)) :
    (x >>= f).run.run t = (f a).run.run u := by
  rw [ExceptT.run_bind, StateT.run_bind, h]
  rfl

/-- After a step that fails, nothing more is done. -/
theorem run_bind_error {e : ε} (h : x.run.run t = (.error e, u)) :
    (x >>= f).run.run t = (.error e, u) := by
  rw [ExceptT.run_bind, StateT.run_bind, h]
  rfl

end

/-- Whether an argument names something is read. -/
theorem keeps_argumentExists (arg : Text) :
    Keeps (argumentExists arg : ExceptT Refusal (StateM FileTree) Bool).run := by
  have hask : Keeps (liftM (Storage.has arg : StateM FileTree (Except Fault Bool)) :
      ExceptT Refusal (StateM FileTree) (Except Fault Bool)).run := fun _ => rfl
  apply hask.bind_except
  intro r
  cases r <;> exact keeps_pure _

/-- So is the path of an argument that has to name something. -/
theorem keeps_existingPath (arg : Text) :
    Keeps (existingPath arg : ExceptT Refusal (StateM FileTree) Path).run := by
  apply (keeps_argumentExists arg).bind_except
  intro there
  cases there <;> exact keeps_pure _

/-- Taking an option reads, where the option names a file. -/
theorem keeps_takeOption (job : Job) (option : OptionName × Text) :
    Keeps (takeOption job option : ExceptT Refusal (StateM FileTree) Job).run := by
  obtain ⟨name, value⟩ := option
  cases name with
  | config =>
      apply (keeps_existingPath value).bind_except
      exact fun _ => keeps_pure _
  | output =>
      apply (keeps_argumentExists value).bind_except
      exact fun _ => keeps_pure _
  | seed =>
      rw [takeOption]
      split <;> exact keeps_pure _
  | help => exact keeps_pure _

/-- Taking all options only reads, by induction on them. -/
theorem keeps_foldlM_takeOption (options : List (OptionName × Text)) (job : Job) :
    Keeps (options.foldlM takeOption job : ExceptT Refusal (StateM FileTree) Job).run := by
  induction options generalizing job with
  | nil => exact keeps_pure _
  | cons option options ih =>
      rw [List.foldlM_cons]
      exact (keeps_takeOption job option).bind_except ih

/-- Looking at the arguments changes nothing. -/
theorem keeps_ofParsed (p : Parsed) :
    Keeps (Job.ofParsed p : ExceptT Refusal (StateM FileTree) Job).run := by
  apply (keeps_foldlM_takeOption _ _).bind_except
  intro job
  cases p.positional with
  | nil => exact keeps_pure _
  | cons manifest others =>
      apply (keeps_existingPath manifest).bind_except
      intro path
      split <;> exact keeps_pure _

end Reading

section Runs

variable {σ : Type} [RandomSource σ]

/-- Loading the settings only reads. -/
theorem keeps_loadSettings (config : Option Path) :
    Keeps (Settings.load config : StateM FileTree _) := by
  cases config <;> exact fun _ => rfl

/-- Loading the base document only reads. -/
theorem keeps_loadBase (base : Option Path) :
    Keeps (BaseDocument.loadIfAny base : StateM FileTree _) := by
  cases base <;> exact fun _ => rfl

/-- Loading a manifest only reads. -/
theorem keeps_loadManifest (path : Path) : Keeps (Manifest.load path : StateM FileTree _) :=
  fun _ => rfl

/-- Nothing is written up to the document. -/
theorem keeps_document (env : Environment σ) (job : Job) :
    Keeps (document env job : StateM FileTree _) := by
  apply (keeps_loadSettings job.config).bind
  intro settings
  cases settings with
  | error e => exact keeps_pure _
  | ok settings =>
      apply (keeps_loadBase settings.baseSchema).bind
      intro base
      cases base with
      | error e => exact keeps_pure _
      | ok base =>
          apply (keeps_loadManifest job.manifest).bind
          intro routes
          cases routes <;> exact keeps_pure _

/-- What follows a load only reads if it does so with any lines so far. -/
theorem keeps_after (lines : List Line) {next : List Line → StateM FileTree Outcome}
    (h : ∀ lines, Keeps (next lines)) : Keeps (Outcome.after lines next) := by
  rw [Outcome.after]
  split
  · exact h _
  · exact keeps_pure _

/-- The command that lists routes only reads. -/
theorem keeps_runRoutes (env : Environment σ) (job : Job) :
    Keeps (runRoutes env job : StateM FileTree _) := by
  apply (keeps_loadManifest job.manifest).bind
  intro routes
  cases routes with
  | error e => exact keeps_pure _
  | ok routes =>
      apply keeps_after
      intro lines
      split <;> exact keeps_pure _

/-- A document comes from the settings, the base document and the routes that were loaded. -/
theorem exists_of_document {env : Environment σ} {job : Job} {t : FileTree} {settings : Settings}
    {d : Value} (h : ((document env job : StateM FileTree _).run t).1.2 = .ok (settings, d)) :
    ((Settings.load job.config : StateM FileTree _).run t).1 = .ok settings ∧
      ∃ base routes,
        ((BaseDocument.loadIfAny settings.baseSchema : StateM FileTree _).run t).1 = .ok base ∧
        ((Manifest.load job.manifest : StateM FileTree _).run t).1 = .ok routes ∧
        ((Generation.generate env.now settings base routes).run (env.source job.seed)).1.2
          = .ok d := by
  -- The loaders run one after the other, on files that none of them changes.
  rw [document, (keeps_loadSettings job.config).run_bind] at h
  cases hsettings : ((Settings.load job.config : StateM FileTree _).run t).1 with
  | error e => rw [hsettings] at h; exact nomatch h
  | ok loaded =>
      rw [hsettings] at h
      dsimp only at h
      rw [(keeps_loadBase loaded.baseSchema).run_bind] at h
      cases hbase : ((BaseDocument.loadIfAny loaded.baseSchema : StateM FileTree _).run t).1 with
      | error e => rw [hbase] at h; exact nomatch h
      | ok base =>
          rw [hbase] at h
          dsimp only at h
          rw [(keeps_loadManifest job.manifest).run_bind] at h
          cases hroutes : ((Manifest.load job.manifest : StateM FileTree _).run t).1 with
          | error e => rw [hroutes] at h; exact nomatch h
          | ok routes =>
              rw [hroutes] at h
              change (((Generation.generate env.now loaded base routes).run
                (env.source job.seed)).1.2.map fun d => (loaded, d)) = .ok (settings, d) at h
              cases hdocument : ((Generation.generate env.now loaded base routes).run
                  (env.source job.seed)).1.2 with
              | error e => rw [hdocument] at h; exact nomatch h
              | ok made =>
                  rw [hdocument] at h
                  obtain ⟨rfl, rfl⟩ := Prod.mk.inj (Except.ok.inj h)
                  exact ⟨rfl, base, routes, hbase, rfl, hdocument⟩

/-! ### The file that is written -/

/-- The name of the file. -/
def fileName : Path := ⟨0, ["openapi.json"]⟩

/-- The file in a directory has a content, and all other files are as they were. -/
def PlacedIn (directory : Path) (content : List UInt8) (t u : FileTree) : Prop :=
  ∃ place, u.locate directory = .ok place ∧
    ∀ other, u.fileAt? other = if other = place.join fileName then some content else t.fileAt? other

/-- What a run that writes a document works with: what its arguments ask for, what it loads, the
document made from that, and the bytes of the document. -/
structure Saving (env : Environment σ) (p : Parsed) (t : FileTree) where
  /-- What the arguments ask for. -/
  job : Job
  /-- The settings that were loaded. -/
  settings : Settings
  /-- The base document that was loaded. -/
  base : List (Scalar × Value)
  /-- The routes of the manifest that was loaded. -/
  routes : List Route
  /-- The document. -/
  document : Value
  /-- What is to be in the file. -/
  bytes : List UInt8
  job_eq : ((Job.ofParsed p : ExceptT Refusal (StateM FileTree) Job).run.run t).1 = .ok job
  settings_eq : ((Settings.load job.config : StateM FileTree _).run t).1 = .ok settings
  base_eq : ((BaseDocument.loadIfAny settings.baseSchema : StateM FileTree _).run t).1 = .ok base
  routes_eq : ((Manifest.load job.manifest : StateM FileTree _).run t).1 = .ok routes
  document_eq : ((Generation.generate env.now settings base routes).run (env.source job.seed)).1.2
    = .ok document
  bytes_eq : documentBytes document = .ok bytes

namespace Saving

variable {env : Environment σ} {p : Parsed} {t : FileTree}

/-- The directory that the arguments name, or else the settings. -/
def directory (s : Saving env p t) : Path := s.job.output.getD s.settings.output

/-- The path of the file. -/
def path (s : Saving env p t) : Path := s.directory.join fileName

/-- The file is in the directory, with the bytes of the document, and there is no other change to
the files. -/
def Placed (s : Saving env p t) (u : FileTree) : Prop :=
  PlacedIn s.directory s.bytes t u

/-- The arguments and the settings decide the path. -/
theorem path_eq (s s' : Saving env p t) : s.path = s'.path := by
  have hjob : s.job = s'.job := Except.ok.inj (s.job_eq.symm.trans s'.job_eq)
  have hload := s.settings_eq
  rw [hjob] at hload
  have hsettings : s.settings = s'.settings := Except.ok.inj (hload.symm.trans s'.settings_eq)
  rw [path, path, directory, directory, hjob, hsettings]

end Saving

/-- A write that succeeds places the file in its directory. -/
theorem placedIn_of_write {t u : FileTree} {directory : Path} {content : List UInt8}
    (h : t.write (directory.join fileName) content = .ok u) : PlacedIn directory content t u := by
  obtain ⟨place, hlocate, hstored, rfl⟩ := exists_of_write h
  -- The last step of the path is from the place of the directory.
  have hwalk : t.walk ⟨min directory.root 1, []⟩ (directory.names ++ fileName.names) = .ok place :=
    hlocate
  rw [fileName, walk_concat] at hwalk
  cases hparent : t.walk ⟨min directory.root 1, []⟩ directory.names with
  | error problem =>
      rw [hparent] at hwalk
      exact nomatch hwalk
  | ok parent =>
      rw [hparent] at hwalk
      have hplace : place = parent.join fileName :=
        step_eq_ok ⟨by decide, by decide, by decide⟩ hwalk
      refine ⟨parent, walk_store hstored _ hparent, ?_⟩
      intro other
      rw [fileAt?_store_file hstored, hplace]

/-- A file that is placed after directories were made is placed in what was there before:
directories are no files. -/
theorem PlacedIn.of_sameFiles {directory : Path} {content : List UInt8} {t t' u : FileTree}
    (h : PlacedIn directory content t' u) (hsame : SameFiles t t') :
    PlacedIn directory content t u := by
  obtain ⟨place, hlocate, hfiles⟩ := h
  refine ⟨place, hlocate, ?_⟩
  intro other
  rw [hfiles, hsame]

/-- Making directories changes no file, whether it succeeds or not. -/
theorem sameFiles_storageMakeDirectories (directory : Path) (t : FileTree) :
    SameFiles t ((Storage.makeDirectories directory : StateM FileTree _).run t).2 := by
  simp only [Storage.makeDirectories, StateT.run]
  cases Path.checkText directory.text with
  | error f => exact .refl t
  | ok _ => exact sameFiles_makeDirectories directory.root directory.names.reverse t

/-- A write fails and leaves the tree, or succeeds. -/
theorem storageWrite_cases (path : Path) (content : List UInt8) (t : FileTree) :
    (∃ f, (Storage.write path content : StateM FileTree _).run t = (.error f, t)) ∨
      ∃ u, t.write path content = .ok u ∧
        (Storage.write path content : StateM FileTree _).run t = (.ok (), u) := by
  simp only [Storage.write, StateT.run, ask]
  cases Path.checkText path.text with
  | error f => exact .inl ⟨f, rfl⟩
  | ok _ =>
      cases t.write path content with
      | error problem => exact .inl ⟨_, rfl⟩
      | ok u => exact .inr ⟨u, rfl, rfl⟩

/-- Saving writes the file, or changes none. -/
theorem save_cases {directory : Path} {d : Value} {t u : FileTree} {r : Except Fault Path}
    (h : (save directory d : ExceptT Fault (StateM FileTree) Path).run.run t = (r, u)) :
    (∃ f, r = .error f) ∧ SameFiles t u ∨
      r = .ok (directory.join fileName) ∧
        ∃ bytes, documentBytes d = .ok bytes ∧ PlacedIn directory bytes t u := by
  have hmade := sameFiles_storageMakeDirectories directory t
  cases hdirectories : (Storage.makeDirectories directory : StateM FileTree _).run t with
  | mk made t' =>
      rw [hdirectories] at hmade
      cases made with
      | error f =>
          rw [save, run_bind_error hdirectories] at h
          obtain ⟨rfl, rfl⟩ := Prod.mk.inj h
          exact .inl ⟨⟨f, rfl⟩, hmade⟩
      | ok _ =>
          -- The directory stays if there are no bytes to write, and it is no file.
          rw [save, run_bind_ok hdirectories] at h
          cases hbytes : documentBytes d with
          | error f =>
              have hlift : (liftM (documentBytes d) : ExceptT Fault (StateM FileTree) _).run.run t'
                  = (.error f, t') := by
                rw [hbytes]
                rfl
              rw [run_bind_error hlift] at h
              obtain ⟨rfl, rfl⟩ := Prod.mk.inj h
              exact .inl ⟨⟨f, rfl⟩, hmade⟩
          | ok bytes =>
              have hlift : (liftM (documentBytes d) : ExceptT Fault (StateM FileTree) _).run.run t'
                  = (.ok bytes, t') := by
                rw [hbytes]
                rfl
              rw [run_bind_ok hlift] at h
              obtain ⟨f, hwrite⟩ | ⟨t'', hplaced, hwrite⟩ :=
                storageWrite_cases (directory.join fileName) bytes t'
              · rw [fileName] at hwrite
                rw [run_bind_error hwrite] at h
                obtain ⟨rfl, rfl⟩ := Prod.mk.inj h
                exact .inl ⟨⟨f, rfl⟩, hmade⟩
              · rw [fileName] at hwrite
                rw [run_bind_ok hwrite] at h
                obtain ⟨rfl, rfl⟩ := Prod.mk.inj h
                exact .inr ⟨rfl, bytes, rfl, (placedIn_of_write hplaced).of_sameFiles hmade⟩

/-! ### Runs -/

/-- A run that fails ends with one. -/
theorem exitCode_failed (lines : List Line) (e : Error) : (Outcome.failed lines e).exitCode = 1 := by
  rw [Outcome.failed]
  split <;> rfl

/-- Arguments that are refused end a run with something other than zero. -/
theorem exitCode_refusal (r : Refusal) : r.outcome.exitCode ≠ 0 := by
  cases r <;> exact nofun

/-- A job either fails and leaves the files as they were, or its file is written. Then it fails
only if the line that says where cannot be written. -/
theorem runGenerate_cases {env : Environment σ} {job : Job} {t u : FileTree} {o : Outcome}
    (h : (runGenerate env job : StateM FileTree Outcome).run t = (o, u)) :
    o.exitCode ≠ 0 ∧ SameFiles t u ∨
      ∃ settings d bytes, ((document env job : StateM FileTree _).run t).1.2 = .ok (settings, d) ∧
        documentBytes d = .ok bytes ∧ PlacedIn (job.output.getD settings.output) bytes t u ∧
        (o.exitCode = 0 ↔ IsPlain ((job.output.getD settings.output).join fileName).text) := by
  rw [runGenerate, (keeps_document env job).run_bind] at h
  cases hdocument : ((document env job : StateM FileTree _).run t).1 with
  | mk lines result =>
      rw [hdocument] at h
      dsimp only at h
      rw [Outcome.after] at h
      split at h
      · rename_i lines _
        cases result with
        | error e =>
            obtain ⟨rfl, rfl⟩ := Prod.mk.inj h
            exact .inl ⟨by rw [exitCode_failed]; decide, .refl t⟩
        | ok made =>
            obtain ⟨settings, d⟩ := made
            -- Only this step writes files: it places the document, or leaves all files alone.
            cases hsave : (save (job.output.getD settings.output) d :
                ExceptT Fault (StateM FileTree) Path).run.run t with
            | mk saved t' =>
                rw [run_bind_of_eq hsave] at h
                obtain ⟨⟨f, rfl⟩, hsame⟩ | ⟨rfl, bytes, hbytes, hplaced⟩ := save_cases hsave
                · obtain ⟨rfl, rfl⟩ := Prod.mk.inj h
                  exact .inl ⟨nofun, hsame⟩
                · obtain ⟨rfl, rfl⟩ := Prod.mk.inj h
                  refine .inr ⟨settings, d, bytes, rfl, hbytes, hplaced, ?_⟩
                  rw [exitCode_success, isPlain_append]
                  exact and_iff_right (isPlain_ofString _)
      · obtain ⟨rfl, rfl⟩ := Prod.mk.inj h
        exact .inl ⟨nofun, .refl t⟩

/-- A run of `generate` either fails and leaves the files as they were, or its file is written.
Then it fails only if the path of the file cannot be shown. -/
theorem run_generate_cases {env : Environment σ} {args : List Text} {p : Parsed}
    (hargs : Command.parse? args = some (.generate p)) {t u : FileTree} {o : Outcome}
    (h : (run env args : StateM FileTree Outcome).run t = (o, u)) :
    o.exitCode ≠ 0 ∧ SameFiles t u ∨
      ∃ s : Saving env p t, s.Placed u ∧ (o.exitCode = 0 ↔ IsPlain s.path.text) := by
  rw [run, hargs] at h
  change (start p (runGenerate env) : StateM FileTree Outcome).run t = (o, u) at h
  rw [start, (keeps_ofParsed p).run_bind] at h
  cases hjob : ((Job.ofParsed p : ExceptT Refusal (StateM FileTree) Job).run.run t).1 with
  | error refusal =>
      rw [hjob] at h
      obtain ⟨rfl, rfl⟩ := Prod.mk.inj h
      exact .inl ⟨exitCode_refusal refusal, .refl t⟩
  | ok job =>
      rw [hjob] at h
      obtain hfailed | ⟨settings, d, bytes, hdocument, hbytes, hplaced, hcode⟩ := runGenerate_cases h
      · exact .inl hfailed
      · obtain ⟨hsettings, base, routes, hbase, hroutes, hmade⟩ := exists_of_document hdocument
        exact .inr ⟨⟨job, settings, base, routes, d, bytes, hjob, hsettings, hbase, hroutes, hmade,
          hbytes⟩, hplaced, hcode⟩

/-- The other commands, and arguments that are refused, leave the file tree as it is. -/
theorem run_keeps (env : Environment σ) {args : List Text}
    (h : ∀ p, Command.parse? args ≠ some (.generate p)) :
    Keeps (run env args : StateM FileTree Outcome) := by
  rw [run]
  cases hargs : Command.parse? args with
  | none => exact keeps_pure _
  | some command =>
      cases command with
      | generate p => exact absurd hargs (h p)
      | help topic => exact keeps_pure _
      | routes p =>
          apply (keeps_ofParsed p).bind
          intro r
          cases r with
          | error refusal => exact keeps_pure _
          | ok job => exact keeps_runRoutes env job

/-- A run that fails leaves the files as they were, and one that succeeds writes its file and
changes no other. -/
def AllOrNothing (env : Environment σ) (p : Parsed) (t u : FileTree) (o : Outcome) : Prop :=
  (o.exitCode ≠ 0 → SameFiles t u) ∧ (o.exitCode = 0 → ∃ s : Saving env p t, s.Placed u)

/-- A run of `generate` does all or nothing, unless it has written its file and cannot say where,
since the path of the file has a surrogate. No other run changes anything. -/
theorem run_allOrNothing_iff (env : Environment σ) (args : List Text) (t u : FileTree) (o : Outcome)
    (h : (run env args : StateM FileTree Outcome).run t = (o, u)) :
    (∀ p, Command.parse? args = some (.generate p) →
      (AllOrNothing env p t u o ↔
        ¬ ∃ s : Saving env p t, s.Placed u ∧ ¬ IsPlain s.path.text ∧ ¬ SameFiles t u)) ∧
      ((∀ p, Command.parse? args ≠ some (.generate p)) → u = t) := by
  constructor
  · intro p hargs
    obtain ⟨hcode, hsame⟩ | ⟨s, hplaced, hcode⟩ := run_generate_cases hargs h
    · refine iff_of_true ⟨fun _ => hsame, fun hzero => absurd hzero hcode⟩ ?_
      intro hex
      obtain ⟨-, -, -, hchanged⟩ := hex
      exact hchanged hsame
    · by_cases hplain : IsPlain s.path.text
      · -- The last line is written, and the path is the same for whatever is saved.
        refine iff_of_true ⟨fun hne => absurd (hcode.mpr hplain) hne, fun _ => ⟨s, hplaced⟩⟩ ?_
        intro hex
        obtain ⟨s', -, hshown, -⟩ := hex
        exact hshown (s'.path_eq s ▸ hplain)
      · -- The run fails with its file in place. That is nothing only if the file was there before
        -- with the same content.
        have hfails : o.exitCode ≠ 0 := fun hzero => hplain (hcode.mp hzero)
        constructor
        · intro hall hex
          obtain ⟨-, -, -, hchanged⟩ := hex
          exact hchanged (hall.1 hfails)
        · intro hnot
          refine ⟨fun _ => ?_, fun hzero => absurd hzero hfails⟩
          by_contra hchanged
          exact hnot ⟨s, hplaced, hplain, hchanged⟩
  · intro hother
    have hkeeps := run_keeps env hother t
    rw [h] at hkeeps
    exact hkeeps

end Runs

/-! ### Two runs -/

/-- A directory with the given files. -/
def folder (files : List (Text × Text)) : FileTree :=
  ⟨files.map fun f => (⟨0, [f.1]⟩, .file (f.2.utf8?.getD []))⟩

/-- A world for runs that draw nothing. -/
def stillWorld : Environment Congruential :=
  { source := fun _ => Congruential.ofSeed 0, now := ⟨⟨2024, 5, 17⟩, 12, 0, 0, 0, some 0⟩ }

/-- A run with a manifest without routes. -/
def emptyRun : Outcome × FileTree :=
  (run stillWorld ["generate", "m.yaml"] : StateM FileTree Outcome).run (folder [("m.yaml", "[]")])

/-- The run with an empty manifest writes its document and nothing else. -/
theorem allOrNothing_emptyRun :
    emptyRun.1.exitCode = 0 ∧ AllOrNothing stillWorld ⟨[], ["m.yaml"]⟩ (folder [("m.yaml", "[]")])
      emptyRun.2 emptyRun.1 := by
  have hcode : emptyRun.1.exitCode = 0 := by decide +kernel
  have hargs : Command.parse? ["generate", "m.yaml"] = some (.generate ⟨[], ["m.yaml"]⟩) := by
    decide
  have hrun : (run stillWorld ["generate", "m.yaml"] : StateM FileTree Outcome).run
      (folder [("m.yaml", "[]")]) = (emptyRun.1, emptyRun.2) :=
    (Prod.eta emptyRun).symm
  refine ⟨hcode, ((run_allOrNothing_iff _ _ _ _ _ hrun).1 _ hargs).mpr ?_⟩
  intro hex
  obtain ⟨s', -, hshown, -⟩ := hex
  obtain ⟨hfailed, -⟩ | ⟨s, -, hplain⟩ := run_generate_cases hargs hrun
  · exact hfailed hcode
  · exact hshown (s'.path_eq s ▸ hplain.mp hcode)

/-- A directory with an empty manifest, and settings whose output goes through a directory that is
named by a byte. -/
def byteFolder : FileTree :=
  folder [("m.yaml", "[]"), ("s.yaml", "output: \"\\udc80/../out\"\n")]

/-- A run in that directory. -/
def bytePathRun : Outcome × FileTree :=
  (run stillWorld ["generate", "m.yaml", "-c", "s.yaml"] : StateM FileTree Outcome).run byteFolder

/-- It fails and leaves a file that was not there. -/
theorem not_allOrNothing_bytePathRun :
    ¬ AllOrNothing stillWorld ⟨[(.config, "s.yaml")], ["m.yaml"]⟩ byteFolder bytePathRun.2
      bytePathRun.1 := by
  have hrun : bytePathRun.1.exitCode ≠ 0 ∧
      (bytePathRun.2.fileAt? ⟨0, ["out", "openapi.json"]⟩).isSome = true := by
    decide +kernel
  intro hall
  have hsame := hall.1 hrun.1 ⟨0, ["out", "openapi.json"]⟩
  have hnew : byteFolder.fileAt? ⟨0, ["out", "openapi.json"]⟩ = none := by decide
  rw [hsame, hnew] at hrun
  exact absurd hrun.2 nofun

end Cli

end RouteDocs
