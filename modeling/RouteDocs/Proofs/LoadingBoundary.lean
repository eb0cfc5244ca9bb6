import RouteDocs.Proofs.ManifestFaults
import RouteDocs.Proofs.SavedDocument

/-!
# `RouteDocs.Proofs.LoadingBoundary`: how loading fails

Settings, base document and manifest are loaded from files that may hold anything. A loader is
meant to return what it loads, or to fail with a report of its own kind. `loading_boundary` says how
far this goes. Each loader returns, or reports, or fails by a fault, and the faults have exactly the
causes that `FileFault` lists.

* Every file: its path cannot be asked for, or its bytes are not UTF-8.
* A YAML file: a scalar has no value, such as a date in a thirteenth month.
* A JSON file: a number has too many digits, or the nesting is too deep.
* Settings: a key is not a text. A manifest: an entry has a shape that it cannot have, see
  `RouteDocs.Proofs.ManifestFaults`.

A run that stops at loading ends with the report as its last line. By a fault it breaks off
without one.
-/

set_option autoImplicit false

namespace RouteDocs

open Text

/-- A failure is about the base document. -/
def Error.IsBaseDocument (e : Error) : Prop := ∃ problem, e = .baseDocument problem

/-! ### Files -/

section Files

variable {α : Type} {declared : Error → Prop}

/-- A file holds a text. -/
def HoldsText (content : Except Fault (List UInt8)) (text : Text) : Prop :=
  ∃ bytes, content = .ok bytes ∧ textOfBytes? bytes = some text

/-- Why a file cannot be loaded, by a fault, with the causes that its text may give. -/
inductive FileFault (cause : Text → Fault → Prop) (content : Except Fault (List UInt8)) :
    Fault → Prop where
  /-- The path cannot be asked for. -/
  | path {f : Fault} (h : content = .error f) (hf : ∀ s, f ≠ .storage s) : FileFault cause content f
  /-- The bytes are not UTF-8. -/
  | bytes {b : List UInt8} (h : content = .ok b) (hb : textOfBytes? b = none) :
      FileFault cause content .undecodable
  /-- The text is the cause. -/
  | text {text : Text} {f : Fault} (h : HoldsText content text) (hf : cause text f) :
      FileFault cause content f

/-- What `use` makes of the text of a file. A refusal of the storage is reported. -/
def readText (report : StorageFault → Error) (use : Text → Except Error α)
    (content : Except Fault (List UInt8)) : Except Error α :=
  match content with
  | .error (.storage fault) => .error (report fault)
  | .error fault => .error (.fault fault)
  | .ok bytes =>
    match textOfBytes? bytes with
    | none => .error (.fault .undecodable)
    | some text => use text

/-- A file that is used as a text fails as its use does, or by what no text is made of: a refusal
of the storage is reported, and bytes that are no UTF-8 are a fault. -/
theorem readText_failsAs {report : StorageFault → Error} {use : Text → Except Error α}
    {cause : Text → Fault → Prop} (hreport : ∀ s, declared (report s))
    (huse : ∀ text, FailsAs declared (cause text) (use text))
    (content : Except Fault (List UInt8)) :
    FailsAs declared (FileFault cause content) (readText report use content) where
  ends := by
    -- Reading stops at the storage, then at the bytes, and then in the use of the text.
    rw [readText.eq_def]
    split
    · exact .error (.inl (hreport _))
    · rename_i f hf
      exact .error (.inr ⟨f, rfl, .path rfl hf⟩)
    · rename_i bytes
      cases hbytes : textOfBytes? bytes with
      | none => exact .error (.inr ⟨_, rfl, .bytes rfl hbytes⟩)
      | some text =>
          refine (huse text).ends.mono_error fun e => Or.imp_right ?_
          rintro ⟨f, rfl, hf⟩
          exact ⟨f, rfl, .text ⟨bytes, rfl, hbytes⟩ hf⟩
  of_cause f h := by
    cases h with
    | path h hf =>
        rw [h, readText]
        · exact hf
    | bytes h hb =>
        rw [h, readText, hb]
    | text h hf =>
        obtain ⟨bytes, h, hbytes⟩ := h
        rw [h, readText, hbytes]
        exact (huse _).of_cause f hf

/-- Why a YAML text cannot be loaded, by a fault, with the causes that its content may give. -/
inductive YamlFault (cause : Part → Fault → Prop) (text : Text) : Fault → Prop where
  /-- A scalar has no value. -/
  | scalar {f : Fault} (h : Yaml.read text = .error (.fault f)) : YamlFault cause text f
  /-- The content is the cause. -/
  | content {p : Part} {f : Fault} (h : Yaml.read text = .ok p) (hf : cause p f) :
      YamlFault cause text f

/-- What `use` makes of the content of a YAML text. -/
def readYaml (report : Error) (use : Part → Except Error α) (text : Text) : Except Error α :=
  match Yaml.read text with
  | .error .malformed => .error report
  | .error (.fault f) => .error (.fault f)
  | .ok p => use p

/-- A text that is used as YAML fails as the use of its content does, or by a fault of reading it.
A text that is no YAML is reported. -/
theorem readYaml_failsAs {report : Error} {use : Part → Except Error α}
    {cause : Part → Fault → Prop} (hreport : declared report)
    (huse : ∀ p, FailsAs declared (cause p) (use p)) (text : Text) :
    FailsAs declared (YamlFault cause text) (readYaml report use text) where
  ends := by
    rw [readYaml]
    split
    · exact .error (.inl hreport)
    · rename_i f hread
      exact .error (.inr ⟨f, rfl, .scalar hread⟩)
    · rename_i p hread
      refine (huse p).ends.mono_error fun e => Or.imp_right ?_
      rintro ⟨f, rfl, hf⟩
      exact ⟨f, rfl, .content hread hf⟩
  of_cause f h := by
    cases h with
    | scalar h => rw [readYaml, h]
    | content h hf =>
        rw [readYaml, h]
        exact (huse _).of_cause f hf

end Files

/-! ### The three loaders -/

namespace Settings

/-- Why settings cannot be made of a content, by a fault: a key is not a text. -/
inductive ContentFault (p : Part) : Fault → Prop where
  | oddKey {entries : List (Scalar × Part)} (hp : p.view = .map entries) (h : HasOddKey entries) :
      ContentFault p .wrongKind

/-- Settings are made of a content, or the content is reported, or a key of it is not a text. -/
theorem ofPart_failsAs (path : Path) (p : Part) :
    FailsAs Error.IsConfig (ContentFault p) (ofPart path p) where
  ends := by
    rw [ofPart]
    split
    · rename_i entries hview
      split
      · rename_i hkeys
        rw [Bool.not_eq_true', hasTextKeys_eq_false_iff] at hkeys
        -- What counts as no settings has no keys.
        have hp : p.view = .map entries := by
          split at hview
          · exact hview
          · cases hview
            obtain ⟨_, h, -⟩ := hkeys
            cases h
        exact .error (.inr ⟨_, rfl, .oddKey hp hkeys⟩)
      · split
        · exact .error (.inl ⟨_, rfl⟩)
        · exact .ok trivial
    · exact .error (.inl ⟨_, rfl⟩)
  of_cause f h := by
    cases h with
    | @oddKey entries hp h =>
        have htruthy : p.isTruthy = true := by
          obtain ⟨x, hx, -⟩ := h
          rw [Part.isTruthy, hp]
          cases entries with
          | nil => cases hx
          | cons _ _ => rfl
        rw [ofPart, if_pos htruthy, hp]
        dsimp only
        rw [hasTextKeys_eq_false_iff.mpr h]
        rfl

/-- A settings file is loaded as a text, then as YAML, then as settings. -/
theorem ofFile_eq_readText (path : Path) (content : Except Fault (List UInt8)) :
    ofFile path content
      = readText (fun s => .config (.unreadableSettings path.text (.storage s)))
        (readYaml (.config (.unreadableSettings path.text .yaml)) (ofPart path)) content :=
  rfl

/-- So its faults are those of the three steps, and all else is reported. -/
theorem ofFile_failsAs (path : Path) (content : Except Fault (List UInt8)) :
    FailsAs Error.IsConfig (FileFault (YamlFault ContentFault) content) (ofFile path content) := by
  rw [ofFile_eq_readText]
  refine readText_failsAs (fun s => ⟨_, rfl⟩) (fun text => ?_) content
  exact readYaml_failsAs ⟨_, rfl⟩ (ofPart_failsAs path) text

end Settings

namespace Manifest

/-- A manifest is loaded as a text, then as YAML, then as routes. -/
theorem ofFile_eq_readText (path : Path) (content : Except Fault (List UInt8)) :
    ofFile path content
      = readText (fun s => .config (.unreadableManifest path.text (.storage s)))
        (readYaml (.config (.unreadableManifest path.text .yaml)) (routesOf path)) content :=
  rfl

/-- So its faults are those of the three steps, and all else is reported. -/
theorem ofFile_failsAs (path : Path) (content : Except Fault (List UInt8)) :
    FailsAs Error.IsConfig (FileFault (YamlFault ContentFault) content) (ofFile path content) := by
  rw [ofFile_eq_readText]
  refine readText_failsAs (fun s => ⟨_, rfl⟩) (fun text => ?_) content
  exact readYaml_failsAs ⟨_, rfl⟩ (routesOf_failsAs path) text

end Manifest

namespace BaseDocument

/-- Why a base document cannot be made of a text, by a fault. -/
inductive ContentFault (path : Path) (text : Text) : Fault → Prop where
  /-- It is YAML, and a scalar has no value. -/
  | scalar {f : Fault} (hname : isYamlName path = true) (h : Yaml.read text = .error (.fault f)) :
      ContentFault path text f
  /-- It is JSON, and a number has too many digits. -/
  | digits (hname : isYamlName path = false) (h : Json.read text = .error .tooManyDigits) :
      ContentFault path text .badValue
  /-- It is JSON, and nested too deeply. -/
  | depth (hname : isYamlName path = false) (h : Json.read text = .error .tooDeep) :
      ContentFault path text .endless

/-- A text is read as JSON or as YAML, or it is reported, or it is a fault of the reader. -/
theorem valueOf_failsAs (path : Path) (text : Text) :
    FailsAs Error.IsBaseDocument (ContentFault path text) (valueOf path text) where
  ends := by
    rw [valueOf]
    dsimp only
    -- The name of the file tells whether it is read as YAML or as JSON.
    split
    · rename_i hname
      split
      · exact .error (.inl ⟨_, rfl⟩)
      · rename_i f hread
        exact .error (.inr ⟨f, rfl, .scalar hname hread⟩)
      · split <;> exact .ok trivial
    · rename_i hname
      rw [Bool.not_eq_true] at hname
      split
      · exact .error (.inl ⟨_, rfl⟩)
      · rename_i hread
        exact .error (.inr ⟨_, rfl, .digits hname hread⟩)
      · rename_i hread
        exact .error (.inr ⟨_, rfl, .depth hname hread⟩)
      · exact .ok trivial
  of_cause f h := by
    cases h with
    | scalar hname h => rw [valueOf, if_pos hname, h]
    | digits hname h => rw [valueOf, if_neg (by rw [hname]; decide), h]
    | depth hname h => rw [valueOf, if_neg (by rw [hname]; decide), h]

/-- The entries of a base document from its text. -/
def entriesOf (path : Path) (text : Text) : Except Error (List (Scalar × Value)) := do
  match ← valueOf path text with
  | .map entries => .ok entries
  | _ => .error (.baseDocument (.notMap path.text))

/-- The value of a base document has to be a mapping, and is reported if it is not. -/
theorem entriesOf_failsAs (path : Path) (text : Text) :
    FailsAs Error.IsBaseDocument (ContentFault path text) (entriesOf path text) where
  ends := by
    refine (valueOf_failsAs path text).ends.bind fun v _ => ?_
    split
    · exact .ok trivial
    · exact .error (.inl ⟨_, rfl⟩)
  of_cause f h := by
    rw [entriesOf, (valueOf_failsAs path text).of_cause f h]
    rfl

/-- A base document is loaded as a text, which is then read by the ending of its path. -/
theorem ofFile_eq_readText (path : Path) (content : Except Fault (List UInt8)) :
    ofFile path content
      = readText (fun s => .baseDocument (.unreadable path.text s)) (entriesOf path) content :=
  rfl

/-- So its faults are those of the file and of its text, and all else is reported. -/
theorem ofFile_failsAs (path : Path) (content : Except Fault (List UInt8)) :
    FailsAs Error.IsBaseDocument (FileFault (ContentFault path) content) (ofFile path content) := by
  rw [ofFile_eq_readText]
  exact readText_failsAs (fun s => ⟨_, rfl⟩) (entriesOf_failsAs path) content

end BaseDocument

/-! ### Runs that stop at loading -/

/-- What a computation gives in a file tree. -/
def FileTree.gives {α : Type} (t : FileTree) (x : StateM FileTree α) : α := (x.run t).1

namespace Cli

/-- After a step that only reads, the next one gives what it would give at once. -/
theorem Keeps.gives_bind {α β : Type} {x : StateM FileTree α} (h : Keeps x)
    (f : α → StateM FileTree β) (t : FileTree) : t.gives (x >>= f) = t.gives (f (t.gives x)) := by
  rw [FileTree.gives, h.run_bind]
  rfl

/-- The last line of a run that ends with a report. -/
def reportLine (message : Text) : Line :=
  ⟨.diagnostics, "Error: " ++ message.dropStyles.flatMap escaped⟩

/-- A run ends with the report of a failure. -/
def Outcome.Reports (o : Outcome) (e : Error) : Prop :=
  ∃ before message, e.message? = some message ∧ o = ⟨1, before ++ [reportLine message], none⟩

/-- A run breaks off by a fault, which is not among its lines. -/
def Outcome.Breaks (o : Outcome) (f : Fault) : Prop := ∃ before, o = .broken before f

/-- A failure that is about the settings, the manifest or the base document is reported. -/
theorem reports_failed (before : List Line) {e : Error} (h : e.IsConfig ∨ e.IsBaseDocument) :
    (Outcome.failed before e).Reports e := by
  obtain ⟨problem, rfl⟩ | ⟨problem, rfl⟩ := h
  · exact ⟨before, _, rfl, rfl⟩
  · exact ⟨before, _, rfl, rfl⟩

/-- A fault breaks the run off. -/
theorem breaks_failed (before : List Line) (f : Fault) :
    (Outcome.failed before (.fault f)).Breaks f :=
  ⟨before, rfl⟩

section Stops

variable {σ : Type} [RandomSource σ] {env : Environment σ} {t : FileTree} {job : Job} {e : Error}
  {settings : Settings} {base : List (Scalar × Value)}

/-- Loading stops a run of a command in a file tree. Settings come first, then the base document
that they name, then the line about the manifest, then the manifest. -/
inductive LoadingStop (t : FileTree) : Command → Error → Prop where
  /-- The settings are not loaded. -/
  | settings {p : Parsed} {job : Job} {e : Error}
      (hjob : t.gives (Job.ofParsed p).run = .ok job)
      (h : t.gives (Settings.load job.config) = .error e) :
      LoadingStop t (.generate p) e
  /-- The base document is not loaded. -/
  | base {p : Parsed} {job : Job} {settings : Settings} {e : Error}
      (hjob : t.gives (Job.ofParsed p).run = .ok job)
      (hsettings : t.gives (Settings.load job.config) = .ok settings)
      (h : t.gives (BaseDocument.loadIfAny settings.baseSchema) = .error e) :
      LoadingStop t (.generate p) e
  /-- The path of the manifest cannot be written. -/
  | unshown {p : Parsed} {job : Job} {settings : Settings} {base : List (Scalar × Value)}
      (hjob : t.gives (Job.ofParsed p).run = .ok job)
      (hsettings : t.gives (Settings.load job.config) = .ok settings)
      (hbase : t.gives (BaseDocument.loadIfAny settings.baseSchema) = .ok base)
      (hpath : ¬ IsPlain job.manifest.text) : LoadingStop t (.generate p) (.fault .unencodable)
  /-- The manifest is not loaded. -/
  | manifest {p : Parsed} {job : Job} {settings : Settings} {base : List (Scalar × Value)}
      {e : Error}
      (hjob : t.gives (Job.ofParsed p).run = .ok job)
      (hsettings : t.gives (Settings.load job.config) = .ok settings)
      (hbase : t.gives (BaseDocument.loadIfAny settings.baseSchema) = .ok base)
      (hpath : IsPlain job.manifest.text)
      (h : t.gives (Manifest.load job.manifest) = .error e) :
      LoadingStop t (.generate p) e
  /-- The manifest of a listing is not loaded. -/
  | listing {p : Parsed} {job : Job} {e : Error}
      (hjob : t.gives (Job.ofParsed p).run = .ok job)
      (h : t.gives (Manifest.load job.manifest) = .error e) :
      LoadingStop t (.routes p) e

/-- When the settings cannot be loaded, nothing else is tried. -/
theorem document_of_settings (h : t.gives (Settings.load job.config) = .error e) :
    t.gives (document env job) = ([], .error e) := by
  rw [document, (keeps_loadSettings job.config).gives_bind, h]
  rfl

/-- When the base document cannot be loaded, the manifest is not. -/
theorem document_of_base
    (hsettings : t.gives (Settings.load job.config) = .ok settings)
    (h : t.gives (BaseDocument.loadIfAny settings.baseSchema) = .error e) :
    t.gives (document env job) = ([], .error e) := by
  rw [document, (keeps_loadSettings job.config).gives_bind, hsettings]
  dsimp only
  rw [(keeps_loadBase settings.baseSchema).gives_bind, h]
  rfl

/-- The line about a manifest. -/
def parsingLine (job : Job) : Line := say ("Parsing " ++ job.manifest.text ++ "...")

/-- With settings and base document loaded, the line about the manifest is the first. It is the
only one if the manifest is not loaded. -/
theorem exists_document_of_loaded (env : Environment σ)
    (hsettings : t.gives (Settings.load job.config) = .ok settings)
    (hbase : t.gives (BaseDocument.loadIfAny settings.baseSchema) = .ok base) :
    ∃ lines result, t.gives (document env job) = (parsingLine job :: lines, result) ∧
      ∀ e, t.gives (Manifest.load job.manifest) = .error e → lines = [] ∧ result = .error e := by
  rw [document, (keeps_loadSettings job.config).gives_bind, hsettings]
  dsimp only
  rw [(keeps_loadBase settings.baseSchema).gives_bind, hbase]
  dsimp only
  rw [(keeps_loadManifest job.manifest).gives_bind]
  cases t.gives (Manifest.load job.manifest) with
  | error e' =>
      refine ⟨[], .error e', rfl, fun e he => ?_⟩
      cases he
      exact ⟨rfl, rfl⟩
  | ok routes =>
      refine ⟨_, _, rfl, fun e he => ?_⟩
      cases he

/-- The line about a manifest can be written if the path has no surrogate. -/
theorem written?_parsingLine (job : Job) :
    (IsPlain job.manifest.text → written? (parsingLine job) = some (parsingLine job)) ∧
      (¬ IsPlain job.manifest.text → written? (parsingLine job) = none) := by
  have hplain : (Text.dropStyles ("Parsing " ++ job.manifest.text ++ "...")).utf8?.isSome = true
      ↔ IsPlain job.manifest.text := by
    rw [isSome_utf8?_iff, isPlain_dropStyles]
    simp
  exact ⟨fun h => if_pos (hplain.mpr h), fun h => if_neg (mt hplain.mp h)⟩

/-- A run whose document fails ends by that failure, if the lines before it are written. -/
theorem runGenerate_of_document {lines : List Line}
    (h : t.gives (document env job) = (lines, .error e)) {shown : List Line}
    (hlines : written lines = (shown, true)) :
    t.gives (runGenerate env job) = .failed shown e := by
  rw [runGenerate, (keeps_document env job).gives_bind, h]
  dsimp only
  rw [Outcome.after, hlines]
  rfl

/-- When a line about the manifest cannot be written, the run breaks off there. -/
theorem runGenerate_of_unshown {line : Line} {lines : List Line}
    {result : Except Error (Settings × Value)}
    (h : t.gives (document env job) = (line :: lines, result)) (hline : written? line = none) :
    t.gives (runGenerate env job) = .broken [] .unencodable := by
  rw [runGenerate, (keeps_document env job).gives_bind, h]
  dsimp only
  rw [Outcome.after, written, hline]
  rfl

/-- A run that loading stops ends by the failure. -/
theorem exists_run_of_loadingStop {args : List Text} {command : Command}
    (hargs : Command.parse? args = some command) (h : LoadingStop t command e) :
    ∃ before, t.gives (run env args) = .failed before e := by
  -- Looking at the arguments changes nothing, so the command runs in the same tree.
  have hstart : ∀ {p : Parsed} (act : Job → StateM FileTree Outcome) {job : Job},
      t.gives (Job.ofParsed p).run = .ok job → t.gives (start p act) = t.gives (act job) := by
    intro p act job hjob
    rw [start, (keeps_ofParsed p).gives_bind, hjob]
  cases h with
  | settings hjob h =>
      rw [run, hargs, hstart _ hjob]
      exact ⟨[], runGenerate_of_document (document_of_settings h) rfl⟩
  | base hjob hsettings h =>
      rw [run, hargs, hstart _ hjob]
      exact ⟨[], runGenerate_of_document (document_of_base hsettings h) rfl⟩
  | unshown hjob hsettings hbase hpath =>
      -- The run is over with its first line, whatever the manifest holds.
      obtain ⟨lines, result, hdocument, -⟩ := exists_document_of_loaded env hsettings hbase
      rw [run, hargs, hstart _ hjob]
      exact ⟨[], runGenerate_of_unshown hdocument ((written?_parsingLine _).2 hpath)⟩
  | @manifest p job settings base e hjob hsettings hbase hpath h =>
      have hwritten : written [parsingLine job] = ([parsingLine job], true) := by
        rw [written, (written?_parsingLine job).1 hpath]
        rfl
      obtain ⟨lines, result, hdocument, hfailed⟩ :=
        exists_document_of_loaded env hsettings hbase
      obtain ⟨rfl, rfl⟩ := hfailed _ h
      rw [run, hargs, hstart _ hjob]
      exact ⟨_, runGenerate_of_document hdocument hwritten⟩
  | listing hjob h =>
      rw [run, hargs, hstart _ hjob, runRoutes, (keeps_loadManifest _).gives_bind, h]
      exact ⟨[], rfl⟩

/-- What stops a run is a report or a fault. -/
theorem LoadingStop.declared_or_fault {command : Command} (h : LoadingStop t command e) :
    (e.IsConfig ∨ e.IsBaseDocument) ∨ ∃ f, e = .fault f := by
  have hmanifest : ∀ path, t.gives (Manifest.load path) = .error e →
      (e.IsConfig ∨ e.IsBaseDocument) ∨ ∃ f, e = .fault f := by
    intro path h
    exact ((Manifest.ofFile_failsAs path _).declared_or_fault h).imp_left .inl
  cases h with
  | @settings p job e _ h =>
      -- Without a settings file there are the defaults, which do not fail.
      cases hconfig : job.config with
      | none =>
          rw [hconfig] at h
          cases h
      | some path =>
          rw [hconfig] at h
          exact ((Settings.ofFile_failsAs path _).declared_or_fault h).imp_left .inl
  | @base p job settings e _ _ h =>
      cases hbase : settings.baseSchema with
      | none =>
          rw [hbase] at h
          cases h
      | some path =>
          rw [hbase] at h
          exact ((BaseDocument.ofFile_failsAs path _).declared_or_fault h).imp_left .inr
  | unshown _ _ _ _ => exact .inr ⟨_, rfl⟩
  | manifest _ _ _ _ h => exact hmanifest _ h
  | listing _ h => exact hmanifest _ h

end Stops

/-- Each loader returns what it loads, or fails with a report of its own kind, or by a fault of the
given causes. A run that loading stops ends with the report, or breaks off by the fault. -/
theorem loading_boundary (t : FileTree) :
    (∀ path, FailsAs Error.IsConfig
      (FileFault (YamlFault Settings.ContentFault) (t.gives (Storage.read path)))
      (t.gives (Settings.load (some path)))) ∧
    (∀ path, FailsAs Error.IsBaseDocument
      (FileFault (BaseDocument.ContentFault path) (t.gives (Storage.read path)))
      (t.gives (BaseDocument.load path))) ∧
    (∀ path, FailsAs Error.IsConfig
      (FileFault (YamlFault Manifest.ContentFault) (t.gives (Storage.read path)))
      (t.gives (Manifest.load path))) ∧
    ∀ (σ : Type) [RandomSource σ] (env : Environment σ) (args : List Text) (command : Command)
      (e : Error), Command.parse? args = some command → LoadingStop t command e →
        (e.IsConfig ∨ e.IsBaseDocument) ∧ (t.gives (run env args)).Reports e ∨
          ∃ f, e = .fault f ∧ (t.gives (run env args)).Breaks f := by
  refine ⟨fun path => Settings.ofFile_failsAs path _,
    fun path => BaseDocument.ofFile_failsAs path _,
    fun path => Manifest.ofFile_failsAs path _, ?_⟩
  intro σ _ env args command e hargs hstop
  obtain ⟨before, hrun⟩ := exists_run_of_loadingStop (σ := σ) hargs hstop
  rw [hrun]
  obtain hdeclared | ⟨f, rfl⟩ := hstop.declared_or_fault
  · exact .inl ⟨hdeclared, reports_failed before hdeclared⟩
  · exact .inr ⟨f, rfl, breaks_failed before f⟩

/-! ### Settings of two kinds -/

/-- What asks for a document with a settings file. -/
def withSettings : List Text := ["generate", "m.yaml", "-c", "s.yaml"]

/-- A directory whose settings file is a single byte that begins no character. -/
def strayByte : FileTree := ⟨[(⟨0, ["m.yaml"]⟩, .file []), (⟨0, ["s.yaml"]⟩, .file [0xff])]⟩

/-- A directory whose settings file is a list. -/
def listedSettings : FileTree := folder [("m.yaml", "[]"), ("s.yaml", "- title")]

/-- With these arguments, loading stops where the settings cannot be loaded. -/
theorem loadingStop_withSettings {t : FileTree} {e : Error}
    (hjob : t.gives (Job.ofParsed ⟨[(.config, "s.yaml")], ["m.yaml"]⟩).run
      = .ok { manifest := ⟨0, ["m.yaml"]⟩, config := some ⟨0, ["s.yaml"]⟩ })
    (h : t.gives (Settings.load (some ⟨0, ["s.yaml"]⟩)) = .error e) :
    LoadingStop t (.generate ⟨[(.config, "s.yaml")], ["m.yaml"]⟩) e :=
  .settings hjob h

/-- Settings that are a list are reported. By a stray byte in the settings the run breaks off. -/
theorem loading_boundary_withSettings :
    (listedSettings.gives (run stillWorld withSettings)).Reports
        (.config (.settingsNotMap "s.yaml")) ∧
      (strayByte.gives (run stillWorld withSettings)).Breaks .undecodable := by
  have hargs : Command.parse? withSettings
      = some (.generate ⟨[(.config, "s.yaml")], ["m.yaml"]⟩) := by
    decide
  have hlisted : LoadingStop listedSettings (.generate ⟨[(.config, "s.yaml")], ["m.yaml"]⟩)
      (.config (.settingsNotMap "s.yaml")) :=
    loadingStop_withSettings (by decide +kernel) (by decide +kernel)
  have hstray : LoadingStop strayByte (.generate ⟨[(.config, "s.yaml")], ["m.yaml"]⟩)
      (.fault .undecodable) :=
    loadingStop_withSettings (by decide +kernel) (by decide +kernel)
  -- Both runs stop at loading; only which of the two ways it is remains to be told apart.
  constructor
  · obtain ⟨-, h⟩ | ⟨f, h, -⟩ :=
      (loading_boundary listedSettings).2.2.2 _ stillWorld _ _ _ hargs hlisted
    · exact h
    · cases h
  · obtain ⟨⟨_, h⟩ | ⟨_, h⟩, -⟩ | ⟨f, h, hbreaks⟩ :=
      (loading_boundary strayByte).2.2.2 _ stillWorld _ _ _ hargs hstray
    · cases h
    · cases h
    · cases h
      exact hbreaks

/-- No loader keeps to a value or a report of its kind: not for settings with a stray byte, not for
a base document with a date in a thirteenth month, and not for a manifest whose routes are a
number. -/
theorem undeclared_failures :
    ¬ Ends (fun _ => True) Error.IsConfig
        (strayByte.gives (Settings.load (some ⟨0, ["s.yaml"]⟩))) ∧
      ¬ Ends (fun _ => True) Error.IsBaseDocument
        ((folder [("b.yaml", "due: 2024-13-01")]).gives (BaseDocument.load ⟨0, ["b.yaml"]⟩)) ∧
      ¬ Ends (fun _ => True) Error.IsConfig
        ((folder [("m.yaml", "routes: 5")]).gives (Manifest.load ⟨0, ["m.yaml"]⟩)) := by
  have hsettings : strayByte.gives (Settings.load (some ⟨0, ["s.yaml"]⟩))
      = .error (.fault .undecodable) := by
    decide +kernel
  have hbase : (folder [("b.yaml", "due: 2024-13-01")]).gives (BaseDocument.load ⟨0, ["b.yaml"]⟩)
      = .error (.fault .badValue) := by
    decide +kernel
  have hmanifest : (folder [("m.yaml", "routes: 5")]).gives (Manifest.load ⟨0, ["m.yaml"]⟩)
      = .error (.fault .wrongKind) := by
    decide +kernel
  rw [hsettings, hbase, hmanifest]
  refine ⟨fun h => ?_, fun h => ?_, fun h => ?_⟩
  all_goals
    obtain ⟨_, h⟩ := h.of_error
    cases h

end Cli

end RouteDocs
