import RouteDocs.Tag.Response
import RouteDocs.Proofs.Numeral
import RouteDocs.Proofs.PlainText
import RouteDocs.Proofs.TypeNormalization

/-!
# `RouteDocs.Proofs.ReadingFaults`: tags whose text cannot be read

A tag that does not fit its grammar is reported, and costs its route only. Reading a tag can
also fail by a fault, which nothing reports. This module says where a fault comes from. Four
things in a property block lead to one: a scalar that YAML cannot make a value of, a value
that contains itself, a nesting that is too deep to be walked, and a value that cannot be shown
where a type name is wanted. Of a JSON literal it is a number with too many digits, or too deep
a nesting.

`Ends R E` is the shape of all these statements: a result is a value with `R`, or a failure
with `E`. The lemmas follow the readers from the inside out, and end with
`parseParameter_ends` and `parseResponse_ends`.
-/

set_option autoImplicit false

namespace RouteDocs

open Text Number

/-- A result is a value with `R`, or a failure with `E`. -/
inductive Ends {ε α : Type} (R : α → Prop) (E : ε → Prop) : Except ε α → Prop where
  /-- A value. -/
  | ok {a : α} (h : R a) : Ends R E (.ok a)
  /-- A failure. -/
  | error {e : ε} (h : E e) : Ends R E (.error e)

namespace Ends

variable {ε ε' α β : Type} {R : α → Prop} {S : β → Prop} {E : ε → Prop}

/-- What is known of the results and of the errors may be weakened. -/
theorem mono {R' : α → Prop} {E' : ε → Prop} {x : Except ε α} (h : Ends R E x)
    (hR : ∀ a, R a → R' a) (hE : ∀ e, E e → E' e) : Ends R' E' x := by
  cases h with
  | ok h => exact .ok (hR _ h)
  | error h => exact .error (hE _ h)

/-- Only the failures are known better. -/
theorem mono_error {E' : ε → Prop} {x : Except ε α} (h : Ends R E x) (hE : ∀ e, E e → E' e) :
    Ends R E' x :=
  h.mono (fun _ h => h) hE

/-- The value is what the result is. -/
theorem with_self {x : Except ε α} (h : Ends R E x) : Ends (fun a => x = .ok a ∧ R a) E x := by
  cases h with
  | ok h => exact .ok ⟨rfl, h⟩
  | error h => exact .error h

/-- Two steps in a row end, if the second does for every result of the first. -/
theorem bind {x : Except ε α} {f : α → Except ε β} (h : Ends R E x)
    (hf : ∀ a, R a → Ends S E (f a)) : Ends S E (x >>= f) := by
  cases h with
  | ok h => exact hf _ h
  | error h => exact .error h

/-- A function on the results does not change the errors. -/
theorem map {x : Except ε α} {f : α → β} (h : Ends R E x) (hf : ∀ a, R a → S (f a)) :
    Ends S E (x.map f) := by
  cases h with
  | ok h => exact .ok (hf _ h)
  | error h => exact .error h

/-- A function on the errors does not change the results. -/
theorem mapError {E' : ε' → Prop} {x : Except ε α} {f : ε → ε'} (h : Ends R E x)
    (hf : ∀ e, E e → E' (f e)) : Ends R E' (x.mapError f) := by
  cases h with
  | ok h => exact .ok h
  | error h => exact .error (hf _ h)

/-- A traversal fails only where one of its steps does. -/
theorem mapM {f : α → Except ε β} {as : List α} (h : ∀ a ∈ as, Ends S E (f a)) :
    Ends (fun bs => ∀ b ∈ bs, S b) E (as.mapM f) := by
  induction as with
  | nil => exact .ok (by simp)
  | cons a as ih =>
      rw [List.forall_mem_cons] at h
      rw [List.mapM_cons]
      refine h.1.bind fun b hb => ?_
      refine (ih h.2).bind fun bs hbs => ?_
      exact .ok (List.forall_mem_cons.mpr ⟨hb, hbs⟩)

/-- A fold fails only where one of its steps does, from what the steps before it left. -/
theorem foldlM {I : β → Prop} {f : β → α → Except ε β} {as : List α}
    (h : ∀ b, ∀ a ∈ as, I b → Ends I E (f b a)) {b : β} (hb : I b) : Ends I E (as.foldlM f b) := by
  induction as generalizing b with
  | nil => exact .ok hb
  | cons a as ih =>
      rw [List.foldlM_cons]
      refine (h b a List.mem_cons_self hb).bind fun b' hb' => ?_
      exact ih (fun b c hc => h b c (List.mem_cons_of_mem _ hc)) hb'

/-- A failure, if that is what the result is. -/
theorem of_error {e : ε} (h : Ends R E (.error e : Except ε α)) : E e := by
  cases h with
  | error h => exact h

end Ends

/-- A failure that costs one route only, or one with `X`. -/
def SkipsOr (X : Error → Prop) (e : Error) : Prop := e.skipsRoute = true ∨ X e

/-- A report that the text of a tag does not fit its grammar. -/
def IsMalformed (e : Error) : Prop := ∃ tag problem, e = .malformedTag tag problem

/-- A report of a malformed tag, or a failure with `X`. -/
def MalformedOr (X : Error → Prop) (e : Error) : Prop := IsMalformed e ∨ X e

/-- A malformed tag costs its route only. -/
theorem MalformedOr.skipsOr {X : Error → Prop} {e : Error} (h : MalformedOr X e) : SkipsOr X e := by
  obtain ⟨tag, problem, rfl⟩ | h := h
  · exact .inl rfl
  · exact .inr h

/-! ### Values that are shown -/

/-- A value is shown, or it cannot be. -/
theorem Value.literal_ends (v : Value) : Ends (fun _ => True) v.Unshown v.literal := by
  cases h : v.literal with
  | ok shown => exact .ok trivial
  | error f => exact .error (literal_eq_error_iff.mp h)

/-- Where a text is wanted, it is the same. -/
theorem Value.display_ends (v : Value) : Ends (fun _ => True) v.Unshown v.display := by
  cases h : v.display with
  | ok shown => exact .ok trivial
  | error f => exact .error (display_eq_error_iff.mp h)

/-- A scalar where a text is wanted. -/
theorem Scalar.display_ends (s : Scalar) :
    Ends (fun _ => True) (Value.scalar s).Unshown s.display :=
  Value.display_ends (.scalar s)

/-! ### Numbers that were read -/

/-- A number that was read can be written. -/
theorem exists_intText?_of_readInt? {s : Text} {i : Int} (h : readInt? s = some i) :
    ∃ shown, intText? i = some shown := by
  rw [readInt?] at h
  obtain ⟨plain, -, h⟩ := Option.bind_eq_some_iff.mp h
  obtain ⟨digits, hdigits, h⟩ := Option.bind_eq_some_iff.mp h
  split at h
  · cases h
  · rename_i hlength
    simp only [Bool.or_eq_true, decide_eq_true_eq, not_or, Nat.not_lt] at hlength
    have hlt := ofDecimals_lt (forall_lt_of_decimals? hdigits)
    have hi : i.natAbs = ofDecimals digits := by
      have h := Option.some.inj h
      split at h <;> omega
    exact ⟨_, intText?_of_natAbs_lt (hi ▸ hlt) hlength.2⟩

/-! ### Descriptions -/

namespace Tag

/-- An example that was cast can be written as JSON. -/
theorem castExample_ends (tag type text : Text) :
    Ends (fun s => ∃ t, Json.scalarText s = .ok t) IsMalformed
      (castExample tag type text) := by
  unfold castExample
  dsimp only
  split
  · exact .ok (by cases (!_ : Bool) <;> exact ⟨_, rfl⟩)
  · split
    · rename_i i hi
      obtain ⟨shown, hshown⟩ := exists_intText?_of_readInt? hi
      exact .ok ⟨shown, by rw [Json.scalarText, Scalar.literal_int, hshown]; rfl⟩
    · exact .error ⟨_, _, rfl⟩
  · split
    · exact .ok ⟨_, rfl⟩
    · exact .error ⟨_, _, rfl⟩
  · split
    · exact .ok ⟨_, rfl⟩
    · exact .error ⟨_, _, rfl⟩
  · exact .ok ⟨_, rfl⟩

/-- A block stands in a text, below its header line. -/
def Headed (block text : Text) : Prop :=
  ∃ gap, gap.all isIndent = true ∧ blockMarker ++ gap ++ CodePoint.char '\n' :: block <:+: text

/-- A block under a header of a text is one of every text around it. -/
theorem Headed.within {block s t : Text} (h : Headed block s) (hst : s <:+: t) :
    Headed block t := by
  obtain ⟨gap, hgap, hs⟩ := h
  exact ⟨gap, hgap, hs.trans hst⟩

/-- A text whose start was dropped is that start and the rest. -/
theorem eq_append_of_dropStart? {start s rest : Text} (h : dropStart? start s = some rest) :
    s = start ++ rest := by
  induction start generalizing s with
  | nil =>
      cases h
      rfl
  | cons p ps ih =>
      cases s with
      | nil => cases h
      | cons c cs =>
          rw [dropStart?] at h
          split at h
          · rename_i hpc
            rw [ih h, hpc, List.cons_append]
          · cases h

/-- What is read as a headed block stands under a header. -/
theorem headed_of_headedBlock? {block s : Text} (h : headedBlock? s = some block) :
    Headed block s := by
  unfold headedBlock? at h
  split at h
  · cases h
  · rename_i rest hrest
    split at h
    · rename_i found hfound
      split at h
      · cases h
        have hs : s = blockMarker ++ rest.takeWhile isIndent ++ CodePoint.char '\n' :: block := by
          rw [List.append_assoc, ← hfound, List.takeWhile_append_dropWhile]
          exact eq_append_of_dropStart? hrest
        subst hs
        exact ⟨rest.takeWhile isIndent, List.all_takeWhile, List.infix_rfl⟩
      · cases h
    · cases h

/-- So does what a text is cut at, wherever the header is. -/
theorem headed_of_cutBlock? {block prose text : Text} {lineStart : Bool}
    (h : cutBlock? lineStart text = some (prose, block)) : Headed block text := by
  induction text generalizing lineStart prose with
  | nil => cases h
  | cons c cs ih =>
      rw [cutBlock?] at h
      split at h
      · rename_i found hfound
        cases h
        split at hfound
        · exact headed_of_headedBlock? hfound
        · cases hfound
      · split at h
        · rename_i found hfound
          cases h
          split at hfound
          · exact (headed_of_headedBlock? hfound).within (List.suffix_cons c cs).isInfix
          · cases hfound
        · obtain ⟨⟨rest, found⟩, hrest, heq⟩ := Option.map_eq_some_iff.mp h
          cases heq
          exact (ih hrest).within (List.suffix_cons c cs).isInfix

variable {readBlock : Text → Except Error Properties} {E : Error → Prop}

/-- A text is divided from its block, if reading the block ends. Without a block the text is left
as it is. -/
theorem splitBlockWith_ends {text : Text}
    (hread : ∀ block, Headed block text → Ends (fun _ => True) E (readBlock block)) :
    Ends (fun r => r.2 = none → r.1 = text) E (splitBlockWith readBlock text) := by
  unfold splitBlockWith
  split
  · exact .ok fun _ => rfl
  · rename_i prose block hcut
    exact (hread block (headed_of_cutBlock? hcut)).map fun properties _ => nofun

/-- What stands in front of a literal is the start of the text. -/
theorem before_of_cutLiteral? {opening closing : CodePoint} {text before literal : Text}
    (h : cutLiteral? opening closing text = some (before, literal)) : before <+: text := by
  induction text generalizing before with
  | nil => cases h
  | cons c cs ih =>
      rw [cutLiteral?] at h
      split at h
      · cases h
        exact List.nil_prefix
      · obtain ⟨⟨rest, found⟩, hrest, heq⟩ := Option.map_eq_some_iff.mp h
        cases heq
        exact (List.prefix_cons_inj c).mpr (ih hrest)

/-- What a description holds as an example can be written as JSON. Its failures are those of
an example, which cost the route only, and those of a block in it. -/
theorem parseDescriptionWith_ends {text : Text}
    (hread : ∀ block, Headed block text → Ends (fun _ => True) E (readBlock block))
    (tag type : Text) :
    Ends (fun d => ∀ s, d.sample = some s → ∃ t, Json.scalarText s = .ok t) (MalformedOr E)
      (parseDescriptionWith readBlock tag type text) := by
  have hcast : ∀ {α : Type} (raw : Text) (f : Scalar → α),
      Ends (fun a => ∃ s, a = f s ∧ ∃ t, Json.scalarText s = .ok t) (MalformedOr E)
        ((castExample tag type raw).map f) := fun raw f =>
    ((castExample_ends tag type raw).mono_error fun _ h => .inl h).map fun s hs => ⟨s, rfl, hs⟩
  have hblock : ∀ {s : Text}, s <:+: text →
      Ends (fun _ => True) (MalformedOr E) (splitBlockWith readBlock s) := fun hs =>
    (splitBlockWith_ends fun block h => hread block (h.within hs)).mono (fun _ _ => trivial)
      fun _ h => .inr h
  unfold parseDescriptionWith
  -- Types with brackets have their literal cut off first; others have an example in the prose.
  split
  · dsimp only
    split
    · refine Ends.bind (.ok (R := fun r => r = (text, none)) rfl) ?_
      rintro _ rfl
      exact (hblock List.infix_rfl).bind fun _ _ => .ok nofun
    · rename_i before literal hcut
      refine (hcast literal _).bind ?_
      rintro _ ⟨s, rfl, hs⟩
      refine (hblock (before_of_cutLiteral? hcut).isInfix).bind fun _ _ => .ok ?_
      rintro _ ⟨⟩
      exact hs
  · refine (hblock List.infix_rfl).bind fun _ _ => ?_
    dsimp only
    split
    · refine Ends.bind (.ok (R := fun r => r = none) rfl) ?_
      rintro _ rfl
      exact .ok nofun
    · rename_i raw _
      refine (hcast raw some).bind ?_
      rintro _ ⟨s, rfl, hs⟩
      refine .ok ?_
      rintro _ ⟨⟩
      exact hs

/-! ### Parameter texts -/

/-- A text without its blanks in front is its end. -/
theorem trimStart_suffix (s : Text) : trimStart s <:+ s := List.dropWhile_suffix _

/-- A trimmed text is a part of the text. -/
theorem trim_isPart (s : Text) : trim s <:+: s := by
  have hend : trimEnd (trimStart s) <+: trimStart s := by
    rw [trimEnd, dropEndWhile]
    exact List.reverse_suffix.mp (by simpa using List.dropWhile_suffix _)
  exact hend.isInfix.trans (trimStart_suffix s).isInfix

/-- What is left behind the first word is the end of the text. -/
theorem takeToken_suffix (s : Text) : (takeToken s).2 <:+ s :=
  (trimStart_suffix _).trans ((List.dropWhile_suffix _).trans (trimStart_suffix s))

/-- A parameter text is split into its parts, with a description from the text, or it is
malformed. -/
theorem splitParameter_ends (tag text : Text) :
    Ends (fun head => head.description <:+: text) IsMalformed
      (splitParameter tag text) := by
  unfold splitParameter
  split
  · exact .error ⟨_, _, rfl⟩
  · refine .ok ((trim_isPart _).trans ?_)
    have hrest := (takeToken_suffix (takeToken text).2).trans (takeToken_suffix text)
    -- With the marker the description starts one word later.
    split
    · exact ((takeToken_suffix _).trans hrest).isInfix
    · exact hrest.isInfix

/-- A parameter is read, with an example that has a JSON text, if reading its block ends. -/
theorem parseParameterWith_ends {text : Text}
    (hread : ∀ block, Headed block text → Ends (fun _ => True) E (readBlock block)) (tag : Text) :
    Ends (fun p => ∀ s, p.sample = some s → ∃ t, Json.scalarText s = .ok t) (MalformedOr E)
      (parseParameterWith readBlock tag text) := by
  refine ((splitParameter_ends tag text).mono_error fun _ h => .inl h).bind fun head hhead => ?_
  refine (parseDescriptionWith_ends (fun block h => hread block (h.within hhead)) tag _).bind
    fun d hd => ?_
  exact .ok hd

/-! ### Property blocks -/

/-- Fields whose values are scalars with a JSON text have one together. -/
theorem exists_entryTexts_fields (layout : Json.Layout) (depth : Nat)
    {fields : List (String × Value)}
    (h : ∀ f ∈ fields, ∃ s t, f.2 = .scalar s ∧ Json.scalarText s = .ok t) :
    ∃ ts, Json.entryTexts layout depth (fields.map fun f => (Scalar.str f.1, f.2)) = .ok ts := by
  induction fields with
  | nil => exact ⟨[], rfl⟩
  | cons f fields ih =>
      rw [List.forall_mem_cons] at h
      obtain ⟨⟨s, t, hf, ht⟩, h⟩ := h
      obtain ⟨ts, hts⟩ := ih h
      rw [List.map_cons, Json.entryTexts, hts, hf, Json.valueText, ht]
      exact ⟨_, rfl⟩

/-- Scalars that can be written can be written under known keys. -/
theorem exists_write_object {layout : Json.Layout} {fields : List (String × Value)}
    (h : ∀ f ∈ fields, ∃ s t, f.2 = .scalar s ∧ Json.scalarText s = .ok t) :
    ∃ t, Json.write layout (.object fields) = .ok t := by
  obtain ⟨ts, hts⟩ := exists_entryTexts_fields layout 1 h
  rw [Json.write, Value.object, Json.valueText, hts]
  exact ⟨_, rfl⟩

/-- The schema of a shorthand line has a JSON text: its parts are texts, a truth value and
the example. -/
theorem exists_write_leafSchema {p : ParameterTag}
    (h : ∀ s, p.sample = some s → ∃ t, Json.scalarText s = .ok t) :
    ∃ t, Json.write .compact (leafSchema p) = .ok t := by
  refine exists_write_object fun f hf => ?_
  simp only [List.mem_append, List.mem_cons, List.not_mem_nil, or_false] at hf
  obtain ((rfl | rfl) | hf) | hf := hf
  · exact ⟨_, _, rfl, rfl⟩
  · exact ⟨_, _, rfl, rfl⟩
  · split at hf
    · cases List.mem_singleton.mp hf
      exact ⟨_, _, rfl, rfl⟩
    · cases hf
  · split at hf
    · cases hf
    · rename_i s hs
      cases List.mem_singleton.mp hf
      obtain ⟨t, ht⟩ := h s hs
      exact ⟨s, t, rfl, ht⟩

/-- A shorthand line is expanded, or costs its route only: what it stands for can always be
written. -/
theorem expandLine_ends (tag line : Text) :
    Ends (fun _ => True) IsMalformed (expandLine tag line) := by
  have hparse : Ends (fun p => ∀ s, p.sample = some s → ∃ t, Json.scalarText s = .ok t)
      (MalformedOr fun _ => False) (parseLine tag (trim line)) :=
    parseParameterWith_ends (fun _ _ => .ok trivial) tag
  unfold expandLine
  dsimp only
  split
  · refine (hparse.mono_error fun e h => h.resolve_right id).bind fun p hp => ?_
    obtain ⟨leaf, hleaf⟩ := exists_write_leafSchema hp
    rw [hleaf]
    exact .ok trivial
  · exact .ok trivial

end Tag

/-- Why a schema cannot be normalised where there is so much room, other than by a type that is
no name. -/
inductive Value.Unfit (room : Nat) (v : Value) : Error → Prop where
  /-- It contains itself. -/
  | loop {c : Container} (h : v.Has (.loop c)) : Unfit room v (.fault .endless)
  /-- It goes further down than there is room. -/
  | deep (h : room < v.descent) : Unfit room v (.fault .endless)
  /-- A part of it is to be shown, and cannot be. -/
  | unshown {w : Value} {f : Fault} (hw : v.Has w) (h : w.Unshown f) : Unfit room v (.fault f)

/-- What is unfit in a part is unfit in the whole, where the part has the room that is left. -/
theorem Value.Unfit.of_has {room left : Nat} {v w : Value} {e : Error} (h : w.Unfit left e)
    (hv : v.Has w) (hroom : left < w.descent → room < v.descent) : v.Unfit room e := by
  cases h with
  | loop h => exact .loop (hv.trans h)
  | deep h => exact .deep (hroom h)
  | unshown hw h => exact .unshown (hv.trans hw) h

namespace Tag

/-- Under any key a value is normalised, unless it is unfit or in the place of a type. -/
theorem normalizeUnder_ends (tag : Text) (room : Nat) (key : Scalar) {v : Value}
    (hself : Ends (fun _ => True) (MalformedOr (v.Unfit room)) (normalizeSchema tag room v)) :
    Ends (fun _ => True) (MalformedOr (v.Unfit room)) (normalizeUnder tag (room + 1) key v) := by
  -- A type that is no name is shown in the report, and so it has to have a literal.
  have hshown : Ends (fun _ => True) (MalformedOr (v.Unfit room)) (do
      let shown ← v.literal.mapError .fault
      .error (.malformedTag tag (.typeNotName shown)) : Except Error Value) := by
    refine (v.literal_ends.mapError fun f hf => ?_).bind fun _ _ => .error (.inl ⟨_, _, rfl⟩)
    exact .inr (.unshown (.self v) hf)
  rw [normalizeUnder]
  split
  · cases v with
    | scalar s =>
        cases s with
        | str s => exact .ok trivial
        | _ => exact hshown
    | pair a b => exact hshown
    | set members => exact hshown
    | map entries => exact hself
    | list items => exact hself
    | loop c => exact .error (.inr (.loop (.self _)))
  · exact hself

mutual

/-- A schema is normalised, or a type in it is no name, or it is unfit. -/
theorem normalizeSchema_ends (tag : Text) : (v : Value) → (room : Nat) →
    Ends (fun _ => True) (MalformedOr (v.Unfit room)) (normalizeSchema tag room v)
  | .map entries, room => by
    rw [normalizeSchema]
    exact (normalizeEntries_ends tag entries room (.map entries) room
      (fun e he => .value he (.self e.2)) id).map fun _ _ => trivial
  -- A list takes one step of the room for its items, a mapping leaves that to its entries.
  | .list items, 0 => by
    rw [normalizeSchema]
    exact .error (.inr (.deep (by rw [Value.descent]; omega)))
  | .list items, room + 1 => by
    rw [normalizeSchema]
    refine (normalizeItems_ends tag items room (.list items) (room + 1)
      (fun v hv => .item hv (.self v)) fun h => ?_).map fun _ _ => trivial
    rw [Value.descent]
    omega
  | .loop c, room => by
    rw [normalizeSchema]
    exact .error (.inr (.loop (.self _)))
  | .scalar _, _ => by
    rw [normalizeSchema]
    exact .ok trivial
  | .pair _ _, _ => by
    rw [normalizeSchema]
    exact .ok trivial
  | .set _, _ => by
    rw [normalizeSchema]
    exact .ok trivial

/-- Elements are normalised one by one, as parts of a whole that has its own room. -/
theorem normalizeItems_ends (tag : Text) : (items : List Value) → (left : Nat) →
    (whole : Value) → (room : Nat) → (∀ v ∈ items, whole.Has v) →
    (left < Value.itemsDescent items → room < whole.descent) →
    Ends (fun _ => True) (MalformedOr (whole.Unfit room)) (normalizeItems tag left items)
  | [], _, _, _, _, _ => by
    rw [normalizeItems]
    exact .ok trivial
  | v :: vs, 0, _, _, _, hroom => by
    rw [normalizeItems]
    exact .error (.inr (.deep (hroom (by rw [Value.itemsDescent]; omega))))
  | v :: vs, left + 1, whole, room, h, hroom => by
    rw [List.forall_mem_cons] at h
    rw [Value.itemsDescent] at hroom
    rw [normalizeItems]
    refine ((normalizeSchema_ends tag v left).mono_error fun e => ?_).bind fun _ _ => ?_
    · exact Or.imp_right fun he => he.of_has h.1 fun hleft => hroom (by omega)
    · exact (normalizeItems_ends tag vs (left + 1) whole room h.2
        fun hleft => hroom (by omega)).bind fun _ _ => .ok trivial

/-- Entries are normalised one by one, as parts of a whole that has its own room. -/
theorem normalizeEntries_ends (tag : Text) : (entries : List (Scalar × Value)) → (left : Nat) →
    (whole : Value) → (room : Nat) → (∀ e ∈ entries, whole.Has e.2) →
    (left < Value.entriesDescent entries → room < whole.descent) →
    Ends (fun _ => True) (MalformedOr (whole.Unfit room)) (normalizeEntries tag left entries)
  | [], _, _, _, _, _ => by
    rw [normalizeEntries]
    exact .ok trivial
  | (key, v) :: es, 0, _, _, _, hroom => by
    rw [normalizeEntries]
    exact .error (.inr (.deep (hroom (by rw [Value.entriesDescent]; omega))))
  | (key, v) :: es, left + 1, whole, room, h, hroom => by
    rw [List.forall_mem_cons] at h
    rw [Value.entriesDescent] at hroom
    rw [normalizeEntries_cons_eq]
    refine ((normalizeUnder_ends tag left key (normalizeSchema_ends tag v left)).mono_error
      fun e => ?_).bind fun _ _ => ?_
    · exact Or.imp_right fun he => he.of_has h.1 fun hleft => hroom (by omega)
    · exact (normalizeEntries_ends tag es (left + 1) whole room h.2
        fun hleft => hroom (by omega)).bind fun _ _ => .ok trivial

end

/-- The value of a block's lines, with its shorthand lines written out. -/
def blockValue (tag block : Text) : Except Error (Except Yaml.Failure Value) := do
  let ls ← (breakLines (dedent block)).mapM (expandLine tag)
  .ok ((Yaml.read (unlines ls)).map Part.value)

/-- Why reading a property block ends in a fault. -/
inductive BlockFault (tag block : Text) : Fault → Prop where
  /-- A scalar of the block has no value. -/
  | scalar {f : Fault} (h : blockValue tag block = .ok (.error (.fault f))) : BlockFault tag block f
  /-- A value of the block contains itself. -/
  | endless {v : Value} {c : Container} (h : blockValue tag block = .ok (.ok v))
      (hloop : v.Has (.loop c)) : BlockFault tag block .endless
  /-- The block goes too far down. -/
  | deep {v : Value} (h : blockValue tag block = .ok (.ok v)) (hdeep : maxSchemaDepth < v.descent) :
      BlockFault tag block .endless
  /-- A part of the block is to be shown, and cannot be. -/
  | unshown {v w : Value} {f : Fault} (h : blockValue tag block = .ok (.ok v)) (hw : v.Has w)
      (hunshown : w.Unshown f) : BlockFault tag block f

/-- A block is read as properties, or it is malformed, or it fails by one of the faults that a
block can have. -/
theorem parseBlock_ends (tag block : Text) :
    Ends (fun _ => True) (MalformedOr fun e => ∃ f, e = .fault f ∧ BlockFault tag block f)
      (parseBlock tag block) := by
  have hlines : Ends (fun _ => True) IsMalformed
      ((breakLines (dedent block)).mapM (expandLine tag)) :=
    (Ends.mapM fun line _ => expandLine_ends tag line).mono (fun _ _ => trivial) fun _ h => h
  refine (hlines.with_self.mono_error fun _ h => .inl h).bind fun ls hls => ?_
  -- From here on the expanded lines are known, and the faults are those of their value.
  have hvalue : blockValue tag block = .ok ((Yaml.read (unlines ls)).map Part.value) := by
    rw [blockValue, hls.1]
    rfl
  refine Ends.bind (R := fun part => Yaml.read (unlines ls) = .ok part) ?_ fun part hread => ?_
  · cases hread : Yaml.read (unlines ls) with
    | error failure =>
        rw [hread] at hvalue
        cases failure with
        | malformed => exact .error (.inl ⟨_, _, rfl⟩)
        | fault f => exact .error (.inr ⟨f, rfl, .scalar hvalue⟩)
    | ok part => exact .ok rfl
  · rw [hread] at hvalue
    split
    · exact .ok trivial
    · rename_i entries hentries
      rw [Except.map, hentries] at hvalue
      refine (normalizeEntries_ends tag entries maxSchemaDepth (.map entries) maxSchemaDepth
        (fun e he => .value he (.self e.2)) id).mono_error fun e => Or.imp_right fun he => ?_
      cases he with
      | loop hloop => exact ⟨_, rfl, .endless hvalue hloop⟩
      | deep hdeep => exact ⟨_, rfl, .deep hvalue hdeep⟩
      | unshown hw hunshown => exact ⟨_, rfl, .unshown hvalue hw hunshown⟩
    · exact .error (.inl ⟨_, _, rfl⟩)

/-! ### Whole tags -/

/-- Why reading a parameter tag ends in a fault: by a block in it. -/
def ParameterFault (tag text : Text) (f : Fault) : Prop :=
  ∃ block, Headed block text ∧ BlockFault tag block f

/-- A parameter is read, or it is malformed, or it fails by a fault of its block. -/
theorem parseParameter_ends (tag text : Text) :
    Ends (fun _ => True) (MalformedOr fun e => ∃ f, e = .fault f ∧ ParameterFault tag text f)
      (parseParameter tag text) := by
  refine (parseParameterWith_ends (E := MalformedOr fun e => ∃ f, e = .fault f ∧
    ParameterFault tag text f) (fun block hblock => ?_) tag).mono (fun _ _ => trivial)
    fun e he => ?_
  · refine (parseBlock_ends tag block).mono_error fun e => Or.imp_right ?_
    rintro ⟨f, rfl, hf⟩
    exact ⟨f, rfl, block, hblock, hf⟩
  · exact he.elim .inl id

/-- The text of a response tag after its status. -/
def afterStatus (text : Text) : Text := trimStart (takeStatus text).2

/-- The text of a response tag below its first line. -/
def belowFirstLine (text : Text) : Text := (text.dropWhile (· ≠ ('\n' : CodePoint))).drop 1

/-- Why reading a response tag ends in a fault. -/
inductive ResponseFault (tag text : Text) : Fault → Prop where
  /-- A number of the JSON literal has too many digits. -/
  | jsonDigits (h : Json.readPart (afterStatus text) = .error .tooManyDigits) :
      ResponseFault tag text .badValue
  /-- The JSON literal is nested too deeply. -/
  | jsonDepth (h : Json.readPart (afterStatus text) = .error .tooDeep) :
      ResponseFault tag text .endless
  /-- A block below its header, or one that is all of the text below the first line. -/
  | block {sample : Option Value} {rest block : Text} {f : Fault}
      (hjson : takeJson tag (afterStatus text) = .ok (sample, rest))
      (hblock : Headed block rest ∨ block = belowFirstLine rest) (h : BlockFault tag block f) :
      ResponseFault tag text f

/-- A JSON example is taken off a text, or it is malformed, or it has a number of too many digits
or is nested too deeply. -/
theorem takeJson_ends (tag text : Text) :
    Ends (fun _ => True)
      (MalformedOr fun e => (e = .fault .badValue ∧ Json.readPart text = .error .tooManyDigits) ∨
        (e = .fault .endless ∧ Json.readPart text = .error .tooDeep))
      (takeJson tag text) := by
  unfold takeJson
  split
  · exact .ok trivial
  · split
    · split
      · exact .ok trivial
      · exact .error (.inl ⟨_, _, rfl⟩)
      · rename_i h
        exact .error (.inr (.inl ⟨rfl, h⟩))
      · rename_i h
        exact .error (.inr (.inr ⟨rfl, h⟩))
    · exact .ok trivial

/-- The block of a response is found under a header or below the first line, and it fails by a
fault of that block only. -/
theorem splitResponseBlock_ends (tag text : Text) :
    Ends (fun _ => True)
      (MalformedOr fun e => ∃ f block, e = .fault f ∧
        (Headed block text ∨ block = belowFirstLine text) ∧ BlockFault tag block f)
      (splitResponseBlock tag text) := by
  have hblock : ∀ block, Headed block text ∨ block = belowFirstLine text →
      Ends (fun _ => True)
        (MalformedOr fun e => ∃ f block, e = .fault f ∧
          (Headed block text ∨ block = belowFirstLine text) ∧ BlockFault tag block f)
        (parseBlock tag block) := by
    intro block h
    refine (parseBlock_ends tag block).mono_error fun e => Or.imp_right ?_
    rintro ⟨f, rfl, hf⟩
    exact ⟨f, block, rfl, h, hf⟩
  refine (splitBlockWith_ends fun block h => hblock block (.inl h)).bind ?_
  rintro ⟨prose, properties⟩ hprose
  cases properties with
  | some p => exact .ok trivial
  | none =>
      -- Without a header nothing was cut off, so the prose is the whole text.
      obtain rfl : prose = text := hprose rfl
      dsimp only
      split
      · exact (hblock _ (.inr rfl)).map fun _ _ => trivial
      · exact .ok trivial

/-- A response is read, or it is malformed, or it fails by a fault of its example or of
its block. -/
theorem parseResponse_ends (tag text : Text) :
    Ends (fun _ => True) (MalformedOr fun e => ∃ f, e = .fault f ∧ ResponseFault tag text f)
      (parseResponse tag text) := by
  refine ((takeJson_ends tag (afterStatus text)).with_self.mono_error
    fun e => Or.imp_right ?_).bind ?_
  · rintro (⟨rfl, h⟩ | ⟨rfl, h⟩)
    · exact ⟨_, rfl, .jsonDigits h⟩
    · exact ⟨_, rfl, .jsonDepth h⟩
  · rintro ⟨sample, rest⟩ ⟨hjson, -⟩
    refine ((splitResponseBlock_ends tag rest).mono_error fun e => Or.imp_right ?_).bind
      fun _ _ => .ok trivial
    rintro ⟨f, block, rfl, hblock, hf⟩
    exact ⟨f, rfl, .block hjson hblock hf⟩

/-- A return type is read or it is malformed, and there is no other failure. -/
theorem parseReturn_ends (tag text : Text) :
    Ends (fun _ => True) IsMalformed (parseReturn tag text) := by
  unfold parseReturn
  dsimp only
  split
  · exact .error ⟨_, _, rfl⟩
  · split <;> exact .ok trivial

end Tag

end RouteDocs
