import RouteDocs.Proofs.CompositeExample
import RouteDocs.Tag.PropertyBlock

/-!
# `RouteDocs.Proofs.TypeNormalization`: what normalising types does to a value

Types are normalised by a walk over everything in a block. It changes the texts under `type`
and nothing else, wherever in the value they are, and stops where something other than a text,
a mapping or a list is under `type`, where a value contains itself, or where it has no room to
go further down.

`HasTypes P` says that the walk finds nothing to stop at, and texts with `P` wherever it looks
for the name of a type; `Value.descent` is the room that it takes. With that room the values
with any texts there are what the walk accepts (`exists_normalizeSchema_iff`), and those with
the names that normalisation keeps are what it returns as they are
(`normalizeSchema_eq_self_iff`).
-/

set_option autoImplicit false

namespace RouteDocs

open Text Synthesis

namespace Value

mutual

/-- How many steps down the walk over a value takes: one for every mapping on the way, and two
for every list. -/
def descent : Value → Nat
  | .scalar _ => 0
  | .list items => itemsDescent items + 1
  | .pair _ _ => 0
  | .set _ => 0
  | .map entries => entriesDescent entries
  | .loop _ => 0

/-- The steps down to the elements of a list and below. -/
def itemsDescent : List Value → Nat
  | [] => 0
  | v :: vs => max (descent v + 1) (itemsDescent vs)

/-- The steps down to the values of entries and below. -/
def entriesDescent : List (Scalar × Value) → Nat
  | [] => 0
  | (_, v) :: es => max (descent v + 1) (entriesDescent es)

end

/-- The walk over entries has room if it has room for each of them, one step below. -/
theorem entriesDescent_le_iff {entries : List (Scalar × Value)} {n : Nat} :
    entriesDescent entries ≤ n ↔ ∀ e ∈ entries, e.2.descent + 1 ≤ n := by
  induction entries with
  | nil => simp [entriesDescent]
  | cons e es ih => rw [entriesDescent, Nat.max_le, ih, List.forall_mem_cons]

end Value

namespace Tag

/-! ### One entry -/

/-- Normalises what is under `type`: a text is the name of a type, mappings and lists are
walked, and nothing else may be there. -/
def normalizeNamed (tag : Text) (room : Nat) : Value → Except Error Value
  | .scalar (.str s) => .ok (.str (normalizeType s))
  | .map entries => normalizeSchema tag room (.map entries)
  | .list items => normalizeSchema tag room (.list items)
  | .loop _ => .error (.fault .endless)
  | other => do
    let shown ← other.literal.mapError .fault
    .error (.malformedTag tag (.typeNotName shown))

/-- Normalises the value under a key, where there is room for so many steps down, of which the
entry takes one. -/
def normalizeUnder (tag : Text) : (room : Nat) → (key : Scalar) → Value → Except Error Value
  | 0, _, _ => .error (.fault .endless)
  | room + 1, key, v =>
    if key = typeKey then normalizeNamed tag room v else normalizeSchema tag room v

/-- Entries are normalised from the first to the last. -/
theorem normalizeEntries_cons_eq (tag : Text) (room : Nat) (key : Scalar) (v : Value)
    (es : List (Scalar × Value)) :
    normalizeEntries tag room ((key, v) :: es) = (do
      let v ← normalizeUnder tag room key v
      let es ← normalizeEntries tag room es
      .ok ((key, v) :: es)) := by
  cases room with
  | zero =>
      rw [normalizeEntries, normalizeUnder]
      rfl
  | succ room =>
      conv_lhs => unfold normalizeEntries
      rw [normalizeUnder]
      by_cases hkey : key = typeKey
      -- Under `type` a text is a name, and any other value is walked as under other keys.
      · rw [if_pos hkey, if_pos hkey]
        cases v with
        | scalar s =>
            cases s with
            | str s => rfl
            | _ => exact (bind_assoc _ _ _).symm
        | pair a b => exact (bind_assoc _ _ _).symm
        | set members => exact (bind_assoc _ _ _).symm
        | _ => rfl
      · rw [if_neg hkey, if_neg hkey]

/-- Under a key other than `type` a value is walked one step below. -/
theorem normalizeUnder_of_ne {tag : Text} {key : Scalar} (h : key ≠ typeKey) (room : Nat)
    (v : Value) : normalizeUnder tag (room + 1) key v = normalizeSchema tag room v := if_neg h

/-- A mapping is walked under any key. -/
theorem normalizeUnder_map (tag : Text) (room : Nat) (key : Scalar)
    (entries : List (Scalar × Value)) :
    normalizeUnder tag (room + 1) key (.map entries) = normalizeSchema tag room (.map entries) := by
  rw [normalizeUnder, normalizeNamed, ite_self]

/-- A list is walked under any key. -/
theorem normalizeUnder_list (tag : Text) (room : Nat) (key : Scalar) (items : List Value) :
    normalizeUnder tag (room + 1) key (.list items) = normalizeSchema tag room (.list items) := by
  rw [normalizeUnder, normalizeNamed, ite_self]

/-- Entries are normalised one by one. -/
abbrev Normalized (tag : Text) (room : Nat) :
    List (Scalar × Value) → List (Scalar × Value) → Prop :=
  Entries.Matched fun key v w => normalizeUnder tag room key v = .ok w

/-- What is left of a mapping's entries has the same keys, with the values normalised. -/
theorem normalizeEntries_eq_ok_iff {tag : Text} {room : Nat} {es ps : List (Scalar × Value)} :
    normalizeEntries tag room es = .ok ps ↔ Normalized tag room es ps := by
  constructor
  · intro h
    induction es generalizing ps with
    | nil =>
        rw [normalizeEntries] at h
        cases h
        exact .nil
    | cons e es ih =>
        rw [normalizeEntries_cons_eq] at h
        obtain ⟨w, hw, h⟩ := exists_of_bind_eq_ok h
        obtain ⟨ws, hws, h⟩ := exists_of_bind_eq_ok h
        cases h
        exact .cons ⟨rfl, hw⟩ (ih hws)
  · intro h
    induction h with
    | nil => rw [normalizeEntries]
    | @cons e p es ps hep _ ih =>
        obtain ⟨hkey, hvalue⟩ := hep
        rw [normalizeEntries_cons_eq, hvalue, ih, hkey]
        rfl

/-- The schema of a mapping is a mapping, with its entries normalised. -/
theorem normalizeSchema_map_eq_ok_iff {tag : Text} {room : Nat} {es : List (Scalar × Value)}
    {w : Value} :
    normalizeSchema tag room (.map es) = .ok w ↔
      ∃ ps, Normalized tag room es ps ∧ .map ps = w := by
  rw [normalizeSchema]
  constructor
  · intro h
    obtain ⟨ps, hps, hw⟩ := exists_of_map_eq_ok h
    exact ⟨ps, normalizeEntries_eq_ok_iff.mp hps, hw⟩
  · rintro ⟨ps, hps, rfl⟩
    rw [normalizeEntries_eq_ok_iff.mpr hps]
    rfl

/-- Keys that are like each other are the type key both, or none is. -/
theorem respects_normalizeUnder (tag : Text) (room : Nat) :
    Entries.Respects fun key v w => normalizeUnder tag room key v = .ok w := by
  intro k k' hk v w h
  have htype : k = typeKey ↔ k' = typeKey := by
    rw [typeKey, ← Scalar.beq_str_iff, ← Scalar.beq_str_iff, Scalar.beq_eq, Scalar.beq_eq,
      of_decide_eq_true hk]
  cases room with
  | zero => cases h
  | succ room =>
      rw [normalizeUnder] at h ⊢
      by_cases hkey : k = typeKey
      · rw [if_pos hkey] at h
        rw [if_pos (htype.mp hkey)]
        exact h
      · rw [if_neg hkey] at h
        rw [if_neg fun hkey' => hkey (htype.mpr hkey')]
        exact h

/-- What is found under a key is what was found there, normalised. -/
theorem Normalized.get? {tag : Text} {room : Nat} {es ps : List (Scalar × Value)}
    (h : Normalized tag room es ps) (key : Scalar) :
    Option.Rel (fun v w => normalizeUnder tag room key v = .ok w) (Entries.get? key es)
      (Entries.get? key ps) :=
  Entries.Matched.get? (respects_normalizeUnder tag room) h key

/-- What is related to something is something. -/
theorem exists_of_rel {α β : Type} {R : α → β → Prop} {a : α} {b : Option β}
    (h : Option.Rel R (some a) b) : ∃ y, b = some y ∧ R a y := by
  cases h with
  | some h => exact ⟨_, rfl, h⟩

/-- A value that was under a key is there afterwards, normalised. -/
theorem Normalized.exists_get? {tag : Text} {room : Nat} {es ps : List (Scalar × Value)}
    (h : Normalized tag room es ps) {key : Scalar} {v : Value}
    (hv : Entries.get? key es = some v) :
    ∃ w, Entries.get? key ps = some w ∧ normalizeUnder tag room key v = .ok w :=
  exists_of_rel (hv ▸ h.get? key)

/-! ### What is accepted, and what stays -/

/-- What may stand under `type`: a text with `P`, a mapping or a list. -/
inductive TypeWith (P : Text → Prop) : Value → Prop where
  /-- A text. -/
  | name {s : Text} (h : P s) : TypeWith P (.str s)
  /-- A mapping. -/
  | map (entries : List (Scalar × Value)) : TypeWith P (.map entries)
  /-- A list. -/
  | list (items : List Value) : TypeWith P (.list items)

/-- Nothing in the value contains itself, and under `type` there are only texts with `P`,
mappings and lists. The walk does not look into sets and pairs. -/
inductive HasTypes (P : Text → Prop) : Value → Prop where
  /-- A scalar. -/
  | scalar (s : Scalar) : HasTypes P (.scalar s)
  /-- A pair. -/
  | pair (a b : Value) : HasTypes P (.pair a b)
  /-- A set. -/
  | set (members : List Scalar) : HasTypes P (.set members)
  /-- A list. -/
  | list {items : List Value} (hitems : ∀ v ∈ items, HasTypes P v) : HasTypes P (.list items)
  /-- A mapping. -/
  | map {entries : List (Scalar × Value)} (hvalues : ∀ e ∈ entries, HasTypes P e.2)
      (htypes : ∀ v, (typeKey, v) ∈ entries → TypeWith P v) : HasTypes P (.map entries)

section

variable {P Q : Text → Prop}

/-- A type name with a property has a weaker one. -/
theorem TypeWith.mono {v : Value} (h : TypeWith P v) (hPQ : ∀ s, P s → Q s) : TypeWith Q v := by
  cases h with
  | name h => exact .name (hPQ _ h)
  | map entries => exact .map entries
  | list items => exact .list items

/-- So have all type names of a value. -/
theorem HasTypes.mono {v : Value} (h : HasTypes P v) (hPQ : ∀ s, P s → Q s) : HasTypes Q v := by
  induction h with
  | scalar s => exact .scalar s
  | pair a b => exact .pair a b
  | set members => exact .set members
  | list _ ih => exact .list ih
  | map _ htypes ih => exact .map ih fun v hv => (htypes v hv).mono hPQ

/-- The type names of a mapping: those of its values, and its own if it has one. -/
theorem hasTypes_map_iff {entries : List (Scalar × Value)} :
    HasTypes P (.map entries) ↔
      (∀ e ∈ entries, HasTypes P e.2) ∧ ∀ v, (typeKey, v) ∈ entries → TypeWith P v := by
  constructor
  · intro h
    cases h with
    | map hvalues htypes => exact ⟨hvalues, htypes⟩
  · intro h
    exact .map h.1 h.2

end

/-- Normalisation keeps the text. -/
def IsNormal (s : Text) : Prop := normalizeType s = s

/-- Under `type`, a text is normalised, mappings and lists are walked, and nothing else is
accepted. -/
theorem normalizeUnder_typeKey {tag : Text} {room : Nat} {v w : Value}
    (h : normalizeUnder tag (room + 1) typeKey v = .ok w) :
    TypeWith (fun s => v = .str s ∧ w = .str (normalizeType s)) v := by
  rw [normalizeUnder, if_pos rfl] at h
  cases v with
  | scalar s =>
      cases s with
      | str s =>
          cases h
          exact .name ⟨rfl, rfl⟩
      | _ =>
          -- The report of what is there instead may fail, but nothing is returned.
          obtain ⟨shown, -, h⟩ := exists_of_bind_eq_ok h
          cases h
  | pair a b =>
      obtain ⟨shown, -, h⟩ := exists_of_bind_eq_ok h
      cases h
  | set members =>
      obtain ⟨shown, -, h⟩ := exists_of_bind_eq_ok h
      cases h
  | list items => exact .list items
  | map entries => exact .map entries
  | loop c => cases h

/-- A value under any key is normalised as a schema, unless it is the name of a type. -/
theorem normalizeUnder_cases {tag : Text} {room : Nat} {key : Scalar} {v w : Value}
    (h : normalizeUnder tag room key v = .ok w) :
    ∃ below, room = below + 1 ∧
      (normalizeSchema tag below v = .ok w ∨ ∃ s, v = .str s ∧ w = .str (normalizeType s)) := by
  cases room with
  | zero => cases h
  | succ room =>
      refine ⟨room, rfl, ?_⟩
      by_cases hkey : key = typeKey
      · subst hkey
        cases normalizeUnder_typeKey h with
        | @name s hw => exact .inr ⟨s, hw⟩
        | map entries => exact .inl (normalizeUnder_map tag room typeKey entries ▸ h)
        | list items => exact .inl (normalizeUnder_list tag room typeKey items ▸ h)
      · rw [normalizeUnder_of_ne hkey] at h
        exact .inl h

mutual

/-- What the walk accepts has texts under `type`, and normal ones if it stays as it is, and it
goes no deeper than there is room. -/
theorem hasTypes_of_normalizeSchema (tag : Text) : (v : Value) → (room : Nat) → (w : Value) →
    normalizeSchema tag room v = .ok w →
      HasTypes (fun s => w = v → IsNormal s) v ∧ v.descent ≤ room
  | .scalar s, _, _, _ => ⟨.scalar s, Nat.zero_le _⟩
  | .pair a b, _, _, _ => ⟨.pair a b, Nat.zero_le _⟩
  | .set members, _, _, _ => ⟨.set members, Nat.zero_le _⟩
  | .loop _, _, _, h => by
    rw [normalizeSchema] at h
    cases h
  | .list items, 0, _, h => by
    rw [normalizeSchema] at h
    cases h
  | .list items, room + 1, w, h => by
    rw [normalizeSchema] at h
    obtain ⟨ws, hws, rfl⟩ := exists_of_map_eq_ok h
    obtain ⟨hitems, hdescent⟩ := hasTypes_of_normalizeItems tag items room ws hws
    refine ⟨.list fun v hv => (hitems v hv).mono ?_, ?_⟩
    · intro s hs heq
      exact hs (Value.list.inj heq)
    · rw [Value.descent]
      omega
  | .map entries, room, w, h => by
    rw [normalizeSchema] at h
    obtain ⟨ps, hps, rfl⟩ := exists_of_map_eq_ok h
    obtain ⟨hvalues, htypes, hdescent⟩ := hasTypes_of_normalizeEntries tag entries room ps hps
    -- The value stays as it is if its entries do.
    have hinj : ∀ s, (ps = entries → IsNormal s) → Value.map ps = .map entries → IsNormal s :=
      fun s hs heq => hs (Value.map.inj heq)
    refine ⟨.map (fun e he => (hvalues e he).mono hinj) fun v hv => (htypes v hv).mono hinj, ?_⟩
    rwa [Value.descent]

/-- The elements of a list, with the room of the list. -/
theorem hasTypes_of_normalizeItems (tag : Text) : (items : List Value) → (room : Nat) →
    (ws : List Value) → normalizeItems tag room items = .ok ws →
      (∀ v ∈ items, HasTypes (fun s => ws = items → IsNormal s) v) ∧
        Value.itemsDescent items ≤ room
  | [], _, _, _ => ⟨by simp, Nat.zero_le _⟩
  | v :: vs, 0, _, h => by
    rw [normalizeItems] at h
    cases h
  | v :: vs, room + 1, _, h => by
    rw [normalizeItems] at h
    obtain ⟨w, hw, h⟩ := exists_of_bind_eq_ok h
    obtain ⟨ws, hws, h⟩ := exists_of_bind_eq_ok h
    cases h
    obtain ⟨hv, hfirst⟩ := hasTypes_of_normalizeSchema tag v room w hw
    obtain ⟨hvs, hrest⟩ := hasTypes_of_normalizeItems tag vs (room + 1) ws hws
    refine ⟨List.forall_mem_cons.mpr ⟨?_, fun v' hv' => ?_⟩, ?_⟩
    · exact hv.mono fun s hs heq => hs (List.cons.inj heq).1
    · exact (hvs v' hv').mono fun s hs heq => hs (List.cons.inj heq).2
    · rw [Value.itemsDescent]
      omega

/-- The entries of a mapping, with the room of the mapping. -/
theorem hasTypes_of_normalizeEntries (tag : Text) : (es : List (Scalar × Value)) →
    (room : Nat) → (ps : List (Scalar × Value)) → normalizeEntries tag room es = .ok ps →
      (∀ e ∈ es, HasTypes (fun s => ps = es → IsNormal s) e.2) ∧
        (∀ v, (typeKey, v) ∈ es → TypeWith (fun s => ps = es → IsNormal s) v) ∧
          Value.entriesDescent es ≤ room
  | [], _, _, _ => ⟨by simp, by simp, Nat.zero_le _⟩
  | (key, v) :: es, room, _, h => by
    rw [normalizeEntries_cons_eq] at h
    obtain ⟨w, hw, h⟩ := exists_of_bind_eq_ok h
    obtain ⟨ps, hps, h⟩ := exists_of_bind_eq_ok h
    cases h
    obtain ⟨hvalues, htypes, hrest⟩ := hasTypes_of_normalizeEntries tag es room ps hps
    -- If all entries stay as they are, so does the first one and so do the others.
    have hhead : ∀ s, (w = v → IsNormal s) → (key, w) :: ps = (key, v) :: es → IsNormal s :=
      fun s hs heq => hs (Prod.mk.inj (List.cons.inj heq).1).2
    have htail : ∀ s, (ps = es → IsNormal s) → (key, w) :: ps = (key, v) :: es → IsNormal s :=
      fun s hs heq => hs (List.cons.inj heq).2
    obtain ⟨below, rfl, hcases⟩ := normalizeUnder_cases hw
    have hfirst : HasTypes (fun s => w = v → IsNormal s) v ∧ v.descent ≤ below := by
      obtain hself | ⟨s, rfl, -⟩ := hcases
      · exact hasTypes_of_normalizeSchema tag v below w hself
      · exact ⟨.scalar _, Nat.zero_le _⟩
    refine ⟨List.forall_mem_cons.mpr ⟨hfirst.1.mono hhead, fun e he =>
      (hvalues e he).mono htail⟩, fun u hu => ?_, ?_⟩
    · obtain heq | hu := List.mem_cons.mp hu
      · cases heq
        refine (normalizeUnder_typeKey hw).mono fun s hs heq => ?_
        obtain ⟨hv, hnormal⟩ := hs
        have hwv : w = v := (Prod.mk.inj (List.cons.inj heq).1).2
        rw [hnormal, hv] at hwv
        exact Scalar.str.inj (Value.scalar.inj hwv)
      · exact (htypes u hu).mono htail
    · have hdescent := hfirst.2
      rw [Value.entriesDescent]
      omega

end

mutual

/-- Values with texts under `type` are accepted where there is room, and stay as they are if
the texts are normal. -/
theorem exists_normalizeSchema (tag : Text) {P : Text → Prop} : (v : Value) → (room : Nat) →
    HasTypes P v → v.descent ≤ room →
    ∃ w, normalizeSchema tag room v = .ok w ∧ ((∀ s, P s → IsNormal s) → w = v)
  | .scalar s, _, _, _ => ⟨_, by rw [normalizeSchema], fun _ => rfl⟩
  | .pair a b, _, _, _ => ⟨_, by rw [normalizeSchema], fun _ => rfl⟩
  | .set members, _, _, _ => ⟨_, by rw [normalizeSchema], fun _ => rfl⟩
  | .loop _, _, h, _ => by cases h
  | .list items, 0, h, hroom => by
    rw [Value.descent] at hroom
    omega
  | .list items, room + 1, h, hroom => by
    cases h with
    | list hitems =>
        rw [Value.descent] at hroom
        obtain ⟨ws, hws, hsame⟩ := exists_normalizeItems tag items room hitems (by omega)
        exact ⟨.list ws, by rw [normalizeSchema, hws]; rfl, fun hP => by rw [hsame hP]⟩
  | .map entries, room, h, hroom => by
    obtain ⟨hvalues, htypes⟩ := hasTypes_map_iff.mp h
    rw [Value.descent] at hroom
    obtain ⟨ps, hps, hsame⟩ := exists_normalizeEntries tag entries room hvalues htypes hroom
    exact ⟨.map ps, by rw [normalizeSchema, hps]; rfl, fun hP => by rw [hsame hP]⟩

/-- The elements of a list, with the room of the list. -/
theorem exists_normalizeItems (tag : Text) {P : Text → Prop} : (items : List Value) →
    (room : Nat) → (∀ v ∈ items, HasTypes P v) → Value.itemsDescent items ≤ room →
      ∃ ws, normalizeItems tag room items = .ok ws ∧ ((∀ s, P s → IsNormal s) → ws = items)
  | [], _, _, _ => ⟨[], by rw [normalizeItems], fun _ => rfl⟩
  | v :: vs, 0, _, hroom => by
    rw [Value.itemsDescent] at hroom
    omega
  | v :: vs, room + 1, h, hroom => by
    rw [Value.itemsDescent] at hroom
    obtain ⟨hv, hvs⟩ := List.forall_mem_cons.mp h
    obtain ⟨w, hw, hsame⟩ := exists_normalizeSchema tag v room hv (by omega)
    obtain ⟨ws, hws, hsames⟩ := exists_normalizeItems tag vs (room + 1) hvs (by omega)
    refine ⟨w :: ws, ?_, fun hP => by rw [hsame hP, hsames hP]⟩
    rw [normalizeItems, hw, hws]
    rfl

/-- The entries of a mapping, with the room of the mapping. -/
theorem exists_normalizeEntries (tag : Text) {P : Text → Prop} : (es : List (Scalar × Value)) →
    (room : Nat) → (∀ e ∈ es, HasTypes P e.2) → (∀ v, (typeKey, v) ∈ es → TypeWith P v) →
    Value.entriesDescent es ≤ room →
      ∃ ps, normalizeEntries tag room es = .ok ps ∧ ((∀ s, P s → IsNormal s) → ps = es)
  | [], _, _, _, _ => ⟨[], by rw [normalizeEntries], fun _ => rfl⟩
  | (key, v) :: es, 0, _, _, hroom => by
    rw [Value.entriesDescent] at hroom
    omega
  | (key, v) :: es, room + 1, h, htypes, hroom => by
    rw [Value.entriesDescent] at hroom
    obtain ⟨hv, hes⟩ := List.forall_mem_cons.mp h
    obtain ⟨ps, hps, hsames⟩ := exists_normalizeEntries tag es (room + 1) hes
      (fun u hu => htypes u (List.mem_cons_of_mem _ hu)) (by omega)
    -- Under `type` a text is normalised; all else is walked as under any other key.
    have hself : ∃ w, normalizeUnder tag (room + 1) key v = .ok w ∧
        ((∀ s, P s → IsNormal s) → w = v) := by
      obtain ⟨w, hw, hsame⟩ := exists_normalizeSchema tag v room hv (by omega)
      by_cases hkey : key = typeKey
      · subst hkey
        cases htypes v List.mem_cons_self with
        | @name s hs => exact ⟨_, rfl, fun hP => congrArg Value.str (hP s hs)⟩
        | map entries => exact ⟨w, by rw [normalizeUnder_map, hw], hsame⟩
        | list items => exact ⟨w, by rw [normalizeUnder_list, hw], hsame⟩
      · exact ⟨w, by rw [normalizeUnder_of_ne hkey, hw], hsame⟩
    obtain ⟨w, hw, hsame⟩ := hself
    refine ⟨(key, w) :: ps, ?_, fun hP => by rw [hsame hP, hsames hP]⟩
    rw [normalizeEntries_cons_eq, hw, hps]
    rfl

end

/-- With room for `room` steps down, the walk accepts what has texts under `type` and goes no
deeper than that. -/
theorem exists_normalizeSchema_iff {tag : Text} {room : Nat} {v : Value} :
    (∃ w, normalizeSchema tag room v = .ok w) ↔ HasTypes (fun _ => True) v ∧ v.descent ≤ room := by
  constructor
  · rintro ⟨w, hw⟩
    obtain ⟨htypes, hroom⟩ := hasTypes_of_normalizeSchema tag v room w hw
    exact ⟨htypes.mono fun _ _ => trivial, hroom⟩
  · rintro ⟨htypes, hroom⟩
    obtain ⟨w, hw, -⟩ := exists_normalizeSchema tag v room htypes hroom
    exact ⟨w, hw⟩

/-- The walk returns as it is what has normal texts under `type` and goes no deeper than there
is room. -/
theorem normalizeSchema_eq_self_iff {tag : Text} {room : Nat} {v : Value} :
    normalizeSchema tag room v = .ok v ↔ HasTypes IsNormal v ∧ v.descent ≤ room := by
  constructor
  · intro h
    obtain ⟨htypes, hroom⟩ := hasTypes_of_normalizeSchema tag v room v h
    exact ⟨htypes.mono fun s hs => hs rfl, hroom⟩
  · rintro ⟨htypes, hroom⟩
    obtain ⟨w, hw, hsame⟩ := exists_normalizeSchema tag v room htypes hroom
    rw [hw, hsame fun _ hs => hs]

/-- The same of the entries of a mapping. -/
theorem normalizeEntries_eq_self_iff {tag : Text} {room : Nat} {es : List (Scalar × Value)} :
    normalizeEntries tag room es = .ok es ↔
      HasTypes IsNormal (.map es) ∧ (Value.map es).descent ≤ room := by
  rw [← @normalizeSchema_eq_self_iff tag, normalizeSchema_map_eq_ok_iff,
    normalizeEntries_eq_ok_iff]
  constructor
  · exact fun h => ⟨es, h, rfl⟩
  · rintro ⟨ps, hps, heq⟩
    cases heq
    exact hps

end Tag

end RouteDocs
