import RouteDocs.Document
import RouteDocs.Proofs.Coupling
import RouteDocs.Proofs.Entries

/-!
# `RouteDocs.Proofs.MergedPaths`: a document over another, path by path

`mergeEntries` puts a mapping over another, one entry after the other. What comes out is said
here by paths. A walk along keys ends at a value, or leaves a mapping that lacks the next key, or
is blocked by a value that is no mapping (`Value.walk`). The walk through the upper mapping
decides what the merged one has (`at?_mergeValue`): the upper value where it ends, merged with the
one below if both are mappings; what is below where it leaves; and nothing where it is blocked,
since there the upper value hides all that is below.

One look-up is `get?_mergeEntries`. It needs every key of the upper mapping once, which
`Value.keysDiffer` asks for on all levels: of two entries under one key a look-up finds the first
and the last is written. The lower mapping may be any.

`merge_isOverlay` collects this in `IsOverlay`, together with the order of the keys, and says it
of documents: the base document is over the one that is assembled without it.
-/

set_option autoImplicit false

namespace RouteDocs

/-! ### Walks along keys -/

/-- What a walk along keys comes to. -/
inductive Walk where
  /-- It has all its keys and ends at a value. -/
  | ends (v : Value)
  /-- It leaves a mapping that lacks the next key. -/
  | leaves
  /-- It is blocked by a value that is no mapping. -/
  | blocked
deriving DecidableEq

namespace Value

/-- Walks from a value along keys. -/
def walk : (keys : List Scalar) → Value → Walk
  | [], v => .ends v
  | key :: keys, .map entries =>
    match Entries.get? key entries with
    | some v => walk keys v
    | none => .leaves
  | _ :: _, _ => .blocked

/-- The value at which a walk along keys ends. -/
def at? (keys : List Scalar) (v : Value) : Option Value :=
  match v.walk keys with
  | .ends w => some w
  | _ => none

mutual

/-- Whether no mapping has a key twice, as far as keys lead. -/
def keysDiffer : Value → Bool
  | .map entries => entriesDiffer entries
  | _ => true

/-- Whether no key is there twice, here or below. -/
def entriesDiffer : List (Scalar × Value) → Bool
  | [] => true
  | (key, v) :: entries => !Entries.has key entries && keysDiffer v && entriesDiffer entries

end

/-- A walk into a mapping goes on from what is found under the key. -/
theorem at?_map (key : Scalar) (keys : List Scalar) (entries : List (Scalar × Value)) :
    (Value.map entries).at? (key :: keys) = (Entries.get? key entries).bind (at? keys) := by
  rw [at?, walk]
  cases Entries.get? key entries <;> rfl

/-- There is no walk into anything else. -/
theorem at?_of_not_isMap {v : Value} (h : v.isMap = false) (key : Scalar) (keys : List Scalar) :
    v.at? (key :: keys) = none := by
  cases v with
  | map entries => exact nomatch h
  | _ => rfl

/-- A value is found along keys exactly if the walk ends there. -/
theorem at?_eq_some_iff {v w : Value} {keys : List Scalar} :
    v.at? keys = some w ↔ v.walk keys = .ends w := by
  rw [at?]
  split
  · rename_i u hu
    rw [hu, Option.some.injEq, Walk.ends.injEq]
  · rename_i hne
    exact iff_of_false nofun (hne w)

/-- What is found under a key has no key twice either. -/
theorem keysDiffer_of_get? {entries : List (Scalar × Value)} (h : entriesDiffer entries = true)
    {key : Scalar} {v : Value} (hv : Entries.get? key entries = some v) : v.keysDiffer = true := by
  induction entries with
  | nil => exact nomatch hv
  | cons e entries ih =>
      rw [entriesDiffer, Bool.and_eq_true, Bool.and_eq_true] at h
      rw [Entries.get?_cons] at hv
      split at hv
      · obtain rfl := Option.some.inj hv
        exact h.1.2
      · exact ih h.2 hv

end Value

/-! ### One mapping over another -/

/-- What is no mapping replaces everything below it. -/
theorem mergeValue_of_not_isMap {v : Value} (h : v.isMap = false) (below : Option Value) :
    mergeValue below v = v := by
  cases v with
  | map entries => exact nomatch h
  | _ => rfl

/-- Over anything but a mapping the upper value stays as it is. -/
theorem mergeValue_over {below : Option Value} (h : ∀ base, below ≠ some (.map base)) (v : Value) :
    mergeValue below v = v := by
  cases v with
  | map upper =>
      rw [mergeValue]
      exact h
  | _ => rfl

/-- A key of the upper mapping has its value there, over the one below; any other key has what is
below. -/
theorem get?_mergeEntries {upper : List (Scalar × Value)} (h : Value.entriesDiffer upper = true)
    (base : List (Scalar × Value)) (key : Scalar) :
    Entries.get? key (mergeEntries base upper) =
      match Entries.get? key upper with
      | some v => some (mergeValue (Entries.get? key base) v)
      | none => Entries.get? key base := by
  induction upper generalizing base with
  | nil => rfl
  | cons e upper ih =>
      rw [Value.entriesDiffer, Bool.and_eq_true, Bool.and_eq_true, Bool.not_eq_true'] at h
      obtain ⟨⟨hfresh, -⟩, hrest⟩ := h
      rw [mergeEntries, ih hrest, Entries.get?_cons, Entries.get?_insert]
      by_cases hk : (e.1 == key) = true
      · -- The key is not written again, so what is found is what this entry wrote.
        have hgone : Entries.get? key upper = none := by
          rw [← Entries.get?_congr hk]
          simpa [Entries.has] using hfresh
        rw [if_pos hk, if_pos hk, hgone, Entries.get?_congr hk]
      · rw [if_neg hk, if_neg hk]

/-- The keys of the lower mapping come first, then those that only the upper one has. -/
theorem keys_mergeEntries {upper : List (Scalar × Value)} (h : Value.entriesDiffer upper = true)
    (base : List (Scalar × Value)) :
    (mergeEntries base upper).map Prod.fst
      = base.map Prod.fst ++ (upper.map Prod.fst).filter fun key => !Entries.has key base := by
  induction upper generalizing base with
  | nil => exact (List.append_nil _).symm
  | cons e upper ih =>
      rw [Value.entriesDiffer, Bool.and_eq_true, Bool.and_eq_true, Bool.not_eq_true'] at h
      obtain ⟨⟨hfresh, -⟩, hrest⟩ := h
      -- The key that is written differs from all later ones, so it hides none of them.
      have hothers : ∀ key ∈ upper.map Prod.fst, ∀ value,
          (!Entries.has key (Entries.insert e.1 value base)) = !Entries.has key base := by
        intro key hkey value
        have hne : (e.1 == key) = false := by
          rw [BEq.comm]
          exact Entries.beq_eq_false_of_has hfresh hkey
        rw [Entries.has_insert, hne, Bool.false_or]
      rw [mergeEntries, ih hrest, List.filter_congr (fun key hkey => hothers key hkey _),
        List.map_cons, List.filter_cons]
      cases hbase : Entries.has e.1 base with
      | true => rw [Entries.keys_insert_of_has hbase]; rfl
      | false =>
          have hnone : Entries.get? e.1 base = none := by
            simpa [Entries.has] using hbase
          rw [Entries.insert_eq_append hnone, List.map_append, List.append_assoc]
          rfl

/-- What a merged value has along a path. The induction is on the path; each step is one
look-up. -/
theorem at?_mergeValue (keys : List Scalar) {upper : Value} (h : upper.keysDiffer = true)
    (below : Option Value) :
    (mergeValue below upper).at? keys =
      match upper.walk keys with
      | .ends v => some (mergeValue (below.bind (Value.at? keys)) v)
      | .leaves => below.bind (Value.at? keys)
      | .blocked => none := by
  induction keys generalizing upper below with
  | nil => cases below <;> rfl
  | cons key keys ih =>
      -- Two mappings are merged key by key. Over anything else the upper value stands alone.
      by_cases hbelow : ∃ base, below = some (.map base)
      · obtain ⟨base, rfl⟩ := hbelow
        rw [Option.bind_some, Value.at?_map]
        cases upper with
        | map upper =>
            rw [mergeValue, Value.at?_map, get?_mergeEntries h, Value.walk]
            cases hupper : Entries.get? key upper with
            | none => rfl
            | some v => exact ih (Value.keysDiffer_of_get? h hupper) (Entries.get? key base)
        | _ => rfl
      · -- Nothing below the upper value is reached by a key.
        have hnone : below.bind (Value.at? (key :: keys)) = none := by
          cases below with
          | none => rfl
          | some v =>
              refine Value.at?_of_not_isMap ?_ key keys
              cases v with
              | map base => exact absurd ⟨base, rfl⟩ hbelow
              | _ => rfl
        rw [mergeValue_over (fun base hbase => hbelow ⟨base, hbase⟩), hnone, Value.at?]
        cases upper.walk (key :: keys) with
        | ends v => exact congrArg some (mergeValue_over (by simp) v).symm
        | leaves => rfl
        | blocked => rfl

/-! ### What a mapping over another has -/

/-- What `merged` has as the upper value over the base, along every path, and the order of the
keys in it. -/
structure IsOverlay (base upper merged : Value) : Prop where
  /-- Where both have a mapping, the two are merged. -/
  merges : ∀ keys {lower higher}, base.at? keys = some (.map lower) →
    upper.at? keys = some (.map higher) → merged.at? keys = some (.map (mergeEntries lower higher))
  /-- Any other value of the upper stands as it is: one that is no mapping, and a mapping where
  the base has none. -/
  replaces : ∀ keys {v}, upper.at? keys = some v →
    (v.isMap = false ∨ ∀ lower, base.at? keys ≠ some (.map lower)) → merged.at? keys = some v
  /-- Below a value of the upper that is no mapping there is nothing. -/
  hides : ∀ keys, upper.walk keys = .blocked → merged.at? keys = none
  /-- Where a mapping of the upper lacks the next key, all is as in the base. -/
  keeps : ∀ keys, upper.walk keys = .leaves → merged.at? keys = base.at? keys
  /-- A merged mapping has the keys of the base in their order, then those that only the upper
  has in theirs. -/
  orders : ∀ keys {lower higher entries}, base.at? keys = some (.map lower) →
    upper.at? keys = some (.map higher) → merged.at? keys = some (.map entries) →
    entries.map Prod.fst
      = lower.map Prod.fst ++ (higher.map Prod.fst).filter fun key => !Entries.has key lower

/-- What is found along keys has no key twice either. -/
theorem Value.keysDiffer_of_at? {v w : Value} (h : v.keysDiffer = true) {keys : List Scalar}
    (hw : v.at? keys = some w) : w.keysDiffer = true := by
  induction keys generalizing v with
  | nil =>
      obtain rfl := Option.some.inj hw
      exact h
  | cons key keys ih =>
      cases v with
      | map entries =>
          rw [Value.at?_map] at hw
          obtain ⟨v, hv, hw⟩ := Option.bind_eq_some_iff.mp hw
          exact ih (Value.keysDiffer_of_get? h hv) hw
      | _ => exact nomatch hw

/-- A merged mapping is an overlay. The induction is on the upper mapping, whose entries are
written one after the other. -/
theorem isOverlay_mergeEntries {upper : List (Scalar × Value)}
    (h : (Value.map upper).keysDiffer = true) (base : List (Scalar × Value)) :
    IsOverlay (.map base) (.map upper) (.map (mergeEntries base upper)) := by
  have hpath : ∀ keys, (Value.map (mergeEntries base upper)).at? keys = _ :=
    fun keys => at?_mergeValue keys h (some (.map base))
  -- Where both have a mapping there is the one merged from the two.
  have hmerges : ∀ keys {lower higher}, (Value.map base).at? keys = some (.map lower) →
      (Value.map upper).at? keys = some (.map higher) →
      (Value.map (mergeEntries base upper)).at? keys = some (.map (mergeEntries lower higher)) := by
    intro keys lower higher hlower hhigher
    rw [hpath, Value.at?_eq_some_iff.mp hhigher]
    show some (mergeValue ((Value.map base).at? keys) (.map higher)) = _
    rw [hlower, mergeValue]
  refine ⟨hmerges, ?_, ?_, ?_, ?_⟩
  · intro keys v hv hother
    rw [hpath, Value.at?_eq_some_iff.mp hv]
    rcases hother with hmap | hlower
    · exact congrArg some (mergeValue_of_not_isMap hmap _)
    · exact congrArg some (mergeValue_over hlower v)
  · intro keys hblocked
    rw [hpath, hblocked]
  · intro keys hleaves
    rw [hpath, hleaves]
    rfl
  · intro keys lower higher entries hlower hhigher hentries
    rw [hmerges keys hlower hhigher] at hentries
    obtain rfl := Value.map.inj (Option.some.inj hentries)
    exact keys_mergeEntries (Value.keysDiffer_of_at? h hhigher) lower

/-! ### Documents -/

namespace Document

variable {settings : Settings} {plan : CodeSample.Plan} {es : List Endpoint}

/-- A document is the one without a base with the base over it, as long as the base is not nested
too deeply. -/
theorem assemble_eq_ok_iff {base : List (Scalar × Value)} {doc : Value} :
    assemble settings plan es base = .ok doc ↔
      ∃ generated, assemble settings plan es [] = .ok (.map generated) ∧
        Value.entriesDepth base ≤ maxBaseDepth ∧ doc = .map (mergeEntries generated base) := by
  have hempty : ¬ maxBaseDepth < Value.entriesDepth [] := by decide
  constructor
  · intro h
    obtain ⟨items, hitems, h⟩ := exists_of_bind_eq_ok h
    split at h
    · exact nomatch h
    · rename_i hdepth
      refine ⟨_, ?_, Nat.le_of_not_lt hdepth, (Except.ok.inj h).symm⟩
      rw [assemble, hitems]
      rfl
  · rintro ⟨generated, h, hdepth, rfl⟩
    obtain ⟨items, hitems, h⟩ := exists_of_bind_eq_ok h
    rw [if_neg hempty] at h
    obtain rfl := Value.map.inj (Except.ok.inj h)
    rw [assemble, hitems]
    exact if_neg (Nat.not_lt_of_le hdepth)

/-- A mapping over another has its own values, and leaves alone what it does not reach. In a
document the base is so over what is assembled without it; there is a document with the base
exactly where there is one without it and the base is not nested too deeply. -/
theorem merge_isOverlay {upper : List (Scalar × Value)}
    (h : (Value.map upper).keysDiffer = true) :
    (∀ base, IsOverlay (.map base) (.map upper) (.map (mergeEntries base upper))) ∧
      ∀ (settings : Settings) (plan : CodeSample.Plan) (es : List Endpoint),
        (∀ doc, assemble settings plan es upper = .ok doc →
          ∃ generated, assemble settings plan es [] = .ok generated ∧
            IsOverlay generated (.map upper) doc) ∧
        ((∃ doc, assemble settings plan es upper = .ok doc) ↔
          (∃ generated, assemble settings plan es [] = .ok generated) ∧
            Value.entriesDepth upper ≤ maxBaseDepth) := by
  refine ⟨isOverlay_mergeEntries h, fun settings plan es => ⟨?_, ?_, ?_⟩⟩
  · intro doc hdoc
    obtain ⟨generated, hgenerated, -, rfl⟩ := assemble_eq_ok_iff.mp hdoc
    exact ⟨_, hgenerated, isOverlay_mergeEntries h generated⟩
  · rintro ⟨doc, hdoc⟩
    obtain ⟨generated, hgenerated, hdepth, -⟩ := assemble_eq_ok_iff.mp hdoc
    exact ⟨⟨_, hgenerated⟩, hdepth⟩
  · rintro ⟨⟨generated, hgenerated⟩, hdepth⟩
    obtain ⟨entries, -, -, rfl⟩ := assemble_eq_ok_iff.mp hgenerated
    exact ⟨_, assemble_eq_ok_iff.mpr ⟨_, hgenerated, hdepth, rfl⟩⟩

/-- A base document with a title, a logo that is left out, and an address. -/
def brandedBase : List (Scalar × Value) :=
  [(.str "info", .object [("x-logo", .null), ("contact", .object [("email", .str "a@b.c")]),
    ("title", .str "Shop")]), (.str "servers", .list [])]

/-- A document with a logo and without an address. -/
def unbranded : List (Scalar × Value) :=
  [(.str "openapi", .str "3.0.0"),
   (.str "info", .object [("title", .str "API"), ("version", .str "1"), ("contact", .null),
    ("x-logo", .object [("url", .str "/logo")])])]

/-- The title and the address are those of the base, the logo is gone, and the version stays; the
order is that of the document, with the servers at the end. -/
theorem merge_isOverlay_branded :
    (Value.map brandedBase).keysDiffer = true ∧
      ((Value.map (mergeEntries unbranded brandedBase)).at? [.str "info", .str "title"]
          = some (.str "Shop") ∧
        (Value.map (mergeEntries unbranded brandedBase)).at?
          [.str "info", .str "contact", .str "email"] = some (.str "a@b.c") ∧
        (Value.map (mergeEntries unbranded brandedBase)).at?
          [.str "info", .str "x-logo", .str "url"] = none ∧
        (Value.map (mergeEntries unbranded brandedBase)).at? [.str "info", .str "version"]
          = some (.str "1") ∧
        (mergeEntries unbranded brandedBase).map Prod.fst
          = [.str "openapi", .str "info", .str "servers"]) := by
  have hbase : (Value.map brandedBase).keysDiffer = true := by decide
  have h := (merge_isOverlay hbase).1 unbranded
  exact ⟨hbase, h.replaces _ rfl (.inl rfl), h.replaces _ rfl (.inl rfl), h.hides _ rfl,
    h.keeps _ rfl, h.orders [] rfl rfl rfl⟩

end Document

end RouteDocs
