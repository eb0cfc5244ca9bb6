import RouteDocs.Proofs.ExampleOrigins
import RouteDocs.Proofs.MappingKeys
import RouteDocs.Proofs.NoonTrials
import RouteDocs.Proofs.UntangledBlocks

/-!
# `RouteDocs.Proofs.GivenExamples`: examples that a property block gives

A field of a property block may give its example, which is to be shown as the author wrote it.
Three things stand in the way.

* Types are normalised by a walk over the whole block, which does not tell an example from a
  schema. In an example, too, the texts under `type` are replaced, and a number under `type` is
  a reason to reject the block (`not_keepsExamples_partBlock`).
* The walk goes down into an example as far as it is nested, and gives up where it has no room.
* What is found for a field with a dotted name is written into the example of the field above
  it (`not_keepsExamples_tangledBlock`).

`ExampleAt` says where in a block the examples are, by the place that each mapping has in the
schema, and `withoutExamples` is the block without them. `parseBlock_keepsExamples_iff` is the
exact condition under which examples are kept, in the schema that is read and in what is shown
of it, and under which none is a reason to reject the block. In each of them, whatever is under
`type` has to be a mapping, a list, or a text that normalisation keeps, and the walk needs room
for it; and two trials have to show it.
-/

set_option autoImplicit false

namespace RouteDocs

open Text Synthesis Endpoint

namespace Tag

/-! ### Where the examples are -/

/-- The key under which a schema has its example. -/
def exampleKey : Scalar := .str "example"

/-- What a mapping is in a schema. -/
inductive Place where
  /-- Fields by name. -/
  | fields
  /-- The schema of a field. -/
  | field
  /-- The schema of the elements of a list. -/
  | elements
  /-- Anything else. -/
  | other

/-- What the value under a key is, if it is part of the schema. The value under `example` in
the schema of a field is not. -/
def Place.below (entries : List (Scalar × Value)) (key : Scalar) : Place → Option Place
  | .fields => some .field
  | .field =>
    if key = exampleKey then none
    else if shape entries = .fields then some .field
    else if key = .str "properties" then some .fields
    else if key = .str "items" then some .elements
    else some .other
  | .elements => if key = .str "properties" then some .fields else some .other
  | .other => some .other

/-- Only what is under `example` is no part of the schema. -/
theorem Place.eq_exampleKey_of_below_eq_none {entries : List (Scalar × Value)} {key : Scalar}
    {place : Place} (h : place.below entries key = none) : key = exampleKey := by
  cases place with
  | field =>
      by_contra hkey
      rw [below, if_neg hkey] at h
      split_ifs at h
  | fields => cases h
  | elements =>
      rw [below] at h
      split_ifs at h
  | other => cases h

/-- A field gives this example at this address. -/
inductive ExampleAt : Place → Value → List Scalar → Value → Prop where
  /-- Under the key of examples. -/
  | given {place : Place} {entries : List (Scalar × Value)} {key : Scalar} {x : Value}
      (hbelow : place.below entries key = none) (hget : Entries.get? key entries = some x) :
      ExampleAt place (.map entries) [key] x
  /-- Further down in the schema. -/
  | under {place inner : Place} {entries : List (Scalar × Value)} {key : Scalar} {v x : Value}
      {address : List Scalar} (hbelow : place.below entries key = some inner)
      (hget : Entries.get? key entries = some v) (hrest : ExampleAt inner v address x) :
      ExampleAt place (.map entries) (key :: address) x

mutual

/-- A value without the examples that fields in it give. -/
def withoutExamples : Place → Value → Value
  | place, .map entries => .map (entriesWithout (place.below entries ·) entries)
  | _, v => v

/-- The entries without the examples, where each key has this place. -/
def entriesWithout (below : Scalar → Option Place) :
    List (Scalar × Value) → List (Scalar × Value)
  | [] => []
  | (key, v) :: es =>
    match below key with
    | none => entriesWithout below es
    | some place => (key, withoutExamples place v) :: entriesWithout below es

end

/-- A value that normalising types leaves as it is: it does not contain itself, and whatever is
under `type` in it is a mapping, a list, or a text that normalisation keeps. -/
abbrev IsVerbatim : Value → Prop := HasTypes IsNormal

/-! ### What is read -/

section

variable {tag : Text} {place : Place} {P : Text → Prop} {v w x : Value} {address : List Scalar}

/-- The value at the address of an example is the example with its types normalised, in the room
that is left there. -/
theorem ExampleAt.exists_at? (h : ExampleAt place v address x) {room : Nat}
    (hw : normalizeSchema tag room v = .ok w) :
    ∃ below y, room = below + address.length ∧ normalizeSchema tag below x = .ok y ∧
      w.at? address = some y := by
  -- Each key of the address takes one step of the room.
  induction h generalizing room w with
  | @given place entries key x hbelow hget =>
      obtain ⟨ps, hps, rfl⟩ := normalizeSchema_map_eq_ok_iff.mp hw
      obtain ⟨y, hy, hrel⟩ := hps.exists_get? hget
      have hkey : key ≠ typeKey := by
        rw [Place.eq_exampleKey_of_below_eq_none hbelow]
        decide
      cases room with
      | zero => cases hrel
      | succ below =>
          rw [normalizeUnder_of_ne hkey] at hrel
          exact ⟨below, y, rfl, hrel, by rw [Value.at?_map, hy]; rfl⟩
  | @under place inner entries key v x address hbelow hget hrest ih =>
      obtain ⟨ps, hps, rfl⟩ := normalizeSchema_map_eq_ok_iff.mp hw
      obtain ⟨u, hu, hrel⟩ := hps.exists_get? hget
      obtain ⟨inside, rfl, hcases⟩ := normalizeUnder_cases hrel
      -- There is an example in the value, so it is a mapping, and not the name of a type.
      have hself : normalizeSchema tag inside v = .ok u := by
        obtain hself | ⟨s, rfl, -⟩ := hcases
        · exact hself
        · cases hrest
      obtain ⟨below, y, rfl, hy, hat⟩ := ih hself
      exact ⟨below, y, by rw [List.length_cons]; omega, hy,
        by rw [Value.at?_map, hu, Option.bind_some, hat]⟩

/-! ### What is accepted -/

/-- The entries that are left are those with a place. -/
theorem mem_entriesWithout_iff {below : Scalar → Option Place} {es : List (Scalar × Value)}
    {key : Scalar} {u : Value} : (key, u) ∈ entriesWithout below es ↔
      ∃ v inner, (key, v) ∈ es ∧ below key = some inner ∧ u = withoutExamples inner v := by
  induction es with
  | nil => simp [entriesWithout]
  | cons e es ih =>
      obtain ⟨k, w⟩ := e
      rw [entriesWithout]
      split
      · rename_i hbelow
        -- The first entry has no place, so it is none of those with a place.
        rw [ih]
        refine exists₂_congr fun v inner => and_congr_left fun hplace => ?_
        have hne : key ≠ k := by
          intro heq
          rw [heq, hbelow] at hplace
          cases hplace.1
        simp [hne]
      · rename_i inner hbelow
        rw [List.mem_cons, ih]
        constructor
        · rintro (heq | ⟨v, inner', hmem, hplace⟩)
          · cases heq
            exact ⟨w, inner, List.mem_cons_self, hbelow, rfl⟩
          · exact ⟨v, inner', List.mem_cons_of_mem _ hmem, hplace⟩
        · rintro ⟨v, inner', hmem, hplace, rfl⟩
          obtain heq | hmem := List.mem_cons.mp hmem
          · cases heq
            rw [hbelow] at hplace
            cases hplace
            exact .inl rfl
          · exact .inr ⟨v, inner', hmem, hplace, rfl⟩

/-- An entry with a place is left, without the examples in it. -/
theorem mem_entriesWithout {entries es : List (Scalar × Value)} {key : Scalar} {u : Value}
    {inner : Place} (hmem : (key, u) ∈ es) (hbelow : place.below entries key = some inner) :
    (key, withoutExamples inner u) ∈ entriesWithout (place.below entries ·) es :=
  mem_entriesWithout_iff.mpr ⟨u, inner, hmem, hbelow, rfl⟩

/-- Only mappings have examples in them. -/
theorem eq_of_withoutExamples_eq {u : Value} (h : withoutExamples place v = u)
    (hu : ∀ entries, u ≠ .map entries) : v = u := by
  cases v with
  | map entries => exact absurd h.symm (hu _)
  | _ => exact h

/-- A type name stays when the examples are left out. -/
theorem TypeWith.withoutExamples (h : TypeWith P v) (place : Place) :
    TypeWith P (withoutExamples place v) := by
  cases h with
  | name h => exact .name h
  | map entries => exact .map _
  | list items => exact .list items

/-- And none comes up by that. -/
theorem TypeWith.of_withoutExamples (h : TypeWith P (Tag.withoutExamples place v)) :
    TypeWith P v := by
  cases v with
  | map entries => exact .map entries
  | _ => exact h

/-- What a value has, it has without its examples. -/
theorem HasTypes.withoutExamples (h : HasTypes P v) (place : Place) :
    HasTypes P (Tag.withoutExamples place v) := by
  induction h generalizing place with
  | scalar s => exact .scalar s
  | pair a b => exact .pair a b
  | set members => exact .set members
  | list hitems _ => exact .list hitems
  -- What is left of a mapping are entries of it, and `type` is among them if it was.
  | @map entries hvalues htypes ih =>
      rw [Tag.withoutExamples]
      refine .map ?_ ?_
      · rintro ⟨key, u⟩ hu
        obtain ⟨v, inner, hmem, -, rfl⟩ := mem_entriesWithout_iff.mp hu
        exact ih _ hmem inner
      · intro u hu
        obtain ⟨v, inner, hmem, -, rfl⟩ := mem_entriesWithout_iff.mp hu
        exact (htypes v hmem).withoutExamples inner

/-- The walk over a value goes no deeper without its examples. -/
theorem HasTypes.descent_withoutExamples_le (h : HasTypes P v) (place : Place) :
    (Tag.withoutExamples place v).descent ≤ v.descent := by
  induction h generalizing place with
  | @map entries hvalues htypes ih =>
      rw [Tag.withoutExamples, Value.descent, Value.descent]
      refine Value.entriesDescent_le_iff.mpr ?_
      rintro ⟨key, u⟩ hu
      obtain ⟨v, inner, hmem, -, rfl⟩ := mem_entriesWithout_iff.mp hu
      have hvalue := Value.entriesDescent_le_iff.mp (Nat.le_refl _) _ hmem
      have hinner := ih _ hmem inner
      dsimp only at hvalue hinner ⊢
      omega
  | _ => exact Nat.le_refl _

/-- What a value has without its examples, and each of the examples has, it has itself, and
there is room for the walk over it. -/
theorem HasTypes.of_withoutExamples {room : Nat} (h : HasTypes P (Tag.withoutExamples place v))
    (hroom : (Tag.withoutExamples place v).descent ≤ room) (hkeys : v.keysDiffer = true)
    (hx : ∀ address x, ExampleAt place v address x →
      HasTypes P x ∧ address.length + x.descent ≤ room) :
    HasTypes P v ∧ v.descent ≤ room := by
  generalize hv : Tag.withoutExamples place v = u at h hroom
  -- The induction follows what is left of the value; only a mapping leaves anything out.
  induction h generalizing v place room with
  | @map left hvalues htypes ih =>
      cases v with
      | map entries =>
          obtain rfl := Value.map.inj hv
          obtain ⟨hkeyed, hvaluesKeyed⟩ := Value.entriesDiffer_iff.mp hkeys
          rw [Value.descent] at hroom
          have hinside := Value.entriesDescent_le_iff.mp hroom
          have hall : ∀ e ∈ entries, HasTypes P e.2 ∧ e.2.descent + 1 ≤ room := by
            rintro ⟨key, u⟩ hmem
            have hget := hkeyed.get?_of_mem hmem
            cases hbelow : place.below entries key with
            | none =>
                -- The entry is an example itself.
                obtain ⟨htypes, hdescent⟩ := hx _ _ (.given hbelow hget)
                rw [List.length_singleton, Nat.add_comm] at hdescent
                exact ⟨htypes, hdescent⟩
            | some inner =>
                have hleft := mem_entriesWithout hmem hbelow
                have hleftRoom : (Tag.withoutExamples inner u).descent + 1 ≤ room := hinside _ hleft
                -- Below the key there is one step less of room, for the examples as well.
                have hexamples : ∀ address x, ExampleAt inner u address x →
                    HasTypes P x ∧ address.length + x.descent ≤ room - 1 := by
                  intro address x hrest
                  obtain ⟨htypes, hdescent⟩ := hx _ x (.under hbelow hget hrest)
                  rw [List.length_cons] at hdescent
                  exact ⟨htypes, by omega⟩
                obtain ⟨htypes, hdescent⟩ : HasTypes P u ∧ u.descent ≤ room - 1 :=
                  ih _ hleft (hvaluesKeyed _ hmem) hexamples rfl (Nat.le_sub_one_of_lt hleftRoom)
                exact ⟨htypes, show u.descent + 1 ≤ room by omega⟩
          refine ⟨.map (fun e he => (hall e he).1) fun u hmem => ?_, ?_⟩
          · cases hbelow : place.below entries typeKey with
            | none => exact absurd (Place.eq_exampleKey_of_below_eq_none hbelow) (by decide)
            | some inner =>
                exact (htypes _ (mem_entriesWithout hmem hbelow)).of_withoutExamples
          · rw [Value.descent]
            exact Value.entriesDescent_le_iff.mpr fun e he => (hall e he).2
      | _ => cases hv
  | _ =>
      rw [eq_of_withoutExamples_eq hv nofun]
      exact ⟨by constructor <;> assumption, hroom⟩

end

/-! ### What is shown of a property -/

section

variable {σ : Type} [RandomSource σ]

/-- A property with an example becomes a parameter under its key, with that value. -/
theorem value_ofProperty {now : Moment} {tag location : Text} {name : Scalar} {node : Value}
    {s : σ} {p : Scalar × Parameter}
    (hout : (ofProperty now tag location name node).outcome s = .ok p) :
    name = p.1 ∧ ∀ entries x, node = .map entries → Entries.get? exampleKey entries = some x →
      p.2.value = x := by
  -- The value comes from the origin that the property has, and this is its example.
  obtain ⟨o, ho, -, hgives⟩ := Origin.gives_ofProperty hout
  obtain ⟨schema, hschema, ho⟩ := exists_of_bind_eq_ok ho
  obtain ⟨nested, -, ho⟩ := exists_of_bind_eq_ok ho
  obtain ⟨type, -, ho⟩ := exists_of_bind_eq_ok ho
  cases ho
  refine ⟨rfl, ?_⟩
  rintro entries x rfl hx
  obtain rfl : entries = schema := Except.ok.inj hschema
  have hgiven : Entries.get? (.str "example") entries = some x := hx
  rw [hgiven] at hgives
  cases hgives
  rfl

/-- The properties of a block become parameters under the same keys, and those with an example
have it as their value. -/
theorem matched_ofProperties {now : Moment} {tag location : Text} {properties : Properties}
    {s : σ} {ps : List (Scalar × Parameter)}
    (h : (ofProperties now tag location properties).outcome s = .ok ps) :
    Entries.Matched (fun _ v p => ∀ entries x, v = .map entries →
      Entries.get? exampleKey entries = some x → p.value = x) properties ps := by
  induction properties generalizing s ps with
  | nil =>
      cases h
      exact .nil
  | cons property properties ih =>
      obtain ⟨p, hp, h⟩ := Synth.outcome_bind_eq_ok_iff.mp h
      obtain ⟨others, hothers, h⟩ := Synth.outcome_bind_eq_ok_iff.mp h
      cases h
      exact .cons (value_ofProperty hp) (ih hothers)

end

/-! ### Whole blocks -/

/-- The value of a block has no key twice, as it is read from YAML. -/
theorem keysDiffer_of_blockValue {tag block : Text} {v : Value}
    (h : blockValue tag block = .ok (.ok v)) : v.keysDiffer = true := by
  obtain ⟨ls, -, h⟩ := exists_of_bind_eq_ok h
  obtain ⟨part, hpart, rfl⟩ := exists_of_map_eq_ok (Except.ok.inj h)
  exact Yaml.keysDiffer_of_read hpart

/-- A block with a key map is read by normalising its types. -/
theorem parseBlock_eq_ok_iff {tag block : Text} {entries ps : List (Scalar × Value)}
    (h : blockValue tag block = .ok (.ok (.map entries))) :
    parseBlock tag block = .ok ps ↔
      normalizeSchema tag maxSchemaDepth (.map entries) = .ok (.map ps) := by
  obtain ⟨ls, hls, h⟩ := exists_of_bind_eq_ok h
  obtain ⟨part, hpart, hvalue⟩ := exists_of_map_eq_ok (Except.ok.inj h)
  -- Reading a block is reading YAML, and then the walk over the entries.
  have hparse : parseBlock tag block = normalizeEntries tag maxSchemaDepth entries := by
    rw [parseBlock, hls]
    show ((Yaml.read (unlines ls)).mapError (blockError tag) >>= _) = _
    rw [hpart]
    dsimp only [Except.mapError, bind, Except.bind]
    rw [hvalue]
  rw [hparse, normalizeEntries_eq_ok_iff, normalizeSchema_map_eq_ok_iff]
  simp

/-- Reading accepts these entries. -/
def Accepts (tag : Text) (v : Value) : Prop :=
  ∃ w, normalizeSchema tag maxSchemaDepth v = .ok w

/-- An example that is read as it is: it is verbatim, and there is room for the walk over it. -/
structure IsReadAsIs (address : List Scalar) (x : Value) : Prop where
  verbatim : IsVerbatim x
  room : address.length + x.descent ≤ maxSchemaDepth

/-- A field of the schema that gives the example at an address. -/
def GivenAt (ps : List (Scalar × Value)) (address : List Scalar) (f : Field) : Prop :=
  Visits [] [] (.map ps) f ∧ f.address ++ [exampleKey] = address

/-- What a block that YAML reads as these entries is to do with the examples in it. -/
structure KeepsExamples (tag block : Text) (entries : List (Scalar × Value)) : Prop where
  /-- No example is a reason to reject the block. -/
  accepts : Accepts tag (withoutExamples .fields (.map entries)) →
    ∃ ps, parseBlock tag block = .ok ps
  /-- The schema holds each example as it was read. -/
  holds : ∀ ps, parseBlock tag block = .ok ps →
    ∀ address x, ExampleAt .fields (.map entries) address x → (Value.map ps).at? address = some x
  /-- A property that becomes a parameter has its example as the value. -/
  flattens : ∀ ps, parseBlock tag block = .ok ps →
    ∀ key x, ExampleAt .fields (.map entries) [key, exampleKey] x →
      ∀ (σ : Type) [RandomSource σ] (now : Moment) (tagName location : Text) (s : σ)
        (qs : List (Scalar × Parameter)),
        (ofProperties now tagName location ps).outcome s = .ok qs →
          ∃ p, Entries.get? key qs = some p ∧ p.value = x
  /-- The example of the schema shows each example where it has the value of the field. -/
  shows : ∀ ps, parseBlock tag block = .ok ps →
    ∀ address x, ExampleAt .fields (.map entries) address x →
      ∃ f, GivenAt ps address f ∧ Shows (.map ps) f x

/-- An example that is read as it is is what the schema holds at its address. -/
theorem ExampleAt.at?_eq {tag : Text} {place : Place} {v w x : Value} {address : List Scalar}
    (h : ExampleAt place v address x) (hw : normalizeSchema tag maxSchemaDepth v = .ok w)
    (hx : IsReadAsIs address x) : w.at? address = some x := by
  obtain ⟨below, y, hroom, hy, hat⟩ := h.exists_at? hw
  have hself : normalizeSchema tag below x = .ok x := by
    refine normalizeSchema_eq_self_iff.mpr ⟨hx.verbatim, ?_⟩
    have hdescent := hx.room
    omega
  rw [hself] at hy
  cases hy
  exact hat

/-- The property under a key with an example is a mapping with the example in it. -/
theorem exists_of_at?_exampleKey {ps : List (Scalar × Value)} {key : Scalar} {x : Value}
    (h : (Value.map ps).at? [key, exampleKey] = some x) :
    ∃ entries, Entries.get? key ps = some (.map entries) ∧
      Entries.get? exampleKey entries = some x := by
  rw [Value.at?_map] at h
  obtain ⟨v, hv, h⟩ := Option.bind_eq_some_iff.mp h
  cases v with
  | map entries =>
      rw [Value.at?_map] at h
      obtain ⟨y, hy, h⟩ := Option.bind_eq_some_iff.mp h
      cases h
      exact ⟨entries, hv, hy⟩
  | _ => cases h

section
variable {tag block : Text} {entries : List (Scalar × Value)}

/-- What is accepted is accepted without its examples. -/
theorem Accepts.withoutExamples {v : Value} (h : Accepts tag v) (place : Place) :
    Accepts tag (Tag.withoutExamples place v) := by
  obtain ⟨htypes, hroom⟩ := exists_normalizeSchema_iff.mp h
  exact exists_normalizeSchema_iff.mpr ⟨htypes.withoutExamples place,
    (htypes.descent_withoutExamples_le place).trans hroom⟩

/-- Examples that are read as they are are no reason to reject a block. -/
theorem exists_parseBlock (h : blockValue tag block = .ok (.ok (.map entries)))
    (hread : ∀ address x, ExampleAt .fields (.map entries) address x → IsReadAsIs address x)
    (hwithout : Accepts tag (withoutExamples .fields (.map entries))) :
    ∃ ps, parseBlock tag block = .ok ps := by
  obtain ⟨hleft, hroom⟩ := exists_normalizeSchema_iff.mp hwithout
  have hall := hleft.of_withoutExamples hroom (keysDiffer_of_blockValue h) fun address x hx =>
    ⟨(hread address x hx).verbatim.mono fun _ _ => trivial, (hread address x hx).room⟩
  obtain ⟨w, hw⟩ := exists_normalizeSchema_iff.mpr hall
  obtain ⟨ps, -, rfl⟩ := normalizeSchema_map_eq_ok_iff.mp hw
  exact ⟨ps, (parseBlock_eq_ok_iff h).mpr hw⟩

/-- A property that the schema holds with an example becomes a parameter with that value. -/
theorem exists_get?_ofProperties {σ : Type} [RandomSource σ] {now : Moment}
    {tagName location : Text} {s : σ} {ps : List (Scalar × Value)} {qs : List (Scalar × Parameter)}
    {key : Scalar} {x : Value} (hx : (Value.map ps).at? [key, exampleKey] = some x)
    (hqs : (ofProperties now tagName location ps).outcome s = .ok qs) :
    ∃ p, Entries.get? key qs = some p ∧ p.value = x := by
  obtain ⟨schema, hschema, hexample⟩ := exists_of_at?_exampleKey hx
  have hrel := (matched_ofProperties hqs).get? (Entries.respects_const _) key
  rw [hschema] at hrel
  obtain ⟨p, hp, hvalue⟩ := exists_of_rel hrel
  exact ⟨p, hp, hvalue schema x rfl hexample⟩

/-- Examples are kept exactly if each is read as it is, and both trials at noon show it where the
tree has the value of its field, or the block is rejected without them too. -/
theorem parseBlock_keepsExamples_iff (h : blockValue tag block = .ok (.ok (.map entries))) :
    KeepsExamples tag block entries ↔
      (Accepts tag (withoutExamples .fields (.map entries)) →
        ∀ address x, ExampleAt .fields (.map entries) address x →
          IsReadAsIs address x ∧ ∀ ps, parseBlock tag block = .ok ps →
            ∃ f, GivenAt ps address f ∧ trialShown 0 (.map ps) f = some x ∧
              trialShown 1 (.map ps) f = some x) := by
  constructor
  · intro hkeeps hwithout address x hx
    obtain ⟨ps, hps⟩ := hkeeps.accepts hwithout
    -- The schema holds the example as it was read, and what it holds is the normalised example.
    obtain ⟨below, y, hroom, hy, hat⟩ := hx.exists_at? ((parseBlock_eq_ok_iff h).mp hps)
    rw [hkeeps.holds ps hps address x hx] at hat
    cases hat
    obtain ⟨hverbatim, hdescent⟩ := normalizeSchema_eq_self_iff.mp hy
    refine ⟨⟨hverbatim, by omega⟩, fun ps hps => ?_⟩
    obtain ⟨f, hf, hshows⟩ := hkeeps.shows ps hps address x hx
    exact ⟨f, hf, shows_iff.mp hshows⟩
  · intro hexamples
    by_cases hwithout : Accepts tag (withoutExamples .fields (.map entries))
    · have hread := fun address x hx => (hexamples hwithout address x hx).1
      have hholds : ∀ ps, parseBlock tag block = .ok ps → ∀ address x,
          ExampleAt .fields (.map entries) address x →
            (Value.map ps).at? address = some x := fun ps hps address x hx =>
        hx.at?_eq ((parseBlock_eq_ok_iff h).mp hps) (hread address x hx)
      refine ⟨exists_parseBlock h hread, hholds, ?_, ?_⟩
      · intro ps hps key x hx σ _ now tagName location s qs hqs
        exact exists_get?_ofProperties (hholds ps hps _ x hx) hqs
      · intro ps hps address x hx
        obtain ⟨f, hf, htrials⟩ := (hexamples hwithout address x hx).2 ps hps
        exact ⟨f, hf, shows_iff.mpr htrials⟩
    · -- A block that is rejected without its examples is rejected with them.
      have hrejected : ∀ ps, parseBlock tag block ≠ .ok ps := by
        intro ps hps
        have haccepts : Accepts tag (.map entries) := ⟨_, (parseBlock_eq_ok_iff h).mp hps⟩
        exact hwithout (haccepts.withoutExamples .fields)
      exact ⟨fun h => absurd h hwithout, fun ps hps => absurd hps (hrejected ps),
        fun ps hps => absurd hps (hrejected ps), fun ps hps => absurd hps (hrejected ps)⟩

end

/-- A label, with an example that has a `type` of its own. -/
def labelBlock : Text := "label:\n  type: object\n  example: \x7btype: string, sizes: [1, 2]\x7d"

/-- The example of the label. -/
def labelSample : Value :=
  .object [("type", .str "string"), ("sizes", .list [.int 1, .int 2])]

/-- What YAML reads in the block of a label. -/
def labelEntries : List (Scalar × Value) :=
  [(.str "label", .object [("type", .str "object"), ("example", labelSample)])]

/-- The label gives one example. -/
theorem exampleAt_labelEntries {address : List Scalar} {x : Value}
    (h : ExampleAt .fields (.map labelEntries) address x) :
    address = [.str "label", exampleKey] ∧ x = labelSample := by
  cases h with
  | given hbelow _ => cases hbelow
  | @under _ inner _ key v _ address hbelow hget hrest =>
      cases hbelow
      obtain ⟨k, hmem, hk⟩ := Entries.exists_mem_of_get? hget
      obtain ⟨rfl, rfl⟩ := Prod.mk.inj (List.mem_singleton.mp hmem)
      obtain rfl : key = .str "label" := (Scalar.beq_str_iff _ _).mp (BEq.symm hk)
      cases hrest with
      | given hbelow hget =>
          obtain rfl := Place.eq_exampleKey_of_below_eq_none hbelow
          exact ⟨rfl, (Option.some.inj hget).symm⟩
      | @under _ _ _ key _ _ _ hbelow hget hrest =>
          obtain ⟨k, hmem, hk⟩ := Entries.exists_mem_of_get? hget
          obtain heq | heq : (k, _) = (Scalar.str "type", Value.str "object") ∨
              (k, _) = (exampleKey, labelSample) := List.mem_pair.mp hmem
          · cases heq
            cases hrest
          · cases heq
            obtain rfl : key = exampleKey :=
              (Scalar.beq_str_iff _ _).mp (BEq.symm hk)
            cases hbelow

/-- The example of a label is kept, as the `type` in it is the name that normalisation gives. -/
theorem keepsExamples_labelBlock :
    blockValue "bodyParam" labelBlock = .ok (.ok (.map labelEntries)) ∧
      KeepsExamples "bodyParam" labelBlock labelEntries := by
  have hread : blockValue "bodyParam" labelBlock = .ok (.ok (.map labelEntries)) := by
    decide +kernel
  have hparse : parseBlock "bodyParam" labelBlock = .ok labelEntries := by decide +kernel
  have hself : normalizeSchema "bodyParam" 10 labelSample = .ok labelSample := by decide +kernel
  refine ⟨hread, (parseBlock_keepsExamples_iff hread).mpr fun _ address x hx => ?_⟩
  obtain ⟨rfl, rfl⟩ := exampleAt_labelEntries hx
  obtain ⟨hverbatim, hdescent⟩ := normalizeSchema_eq_self_iff.mp hself
  refine ⟨⟨hverbatim, ?_⟩, fun ps hps => ?_⟩
  · have hmax : maxSchemaDepth = 980 := rfl
    rw [hmax, List.length_cons, List.length_singleton]
    omega
  · rw [hparse] at hps
    cases hps
    -- The field of the label is the first that the walk comes to.
    refine ⟨⟨".label", [.str "label"], some labelSample⟩, ⟨?_, rfl⟩, ?_, ?_⟩
    · exact .fields rfl List.mem_cons_self rfl (.field rfl)
    · decide +kernel
    · decide +kernel

/-- A part, with an example that has a synonym under `type`. -/
def partBlock : Text := "a:\n  type: object\n  example: \x7btype: int\x7d"

/-- What YAML reads in it. -/
def partEntries : List (Scalar × Value) :=
  [(.str "a", .object [("type", .str "object"), ("example", .object [("type", .str "int")])])]

/-- The `type` in the example of a part is replaced. -/
theorem not_keepsExamples_partBlock :
    blockValue "bodyParam" partBlock = .ok (.ok (.map partEntries)) ∧
      ¬ KeepsExamples "bodyParam" partBlock partEntries := by
  have hread : blockValue "bodyParam" partBlock = .ok (.ok (.map partEntries)) := by
    decide +kernel
  have hparse : parseBlock "bodyParam" partBlock = .ok
      [(.str "a", .object
        [("type", .str "object"), ("example", .object [("type", .str "integer")])])] := by
    decide +kernel
  refine ⟨hread, fun hkeeps => ?_⟩
  have hx : ExampleAt .fields (.map partEntries) [.str "a", exampleKey]
      (.object [("type", .str "int")]) := .under rfl rfl (.given rfl rfl)
  have hholds := hkeeps.holds _ hparse _ _ hx
  exact absurd hholds (by decide +kernel)

/-- A block with a number below an example that the author gives. -/
def tangledBlock : Text := "a:\n  type: object\n  example: \x7b\x7d\na.b:\n  type: integer"

/-- The first of its fields is the one at the path of its name. -/
theorem givenAt_tangledSchema {f : Field}
    (h : GivenAt (tangledSchema (.object [])) [.str "a", exampleKey] f) : f.path = ".a" := by
  obtain ⟨hvisits, haddress⟩ := h
  have hroot : shape (tangledSchema (.object [])) = .fields := by decide
  cases hvisits with
  | @fields _ name _ _ k v _ hshape hmem hname h =>
      obtain heq | heq := List.mem_pair.mp hmem
      · cases heq
        cases hname
        cases h with
        | field hshape => rfl
        | fields hshape => exact absurd hshape (by decide)
        | object hshape => exact absurd hshape (by decide)
        | elements hshape => exact absurd hshape (by decide)
      · cases heq
        cases hname
        cases h with
        | field hshape => exact absurd haddress (by decide)
        | fields hshape => exact absurd hshape (by decide)
        | object hshape => exact absurd hshape (by decide)
        | elements hshape => exact absurd hshape (by decide)
  | field hshape =>
      rw [hroot] at hshape
      cases hshape
  | object hshape => exact absurd hshape (by decide)
  | elements hshape => exact absurd hshape (by decide)

/-- The schema holds the example as it was read, but shows it with the number in it. -/
theorem not_keepsExamples_tangledBlock :
    blockValue "bodyParam" tangledBlock = .ok (.ok (.map (tangledSchema (.object [])))) ∧
      parseBlock "bodyParam" tangledBlock = .ok (tangledSchema (.object [])) ∧
      ¬ KeepsExamples "bodyParam" tangledBlock (tangledSchema (.object [])) := by
  have hparse : parseBlock "bodyParam" tangledBlock = .ok (tangledSchema (.object [])) := by
    decide +kernel
  refine ⟨by decide +kernel, hparse, fun hkeeps => ?_⟩
  have hx : ExampleAt .fields (.map (tangledSchema (.object []))) [.str "a", exampleKey]
      (.object []) := .under rfl rfl (.given rfl rfl)
  obtain ⟨f, hf, hshows⟩ := hkeeps.shows _ hparse _ _ hx
  have htrial := (shows_iff.mp hshows).1
  have hkeys : f.keys = ["a"] := by
    rw [Field.keys, givenAt_tangledSchema hf]
    decide
  rw [trialShown, hkeys] at htrial
  exact absurd htrial (by decide +kernel)

end Tag

end RouteDocs
