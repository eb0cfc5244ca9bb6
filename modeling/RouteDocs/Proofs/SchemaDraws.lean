import RouteDocs.Proofs.Draws

/-!
# `RouteDocs.Proofs.SchemaDraws`: schemas are walked alike

A nested schema is walked field by field, with a draw for each field that has no example. The
module couples that walk with itself, from two states of two sources: the values that are
found stand under the same paths, and the trees that are put together from them are alike.
All couplings are about any two runs whose single draws agree (`DrawsAgree`), with whatever
excuse and whatever relation of made-up scalars.

The schema itself is touched, because an example that it gives is part of the tree, and a
field with a dotted name may be written into it. So the schemas that two runs leave are alike
too, and differ in examples only. Whether they are equal depends on the schema; the relation
`S` of nested schemas is a parameter from `SampleAlike` on, and `PropertiesAlike` is the
choice for which every schema is good (`compositeOfEntries_coupled`).
-/

set_option autoImplicit false

namespace RouteDocs

open Text Synthesis

namespace Synthesis

variable {σ τ : Type} [RandomSource σ] [RandomSource τ] {E : Excuse} {Q : σ → τ → Prop}
  {D : Scalar → Scalar → Prop} {now now' : Moment}

/-! ### The walk of a schema -/

/-- Two values found for one field. A value that the schema gives is the same in both, and
stands under the key `example` there. -/
structure Finding.Alike (D : Scalar → Scalar → Prop) (f g : Finding) : Prop where
  path : f.path = g.path
  source : f.source = g.source
  value : ExamplesAlike D f.value g.value
  given : f.source ≠ none → f.value = g.value
  address : ∀ a, f.source = some a → ∃ above, a = above ++ [Scalar.str "example"]

mutual

/-- Two runs over a value of a schema find values for the same fields, in the same order, or one
of them is excused. There is one such lemma for each function of the walk, proved together. -/
theorem collect_coupled (hdraws : DrawsAgree σ τ E Q D now now') (path : Text)
    (address : List Scalar) : (v : Value) → Coupled E Q (List.Forall₂ (Finding.Alike D))
      (collect now path address v : Synth σ _) (collect now' path address v : Synth τ _)
  | .map entries => by
    rw [collect, collect]
    split
    · exact collectItems_coupled hdraws path address entries
    · exact collectProperties_coupled hdraws path address entries
    · rename_i type _
      split
      · rename_i v _
        -- An example that is given is the same in both runs, and has an address.
        refine .pure (.cons ⟨rfl, rfl, .same v, fun _ => rfl, ?_⟩ .nil)
        intro a ha
        cases ha
        exact ⟨address.reverse, List.reverse_cons⟩
      · refine (hdraws type none).bind fun v w hvw => ?_
        exact .pure (.cons ⟨rfl, rfl, hvw, by simp, by simp⟩ .nil)
    · exact collectFields_coupled hdraws path address entries
  | .scalar _ => .pure .nil
  | .list _ => .pure .nil
  | .pair _ _ => .pure .nil
  | .set _ => .pure .nil
  | .loop _ => .pure .nil

/-- The same of the fields of a mapping, one after the other. -/
theorem collectFields_coupled (hdraws : DrawsAgree σ τ E Q D now now') (path : Text)
    (address : List Scalar) : (es : List (Scalar × Value)) →
    Coupled E Q (List.Forall₂ (Finding.Alike D))
      (collectFields now path address es : Synth σ _)
      (collectFields now' path address es : Synth τ _)
  | [] => .pure .nil
  | (k, v) :: es => by
    rw [collectFields, collectFields]
    refine (Coupled.orThrow (.same k.display)).bind ?_
    rintro name _ rfl
    refine (collect_coupled hdraws (below path name) (k :: address) v).bind fun first _ hfirst => ?_
    refine (collectFields_coupled hdraws path address es).bind fun others _ hothers => ?_
    exact .pure (List.rel_append hfirst hothers)

/-- The same of the entry that holds the nested fields. Nothing is drawn for an object
without any. -/
theorem collectProperties_coupled (hdraws : DrawsAgree σ τ E Q D now now') (path : Text)
    (address : List Scalar) : (es : List (Scalar × Value)) →
    Coupled E Q (List.Forall₂ (Finding.Alike D))
      (collectProperties now path address es : Synth σ _)
      (collectProperties now' path address es : Synth τ _)
  | [] => .pure .nil
  | (k, v) :: es => by
    unfold collectProperties
    split
    · split
      · refine .pure ?_
        split
        · exact .nil
        · exact .cons ⟨rfl, rfl, .same _, fun _ => rfl, by simp⟩ .nil
      · exact collect_coupled hdraws path (k :: address) v
    · exact collectProperties_coupled hdraws path address es

/-- The same of the entry that describes the elements of a list. -/
theorem collectItems_coupled (hdraws : DrawsAgree σ τ E Q D now now') (path : Text)
    (address : List Scalar) : (es : List (Scalar × Value)) →
    Coupled E Q (List.Forall₂ (Finding.Alike D))
      (collectItems now path address es : Synth σ _) (collectItems now' path address es : Synth τ _)
  | [] => .pure .nil
  | (k, v) :: es => by
    unfold collectItems
    split
    · cases v with
      | map inner => exact collectElement_coupled hdraws path (k :: address) inner
      | _ => exact .pure .nil
    · exact collectItems_coupled hdraws path address es

/-- The same of the fields of an element. -/
theorem collectElement_coupled (hdraws : DrawsAgree σ τ E Q D now now') (path : Text)
    (address : List Scalar) : (es : List (Scalar × Value)) →
    Coupled E Q (List.Forall₂ (Finding.Alike D))
      (collectElement now path address es : Synth σ _)
      (collectElement now' path address es : Synth τ _)
  | [] => .pure .nil
  | (k, v) :: es => by
    unfold collectElement
    split
    · cases v with
      | map fields => exact collectFields_coupled hdraws (below path "0") (k :: address) fields
      | _ => exact .pure .nil
    · exact collectElement_coupled hdraws path address es

end

/-! ### The tree of what was found -/

variable {found found' : List Finding}

/-- The findings under their paths. Of several at one path the last counts, in both runs. -/
theorem byPath_matched (h : List.Forall₂ (Finding.Alike D) found found') :
    Entries.Matched (fun _ => Finding.Alike D) (byPath found) (byPath found') :=
  Entries.Matched.ofList (Entries.respects_const _)
    (List.rel_map (fun _ _ hfg => ⟨hfg.path, hfg⟩) h)

/-- The writes that put the tree together. -/
theorem writes_matched (h : List.Forall₂ (Finding.Alike D) found found') :
    Entries.Matched (fun _ => Alike D D .sample)
      ((byPath found).map fun e => (e.1, e.2.value))
      ((byPath found').map fun e => (e.1, e.2.value)) :=
  List.rel_map (fun _ _ hfg => ⟨hfg.1, hfg.2.value.alike⟩) (byPath_matched h)

/-- Findings that are alike are put together as trees that are alike, or fail at one and the
same path. -/
theorem agree_treeOf (h : List.Forall₂ (Finding.Alike D) found found') :
    Agree (Alike D D .sample) (treeOf found) (treeOf found') :=
  PathTree.agree_ofFlat (writes_matched h) separator

/-- Examples of a schema are alike. -/
theorem composite_coupled (hdraws : DrawsAgree σ τ E Q D now now') (schema : Value) :
    Coupled E Q (Alike D D .sample) (composite now schema : Synth σ Value)
      (composite now' schema : Synth τ Value) :=
  (collect_coupled hdraws [] [] schema).bind fun _ _ hfound => .orThrow (agree_treeOf hfound)

/-! ### The schema that is left -/

/-- A replacement below a key, if it is alike below that key. What is no mapping is left as it
is. -/
theorem replaceAt_cons_alike {new new' : Value} {key : Scalar} {rest : List Scalar} {p : Place}
    (hkey : ∀ (k : Scalar) (v w : Value), (k == key) = true → Alike D D (p.enter k) v w →
      Alike D D (p.enter k) (replaceAt new rest v) (replaceAt new' rest w)) {v w : Value}
    (h : Alike D D p v w) :
    Alike D D p (replaceAt new (key :: rest) v) (replaceAt new' (key :: rest) w) := by
  cases h with
  | map hentries =>
      refine Alike.map_iff.mpr (List.rel_map ?_ (Alike.alikeEntries_iff.mp hentries))
      rintro ⟨k, v⟩ ⟨l, w⟩ ⟨rfl, hvw⟩
      dsimp only
      split
      · rename_i hk
        exact ⟨rfl, hkey k v w hk hvw⟩
      · exact ⟨rfl, hvw⟩
  | scalar h => exact .scalar h
  | list h => exact .list h
  | pair => exact .pair _ _ _
  | set => exact .set _ _
  | loop => exact .loop _ _

/-- The examples that a schema gives, replaced by others that are alike. -/
theorem replaceAt_alike {new new' : Value} (hnew : Alike D D .sample new new')
    (above : List Scalar) {p : Place} (hp : p = .schema ∨ p = .given) {v w : Value}
    (h : Alike D D p v w) :
    Alike D D p (replaceAt new (above ++ [.str "example"]) v)
      (replaceAt new' (above ++ [.str "example"]) w) := by
  induction above generalizing p v w with
  | nil =>
      refine replaceAt_cons_alike (fun k v w hk _ => ?_) h
      -- Here the key is `example`, and what is below it is an example.
      have hplace : p.enter k = .given := by
        rw [(Scalar.beq_str_iff _ _).mp hk]
        obtain rfl | rfl := hp <;> rfl
      rw [hplace]
      exact hnew.given_of_sample
  | cons key above ih =>
      refine replaceAt_cons_alike (fun k v w _ hvw => ?_) h
      have hplace : p.enter k = .schema ∨ p.enter k = .given := by
        obtain rfl | rfl := hp
        · rw [Place.enter]
          split
          · exact .inr rfl
          · exact .inl rfl
        · exact .inr rfl
      exact ih hplace hvw

/-- Two writes with the places in a schema that they come from. -/
structure SourceAlike (D : Scalar → Scalar → Prop)
    (e f : Option (List Scalar) × List Text × Value) : Prop where
  source : e.1 = f.1
  write : e.2.1 = f.2.1 ∧ Alike D D .sample e.2.2 f.2.2
  address : ∀ a, e.1 = some a → ∃ above, a = above ++ [Scalar.str "example"]

/-- Writes that are alike, and come from the same places, leave schemas that are alike: what they
change stands under the key `example`. -/
theorem settleSources_alike {es fs : List (Option (List Scalar) × List Text × Value)}
    (h : List.Forall₂ (SourceAlike D) es fs) {v w : Value} (hvw : Alike D D .schema v w) :
    Alike D D .schema (settleSources es v) (settleSources fs w) := by
  induction h generalizing v w with
  | nil => exact hvw
  | @cons e f es fs hef hrest ih =>
      obtain ⟨source, place, a⟩ := e
      obtain ⟨source', place', b⟩ := f
      obtain ⟨rfl, ⟨rfl, hab⟩, haddress⟩ := hef
      have hlater : Entries.Matched (fun _ => Alike D D .sample) (es.map (·.2)) (fs.map (·.2)) :=
        List.rel_map (fun _ _ hef => hef.write) hrest
      show Alike D D .schema (settleSources es _) (settleSources fs _)
      -- Only a value that the schema gives is put back into it.
      cases source with
      | none => exact ih hvw
      | some address =>
          obtain ⟨above, rfl⟩ := haddress address rfl
          exact ih (replaceAt_alike (PathTree.settle_alike hlater place hab) above (.inl rfl) hvw)

/-- Two lists of findings with the places of their writes. -/
theorem zip_sourceAlike {es fs : List (Text × Finding)} {ws us : List (List Text × Value)}
    (h : Entries.Matched (fun _ => Finding.Alike D) es fs)
    (hw : Entries.Matched (fun _ => Alike D D .sample) ws us) :
    List.Forall₂ (SourceAlike D) ((es.map (·.2.source)).zip ws)
      ((fs.map (·.2.source)).zip us) := by
  induction h generalizing ws us with
  | nil => exact .nil
  | cons hef _ ih =>
      cases hw with
      | nil => exact .nil
      | cons hwu hw => exact .cons ⟨hef.2.source, hwu, hef.2.address⟩ (ih hw)

/-- The schemas that the findings leave are alike, or the places of the writes cannot be found
for either. -/
theorem agree_schemaAfter (h : List.Forall₂ (Finding.Alike D) found found') (schema : Value) :
    Agree (Alike D D .schema) (schemaAfter found schema) (schemaAfter found' schema) := by
  have hwrites := writes_matched h
  rw [schemaAfter, schemaAfter, ← PathTree.root_congr hwrites]
  cases hroot : PathTree.root separator ((byPath found).map fun e => (e.1, e.2.value)) with
  | error f => exact .error f
  | ok tree =>
      refine (PathTree.agree_placements hwrites (.refl .sample tree)
        (PathTree.isTree_root hroot) separator).bind fun placed placed' hplaced => ?_
      exact .ok (settleSources_alike (zip_sourceAlike (byPath_matched h) hplaced)
        (.refl .schema schema))

/-! ### Whole schemas -/

/-- Two nested schemas, if there are any, that differ in examples only. -/
abbrev PropertiesAlike (D : Scalar → Scalar → Prop) :
    Option (List (Scalar × Value)) → Option (List (Scalar × Value)) → Prop :=
  Option.Rel (Entries.Matched (Alike.Under D D .schema))

/-- A nested schema differs from itself nowhere. -/
theorem PropertiesAlike.refl (properties : Option (List (Scalar × Value))) :
    PropertiesAlike D properties properties := by
  cases properties with
  | none => exact .none
  | some es => exact .some (Alike.matched_refl .schema es)

/-- Two examples, and the nested schemas that they leave. -/
def ValueAlike (D : Scalar → Scalar → Prop)
    (S : Option (List (Scalar × Value)) → Option (List (Scalar × Value)) → Prop)
    (a b : Value × Option (List (Scalar × Value))) : Prop :=
  Alike D D .sample a.1 b.1 ∧ S a.2 b.2

/-- Two examples of a nested schema, and what they leave of it. -/
def SampleAlike (D : Scalar → Scalar → Prop)
    (S : Option (List (Scalar × Value)) → Option (List (Scalar × Value)) → Prop)
    (a b : Value × List (Scalar × Value)) : Prop :=
  Alike D D .sample a.1 b.1 ∧ S (some a.2) (some b.2)

/-- Two runs over a nested schema agree in the example, and leave schemas that `S` relates. -/
def BlockAgrees (σ τ : Type) [RandomSource σ] [RandomSource τ] (E : Excuse) (Q : σ → τ → Prop)
    (D : Scalar → Scalar → Prop)
    (S : Option (List (Scalar × Value)) → Option (List (Scalar × Value)) → Prop)
    (now now' : Moment) (entries : List (Scalar × Value)) : Prop :=
  Coupled E Q (SampleAlike D S) (compositeOfEntries now entries : Synth σ _)
    (compositeOfEntries now' entries : Synth τ _)

/-- Any two runs over a nested schema agree, but for the examples that it gives. -/
theorem compositeOfEntries_coupled (hdraws : DrawsAgree σ τ E Q D now now')
    (entries : List (Scalar × Value)) :
    BlockAgrees σ τ E Q D (PropertiesAlike D) now now' entries := by
  have hboth : Coupled E Q
      (fun a b => Alike D D .sample a.1 b.1 ∧ Alike D D .schema a.2 b.2)
      (compositeWithSchema now (.map entries) : Synth σ _)
      (compositeWithSchema now' (.map entries) : Synth τ _) := by
    refine (collect_coupled hdraws [] [] (.map entries)).bind fun found found' hfound => ?_
    refine (Coupled.orThrow (agree_treeOf hfound)).bind fun tree tree' htree => ?_
    refine (Coupled.orThrow (agree_schemaAfter hfound _)).bind fun schema schema' hschema => ?_
    exact .pure ⟨htree, hschema⟩
  refine hboth.bind ?_
  rintro ⟨v, schema⟩ ⟨w, schema'⟩ ⟨hvw, hschema⟩
  -- What is left of a mapping is a mapping, but the program does not rely on it.
  cases hschema with
  | map h => exact .pure ⟨hvw, .some (Alike.alikeEntries_iff.mp h)⟩
  | _ => exact .pure ⟨hvw, .refl (some entries)⟩

/-- The example of a parameter, if `S` relates the nested schemas that its block leaves. -/
theorem valueFor_coupled (hdraws : DrawsAgree σ τ E Q D now now')
    {S : Option (List (Scalar × Value)) → Option (List (Scalar × Value)) → Prop}
    (hS : ∀ o, S o o) (type : Text) (properties : Option (List (Scalar × Value)))
    (hblock : ∀ es, properties = some es → BlockAgrees σ τ E Q D S now now' es) :
    Coupled E Q (ValueAlike D S) (valueFor now type properties : Synth σ _)
      (valueFor now' type properties : Synth τ _) := by
  have hplain : ∀ schema, Coupled E Q (ValueAlike D S)
      (do return (← synthesize now type schema, properties) : Synth σ _)
      (do return (← synthesize now' type schema, properties) : Synth τ _) := by
    intro schema
    refine (hdraws type schema).bind fun v w hvw => ?_
    exact .pure ⟨hvw.alike, hS properties⟩
  unfold valueFor
  split
  · rename_i e es
    split
    · exact hplain _
    · split
      · refine (hblock (e :: es) rfl).bind fun a b hab => ?_
        exact .pure ⟨hab.1, hab.2⟩
      · refine (hblock (e :: es) rfl).bind ?_
        rintro ⟨v, entries⟩ ⟨w, entries'⟩ ⟨hvw, hentries⟩
        have hone : Alike D D .sample (.list [v]) (.list [w]) :=
          Alike.list_iff.mpr (.cons hvw .nil)
        -- Both examples are lists, or neither is and both are wrapped.
        cases hvw with
        | list h => exact .pure ⟨.list h, hentries⟩
        | _ => exact .pure ⟨hone, hentries⟩
      · exact hplain _
  · exact hplain _

end Synthesis

end RouteDocs
