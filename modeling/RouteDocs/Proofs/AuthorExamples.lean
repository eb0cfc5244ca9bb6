import RouteDocs.Proofs.PathReads
import RouteDocs.Proofs.PinnedDraws
import RouteDocs.Proofs.SchemaDraws

/-!
# `RouteDocs.Proofs.AuthorExamples`: fields whose example the author gives

The example of a nested schema is a tree with the value of one field at the path of each. Some
of these values are made up, and some are given by the author. What is given is not to depend
on what is drawn, and this module says what that means for a tree that was put together.

`Visits` tells which fields a walk of the schema comes to, where each of them is found, and
which example it gives. Whether that example ends up in the tree is a matter of the other
fields, as a field with a dotted name may be written into it. So two trees are compared by
reading them at the path of the field, with `PathTree.readAt`, and `SameAtGiven` holds of them
if they have the same there, for every field that gives an example.

`sameAtGiven_of_trials` is the main result: if the trials of a schema have the same at these
fields, then all its examples have.
-/

set_option autoImplicit false

namespace RouteDocs

open Text Synthesis

namespace Synthesis

/-! ### The fields of a schema -/

/-- A field that a walk of a schema comes to. -/
structure Field where
  /-- Its path in the tree of values. -/
  path : Text
  /-- The keys that lead to it in the schema. -/
  address : List Scalar
  /-- The example that it gives. -/
  given : Option Value

/-- Where the tree has the value of a field. -/
def Field.keys (f : Field) : List Text := keysOf f.path

/-- The fields that a walk from a node of a schema comes to, with their paths from there. The
address of the node has its last key first. -/
inductive Visits : Text → List Scalar → Value → Field → Prop where
  /-- A node with a type is a field. -/
  | field {path : Text} {address : List Scalar} {entries : List (Scalar × Value)} {type : Text}
      (hshape : shape entries = .field type) :
      Visits path address (.map entries)
        ⟨path, address.reverse, Entries.get? (.str "example") entries⟩
  /-- The fields of a node that has them by name. -/
  | fields {path name : Text} {address : List Scalar} {entries : List (Scalar × Value)}
      {k : Scalar} {v : Value} {f : Field} (hshape : shape entries = .fields)
      (hmem : (k, v) ∈ entries) (hname : k.display = .ok name)
      (h : Visits (below path name) (k :: address) v f) : Visits path address (.map entries) f
  /-- The fields of an object. -/
  | object {path : Text} {address : List Scalar} {entries es : List (Scalar × Value)} {f : Field}
      (hshape : shape entries = .object) (hproperties : mapUnder? "properties" entries = some es)
      (h : Visits path (.str "properties" :: address) (.map es) f) :
      Visits path address (.map entries) f
  /-- The fields of the first element of a list. -/
  | elements {path name : Text} {address : List Scalar} {entries items es : List (Scalar × Value)}
      {k : Scalar} {v : Value} {f : Field} (hshape : shape entries = .listOfObjects)
      (hitems : mapUnder? "items" entries = some items)
      (hproperties : mapUnder? "properties" items = some es) (hmem : (k, v) ∈ es)
      (hname : k.display = .ok name)
      (h : Visits (below (below path "0") name)
        (k :: .str "properties" :: .str "items" :: address) v f) :
      Visits path address (.map entries) f

/-! ### What is given -/

/-- An example of a nested schema, from some state of a source. -/
def ComposedBy (σ : Type) [RandomSource σ] (now : Moment) (es : List (Scalar × Value)) (v : Value) :
    Prop :=
  ∃ (s : σ) (left : List (Scalar × Value)), (compositeOfEntries now es).outcome s = .ok (v, left)

/-- Two examples of a nested schema have the same at every field whose example is given. -/
def SameAtGiven (es : List (Scalar × Value)) (v w : Value) : Prop :=
  ∀ f x, Visits [] [] (.map es) f → f.given = some x →
    PathTree.readAt v f.keys = PathTree.readAt w f.keys

/-- What is given is the same, the other way round. -/
theorem SameAtGiven.symm {es : List (Scalar × Value)} {v w : Value} (h : SameAtGiven es v w) :
    SameAtGiven es w v :=
  fun f x hf hx => (h f x hf hx).symm

/-- What is given is the same in a third example. -/
theorem SameAtGiven.trans {es : List (Scalar × Value)} {u v w : Value} (h : SameAtGiven es u v)
    (h' : SameAtGiven es v w) : SameAtGiven es u w :=
  fun f x hf hx => (h f x hf hx).trans (h' f x hf hx)

section
variable {σ τ : Type} [RandomSource σ] [RandomSource τ] {now : Moment}
  {es : List (Scalar × Value)} {v w : Value}

/-- Examples of a nested schema, and what they leave of it, follow what is drawn. -/
theorem compositeOfEntries_followsDraws (now : Moment) (es : List (Scalar × Value)) :
    FollowsDraws now (fun _ => compositeOfEntries now es)
      fun σ τ => SampleAlike (Drawn σ τ now now) (PropertiesAlike (Drawn σ τ now now)) :=
  fun _ _ _ _ _ hdraws => compositeOfEntries_coupled hdraws es

/-- Any two examples of a nested schema are alike. -/
theorem ComposedBy.alike (hv : ComposedBy σ now es v) (hw : ComposedBy τ now es w) :
    Alike (Drawn σ τ now now) (Drawn σ τ now now) .sample v w := by
  obtain ⟨s, left, hs⟩ := hv
  obtain ⟨t, left', ht⟩ := hw
  exact ((compositeOfEntries_followsDraws now es).related hs ht).1

/-- A trial has one example only, as its source has one state. -/
theorem ComposedBy.eq_of_pinned {m : Nat} (hv : ComposedBy (Pinned m) now es v)
    (hw : ComposedBy (Pinned m) now es w) : v = w := by
  obtain ⟨_, left, hv⟩ := hv
  obtain ⟨_, left', hw⟩ := hw
  exact congrArg Prod.fst (Except.ok.inj (hv.symm.trans hw))

/-- A value that is alike to every trial's, where the trials have one value, is that value. -/
theorem eq_of_forall_alike_pinned {p : Place} (hp : p = .sample ∨ p = .schema ∨ p = .given)
    (h : ∀ m, Alike (Drawn σ (Pinned m) now now) (Drawn σ (Pinned m) now now) p v w) : v = w :=
  Alike.eq_of_forall (fun _ _ => eq_of_forall_pinned) (fun _ _ => eq_of_forall_pinned) hp h

/-- If all trials have the same where examples are given, an example from any state has it, too. -/
theorem sameAtGiven_trial {trial : Nat → Value}
    (htrial : ∀ m, ComposedBy (Pinned m) now es (trial m))
    (hsame : ∀ m n, SameAtGiven es (trial m) (trial n)) (hv : ComposedBy σ now es v) :
    SameAtGiven es v (trial 0) := by
  intro f x hf hx
  -- At the path the example is alike to what every trial has there, and this is one value.
  have hread : ∀ m, Option.Rel (Alike (Drawn σ (Pinned m) now now) (Drawn σ (Pinned m) now now)
      .sample) (PathTree.readAt v f.keys) (PathTree.readAt (trial 0) f.keys) := by
    intro m
    rw [hsame 0 m f x hf hx]
    exact PathTree.readAt_alike (hv.alike (htrial m)) f.keys
  have heq : Option.Rel (fun a b => a = b) (PathTree.readAt v f.keys)
      (PathTree.readAt (trial 0) f.keys) :=
    Entries.optionRel_of_forall (fun _ _ => eq_of_forall_alike_pinned (.inl rfl)) hread
  generalize PathTree.readAt v f.keys = a, PathTree.readAt (trial 0) f.keys = b at heq
  cases heq with
  | none => rfl
  | some h => rw [h]

/-- If all trials have the same where examples are given, any two examples have. -/
theorem sameAtGiven_of_trials {trial : Nat → Value}
    (htrial : ∀ m, ComposedBy (Pinned m) now es (trial m))
    (hsame : ∀ m n, SameAtGiven es (trial m) (trial n)) (hv : ComposedBy σ now es v)
    (hw : ComposedBy τ now es w) : SameAtGiven es v w :=
  (sameAtGiven_trial htrial hsame hv).trans (sameAtGiven_trial htrial hsame hw).symm

end

end Synthesis

end RouteDocs
