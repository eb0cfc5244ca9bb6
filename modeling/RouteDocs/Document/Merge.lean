import RouteDocs.Value.Basic

/-!
# `RouteDocs.Document.Merge`: one document over another

The author's base document is merged over the generated one. Where both have a mapping the
two are merged key by key; anything else, lists included, replaces what was there. Keys
keep their places, and new keys follow in the order of the document on top.
-/

set_option autoImplicit false

namespace RouteDocs

mutual

/-- The value of a key that has `below` in the base: two mappings are merged, and of anything
else the upper value stays. -/
def mergeValue (below : Option Value) : (upper : Value) → Value
  | .map upper =>
    match below with
    | some (.map base) => .map (mergeEntries base upper)
    | _ => .map upper
  | upper => upper

/-- Merges the entries of `upper` into those of `base`. -/
def mergeEntries (base : List (Scalar × Value)) :
    (upper : List (Scalar × Value)) → List (Scalar × Value)
  | [] => base
  | (k, v) :: rest =>
    mergeEntries (Entries.insert k (mergeValue (Entries.get? k base) v) base) rest

end

end RouteDocs
