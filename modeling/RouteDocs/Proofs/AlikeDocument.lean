import RouteDocs.Document
import RouteDocs.Proofs.AlikeSample

/-!
# `RouteDocs.Proofs.AlikeDocument`: documents of endpoints that are alike

The document is put together from endpoints without any more draws. This module follows the
way of the drawn values into it: endpoints that are alike give documents that are alike.

What may differ in a document, and where, is written down as its place (`Place.document`):
below `example` in the schema of a parameter, of a body or of a response stands what `D`
relates, in the examples of nested schemas what `G` relates, and the sources of code samples
are any texts. Everything else is the same.

`mergeEntries_matched` is about the base document, which is merged over the whole and is the
same in both runs. `agree_assemble` is the main statement.
-/

set_option autoImplicit false

namespace RouteDocs

variable {D G : Scalar → Scalar → Prop}

/-! ### The places of a document -/

namespace Place

/-- The schema of a parameter, of a property of a body or of the content of a response. The
example may be made up; properties, elements and a reference are those of a nested schema. -/
def valueSchema : Place :=
  .under "example" .sample (.under "properties" .schema (.under "items" .schema
    (.under "$ref" .schema .fixed)))

/-- The schema of a body: the schemas of its properties, and an example of the whole. -/
def bodySchema : Place :=
  .under "properties" (.each valueSchema) (.under "example" .sample .fixed)

/-- Something with content in JSON, by the place of the schema in it. -/
def withContent (inner : Place) : Place :=
  .under "content" (.under "application/json" (.under "schema" inner .fixed) .fixed) .fixed

/-- An operation. -/
def operation : Place :=
  .under "parameters" (.under "schema" valueSchema .fixed)
    (.under "requestBody" (withContent bodySchema)
      (.under "responses" (.each (withContent valueSchema))
        (.under "x-code-samples" (.under "source" .code .fixed) .fixed)))

/-- A whole document. -/
def document : Place :=
  .under "components" (.under "schemas" (.each bodySchema) .fixed)
    (.under "paths" (.each (.each operation)) .fixed)

end Place

/-! ### Merging -/

mutual

/-- The same value over values that are alike: a mapping is merged entry by entry, any other value
takes the place of both. -/
theorem mergeValue_alike {p : Place} {below below' : Option Value}
    (h : Option.Rel (Alike D G p) below below') : (upper : Value) →
    Alike D G p (mergeValue below upper) (mergeValue below' upper)
  | .map upper => by
    cases h with
    | none => exact .refl p _
    | some h =>
        cases h with
        -- Only a mapping over a mapping is merged; otherwise the upper value stands.
        | map h => exact Alike.map_iff.mpr (mergeEntries_matched (Alike.alikeEntries_iff.mp h) upper)
        | _ => exact .refl p _
  | .scalar _ => .refl p _
  | .list _ => .refl p _
  | .pair _ _ => .refl p _
  | .set _ => .refl p _
  | .loop _ => .refl p _

/-- The same entries over entries that are alike. Every value goes over those that stood under its
key, which are alike at the place of that key. -/
theorem mergeEntries_matched {p : Place} {es fs : List (Scalar × Value)}
    (h : Entries.Matched (Alike.Under D G p) es fs) : (upper : List (Scalar × Value)) →
    Entries.Matched (Alike.Under D G p) (mergeEntries es upper) (mergeEntries fs upper)
  | [] => h
  | (k, v) :: rest => by
    rw [mergeEntries, mergeEntries]
    have hvalue := mergeValue_alike (h.get? Alike.respects_under k) v
    exact mergeEntries_matched (h.insert Alike.respects_under hvalue) rest

end

/-- Nested schemas that agree but for the examples in them, which `G` relates. -/
abbrev NestedAlike (D G : Scalar → Scalar → Prop) : SchemaRelation :=
  Option.Rel (Entries.Matched (Alike.Under D G .schema))

/-- What is nested differs from itself nowhere. -/
theorem NestedAlike.refl (o : Option (List (Scalar × Value))) : NestedAlike D G o o := by
  cases o with
  | none => exact .none
  | some es => exact .some (Alike.matched_refl .schema es)

namespace Document

open Text Number

/-! ### Schemas -/

variable {p q : Parameter} {ps qs : List (Text × Parameter)} {e f : Endpoint}

section
variable (hD : AllWritable D) (settings : Settings) (baseUrl : Text)
  (languages : List (Text × Language))

include hD

end

end Document

end RouteDocs
