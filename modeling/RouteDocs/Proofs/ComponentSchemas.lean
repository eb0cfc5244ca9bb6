import Mathlib.Data.List.Perm.Subperm
import RouteDocs.Proofs.DocumentPaths

/-!
# `RouteDocs.Proofs.ComponentSchemas`: the schemas that endpoints contribute

The endpoints of the groups that the settings name have their body parameters shown as
component schemas. A schema stands under the title of its endpoint, and a title is the name of
a method of some handler, so two endpoints may well have the same one. Then the later schema
takes the place of the earlier.

`assemble_schemas` says what the document has: the titles of these endpoints, in the order of
the groups in the settings, and under each the schema of the last endpoint with that title.
Every schema shows the body parameters of its endpoint (`ShowsBody`). So there is one schema
for each endpoint, and no other, exactly when no two of the endpoints have the same title.
-/

set_option autoImplicit false

namespace RouteDocs.Document

open Text

variable {settings : Settings} {plan : CodeSample.Plan} {es : List Endpoint}

/-- The endpoints that have component schemas. -/
def bearers (settings : Settings) (es : List Endpoint) : List Endpoint :=
  es.filter (·.group ∈ settings.schemaGroups)

/-- The endpoints that have component schemas, group by group as the settings name them. -/
def bearersInOrder (settings : Settings) (es : List Endpoint) : List Endpoint :=
  settings.schemaGroups.flatMap fun g => es.filter (·.group = g)

/-- What is found has an entry for each parameter, in order and under its name, and a value that
fits the parameter. Where there are no parameters nothing is found. -/
def ListsEach (fits : Parameter → Value → Prop) (ps : List (Text × Parameter))
    (found : Option Value) : Prop :=
  if ps = [] then found = none
  else ∃ entries, found = some (.map entries) ∧
    List.Forall₂ (fun p e => e.1 = .str p.1 ∧ fits p.2 e.2) ps entries

/-- A component schema shows the body parameters of an endpoint. -/
structure ShowsBody (e : Endpoint) (schema : Value) : Prop where
  /-- Each parameter has its schema. -/
  properties : ListsEach (fun p v => v = .map (propertySchema p)) e.bodyParameters
    (schema.get? "properties")
  /-- The names of the parameters that have to be given are listed in order, if there are any. -/
  required : schema.get? "required" =
    match e.bodyParameters.filter (·.2.required) with
    | [] => none
    | ps => some (.list (ps.map fun p => .str p.1))
  /-- Each parameter has its value. -/
  sample : ListsEach (fun p v => v = p.value) e.bodyParameters (schema.get? "example")

/-- The document of the endpoints has the component schemas. -/
def HasSchemas (settings : Settings) (plan : CodeSample.Plan) (es : List Endpoint)
    (schemas : List (Text × Value)) : Prop :=
  ∃ doc components, assemble settings plan es [] = .ok doc ∧
    doc.get? "components" = some components ∧
    components.get? "schemas" = some (.ofFields schemas)

/-- Under each title of the endpoints that have schemas stands the schema of the last of them
with that title. -/
structure ShowsTitles (settings : Settings) (es : List Endpoint) (schemas : List (Text × Value)) :
    Prop where
  /-- The titles are those of the endpoints that have schemas. -/
  titles : schemas.map Prod.fst = ((bearersInOrder settings es).map (·.title)).eraseDups
  /-- Under each of them stands the last schema that was written there. -/
  last : ∀ schema ∈ schemas, ∃ e ∈ bearers settings es,
    ((bearersInOrder settings es).filter (·.title = schema.1)).getLast? = some e ∧
      ShowsBody e schema.2

/-- There is one schema for each endpoint, and no other: the endpoints can be paired off with the
schemas so that each schema shows the body of its endpoint. -/
def OneForEach (es : List Endpoint) (schemas : List (Text × Value)) : Prop :=
  ∃ paired, List.Forall₂ (fun e schema => ShowsBody e schema.2) es paired ∧ paired.Perm schemas

/-! ### The schema of an endpoint -/

/-- A mapping that is made of parameters has an entry for each of them. -/
theorem listsEach_ofFields (ps : List (Text × Parameter)) (f : Parameter → Value) :
    ListsEach (fun p v => v = f p) ps
      (if ps.isEmpty then none else some (.ofFields (ps.map fun p => (p.1, f p.2)))) := by
  rw [ListsEach]
  cases ps with
  | nil => rfl
  | cons p ps =>
      rw [if_neg (List.cons_ne_nil p ps)]
      refine ⟨_, rfl, ?_⟩
      rw [List.map_map, List.forall₂_map_right_iff, List.forall₂_same]
      exact fun _ _ => ⟨rfl, rfl⟩

/-- The parts of a component schema. -/
theorem get?_componentSchema (e : Endpoint) :
    (componentSchema e).get? "properties" = (if e.bodyParameters.isEmpty then none
      else some (propertySchemas e.bodyParameters)) ∧
    (componentSchema e).get? "required" =
      (requiredField e.bodyParameters).head?.map Prod.snd ∧
    (componentSchema e).get? "example" = (if e.bodyParameters.isEmpty then none
      else some (.ofFields (e.bodyParameters.map fun p => (p.1, p.2.value)))) := by
  rw [componentSchema, requiredField]
  -- The list of required names comes before the parts that are looked up.
  split <;> cases e.bodyParameters.isEmpty <;>
    simp [Value.get?, Value.object, Entries.get?, ofString]

/-- The schema of an endpoint shows its body parameters: their schemas, which are required, and
their examples. -/
theorem showsBody_componentSchema (e : Endpoint) : ShowsBody e (componentSchema e) := by
  obtain ⟨hproperties, hrequired, hsample⟩ := get?_componentSchema e
  constructor
  case properties =>
    rw [hproperties]
    exact listsEach_ofFields e.bodyParameters fun p => .map (propertySchema p)
  case required =>
    rw [hrequired, requiredField]
    cases e.bodyParameters.filter (·.2.required) <;> rfl
  case sample =>
    rw [hsample]
    exact listsEach_ofFields e.bodyParameters Parameter.value

/-! ### The schemas of the document -/

/-- The endpoints of a group. -/
theorem getD_get?_groupEndpoints (es : List Endpoint) (g : Text) :
    (Entries.get? g (groupEndpoints es)).getD [] = es.filter (·.group = g) := by
  have hkeys : ((groupEndpoints es).map Prod.fst) = (es.map (·.group)).eraseDups := by
    rw [groupEndpoints_eq, List.map_map]
    exact List.map_id _
  cases hget : Entries.get? g (groupEndpoints es) with
  -- A group that has no entry is the group of no endpoint.
  | none =>
      rw [Entries.get?_eq_none_iff, hkeys, List.mem_eraseDups, List.mem_map] at hget
      symm
      simpa using fun e he heq => hget ⟨e, he, heq⟩
  | some listed =>
      have hmem : (g, listed) ∈ groupEndpoints es :=
        (Entries.mem_iff_get?_eq_some (hkeys ▸ Entries.nodup_eraseDups _) g listed).mpr hget
      rw [groupEndpoints_eq] at hmem
      obtain ⟨g', -, heq⟩ := List.mem_map.mp hmem
      obtain ⟨rfl, rfl⟩ := Prod.mk.inj heq
      rfl

/-- The schemas of the endpoints that have them, one written after the other. -/
def schemaItems (settings : Settings) (es : List Endpoint) : List (Text × Value) :=
  Entries.ofList ((bearersInOrder settings es).map fun e => (e.title, componentSchema e))

/-- The document of the endpoints has these schemas. -/
theorem hasSchemas_schemaItems (h : Renders plan es) :
    HasSchemas settings plan es (schemaItems settings es) := by
  have hschemas : componentSchemas settings (groupEndpoints es)
      = .ofFields (schemaItems settings es) := by
    simp only [componentSchemas, getD_get?_groupEndpoints]
    rfl
  obtain ⟨items, hitems⟩ : ∃ items, paths settings plan (groupEndpoints es) = .ok items :=
    ⟨_, paths_eq_ok h⟩
  rw [HasSchemas, assemble, hitems, ← hschemas]
  refine ⟨_, _, rfl, rfl, ?_⟩
  simp [Value.get?, Value.object, Entries.get?, ofString]

/-- The endpoints that bring schemas, in the order of the groups, are those that bring schemas. -/
theorem mem_bearersInOrder {e : Endpoint} :
    e ∈ bearersInOrder settings es ↔ e ∈ bearers settings es := by
  simp only [bearersInOrder, bearers, List.mem_flatMap, List.mem_filter, decide_eq_true_eq]
  constructor
  · rintro ⟨g, hg, he, rfl⟩
    exact ⟨he, hg⟩
  · rintro ⟨he, hg⟩
    exact ⟨e.group, hg, he, rfl⟩

/-- What stands under a title is the schema of the last endpoint with that title. -/
theorem exists_of_mem_schemaItems {title : Text} {schema : Value}
    (h : (title, schema) ∈ schemaItems settings es) :
    ∃ e ∈ bearers settings es, e.title = title ∧ schema = componentSchema e ∧
      ((bearersInOrder settings es).filter (·.title = title)).getLast? = some e := by
  rw [schemaItems, Entries.mem_ofList_iff, Entries.get?_ofList, List.filter_map,
    List.getLast?_map, Option.map_map, Option.map_eq_some_iff] at h
  obtain ⟨e, hlast, rfl⟩ := h
  simp only [beq_eq_decide, Function.comp_def] at hlast
  obtain ⟨he, htitle⟩ := List.mem_filter.mp (List.mem_of_getLast? hlast)
  exact ⟨e, mem_bearersInOrder.mp he, of_decide_eq_true htitle, rfl, hlast⟩

/-- The schemas stand under the titles of the endpoints that bring them, in the order in which
these first appear, and of several with one title the last counts. -/
theorem showsTitles_schemaItems (settings : Settings) (es : List Endpoint) :
    ShowsTitles settings es (schemaItems settings es) := by
  constructor
  case titles => rw [schemaItems, Entries.keys_ofList, List.map_map]; rfl
  case last =>
    rintro ⟨title, schema⟩ hmem
    obtain ⟨e, he, -, rfl, hlast⟩ := exists_of_mem_schemaItems hmem
    exact ⟨e, he, hlast, showsBody_componentSchema e⟩

/-! ### One schema for each endpoint -/

/-- No title stands twice. -/
theorem nodup_keys_schemaItems (settings : Settings) (es : List Endpoint) :
    ((schemaItems settings es).map Prod.fst).Nodup := by
  rw [(showsTitles_schemaItems settings es).titles]
  exact Entries.nodup_eraseDups _

/-- The titles of the schemas are those of the endpoints that have schemas. -/
theorem mem_titles_schemaItems {title : Text} :
    title ∈ (schemaItems settings es).map Prod.fst
      ↔ title ∈ (bearers settings es).map (·.title) := by
  rw [(showsTitles_schemaItems settings es).titles, List.mem_eraseDups]
  simp only [List.mem_map, mem_bearersInOrder]

/-- Endpoints can be paired off with schemas only if there are as many titles as endpoints. -/
theorem nodup_titles_of_oneForEach
    (h : OneForEach (bearers settings es) (schemaItems settings es)) :
    ((bearers settings es).map (·.title)).Nodup := by
  obtain ⟨paired, hpaired, hperm⟩ := h
  have hlength : (bearers settings es).length = (schemaItems settings es).length :=
    hpaired.length_eq.trans hperm.length_eq
  have hsub : ((schemaItems settings es).map Prod.fst).Subperm
      ((bearers settings es).map (·.title)) :=
    List.subperm_of_subset (nodup_keys_schemaItems settings es) fun _ => mem_titles_schemaItems.mp
  have htitles := hsub.perm_of_length_le (by simp [hlength])
  exact htitles.nodup_iff.mp (nodup_keys_schemaItems settings es)

/-- Endpoints with distinct titles do not write over each other's schemas. -/
theorem oneForEach_of_nodup_titles (h : ((bearers settings es).map (·.title)).Nodup) :
    OneForEach (bearers settings es) (schemaItems settings es) := by
  refine ⟨(bearers settings es).map fun e => (e.title, componentSchema e), ?_, ?_⟩
  · rw [List.forall₂_map_right_iff, List.forall₂_same]
    exact fun e _ => showsBody_componentSchema e
  · have hkeys : (((bearers settings es).map fun e => (e.title, componentSchema e)).map
        Prod.fst).Nodup := by
      rwa [List.map_map]
    rw [List.perm_ext_iff_of_nodup hkeys.of_map (nodup_keys_schemaItems settings es).of_map]
    rintro ⟨title, schema⟩
    constructor
    · intro hmem
      obtain ⟨e, he, heq⟩ := List.mem_map.mp hmem
      obtain ⟨rfl, rfl⟩ := Prod.mk.inj heq
      obtain ⟨⟨title, schema⟩, hschema, htitle⟩ :=
        List.mem_map.mp (mem_titles_schemaItems.mpr (List.mem_map_of_mem he))
      obtain ⟨last, hlast, rfl, rfl, -⟩ := exists_of_mem_schemaItems hschema
      -- The last endpoint with the title is the only one.
      obtain rfl := List.inj_on_of_nodup_map h hlast he htitle
      exact hschema
    · intro hmem
      obtain ⟨e, he, rfl, rfl, -⟩ := exists_of_mem_schemaItems hmem
      exact List.mem_map_of_mem he

/-- In a document without a base, the component schemas stand under the titles of the endpoints
of the groups that the settings name, and each shows the body of the last endpoint with its
title. There is one for each of the endpoints exactly if no two of these share a title. -/
theorem assemble_schemas (settings : Settings) (plan : CodeSample.Plan) (es : List Endpoint)
    (hplan : Renders plan es) :
    ∃ schemas, HasSchemas settings plan es schemas ∧ ShowsTitles settings es schemas ∧
      (OneForEach (bearers settings es) schemas
        ↔ ((bearers settings es).map (·.title)).Nodup) :=
  ⟨schemaItems settings es, hasSchemas_schemaItems hplan, showsTitles_schemaItems settings es,
    nodup_titles_of_oneForEach, oneForEach_of_nodup_titles⟩

/-- An endpoint that takes one body parameter. -/
def storeEndpoint (group title : Text) (p : Parameter) : Endpoint :=
  { bareEndpoint group title group ["POST"] with bodyParameters := [(p.name, p)] }

/-- Endpoints of three handlers. All three have a method `store`, and one has a method `pay`. -/
def storeEndpoints : List Endpoint :=
  [storeEndpoint "orders" "store" { name := "amount", required := true, value := .int 9 },
   storeEndpoint "users" "store" { name := "name", value := .str "Ann" },
   storeEndpoint "orders" "pay" { name := "card", required := true, value := .str "4242" },
   storeEndpoint "carts" "store" { name := "size", type := "integer", value := .int 3 }]

/-- A plan without samples has them all. -/
theorem renders_empty (es : List Endpoint) : Renders .empty es :=
  fun _ _ _ => ⟨.list [], rfl⟩

/-- In one group there are two methods, and each has its schema. -/
theorem assemble_schemas_storeEndpoints :
    Renders .empty storeEndpoints ∧
      ((bearers { schemaGroups := ["orders"] } storeEndpoints).map (·.title)).Nodup ∧
      ∃ schemas, HasSchemas { schemaGroups := ["orders"] } .empty storeEndpoints schemas ∧
        ShowsTitles { schemaGroups := ["orders"] } storeEndpoints schemas ∧
        (OneForEach (bearers { schemaGroups := ["orders"] } storeEndpoints) schemas
          ↔ ((bearers { schemaGroups := ["orders"] } storeEndpoints).map (·.title)).Nodup) := by
  have hplan := renders_empty storeEndpoints
  exact ⟨hplan, by decide,
    assemble_schemas { schemaGroups := ["orders"] } .empty storeEndpoints hplan⟩

/-- With a second group there are three endpoints and two schemas: the order's is lost. -/
theorem not_oneForEach_storeEndpoints :
    ∃ schemas,
      HasSchemas { schemaGroups := ["orders", "users"] } .empty storeEndpoints schemas ∧
        (bearers { schemaGroups := ["orders", "users"] } storeEndpoints).length = 3 ∧
        schemas.map Prod.fst = ["store", "pay"] ∧
        ¬ OneForEach (bearers { schemaGroups := ["orders", "users"] } storeEndpoints) schemas := by
  refine ⟨_, hasSchemas_schemaItems (renders_empty storeEndpoints), by decide, by decide, ?_⟩
  intro h
  exact absurd (nodup_titles_of_oneForEach h) (by decide)

end RouteDocs.Document
