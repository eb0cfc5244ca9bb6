import Mathlib.Data.List.Nodup
import Mathlib.Data.List.Pairwise
import RouteDocs.Document
import RouteDocs.Proofs.Coupling
import RouteDocs.Proofs.Entries

/-!
# `RouteDocs.Proofs.DocumentPaths`: every operation is in the document, and no other

The endpoints of a document are taken group by group and written under their paths, one
operation for each method. Both steps take elements up under keys (`Entries.gather`), so the
paths and the methods below them stand in the order of their first appearance, and under a
path and a method stands what was written there last.

`assemble_paths` says this of the whole: which paths there are, which methods each has, and
for which endpoint and which of its methods an operation was built. It follows that where no
two endpoints share a path and a method, another order of the endpoints changes the order of
the keys and nothing else.
-/

set_option autoImplicit false

namespace RouteDocs.Document

open Text

variable {settings : Settings} {plan : CodeSample.Plan}

/-- The endpoints in the order of the document: groups in the order of their first endpoint,
and the endpoints of a group as they come. -/
def grouped (es : List Endpoint) : List Endpoint :=
  (es.map (·.group)).eraseDups.flatMap fun g => es.filter (·.group = g)

/-- The methods of an endpoint as keys of the document. -/
def methodKeys (e : Endpoint) : List Text := e.methods.map methodKey

/-- The endpoint has an operation under the path and the method. -/
def Answers (path method : Text) (e : Endpoint) : Prop :=
  pathKey e = path ∧ method ∈ methodKeys e

/-- Whether an endpoint answers a method under a path can be decided. -/
instance (path method : Text) : DecidablePred (Answers path method) := fun e =>
  inferInstanceAs (Decidable (pathKey e = path ∧ method ∈ methodKeys e))

/-- `op` is the operation of the last endpoint that answers the method under the path, built
for the last of its methods with that key and tagged with its group. -/
def IsLastOperation (settings : Settings) (plan : CodeSample.Plan) (es : List Endpoint)
    (path method : Text) (op : Value) : Prop :=
  ∃ e earlier m later,
    ((grouped es).filter (Answers path method)).getLast? = some e ∧
    e.methods = earlier ++ m :: later ∧ methodKey m = method ∧ method ∉ later.map methodKey ∧
    operation settings plan e.group e m earlier.isEmpty = .ok op ∧
    op.get? "tags" = some (.list [.str e.group])

/-- The paths of a document with their operations, as the endpoints give them. -/
structure ShowsAll (settings : Settings) (plan : CodeSample.Plan) (es : List Endpoint)
    (items : List (Text × List (Text × Value))) : Prop where
  /-- The paths are those of the endpoints. -/
  paths : items.map Prod.fst = ((grouped es).map pathKey).eraseDups
  /-- The methods under a path are those of the endpoints with that path. -/
  methods : ∀ item ∈ items, item.2.map Prod.fst
    = (((grouped es).filter (pathKey · = item.1)).flatMap methodKeys).eraseDups
  /-- Under a path and a method stands the operation of the last endpoint that has both. -/
  last : ∀ item ∈ items, ∀ entry ∈ item.2,
    IsLastOperation settings plan es item.1 entry.1 entry.2

/-- The endpoints share no path and method. -/
def SharesNone (e f : Endpoint) : Prop :=
  ∀ path method, Answers path method e → ¬ Answers path method f

/-- No two of the endpoints share a path and a method. -/
def Apart (es : List Endpoint) : Prop := es.Pairwise SharesNone

/-- The same operations under the same paths and methods, in some order. -/
def SameButOrder (items items' : List (Text × List (Text × Value))) : Prop :=
  (items.map Prod.fst).Perm (items'.map Prod.fst) ∧
    ∀ path ops ops', (path, ops) ∈ items → (path, ops') ∈ items' → ops.Perm ops'

/-- The plan has all its samples for the endpoints that have a method. -/
def Renders (plan : CodeSample.Plan) (es : List Endpoint) : Prop :=
  ∀ e ∈ es, e.methods ≠ [] → ∃ shown, samples plan e = .ok shown

/-- The document of the endpoints has the items under `paths`. -/
def HasPaths (settings : Settings) (plan : CodeSample.Plan) (es : List Endpoint)
    (items : List (Text × List (Text × Value))) : Prop :=
  ∃ doc, assemble settings plan es [] = .ok doc ∧
    doc.get? "paths" = some (.ofFields (items.map fun item => (item.1, .ofFields item.2)))

/-! ### The order of the endpoints -/

/-- Groups stand in the order of their first endpoint, each with its endpoints as they come. -/
theorem groupEndpoints_eq (es : List Endpoint) :
    groupEndpoints es = (es.map (·.group)).eraseDups.map fun g => (g, es.filter (·.group = g)) := by
  let join : List Endpoint → Endpoint → List Endpoint := fun listed e => listed ++ [e]
  -- A group is what its own endpoints are joined to, one after the other.
  have hgather : groupEndpoints es
      = Entries.gather (·.group) (fun listed e => join (listed.getD []) e) es := by
    simp only [groupEndpoints, Entries.append_eq_insert]
    rfl
  have hvalue : ∀ entry ∈ groupEndpoints es, entry.2 = es.filter (·.group = entry.1) := by
    rintro ⟨g, listed⟩ hmem
    rw [hgather, Entries.mem_gather_iff] at hmem
    have hlisted := Entries.getD_get?_gather (·.group) [] join es g
    rw [hmem, Option.getD_some] at hlisted
    rw [hlisted, List.foldl_append_eq_append, List.nil_append, ← List.flatMap_def,
      List.flatMap_singleton']
    simp only [beq_eq_decide]
  have hkeys : (groupEndpoints es).map Prod.fst = (es.map (·.group)).eraseDups := by
    rw [hgather, Entries.keys_gather]
  rw [← hkeys, List.map_map]
  conv => lhs; rw [← List.map_id (groupEndpoints es)]
  apply List.map_congr_left
  intro entry hentry
  simp [← hvalue entry hentry]

/-- The order of the document keeps all endpoints. -/
theorem mem_grouped (es : List Endpoint) (e : Endpoint) : e ∈ grouped es ↔ e ∈ es := by
  simp only [grouped, List.mem_flatMap, List.mem_eraseDups, List.mem_map, List.mem_filter,
    decide_eq_true_eq]
  constructor
  · rintro ⟨g, -, he, -⟩
    exact he
  · intro he
    exact ⟨e.group, ⟨e, he, rfl⟩, he, rfl⟩

/-! ### The operations of an endpoint -/

/-- A sample for each language of the plan makes an operation. -/
theorem operation_eq_ok {e : Endpoint} {shown : Value} (h : samples plan e = .ok shown)
    (group method : Text) (isFirst : Bool) :
    ∃ op, operation settings plan group e method isFirst = .ok op := by
  rw [operation, h]
  exact ⟨_, rfl⟩

/-- An operation is tagged with the group that it was built for. -/
theorem get?_tags_of_operation {e : Endpoint} {group method : Text} {isFirst : Bool} {op : Value}
    (h : operation settings plan group e method isFirst = .ok op) :
    op.get? "tags" = some (.list [.str group]) := by
  simp only [operation] at h
  cases hshown : samples plan e with
  | error fault => simp [hshown, bind, Except.bind] at h
  | ok shown =>
      simp only [hshown, bind, Except.bind, Except.ok.injEq] at h
      subst h
      simp [Value.get?, Value.object, Entries.get?]

/-- What a method adds to the operations. -/
theorem operations_cons_eq_ok {group : Text} {e : Endpoint} {isFirst : Bool} {m : Text}
    {ms : List Text} {ops : List (Text × Value)}
    (h : operations settings plan group e isFirst (m :: ms) = .ok ops) :
    ∃ op rest, operation settings plan group e m isFirst = .ok op ∧
      operations settings plan group e false ms = .ok rest ∧ ops = (methodKey m, op) :: rest := by
  rw [operations] at h
  cases hop : operation settings plan group e m isFirst with
  | error fault => simp [hop, bind, Except.bind] at h
  | ok op =>
      cases hrest : operations settings plan group e false ms with
      | error fault => simp [hop, hrest, bind, Except.bind] at h
      | ok rest =>
          simp only [hop, hrest, bind, Except.bind, Except.ok.injEq] at h
          exact ⟨op, rest, rfl, rfl, h.symm⟩

/-- An endpoint whose samples can be made has its operations, one for each method. -/
theorem exists_operations {e : Endpoint} {shown : Value} (h : samples plan e = .ok shown)
    (group : Text) (isFirst : Bool) (ms : List Text) :
    ∃ ops, operations settings plan group e isFirst ms = .ok ops := by
  induction ms generalizing isFirst with
  | nil => exact ⟨[], rfl⟩
  | cons m ms ih =>
      obtain ⟨op, hop⟩ : ∃ op, operation settings plan group e m isFirst = .ok op :=
        operation_eq_ok h group m isFirst
      obtain ⟨rest, hrest⟩ := ih false
      refine ⟨(methodKey m, op) :: rest, ?_⟩
      rw [operations, hop, hrest]
      rfl

/-- There is one operation for each method. -/
theorem keys_operations {group : Text} {e : Endpoint} {isFirst : Bool} {ms : List Text}
    {ops : List (Text × Value)} (h : operations settings plan group e isFirst ms = .ok ops) :
    ops.map Prod.fst = ms.map methodKey := by
  induction ms generalizing isFirst ops with
  | nil =>
      cases h
      rfl
  | cons m ms ih =>
      obtain ⟨op, rest, -, hrest, rfl⟩ := operations_cons_eq_ok h
      rw [List.map_cons, List.map_cons, ih hrest]

/-- Of methods with one key the last gives the operation. -/
theorem last_of_operations {group : Text} {e : Endpoint} {isFirst : Bool} {ms : List Text}
    {ops : List (Text × Value)} (h : operations settings plan group e isFirst ms = .ok ops)
    {method : Text} {op : Value} (hop : Entries.get? method (Entries.ofList ops) = some op) :
    ∃ earlier m later, ms = earlier ++ m :: later ∧ methodKey m = method ∧
      method ∉ later.map methodKey ∧
      operation settings plan group e m (isFirst && earlier.isEmpty) = .ok op := by
  induction ms generalizing isFirst ops with
  | nil =>
      cases h
      cases hop
  | cons m ms ih =>
      obtain ⟨first, rest, hfirst, hrest, rfl⟩ := operations_cons_eq_ok h
      rw [Entries.ofList, Entries.insertAll_cons, Entries.get?_insertAll] at hop
      -- A later method with this key takes the place of the one in front.
      cases hlater : Entries.get? method (Entries.ofList rest) with
      | some found =>
          rw [hlater, Option.some_or] at hop
          obtain ⟨earlier, m', later, rfl, hkey, hnot, hbuilt⟩ := ih hrest (hlater.trans hop)
          exact ⟨m :: earlier, m', later, rfl, hkey, hnot, by simpa using hbuilt⟩
      | none =>
          have hnot : method ∉ ms.map methodKey := by
            rwa [Entries.get?_eq_none_iff, Entries.keys_ofList, List.mem_eraseDups,
              keys_operations hrest] at hlater
          rw [hlater, Option.none_or, Entries.get?_insert] at hop
          by_cases hkey : methodKey m = method
          · rw [if_pos (by simpa using hkey)] at hop
            cases hop
            exact ⟨[], m, ms, rfl, hkey, hnot, by simpa using hfirst⟩
          · rw [if_neg (by simpa using hkey)] at hop
            cases hop

/-! ### The paths -/

/-- The operations of an endpoint, none where they cannot be built. -/
def operationsOf (settings : Settings) (plan : CodeSample.Plan) (e : Endpoint) :
    List (Text × Value) :=
  match operations settings plan e.group e true e.methods with
  | .ok ops => ops
  | .error _ => []

/-- The operations of an endpoint that the plan renders are there. -/
theorem operations_eq_ok {es : List Endpoint} (h : Renders plan es) {e : Endpoint} (he : e ∈ es) :
    operations settings plan e.group e true e.methods = .ok (operationsOf settings plan e) := by
  have hok : ∃ ops, operations settings plan e.group e true e.methods = .ok ops := by
    cases hms : e.methods with
    | nil => exact ⟨[], rfl⟩
    | cons m ms =>
        obtain ⟨shown, hshown⟩ := h e he (by simp [hms])
        exact exists_operations hshown e.group true (m :: ms)
  obtain ⟨ops, hops⟩ := hok
  rw [operationsOf, hops]

/-- The path items of a sequence of endpoints. -/
def pathItems (settings : Settings) (plan : CodeSample.Plan) (es : List Endpoint) :
    List (Text × List (Text × Value)) :=
  Entries.gather pathKey (fun ops e => Entries.insertAll (ops.getD []) (operationsOf settings plan e)) es

/-- Adding the operations of endpoints, one after the other, does not fail where the plan renders
them all. -/
theorem foldlM_addOperations {es xs : List Endpoint} (h : Renders plan es)
    (hxs : ∀ e ∈ xs, e ∈ es) (items : List (Text × List (Text × Value))) :
    (xs.map fun e => (e.group, e)).foldlM (fun ps r => do
        let ops ← operations settings plan r.1 r.2 true r.2.methods
        .ok (addOperations ps (pathKey r.2) ops)) items
      = Except.ok (xs.foldl (fun ps e =>
          addOperations ps (pathKey e) (operationsOf settings plan e)) items) := by
  induction xs generalizing items with
  | nil => rfl
  | cons e xs ih =>
      rw [List.map_cons, List.foldlM_cons, operations_eq_ok h (hxs e List.mem_cons_self)]
      exact ih (fun f hf => hxs f (List.mem_cons_of_mem _ hf)) _

/-- Building the paths takes the endpoints up under their paths, in the order of the document. -/
theorem paths_eq_ok {es : List Endpoint} (h : Renders plan es) :
    paths settings plan (groupEndpoints es) = .ok (pathItems settings plan (grouped es)) := by
  have hroutes : ((groupEndpoints es).flatMap fun g => g.2.map fun e => (g.1, e))
      = (grouped es).map fun e => (e.group, e) := by
    rw [groupEndpoints_eq, grouped, List.flatMap_map, List.map_flatMap]
    congr 1
    funext g
    apply List.map_congr_left
    intro e he
    rw [List.mem_filter, decide_eq_true_eq] at he
    rw [he.2]
  simp only [paths, hroutes]
  exact foldlM_addOperations h (fun e he => (mem_grouped es e).mp he) []

/-- Under a path stands what the endpoints with that path wrote, one after the other. -/
theorem eq_ofList_of_mem_pathItems {es : List Endpoint} {path : Text} {ops : List (Text × Value)}
    (h : (path, ops) ∈ pathItems settings plan es) :
    ops = Entries.ofList ((es.filter (pathKey · = path)).flatMap (operationsOf settings plan)) := by
  let write : List (Text × Value) → Endpoint → List (Text × Value) :=
    fun ops e => Entries.insertAll ops (operationsOf settings plan e)
  rw [pathItems, Entries.mem_gather_iff] at h
  have hops := Entries.getD_get?_gather pathKey [] write es path
  rw [h, Option.getD_some, Entries.foldl_insertAll] at hops
  simpa only [beq_eq_decide, Entries.ofList] using hops

/-- Of endpoints that write under a method the last counts. -/
theorem get?_ofList_operations {es : List Endpoint} (h : Renders plan es) (method : Text)
    {op : Value}
    (hop : Entries.get? method (Entries.ofList (es.flatMap (operationsOf settings plan))) = some op) :
    ∃ e ∈ es, (es.filter (method ∈ methodKeys ·)).getLast? = some e ∧
      Entries.get? method (Entries.ofList (operationsOf settings plan e)) = some op := by
  induction es using List.reverseRecOn with
  | nil => cases hop
  | append_singleton es e ih =>
      have hkeys : (operationsOf settings plan e).map Prod.fst = methodKeys e :=
        keys_operations (operations_eq_ok h (by simp))
      rw [List.flatMap_append, List.flatMap_singleton, Entries.ofList, Entries.insertAll_append,
        Entries.get?_insertAll] at hop
      rw [List.filter_append]
      -- From the end: the last endpoint counts, unless it does not write under the method.
      cases hlast : Entries.get? method (Entries.ofList (operationsOf settings plan e)) with
      | some found =>
          rw [hlast, Option.some_or] at hop
          have hmem : method ∈ methodKeys e := by
            rw [← hkeys, ← List.mem_eraseDups, ← Entries.keys_ofList]
            by_contra hnot
            rw [← Entries.get?_eq_none_iff, hlast] at hnot
            cases hnot
          exact ⟨e, by simp, by simp [hmem], hlast.trans hop⟩
      | none =>
          rw [hlast, Option.none_or] at hop
          have hmem : method ∉ methodKeys e := by
            rwa [Entries.get?_eq_none_iff, Entries.keys_ofList, List.mem_eraseDups, hkeys] at hlast
          obtain ⟨f, hf, hgetLast, hfound⟩ := ih (fun f hf => h f (by simp [hf])) hop
          exact ⟨f, by simp [hf], by simpa [hmem] using hgetLast, hfound⟩

/-- The path items of the endpoints are as the endpoints give them: the paths in order, the
methods of each, and the last operation for each. -/
theorem showsAll_pathItems {es : List Endpoint} (h : Renders plan es) :
    ShowsAll settings plan es (pathItems settings plan (grouped es)) := by
  have hat : ∀ path, Renders plan ((grouped es).filter (pathKey · = path)) := by
    intro path e he
    rw [List.mem_filter, mem_grouped] at he
    exact h e he.1
  constructor
  case paths => exact Entries.keys_gather ..
  case methods =>
    rintro ⟨path, ops⟩ hmem
    rw [eq_ofList_of_mem_pathItems hmem, Entries.keys_ofList, List.map_flatMap]
    congr 1
    apply List.flatMap_congr
    intro e he
    exact keys_operations (operations_eq_ok (hat path) he)
  case last =>
    rintro ⟨path, ops⟩ hitem ⟨method, op⟩ hentry
    have hops := eq_ofList_of_mem_pathItems hitem
    simp only at hentry
    rw [hops, Entries.ofList_eq_gather, Entries.mem_gather_iff, ← Entries.ofList_eq_gather] at hentry
    obtain ⟨e, he, hlast, hfound⟩ := get?_ofList_operations (hat path) method hentry
    obtain ⟨earlier, m, later, hms, hkey, hnot, hbuilt⟩ :=
      last_of_operations (operations_eq_ok (hat path) he) hfound
    rw [Bool.true_and] at hbuilt
    -- The last one with the method, among those with the path, is the last one with both.
    have hboth : ((grouped es).filter (Answers path method)).getLast? = some e := by
      rw [List.filter_filter] at hlast
      rw [← hlast]
      congr 2
      funext f
      rw [← Bool.decide_and]
      exact decide_eq_decide.mpr and_comm
    exact ⟨e, earlier, m, later, hboth, hms, hkey, hnot, hbuilt, get?_tags_of_operation hbuilt⟩

/-- And the document of the endpoints has these items. -/
theorem hasPaths_pathItems {es : List Endpoint} (h : Renders plan es) :
    HasPaths settings plan es (pathItems settings plan (grouped es)) := by
  have hdoc : ∃ doc, assemble settings plan es [] = .ok doc := by
    rw [assemble, paths_eq_ok h]
    exact ⟨_, rfl⟩
  obtain ⟨doc, hdoc⟩ := hdoc
  refine ⟨doc, hdoc, ?_⟩
  rw [assemble, paths_eq_ok h] at hdoc
  cases hdoc
  rfl

/-! ### The operation under a path and a method -/

/-- The operation that a document has under a path and a method. -/
def OperationAt (doc : Value) (path method : Text) (op : Value) : Prop :=
  ∃ items ops, doc.get? "paths" = some (.map items) ∧
    Entries.get? (.str path) items = some (.map ops) ∧ Entries.get? (.str method) ops = some op

/-- An operation shows its samples at its end. -/
theorem exists_samples_of_operation {e : Endpoint} {group method : Text} {isFirst : Bool}
    {op : Value} (h : operation settings plan group e method isFirst = .ok op) :
    ∃ shown, samples plan e = .ok shown ∧ op.get? "x-code-samples" = some shown := by
  obtain ⟨shown, hshown, h⟩ := exists_of_bind_eq_ok h
  obtain rfl := Except.ok.inj h
  refine ⟨shown, hshown, ?_⟩
  -- Two fields are there in some operations only.
  cases e.bodyParameters.isEmpty <;> cases (e.authenticated && !settings.security.isEmpty) <;>
    simp [Value.get?, Value.object, Entries.get?, ofString]

/-- Where operations are taken up, all of them could be built. -/
theorem exists_operations_of_foldlM {routes : List (Text × Endpoint)}
    {before items : List (Text × List (Text × Value))}
    (h : routes.foldlM (fun ps r => do
      let ops ← operations settings plan r.1 r.2 true r.2.methods
      .ok (addOperations ps (pathKey r.2) ops)) before = Except.ok items) :
    ∀ r ∈ routes, ∃ ops, operations settings plan r.1 r.2 true r.2.methods = .ok ops := by
  induction routes generalizing before with
  | nil => simp
  | cons r routes ih =>
      rw [List.foldlM_cons] at h
      obtain ⟨after, hafter, hrest⟩ := exists_of_bind_eq_ok h
      obtain ⟨ops, hops, -⟩ := exists_of_bind_eq_ok hafter
      exact List.forall_mem_cons.mpr ⟨⟨ops, hops⟩, ih hrest⟩

/-- Where the paths are built there are samples for all endpoints. -/
theorem renders_of_paths {es : List Endpoint} {items : List (Text × List (Text × Value))}
    (h : paths settings plan (groupEndpoints es) = .ok items) : Renders plan es := by
  intro e he hms
  have hmem : (e.group, e) ∈ (groupEndpoints es).flatMap fun g => g.2.map fun e => (g.1, e) := by
    rw [groupEndpoints_eq]
    simp only [List.mem_flatMap, List.mem_map, List.mem_eraseDups]
    exact ⟨_, ⟨e.group, ⟨e, he, rfl⟩, rfl⟩, e, by simpa using he, rfl⟩
  obtain ⟨ops, hops⟩ := exists_operations_of_foldlM h _ hmem
  obtain ⟨m, ms, hcons⟩ := List.exists_cons_of_ne_nil hms
  simp only [hcons] at hops
  obtain ⟨op, -, hop, -⟩ := operations_cons_eq_ok hops
  obtain ⟨shown, hshown, -⟩ := exists_samples_of_operation hop
  exact ⟨shown, hshown⟩

/-- In a document without a base every operation is that of the last endpoint with its path and
method. -/
theorem isLastOperation_of_assemble {es : List Endpoint} {doc : Value}
    (h : assemble settings plan es [] = .ok doc) {path method : Text} {op : Value}
    (hop : OperationAt doc path method op) : IsLastOperation settings plan es path method op := by
  obtain ⟨built, hbuilt, -⟩ := exists_of_bind_eq_ok h
  have hplan := renders_of_paths hbuilt
  have hpaths : HasPaths settings plan es _ := hasPaths_pathItems hplan
  obtain ⟨doc', hdoc', hpaths⟩ := hpaths
  obtain rfl := Except.ok.inj (hdoc'.symm.trans h)
  obtain ⟨items, ops, hitems, hops, hop⟩ := hop
  rw [hpaths] at hitems
  obtain rfl := Value.map.inj (Option.some.inj hitems)
  rw [Entries.get?_map_str] at hops
  -- All keys of the document are texts, so what is found comes from an item of the list.
  obtain ⟨path', hmem, hpath⟩ := Entries.exists_mem_of_get? hops
  obtain ⟨item, hitem, heq⟩ := List.mem_map.mp hmem
  obtain ⟨rfl, hvalue⟩ := Prod.mk.inj heq
  obtain rfl := Value.map.inj hvalue
  rw [Entries.get?_map_str] at hop
  obtain ⟨method', hentry, hmethod⟩ := Entries.exists_mem_of_get? hop
  have hlast := (showsAll_pathItems hplan).last item hitem _ hentry
  rwa [beq_iff_eq.mp hpath, beq_iff_eq.mp hmethod] at hlast

/-! ### The order of the endpoints does not matter -/

/-- That two endpoints share nothing is said of both alike. -/
theorem SharesNone.symm {e f : Endpoint} (h : SharesNone e f) : SharesNone f e :=
  fun path method hf he => h path method he hf

/-- Sharing nothing is symmetric, which lets a list of endpoints be permuted. -/
instance : Std.Symm SharesNone := ⟨fun _ _ => SharesNone.symm⟩

/-- Endpoints that are apart have each pair of a path and a method once. -/
theorem Apart.eq_of_answers {es : List Endpoint} (h : Apart es) {e f : Endpoint} (he : e ∈ es)
    (hf : f ∈ es) {path method : Text} (hanswers : Answers path method e)
    (hanswers' : Answers path method f) : e = f := by
  by_contra hne
  exact h.forall he hf hne path method hanswers hanswers'

/-- A list is cut in one way at the last element with a key. -/
theorem cut_at_last_unique {α κ : Type} (key : α → κ) {a a' b b' : List α} {x x' : α}
    (h : a ++ x :: b = a' ++ x' :: b') (hkey : key x = key x') (hb : key x ∉ b.map key)
    (hb' : key x ∉ b'.map key) : a = a' ∧ x = x' := by
  have hin : ∀ {c b b' : List α} {x x' : α}, x :: b = c ++ x' :: b' → key x = key x' →
      key x ∉ b.map key → c = [] := by
    intro c b b' x x' h hkey hb
    cases c with
    | nil => rfl
    | cons y c =>
        have hmem : x' ∈ b := by simp [(List.cons.inj h).2]
        exact absurd (hkey ▸ List.mem_map_of_mem hmem) hb
  rcases List.append_eq_append_iff.mp h with ⟨c, rfl, hc⟩ | ⟨c, rfl, hc⟩
  · obtain rfl := hin hc hkey hb
    simpa using (List.cons.inj hc).1
  · obtain rfl := hin hc hkey.symm (hkey ▸ hb')
    simpa using (List.cons.inj hc).1.symm

/-- Endpoints that are apart give one operation for a path and a method in any order. -/
theorem IsLastOperation.unique {es es' : List Endpoint} (hapart : Apart es) (hperm : es'.Perm es)
    {path method : Text} {op op' : Value}
    (h : IsLastOperation settings plan es path method op)
    (h' : IsLastOperation settings plan es' path method op') : op = op' := by
  have hmem : ∀ {es : List Endpoint} {e : Endpoint},
      ((grouped es).filter (Answers path method)).getLast? = some e →
      e ∈ es ∧ Answers path method e := by
    intro es e hlast
    have h := List.mem_of_getLast? hlast
    rwa [List.mem_filter, mem_grouped, decide_eq_true_eq] at h
  obtain ⟨e, earlier, m, later, hlast, hms, hkey, hnot, hbuilt, -⟩ := h
  obtain ⟨e', earlier', m', later', hlast', hms', hkey', hnot', hbuilt', -⟩ := h'
  -- Both endpoints answer the same path and method, and endpoints that stand apart share none.
  obtain rfl : e = e' := hapart.eq_of_answers (hmem hlast).1 (hperm.mem_iff.mp (hmem hlast').1)
    (hmem hlast).2 (hmem hlast').2
  -- The method that counts is the last one with its key, so both lists are cut at one place.
  have hcut := cut_at_last_unique methodKey (hms.symm.trans hms') (hkey.trans hkey'.symm)
    (hkey ▸ hnot) (hkey ▸ hnot')
  rw [hcut.1, hcut.2] at hbuilt
  exact Except.ok.inj (hbuilt.symm.trans hbuilt')

/-- Lists with the same elements are the same in some order, but for repetitions. -/
theorem perm_eraseDups {ks ks' : List Text} (h : ∀ k, k ∈ ks ↔ k ∈ ks') :
    ks.eraseDups.Perm ks'.eraseDups := by
  rw [List.perm_ext_iff_of_nodup (Entries.nodup_eraseDups ks) (Entries.nodup_eraseDups ks')]
  simpa using h

/-- An operation of one document is in the other, if the endpoints are the same in some order and
no two of them share a path and a method: the last one that answers is then the only one. -/
theorem ShowsAll.mem_of_mem {es es' : List Endpoint} {items items' : List (Text × List (Text × Value))}
    (hitems : ShowsAll settings plan es items) (hitems' : ShowsAll settings plan es' items')
    (hapart : Apart es) (hperm : es'.Perm es) {path method : Text} {ops ops' : List (Text × Value)}
    {op : Value} (hops : (path, ops) ∈ items) (hops' : (path, ops') ∈ items')
    (hop : (method, op) ∈ ops) : (method, op) ∈ ops' := by
  have hkey : method ∈ ops'.map Prod.fst := by
    have h : method ∈ ops.map Prod.fst := List.mem_map.mpr ⟨_, hop, rfl⟩
    rw [hitems.methods _ hops, List.mem_eraseDups, List.mem_flatMap] at h
    rw [hitems'.methods _ hops', List.mem_eraseDups, List.mem_flatMap]
    obtain ⟨e, he, hmethod⟩ := h
    rw [List.mem_filter, mem_grouped] at he
    refine ⟨e, ?_, hmethod⟩
    rw [List.mem_filter, mem_grouped]
    exact ⟨hperm.mem_iff.mpr he.1, he.2⟩
  obtain ⟨⟨_, op'⟩, hop', rfl⟩ := List.mem_map.mp hkey
  have heq : op = op' :=
    (hitems.last _ hops _ hop).unique hapart hperm (hitems'.last _ hops' (_, op') hop')
  rwa [heq]

/-- Endpoints that are apart show the same operations in any order. -/
theorem ShowsAll.sameButOrder {es es' : List Endpoint}
    {items items' : List (Text × List (Text × Value))}
    (hitems : ShowsAll settings plan es items) (hitems' : ShowsAll settings plan es' items')
    (hapart : Apart es) (hperm : es'.Perm es) : SameButOrder items items' := by
  constructor
  · rw [hitems.paths, hitems'.paths]
    apply perm_eraseDups
    intro path
    simp only [List.mem_map, mem_grouped, hperm.mem_iff]
  · intro path ops ops' hops hops'
    -- No method stands twice under a path, so it is enough to compare the members.
    have hnodup : ∀ {es : List Endpoint} {items : List (Text × List (Text × Value))}
        {ops : List (Text × Value)}, ShowsAll settings plan es items → (path, ops) ∈ items →
        ops.Nodup := by
      intro es items ops hitems hops
      apply List.Nodup.of_map Prod.fst
      rw [hitems.methods _ hops]
      exact Entries.nodup_eraseDups _
    rw [List.perm_ext_iff_of_nodup (hnodup hitems hops) (hnodup hitems' hops')]
    rintro ⟨method, op⟩
    have hapart' : Apart es' := (hperm.pairwise_iff SharesNone.symm).mpr hapart
    exact ⟨hitems.mem_of_mem hitems' hapart hperm hops hops',
      hitems'.mem_of_mem hitems hapart' hperm.symm hops' hops⟩

/-- With samples for all endpoints and no base document, the document shows every operation of
the endpoints and no other; and endpoints that are apart show the same in any order. -/
theorem assemble_paths (settings : Settings) (plan : CodeSample.Plan) (es : List Endpoint)
    (hplan : Renders plan es) :
    ∃ items, HasPaths settings plan es items ∧ ShowsAll settings plan es items ∧
      (Apart es → ∀ es', es'.Perm es →
        ∃ items', HasPaths settings plan es' items' ∧ SameButOrder items items') := by
  refine ⟨_, hasPaths_pathItems hplan, showsAll_pathItems hplan, ?_⟩
  intro hapart es' hperm
  have hplan' : Renders plan es' := fun e he => hplan e (hperm.mem_iff.mp he)
  exact ⟨_, hasPaths_pathItems hplan',
    (showsAll_pathItems hplan).sameButOrder (showsAll_pathItems hplan') hapart hperm⟩

/-- An endpoint with no parameters. -/
def bareEndpoint (group title uri : Text) (methods : List Text) : Endpoint :=
  { id := title, group := group, title := title, description := [], methods := methods, uri := uri,
    parameters := [], bodyParameters := [], authenticated := false, responses := [] }

/-- Endpoints of two groups. The first and the third share a path that is written in two
ways, and the last shares a method with the third under it. -/
def shopEndpoints : List Endpoint :=
  [bareEndpoint "orders" "list" "orders" ["GET"],
   bareEndpoint "users" "users" "users" ["GET", "POST"],
   bareEndpoint "orders" "store" "/orders" ["POST", "PUT"],
   bareEndpoint "users" "replace" "//orders" ["PUT"]]

/-- Endpoints of two groups with three paths, which share none. -/
def stallEndpoints : List Endpoint :=
  [bareEndpoint "orders" "list" "orders" ["GET"],
   bareEndpoint "users" "users" "users" ["GET", "POST"],
   bareEndpoint "orders" "count" "stock" ["GET"]]

/-- Samples of one line, with a method and a path. -/
def linePlan : CodeSample.Plan :=
  ⟨[("Line", fun e => .ok ((" " : Text).intercalate e.methods ++ " " ++ e.uri))]⟩

/-- Samples of one line can always be made. -/
theorem renders_linePlan (es : List Endpoint) : Renders linePlan es :=
  fun _ _ _ => ⟨_, rfl⟩

/-- Endpoints with different paths share nothing. -/
theorem sharesNone_of_pathKey_ne {e f : Endpoint} (h : pathKey e ≠ pathKey f) : SharesNone e f :=
  fun _ _ he hf => h (he.1.trans hf.1.symm)

/-- These endpoints have different paths, so no two of them share anything. -/
theorem apart_stallEndpoints : Apart stallEndpoints := by
  have hpaths : stallEndpoints.Pairwise fun e f => pathKey e ≠ pathKey f := by decide
  exact hpaths.imp sharesNone_of_pathKey_ne

/-- Where two endpoints share a path and a method, the order decides; where none do, it does
not. -/
theorem assemble_paths_shopEndpoints :
    (Renders linePlan shopEndpoints ∧
      ∃ items, HasPaths {} linePlan shopEndpoints items ∧
        ShowsAll {} linePlan shopEndpoints items) ∧
    Renders linePlan stallEndpoints ∧ Apart stallEndpoints ∧
      ∃ items, HasPaths {} linePlan stallEndpoints items ∧
        ShowsAll {} linePlan stallEndpoints items ∧
        ∀ es', es'.Perm stallEndpoints →
          ∃ items', HasPaths {} linePlan es' items' ∧ SameButOrder items items' := by
  have hshop := renders_linePlan shopEndpoints
  have hstall := renders_linePlan stallEndpoints
  obtain ⟨items, hpaths, hshows, -⟩ := assemble_paths {} linePlan shopEndpoints hshop
  obtain ⟨items', hpaths', hshows', horder⟩ := assemble_paths {} linePlan stallEndpoints hstall
  exact ⟨⟨hshop, items, hpaths, hshows⟩, hstall, apart_stallEndpoints, items', hpaths', hshows',
    horder apart_stallEndpoints⟩

end RouteDocs.Document
