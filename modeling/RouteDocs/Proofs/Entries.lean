import Mathlib.Data.List.Forall2
import Mathlib.Data.List.Induction
import RouteDocs.Value.Basic

/-!
# `RouteDocs.Proofs.Entries`: the laws of ordered entries

`Entries.insert` writes under a key and `Entries.get?` looks the key up. The laws
below say how the two meet, for keys that are compared by an equivalence. `Scalar` is
such a key: its `==` compares what two scalars denote, so `1`, `1.0` and `true` are one
key, and the laws hold although `==` is not equality there.

* `get?_insert`: a look-up after a write.
* `insert_eq_append`: a write under a new key adds an entry at the end.
* `insertAll_eq_append`: a sequence of writes under new and distinct keys adds them all.
* `map_ofList`: writes commute with a map of the values.

`gather` joins what elements of a list have under one key, in their order; `ofList` is the case
where the last element wins (`ofList_eq_gather`).

`Matched R` relates two lists of entries with the same keys in the same order, by a relation
`R` on the values that may depend on the key. Look-ups and writes keep lists matched.
-/

set_option autoImplicit false

namespace RouteDocs

/-- Scalars are compared by the key that they are. -/
theorem Scalar.beq_eq (a b : Scalar) : (a == b) = decide (a.key = b.key) := rfl

/-- Comparing scalars as keys is an equivalence. -/
instance : EquivBEq Scalar where
  rfl := by intro a; simp [Scalar.beq_eq]
  symm := by intro a b h; simp_all [Scalar.beq_eq]
  trans := by intro a b c h h'; simp_all [Scalar.beq_eq]

/-- A text is like no other key. -/
theorem Scalar.key_eq_str_iff (a : Scalar) (s : Text) :
    a.key = .scalar (.str s) ↔ a = .str s := by
  cases a with
  | float x =>
      simp only [Scalar.key]
      split <;> simp
  | moment m =>
      simp only [Scalar.key]
      split <;> simp
  | _ => simp [Scalar.key]

/-- Only a text is like a text, and only the same one. -/
@[simp] theorem Scalar.beq_str_iff (a : Scalar) (s : Text) : (a == .str s) = true ↔ a = .str s := by
  rw [Scalar.beq_eq, decide_eq_true_iff]
  exact Scalar.key_eq_str_iff a s

/-- Texts are like each other as keys if they are equal. -/
@[simp] theorem Scalar.str_beq_str (s t : Text) :
    ((Scalar.str s) == .str t) = decide (s = t) := by
  simp [Scalar.beq_eq, Scalar.key]

namespace Entries

variable {κ α β : Type} [BEq κ]

/-- Among no entries nothing is found. -/
@[simp] theorem get?_nil (key : κ) : get? key ([] : List (κ × α)) = none := rfl

/-- A look-up takes the first entry whose key is like the one looked up. -/
theorem get?_cons (key : κ) (e : κ × α) (es : List (κ × α)) :
    get? key (e :: es) = if e.1 == key then some e.2 else get? key es := rfl

/-- A write replaces the value of the first entry whose key is like its own, and keeps that
entry's key. -/
theorem insert_cons (key : κ) (value : α) (e : κ × α) (es : List (κ × α)) :
    insert key value (e :: es)
      = if e.1 == key then (e.1, value) :: es else e :: insert key value es := rfl

/-- A look-up goes through the first of two lists of entries, then through the second. -/
theorem get?_append (key : κ) (es fs : List (κ × α)) :
    get? key (es ++ fs) = (get? key es).or (get? key fs) := by
  induction es with
  | nil => rfl
  | cons e es ih =>
      rw [List.cons_append, get?_cons, get?_cons, ih]
      split <;> rfl

/-- What is found under a key is an entry with a key like it. -/
theorem exists_mem_of_get? {key : κ} {es : List (κ × α)} {v : α} (h : get? key es = some v) :
    ∃ k, (k, v) ∈ es ∧ (k == key) = true := by
  induction es with
  | nil => simp at h
  | cons e es ih =>
      rw [get?_cons] at h
      split at h
      · rename_i hk
        cases h
        exact ⟨e.1, List.mem_cons_self, hk⟩
      · obtain ⟨k, hmem, hk⟩ := ih h
        exact ⟨k, List.mem_cons_of_mem _ hmem, hk⟩

/-- Texts as keys of a mapping are looked up as texts. -/
theorem get?_map_str (key : Text) (fields : List (Text × α)) :
    get? (.str key) (fields.map fun f => (Scalar.str f.1, f.2)) = get? key fields := by
  induction fields with
  | nil => rfl
  | cons f fields ih =>
      rw [List.map_cons, get?_cons, get?_cons, ih]
      simp

/-- A write under a new key adds an entry at the end. -/
theorem insert_eq_append {key : κ} {es : List (κ × α)} (h : get? key es = none) (value : α) :
    insert key value es = es ++ [(key, value)] := by
  induction es with
  | nil => rfl
  | cons e es ih =>
      rw [get?_cons] at h
      rw [insert_cons]
      split at h
      · cases h
      · rename_i hk
        rw [if_neg hk, ih h]
        rfl

/-- A key that is not there is like none of those that are. -/
theorem beq_eq_false_of_has {key : κ} {es : List (κ × α)} (h : has key es = false) {k : κ}
    (hk : k ∈ es.map Prod.fst) : (k == key) = false := by
  induction es with
  | nil => exact nomatch hk
  | cons e es ih =>
      rw [has, get?_cons] at h
      split at h
      · exact nomatch h
      · rename_i hne
        rcases List.mem_cons.mp hk with rfl | hk
        · exact Bool.eq_false_iff.mpr hne
        · exact ih h hk

/-- A write under a key that is there leaves the keys as they are. -/
theorem keys_insert_of_has {key : κ} {es : List (κ × α)} (h : has key es = true) (value : α) :
    (insert key value es).map Prod.fst = es.map Prod.fst := by
  induction es with
  | nil => exact nomatch h
  | cons e es ih =>
      rw [has, get?_cons] at h
      rw [insert_cons]
      split
      · rfl
      · rename_i hk
        rw [if_neg hk] at h
        rw [List.map_cons, List.map_cons, ih h]

section
variable [EquivBEq κ]

/-- A look-up after a write: the value written under a key like the one looked up, and what
was there under any other. -/
theorem get?_insert (key other : κ) (value : α) (es : List (κ × α)) :
    get? other (insert key value es) = if key == other then some value else get? other es := by
  induction es with
  | nil => rfl
  | cons e es ih =>
      rw [insert_cons]
      split
      · rename_i hk
        -- The entry keeps its own key, which is like `key`.
        rw [get?_cons, get?_cons, BEq.congr_left hk]
        split <;> rfl
      · rename_i hk
        rw [get?_cons, get?_cons, ih]
        by_cases hother : (e.1 == other) = true
        · have hne : ¬ (key == other) = true := fun h =>
            hk (BEq.trans hother (BEq.symm h))
          rw [if_pos hother, if_neg hne, if_pos hother]
        · rw [if_neg hother, if_neg hother]

/-- What was written last is found. -/
theorem get?_insert_self (key : κ) (value : α) (es : List (κ × α)) :
    get? key (insert key value es) = some value := by
  rw [get?_insert, if_pos BEq.rfl]

/-- Under keys that are like each other stands one value. -/
theorem get?_congr {key other : κ} (h : (key == other) = true) (es : List (κ × α)) :
    get? key es = get? other es := by
  induction es with
  | nil => rfl
  | cons e es ih => rw [get?_cons, get?_cons, ih, BEq.congr_right h]

/-- After a write its key is there, and what was there still is. -/
theorem has_insert (key other : κ) (value : α) (es : List (κ × α)) :
    has other (insert key value es) = (key == other || has other es) := by
  rw [has, has, get?_insert]
  split
  · rename_i hk
    rw [hk]
    rfl
  · rename_i hk
    rw [Bool.eq_false_iff.mpr hk, Bool.false_or]

/-- Of two writes under one key the later counts. -/
theorem insert_insert_self (key : κ) (first second : α) (es : List (κ × α)) :
    insert key second (insert key first es) = insert key second es := by
  induction es with
  | nil => simp [insert]
  | cons e es ih =>
      rw [insert_cons, insert_cons]
      split
      · rename_i hk
        rw [insert_cons, if_pos hk]
      · rename_i hk
        rw [insert_cons, if_neg hk, ih]

end

/-- No writes leave everything. -/
@[simp] theorem insertAll_nil (old : List (κ × α)) : insertAll old [] = old := rfl

/-- Writes one after the other, the first of them first. -/
@[simp] theorem insertAll_cons (old : List (κ × α)) (e : κ × α) (new : List (κ × α)) :
    insertAll old (e :: new) = insertAll (insert e.1 e.2 old) new := rfl

/-- Writes under keys that are new, and distinct from each other, add their entries in
order. -/
theorem insertAll_eq_append (old new : List (κ × α))
    (hnew : ∀ e ∈ new, get? e.1 old = none)
    (hdistinct : new.Pairwise fun e f => (e.1 == f.1) = false) :
    insertAll old new = old ++ new := by
  induction new generalizing old with
  | nil => simp
  | cons e new ih =>
      rw [List.pairwise_cons] at hdistinct
      have hrest : ∀ f ∈ new, get? f.1 (old ++ [e]) = none := by
        intro f hf
        rw [get?_append, hnew f (List.mem_cons_of_mem _ hf), Option.none_or, get?_cons,
          if_neg (by simp [hdistinct.1 f hf]), get?_nil]
      rw [insertAll_cons, insert_eq_append (hnew e List.mem_cons_self), ih _ hrest hdistinct.2,
        List.append_assoc, List.singleton_append]

/-- Entries under distinct keys are what their writes leave. -/
theorem ofList_eq_self {es : List (κ × α)}
    (hdistinct : es.Pairwise fun e f => (e.1 == f.1) = false) : ofList es = es := by
  rw [ofList, insertAll_eq_append [] es (by simp) hdistinct, List.nil_append]

/-- A function on the values may be applied before a write or after it. -/
theorem map_insert {β : Type} (f : α → β) (key : κ) (value : α) (es : List (κ × α)) :
    (insert key value es).map (fun e => (e.1, f e.2))
      = insert key (f value) (es.map fun e => (e.1, f e.2)) := by
  induction es with
  | nil => rfl
  | cons e es ih =>
      rw [insert_cons, List.map_cons, insert_cons]
      split
      · rfl
      · rw [List.map_cons, ih]

/-- The same of several writes. -/
theorem map_insertAll {β : Type} (f : α → β) (old new : List (κ × α)) :
    (insertAll old new).map (fun e => (e.1, f e.2))
      = insertAll (old.map fun e => (e.1, f e.2)) (new.map fun e => (e.1, f e.2)) := by
  induction new generalizing old with
  | nil => rfl
  | cons e new ih => rw [List.map_cons, insertAll_cons, insertAll_cons, ih, map_insert]

/-- Values may be replaced one by one before or after the writes. -/
theorem map_ofList {β : Type} (f : α → β) (es : List (κ × α)) :
    (ofList es).map (fun e => (e.1, f e.2)) = ofList (es.map fun e => (e.1, f e.2)) :=
  map_insertAll f [] es

/-- A key that a write leaves was written or was there. -/
theorem mem_keys_insert {key : κ} {value : α} {e : κ × α} {es : List (κ × α)}
    (h : e ∈ insert key value es) : e.1 = key ∨ e.1 ∈ es.map (·.1) := by
  induction es with
  | nil => exact .inl (congrArg (·.1) (List.mem_singleton.mp h))
  | cons f es ih =>
      rw [insert_cons] at h
      rw [List.map_cons, List.mem_cons]
      split at h
      · rcases List.mem_cons.mp h with rfl | h
        · exact .inr (.inl rfl)
        · exact .inr (.inr (List.mem_map_of_mem h))
      · rcases List.mem_cons.mp h with rfl | h
        · exact .inr (.inl rfl)
        · exact (ih h).imp_right .inr

/-- A key that several writes leave was written or was there. -/
theorem mem_keys_insertAll {e : κ × α} {old new : List (κ × α)} (h : e ∈ insertAll old new) :
    e.1 ∈ old.map (·.1) ∨ e.1 ∈ new.map (·.1) := by
  induction new generalizing old with
  | nil => exact .inl (List.mem_map_of_mem h)
  | cons f new ih =>
      rw [insertAll_cons] at h
      rw [List.map_cons, List.mem_cons]
      rcases ih h with h | h
      · obtain ⟨e', he', heq⟩ := List.mem_map.mp h
        rcases mem_keys_insert he' with hkey | hkey
        · exact .inr (.inl (heq ▸ hkey))
        · exact .inl (heq ▸ hkey)
      · exact .inr (.inr h)

/-- Every key that writes leave was written. -/
theorem mem_keys_ofList {e : κ × α} {es : List (κ × α)} (h : e ∈ ofList es) :
    e.1 ∈ es.map (·.1) :=
  (mem_keys_insertAll h).resolve_left List.not_mem_nil

/-! ### Elements taken up under their keys -/

/-- Writes go on where earlier ones ended. -/
theorem insertAll_append (old first second : List (κ × α)) :
    insertAll old (first ++ second) = insertAll (insertAll old first) second :=
  List.foldl_append

/-- Writes of several lists in turn are the writes of all of them in a row. -/
theorem foldl_insertAll {ξ : Type} (f : ξ → List (κ × α)) (xs : List ξ) (es : List (κ × α)) :
    xs.foldl (fun es x => insertAll es (f x)) es = insertAll es (xs.flatMap f) := by
  induction xs generalizing es with
  | nil => rfl
  | cons x xs ih => rw [List.foldl_cons, ih, List.flatMap_cons, insertAll_append]

/-- Adding to the list under a key is a write of the longer list. -/
theorem append_eq_insert (key : κ) (value : α) (es : List (κ × List α)) :
    append key value es = insert key ((get? key es).getD [] ++ [value]) es := by
  induction es with
  | nil => rfl
  | cons e es ih =>
      rw [append, insert_cons, get?_cons, ih]
      split <;> rfl

section
variable {ξ : Type}

/-- The elements of a list taken up one by one, each under its key, where `step` joins it to
what is there. -/
def gather (key : ξ → κ) (step : Option α → ξ → α) (xs : List ξ) : List (κ × α) :=
  xs.foldl (fun es x => insert (key x) (step (get? (key x) es) x) es) []

/-- One element more is joined to what stands under its key. -/
theorem gather_concat (key : ξ → κ) (step : Option α → ξ → α) (xs : List ξ) (x : ξ) :
    gather key step (xs ++ [x])
      = insert (key x) (step (get? (key x) (gather key step xs)) x) (gather key step xs) :=
  List.foldl_concat ..

/-- Writes under the same keys leave what was written last. -/
theorem ofList_eq_gather (es : List (κ × α)) : ofList es = gather Prod.fst (fun _ e => e.2) es :=
  rfl

variable [LawfulBEq κ]

/-- Nothing is found under a key exactly if the key is not there. -/
theorem get?_eq_none_iff (key : κ) (es : List (κ × α)) :
    get? key es = none ↔ key ∉ es.map Prod.fst := by
  induction es with
  | nil => simp
  | cons e es ih =>
      rw [get?_cons, List.map_cons, List.mem_cons, not_or, ← ih]
      by_cases hkey : e.1 = key
      · simp [hkey]
      · simp [hkey, Ne.symm hkey]

/-- A write adds its key at the end, unless it is there. -/
theorem keys_insert (key : κ) (value : α) (es : List (κ × α)) :
    (insert key value es).map Prod.fst = es.map Prod.fst ++ [key].removeAll (es.map Prod.fst) := by
  induction es with
  | nil => simp [insert]
  | cons e es ih =>
      rw [insert_cons]
      by_cases hkey : e.1 = key
      · simp [hkey, List.removeAll]
      · have hne : (key == e.1) = false := by simpa using Ne.symm hkey
        rw [if_neg (by simpa using hkey), List.map_cons, ih]
        simp only [List.removeAll, List.filter_cons, List.filter_nil, List.elem_cons, hne,
          List.map_cons, List.cons_append]

/-- Elements are taken up under their keys, in the order in which these first appear. -/
theorem keys_gather (key : ξ → κ) (step : Option α → ξ → α) (xs : List ξ) :
    (gather key step xs).map Prod.fst = (xs.map key).eraseDups := by
  induction xs using List.reverseRecOn with
  | nil => rfl
  | append_singleton xs x ih =>
      have hone : ∀ ks : List κ, ([key x].removeAll ks).eraseDups = [key x].removeAll ks.eraseDups := by
        intro ks
        by_cases h : key x ∈ ks <;> simp [List.removeAll, List.eraseDups_cons, h]
      rw [gather_concat, keys_insert, ih, List.map_append, List.map_singleton,
        List.eraseDups_append, hone]

/-- The keys that writes leave are those that were written, in the order in which they
first appear. -/
theorem keys_ofList (es : List (κ × α)) :
    (ofList es).map Prod.fst = (es.map Prod.fst).eraseDups := by
  rw [ofList_eq_gather, keys_gather]

/-- Under a key stand the elements with that key, joined in their order. -/
theorem get?_gather (key : ξ → κ) (step : Option α → ξ → α) (xs : List ξ) (k : κ) :
    get? k (gather key step xs)
      = (xs.filter (key · == k)).foldl (fun v x => some (step v x)) none := by
  induction xs using List.reverseRecOn with
  | nil => rfl
  | append_singleton xs x ih =>
      rw [gather_concat, get?_insert, List.filter_append, List.foldl_append, ← ih]
      by_cases hk : key x = k <;> simp [hk]

/-- Joining from nothing, where nothing counts as a start value, is joining from that value. -/
theorem getD_foldl_some (init : α) (step : α → ξ → α) (xs : List ξ) (v : Option α) :
    (xs.foldl (fun v x => some (step (v.getD init) x)) v).getD init
      = xs.foldl step (v.getD init) := by
  induction xs generalizing v with
  | nil => rfl
  | cons x xs ih => exact ih _

/-- Under a key stand the elements with that key, joined from a start value. -/
theorem getD_get?_gather (key : ξ → κ) (init : α) (step : α → ξ → α) (xs : List ξ) (k : κ) :
    (get? k (gather key (fun v x => step (v.getD init) x) xs)).getD init
      = (xs.filter (key · == k)).foldl step init := by
  rw [get?_gather, getD_foldl_some]
  rfl

/-- Where the keys are distinct, an entry is what is found under its key. -/
theorem mem_iff_get?_eq_some {es : List (κ × α)} (hkeys : (es.map Prod.fst).Nodup) (k : κ) (v : α) :
    (k, v) ∈ es ↔ get? k es = some v := by
  induction es with
  | nil => simp
  | cons e es ih =>
      rw [List.map_cons, List.nodup_cons] at hkeys
      rw [List.mem_cons, get?_cons, ih hkeys.2]
      by_cases hk : e.1 = k
      -- An entry behind with the same key would repeat it.
      · have hnone : ¬ get? k es = some v := by
          intro hfound
          obtain ⟨k', hmem, hk'⟩ := exists_mem_of_get? hfound
          rw [eq_of_beq hk', ← hk] at hmem
          exact hkeys.1 (List.mem_map.mpr ⟨_, hmem, rfl⟩)
        simp [hk, hnone, Prod.ext_iff, eq_comm]
      · simp [hk, Prod.ext_iff, Ne.symm hk]

/-- No key stands twice among what was taken up. -/
theorem nodup_keys_gather (key : ξ → κ) (step : Option α → ξ → α) (xs : List ξ) :
    ((gather key step xs).map Prod.fst).Nodup := by
  induction xs using List.reverseRecOn with
  | nil => exact List.nodup_nil
  | append_singleton xs x ih =>
      rw [gather_concat, keys_insert, List.nodup_append]
      refine ⟨ih, ?_, ?_⟩
      · exact List.Pairwise.filter _ (List.pairwise_singleton _ _)
      · intro k hk k' hk' heq
        rw [List.removeAll, List.mem_filter] at hk'
        simp [← heq, hk] at hk'

/-- A list without its repetitions has none. -/
theorem nodup_eraseDups (ks : List κ) : ks.eraseDups.Nodup := by
  have h := nodup_keys_gather (fun k : κ => k) (fun _ _ => ()) ks
  rwa [keys_gather, List.map_id'] at h

/-- An entry of what was taken up is what is found under its key. -/
theorem mem_gather_iff (key : ξ → κ) (step : Option α → ξ → α) (xs : List ξ) (k : κ) (v : α) :
    (k, v) ∈ gather key step xs ↔ get? k (gather key step xs) = some v :=
  mem_iff_get?_eq_some (nodup_keys_gather key step xs) k v

/-- What later writes leave comes before what was there. -/
theorem get?_insertAll (old new : List (κ × α)) (k : κ) :
    get? k (insertAll old new) = (get? k (ofList new)).or (get? k old) := by
  induction new using List.reverseRecOn with
  | nil => rfl
  | append_singleton new e ih =>
      rw [ofList, insertAll_append, insertAll_append, insertAll_cons, insertAll_cons, insertAll_nil,
        insertAll_nil, get?_insert, get?_insert, ih]
      split <;> rfl

/-- What writes leave under a key is what was written there last. -/
theorem get?_ofList (es : List (κ × α)) (k : κ) :
    get? k (ofList es) = (es.filter (·.1 == k)).getLast?.map Prod.snd := by
  induction es using List.reverseRecOn with
  | nil => rfl
  | append_singleton es e ih =>
      rw [ofList_eq_gather, gather_concat, ← ofList_eq_gather, get?_insert, ih, List.filter_append]
      by_cases hk : (e.1 == k) = true <;> simp [hk]

/-- Every entry that writes leave was written. -/
theorem mem_of_get?_ofList {es : List (κ × α)} {k : κ} {v : α} (h : get? k (ofList es) = some v) :
    (k, v) ∈ es := by
  rw [get?_ofList] at h
  obtain ⟨e, hlast, rfl⟩ := Option.map_eq_some_iff.mp h
  obtain ⟨hmem, hk⟩ := List.mem_filter.mp (List.mem_of_getLast? hlast)
  rwa [← eq_of_beq hk]

/-- Under every key that is written there is something. -/
theorem exists_get?_ofList {es : List (κ × α)} {e : κ × α} (h : e ∈ es) :
    ∃ v, get? e.1 (ofList es) = some v := by
  rw [← Option.ne_none_iff_exists', ne_eq, get?_eq_none_iff, keys_ofList, List.mem_eraseDups,
    not_not]
  exact List.mem_map_of_mem h

/-- An entry that writes leave is what is found under its key. -/
theorem mem_ofList_iff (es : List (κ × α)) (k : κ) (v : α) :
    (k, v) ∈ ofList es ↔ get? k (ofList es) = some v := by
  rw [ofList_eq_gather]
  exact mem_gather_iff Prod.fst _ es k v

/-- An entry that a write leaves is the written one or was there. -/
theorem eq_or_mem_of_mem_insert {e f : κ × α} {es : List (κ × α)} (h : f ∈ insert e.1 e.2 es) :
    f = e ∨ f ∈ es := by
  induction es with
  | nil => exact .inl (List.mem_singleton.mp h)
  | cons g es ih =>
      rw [insert_cons] at h
      split at h
      · rename_i hk
        rcases List.mem_cons.mp h with rfl | h
        · exact .inl (by rw [eq_of_beq hk])
        · exact .inr (List.mem_cons_of_mem _ h)
      · rcases List.mem_cons.mp h with rfl | h
        · exact .inr List.mem_cons_self
        · exact (ih h).imp_right (List.mem_cons_of_mem _)

/-- A write goes to the first part of the entries, if its key is there, or else to the second. -/
theorem exists_insert_append (kept added : List (κ × α)) (e : κ × α) : ∃ kept' added',
    insert e.1 e.2 (kept ++ added) = kept' ++ added' ∧
      kept'.map Prod.fst = kept.map Prod.fst ∧ ∀ f ∈ added', f = e ∨ f ∈ added := by
  induction kept with
  | nil => exact ⟨[], insert e.1 e.2 added, rfl, rfl, fun f hf => eq_or_mem_of_mem_insert hf⟩
  | cons f kept ih =>
      rw [List.cons_append, insert_cons]
      split
      · exact ⟨(f.1, e.2) :: kept, added, rfl, rfl, fun g hg => .inr hg⟩
      · obtain ⟨kept', added', heq, hkeys, hadded⟩ := ih
        exact ⟨f :: kept', added', by rw [heq]; rfl, by simp [hkeys], hadded⟩

/-- Writes replace values where they are, or add entries behind the others. -/
theorem exists_insertAll_eq_append (old new : List (κ × α)) :
    ∃ kept added, insertAll old new = kept ++ added ∧ kept.map Prod.fst = old.map Prod.fst ∧
      ∀ e ∈ added, e ∈ new := by
  induction new using List.reverseRecOn with
  | nil => exact ⟨old, [], by simp, rfl, by simp⟩
  -- From the right, as the last entry is the last one that is put in.
  | append_singleton new e ih =>
      obtain ⟨kept, added, heq, hkeys, hadded⟩ := ih
      obtain ⟨kept', added', heq', hkeys', hadded'⟩ := exists_insert_append kept added e
      refine ⟨kept', added', ?_, hkeys'.trans hkeys, ?_⟩
      · rw [insertAll_append, heq]
        exact heq'
      · intro f hf
        rcases hadded' f hf with rfl | hf
        · simp
        · simp [hadded f hf]

end

/-- Under scalars or under what they are compared by, a write is the same. -/
theorem map_key_insert (k : Scalar) (v : α) (es : List (Scalar × α)) :
    (insert k v es).map (fun e => (e.1.key, e.2))
      = insert k.key v (es.map fun e => (e.1.key, e.2)) := by
  induction es with
  | nil => rfl
  | cons e es ih =>
      rw [insert_cons, List.map_cons, insert_cons, Scalar.beq_eq]
      by_cases hk : e.1.key = k.key
      · simp [hk]
      · simp [hk, ih]

/-- Entries under scalars are written as those under what the scalars are compared by. -/
theorem map_key_ofList (es : List (Scalar × α)) :
    (ofList es).map (fun e => (e.1.key, e.2)) = ofList (es.map fun e => (e.1.key, e.2)) := by
  induction es using List.reverseRecOn with
  | nil => rfl
  | append_singleton es e ih =>
      rw [ofList, insertAll_append, insertAll_cons, insertAll_nil, map_key_insert, ← ofList, ih,
        List.map_append, ofList, ofList, insertAll_append]
      rfl

/-! ### Two lists of entries side by side -/

/-- Lists whose elements are related in each of a family of ways, one by one. -/
theorem forall₂_of_forall {ι α β : Type} [Nonempty ι] {Rs : ι → α → β → Prop} {as : List α}
    {bs : List β} (h : ∀ i, List.Forall₂ (Rs i) as bs) :
    List.Forall₂ (fun a b => ∀ i, Rs i a b) as bs := by
  rw [List.forall₂_iff_zip]
  refine ⟨(h (Classical.arbitrary ι)).length_eq, fun hmem i => ?_⟩
  exact (List.forall₂_iff_zip.mp (h i)).2 hmem

/-- Lists that are both related to a third, one by one. -/
theorem forall₂_join {α β γ : Type} {R : α → γ → Prop} {R' : β → γ → Prop} {R'' : α → β → Prop}
    (hR : ∀ a b c, R a c → R' b c → R'' a b) {as : List α} {bs : List β} {cs : List γ}
    (h : List.Forall₂ R as cs) (h' : List.Forall₂ R' bs cs) : List.Forall₂ R'' as bs := by
  induction h generalizing bs with
  | nil =>
      cases h'
      exact .nil
  | cons hac _ ih =>
      cases h' with
      | cons hbc hs => exact .cons (hR _ _ _ hac hbc) (ih hs)

/-- Optional values that are related in each of a family of ways. -/
theorem optionRel_of_forall {ι α β : Type} [Nonempty ι] {Rs : ι → α → β → Prop} {R : α → β → Prop}
    (hR : ∀ a b, (∀ i, Rs i a b) → R a b) {a : Option α} {b : Option β}
    (h : ∀ i, Option.Rel (Rs i) a b) : Option.Rel R a b := by
  cases h (Classical.arbitrary ι) with
  | none => exact .none
  | some _ =>
      refine .some (hR _ _ fun i => ?_)
      cases h i with
      | some h => exact h

/-- Optional values that are both related to a third. -/
theorem optionRel_join {α β γ : Type} {R : α → γ → Prop} {R' : β → γ → Prop} {R'' : α → β → Prop}
    (hR : ∀ a b c, R a c → R' b c → R'' a b) {a : Option α} {b : Option β} {c : Option γ}
    (h : Option.Rel R a c) (h' : Option.Rel R' b c) : Option.Rel R'' a b := by
  cases h with
  | none =>
      cases h'
      exact .none
  | some h =>
      cases h' with
      | some h' => exact .some (hR _ _ _ h h')

/-- Two optional values, or related ones in their place. -/
theorem getD_of_rel {R : α → β → Prop} {a : Option α} {b : Option β} (h : Option.Rel R a b)
    {x : α} {y : β} (hxy : R x y) : R (a.getD x) (b.getD y) := by
  cases h with
  | some h => exact h
  | none => exact hxy

/-- Entries with the same keys in the same order, whose values `R` relates. -/
def Matched (R : κ → α → β → Prop) : List (κ × α) → List (κ × β) → Prop :=
  List.Forall₂ fun e f => e.1 = f.1 ∧ R e.1 e.2 f.2

/-- A relation on values that does not tell apart keys that are like each other. -/
def Respects (R : κ → α → β → Prop) : Prop :=
  ∀ ⦃k k' : κ⦄, (k == k') = true → ∀ ⦃a : α⦄ ⦃b : β⦄, R k a b → R k' a b

section
variable {R : κ → α → β → Prop} {es : List (κ × α)} {fs : List (κ × β)}

omit [BEq κ] in
/-- Matched lists are both empty or both not. -/
theorem Matched.isEmpty_eq (h : Matched R es fs) : es.isEmpty = fs.isEmpty := by
  cases h <;> rfl

omit [BEq κ] in
/-- Entries whose values are related in each of a family of ways. -/
theorem Matched.of_forall {ι : Type} [Nonempty ι] {Rs : ι → κ → α → β → Prop}
    (hR : ∀ k a b, (∀ i, Rs i k a b) → R k a b) (h : ∀ i, Matched (Rs i) es fs) :
    Matched R es fs :=
  (forall₂_of_forall h).imp fun e f hef =>
    ⟨(hef (Classical.arbitrary ι)).1, hR e.1 e.2 f.2 fun i => (hef i).2⟩

omit [BEq κ] in
/-- Entries whose values are both related to those of a third list. -/
theorem Matched.join {γ : Type} {R' : κ → γ → β → Prop} {R'' : κ → α → γ → Prop}
    {gs : List (κ × γ)} (h : Matched R es fs) (h' : Matched R' gs fs)
    (hR : ∀ k a c b, R k a b → R' k c b → R'' k a c) : Matched R'' es gs := by
  refine forall₂_join (fun e g f hef hgf => ?_) h h'
  have hkey : e.1 = g.1 := hef.1.trans hgf.1.symm
  exact ⟨hkey, hR e.1 e.2 g.2 f.2 hef.2 (hkey ▸ hgf.2)⟩

/-- Look-ups under one key find related values, or find nothing in both. -/
theorem Matched.get? (hR : Respects R) (h : Matched R es fs) (key : κ) :
    Option.Rel (R key) (Entries.get? key es) (Entries.get? key fs) := by
  induction h with
  | nil => exact .none
  | @cons e f es fs hef _ ih =>
      obtain ⟨hk, hv⟩ := hef
      rw [get?_cons, get?_cons, ← hk]
      split
      · rename_i hkey
        exact .some (hR hkey hv)
      · exact ih

variable [EquivBEq κ]

/-- Writing related values under one key. Where the key is present, the entry keeps its own
key, which is like the one written. -/
theorem Matched.insert (hR : Respects R) (h : Matched R es fs) {key : κ} {a : α} {b : β}
    (hab : R key a b) : Matched R (Entries.insert key a es) (Entries.insert key b fs) := by
  induction h with
  | nil => exact .cons ⟨rfl, hab⟩ .nil
  | @cons e f es fs hef htail ih =>
      obtain ⟨hk, hv⟩ := hef
      rw [insert_cons, insert_cons, ← hk]
      split
      · rename_i hkey
        exact .cons ⟨rfl, hR (BEq.symm hkey) hab⟩ htail
      · exact .cons ⟨hk, hv⟩ ih

/-- Writing related values under the same keys, one after the other. -/
theorem Matched.insertAll (hR : Respects R) (h : Matched R es fs) {new : List (κ × α)}
    {new' : List (κ × β)} (hnew : Matched R new new') :
    Matched R (Entries.insertAll es new) (Entries.insertAll fs new') := by
  induction hnew generalizing es fs with
  | nil => exact h
  | @cons e f new new' hef _ ih =>
      obtain ⟨hk, hv⟩ := hef
      rw [insertAll_cons, insertAll_cons, ← hk]
      exact ih (h.insert hR hv)

/-- The same from no entries. Documents are put together this way, so their parts need only be
related one by one. -/
theorem Matched.ofList (hR : Respects R) (h : Matched R es fs) :
    Matched R (Entries.ofList es) (Entries.ofList fs) :=
  Matched.insertAll hR (.nil : Matched R [] []) h

end

/-- A relation that does not look at the key. -/
theorem respects_const (R : α → β → Prop) : Respects (κ := κ) fun _ => R :=
  fun _ _ _ _ _ h => h

/-- What holds of all values that are written holds of all that are left. -/
theorem forall_ofList [EquivBEq κ] {P : α → Prop} {es : List (κ × α)} (h : ∀ e ∈ es, P e.2) :
    ∀ e ∈ ofList es, P e.2 := by
  have hself : Matched (fun _ a (_ : α) => P a) es es :=
    List.forall₂_same.mpr fun e he => ⟨rfl, h e he⟩
  exact fun e he => (List.forall₂_same.mp (hself.ofList (respects_const _)) e he).2

/-- Adding related values to the lists under one key. -/
theorem Matched.append {R : α → β → Prop} {es : List (κ × List α)} {fs : List (κ × List β)}
    (h : Matched (fun _ => List.Forall₂ R) es fs) (key : κ) {a : α} {b : β} (hab : R a b) :
    Matched (fun _ => List.Forall₂ R) (Entries.append key a es) (Entries.append key b fs) := by
  have hone : List.Forall₂ R [a] [b] := .cons hab .nil
  induction h with
  | nil => exact .cons ⟨rfl, hone⟩ .nil
  | @cons e f es fs hef htail ih =>
      obtain ⟨hk, hv⟩ := hef
      rw [Entries.append, Entries.append, ← hk]
      split
      · exact .cons ⟨rfl, List.rel_append hv hone⟩ htail
      · exact .cons ⟨rfl, hv⟩ ih

end Entries

end RouteDocs
