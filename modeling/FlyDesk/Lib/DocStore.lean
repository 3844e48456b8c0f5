/-
FlyDesk/Lib/DocStore.lean

A document collection with a primary key and one unique sparse index, and
single-document operations.

A field of a document is missing, null or a value, and the three are kept
apart because the index treats them differently: a unique sparse index
leaves out only the documents in which the field is missing, so two
documents with a null field collide exactly as two with the same value do.

`Collection` carries what the database enforces as fields, so a collection
with two documents under one `_id`, or with two documents colliding in the
index, cannot be built.  `Collection.replaceOne` is the upserting
replacement; `none` is the duplicate-key error.  Its two rules are
`mem_replaceOne` and `get_replaceOne`.
-/
import Mathlib.Data.List.Nodup
import Mathlib.Tactic.Common

namespace Lib

/-- A field of a document. -/
inductive DocField (κ : Type*)
  | missing
  | null
  | val (k : κ)
deriving DecidableEq, Repr

variable {κ ι δ : Type*}

/-- A serialiser that writes every field writes an absent value as null. -/
def DocField.ofOption : Option κ → DocField κ
  | none => .null
  | some k => .val k

/-- Reading a field that may be absent. -/
def DocField.toOption : DocField κ → Option κ
  | .val k => some k
  | _ => none

@[simp] theorem DocField.toOption_ofOption (o : Option κ) :
    (DocField.ofOption o).toOption = o := by
  cases o <;> rfl

@[simp] theorem DocField.ofOption_ne_missing (o : Option κ) :
    DocField.ofOption o ≠ .missing := by
  cases o <;> simp [DocField.ofOption]

/-- How the store reads a document: its `_id` and the indexed field. -/
class Document (δ : Type*) (ι κ : outParam (Type*)) where
  docId : δ → ι
  indexed : δ → DocField κ

open Document

variable [Document δ ι κ]

/-- Two documents collide in the unique sparse index. -/
def Conflict (d d' : δ) : Prop :=
  (indexed d : DocField κ) ≠ .missing ∧ (indexed d : DocField κ) = indexed d'

instance [DecidableEq κ] (d d' : δ) : Decidable (Conflict d d') :=
  inferInstanceAs (Decidable (_ ∧ _))

/-- The documents of a collection: one per `_id`, and no two of them
colliding in the index. -/
structure Collection (δ : Type*) [Document δ ι κ] where
  docs : List δ
  nodup_ids : (docs.map docId).Nodup
  unique : ∀ x ∈ docs, ∀ y ∈ docs, Conflict x y → docId x = docId y

namespace Collection

/-- The collection with no document. -/
def empty : Collection δ where
  docs := []
  nodup_ids := by simp
  unique := by simp

@[simp] theorem docs_empty : (empty : Collection δ).docs = [] := rfl

theorem eq_of_docId {c : Collection δ} {x y : δ} (hx : x ∈ c.docs) (hy : y ∈ c.docs)
    (h : docId x = docId y) : x = y :=
  List.inj_on_of_nodup_map c.nodup_ids hx hy h

/-- At most one document carries a value in the indexed field. -/
theorem eq_of_indexed {c : Collection δ} {x y : δ} {k : κ} (hx : x ∈ c.docs)
    (hy : y ∈ c.docs) (hxk : indexed x = .val k) (hyk : indexed y = .val k) :
    x = y := by
  refine eq_of_docId hx hy (c.unique x hx y hy ⟨?_, ?_⟩)
  · simp [hxk]
  · rw [hxk, hyk]

variable [DecidableEq ι] [DecidableEq κ]

/-! ### Finding documents -/

/-- `find_one({"_id": i})`. -/
def get (c : Collection δ) (i : ι) : Option δ :=
  c.docs.find? fun d => docId d = i

/-- `find_one` on a value of the indexed field. -/
def findIndexed (c : Collection δ) (k : κ) : Option δ :=
  c.docs.find? fun d => indexed d = .val k

/-- `ids` may be the documents `find(p).limit(n)` returns: distinct documents
of the collection that match, all of them unless the limit cuts them off.
The order, and which ones the limit keeps, are the database's choice. -/
def FindResult (c : Collection δ) (p : δ → Bool) (n : ℕ) (ids : List ι) : Prop :=
  ids.Nodup ∧ (∀ i ∈ ids, ∃ d ∈ c.docs, docId d = i ∧ p d) ∧
    ids.length = min n (c.docs.countP p)

instance (c : Collection δ) (p : δ → Bool) (n : ℕ) (ids : List ι) :
    Decidable (c.FindResult p n ids) :=
  inferInstanceAs (Decidable (_ ∧ _ ∧ _))

/-- The documents under the given ids. -/
def getAll (c : Collection δ) (ids : List ι) : List δ :=
  ids.filterMap c.get

omit [DecidableEq κ] in
theorem get_eq_some {c : Collection δ} {i : ι} {d : δ} :
    c.get i = some d ↔ d ∈ c.docs ∧ docId d = i := by
  constructor
  · intro h
    exact ⟨List.mem_of_find?_eq_some h, by simpa using List.find?_some h⟩
  · rintro ⟨hd, rfl⟩
    rcases h : c.get (docId d) with - | d'
    · have hno := List.find?_eq_none.mp h d hd
      simp at hno
    · have hd' : docId d' = docId d := by simpa using List.find?_some h
      exact congrArg some (eq_of_docId (List.mem_of_find?_eq_some h) hd hd')

omit [DecidableEq κ] in
theorem get_eq_none {c : Collection δ} {i : ι} :
    c.get i = none ↔ ∀ d ∈ c.docs, docId d ≠ i := by
  simp [get, List.find?_eq_none]

omit [DecidableEq κ] in
theorem mem_getAll {c : Collection δ} {ids : List ι} {d : δ} (h : d ∈ c.getAll ids) :
    d ∈ c.docs := by
  obtain ⟨i, _, hi⟩ := List.mem_filterMap.mp h
  exact (get_eq_some.mp hi).1

omit [DecidableEq κ] in
/-- The documents under ids that are all there. -/
theorem map_docId_getAll {c : Collection δ} {ids : List ι}
    (h : ∀ i ∈ ids, ∃ d ∈ c.docs, docId d = i) : (c.getAll ids).map docId = ids := by
  induction ids with
  | nil => rfl
  | cons i ids ih =>
      obtain ⟨hi, hids⟩ := List.forall_mem_cons.mp h
      obtain ⟨d, hd, hdi⟩ := hi
      rw [getAll, List.filterMap_cons_some (get_eq_some.mpr ⟨hd, hdi⟩), List.map_cons, hdi]
      exact congrArg _ (ih hids)

omit [DecidableEq κ] in
theorem FindResult.map_docId_getAll {c : Collection δ} {p : δ → Bool} {n : ℕ} {ids : List ι}
    (h : c.FindResult p n ids) : (c.getAll ids).map docId = ids := by
  refine Collection.map_docId_getAll fun i hi => ?_
  obtain ⟨d, hd, hid, -⟩ := h.2.1 i hi
  exact ⟨d, hd, hid⟩

omit [DecidableEq κ] in
/-- What the query returns is in the collection and matches. -/
theorem FindResult.mem_getAll {c : Collection δ} {p : δ → Bool} {n : ℕ} {ids : List ι} {d : δ}
    (h : c.FindResult p n ids) (hd : d ∈ c.getAll ids) : d ∈ c.docs ∧ p d = true := by
  have hdocs := Collection.mem_getAll hd
  obtain ⟨i, hi, hget⟩ := List.mem_filterMap.mp hd
  obtain ⟨d', hd', hid', hp⟩ := h.2.1 i hi
  have hid : docId d = i := (get_eq_some.mp hget).2
  obtain rfl := eq_of_docId hdocs hd' (hid.trans hid'.symm)
  exact ⟨hdocs, hp⟩

omit [DecidableEq ι] [DecidableEq κ] in
/-- The database has something to return. -/
theorem exists_findResult (c : Collection δ) (p : δ → Bool) (n : ℕ) :
    ∃ ids, c.FindResult p n ids := by
  refine ⟨((c.docs.filter p).take n).map docId, ?_, ?_, ?_⟩
  · exact c.nodup_ids.sublist (((List.take_sublist _ _).trans List.filter_sublist).map docId)
  · intro i hi
    obtain ⟨d, hd, rfl⟩ := List.mem_map.mp hi
    obtain ⟨hmem, hp⟩ := List.mem_filter.mp (List.mem_of_mem_take hd)
    exact ⟨d, hmem, rfl, hp⟩
  · rw [List.length_map, List.length_take, List.countP_eq_length_filter]

omit [DecidableEq ι] in
theorem findIndexed_eq_some {c : Collection δ} {k : κ} {d : δ} :
    c.findIndexed k = some d ↔ d ∈ c.docs ∧ indexed d = .val k := by
  constructor
  · intro h
    exact ⟨List.mem_of_find?_eq_some h, by simpa using List.find?_some h⟩
  · rintro ⟨hd, hk⟩
    rcases h : c.findIndexed k with - | d'
    · have hno := List.find?_eq_none.mp h d hd
      simp [hk] at hno
    · have hk' : indexed d' = DocField.val k := by simpa using List.find?_some h
      exact congrArg some (eq_of_indexed (List.mem_of_find?_eq_some h) hd hk' hk)

omit [DecidableEq ι] in
theorem findIndexed_eq_none {c : Collection δ} {k : κ} :
    c.findIndexed k = none ↔ ∀ d ∈ c.docs, indexed d ≠ .val k := by
  simp [findIndexed, List.find?_eq_none]

/-! ### Replacing a document -/

/-- The documents after an upserting replacement: in place under an `_id`
that is there, at the end otherwise. -/
def upsert (l : List δ) (d : δ) : List δ :=
  if docId d ∈ l.map docId then l.map fun x => if docId x = docId d then d else x
  else l ++ [d]

omit [DecidableEq κ] in
theorem mem_upsert {l : List δ} {d x : δ} :
    x ∈ upsert l d ↔ x = d ∨ (x ∈ l ∧ docId x ≠ docId d) := by
  unfold upsert
  split
  · rename_i hmem
    obtain ⟨y, hy, hyd⟩ := List.mem_map.mp hmem
    constructor
    · intro hx
      obtain ⟨z, hz, rfl⟩ := List.mem_map.mp hx
      split
      · exact Or.inl rfl
      · exact Or.inr ⟨hz, by assumption⟩
    · rintro (rfl | ⟨hx, hne⟩)
      · exact List.mem_map.mpr ⟨y, hy, by simp [hyd]⟩
      · exact List.mem_map.mpr ⟨x, hx, by simp [hne]⟩
  · rename_i hmem
    simp only [List.mem_append, List.mem_singleton]
    constructor
    · rintro (hx | rfl)
      · exact Or.inr ⟨hx, fun he => hmem (List.mem_map.mpr ⟨x, hx, he⟩)⟩
      · exact Or.inl rfl
    · rintro (rfl | ⟨hx, _⟩)
      · exact Or.inr rfl
      · exact Or.inl hx

omit [DecidableEq κ] in
theorem nodup_upsert {l : List δ} {d : δ} (h : (l.map docId).Nodup) :
    ((upsert l d).map docId).Nodup := by
  unfold upsert
  split
  · -- in place: the list of ids does not change
    have hids : (l.map fun x => if docId x = docId d then d else x).map docId
        = l.map docId := by
      rw [List.map_map]
      refine List.map_congr_left fun x _ => ?_
      by_cases hx : docId x = docId d <;> simp [hx]
    rwa [hids]
  · rename_i hmem
    rw [List.map_append, List.nodup_append]
    refine ⟨h, by simp, fun a ha b hb => ?_⟩
    obtain rfl : b = docId d := by simpa using hb
    exact fun he => hmem (he ▸ ha)

/-- `replace_one({"_id": …}, d, upsert=True)`; `none` is the duplicate-key
error of the unique index. -/
def replaceOne (c : Collection δ) (d : δ) : Option (Collection δ) :=
  if h : ∃ x ∈ c.docs, docId x ≠ docId d ∧ Conflict x d then none
  else some
    { docs := upsert c.docs d
      nodup_ids := nodup_upsert c.nodup_ids
      unique := by
        push Not at h
        intro x hx y hy hxy
        rcases mem_upsert.mp hx with rfl | ⟨hx', hxd⟩
        · rcases mem_upsert.mp hy with rfl | ⟨hy', hyd⟩
          · rfl
          · have hyx : Conflict y x := ⟨hxy.2 ▸ hxy.1, hxy.2.symm⟩
            exact absurd hyx (h y hy' hyd)
        · rcases mem_upsert.mp hy with rfl | ⟨hy', hyd⟩
          · exact absurd hxy (h x hx' hxd)
          · exact c.unique x hx' y hy' hxy }

theorem replaceOne_eq_none {c : Collection δ} {d : δ} :
    c.replaceOne d = none ↔ ∃ x ∈ c.docs, docId x ≠ docId d ∧ Conflict x d := by
  unfold replaceOne
  split
  · simp_all
  · simp_all

theorem docs_replaceOne {c c' : Collection δ} {d : δ} (h : c.replaceOne d = some c') :
    c'.docs = upsert c.docs d := by
  unfold replaceOne at h
  split at h
  · cases h
  · obtain rfl := Option.some.inj h
    rfl

/-- After a replacement: the new document, and every old one under another
`_id`. -/
theorem mem_replaceOne {c c' : Collection δ} {d x : δ}
    (h : c.replaceOne d = some c') :
    x ∈ c'.docs ↔ x = d ∨ (x ∈ c.docs ∧ docId x ≠ docId d) := by
  rw [docs_replaceOne h, mem_upsert]

theorem get_replaceOne {c c' : Collection δ} {d : δ}
    (h : c.replaceOne d = some c') (i : ι) :
    c'.get i = if i = docId d then some d else c.get i := by
  split
  · rename_i hi
    exact get_eq_some.mpr ⟨(mem_replaceOne h).mpr (Or.inl rfl), hi.symm⟩
  · rename_i hi
    rcases hg : c.get i with - | x
    · rw [get_eq_none] at hg ⊢
      intro y hy hyi
      rcases (mem_replaceOne h).mp hy with rfl | ⟨hy, _⟩
      · exact hi hyi.symm
      · exact hg y hy hyi
    · obtain ⟨hx, hxi⟩ := get_eq_some.mp hg
      refine get_eq_some.mpr ⟨(mem_replaceOne h).mpr (Or.inr ⟨hx, ?_⟩), hxi⟩
      exact fun he => hi (hxi ▸ he)

end Collection

end Lib
