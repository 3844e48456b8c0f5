/-
FlyDesk/Lib/StableSort.lean

Stable sorting by a key.  `StableSort key l l'` says `l'` is `l` sorted by
`key`, entries of equal keys in the order `l` has them in.  Merge sort sorts
this way.
-/
import Mathlib.Order.Lattice
import Mathlib.Data.List.Basic

namespace Lib

variable {α κ : Type*} [LinearOrder κ]

/-- `l'` is the stable sort of `l` by `key`. -/
structure StableSort (key : α → κ) (l l' : List α) : Prop where
  perm : l'.Perm l
  sorted : l'.Pairwise fun a b => key a ≤ key b
  stable : ∀ k, l'.filter (fun a => key a = k) = l.filter fun a => key a = k

/-- `a` may stand before `b`. -/
def leBy (key : α → κ) (a b : α) : Bool := key a ≤ key b

/-- Sorting a list by a key. -/
def sortBy (key : α → κ) (l : List α) : List α := l.mergeSort (leBy key)

variable {key : α → κ}

theorem leBy_trans (a b c : α) (hab : leBy key a b) (hbc : leBy key b c) : leBy key a c :=
  decide_eq_true (le_trans (of_decide_eq_true hab) (of_decide_eq_true hbc))

theorem leBy_total (a b : α) : leBy key a b || leBy key b a := by
  simpa [leBy] using le_total (key a) (key b)

/-- The entries of one key are sorted as they stand. -/
theorem pairwise_filter_key (k : κ) (l : List α) :
    (l.filter fun a => key a = k).Pairwise fun a b => leBy key a b := by
  refine List.pairwise_of_forall_mem_list fun a ha b hb => ?_
  have ha : key a = k := by simpa using (List.mem_filter.mp ha).2
  have hb : key b = k := by simpa using (List.mem_filter.mp hb).2
  exact decide_eq_true (le_of_eq (ha.trans hb.symm))

/-- Sorted lists that agree in the entries of every key are equal. -/
theorem eq_of_filter_key {l l' : List α} (hl : l.Pairwise fun a b => key a ≤ key b)
    (hl' : l'.Pairwise fun a b => key a ≤ key b)
    (h : ∀ k, l.filter (fun a => key a = k) = l'.filter fun a => key a = k) : l = l' := by
  have hmem : ∀ {l l' : List α}, (∀ k, l.filter (fun a => key a = k) =
      l'.filter fun a => key a = k) → ∀ a ∈ l, a ∈ l' := by
    intro l l' h a ha
    have hfound : a ∈ l.filter fun b => key b = key a := by simpa using ha
    rw [h] at hfound
    exact List.mem_of_mem_filter hfound
  induction l generalizing l' with
  | nil =>
      symm
      exact List.eq_nil_iff_forall_not_mem.mpr fun a ha =>
        List.not_mem_nil (hmem (fun k => (h k).symm) a ha)
  | cons a l ih =>
      obtain - | ⟨b, l'⟩ := l'
      · cases hmem h a List.mem_cons_self
      -- each head is least in both lists, so it leads the entries of its key
      · have hab : key a = key b := by
          apply le_antisymm
          · rcases List.mem_cons.mp (hmem (fun k => (h k).symm) b List.mem_cons_self) with rfl | hb
            · exact le_rfl
            · exact List.rel_of_pairwise_cons hl hb
          · rcases List.mem_cons.mp (hmem h a List.mem_cons_self) with rfl | ha
            · exact le_rfl
            · exact List.rel_of_pairwise_cons hl' ha
        have hhead := h (key b)
        rw [List.filter_cons_of_pos (by simpa using hab), List.filter_cons_of_pos (by simp)]
          at hhead
        obtain ⟨rfl, -⟩ := List.cons.inj hhead
        refine congrArg (List.cons a) (ih hl.of_cons hl'.of_cons fun k => ?_)
        have hk := h k
        rw [List.filter_cons, List.filter_cons] at hk
        split_ifs at hk with hak
        · exact (List.cons.inj hk).2
        · exact hk

/-- Sorting leaves a sorted list as it is. -/
theorem StableSort.eq_self {l l' : List α} (h : StableSort key l l')
    (hl : l.Pairwise fun a b => key a ≤ key b) : l' = l :=
  eq_of_filter_key h.sorted hl h.stable

/-- **Merge sort is stable.** -/
theorem sortBy_stable (key : α → κ) (l : List α) : StableSort key l (sortBy key l) where
  perm := List.mergeSort_perm l _
  sorted := (List.pairwise_mergeSort leBy_trans leBy_total l).imp of_decide_eq_true
  stable := by
    intro k
    -- a sorted sublist stays in order, and no entry of the key is new
    have hkept : (l.filter fun a => key a = k).Sublist (sortBy key l) :=
      List.sublist_mergeSort leBy_trans leBy_total (pairwise_filter_key k l) List.filter_sublist
    have hsub := hkept.filter fun a => decide (key a = k)
    rw [List.filter_filter] at hsub
    simp only [Bool.and_self] at hsub
    have hlen := ((List.mergeSort_perm l (leBy key)).filter fun a => decide (key a = k)).length_eq
    exact (hsub.eq_of_length hlen.symm).symm

end Lib
