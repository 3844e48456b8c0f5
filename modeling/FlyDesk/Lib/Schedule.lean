/-
FlyDesk/Lib/Schedule.lean

Jobs that share a bounded number of slots.  A schedule is a list of entries, each taking
some time, and `busy` says which jobs have a slot meanwhile.  Nothing is said about how
the slots are handed out but that none is left free while the job waits (`Served`): in
every entry that takes time the job is busy, or `K` other jobs are.

`elapsed_le` is the bound of list scheduling, with the time that a job has a slot for its
work: what `K` slots do while a job waits is the work of the others.  With a slot for every
job nobody waits (`elapsed_eq_spent`).
-/
import Mathlib.Algebra.Order.BigOperators.Group.Finset
import Mathlib.Algebra.Order.Ring.Defs
import Mathlib.Algebra.BigOperators.Ring.Finset
import Mathlib.Data.Fintype.Card
import Mathlib.Tactic.Linarith

namespace Lib

variable {β ι R : Type*} [CommRing R]
variable {takes : β → R} {busy : β → ι → Bool} {steps : List β} {K : ℕ} {i : ι}

/-- How long it all takes. -/
def elapsed (takes : β → R) (steps : List β) : R := (steps.map takes).sum

/-- What an entry gives to job `i`. -/
def share (takes : β → R) (busy : β → ι → Bool) (i : ι) (p : β) : R :=
  if busy p i then takes p else 0

/-- How long job `i` has a slot. -/
def spent (takes : β → R) (busy : β → ι → Bool) (i : ι) (steps : List β) : R :=
  (steps.map (share takes busy i)).sum

@[simp] theorem elapsed_append (steps steps' : List β) :
    elapsed takes (steps ++ steps') = elapsed takes steps + elapsed takes steps' := by
  simp [elapsed]

@[simp] theorem spent_append (steps steps' : List β) :
    spent takes busy i (steps ++ steps') =
      spent takes busy i steps + spent takes busy i steps' := by
  simp [spent]

@[simp] theorem elapsed_singleton (p : β) : elapsed takes [p] = takes p := by
  simp [elapsed]

@[simp] theorem spent_singleton (p : β) :
    spent takes busy i [p] = share takes busy i p := by
  simp [spent]

/-- Job `i` is busy, or `K` others are, unless no time passes. -/
def Served [Fintype ι] [DecidableEq ι] (takes : β → R) (busy : β → ι → Bool) (K : ℕ) (i : ι)
    (p : β) : Prop :=
  takes p = 0 ∨ busy p i = true ∨
    K ≤ ((Finset.univ.erase i).filter fun j => busy p j = true).card

variable [Fintype ι] [DecidableEq ι]

/-- With a slot for every job nobody waits. -/
theorem Served.share_eq {p : β} (hK : Fintype.card ι ≤ K) (h : Served takes busy K i p) :
    share takes busy i p = takes p := by
  rcases h with hzero | hbusy | hothers
  · rw [share, hzero, ite_self]
  · rw [share, if_pos hbusy]
  · -- there are too few others
    have hcard := hothers.trans (Finset.card_filter_le _ _)
    exact absurd (hcard.trans_lt (Finset.card_erase_lt_of_mem (Finset.mem_univ i)))
      (Nat.not_lt.mpr hK)

theorem elapsed_eq_spent (hK : Fintype.card ι ≤ K) (h : ∀ p ∈ steps, Served takes busy K i p) :
    elapsed takes steps = spent takes busy i steps :=
  congrArg List.sum (List.map_congr_left fun p hp => ((h p hp).share_eq hK).symm)

/-- An entry gives its time to every job that is busy. -/
theorem sum_share (p : β) :
    ∑ j ∈ Finset.univ.erase i, share takes busy j p =
      ((Finset.univ.erase i).filter fun j => busy p j = true).card * takes p := by
  simp only [share]
  rw [← Finset.sum_filter, Finset.sum_const, nsmul_eq_mul]

theorem sum_spent_cons (p : β) :
    ∑ j ∈ Finset.univ.erase i, spent takes busy j (p :: steps) =
      ∑ j ∈ Finset.univ.erase i, share takes busy j p +
        ∑ j ∈ Finset.univ.erase i, spent takes busy j steps := by
  simp only [spent, List.map_cons, List.sum_cons]
  exact Finset.sum_add_distrib

variable [LinearOrder R] [IsStrictOrderedRing R]

/-- What one entry takes, times the slots, is the work it does. -/
theorem Served.takes_le {p : β} (h : Served takes busy K i p) (hp : 0 ≤ takes p) :
    K * takes p ≤
      K * share takes busy i p + ∑ j ∈ Finset.univ.erase i, share takes busy j p := by
  have hothers : 0 ≤ ∑ j ∈ Finset.univ.erase i, share takes busy j p := by
    rw [sum_share]
    exact mul_nonneg (Nat.cast_nonneg _) hp
  by_cases hi : busy p i = true
  · rw [share, if_pos hi]
    exact le_add_of_nonneg_right hothers
  · rw [share, if_neg hi, mul_zero, zero_add]
    rcases h with hzero | hbusy | hK
    · rw [hzero, mul_zero]
      exact hothers
    · exact absurd hbusy hi
    · rw [sum_share]
      exact mul_le_mul_of_nonneg_right (Nat.cast_le.mpr hK) hp

/-- **The bound of list scheduling.**  While job `i` waits the `K` slots do the work of the
others. -/
theorem elapsed_le (htakes : ∀ p ∈ steps, 0 ≤ takes p)
    (h : ∀ p ∈ steps, Served takes busy K i p) :
    K * elapsed takes steps ≤
      K * spent takes busy i steps + ∑ j ∈ Finset.univ.erase i, spent takes busy j steps := by
  induction steps with
  | nil => simp [elapsed, spent]
  | cons p steps ih =>
      have hp := (h p List.mem_cons_self).takes_le (htakes p List.mem_cons_self)
      have hrest := ih (fun q hq => htakes q (List.mem_cons_of_mem p hq))
        fun q hq => h q (List.mem_cons_of_mem p hq)
      have htime : elapsed takes (p :: steps) = takes p + elapsed takes steps := by
        simp [elapsed]
      have hown : spent takes busy i (p :: steps) =
          share takes busy i p + spent takes busy i steps := by simp [spent]
      rw [htime, hown, sum_spent_cons]
      linarith

/-- The bound where no job has more work than `B`. -/
theorem elapsed_le_of_spent_le {B : R} (htakes : ∀ p ∈ steps, 0 ≤ takes p)
    (h : ∀ p ∈ steps, Served takes busy K i p) (hB : ∀ j, spent takes busy j steps ≤ B) :
    K * elapsed takes steps ≤ (K + (Fintype.card ι - 1 : ℕ)) * B := by
  have hown : K * spent takes busy i steps ≤ K * B :=
    mul_le_mul_of_nonneg_left (hB i) (Nat.cast_nonneg K)
  have hothers : ∑ j ∈ Finset.univ.erase i, spent takes busy j steps ≤
      (Fintype.card ι - 1 : ℕ) * B := by
    have hsum := Finset.sum_le_card_nsmul (Finset.univ.erase i)
      (fun j => spent takes busy j steps) B fun j _ => hB j
    rwa [Finset.card_erase_of_mem (Finset.mem_univ i), nsmul_eq_mul] at hsum
  have hbound := elapsed_le htakes h
  rw [add_mul]
  linarith

end Lib
