/-
FlyDesk/Lib/Totals.lean

Sums over the processes of a system.  A move of one process changes such a
total by what that process gained or lost, so a total can count how many
processes hold a resource, or how many moves are left in all of them.
-/
import FlyDesk.Lib.Interleave
import Mathlib.Algebra.BigOperators.Group.Finset.Piecewise

namespace Lib

variable {ι σ π α ε : Type*} [DecidableEq ι] [Fintype ι]
variable {f : σ → π → α → Option (σ × π)} {g : σ → ε → Option σ}
variable {s t : System ι σ π}

/-- What the processes weigh together. -/
def System.total (w : π → ℕ) (s : System ι σ π) : ℕ := ∑ i, w (s.procs i)

/-- A move of one process changes the total by what it changed in that
process. -/
theorem System.total_proc (w : π → ℕ) {i : ι} {a : α}
    (h : s.step f g (.proc i a) = some t) :
    ∃ p, f s.shared (s.procs i) a = some (t.shared, p) ∧
      t.total w + w (s.procs i) = s.total w + w p := by
  obtain ⟨v, p, hf, rfl⟩ := System.step_proc h
  refine ⟨p, hf, ?_⟩
  have hupdate : (fun j => w (Function.update s.procs i p j))
      = Function.update (fun j => w (s.procs j)) i (w p) := by
    funext j
    exact Function.apply_update (fun _ => w) s.procs i p j
  have hsum : s.total w = w (s.procs i) + ∑ j ∈ Finset.univ \ {i}, w (s.procs j) :=
    Finset.sum_eq_add_sum_sdiff_singleton_of_mem (Finset.mem_univ i) _
  show (∑ j, w (Function.update s.procs i p j)) + w (s.procs i) = s.total w + w p
  rw [hupdate, Finset.sum_update_of_mem (Finset.mem_univ i), hsum]
  omega

theorem System.total_env (w : π → ℕ) {e : ε} (h : s.step f g (.env e : Move ι α ε) = some t) :
    t.total w = s.total w := by
  obtain ⟨v, -, rfl⟩ := System.step_env h
  rfl

omit [DecidableEq ι] in
/-- Where the total is positive some process weighs something. -/
theorem System.exists_of_total_pos {w : π → ℕ} (h : 0 < s.total w) :
    ∃ i, 0 < w (s.procs i) := by
  by_contra hno
  push Not at hno
  have hzero : s.total w = 0 := Finset.sum_eq_zero fun i _ => Nat.le_zero.mp (hno i)
  omega

end Lib
