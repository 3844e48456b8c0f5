/-
FlyDesk/Lib/Budget.lean

Budgets of moves.  Every process has some moves left in what it is doing, at
most `left`; a move takes one away, and a move that begins something new may
`grant` some.  Then the moves of a process are bounded by what it was granted,
whatever the other processes do between them (`System.budget`), and the moves of
one piece of work by what the work may take (`System.piece_le`).
-/
import FlyDesk.Lib.Interleave
import Mathlib.Algebra.BigOperators.Group.List.Basic
import Mathlib.Algebra.Order.Ring.Nat

namespace Lib

variable {ι σ π α ε : Type*} [DecidableEq ι]

/-- The action of process `i` in a move, if it is one of its moves. -/
def Move.actionOf (i : ι) : Move ι α ε → Option α
  | .proc j a => if j = i then some a else none
  | .env _ => none

/-- The actions of process `i` in a run. -/
def actionsOf (i : ι) (steps : List (System ι σ π × Move ι α ε)) : List α :=
  steps.filterMap fun p => p.2.actionOf i

@[simp] theorem actionsOf_nil (i : ι) :
    actionsOf i ([] : List (System ι σ π × Move ι α ε)) = [] := rfl

theorem actionsOf_eq (i : ι) (steps : List (System ι σ π × Move ι α ε)) :
    actionsOf i steps = (steps.map Prod.snd).filterMap (Move.actionOf i) := by
  rw [actionsOf, List.filterMap_map]
  rfl

theorem actionsOf_snoc_self {i : ι} {a : α} {s : System ι σ π}
    {steps : List (System ι σ π × Move ι α ε)} :
    actionsOf i (steps ++ [(s, .proc i a)]) = actionsOf i steps ++ [a] := by
  simp [actionsOf, Move.actionOf]

theorem actionsOf_snoc_other {i : ι} {m : Move ι α ε} {s : System ι σ π}
    {steps : List (System ι σ π × Move ι α ε)} (h : ∀ a, m ≠ .proc i a) :
    actionsOf i (steps ++ [(s, m)]) = actionsOf i steps := by
  have hnone : m.actionOf i = none := by
    cases m with
    | proc j a =>
        have hj : j ≠ i := by
          rintro rfl
          exact h a rfl
        simp [Move.actionOf, hj]
    | env e => rfl
  simp [actionsOf, hnone]

variable {f : σ → π → α → Option (σ × π)} {g : σ → ε → Option σ}
variable {s t : System ι σ π} {steps : List (System ι σ π × Move ι α ε)}

/-- **The budget rule.**  If every move of a process costs it one of the moves it
has left, but for what the move grants, then it makes at most as many moves as it
had and was granted, less what it has left. -/
theorem System.budget (left : π → ℕ) (grant : α → ℕ) {A : System ι σ π → Move ι α ε → Prop}
    (h : Trace (System.step f g) s steps t) (hok : ∀ p ∈ steps, A p.1 p.2) (i : ι)
    (hcost : ∀ {u : System ι σ π} {a w p}, A u (.proc i a) →
      f u.shared (u.procs i) a = some (w, p) → left p + 1 ≤ left (u.procs i) + grant a) :
    (actionsOf i steps).length + left (t.procs i) ≤
      left (s.procs i) + ((actionsOf i steps).map grant).sum := by
  refine h.history (I := fun l u => (actionsOf i l).length + left (u.procs i) ≤
    left (s.procs i) + ((actionsOf i l).map grant).sum) hok (by simp) ?_
  intro l u m v hI ho hs
  rcases System.still_or_moved hs i with ⟨hne, heq⟩ | ⟨a, rfl, hf⟩
  · rw [actionsOf_snoc_other hne, heq]
    exact hI
  · have hle := hcost ho hf
    rw [actionsOf_snoc_self, List.length_append, List.map_append, List.sum_append]
    simp only [List.length_singleton, List.map_singleton, List.sum_singleton]
    omega

/-- **One piece of work.**  If a process never has more moves left than its work may
take, what a move grants included, then it makes no more moves than that until one
begins something new. -/
theorem System.piece_le (left most : π → ℕ) (grant : α → ℕ)
    {A : System ι σ π → Move ι α ε → Prop} (h : Trace (System.step f g) s steps t)
    (hok : ∀ p ∈ steps, A p.1 p.2) (i : ι)
    (hcost : ∀ {u : System ι σ π} {a w p}, A u (.proc i a) →
      f u.shared (u.procs i) a = some (w, p) → left p + 1 ≤ left (u.procs i) + grant a)
    (hmost : ∀ {u : System ι σ π} {a w p}, A u (.proc i a) →
      f u.shared (u.procs i) a = some (w, p) → left (u.procs i) + grant a ≤ most (u.procs i))
    (hone : ∀ a ∈ (actionsOf i steps).tail, grant a = 0) :
    (actionsOf i steps).length ≤ most (s.procs i) := by
  have hbudget := System.budget left grant h hok i hcost
  -- until its first move the process is as it was in the beginning
  have hfirst : (actionsOf i steps = [] → t.procs i = s.procs i) ∧
      ∀ a ∈ (actionsOf i steps).head?, left (s.procs i) + grant a ≤ most (s.procs i) := by
    refine h.history (I := fun l u => (actionsOf i l = [] → u.procs i = s.procs i) ∧
      ∀ a ∈ (actionsOf i l).head?, left (s.procs i) + grant a ≤ most (s.procs i)) hok
      ⟨fun _ => rfl, by simp⟩ ?_
    rintro l u m v ⟨hsame, hhead⟩ ho hs
    rcases System.still_or_moved hs i with ⟨hne, heq⟩ | ⟨a, rfl, hf⟩
    · rw [actionsOf_snoc_other hne, heq]
      exact ⟨hsame, hhead⟩
    · rw [actionsOf_snoc_self]
      refine ⟨fun hnil => by simp at hnil, fun b hb => ?_⟩
      rcases hl : actionsOf i l with - | ⟨c, cs⟩
      · rw [hl] at hb
        obtain rfl : a = b := by simpa using hb
        have hle := hmost ho hf
        rwa [hsame hl] at hle
      · rw [hl] at hb hhead
        exact hhead b (by simpa using hb)
  rcases hl : actionsOf i steps with - | ⟨a, rest⟩
  · exact Nat.zero_le _
  · rw [hl] at hbudget hone hfirst
    have hhead := hfirst.2 a rfl
    have hrest : (rest.map grant).sum = 0 :=
      List.sum_eq_zero fun n hn => by
        obtain ⟨b, hb, rfl⟩ := List.mem_map.mp hn
        exact hone b hb
    rw [List.map_cons, List.sum_cons, hrest] at hbudget
    omega

/-- Where no move grants any, the moves left are all a process makes. -/
theorem System.moves_le (left : π → ℕ) {A : System ι σ π → Move ι α ε → Prop}
    (h : Trace (System.step f g) s steps t) (hok : ∀ p ∈ steps, A p.1 p.2) (i : ι)
    (hcost : ∀ {u : System ι σ π} {a w p}, A u (.proc i a) →
      f u.shared (u.procs i) a = some (w, p) → left p < left (u.procs i)) :
    (actionsOf i steps).length + left (t.procs i) ≤ left (s.procs i) := by
  have hbudget := System.budget left (fun _ => 0) h hok i fun hu hf => hcost hu hf
  simpa using hbudget

end Lib
