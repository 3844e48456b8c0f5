/-
FlyDesk/Lib/Interleave.lean

Processes interleaved over a shared state.  Each process is a local state;
one atomic step of process `i` reads and writes the shared state and its own
local state, and the environment may change the shared state by itself
(time passing, say).  Any process may move at any time, so a run of
`step f g` is an arbitrary interleaving of any number of processes.

`Assertions.Stable.run` is the proof rule: an invariant of the shared state, an
assertion about each process and one about each pair of processes hold along
every run if each step re-establishes its own part and disturbs nobody
else's.
-/
import FlyDesk.Lib.Trace
import Mathlib.Logic.Function.Basic

namespace Lib

variable {ι σ π α ε : Type*} [DecidableEq ι]

/-- A shared state and the local state of every process. -/
structure System (ι σ π : Type*) where
  shared : σ
  procs : ι → π

/-- What moves next: a process, or the environment. -/
inductive Move (ι α ε : Type*)
  | proc (i : ι) (a : α)
  | env (e : ε)

/-- One move of the system: a step `f` of one process, or a step `g` of the
environment. -/
def System.step (f : σ → π → α → Option (σ × π)) (g : σ → ε → Option σ)
    (s : System ι σ π) : Move ι α ε → Option (System ι σ π)
  | .proc i a => (f s.shared (s.procs i) a).map fun r =>
      { shared := r.1, procs := Function.update s.procs i r.2 }
  | .env e => (g s.shared e).map fun w => { s with shared := w }

variable {f : σ → π → α → Option (σ × π)} {g : σ → ε → Option σ}
variable {s t : System ι σ π}

/-- Inversion of a process move. -/
theorem System.step_proc {i : ι} {a : α} (h : s.step f g (.proc i a) = some t) :
    ∃ w p, f s.shared (s.procs i) a = some (w, p) ∧
      t = { shared := w, procs := Function.update s.procs i p } := by
  obtain ⟨⟨w, p⟩, hf, rfl⟩ := Option.map_eq_some_iff.mp h
  exact ⟨w, p, hf, rfl⟩

/-- Inversion of an environment move. -/
theorem System.step_env {e : ε} (h : s.step f g (.env e : Move ι α ε) = some t) :
    ∃ w, g s.shared e = some w ∧ t = { s with shared := w } := by
  obtain ⟨w, hg, rfl⟩ := Option.map_eq_some_iff.mp h
  exact ⟨w, hg, rfl⟩

/-- A move is one of process `j`, or `j` stays as it is. -/
theorem System.still_or_moved {m : Move ι α ε} (h : s.step f g m = some t) (j : ι) :
    ((∀ a, m ≠ .proc j a) ∧ t.procs j = s.procs j) ∨
      ∃ a, m = .proc j a ∧ f s.shared (s.procs j) a = some (t.shared, t.procs j) := by
  cases m with
  | proc i a =>
      obtain ⟨w, p, hf, rfl⟩ := System.step_proc h
      by_cases hj : j = i
      · subst hj
        refine Or.inr ⟨a, rfl, ?_⟩
        simpa using hf
      · refine Or.inl ⟨fun b hb => ?_, by simp [hj]⟩
        exact hj (Move.proc.inj hb).1.symm
  | env e =>
      obtain ⟨w, _, rfl⟩ := System.step_env h
      exact Or.inl ⟨fun _ => nofun, rfl⟩

/-- What a move does to process `j`: nothing, or it is a step of `j`. -/
theorem System.procs_of_step {m : Move ι α ε} (h : s.step f g m = some t) (j : ι) :
    t.procs j = s.procs j ∨
      ∃ a, m = .proc j a ∧ f s.shared (s.procs j) a = some (t.shared, t.procs j) :=
  (System.still_or_moved h j).imp_left And.right

/-- What every step of a process preserves holds of all of them at the end of
a run. -/
theorem System.each_of_run {J : π → Prop} {steps : List (System ι σ π × Move ι α ε)}
    (h : Trace (System.step f g) s steps t) (h₀ : ∀ i, J (s.procs i))
    (hstep : ∀ {w p a w' p'}, f w p a = some (w', p') → J p → J p') :
    ∀ i, J (t.procs i) := by
  refine h.preserved (I := fun u => ∀ i, J (u.procs i)) h₀ ?_
  intro u m v hu hs i
  rcases System.procs_of_step hs i with he | ⟨a, _, hf⟩
  · rw [he]
    exact hu i
  · exact hstep hf (hu i)

/-! ### Assertions about interleaved processes -/

/-- An invariant of the shared state, an assertion about every process and
an assertion about every two processes. -/
structure Assertions (σ π : Type*) where
  shared : σ → Prop
  each : σ → π → Prop
  pair : π → π → Prop

/-- The assertions hold in a state of the system. -/
structure Assertions.Hold (A : Assertions σ π) (s : System ι σ π) : Prop where
  shared : A.shared s.shared
  each : ∀ i, A.each s.shared (s.procs i)
  pair : ∀ i j, i ≠ j → A.pair (s.procs i) (s.procs j)

/-- One move keeps the assertions: a process step from a state where they
hold re-establishes the shared invariant and its own assertion, and keeps
the assertion of every other process and of the pair with it. -/
structure Assertions.Stable (A : Assertions σ π) (f : σ → π → α → Option (σ × π))
    (g : σ → ε → Option σ) (ok : System ι σ π → Move ι α ε → Prop) : Prop where
  symm : ∀ {p q}, A.pair p q → A.pair q p
  own : ∀ {s : System ι σ π} {i a w p}, A.Hold s → ok s (.proc i a) →
    f s.shared (s.procs i) a = some (w, p) → A.shared w ∧ A.each w p
  other : ∀ {s : System ι σ π} {i j a w p}, A.Hold s → ok s (.proc i a) →
    f s.shared (s.procs i) a = some (w, p) → i ≠ j →
      A.each w (s.procs j) ∧ A.pair p (s.procs j)
  env : ∀ {s : System ι σ π} {e w}, A.Hold s → ok s (.env e) →
    g s.shared e = some w → A.shared w ∧ ∀ i, A.each w (s.procs i)

theorem Assertions.Stable.step {A : Assertions σ π}
    {ok : System ι σ π → Move ι α ε → Prop} (hA : A.Stable f g ok)
    {m : Move ι α ε} (h : A.Hold s) (hok : ok s m)
    (hs : s.step f g m = some t) : A.Hold t := by
  cases m with
  | proc i a =>
      obtain ⟨w, p, hf, rfl⟩ := System.step_proc hs
      obtain ⟨hI, hp⟩ := hA.own h hok hf
      refine ⟨hI, ?_, fun j k hjk => ?_⟩
      · exact (Function.forall_update_iff _ fun _ q => A.each w q).mpr
          ⟨hp, fun j hj => (hA.other h hok hf (Ne.symm hj)).1⟩
      · by_cases hj : j = i
        · subst hj
          have := (hA.other h hok hf hjk).2
          simpa [Ne.symm hjk] using this
        · by_cases hk : k = i
          · subst hk
            have := hA.symm (hA.other h hok hf (Ne.symm hj)).2
            simpa [hj] using this
          · simpa [hj, hk] using h.pair j k hjk
  | env e =>
      obtain ⟨w, hg, rfl⟩ := System.step_env hs
      obtain ⟨hI, hp⟩ := hA.env h hok hg
      exact ⟨hI, hp, h.pair⟩

/-- **Interference-free assertions hold along every run.** -/
theorem Assertions.Stable.run {A : Assertions σ π}
    {ok : System ι σ π → Move ι α ε → Prop} (hA : A.Stable f g ok)
    {steps : List (System ι σ π × Move ι α ε)}
    (h : Trace (System.step f g) s steps t) (hok : ∀ p ∈ steps, ok p.1 p.2)
    (h₀ : A.Hold s) : A.Hold t :=
  h.invariant hok h₀ fun hI ho hs => hA.step hI ho hs

/-- The assertions hold at every recorded state too. -/
theorem Assertions.Stable.run_mem {A : Assertions σ π}
    {ok : System ι σ π → Move ι α ε → Prop} (hA : A.Stable f g ok)
    {steps : List (System ι σ π × Move ι α ε)}
    (h : Trace (System.step f g) s steps t) (hok : ∀ p ∈ steps, ok p.1 p.2)
    (h₀ : A.Hold s) : ∀ p ∈ steps, A.Hold p.1 :=
  h.invariant_mem hok h₀ fun hI ho hs => hA.step hI ho hs

end Lib
