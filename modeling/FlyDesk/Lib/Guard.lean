/-
FlyDesk/Lib/Guard.lean

One-shot guards.  Many processes may want to perform an effect that must
take place at most once.  Each first claims a record that can be claimed
only while nobody has claimed it (a SETNX, an insert under a unique index)
and never performs the effect without having claimed it itself.

`Guard.Moves` is the discipline for one step, in three cases: the step
claims the record, it performs the effect and stops holding, or it does
neither.  `Guard.atMostOnce` is what the discipline buys for any number of
processes, interleaved in any way: the effect takes place at most once, and
nobody can hold the claim once it has.  A process that holds the claim may
stop at any time, which is a step of the third kind; the record stays.

The other direction needs more: `Guard.Keeps` is the discipline of a step that
does not let go of the claim before the effect, and `Guard.atLeastOnce` says
that a claimed effect has then taken place or is being worked on.
-/
import FlyDesk.Lib.Interleave

namespace Lib

variable {ι σ π α ε : Type*} [DecidableEq ι]

/-- A guard: whether its record is claimed, how often the guarded effect
has taken place, and which local states hold the claim. -/
structure Guard (σ π : Type*) where
  claimed : σ → Prop
  used : σ → ℕ
  holding : π → Prop

/-- What one step may do to a guard. -/
inductive Guard.Moves (G : Guard σ π) (w : σ) (p : π) (w' : σ) (p' : π) : Prop
  | claim : ¬ G.claimed w → G.claimed w' → G.used w' = G.used w → Moves G w p w' p'
  | use : G.holding p → ¬ G.holding p' → (G.claimed w → G.claimed w') →
      G.used w' = G.used w + 1 → Moves G w p w' p'
  | quiet : (G.claimed w → G.claimed w') → G.used w' = G.used w →
      (G.holding p' → G.holding p) → Moves G w p w' p'

/-- The assertions of a guard: the effect has taken place at most once and
only under a claim; a holder has the record claimed and the effect still to
come; no two processes hold it. -/
def Guard.assertions (G : Guard σ π) : Assertions σ π where
  shared w := G.used w ≤ 1 ∧ (0 < G.used w → G.claimed w)
  each w p := G.holding p → G.claimed w ∧ G.used w = 0
  pair p q := ¬ (G.holding p ∧ G.holding q)

variable {f : σ → π → α → Option (σ × π)} {g : σ → ε → Option σ}
variable {R : System ι σ π → Move ι α ε → Prop}

omit [DecidableEq ι] in
theorem Guard.stable (G : Guard σ π)
    (hproc : ∀ {s : System ι σ π} {i a w p}, R s (.proc i a) →
      f s.shared (s.procs i) a = some (w, p) → G.Moves s.shared (s.procs i) w p)
    (henv : ∀ {s : System ι σ π} {e w}, R s (.env e) → g s.shared e = some w →
      (G.claimed s.shared → G.claimed w) ∧ G.used w = G.used s.shared) :
    G.assertions.Stable f g R where
  symm := fun h hqp => h ⟨hqp.2, hqp.1⟩
  own := by
    intro s i a w p hA ho hf
    obtain ⟨hle, hcl⟩ := hA.shared
    have hi := hA.each i
    cases hproc ho hf with
    | claim hn hc hu =>
        have hz : G.used s.shared = 0 := by
          by_contra hne
          exact hn (hcl (Nat.pos_of_ne_zero hne))
        exact ⟨⟨by omega, fun _ => hc⟩, fun _ => ⟨hc, by omega⟩⟩
    | use hh hn hc hu =>
        obtain ⟨hcw, hz⟩ := hi hh
        exact ⟨⟨by omega, fun _ => hc hcw⟩, fun hp => absurd hp hn⟩
    | quiet hc hu hh =>
        refine ⟨⟨by omega, fun hpos => hc (hcl (by omega))⟩, fun hp => ?_⟩
        obtain ⟨hcw, hz⟩ := hi (hh hp)
        exact ⟨hc hcw, by omega⟩
  other := by
    intro s i j a w p hA ho hf hij
    have hj := hA.each j
    have hp := hA.pair i j hij
    cases hproc ho hf with
    | claim hn hc hu =>
        -- the record was free, so nobody was holding it
        have hfree : ¬ G.holding (s.procs j) := fun hh => hn (hj hh).1
        exact ⟨fun hh => absurd hh hfree, fun hh => hfree hh.2⟩
    | use hh hn hc hu =>
        have hfree : ¬ G.holding (s.procs j) := fun hq => hp ⟨hh, hq⟩
        exact ⟨fun hq => absurd hq hfree, fun hq => hfree hq.2⟩
    | quiet hc hu hh =>
        refine ⟨fun hq => ?_, fun hq => hp ⟨hh hq.1, hq.2⟩⟩
        obtain ⟨hcw, hz⟩ := hj hq
        exact ⟨hc hcw, by omega⟩
  env := by
    intro s e w hA ho hg
    obtain ⟨hc, hu⟩ := henv ho hg
    obtain ⟨hle, hcl⟩ := hA.shared
    refine ⟨⟨by omega, fun hpos => hc (hcl (by omega))⟩, fun i hh => ?_⟩
    obtain ⟨hcw, hz⟩ := hA.each i hh
    exact ⟨hc hcw, by omega⟩

/-- **A guarded effect takes place at most once**, in every run in which
every step keeps to the discipline. -/
theorem Guard.atMostOnce (G : Guard σ π)
    (hproc : ∀ {s : System ι σ π} {i a w p}, R s (.proc i a) →
      f s.shared (s.procs i) a = some (w, p) → G.Moves s.shared (s.procs i) w p)
    (henv : ∀ {s : System ι σ π} {e w}, R s (.env e) → g s.shared e = some w →
      (G.claimed s.shared → G.claimed w) ∧ G.used w = G.used s.shared)
    {s t : System ι σ π} {steps : List (System ι σ π × Move ι α ε)}
    (h : Trace (System.step f g) s steps t) (hok : ∀ p ∈ steps, R p.1 p.2)
    (hused : G.used s.shared = 0) (hheld : ∀ i, ¬ G.holding (s.procs i)) :
    G.used t.shared ≤ 1 := by
  have h₀ : G.assertions.Hold s := by
    refine ⟨⟨by omega, fun hpos => ?_⟩, fun i hi => absurd hi (hheld i), ?_⟩
    · omega
    · exact fun i _ _ hh => hheld i hh.1
  exact ((G.stable hproc henv).run h hok h₀).shared.1

/-! ### At least once -/

/-- A step that does not abandon a claim: whoever claims the record holds it,
and who holds it holds on until the effect has taken place. -/
structure Guard.Keeps (G : Guard σ π) (w : σ) (p : π) (w' : σ) (p' : π) : Prop where
  claimed : G.claimed w' → G.claimed w ∨ G.holding p'
  held : G.holding p → G.holding p' ∨ 0 < G.used w'
  used : G.used w ≤ G.used w'

/-- **A claimed effect has taken place, or somebody is holding the claim**, in
every run in which no step abandons it. -/
theorem Guard.atLeastOnce (G : Guard σ π)
    (hproc : ∀ {s : System ι σ π} {i a w p}, R s (.proc i a) →
      f s.shared (s.procs i) a = some (w, p) → G.Keeps s.shared (s.procs i) w p)
    (henv : ∀ {s : System ι σ π} {e w}, R s (.env e) → g s.shared e = some w →
      (G.claimed w → G.claimed s.shared) ∧ G.used w = G.used s.shared)
    {s t : System ι σ π} {steps : List (System ι σ π × Move ι α ε)}
    (h : Trace (System.step f g) s steps t) (hok : ∀ p ∈ steps, R p.1 p.2)
    (hfree : ¬ G.claimed s.shared) (hclaimed : G.claimed t.shared) :
    0 < G.used t.shared ∨ ∃ i, G.holding (t.procs i) := by
  refine h.invariant (I := fun u => G.claimed u.shared →
    0 < G.used u.shared ∨ ∃ i, G.holding (u.procs i)) hok (fun hc => absurd hc hfree) ?_
    hclaimed
  intro u m v hI hR hstep hc
  cases m with
  | env e =>
      obtain ⟨w, hg, rfl⟩ := System.step_env hstep
      obtain ⟨hback, hused⟩ := henv hR hg
      rcases hI (hback hc) with hpos | hheld
      · exact Or.inl (hused ▸ hpos)
      · exact Or.inr hheld
  | proc i a =>
      obtain ⟨w, p', hf, rfl⟩ := System.step_proc hstep
      have hkeeps := hproc hR hf
      rcases hkeeps.claimed hc with hold | hnew
      · rcases hI hold with hpos | ⟨j, hj⟩
        · exact Or.inl (Nat.lt_of_lt_of_le hpos hkeeps.used)
        · by_cases hij : j = i
          · -- the holder has moved
            subst hij
            rcases hkeeps.held hj with hheld | hpos
            · exact Or.inr ⟨j, by simpa using hheld⟩
            · exact Or.inl hpos
          · exact Or.inr ⟨j, by simpa [hij] using hj⟩
      · exact Or.inr ⟨i, by simpa using hnew⟩

end Lib
