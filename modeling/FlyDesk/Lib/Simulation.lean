/-
FlyDesk/Lib/Simulation.lean

Forward simulation between two step functions.  One step of the concrete system may be
matched by any number of steps of the abstract one, none included; the relation may
speak of the steps that led to either state, so that what the concrete run has done can
be read off the abstract one.
-/
import FlyDesk.Lib.Trace

namespace Lib

variable {σ τ α β : Type*} {step : σ → α → Option σ} {step' : τ → β → Option τ}

/-- **Forward simulation.**  If every allowed concrete step has a matching abstract run,
every allowed concrete run has one. -/
theorem Trace.simulates {R : List (σ × α) → σ → List (τ × β) → τ → Prop} {A : σ → α → Prop}
    {s t : σ} {a : τ} {steps : List (σ × α)} (h : Trace step s steps t)
    (hok : ∀ p ∈ steps, A p.1 p.2) (h₀ : R [] s [] a)
    (hstep : ∀ {l u m v l' b}, R l u l' b → A u m → step u m = some v →
      ∃ more b', Trace step' b more b' ∧ R (l ++ [(u, m)]) v (l' ++ more) b') :
    ∃ steps' b, Trace step' a steps' b ∧ R steps t steps' b := by
  refine h.history (I := fun l u => ∃ l' b, Trace step' a l' b ∧ R l u l' b) hok
    ⟨[], a, .nil, h₀⟩ ?_
  rintro l u m v ⟨l', b, hb, hR⟩ ho hs
  obtain ⟨more, b', hmore, hR'⟩ := hstep hR ho hs
  exact ⟨l' ++ more, b', hb.append hmore, hR'⟩

end Lib
