/-
FlyDesk/Lib/Lease.lean

Leases.  A guard whose record runs out: whoever takes it while it is free holds a
term of `ttl` units of time, and may perform an effect once for it.  Nobody gives a
term back, and nobody looks at the clock before the effect, so the effect can take
place after the term has ended; some processes may even go on without a term.

`Lease.Moves` is the discipline for one step.  What it buys (`Lease.rate`) is no
exclusion but a rate: over any stretch of a run, the effect takes place at most
once for each process that held a term before, once for each step without a term,
once, and once more for every `ttl` units of time.
-/
import FlyDesk.Lib.Interleave
import Mathlib.Data.Finset.Card

namespace Lib

variable {ι σ π α ε : Type*} [DecidableEq ι]

/-- A lease: the clock, when the current term ends, how often the effect has taken
place, and which local states may still perform it. -/
structure Lease (σ π : Type*) where
  now : σ → ℕ
  ends : σ → ℕ
  used : σ → ℕ
  holding : π → Prop

/-- What one step may do to a lease of terms of `ttl`; it begins to hold without a
term only where `free` says so. -/
inductive Lease.Moves (L : Lease σ π) (ttl : ℕ) (free : Prop) (w : σ) (p : π) (w' : σ)
    (p' : π) : Prop
  | take : L.ends w ≤ L.now w → L.ends w' = L.now w + ttl → L.now w' = L.now w →
      L.used w' = L.used w → Moves L ttl free w p w' p'
  | bypass : free → L.ends w ≤ L.ends w' → L.now w' = L.now w → L.used w' = L.used w →
      Moves L ttl free w p w' p'
  | use : L.holding p → ¬ L.holding p' → L.ends w ≤ L.ends w' → L.now w' = L.now w →
      L.used w' = L.used w + 1 → Moves L ttl free w p w' p'
  | quiet : (L.holding p' → L.holding p) → L.ends w ≤ L.ends w' → L.now w' = L.now w →
      L.used w' = L.used w → Moves L ttl free w p w' p'

/-- Since `start`, `terms` have been taken, each after the one before had passed. -/
structure Lease.Terms (L : Lease σ π) (ttl start terms : ℕ) (w : σ) : Prop where
  since : start ≤ L.now w
  passed : ∀ n, terms = n + 1 → start + n * ttl ≤ L.now w
  ends : 0 < terms → start + terms * ttl ≤ L.ends w

/-- What is in `H` may perform the effect at most `grants` times in all, with what it
has performed. -/
structure Lease.Granted (L : Lease σ π) (grants : ℕ) (H : Finset ι) (s : System ι σ π) :
    Prop where
  holds : ∀ i, L.holding (s.procs i) → i ∈ H
  used : L.used s.shared + H.card ≤ grants

variable {f : σ → π → α → Option (σ × π)} {g : σ → ε → Option σ}
variable {L : Lease σ π} {ttl start terms grants : ℕ} {free : Prop} {H : Finset ι}
variable {s t : System ι σ π} {w w' : σ} {p : π} {i : ι}

/-! ### The clock -/

omit [DecidableEq ι] in
theorem Lease.Terms.mono (h : L.Terms ttl start terms w) (hnow : L.now w ≤ L.now w')
    (hends : L.ends w ≤ L.ends w') : L.Terms ttl start terms w' where
  since := h.since.trans hnow
  passed n hn := (h.passed n hn).trans hnow
  ends hpos := (h.ends hpos).trans hends

/-- A term can be taken once the one before has passed. -/
theorem Lease.Terms.take (h : L.Terms ttl start terms w) (hfree : L.ends w ≤ L.now w)
    (hends : L.ends w' = L.now w + ttl) (hnow : L.now w' = L.now w) :
    L.Terms ttl start (terms + 1) w' := by
  have hpassed : start + terms * ttl ≤ L.now w := by
    rcases Nat.eq_zero_or_pos terms with rfl | hpos
    · simpa using h.since
    · exact (h.ends hpos).trans hfree
  refine ⟨hnow ▸ h.since, ?_, fun _ => ?_⟩
  · rintro n hn
    obtain rfl := Nat.succ.inj hn
    exact hnow ▸ hpassed
  · rw [hends, Nat.succ_mul]
    omega

/-- The number of terms is bounded by the time. -/
theorem Lease.Terms.le (h : L.Terms ttl start terms w) (httl : 0 < ttl) :
    terms ≤ 1 + (L.now w - start) / ttl := by
  rcases terms with - | n
  · exact Nat.zero_le _
  · have hn : n ≤ (L.now w - start) / ttl := by
      rw [Nat.le_div_iff_mul_le httl]
      have := h.passed n rfl
      omega
    omega

/-! ### The holders -/

/-- Whoever holds after a step of `i` is `i` or held before. -/
theorem Lease.Granted.other (h : L.Granted grants H s) {j : ι}
    (hj : L.holding (Function.update s.procs i p j)) : j = i ∨ j ∈ H := by
  by_cases hji : j = i
  · exact Or.inl hji
  · exact Or.inr (h.holds j (by simpa [hji] using hj))

/-- Process `i` begins to hold. -/
theorem Lease.Granted.grant (h : L.Granted grants H s) (hused : L.used w = L.used s.shared) :
    L.Granted (grants + 1) (insert i H)
      { shared := w, procs := Function.update s.procs i p } where
  holds j hj := Finset.mem_insert.mpr (h.other hj)
  used := by
    have hle := h.used
    have hcard := Finset.card_insert_le i H
    show L.used w + _ ≤ _
    omega

/-- Process `i` performs the effect. -/
theorem Lease.Granted.use (h : L.Granted grants H s) (hi : L.holding (s.procs i))
    (hp : ¬ L.holding p) (hused : L.used w = L.used s.shared + 1) :
    L.Granted grants (H.erase i) { shared := w, procs := Function.update s.procs i p } where
  holds j hj := by
    have hne : j ≠ i := by
      rintro rfl
      exact hp (by simpa using hj)
    exact Finset.mem_erase.mpr ⟨hne, (h.other hj).resolve_left hne⟩
  used := by
    have hle := h.used
    have hmem := h.holds i hi
    have hpos : 0 < H.card := Finset.card_pos.mpr ⟨i, hmem⟩
    show L.used w + _ ≤ _
    rw [Finset.card_erase_of_mem hmem]
    omega

/-- Process `i` does neither. -/
theorem Lease.Granted.quiet (h : L.Granted grants H s)
    (hp : L.holding p → L.holding (s.procs i)) (hused : L.used w = L.used s.shared) :
    L.Granted grants H { shared := w, procs := Function.update s.procs i p } where
  holds j hj := by
    rcases h.other hj with rfl | hmem
    · exact h.holds j (hp (by simpa using hj))
    · exact hmem
  used := hused ▸ h.used

/-- A step of a process: what was granted grows by one where a term is taken or a
step goes on without one. -/
theorem Lease.Moves.account (h : L.Moves ttl free s.shared (s.procs i) w p)
    (hterms : L.Terms ttl start terms s.shared) (hgranted : L.Granted (grants + terms) H s) :
    ∃ b terms' H', (b = 0 ∨ b = 1 ∧ free) ∧ L.Terms ttl start terms' w ∧
      L.Granted (grants + b + terms') H'
        { shared := w, procs := Function.update s.procs i p } := by
  cases h with
  | take hfree hends hnow hused =>
      exact ⟨0, terms + 1, insert i H, Or.inl rfl, hterms.take hfree hends hnow,
        hgranted.grant hused⟩
  | bypass hfree hends hnow hused =>
      refine ⟨1, terms, insert i H, Or.inr ⟨rfl, hfree⟩, hterms.mono hnow.ge hends, ?_⟩
      rw [Nat.add_right_comm]
      exact hgranted.grant hused
  | use hi hp hends hnow hused =>
      exact ⟨0, terms, H.erase i, Or.inl rfl, hterms.mono hnow.ge hends,
        hgranted.use hi hp hused⟩
  | quiet hp hends hnow hused =>
      exact ⟨0, terms, H, Or.inl rfl, hterms.mono hnow.ge hends, hgranted.quiet hp hused⟩

/-! ### The rate -/

/-- **The rate of a leased effect**, from any state on. -/
theorem Lease.rate (L : Lease σ π) (httl : 0 < ttl)
    (bypass : System ι σ π × Move ι α ε → Bool)
    (hproc : ∀ {u : System ι σ π} {i a w p}, f u.shared (u.procs i) a = some (w, p) →
      L.Moves ttl (bypass (u, .proc i a) = true) u.shared (u.procs i) w p)
    (henv : ∀ {w e w'}, g w e = some w' →
      L.now w ≤ L.now w' ∧ L.ends w ≤ L.ends w' ∧ L.used w' = L.used w)
    {steps : List (System ι σ π × Move ι α ε)} (h : Trace (System.step f g) s steps t)
    (H : Finset ι) (hH : ∀ i, L.holding (s.procs i) → i ∈ H) :
    L.used t.shared ≤ L.used s.shared + H.card + steps.countP bypass + 1 +
      (L.now t.shared - L.now s.shared) / ttl := by
  obtain ⟨terms, H', hterms, hgranted⟩ : ∃ terms H', L.Terms ttl (L.now s.shared) terms t.shared ∧
      L.Granted (L.used s.shared + H.card + steps.countP bypass + terms) H' t := by
    refine h.history (I := fun l u => ∃ terms H', L.Terms ttl (L.now s.shared) terms u.shared ∧
      L.Granted (L.used s.shared + H.card + l.countP bypass + terms) H' u)
      (A := fun _ _ => True) (fun _ _ => trivial)
      ⟨0, H, ⟨le_rfl, fun _ hn => by omega, fun hpos => by omega⟩, hH, le_rfl⟩ ?_
    rintro l u m v ⟨terms, H', hterms, hgranted⟩ - hstep
    rw [List.countP_append, List.countP_singleton]
    cases m with
    | proc i a =>
        obtain ⟨w, p, hf, rfl⟩ := System.step_proc hstep
        obtain ⟨b, terms', H'', hb, hterms', hgranted'⟩ := (hproc hf).account hterms hgranted
        refine ⟨terms', H'', hterms', hgranted'.holds, hgranted'.used.trans ?_⟩
        rcases hb with rfl | ⟨rfl, hfree⟩
        · omega
        · rw [if_pos hfree, ← Nat.add_assoc]
    | env e =>
        obtain ⟨w, hg, rfl⟩ := System.step_env hstep
        obtain ⟨hnow, hends, hused⟩ := henv hg
        have hle := hgranted.used
        refine ⟨terms, H', hterms.mono hnow hends, hgranted.holds, ?_⟩
        show L.used w + _ ≤ _
        omega
  have hused := hgranted.used
  have hle := hterms.le httl
  omega

end Lib
