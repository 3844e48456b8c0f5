/-
FlyDesk/Common/Cooldown.lean

Does an open circuit stay open?  A call that was let in before the circuit
opened may still be running when it does.  If it then succeeds, the breaker
forgets that it is open: calls go through again in the middle of the cooldown.

`Breakers.staysOpen_iff` says that this is the only way out: in a run in which
no call succeeds while the circuit is open, every call is turned away for the
whole cooldown and the circuit closes by way of a probe.
-/
import FlyDesk.Common.BreakerHistory

namespace FlyDesk

open Lib

variable {ι : Type*}

/-- The breaker's state where a step is taken. -/
def circuitAt (p : Breakers ι × BreakerMove ι) : CircuitState :=
  p.1.shared.breaker.state p.1.shared.clock

/-- A failure is recorded that brings the breaker to its threshold. -/
def Trips (p : Breakers ι × BreakerMove ι) : Prop :=
  (∃ i, p.2 = .proc i .fail) ∧
    p.1.shared.breaker.failureThreshold ≤ p.1.shared.breaker.failures + 1

/-- A success is recorded. -/
def Succeeds (p : Breakers ι × BreakerMove ι) : Prop :=
  ∃ i, p.2 = .proc i .succeed

instance : (p : Breakers ι × BreakerMove ι) → Decidable (Succeeds p)
  | (_, .proc i .succeed) => .isTrue ⟨i, rfl⟩
  | (_, .proc _ .start) | (_, .proc _ .fail) | (_, .proc _ .cancel) | (_, .env _) =>
    .isFalse (by rintro ⟨_, h⟩; cases h)

/-- The breaker was brought to its threshold and since then no call has
succeeded while it was half open. -/
def Tripped (steps : List (Breakers ι × BreakerMove ι)) : Prop :=
  ∃ before p after, steps = before ++ p :: after ∧ Trips p ∧
    ∀ q ∈ after, Succeeds q → circuitAt q ≠ .halfOpen

theorem Tripped.of_snoc {steps : List (Breakers ι × BreakerMove ι)}
    {p : Breakers ι × BreakerMove ι} (h : Tripped (steps ++ [p])) :
    Trips p ∨ Tripped steps ∧ (Succeeds p → circuitAt p ≠ .halfOpen) := by
  obtain ⟨before, q, after, heq, htrips, hno⟩ := h
  rcases List.eq_nil_or_concat after with rfl | ⟨after, last, rfl⟩
  · obtain ⟨-, rfl⟩ := List.append_singleton_inj.mp heq
    exact Or.inl htrips
  · rw [List.concat_eq_append, ← List.cons_append, ← List.append_assoc] at heq
    obtain ⟨rfl, rfl⟩ := List.append_singleton_inj.mp heq
    refine Or.inr ⟨⟨before, q, after, rfl, htrips, fun r hr => ?_⟩, ?_⟩
    · exact hno r (by simp [hr])
    · exact hno p (by simp)

variable [DecidableEq ι] {s t : Breakers ι}
variable {steps : List (Breakers ι × BreakerMove ι)} {N : ℕ} {R c : ℚ}

/-- An open circuit stays open: from a trip on, a call that starts before
`reset_timeout` has passed since the latest failure is turned away, and no
step takes the circuit from open to closed. -/
structure StaysOpen (steps : List (Breakers ι × BreakerMove ι)) : Prop where
  rejects : ∀ before p, before ++ [p] <+: steps → Tripped before →
    ∀ τ, latestFailure (history before) = some τ →
      p.1.shared.clock - τ < p.1.shared.breaker.resetTimeout →
    ∀ i, p.2 = .proc i .start → ∃ u, p.1.step p.2 = some u ∧ u.procs i = .rejected
  notAtOnce : ∀ p ∈ steps, circuitAt p = .opened → ∀ u, p.1.step p.2 = some u →
    u.shared.breaker.state u.shared.clock ≠ .closed

/-! ### Nothing succeeds while the circuit is open -/

/-- A call that succeeds while the circuit is open closes it at once. -/
theorem StaysOpen.not_opened (h : StaysOpen steps) (hrun : Trace Breakers.step s steps t) :
    ∀ p ∈ steps, Succeeds p → circuitAt p ≠ .opened := by
  rintro p hp ⟨i, hi⟩ hopen
  obtain ⟨u, hu, -⟩ := hrun.next_of_mem hp
  refine h.notAtOnce p hp hopen u hu ?_
  rw [hi] at hu
  obtain ⟨w, q, hf, rfl⟩ := System.step_proc hu
  generalize p.1.procs i = q₀ at hf
  cases BreakerCall.steps_of_step hf
  rfl

/-- A tripped breaker keeps the count that tripped it, as long as no call
succeeds while it is open. -/
theorem le_failures_of_tripped (hN : 1 ≤ N)
    (hrun : Trace Breakers.step (Breakers.new N R c) steps t)
    (hok : ∀ p ∈ steps, Succeeds p → circuitAt p ≠ .opened) :
    Tripped steps → N ≤ failuresSince (history steps) := by
  refine (hrun.history (I := fun l u => u.Remembers N R (history l) ∧
    (Tripped l → N ≤ failuresSince (history l)))
    (A := fun u m => Succeeds (u, m) → circuitAt (u, m) ≠ .opened) hok
    ⟨Breakers.remembers_new, fun ⟨_, _, _, h, _⟩ => by simp at h⟩ ?_).2
  intro l u m v ⟨hu, hl⟩ hm hstep
  have hv := hu.step hN hstep
  rw [← history_snoc] at hv
  refine ⟨hv, fun htripped => ?_⟩
  rw [history_snoc]
  have hrec := Breakers.records_of_step hstep
  generalize v.shared = w at hrec
  cases hrec with
  | quiet hno =>
      rw [hno, Option.toList_none, List.append_nil]
      rcases htripped.of_snoc with ⟨⟨i, hi⟩, _⟩ | ⟨hold, _⟩
      · rw [show m = .proc i .fail from hi] at hno
        cases hno
      · exact hl hold
  | @success i =>
      rcases htripped.of_snoc with ⟨⟨i, hi⟩, _⟩ | ⟨hold, hhalf⟩
      · cases hi
      · -- a tripped breaker is not closed and this one not open: a probe
        exfalso
        have hclosed : u.shared.breaker.state u.shared.clock = .closed ↔
            failuresSince (history l) < N := by
          rw [hu.follows.state_eq_closed (hu.failureThreshold.symm ▸ hN), hu.failureThreshold]
        rcases e : u.shared.breaker.state u.shared.clock with - | - | -
        · exact absurd (hclosed.mp e) (Nat.not_lt.mpr (hl hold))
        · exact hhalf ⟨i, rfl⟩ e
        · exact hm ⟨i, rfl⟩ e
  | failure =>
      rw [show completion? (u, .proc _ .fail) = some (.failure u.shared.clock) from rfl,
        Option.toList_some, failuresSince_failure]
      rcases htripped.of_snoc with ⟨_, hle⟩ | ⟨hold, _⟩
      · show N ≤ failuresSince (history l) + 1
        rw [← hu.follows.failures, ← hu.failureThreshold]
        exact hle
      · exact Nat.le_succ_of_le (hl hold)

/-- **An open circuit stays open iff nothing succeeds while it is open.** -/
theorem Breakers.staysOpen_iff (hN : 1 ≤ N)
    (hrun : Trace Breakers.step (Breakers.new N R c) steps t) :
    StaysOpen steps ↔ ∀ p ∈ steps, Succeeds p → circuitAt p ≠ .opened := by
  refine ⟨fun h => h.not_opened hrun, fun hok => ⟨?_, ?_⟩⟩
  · intro before p hpre htripped τ hτ hlt i hi
    have hp : p ∈ steps := hpre.subset (by simp)
    obtain ⟨s, m⟩ := p
    have hbefore : Trace Breakers.step (Breakers.new N R c) before s :=
      hrun.upTo hpre
    have hs : s.Remembers N R (history before) := Breakers.remembers_new.run hN hbefore
    have hle := le_failures_of_tripped hN hbefore
      (fun q hq => hok q (hpre.subset (List.mem_append_left _ hq))) htripped
    have hopen : s.shared.breaker.state s.shared.clock = .opened := by
      rw [hs.follows.state_eq_opened, hs.failureThreshold]
      exact ⟨hle, τ, hτ, hlt⟩
    obtain rfl : m = .proc i .start := hi
    obtain ⟨u, hu, -⟩ := hrun.next_of_mem hp
    refine ⟨u, hu, ?_⟩
    obtain ⟨w, q, hf, rfl⟩ := System.step_proc hu
    generalize s.procs i = q₀ at hf
    cases BreakerCall.steps_of_step hf with
    | reject => simp
    | letIn hno => exact absurd hopen hno
  · rintro ⟨s, m⟩ hp hopen u hu hclosed
    have hset : s.shared.breaker.openedAt ≠ none := by
      obtain ⟨τ, hτ, -⟩ := CircuitBreaker.state_eq_opened.mp hopen
      exact fun hnone => Option.some_ne_none τ (hτ.symm.trans hnone)
    rw [CircuitBreaker.state_eq_closed] at hclosed
    have hrec := Breakers.records_of_step hu
    generalize u.shared = w at hrec hclosed
    cases hrec with
    | quiet _ hw => exact hset (by rw [← hw]; exact hclosed)
    | success => exact hok _ hp ⟨_, rfl⟩ hopen
    | failure => exact CircuitBreaker.openedAt_onFailure hset hclosed

/-! ### Runs -/

/-- A threshold of one: calls 0 and 1 are let in, call 0 fails, call 1 returns,
call 2 starts; no time has passed. -/
def Sample.overlapping : List (BreakerMove ℕ) :=
  [.proc 0 .start, .proc 1 .start, .proc 0 .fail, .proc 1 .succeed, .proc 2 .start]

/-- The circuit does not stay open: call 2 is let in at the very moment of the
failure that opened it. -/
theorem Breakers.not_staysOpen_overlapping :
    ∃ t, exec Breakers.step (.new 1 30 0) Sample.overlapping = some t ∧
      t.shared.clock = 0 ∧ t.procs 2 = .running ∧
      ¬ StaysOpen (execSteps Breakers.step (.new 1 30 0) Sample.overlapping) := by
  obtain ⟨t, ht, hclock, hproc⟩ := exec_any
    (P := fun t : Breakers ℕ => t.shared.clock = 0 ∧ t.procs 2 = .running)
    (by decide +kernel : (exec Breakers.step (.new 1 30 0) Sample.overlapping).any _ = true)
  refine ⟨t, ht, hclock, hproc, fun h => ?_⟩
  -- call 1 succeeds while the circuit is open
  exact absurd (h.not_opened (Trace.of_exec ht)) (by decide +kernel)

/-- A threshold of one: call 0 succeeds and call 1 fails, call 2 is turned away, and
after the cooldown call 3 succeeds and call 4 is let in. -/
def Sample.openedCircuit : List (BreakerMove ℕ) :=
  [.proc 0 .start, .proc 1 .start, .proc 0 .succeed, .proc 1 .fail, .env 29, .proc 2 .start,
    .env 1, .proc 3 .start, .proc 3 .succeed, .proc 4 .start]

theorem Breakers.staysOpen_openedCircuit :
    ∃ t, exec Breakers.step (.new 1 30 0) Sample.openedCircuit = some t ∧
      t.procs 2 = .rejected ∧ t.procs 4 = .running ∧
      StaysOpen (execSteps Breakers.step (.new 1 30 0) Sample.openedCircuit) := by
  obtain ⟨t, ht, hrejected, hrunning⟩ := exec_any
    (P := fun t : Breakers ℕ => t.procs 2 = .rejected ∧ t.procs 4 = .running)
    (by decide +kernel : (exec Breakers.step (.new 1 30 0) Sample.openedCircuit).any _ = true)
  refine ⟨t, ht, hrejected, hrunning,
    (Breakers.staysOpen_iff (le_refl 1) (Trace.of_exec ht)).mpr ?_⟩
  decide +kernel

end FlyDesk
