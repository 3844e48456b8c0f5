/-
FlyDesk/Common/BreakerHistory.lean

What a breaker remembers.  A run of calls on one breaker leaves a history of
completions: which calls returned, which raised and when.  The breaker keeps
two numbers of it, and `Breakers.breaker_eq_history` says which: how many
failures there were since the last success and, once these have reached the
threshold, the time of the latest.
-/
import FlyDesk.Common.Resilience
import Mathlib.Data.List.Induction
import Mathlib.Tactic.Linarith

namespace FlyDesk

open Lib

/-! ### Histories -/

/-- The end of a call, as far as the breaker records it. -/
inductive Completion
  | success
  | failure (time : ℚ)
deriving DecidableEq, Repr

def Completion.failedAt : Completion → Option ℚ
  | .success => none
  | .failure time => some time

/-- The number of failures since the last success, or since the beginning. -/
def failuresSince (h : List Completion) : ℕ :=
  (h.reverse.takeWhile fun c => c.failedAt.isSome).length

/-- The time of the latest failure. -/
def latestFailure (h : List Completion) : Option ℚ :=
  h.reverse.findSome? Completion.failedAt

variable {h h' : List Completion} {τ : ℚ}

@[simp] theorem failuresSince_nil : failuresSince [] = 0 := rfl

@[simp] theorem failuresSince_success : failuresSince (h ++ [.success]) = 0 := by
  simp [failuresSince, Completion.failedAt]

@[simp] theorem failuresSince_failure :
    failuresSince (h ++ [.failure τ]) = failuresSince h + 1 := by
  simp [failuresSince, Completion.failedAt]

@[simp] theorem latestFailure_failure : latestFailure (h ++ [.failure τ]) = some τ := by
  rw [latestFailure, List.reverse_append]
  rfl

theorem latestFailure_append :
    latestFailure (h ++ h') = (latestFailure h').or (latestFailure h) := by
  rw [latestFailure, List.reverse_append, List.findSome?_append]
  rfl

theorem mem_of_latestFailure (hτ : latestFailure h = some τ) : .failure τ ∈ h := by
  obtain ⟨c, hc, hcτ⟩ := List.exists_of_findSome?_eq_some hτ
  cases c with
  | success => cases hcτ
  | failure τ' =>
      obtain rfl := Option.some.inj hcτ
      exact List.mem_reverse.mp hc

/-- Failures only add up while nothing succeeds. -/
theorem failuresSince_le_append (hno : .success ∉ h') :
    failuresSince h ≤ failuresSince (h ++ h') := by
  induction h' using List.reverseRecOn with
  | nil => simp
  | append_singleton h' c ih =>
      have hle := ih fun hm => hno (List.mem_append_left _ hm)
      cases c with
      | success => exact absurd (by simp) hno
      | failure τ =>
          rw [← List.append_assoc, failuresSince_failure]
          omega

/-- Where failures have been counted, there is a latest one. -/
theorem exists_latestFailure (hpos : 0 < failuresSince h) :
    ∃ τ, latestFailure h = some τ := by
  induction h using List.reverseRecOn with
  | nil => simp at hpos
  | append_singleton h c _ =>
      cases c with
      | success => simp at hpos
      | failure τ => exact ⟨τ, by simp⟩

/-- The history a run leaves: its completing steps, in order. -/
def completion? {ι : Type*} : Breakers ι × BreakerMove ι → Option Completion
  | (_, .proc _ .succeed) => some .success
  | (s, .proc _ .fail) => some (.failure s.shared.clock)
  | _ => none

def history {ι : Type*} (steps : List (Breakers ι × BreakerMove ι)) : List Completion :=
  steps.filterMap completion?

@[simp] theorem history_snoc {ι : Type*} {steps : List (Breakers ι × BreakerMove ι)}
    {p : Breakers ι × BreakerMove ι} :
    history (steps ++ [p]) = history steps ++ (completion? p).toList := by
  rw [history, List.filterMap_append]
  rcases e : completion? p with - | c <;> simp [history, e]

/-! ### The breaker follows its history -/

/-- The two fields of a breaker, as functions of its history. -/
structure CircuitBreaker.Follows (b : CircuitBreaker) (h : List Completion) : Prop where
  failures : b.failures = failuresSince h
  openedAt : b.openedAt =
    if b.failureThreshold ≤ failuresSince h then latestFailure h else none

variable {b : CircuitBreaker} {now : ℚ}

theorem CircuitBreaker.Follows.onSuccess (hN : 1 ≤ b.failureThreshold) :
    b.onSuccess.Follows (h ++ [.success]) where
  failures := by
    rw [failuresSince_success]
    rfl
  openedAt := by
    show none = if b.failureThreshold ≤ failuresSince (h ++ [.success]) then _ else none
    rw [failuresSince_success, if_neg (by omega)]

theorem CircuitBreaker.Follows.onFailure (hb : b.Follows h) :
    (b.onFailure now).Follows (h ++ [.failure now]) where
  failures := by
    rw [failuresSince_failure, ← hb.failures]
    rfl
  openedAt := by
    show (if b.failureThreshold ≤ b.failures + 1 then some now else b.openedAt) =
      if b.failureThreshold ≤ failuresSince (h ++ [.failure now])
        then latestFailure (h ++ [.failure now]) else none
    rw [failuresSince_failure, latestFailure_failure, hb.failures]
    split
    · rfl
    · -- below the threshold it was not open before either
      rw [hb.openedAt, if_neg (by omega)]

/-- A breaker is closed while the failures are below its threshold. -/
theorem CircuitBreaker.Follows.state_eq_closed (hN : 1 ≤ b.failureThreshold)
    (hb : b.Follows h) : b.state now = .closed ↔ failuresSince h < b.failureThreshold := by
  rw [CircuitBreaker.state_eq_closed, hb.openedAt]
  by_cases hle : b.failureThreshold ≤ failuresSince h
  · obtain ⟨τ, hτ⟩ := exists_latestFailure (h := h) (by omega)
    rw [if_pos hle, hτ]
    simpa using hle
  · rw [if_neg hle]
    simpa using hle

/-- It turns callers away when they have reached it and the latest is not
`reset_timeout` ago. -/
theorem CircuitBreaker.Follows.state_eq_opened (hb : b.Follows h) :
    b.state now = .opened ↔ b.failureThreshold ≤ failuresSince h ∧
      ∃ τ, latestFailure h = some τ ∧ now - τ < b.resetTimeout := by
  rw [CircuitBreaker.state_eq_opened, hb.openedAt]
  by_cases hle : b.failureThreshold ≤ failuresSince h <;> simp [hle]

variable {ι : Type*} [DecidableEq ι] {s t u : Breakers ι}
variable {steps : List (Breakers ι × BreakerMove ι)} {N : ℕ} {R c : ℚ}

/-- One move, seen from the breaker: it stays as it is and nothing is
recorded, or a running call is recorded on it. -/
inductive Breakers.Records (s : Breakers ι) : BreakerMove ι → Guarded → Prop
  | quiet {m w} : completion? (s, m) = none → w.breaker = s.shared.breaker → Records s m w
  | success {i} : s.procs i = .running →
      Records s (.proc i .succeed) { s.shared with breaker := s.shared.breaker.onSuccess }
  | failure {i} : s.procs i = .running → Records s (.proc i .fail)
      { s.shared with breaker := s.shared.breaker.onFailure s.shared.clock }

theorem Breakers.records_of_step {m : BreakerMove ι} (h : s.step m = some t) :
    s.Records m t.shared := by
  cases m with
  | env d =>
      obtain ⟨w, hg, rfl⟩ := System.step_env h
      unfold Guarded.tick at hg
      split at hg
      · obtain rfl := Option.some.inj hg
        exact .quiet rfl rfl
      · cases hg
  | proc i a =>
      obtain ⟨w, p, hf, rfl⟩ := System.step_proc h
      generalize hi : s.procs i = p₀ at hf
      cases BreakerCall.steps_of_step hf with
      | reject | letIn | cancel => exact .quiet rfl rfl
      | succeed => exact .success hi
      | fail => exact .failure hi

/-- A breaker with its settings and its history. -/
structure Breakers.Remembers (N : ℕ) (R : ℚ) (h : List Completion) (s : Breakers ι) : Prop where
  failureThreshold : s.shared.breaker.failureThreshold = N
  resetTimeout : s.shared.breaker.resetTimeout = R
  follows : s.shared.breaker.Follows h

/-- The step lemma: a move that leaves `completion?` behind. -/
theorem Breakers.Remembers.step (hN : 1 ≤ N) (hs : s.Remembers N R h) {m : BreakerMove ι}
    (hstep : s.step m = some t) :
    t.Remembers N R (h ++ (completion? (s, m)).toList) := by
  obtain ⟨rfl, rfl, hb⟩ := hs
  have hrec := Breakers.records_of_step hstep
  generalize hw : t.shared = w at hrec
  cases hrec with
  | quiet hno hw' =>
      rw [hno, Option.toList_none, List.append_nil]
      rw [← hw'] at hb
      exact ⟨by rw [hw, hw'], by rw [hw, hw'], by rw [hw]; exact hb⟩
  | success => exact ⟨by rw [hw]; rfl, by rw [hw]; rfl, by rw [hw]; exact .onSuccess hN⟩
  | failure => exact ⟨by rw [hw]; rfl, by rw [hw]; rfl, by rw [hw]; exact hb.onFailure⟩

/-- A run continues the history of the state it starts from. -/
theorem Breakers.Remembers.run (hN : 1 ≤ N) (hs : s.Remembers N R h)
    (hrun : Trace Breakers.step s steps t) : t.Remembers N R (h ++ history steps) := by
  refine hrun.history (I := fun l u => u.Remembers N R (h ++ history l))
    (A := fun _ _ => True) (fun _ _ => trivial) (by simpa [history] using hs) ?_
  intro l u m v hu _ hstep
  have hv := hu.step hN hstep
  rwa [List.append_assoc, ← history_snoc] at hv

omit [DecidableEq ι] in
theorem Breakers.remembers_new : (Breakers.new N R c : Breakers ι).Remembers N R [] :=
  ⟨rfl, rfl, rfl, by simp [Breakers.new, CircuitBreaker.create, latestFailure]⟩

/-! ### The clock -/

theorem Breakers.clock_mono {m : BreakerMove ι} (h : s.step m = some t) :
    s.shared.clock ≤ t.shared.clock := by
  cases m with
  | env d =>
      obtain ⟨w, hg, rfl⟩ := System.step_env h
      unfold Guarded.tick at hg
      split at hg
      · rename_i hd
        obtain rfl := Option.some.inj hg
        show s.shared.clock ≤ s.shared.clock + d
        linarith
      · cases hg
  | proc i a =>
      obtain ⟨w, p, hf, rfl⟩ := System.step_proc h
      generalize s.procs i = p₀ at hf
      cases BreakerCall.steps_of_step hf <;> exact le_refl _

/-- What a run records, it records no earlier than it starts. -/
theorem Breakers.le_of_failure (h : Trace Breakers.step s steps t) :
    s.shared.clock ≤ t.shared.clock ∧
      ∀ τ, .failure τ ∈ history steps → s.shared.clock ≤ τ := by
  refine h.history (I := fun l u => s.shared.clock ≤ u.shared.clock ∧
    ∀ τ, .failure τ ∈ history l → s.shared.clock ≤ τ) (A := fun _ _ => True)
    (fun _ _ => trivial) ⟨le_refl _, by simp [history]⟩ ?_
  intro l u m v hu _ hstep
  refine ⟨hu.1.trans (Breakers.clock_mono hstep), fun τ hτ => ?_⟩
  rw [history_snoc, List.mem_append] at hτ
  rcases hτ with hτ | hτ
  · exact hu.2 τ hτ
  · -- the failure of this step is recorded with the clock it is taken at
    rw [completion?.eq_def] at hτ
    split at hτ
    · simp at hτ
    · rename_i heq
      obtain ⟨rfl, -⟩ := Prod.mk.inj heq
      obtain rfl : τ = u.shared.clock := by simpa using hτ
      exact hu.1
    · simp at hτ

/-! ### Starting calls -/

/-- A starting call invokes its function or is turned away, as the state says. -/
theorem Breakers.start {i : ι} (hi : t.procs i = .idle) :
    ∃ u, t.step (.proc i .start) = some u ∧ u.shared = t.shared ∧
      u.procs i = if t.shared.breaker.state t.shared.clock = .opened then .rejected
        else .running := by
  by_cases ho : t.shared.breaker.state t.shared.clock = .opened
  · refine ⟨{ t with procs := Function.update t.procs i .rejected }, ?_, rfl, ?_⟩
    · simp [Breakers.step, System.step, hi, BreakerCall.step, ho]
    · simp [ho]
  · refine ⟨{ t with procs := Function.update t.procs i .running }, ?_, rfl, ?_⟩
    · simp [Breakers.step, System.step, hi, BreakerCall.step, ho]
    · simp [ho]

/-- It invokes its function unless the failures have reached the threshold and
the latest is not `reset_timeout` ago. -/
theorem Breakers.Remembers.start (hN : 1 ≤ N) (hs : t.Remembers N R h) {i : ι}
    (hi : t.procs i = .idle) :
    ∃ u, t.step (.proc i .start) = some u ∧ u.shared = t.shared ∧
      (u.procs i = .running ∨ u.procs i = .rejected) ∧
      (u.procs i = .running ↔ failuresSince h < N ∨
        ∃ τ, latestFailure h = some τ ∧ R ≤ t.shared.clock - τ) := by
  obtain ⟨rfl, rfl, hb⟩ := hs
  obtain ⟨u, hu, hshared, hproc⟩ := Breakers.start hi
  have hrun : u.procs i = .running ↔ ¬ t.shared.breaker.state t.shared.clock = .opened := by
    rw [hproc]
    split <;> simp [*]
  refine ⟨u, hu, hshared, ?_, ?_⟩
  · rw [hproc]
    split <;> simp
  · rw [hrun, hb.state_eq_opened]
    by_cases hle : t.shared.breaker.failureThreshold ≤ failuresSince h
    · -- the latest failure decides
      obtain ⟨τ, hτ⟩ := exists_latestFailure (h := h) (by omega)
      simp [hle, hτ, not_lt]
    · simp [hle, Nat.lt_of_not_le hle]

/-- A call that fails while the circuit is not closed reopens it from now: no
call is let in for a whole `reset_timeout`, unless one in flight succeeds. -/
theorem Breakers.Remembers.probe_failed (hN : 1 ≤ N) (hs : s.Remembers N R h) {i : ι}
    (hfail : s.step (.proc i .fail) = some t)
    (hst : s.shared.breaker.state s.shared.clock ≠ .closed) :
    t.shared.breaker.openedAt = some s.shared.clock ∧
    ∀ steps u, Trace Breakers.step t steps u → .success ∉ history steps →
      u.shared.clock - s.shared.clock < R → u.shared.breaker.state u.shared.clock = .opened := by
  have ht := hs.step hN hfail
  rw [show completion? (s, .proc i .fail) = some (.failure s.shared.clock) from rfl,
    Option.toList_some] at ht
  obtain ⟨hthr, -, hfol⟩ := hs
  rw [Ne, hfol.state_eq_closed (hthr ▸ hN), hthr, not_lt] at hst
  refine ⟨?_, ?_⟩
  · rw [ht.follows.openedAt, ht.failureThreshold, failuresSince_failure,
      latestFailure_failure, if_pos (by omega)]
  · intro steps u hrun hno hlt
    obtain ⟨huN, huR, hu⟩ := ht.run hN hrun
    rw [hu.state_eq_opened, huN, huR]
    refine ⟨?_, ?_⟩
    · calc N ≤ failuresSince (h ++ [.failure s.shared.clock]) := by
            rw [failuresSince_failure]
            omega
        _ ≤ _ := failuresSince_le_append hno
    · -- the latest failure is this one or a later one
      have hclock := Breakers.clock_mono hfail
      rw [latestFailure_append, latestFailure_failure]
      rcases e : latestFailure (history steps) with - | τ
      · exact ⟨s.shared.clock, rfl, hlt⟩
      · have hτ := (Breakers.le_of_failure hrun).2 τ (mem_of_latestFailure e)
        exact ⟨τ, rfl, by linarith⟩

/-! ### The whole history -/

/-- A call that is turned away or cancelled leaves everything as it is. -/
theorem Breakers.rejected_or_cancelled {i : ι} {a : BreakerAction}
    (h : s.step (.proc i a) = some t) (hend : t.procs i = .rejected ∨ t.procs i = .cancelled) :
    t.shared = s.shared ∧ ∀ j ≠ i, t.procs j = s.procs j := by
  obtain ⟨w, p, hf, rfl⟩ := System.step_proc h
  refine ⟨?_, fun j hj => Function.update_of_ne hj _ _⟩
  replace hend : p = .rejected ∨ p = .cancelled := by simpa using hend
  generalize s.procs i = p₀ at hf
  cases BreakerCall.steps_of_step hf with
  | reject | letIn | cancel => rfl
  | succeed | fail => simp at hend

/-- **The breaker is exactly its history.**  After any run on a new breaker
`_failures` counts the failures since the last success, `_opened_at` is set iff
they have reached the threshold and is then the time of the latest; a starting
call goes through iff they have not, or the latest is `reset_timeout` ago; a
failed probe starts the cooldown again; a call turned away or cancelled leaves
no trace. -/
theorem Breakers.breaker_eq_history (hN : 1 ≤ N)
    (hrun : Trace Breakers.step (Breakers.new N R c : Breakers ι) steps t) :
    t.shared.breaker.failures = failuresSince (history steps) ∧
    (t.shared.breaker.openedAt ≠ none ↔ N ≤ failuresSince (history steps)) ∧
    (t.shared.breaker.openedAt ≠ none →
      t.shared.breaker.openedAt = latestFailure (history steps)) ∧
    (∀ i, t.procs i = .idle → ∃ u, t.step (.proc i .start) = some u ∧
      (u.procs i = .running ∨ u.procs i = .rejected) ∧
      (u.procs i = .running ↔ failuresSince (history steps) < N ∨
        ∃ τ, latestFailure (history steps) = some τ ∧ R ≤ t.shared.clock - τ)) ∧
    (∀ i u, t.step (.proc i .fail) = some u →
      t.shared.breaker.state t.shared.clock ≠ .closed →
      u.shared.breaker.openedAt = some t.shared.clock ∧
      ∀ steps' v, Trace Breakers.step u steps' v → .success ∉ history steps' →
        v.shared.clock - t.shared.clock < R → ∀ j, v.procs j = .idle →
        ∃ x, v.step (.proc j .start) = some x ∧ x.procs j = .rejected) ∧
    (∀ i a u, t.step (.proc i a) = some u →
      u.procs i = .rejected ∨ u.procs i = .cancelled →
      u.shared = t.shared ∧ ∀ j ≠ i, u.procs j = t.procs j) := by
  have ht : t.Remembers N R (history steps) := Breakers.remembers_new.run hN hrun
  have hopened := ht.follows.openedAt
  rw [ht.failureThreshold] at hopened
  refine ⟨ht.follows.failures, ?_, ?_, ?_, ?_, ?_⟩
  · -- from the threshold on there is a failure to date the opening from
    rw [hopened]
    split
    · rename_i hle
      obtain ⟨τ, hτ⟩ := exists_latestFailure (h := history steps) (by omega)
      simp [hτ, hle]
    · simpa using Nat.lt_of_not_le ‹_›
  · intro hne
    rw [hopened] at hne ⊢
    split at hne
    · rw [if_pos ‹_›]
    · exact absurd rfl hne
  · intro i hi
    obtain ⟨u, hu, -, hrest⟩ := ht.start hN hi
    exact ⟨u, hu, hrest⟩
  · intro i u hfail hst
    obtain ⟨hat, hcool⟩ := ht.probe_failed hN hfail hst
    refine ⟨hat, fun steps' v hv hno hlt j hj => ?_⟩
    obtain ⟨x, hx, -, hproc⟩ := Breakers.start hj
    exact ⟨x, hx, by rw [hproc, if_pos (hcool steps' v hv hno hlt)]⟩
  · exact fun i a u => Breakers.rejected_or_cancelled

/-- A threshold of one: call 0 fails at once, call 1 is turned away, call 2
probes after the cooldown and fails. -/
def Sample.failedProbe : List (BreakerMove ℕ) :=
  [.proc 0 .start, .proc 0 .fail, .proc 1 .start, .env 30, .proc 2 .start, .proc 2 .fail]

/-- The breaker after a failed probe: two failures, open since the second. -/
theorem Breakers.breaker_eq_history_failedProbe :
    ∃ t, exec Breakers.step (.new 1 30 0) Sample.failedProbe = some t ∧
      t.shared.breaker.failures = 2 ∧ t.shared.breaker.openedAt = some 30 := by
  obtain ⟨t, ht, hlast⟩ := exec_any
    (P := fun t : Breakers ℕ => t.shared.breaker.openedAt ≠ none)
    (by decide +kernel : (exec Breakers.step (.new 1 30 0) Sample.failedProbe).any _ = true)
  obtain ⟨hcount, -, hat, -⟩ :=
    Breakers.breaker_eq_history (le_refl 1) (Trace.of_exec ht)
  refine ⟨t, ht, ?_, ?_⟩
  · rw [hcount]
    decide +kernel
  · rw [hat hlast]
    decide +kernel

end FlyDesk
