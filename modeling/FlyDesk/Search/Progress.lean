/-
FlyDesk/Search/Progress.lean

What a search costs.  A fan-out keeps at most `max_concurrency` tasks at their providers
and calls no provider more than twice: not at all if its circuit was open, twice only
after a failure that is retried.  A request is over within `5 * n + 3` moves of its own,
whatever other requests do; it never has to wait for Redis, and without Redis it
returns what its own fan-out finds.
-/
import FlyDesk.Lib.Budget
import FlyDesk.Search.Answers

namespace FlyDesk

open Lib

variable {n : ℕ}

/-! ### Calls of the providers -/

section Calls

variable {providers : Fin n → AsyncFlightProvider} {maxConcurrency : ℕ}
  {breakers : BreakerRegistry} {clock : ℚ} {s t : SearchAll n}
  {steps : List (SearchAll n × SearchMove n)} {i : Fin n}

/-- The task has called its provider: a call is awaited, or the task sleeps before the
next one. -/
def SearchPc.calling : SearchPc → Bool
  | .attempt _ | .sleeping _ => true
  | _ => false

/-- A call is awaited. -/
def SearchPc.awaiting : SearchPc → Bool
  | .attempt _ => true
  | _ => false

/-- A call of provider `i` ends at this step. -/
def callEnds (i : Fin n) : SearchAll n × SearchMove n → Bool
  | (s, .proc j _) => decide (j = i) && (s.procs i).pc.awaiting
  | (_, .env _) => false

/-- The calls of provider `i` that have ended. -/
def callsOf (i : Fin n) (steps : List (SearchAll n × SearchMove n)) : ℕ :=
  steps.countP (callEnds i)

/-- How many calls a task that is over has made. -/
def AsyncFlightProvider.Calls (p : AsyncFlightProvider) (away : Prop) (k : ℕ) : Prop :=
  away ∧ k = 0 ∨ ¬ away ∧ ¬ p.Blips ∧ k = 1 ∨ ¬ away ∧ p.Blips ∧ k = 2

/-- The calls a task has behind it, from the point it is at. -/
def SearchPc.Called (p : AsyncFlightProvider) (away : Prop) (k : ℕ) : SearchPc → Prop
  | .created | .queued => k = 0
  | .attempt i => k = i
  | .sleeping i => k = i + 1
  | .done _ => p.Calls away k

theorem SearchPc.Called.step {w w' : Fanout} {p : AsyncFlightProvider} {away away' : Prop}
    {pc pc' : SearchPc} {k : ℕ} (h : pc.Called p away k) (htold : pc.Told p away)
    (hs : SearchFrame.Steps w p pc w' pc')
    (haway : away' ↔ away ∨
      pc = .queued ∧ (w.breakers.getBreaker p.name).state w.clock = .opened) :
    pc'.Called p away' (k + pc.awaiting.toNat) := by
  cases hs with
  | enter | turn => exact h
  | away _ ho => exact Or.inl ⟨haway.mpr (Or.inr ⟨rfl, ho⟩), h⟩
  | @ends i r hr =>
      obtain ⟨hno, hi⟩ := htold
      obtain rfl : k = i := h
      have hno' : ¬ away' := by
        rw [haway]
        rintro (ha | ⟨hq, -⟩)
        · exact hno ha
        · cases hq
      rcases hi with rfl | ⟨rfl, hb⟩
      · -- the first call was the last one: it did not blip
        refine Or.inr (Or.inl ⟨hno', fun hblips => ?_, rfl⟩)
        exact (retryStep_eq_ends.mp hr).2 ⟨AsyncFlightProvider.blips_iff.mp hblips, by decide⟩
      · exact Or.inr (Or.inr ⟨hno', hb, rfl⟩)
  | again | wake =>
      show _ = _
      rw [show k = _ from h]
      rfl

/-- Every task has made the calls it should have. -/
def SearchAll.Called (providers : Fin n → AsyncFlightProvider)
    (steps : List (SearchAll n × SearchMove n)) (s : SearchAll n) : Prop :=
  s.Tells providers steps ∧
    ∀ i, (s.procs i).pc.Called (providers i) (FoundOpen steps i) (callsOf i steps)

theorem SearchAll.Called.step {m : SearchMove n} (h : s.Called providers steps)
    (hs : s.step m = some t) : t.Called providers (steps ++ [(s, m)]) := by
  obtain ⟨htells, hcalled⟩ := h
  refine ⟨htells.step hs, fun i => ?_⟩
  obtain ⟨hp, htold⟩ := htells i
  have hcount : callsOf i (steps ++ [(s, m)]) = callsOf i steps + (callEnds i (s, m)).toNat := by
    rw [callsOf, List.countP_append, List.countP_singleton, callsOf]
    cases callEnds i (s, m) <;> rfl
  rcases System.still_or_moved hs i with ⟨hne, heq⟩ | ⟨a, rfl, hf⟩
  · have hno : callEnds i (s, m) = false := by
      cases m with
      | proc j a =>
          have hj : j ≠ i := by
            rintro rfl
            exact hne a rfl
          simp [callEnds, hj]
      | env e => rfl
    have hopen : FoundOpen (steps ++ [(s, m)]) i ↔ FoundOpen steps i := by
      rw [foundOpen_snoc]
      exact or_iff_left fun hturned => hne () hturned.1
    rw [heq, hcount, hno]
    cases hpc : (s.procs i).pc with
    | done r =>
        have hi := hcalled i
        rw [hpc] at hi
        show AsyncFlightProvider.Calls _ _ _
        rwa [hopen]
    | _ =>
        have hi := hcalled i
        rw [hpc] at hi
        exact hi
  · obtain ⟨-, hsteps⟩ := SearchFrame.steps_of_step hf
    rw [hp] at hsteps
    have hends : callEnds i (s, .proc i a) = (s.procs i).pc.awaiting := by simp [callEnds]
    rw [hcount, hends]
    refine (hcalled i).step htold hsteps ?_
    rw [foundOpen_snoc, TurnedAway, hp]
    simp

theorem SearchAll.called_run
    (h : Trace SearchAll.step (SearchAll.start providers maxConcurrency breakers clock) steps t) :
    t.Called providers steps := by
  refine h.history (A := fun _ _ => True) (I := fun l u => SearchAll.Called providers l u)
    (fun _ _ => trivial) ⟨SearchAll.tells_run .nil, fun _ => rfl⟩ fun hI _ hs => hI.step hs

theorem SearchPc.held_eq {pc : SearchPc} : pc.held = if pc.calling = true then 1 else 0 := by
  cases pc <;> rfl

/-- **What a fan-out asks of its providers.**  At any time the tasks at their providers
and the permits left make up `max_concurrency`; no provider is called more than twice;
and when its task is over it was not called if its circuit was open, and otherwise
called again just after a first failure that is retried. -/
theorem search_all_calls
    (hrun : Trace SearchAll.step
      (SearchAll.start providers maxConcurrency breakers clock) steps t) :
    t.shared.permits + (Finset.univ.filter fun i => (t.procs i).pc.calling = true).card
        = maxConcurrency ∧
      ∀ i, callsOf i steps ≤ 2 ∧
        ((t.procs i).pc.Over → (providers i).Calls (FoundOpen steps i) (callsOf i steps)) := by
  constructor
  · have hpermits := SearchAll.permitted_run hrun
    simp only [SearchAll.Permitted, System.total, SearchPc.held_eq] at hpermits
    rw [Finset.card_filter]
    exact hpermits
  · intro i
    obtain ⟨htells, hcalled⟩ := SearchAll.called_run hrun
    have htold := (htells i).2
    have hi := hcalled i
    generalize (t.procs i).pc = pc at htold hi
    cases pc with
    | created | queued => exact ⟨by rw [show callsOf i steps = 0 from hi]; decide, False.elim⟩
    | attempt k =>
        refine ⟨?_, False.elim⟩
        rw [show callsOf i steps = k from hi]
        rcases htold.2 with rfl | ⟨rfl, -⟩ <;> decide
    | sleeping k =>
        refine ⟨?_, False.elim⟩
        obtain ⟨-, rfl, -⟩ := htold
        rw [show callsOf i steps = 0 + 1 from hi]
        decide
    | done r =>
        refine ⟨?_, fun _ => hi⟩
        rcases hi with ⟨-, hk⟩ | ⟨-, -, hk⟩ | ⟨-, -, hk⟩ <;> rw [hk] <;> decide

/-- The broken provider is called a second time, and that is all. -/
theorem search_all_calls_brokenProvider :
    let start := SearchAll.start Sample.mocks 10 (fun _ => none) 0
    let steps := execSteps SearchAll.step start Sample.turns
    ∃ t, exec SearchAll.step start Sample.turns = some t ∧ t.shared.permits = 10 ∧
      callsOf 1 steps = 2 ∧ (Sample.mocks 1).Calls (FoundOpen steps 1) 2 := by
  intro start steps
  obtain ⟨t, ht, hpermits, hover⟩ : ∃ t, exec SearchAll.step start Sample.turns = some t ∧
      t.shared.permits = 10 ∧ (t.procs 1).pc.Over := ⟨_, rfl, rfl, trivial⟩
  have hcalls : callsOf 1 steps = 2 := rfl
  have h := ((search_all_calls (Trace.of_exec ht)).2 1).2 hover
  rw [hcalls] at h
  exact ⟨t, ht, hpermits, hcalls, h⟩

end Calls

/-! ### The moves of a request -/

variable {S : SearchSettings} {w w' : SearchWorld} {f f' : RequestFrame n} {a : RequestAct n}

/-- The moves a request has left, at most. -/
def RequestPc.left : RequestPc n → ℕ
  | .reading => 5 * n + 3
  | .searching _ tasks => (∑ j, (tasks j).pc.left) + 2
  | .writing _ _ => 1
  | .done _ => 0

theorem RequestPc.left_begin : (f.begin S).left = 5 * n + 2 := by
  show (∑ _j : Fin n, 5) + 2 = 5 * n + 2
  simp [Nat.mul_comm]

variable {ι : Type*} {criteria : ι → SearchCriteria}
  {providers : ι → Fin n → AsyncFlightProvider} {s t : SearchService ι n}
  {steps : List (SearchService ι n × SearchServiceMove ι n)} {i : ι}

theorem SearchService.Backed.left_lt (h : s.Backed S criteria providers steps)
    (hs : (s.procs i).step S s.shared a = some (w, f)) :
    f.pc.left < (s.procs i).pc.left := by
  obtain ⟨-, -, hstep⟩ := RequestFrame.steps_of_step hs
  have htold := h.told i
  generalize f.pc = pc' at hstep
  cases hstep with
  | miss hpc =>
      rw [hpc, RequestPc.left_begin]
      exact Nat.lt_succ_self _
  | hit hpc | raises hpc | full hpc | partly hpc | stored hpc | unstored hpc =>
      simp [hpc, RequestPc.left]
  | @task permits tasks j u hpc hu =>
      rw [hpc] at htold ⊢
      obtain ⟨_, _, _, hrun, -⟩ := htold
      obtain ⟨hp, htask⟩ := SearchAll.tells_run hrun j
      obtain ⟨g, hg, htotal⟩ := System.total_proc (fun f => f.pc.left) hu
      have hlt := (SearchFrame.steps_of_step hg).2.left_lt (hp ▸ htask)
      have hsum : u.total (fun f => f.pc.left) <
          (s.shared.fanout permits tasks).total (fun f => f.pc.left) := by omega
      exact Nat.add_lt_add_right hsum 2

/-- A request that cannot move is over. -/
theorem SearchService.Backed.done_of_stuck (hK : 1 ≤ S.maxConcurrency)
    (h : s.Backed S criteria providers steps)
    (hstuck : ∀ a, (s.procs i).step S s.shared a = none) :
    ∃ r, (s.procs i).pc = .done r := by
  have htold := h.told i
  cases hpc : (s.procs i).pc with
  | done r => exact ⟨r, rfl⟩
  | reading =>
      have hget := hstuck (.get true)
      simp [RequestFrame.step, hpc] at hget
  | writing offers degraded =>
      have hset := hstuck (.set .ok)
      simp [RequestFrame.step, hpc] at hset
  | searching permits tasks =>
      rw [hpc] at htold
      obtain ⟨_, _, _, hrun, -⟩ := htold
      -- no task can move, so all are over, and `gather` has returned
      have htasks : ∀ j, (s.shared.fanout permits tasks).step (.proc j ()) = none := by
        intro j
        have htask := hstuck (.task j)
        simp only [RequestFrame.step, hpc] at htask
        exact Option.map_eq_none_iff.mp htask
      have hover := SearchAll.over_of_stuck hK (SearchAll.permitted_run hrun) htasks
      choose r hr using fun j => (hover j).done
      have hends : (s.shared.fanout permits tasks).ends = some (merge [] [] _) :=
        congrArg _ (SearchAll.gather_eq_some.mpr ⟨r, hr, rfl⟩)
      have hgather := hstuck .gather
      simp only [RequestFrame.step, hpc, hends] at hgather
      split at hgather
      · simp_all
      · cases hgather
      · split_ifs at hgather

variable [DecidableEq ι] {breakers : BreakerRegistry} {clock : ℚ}

/-- **A request ends, with Redis or without.**  It makes at most `5 * n + 3` moves,
whatever the other requests do; where it cannot move it is over; and if Redis fails
every read of it, it returns what its own fan-out finds, or raises because a call of its
own was cancelled. -/
theorem SearchService.request_ends (hK : 1 ≤ S.maxConcurrency)
    (hrun : Trace (SearchService.step S) (SearchService.start criteria providers breakers clock)
      steps t) (i : ι) :
    (actionsOf i steps).length ≤ 5 * n + 3 ∧
      ((∀ a, t.step S (.proc i a) = none) → ∃ r, (t.procs i).pc = .done r) ∧
      ∀ r, (t.procs i).pc = .done r → (∀ q ∈ steps, q.2 ≠ .proc i (.get false)) →
        (r = .error .typeError ∧ ∃ j, ¬ Refused steps i j ∧ (providers i j).Cancels) ∨
        ∃ offers degraded contribution, r = .ok (offers, degraded, false) ∧
          Merged (providers i) (Refused steps i) contribution offers degraded := by
  have hbacked := SearchService.backed_run hrun
  refine ⟨?_, fun hstuck => ?_, fun r hdone hdown => ?_⟩
  · have hmem : ∀ p ∈ steps, ∃ l, p.1.Backed S criteria providers l := by
      intro p hp
      obtain ⟨before, -, hbefore⟩ := hrun.prefix_of_mem hp
      exact ⟨before, SearchService.backed_run hbefore⟩
    have hmoves := System.moves_le (fun f : RequestFrame n => f.pc.left)
      (A := fun (u : SearchService ι n) (_ : SearchServiceMove ι n) =>
        ∃ l, u.Backed S criteria providers l) hrun hmem i
      fun ⟨_, hu⟩ hf => hu.left_lt hf
    exact (Nat.le_add_right _ _).trans hmoves
  · exact hbacked.done_of_stuck hK fun a => Option.map_eq_none_iff.mp (hstuck a)
  · have htold := hbacked.told i
    rw [hdone] at htold
    rcases htold with ⟨offers, degraded, rfl, contribution, hmerged⟩ | herror | ⟨_, hfresh, -⟩
    · exact Or.inr ⟨offers, degraded, contribution, rfl, hmerged⟩
    · exact Or.inl herror
    · obtain ⟨before, p, hpre, hget, -⟩ := hfresh
      exact absurd hget (hdown p (hpre.subset (by simp)))

/-- Redis is down for the request, when it reads and when it writes. -/
def Sample.outage : List (SearchServiceMove ℕ 1) :=
  [.proc 0 (.get true), turn 0, turn 0, turn 0, .proc 0 .gather,
    .proc 0 (.set (.redisError false))]

/-- The request makes six moves and returns what the provider has. -/
theorem SearchService.request_ends_outage :
    let start := SearchService.start (fun _ : ℕ => Sample.trip) (fun _ => Sample.fareDesk)
      (fun _ => none) 0
    let steps := execSteps (SearchService.step Sample.settings) start Sample.outage
    ∃ t, exec (SearchService.step Sample.settings) start Sample.outage = some t ∧
      (actionsOf 0 steps).length ≤ 5 * 1 + 3 ∧
      ∃ contribution, (t.procs 0).pc = .done (.ok ([Sample.dinars], [], false)) ∧
        Merged Sample.fareDesk (Refused steps 0) contribution [Sample.dinars] [] := by
  intro start steps
  obtain ⟨t, ht, hdone⟩ : ∃ t,
      exec (SearchService.step Sample.settings) start Sample.outage = some t ∧
      (t.procs 0).pc = .done (.ok ([Sample.dinars], [], false)) := by
    simp [start, exec, Sample.outage, Sample.turn, SearchService.step, SearchService.start,
      System.step,
      RequestFrame.step, RequestFrame.begin, SearchWorld.fanout, SearchAll.step,
      SearchFrame.step, SearchAll.ends, SearchAll.gather, Sample.settings, Sample.fareDesk,
      WriteReply.stored, BreakerRegistry.getBreaker, BreakerRegistry.put, CircuitBreaker.state,
      CircuitBreaker.create, retryStep, AsyncFlightProvider.attempt, Fanout.leave,
      SearchPc.result?, merge, sortBy, List.finRange]
  have hdown : ∀ q ∈ steps, q.2 ≠ .proc 0 (.get false) := by
    intro q hq
    have hmove := mem_of_execSteps hq
    simp only [Sample.outage, List.mem_cons, List.not_mem_nil, or_false] at hmove
    rcases hmove with h | h | h | h | h | h <;> rw [h] <;> simp [Sample.turn]
  obtain ⟨hmoves, -, hret⟩ := SearchService.request_ends (by decide) (Trace.of_exec ht) 0
  rcases hret _ hdone hdown with ⟨hraise, -⟩ | ⟨offers, degraded, contribution, hr, hmerged⟩
  · cases hraise
  · obtain ⟨rfl, rfl⟩ : [Sample.dinars] = offers ∧ [] = degraded := by
      cases hr
      exact ⟨rfl, rfl⟩
    exact ⟨t, ht, hmoves, contribution, hdone, hmerged⟩

end FlyDesk
