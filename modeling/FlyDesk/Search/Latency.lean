/-
FlyDesk/Search/Latency.lean

How long a search takes.  The comment over `search_all` says that the total latency is
about that of the slowest provider, not the sum; here it is measured on the clock of a run.

A run says in which order things happen, and `OnTime` what the event loop adds: no time
passes while a task could go on without waiting, `asyncio.timeout` ends a call at its
deadline, and `asyncio.sleep` is over after the delay of `retry_async`.  A task is then at
its provider for two deadlines and a backoff at most (`Timed.budget`), and while it waits
for the semaphore `max_concurrency` others are at theirs, so the search is a list schedule
of its tasks (`Lib.elapsed_le`).
-/
import FlyDesk.Lib.Schedule
import FlyDesk.Search.Progress

namespace FlyDesk

open Lib

variable {n : ℕ} {providers : Fin n → AsyncFlightProvider} {maxConcurrency : ℕ}
  {breakers : BreakerRegistry} {clock timeout : ℚ} {random : Fin n → ℕ → ℚ}
  {s t : SearchAll n} {m : SearchMove n} {steps : List (SearchAll n × SearchMove n)}
  {i : Fin n} {pc : SearchPc}

/-! ### Time -/

/-- The time that passes at a step. -/
def waited : SearchAll n × SearchMove n → ℚ
  | (_, .env (.tick d)) => d
  | _ => 0

/-- The task of provider `i` is at its provider. -/
def atProvider (p : SearchAll n × SearchMove n) (i : Fin n) : Bool := (p.1.procs i).pc.calling

/-- How long task `i` has been at its provider. -/
def timeAt (i : Fin n) (steps : List (SearchAll n × SearchMove n)) : ℚ :=
  spent waited atProvider i steps

/-- When task `i` has made its last step; it was created at `clock`. -/
def movedAt (clock : ℚ) (i : Fin n) (steps : List (SearchAll n × SearchMove n)) : ℚ :=
  steps.foldl (fun last p => match p.2 with
    | .proc j _ => if j = i then p.1.shared.clock else last
    | .env _ => last) clock

theorem movedAt_self (s : SearchAll n) (a : Unit) :
    movedAt clock i (steps ++ [(s, .proc i a)]) = s.shared.clock := by
  rw [movedAt, List.foldl_append]
  exact if_pos rfl

theorem movedAt_of_ne {p : SearchAll n × SearchMove n} (h : ∀ a, p.2 ≠ .proc i a) :
    movedAt clock i (steps ++ [p]) = movedAt clock i steps := by
  obtain ⟨s, m⟩ := p
  rw [movedAt, List.foldl_append]
  cases m with
  | proc j a => exact if_neg fun hj => h a (by rw [hj])
  | env e => rfl

/-- A task that has last moved at `last` lets time pass until `now`. -/
def SearchPc.Waits (timeout : ℚ) (random : ℕ → ℚ) (permits : ℕ) (last now : ℚ) :
    SearchPc → Prop
  | .created => False
  | .queued => permits = 0
  | .attempt _ => now ≤ last + timeout
  | .sleeping k => now ≤ last + searchRetryOptions.cap k * (1 / 2 + random k)
  | .done _ => True

/-- The event loop is on time at step `p`: where time passes, every task waits. -/
def OnTime (timeout : ℚ) (random : Fin n → ℕ → ℚ) (clock : ℚ)
    (before : List (SearchAll n × SearchMove n)) (p : SearchAll n × SearchMove n) : Prop :=
  0 < waited p → ∀ i, (p.1.procs i).pc.Waits timeout (random i) p.1.shared.permits
    (movedAt clock i before) (p.1.shared.clock + waited p)

instance (timeout : ℚ) (random : ℕ → ℚ) (permits : ℕ) (last now : ℚ) :
    DecidablePred (SearchPc.Waits timeout random permits last now)
  | .created => inferInstanceAs (Decidable False)
  | .queued => inferInstanceAs (Decidable (permits = 0))
  | .attempt _ | .sleeping _ => inferInstanceAs (Decidable (_ ≤ _))
  | .done _ => inferInstanceAs (Decidable True)

instance (before : List (SearchAll n × SearchMove n)) (p : SearchAll n × SearchMove n) :
    Decidable (OnTime timeout random clock before p) :=
  inferInstanceAs (Decidable (_ → _))

/-- A step takes the time by which the clock goes on. -/
theorem SearchAll.clock_step (hs : s.step m = some t) :
    t.shared.clock = s.shared.clock + waited (s, m) ∧ 0 ≤ waited (s, m) := by
  cases m with
  | proc i a =>
      obtain ⟨w, f, hf, rfl⟩ := System.step_proc hs
      exact ⟨(SearchFrame.steps_of_step hf).2.clock_eq.trans (add_zero _).symm, le_rfl⟩
  | env e =>
      obtain ⟨w, hw, rfl⟩ := System.step_env hs
      cases e with
      | tick d =>
          obtain ⟨hd, hw⟩ := Option.ite_none_right_eq_some.mp hw
          obtain rfl := Option.some.inj hw
          exact ⟨rfl, hd⟩
      | elsewhere name b =>
          obtain rfl := Option.some.inj hw
          exact ⟨(add_zero _).symm, le_rfl⟩

theorem SearchAll.clock_run (h : Trace SearchAll.step s steps t) :
    t.shared.clock = s.shared.clock + elapsed waited steps := by
  refine h.history (A := fun _ _ => True)
    (I := fun l u => u.shared.clock = s.shared.clock + elapsed waited l)
    (fun _ _ => trivial) (by simp [elapsed]) ?_
  intro l u m v hI _ hs
  rw [(SearchAll.clock_step hs).1, hI, elapsed_append, elapsed_singleton, add_assoc]

theorem SearchAll.waited_nonneg (h : Trace SearchAll.step s steps t) :
    ∀ p ∈ steps, 0 ≤ waited p := by
  intro p hp
  obtain ⟨v, hv, -⟩ := h.next_of_mem hp
  exact (SearchAll.clock_step hv).2

/-! ### A task at its provider -/

/-- The longest sleep after the first call. -/
def longestSleep : ℚ := 3 / 2 * searchRetryOptions.cap 0

/-- What a task may spend at its provider: a deadline, and as much again and a sleep if the
first call fails in a way that is retried. -/
def AsyncFlightProvider.Budget (p : AsyncFlightProvider) (timeout spent : ℚ) : Prop :=
  spent ≤ 2 * timeout + longestSleep ∧ (¬ p.Blips → spent ≤ timeout)

/-- What a task has spent at its provider, from the point it is at; `since` is the time
since its last step. -/
def SearchPc.Timed (p : AsyncFlightProvider) (timeout since spent : ℚ) : SearchPc → Prop
  | .created | .queued => spent = 0
  | .attempt k => since ≤ timeout ∧ spent ≤ k * (timeout + longestSleep) + since
  | .sleeping _ => since ≤ longestSleep ∧ spent ≤ timeout + since
  | .done _ => p.Budget timeout spent

theorem longestSleep_nonneg : 0 ≤ longestSleep := by decide +kernel

theorem SearchPc.Timed.budget {p : AsyncFlightProvider} {away : Prop} {since spent : ℚ}
    (h : pc.Timed p timeout since spent) (htold : pc.Told p away) (htimeout : 0 ≤ timeout) :
    p.Budget timeout spent := by
  have hsleep := longestSleep_nonneg
  cases pc with
  | created | queued =>
      obtain rfl : spent = 0 := h
      exact ⟨by linarith, fun _ => htimeout⟩
  | attempt k =>
      obtain ⟨hsince, hspent⟩ := h
      obtain ⟨-, rfl | ⟨rfl, hb⟩⟩ := htold
      · rw [Nat.cast_zero, zero_mul, zero_add] at hspent
        exact ⟨by linarith, fun _ => hspent.trans hsince⟩
      · rw [Nat.cast_one, one_mul] at hspent
        exact ⟨by linarith, fun hno => absurd hb hno⟩
  | sleeping k =>
      obtain ⟨hsince, hspent⟩ := h
      obtain ⟨-, -, hb⟩ := htold
      exact ⟨by linarith, fun hno => absurd hb hno⟩
  | done r => exact h

/-- A step of the task: the time since is zero again. -/
theorem SearchPc.Timed.step {w w' : Fanout} {p : AsyncFlightProvider} {away : Prop}
    {pc' : SearchPc} {since spent : ℚ} (h : pc.Timed p timeout since spent)
    (htold : pc.Told p away) (htimeout : 0 ≤ timeout)
    (hs : SearchFrame.Steps w p pc w' pc') : pc'.Timed p timeout 0 spent := by
  cases hs with
  | enter => exact h
  | away | ends => exact h.budget htold htimeout
  | turn =>
      obtain rfl : spent = 0 := h
      exact ⟨htimeout, by simp⟩
  | @again k hr =>
      -- there are two attempts, so this is after the first
      obtain ⟨hsince, hspent⟩ := h
      obtain ⟨-, rfl | ⟨rfl, -⟩⟩ := htold
      · rw [Nat.cast_zero, zero_mul, zero_add] at hspent
        exact ⟨longestSleep_nonneg, by linarith⟩
      · exact absurd rfl (retryStep_eq_again.mp hr).2
  | wake =>
      obtain ⟨hsince, hspent⟩ := h
      obtain ⟨-, rfl, -⟩ := htold
      refine ⟨htimeout, ?_⟩
      rw [zero_add, Nat.cast_one, one_mul, add_zero]
      linarith

/-- Time passes while the task waits. -/
theorem SearchPc.Timed.tick {p : AsyncFlightProvider} {away : Prop} {last now d spent : ℚ}
    {permits : ℕ} {random : ℕ → ℚ} (h : pc.Timed p timeout (now - last) spent)
    (htold : pc.Told p away) (hrandom : ∀ k, 0 ≤ random k ∧ random k < 1)
    (hwaits : pc.Waits timeout random permits last (now + d)) :
    pc.Timed p timeout (now + d - last) (spent + if pc.calling then d else 0) := by
  cases pc with
  | created | queued =>
      show spent + 0 = 0
      rw [add_zero]
      exact h
  | attempt k =>
      obtain ⟨-, hspent⟩ := h
      refine ⟨sub_le_iff_le_add'.mpr hwaits, ?_⟩
      show spent + d ≤ _
      linarith
  | sleeping k =>
      obtain ⟨-, hspent⟩ := h
      obtain ⟨-, rfl, -⟩ := htold
      have hcap : 0 ≤ searchRetryOptions.cap 0 :=
        RetryOptions.cap_nonneg (by decide +kernel) (by decide +kernel) 0
      have hsleep := (RetryOptions.delay_bounds hcap (hrandom 0)).2
      refine ⟨sub_le_iff_le_add'.mpr (hwaits.trans (add_le_add_right hsleep last)), ?_⟩
      show spent + d ≤ _
      linarith
  | done r =>
      show p.Budget timeout (spent + 0)
      rw [add_zero]
      exact h

/-- What every task has spent at its provider. -/
def SearchAll.Timed (providers : Fin n → AsyncFlightProvider) (timeout clock : ℚ)
    (steps : List (SearchAll n × SearchMove n)) (s : SearchAll n) : Prop :=
  s.Tells providers steps ∧ ∀ i, (s.procs i).pc.Timed (providers i) timeout
    (s.shared.clock - movedAt clock i steps) (timeAt i steps)

theorem timeAt_snoc (p : SearchAll n × SearchMove n) :
    timeAt i (steps ++ [p]) =
      timeAt i steps + if (p.1.procs i).pc.calling then waited p else 0 := by
  rw [timeAt, spent_append, spent_singleton]
  rfl

theorem SearchAll.Timed.step (h : s.Timed providers timeout clock steps)
    (htimeout : 0 ≤ timeout) (hrandom : ∀ i k, 0 ≤ random i k ∧ random i k < 1)
    (hontime : OnTime timeout random clock steps (s, m)) (hs : s.step m = some t) :
    t.Timed providers timeout clock (steps ++ [(s, m)]) := by
  obtain ⟨htells, htimed⟩ := h
  obtain ⟨hclock, hwaited⟩ := SearchAll.clock_step hs
  refine ⟨htells.step hs, fun i => ?_⟩
  obtain ⟨hprovider, htold⟩ := htells i
  rw [hclock, timeAt_snoc]
  rcases System.still_or_moved hs i with ⟨hne, heq⟩ | ⟨a, rfl, hf⟩
  · rw [heq, movedAt_of_ne hne]
    rcases hwaited.eq_or_lt with hzero | hpos
    · rw [← hzero, ite_self, add_zero, add_zero]
      exact htimed i
    · exact (htimed i).tick htold (hrandom i) (hontime hpos i)
  · obtain ⟨-, hsteps⟩ := SearchFrame.steps_of_step hf
    rw [hprovider] at hsteps
    have hnext := (htimed i).step htold htimeout hsteps
    rw [movedAt_self]
    show SearchPc.Timed _ _ (s.shared.clock + 0 - s.shared.clock)
      (timeAt i steps + if _ then 0 else 0) _
    rw [ite_self, add_zero, add_zero, sub_self]
    exact hnext

theorem SearchAll.timed_run
    (h : Trace SearchAll.step (SearchAll.start providers maxConcurrency breakers clock) steps t)
    (htimeout : 0 ≤ timeout) (hrandom : ∀ i k, 0 ≤ random i k ∧ random i k < 1)
    (hontime : ∀ before p, before ++ [p] <+: steps → OnTime timeout random clock before p) :
    t.Timed providers timeout clock steps :=
  h.history_upTo (I := fun l u => SearchAll.Timed providers timeout clock l u) hontime
    ⟨SearchAll.tells_run .nil, fun _ => rfl⟩
    fun hI hok hs => hI.step htimeout hrandom hok hs

/-! ### A task that waits -/

/-- A task that is over stays so. -/
theorem SearchAll.not_over_mem (h : Trace SearchAll.step s steps t)
    (hover : ¬ (t.procs i).pc.Over) : ∀ p ∈ steps, ¬ (p.1.procs i).pc.Over := by
  intro p hp hoverp
  refine hover (h.since (I := fun u => (u.procs i).pc.Over) (A := fun _ _ => True)
    (fun _ _ => trivial) hp hoverp ?_)
  intro u m v hu _ hs
  rcases System.procs_of_step hs i with he | ⟨a, -, hf⟩
  · rw [he]
    exact hu
  · exact absurd hu (SearchFrame.steps_of_step hf).2.not_over

/-- While a task waits for the semaphore, `max_concurrency` others are at their providers. -/
theorem SearchAll.Permitted.served (h : s.Permitted maxConcurrency)
    {before : List (SearchAll n × SearchMove n)}
    (hontime : OnTime timeout random clock before (s, m)) (hover : ¬ (s.procs i).pc.Over)
    (hwaited : 0 ≤ waited (s, m)) : Served waited atProvider maxConcurrency i (s, m) := by
  rcases hwaited.eq_or_lt with hzero | hpos
  · exact Or.inl hzero.symm
  refine Or.inr ?_
  have hwaits := hontime hpos i
  cases hpc : (s.procs i).pc with
  | created =>
      rw [hpc] at hwaits
      exact hwaits.elim
  | attempt k | sleeping k =>
      refine Or.inl ?_
      rw [atProvider, hpc]
      rfl
  | done r =>
      rw [hpc] at hover
      exact absurd trivial hover
  | queued =>
      rw [hpc] at hwaits
      have hpermits : s.shared.permits = 0 := hwaits
      refine Or.inr ?_
      simp only [SearchAll.Permitted, System.total, SearchPc.held_eq, hpermits, zero_add] at h
      -- this task is none of those that hold the permits
      have hself : atProvider (s, m) i = false := by
        rw [atProvider, hpc]
        rfl
      rw [Finset.filter_erase, Finset.erase_eq_of_notMem (by simp [hself]), Finset.card_filter]
      exact h.ge

theorem SearchAll.served_run
    (h : Trace SearchAll.step (SearchAll.start providers maxConcurrency breakers clock) steps t)
    (hontime : ∀ before p, before ++ [p] <+: steps → OnTime timeout random clock before p)
    (hover : ¬ (t.procs i).pc.Over) :
    ∀ p ∈ steps, Served waited atProvider maxConcurrency i p := by
  intro p hp
  obtain ⟨before, hpre, hbefore⟩ := h.prefix_of_mem hp
  exact (SearchAll.permitted_run hbefore).served (hontime before p hpre)
    (SearchAll.not_over_mem h hover p hp) (SearchAll.waited_nonneg h p hp)

/-- **How long a search takes.**  No provider is worked on for longer than two deadlines and
a sleep, one deadline if its first call does not fail.  As long as a task is not over, the
time so far is, with a permit for every provider, what this task alone has spent at its
provider, and otherwise at most that and the work of the others shared among the permits. -/
theorem search_all_latency (htimeout : 0 ≤ timeout)
    (hrandom : ∀ i k, 0 ≤ random i k ∧ random i k < 1)
    (hrun : Trace SearchAll.step
      (SearchAll.start providers maxConcurrency breakers clock) steps t)
    (hontime : ∀ before p, before ++ [p] <+: steps → OnTime timeout random clock before p) :
    (∀ i, (providers i).Budget timeout (timeAt i steps)) ∧
      ∀ i, ¬ (t.procs i).pc.Over →
        (n ≤ maxConcurrency → t.shared.clock - clock = timeAt i steps) ∧
        maxConcurrency * (t.shared.clock - clock) ≤
          maxConcurrency * timeAt i steps + ∑ j ∈ Finset.univ.erase i, timeAt j steps ∧
        maxConcurrency * (t.shared.clock - clock) ≤
          (maxConcurrency + (n - 1 : ℕ)) * (2 * timeout + longestSleep) := by
  obtain ⟨htells, htimed⟩ := SearchAll.timed_run hrun htimeout hrandom hontime
  have hbudget : ∀ i, (providers i).Budget timeout (timeAt i steps) := fun i =>
    (htimed i).budget (htells i).2 htimeout
  refine ⟨hbudget, fun i hover => ?_⟩
  have hserved := SearchAll.served_run hrun hontime hover
  have hwaited := SearchAll.waited_nonneg hrun
  have helapsed : t.shared.clock - clock = elapsed waited steps :=
    sub_eq_iff_eq_add'.mpr (SearchAll.clock_run hrun)
  rw [helapsed]
  refine ⟨fun hn => ?_, elapsed_le hwaited hserved, ?_⟩
  · exact elapsed_eq_spent ((Fintype.card_fin n).trans_le hn) hserved
  · have hbound := elapsed_le_of_spent_le hwaited hserved fun j => (hbudget j).1
    rwa [Fintype.card_fin] at hbound

namespace Sample

/-- A provider that never answers in time, and a quick one. -/
def uneven : Fin 2 → AsyncFlightProvider
  | 0 => { name := "slow", search := fun _ => .late }
  | 1 => { name := "quick", search := fun _ => .returns [flight] }

/-- With one permit: one provider is called twice in vain, then the other. -/
def oneByOne (slow quick : Fin 2) : List (SearchMove 2) :=
  [.proc slow (), .proc quick (), .proc slow (), .env (.tick 8), .proc slow (),
    .env (.tick (1 / 10)), .proc slow (), .env (.tick 8), .proc slow (), .proc quick (),
    .env (.tick 3)]

end Sample

/-- The quick provider waits for the two deadlines of the slow one and the sleep between
them; the bound is met. -/
theorem search_all_latency_oneByOne :
    let start := SearchAll.start Sample.uneven 1 (fun _ => none) 0
    let steps := execSteps SearchAll.step start (Sample.oneByOne 0 1)
    ∃ t, exec SearchAll.step start (Sample.oneByOne 0 1) = some t ∧ t.shared.clock = 191 / 10 ∧
      timeAt 1 steps = 3 ∧ (1 : ℕ) * (t.shared.clock - 0) ≤
        (1 : ℕ) * timeAt 1 steps + ∑ j ∈ Finset.univ.erase 1, timeAt j steps := by
  intro start steps
  obtain ⟨t, ht, hclock, hcalling⟩ := exec_any
    (P := fun u : SearchAll 2 => u.shared.clock = 191 / 10 ∧ (u.procs 1).pc.calling = true)
    (show (exec SearchAll.step start (Sample.oneByOne 0 1)).any _ = true by decide +kernel)
  have hover : ¬ (t.procs 1).pc.Over := by
    intro hover
    obtain ⟨r, hr⟩ := hover.done
    rw [hr] at hcalling
    cases hcalling
  have hontime : ∀ before p, before ++ [p] <+: steps → OnTime 8 (fun _ _ => 1 / 2) 0 before p :=
    forall_prefix_of_inits (by decide +kernel)
  have hlatency := (search_all_latency (by decide) (fun _ _ => by decide +kernel)
    (Trace.of_exec ht) hontime).2 1 hover
  exact ⟨t, ht, hclock, by decide +kernel, hlatency.2.1⟩

end FlyDesk
