/-
FlyDesk/Search/Registry.lean

The registry of breakers.  All requests share it, and a provider has one breaker in it,
whoever searches.  Seen from one name the service is a run of `Breakers`: its calls are
the tasks of that name, in all requests, and nothing else touches the breaker
(`SearchService.breaker_refines`).  So what is true of one breaker is true of every
entry, and whether a provider is called is a matter of how its last searches ended
(`SearchService.refused_iff_failures`).
-/
import FlyDesk.Common.BreakerHistory
import FlyDesk.Lib.Simulation
import FlyDesk.Search.Answers

namespace FlyDesk

open Lib

variable {n : ℕ} {name : String}

/-! ### A task is a call of its breaker -/

/-- What a task tells the breaker of this name when it moves, if anything. -/
def SearchFrame.completion (name : String) (now : ℚ) (f : SearchFrame) : Option Completion :=
  if f.provider.name = name then
    match f.pc with
    | .attempt i =>
      match retryStep 2 searchRetryOn i (f.provider.attempt i) with
      | .ends (.ok _) => some .success
      | .ends (.error e) => if e.isException then some (.failure now) else none
      | .again => none
    | _ => none
  else none

/-- Where the call of a task is.  A task that is over makes no more moves. -/
def SearchPc.Matches : SearchPc → BreakerCall → Prop
  | .created, c | .queued, c => c = .idle
  | .attempt _, c | .sleeping _, c => c = .running
  | .done _, _ => True

/-- The breaker of a name, with the clock. -/
def Fanout.guarded (w : Fanout) (name : String) : Guarded where
  breaker := w.breakers.getBreaker name
  clock := w.clock

variable {κ : Type*} [DecidableEq κ] {b : Breakers κ} {k : κ}

/-- A breaker that is not told anything. -/
theorem Breakers.stays {w : Guarded} (h : b.shared = w) :
    Trace Breakers.step b [] { shared := w, procs := Function.update b.procs k (b.procs k) } := by
  rw [Function.update_eq_self, ← h]
  exact .nil

/-- The step of a call. -/
theorem Breakers.moves {w : Guarded} {a : BreakerAction} {c : BreakerCall}
    (h : (b.procs k).step b.shared a = some (w, c)) :
    Trace Breakers.step b [(b, .proc k a)]
      { shared := w, procs := Function.update b.procs k c } := by
  refine Trace.single ?_
  show Option.map _ _ = _
  rw [h]
  rfl

/-- The step of a task of this name is a step of its call, or its breaker does not see
it. -/
theorem SearchFrame.Steps.call {w w' : Fanout} {p : AsyncFlightProvider} {pc pc' : SearchPc}
    (h : SearchFrame.Steps w p pc w' pc') (hb : b.shared = w.guarded p.name)
    (hm : pc.Matches (b.procs k)) :
    ∃ more c, Trace Breakers.step b more
        { shared := w'.guarded p.name, procs := Function.update b.procs k c } ∧
      pc'.Matches c ∧
      history more = (SearchFrame.completion p.name w.clock ⟨p, pc⟩).toList := by
  have hdone : ∀ r, SearchPc.Matches (.done r) (b.procs k) := fun _ => trivial
  cases h with
  | enter =>
      refine ⟨[], _, Breakers.stays ?_, hm, by simp [history, SearchFrame.completion]⟩
      rw [hb, Fanout.guarded, Fanout.guarded, BreakerRegistry.getBreaker_put]
  | again hr =>
      refine ⟨[], _, Breakers.stays hb, hm, ?_⟩
      simp [history, SearchFrame.completion, hr]
  | wake => exact ⟨[], _, Breakers.stays hb, hm, by simp [history, SearchFrame.completion]⟩
  | away _ ho =>
      replace hm : b.procs k = .idle := hm
      refine ⟨_, .rejected, Breakers.moves (a := .start) ?_, trivial,
        by simp [history, completion?, SearchFrame.completion]⟩
      rw [hm, hb]
      exact if_pos ho
  | turn _ ho =>
      replace hm : b.procs k = .idle := hm
      refine ⟨_, .running, Breakers.moves (a := .start) ?_, rfl,
        by simp [history, completion?, SearchFrame.completion]⟩
      rw [hm, hb]
      exact if_neg ho
  | @ends i r hr =>
      replace hm : b.procs k = .running := hm
      have hleave : (w.leave p.name r).guarded p.name =
          ⟨(w.breakers.getBreaker p.name).record w.clock r, w.clock⟩ := by
        rw [Fanout.guarded, Fanout.leave, BreakerRegistry.getBreaker_put]
      rw [hleave]
      cases r with
      | ok found =>
          refine ⟨_, .returned, Breakers.moves (a := .succeed) ?_, trivial,
            by simp [history, completion?, SearchFrame.completion, hr]⟩
          rw [hm, hb]
          rfl
      | error e =>
          by_cases he : e.isException = true
          · refine ⟨_, .raised, Breakers.moves (a := .fail) ?_, trivial, ?_⟩
            · rw [hm, hb, CircuitBreaker.record, if_pos he]
              rfl
            · simp [history, completion?, SearchFrame.completion, hr, he, hb, Fanout.guarded]
          · refine ⟨_, .cancelled, Breakers.moves (a := .cancel) ?_, trivial, ?_⟩
            · rw [hm, hb, CircuitBreaker.record, if_neg he]
              rfl
            · simp [history, completion?, SearchFrame.completion, hr, he]

/-- The step of any task, seen from the breaker of a name. -/
theorem SearchFrame.Steps.breaker {w w' : Fanout} {f : SearchFrame} {pc : SearchPc}
    (h : SearchFrame.Steps w f.provider f.pc w' pc) (hb : b.shared = w.guarded name)
    (hm : f.provider.name = name → f.pc.Matches (b.procs k)) :
    ∃ more c, Trace Breakers.step b more
        { shared := w'.guarded name, procs := Function.update b.procs k c } ∧
      (f.provider.name = name → pc.Matches c) ∧
      history more = (f.completion name w.clock).toList := by
  by_cases hname : f.provider.name = name
  · subst hname
    obtain ⟨more, c, hmore, hc, hhistory⟩ := h.call hb (hm rfl)
    exact ⟨more, c, hmore, fun _ => hc, hhistory⟩
  · refine ⟨[], b.procs k, Breakers.stays ?_, fun he => absurd he hname, ?_⟩
    · rw [hb, Fanout.guarded, Fanout.guarded, h.getBreaker_of_ne (Ne.symm hname), h.clock_eq]
    · rw [SearchFrame.completion, if_neg hname]
      rfl

/-! ### The service, seen from a name -/

variable {S : SearchSettings} {ι : Type*} {criteria : ι → SearchCriteria}
  {providers : ι → Fin n → AsyncFlightProvider} {s t : SearchService ι n}
  {steps : List (SearchService ι n × SearchServiceMove ι n)} {i : ι} {j : Fin n}

/-- What a step of the service tells the breaker of a name. -/
def completionAt (name : String) : SearchService ι n × SearchServiceMove ι n → Option Completion
  | (s, .proc i (.task j)) =>
    match (s.procs i).pc with
    | .searching _ tasks => (tasks j).completion name s.shared.clock
    | _ => none
  | _ => none

/-- How the searches of the providers of a name have ended, in all requests. -/
def completionsOf (name : String) (steps : List (SearchService ι n × SearchServiceMove ι n)) :
    List Completion :=
  steps.filterMap (completionAt name)

/-- The breaker of a name, with the clock. -/
def SearchWorld.guarded (w : SearchWorld) (name : String) : Guarded where
  breaker := w.breakers.getBreaker name
  clock := w.clock

/-- Where the calls of a request are. -/
def RequestPc.Matches (name : String) : RequestPc n → (Fin n → BreakerCall) → Prop
  | .reading, calls => ∀ j, calls j = .idle
  | .searching _ tasks, calls =>
    ∀ j, (tasks j).provider.name = name → (tasks j).pc.Matches (calls j)
  | .writing _ _, _ | .done _, _ => True

/-- The service, and a run of the breaker of a name that stands where the service
does. -/
structure SeenFrom (name : String) (steps : List (SearchService ι n × SearchServiceMove ι n))
    (s : SearchService ι n) (bsteps : List (Breakers (ι × Fin n) × BreakerMove (ι × Fin n)))
    (b : Breakers (ι × Fin n)) : Prop where
  shared : b.shared = s.shared.guarded name
  calls : ∀ i, (s.procs i).pc.Matches name fun j => b.procs (i, j)
  history : history bsteps = completionsOf name steps

variable {bsteps : List (Breakers (ι × Fin n) × BreakerMove (ι × Fin n))}
  {b : Breakers (ι × Fin n)}

/-- A step that the breaker does not see. -/
theorem SeenFrom.quiet {m : SearchServiceMove ι n} (h : SeenFrom name steps s bsteps b)
    (hshared : t.shared.guarded name = s.shared.guarded name)
    (hcalls : ∀ i, (t.procs i).pc.Matches name fun j => b.procs (i, j))
    (hnone : completionAt name (s, m) = none) :
    SeenFrom name (steps ++ [(s, m)]) t bsteps b where
  shared := h.shared.trans hshared.symm
  calls := hcalls
  history := by
    rw [h.history, completionsOf, completionsOf, List.filterMap_append]
    simp [hnone]

variable [DecidableEq ι]

/-- The step of a task of request `i`. -/
theorem SeenFrom.task {permits : ℕ} {tasks : Fin n → SearchFrame} {u : SearchAll n}
    {f : RequestFrame n} (h : SeenFrom name steps s bsteps b)
    (hpc : (s.procs i).pc = .searching permits tasks)
    (hu : (s.shared.fanout permits tasks).step (.proc j ()) = some u)
    (hf : f.pc = .searching u.shared.permits u.procs) :
    ∃ more b', Trace Breakers.step b more b' ∧
      SeenFrom name (steps ++ [(s, .proc i (.task j))])
        ⟨{ s.shared with breakers := u.shared.breakers }, Function.update s.procs i f⟩
        (bsteps ++ more) b' := by
  obtain ⟨v, g, hg, rfl⟩ := System.step_proc hu
  obtain ⟨hprovider, hsteps⟩ := SearchFrame.steps_of_step hg
  have hi := h.calls i
  rw [hpc] at hi
  obtain ⟨more, c, hmore, hc, hhistory⟩ := hsteps.breaker (k := (i, j)) h.shared (hi j)
  refine ⟨more, _, hmore, ?_, ?_, ?_⟩
  · show v.guarded name = Guarded.mk _ _
    rw [Fanout.guarded, hsteps.clock_eq]
    rfl
  · -- the other requests, and the other tasks of this one, are where they were
    intro i'
    by_cases hi' : i' = i
    · subst hi'
      simp only [Function.update_self, hf]
      intro j' hj'
      by_cases hj : j' = j
      · subst hj
        simp only [Function.update_self] at hj' ⊢
        exact hc (hprovider ▸ hj')
      · have hne : (i', j') ≠ (i', j) := fun he => hj (Prod.mk.inj he).2
        simp only [Function.update_of_ne hj, Function.update_of_ne hne] at hj' ⊢
        exact hi j' hj'
    · have hne : ∀ j', (i', j') ≠ (i, j) := fun j' he => hi' (Prod.mk.inj he).1
      simp only [Function.update_of_ne hi', Function.update_of_ne (hne _)]
      exact h.calls i'
  · have hat : completionAt name (s, .proc i (.task j)) =
        (tasks j).completion name s.shared.clock := by
      simp only [completionAt, hpc]
    rw [FlyDesk.history, List.filterMap_append, completionsOf, List.filterMap_append]
    refine congrArg₂ _ h.history (hhistory.trans ?_)
    calc ((tasks j).completion name s.shared.clock).toList
        = (completionAt name (s, .proc i (.task j))).toList := by rw [hat]
      _ = [(s, .proc i (.task j))].filterMap (completionAt name) := by
        cases e : completionAt name (s, .proc i (.task j)) <;> simp [e]

/-- Every step of the service is matched by the breaker. -/
theorem SeenFrom.step {m : SearchServiceMove ι n} (h : SeenFrom name steps s bsteps b)
    (hs : s.step S m = some t) :
    ∃ more b', Trace Breakers.step b more b' ∧
      SeenFrom name (steps ++ [(s, m)]) t (bsteps ++ more) b' := by
  -- a step that leaves the breakers, and has a task neither before nor after it
  have hquiet : ∀ {m : SearchServiceMove ι n} {t : SearchService ι n},
      t.shared.guarded name = s.shared.guarded name →
      (∀ i, (t.procs i).pc.Matches name fun j => b.procs (i, j)) →
      completionAt name (s, m) = none →
      ∃ more b', Trace Breakers.step b more b' ∧
        SeenFrom name (steps ++ [(s, m)]) t (bsteps ++ more) b' := by
    intro m t hshared hcalls hnone
    refine ⟨[], b, .nil, ?_⟩
    rw [List.append_nil]
    exact h.quiet hshared hcalls hnone
  cases m with
  | proc i a =>
      obtain ⟨w, f, hf, rfl⟩ := System.step_proc hs
      obtain ⟨-, -, hstep⟩ := RequestFrame.steps_of_step hf
      have hupdate : f.pc.Matches name (fun j => b.procs (i, j)) →
          ∀ i', (Function.update s.procs i f i').pc.Matches name fun j => b.procs (i', j) :=
        fun hown => (Function.forall_update_iff _ fun i' (g : RequestFrame n) =>
          g.pc.Matches name fun j => b.procs (i', j)).mpr ⟨hown, fun i' _ => h.calls i'⟩
      generalize hpc' : f.pc = pc' at hstep hupdate
      cases hstep with
      | miss hpc =>
          refine hquiet rfl (hupdate ?_) rfl
          have hidle := h.calls i
          rw [hpc] at hidle
          exact fun j _ => hidle j
      | hit | raises | full | partly | unstored | stored =>
          exact hquiet rfl (hupdate trivial) rfl
      | task hpc hu => exact h.task hpc hu hpc'
  | env e =>
      obtain ⟨w, hw, rfl⟩ := System.step_env hs
      cases e with
      | evict key =>
          obtain rfl := Option.some.inj hw
          exact hquiet rfl h.calls rfl
      | tick d =>
          obtain ⟨hd, hw⟩ := Option.ite_none_right_eq_some.mp hw
          obtain rfl := Option.some.inj hw
          refine ⟨_, { b with shared := { b.shared with clock := b.shared.clock + d } },
            Trace.single (a := .env d) ?_, ?_, h.calls, ?_⟩
          · show Option.map _ (Guarded.tick _ d) = _
            rw [Guarded.tick, if_pos hd]
            rfl
          · rw [h.shared]
            rfl
          · rw [history_snoc, h.history, completionsOf, completionsOf, List.filterMap_append]
            rfl

/-- The turn of task `j` of request `i` comes, to call a provider of this name. -/
def Comes (name : String) (i : ι) (j : Fin n) (q : SearchService ι n × SearchServiceMove ι n) :
    Prop :=
  q.2 = .proc i (.task j) ∧ ∃ permits tasks, (q.1.procs i).pc = .searching permits tasks ∧
    (tasks j).pc = .queued ∧ (tasks j).provider.name = name

omit [DecidableEq ι] in
theorem Comes.refusedAt_iff {q : SearchService ι n × SearchServiceMove ι n}
    (h : Comes name i j q) : RefusedAt i j q ↔
      (q.1.shared.breakers.getBreaker name).state q.1.shared.clock = .opened := by
  obtain ⟨hmove, permits, tasks, hpc, hqueued, rfl⟩ := h
  constructor
  · rintro ⟨-, permits', tasks', hpc', -, -, ho⟩
    obtain ⟨rfl, rfl⟩ := RequestPc.searching.inj (hpc.symm.trans hpc')
    exact ho
  · intro ho
    exact ⟨hmove, permits, tasks, hpc, rfl, hqueued, ho⟩

namespace Sample

/-- A provider that does not parse. -/
def garbled : Fin 1 → AsyncFlightProvider := fun _ =>
  { name := "duffel", search := fun _ => .raises .valueError }

/-- The moves of a request that finds its provider broken. -/
def brokenSearch (i : ℕ) : List (SearchServiceMove ℕ 1) :=
  [.proc i (.get false), turn i, turn i, turn i, .proc i .gather]

/-- Three requests fail, and a fourth comes to call the provider. -/
def fourth : List (SearchServiceMove ℕ 1) :=
  brokenSearch 0 ++ brokenSearch 1 ++ brokenSearch 2 ++ [.proc 3 (.get false), turn 3]

end Sample

variable {breakers : BreakerRegistry} {clock : ℚ}

/-- **Every run of the service is a run of the breaker of a name.** -/
theorem SearchService.seen_run (name : String)
    (hrun : Trace (SearchService.step S) (SearchService.start criteria providers breakers clock)
      steps t) :
    ∃ bsteps b, Trace Breakers.step
        (⟨⟨breakers.getBreaker name, clock⟩, fun _ => .idle⟩ : Breakers (ι × Fin n)) bsteps b ∧
      SeenFrom name steps t bsteps b := by
  refine hrun.simulates (R := SeenFrom name) (A := fun _ _ => True) (fun _ _ => trivial)
    ⟨rfl, fun _ _ => rfl, rfl⟩ fun h _ hs => h.step hs

/-- **Every breaker of the registry is a breaker of its own.**  Seen from the breaker of
a name, the service is a run of `Breakers`: the calls are the tasks of that name in all
requests, each where its task is, and what this run records is what they told the
breaker. -/
theorem SearchService.breaker_refines (name : String)
    (hrun : Trace (SearchService.step S) (SearchService.start criteria providers breakers clock)
      steps t) :
    ∃ bsteps b, Trace Breakers.step
        (⟨⟨breakers.getBreaker name, clock⟩, fun _ => .idle⟩ : Breakers (ι × Fin n)) bsteps b ∧
      b.shared.breaker = t.shared.breakers.getBreaker name ∧
      b.shared.clock = t.shared.clock ∧ history bsteps = completionsOf name steps ∧
      ∀ i permits tasks, (t.procs i).pc = .searching permits tasks →
        ∀ j, (tasks j).provider.name = name → (tasks j).pc.Matches (b.procs (i, j)) := by
  obtain ⟨bsteps, b, hb, hseen⟩ := SearchService.seen_run name hrun
  refine ⟨bsteps, b, hb, congrArg Guarded.breaker hseen.shared,
    congrArg Guarded.clock hseen.shared, hseen.history, fun i permits tasks hpc => ?_⟩
  have hcalls := hseen.calls i
  rwa [hpc] at hcalls

/-- The breaker has seen three calls fail, and the fourth has not begun. -/
theorem SearchService.breaker_refines_fourth :
    let start := SearchService.start (fun _ : ℕ => Sample.trip) (fun _ => Sample.garbled)
      (fun _ => none) 0
    (exec (SearchService.step Sample.settings) start Sample.fourth).isSome = true ∧
      ∃ bsteps b, Trace Breakers.step (Breakers.new 3 30 0 : Breakers (ℕ × Fin 1)) bsteps b ∧
        history bsteps = [.failure 0, .failure 0, .failure 0] ∧ b.procs (3, 0) = .idle := by
  intro start
  obtain ⟨u, hu, -, permits, tasks, hpc, hqueued, hname⟩ : ∃ u,
      exec (SearchService.step Sample.settings) start Sample.fourth = some u ∧
      Comes "duffel" 3 0 (u, .proc 3 (.task 0)) := ⟨_, rfl, rfl, _, _, rfl, rfl, rfl⟩
  obtain ⟨bsteps, b, hb, -, -, hhistory, hcalls⟩ :=
    SearchService.breaker_refines "duffel" (Trace.of_exec hu)
  have hidle := hcalls 3 permits tasks hpc 0 hname
  rw [hqueued] at hidle
  exact ⟨by rw [hu]; rfl, bsteps, b, hb, hhistory.trans rfl, hidle⟩

/-- A breaker that was new has the history of its name. -/
theorem SearchService.follows_run (hnew : breakers name = none)
    (hrun : Trace (SearchService.step S) (SearchService.start criteria providers breakers clock)
      steps t) :
    (t.shared.breakers.getBreaker name).failureThreshold = 3 ∧
      (t.shared.breakers.getBreaker name).resetTimeout = 30 ∧
      (t.shared.breakers.getBreaker name).Follows (completionsOf name steps) := by
  obtain ⟨bsteps, b, hb, hseen⟩ := SearchService.seen_run name hrun
  have hstart : breakers.getBreaker name = .create 3 30 := by
    rw [BreakerRegistry.getBreaker, hnew]
    rfl
  rw [hstart] at hb
  have hremembers := Breakers.remembers_new.run (by decide) hb
  rw [List.nil_append, hseen.history] at hremembers
  have hbreaker : b.shared.breaker = t.shared.breakers.getBreaker name :=
    congrArg Guarded.breaker hseen.shared
  rw [← hbreaker]
  exact ⟨hremembers.failureThreshold, hremembers.resetTimeout, hremembers.follows⟩

/-- **Whether a provider is called.**  A breaker that is new when the service starts
counts the searches of its name, in all requests, that have failed since the last one
that did not; and a task whose turn comes is refused just if these are three or more
and the latest of them was less than 30 seconds ago. -/
theorem SearchService.refused_iff_failures (hnew : breakers name = none)
    (hrun : Trace (SearchService.step S) (SearchService.start criteria providers breakers clock)
      steps t) :
    (t.shared.breakers.getBreaker name).failures = failuresSince (completionsOf name steps) ∧
      ∀ before q, before ++ [q] <+: steps → ∀ i j, Comes name i j q →
        (RefusedAt i j q ↔ 3 ≤ failuresSince (completionsOf name before) ∧
          ∃ τ, latestFailure (completionsOf name before) = some τ ∧
            q.1.shared.clock - τ < 30) := by
  refine ⟨(SearchService.follows_run hnew hrun).2.2.failures, fun before q hpre i j hcomes => ?_⟩
  obtain ⟨hthreshold, htimeout, hfollows⟩ := SearchService.follows_run hnew (hrun.upTo hpre)
  rw [hcomes.refusedAt_iff, hfollows.state_eq_opened, hthreshold, htimeout]

/-- The fourth request is refused. -/
theorem SearchService.refused_iff_failures_fourth :
    let start := SearchService.start (fun _ : ℕ => Sample.trip) (fun _ => Sample.garbled)
      (fun _ => none) 0
    ∃ u, exec (SearchService.step Sample.settings) start Sample.fourth = some u ∧
      RefusedAt 3 0 (u, .proc 3 (.task 0)) := by
  intro start
  obtain ⟨u, hu, hclock, hcomes⟩ : ∃ u,
      exec (SearchService.step Sample.settings) start Sample.fourth = some u ∧
      u.shared.clock = 0 ∧ Comes "duffel" 3 0 (u, .proc 3 (.task 0)) :=
    ⟨_, rfl, rfl, rfl, _, _, rfl, rfl, rfl⟩
  have hhistory : completionsOf "duffel"
      (execSteps (SearchService.step Sample.settings) start Sample.fourth) =
      [.failure 0, .failure 0, .failure 0] := rfl
  obtain ⟨t, ht⟩ : ∃ t, SearchService.step Sample.settings u (.proc 3 (.task 0)) = some t := by
    have hlast : ((exec (SearchService.step Sample.settings) start Sample.fourth).bind fun v =>
        SearchService.step Sample.settings v (.proc 3 (.task 0))).isSome = true := by
      decide +kernel
    rw [hu] at hlast
    exact Option.isSome_iff_exists.mp hlast
  refine ⟨u, hu, ?_⟩
  refine ((SearchService.refused_iff_failures rfl ((Trace.of_exec hu).snoc ht)).2 _ _
    List.prefix_rfl 3 0 hcomes).mpr ?_
  rw [hhistory]
  refine ⟨by decide, 0, rfl, ?_⟩
  show u.shared.clock - 0 < 30
  rw [hclock]
  norm_num

end FlyDesk
