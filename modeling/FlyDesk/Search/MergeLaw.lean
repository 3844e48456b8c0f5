/-
FlyDesk/Search/MergeLaw.lean

What a search returns.  A provider contributes offers if its circuit was not
open when its turn came and it delivered: its first call succeeded, or failed
in a way that is retried and the second succeeded.  `Merged` says what the
answer is in these terms, and `search_all_merge` that every search that
returns has this answer, whatever the interleaving.

A provider's contribution depends on that provider and its breaker alone: in a
search during which the clock stands still and nothing else touches the
breakers, its circuit is open at its turn just if it was open at the start
(`SearchAll.Quiet`).
-/
import FlyDesk.Common.Backoff
import FlyDesk.Lib.Schema
import FlyDesk.Search.AsyncService

namespace FlyDesk

open Lib

variable {n : ℕ}

/-! ### What a provider contributes -/

namespace AsyncFlightProvider

variable {p : AsyncFlightProvider}

/-- The first call fails in a way that is retried: it is late, or it raises a
`ProviderError` or a `TimeoutError`. -/
def Blips (p : AsyncFlightProvider) : Prop :=
  p.search 0 = .late ∨ p.search 0 = .raises .timeoutError ∨
    p.search 0 = .raises .providerError ∨ p.search 0 = .raises .providerTimeoutError

/-- The calls succeed with these offers: the first, or the second after a
failure that is retried. -/
def Delivers (p : AsyncFlightProvider) (offers : List Offer) : Prop :=
  p.search 0 = .returns offers ∨ p.Blips ∧ p.search 1 = .returns offers

/-- The calls end in `CancelledError`: the first, or the second after a
failure that is retried. -/
def Cancels (p : AsyncFlightProvider) : Prop :=
  p.search 0 = .raises .cancelledError ∨ p.Blips ∧ p.search 1 = .raises .cancelledError

/-- What blips is what `retry_on` lets through. -/
theorem blips_iff : p.Blips ↔ ∃ e, p.attempt 0 = .error e ∧ searchRetryOn e = true := by
  rcases h : p.search 0 with offers | e | _
  · simp [Blips, attempt, h]
  · cases e <;> simp [Blips, attempt, h, searchRetryOn, Exn.isProviderError]
  · simp [Blips, attempt, h, searchRetryOn]

theorem attempt_eq_ok {i : ℕ} {offers : List Offer} :
    p.attempt i = .ok offers ↔ p.search i = .returns offers := by
  rcases h : p.search i with found | e | _ <;> simp [attempt, h]

theorem attempt_eq_cancelled {i : ℕ} :
    p.attempt i = .error .cancelledError ↔ p.search i = .raises .cancelledError := by
  rcases h : p.search i with found | e | _ <;> simp [attempt, h]

theorem not_blips_of_attempt {offers : List Offer} (h : p.attempt 0 = .ok offers) :
    ¬ p.Blips := by
  rw [blips_iff, h]
  rintro ⟨e, he, -⟩
  cases he

end AsyncFlightProvider

/-- At this step the turn of provider `i` comes, and its circuit is open. -/
def TurnedAway (i : Fin n) (p : SearchAll n × SearchMove n) : Prop :=
  p.2 = .proc i () ∧ (p.1.procs i).pc = .queued ∧
    (p.1.shared.breakers.getBreaker (p.1.procs i).provider.name).state p.1.shared.clock = .opened

/-- The circuit of provider `i` was open when its turn came. -/
def FoundOpen (steps : List (SearchAll n × SearchMove n)) (i : Fin n) : Prop :=
  ∃ p ∈ steps, TurnedAway i p

/-- The answer of a search over `providers`, where those in `away` found their
circuit open: every provider contributes what it delivers, the offers are the
stable sort of the contributions in the order of the providers, and those
without a contribution are degraded. -/
structure Merged (providers : Fin n → AsyncFlightProvider) (away : Fin n → Prop)
    (contribution : Fin n → Option (List Offer)) (offers : List Offer)
    (degraded : List String) : Prop where
  delivers : ∀ i found, contribution i = some found ↔ ¬ away i ∧ (providers i).Delivers found
  offers : StableSort (fun o => o.total.amount.value)
    ((List.finRange n).flatMap fun i => (contribution i).getD []) offers
  degraded : degraded = ((List.finRange n).filter fun i => (contribution i).isNone).map
    fun i => (providers i).name

/-! ### What a task has met -/

/-- What the calls end with. -/
def AsyncFlightProvider.Answers (p : AsyncFlightProvider) (r : Except Exn (List Offer)) : Prop :=
  ¬ p.Blips ∧ r = p.attempt 0 ∨ p.Blips ∧ r = p.attempt 1

theorem AsyncFlightProvider.answers_ok {p : AsyncFlightProvider} {found : List Offer} :
    p.Answers (.ok found) ↔ p.Delivers found := by
  rw [AsyncFlightProvider.Delivers, ← attempt_eq_ok, ← attempt_eq_ok]
  constructor
  · rintro (⟨_, h⟩ | ⟨hb, h⟩)
    · exact Or.inl h.symm
    · exact Or.inr ⟨hb, h.symm⟩
  · rintro (h | ⟨hb, h⟩)
    · exact Or.inl ⟨not_blips_of_attempt h, h.symm⟩
    · exact Or.inr ⟨hb, h.symm⟩

/-- They end in `CancelledError` where the provider cancels. -/
theorem AsyncFlightProvider.answers_cancelled {p : AsyncFlightProvider} :
    p.Answers (.error .cancelledError) ↔ p.Cancels := by
  rw [AsyncFlightProvider.Cancels, ← attempt_eq_cancelled, ← attempt_eq_cancelled]
  constructor
  · rintro (⟨_, h⟩ | ⟨hb, h⟩)
    · exact Or.inl h.symm
    · exact Or.inr ⟨hb, h.symm⟩
  · rintro (h | ⟨hb, h⟩)
    · refine Or.inl ⟨?_, h.symm⟩
      -- a cancellation is not retried
      rw [blips_iff, h]
      rintro ⟨e, he, hretry⟩
      obtain rfl := Except.error.inj he
      cases hretry
    · exact Or.inr ⟨hb, h.symm⟩

theorem AsyncFlightProvider.Answers.unique {p : AsyncFlightProvider}
    {r r' : Except Exn (List Offer)} (h : p.Answers r) (h' : p.Answers r') : r = r' := by
  rcases h with ⟨hb, rfl⟩ | ⟨hb, rfl⟩ <;> rcases h' with ⟨hb', rfl⟩ | ⟨hb', rfl⟩
  · rfl
  · exact absurd hb' hb
  · exact absurd hb hb'
  · rfl

/-- What `_search_one` hands to `retry_async`. -/
def searchRetryOptions : RetryOptions Exn :=
  { RetryOptions.default with attempts := 2, retryOn := searchRetryOn }

/-- The answer of a provider is what `retry_async` makes of its calls. -/
theorem AsyncFlightProvider.answers_iff_retryAsync {p : AsyncFlightProvider}
    {r : Except Exn (List Offer)} (random : Stream' ℚ) :
    p.Answers r ↔ (searchRetryOptions.retryAsync p.attempt random).result = .ofOutcome r := by
  obtain ⟨k, hk, hrun⟩ := RetryOptions.loop_spec (o := searchRetryOptions) (i := 0) (n := 2)
    (by decide) rfl none p.attempt random
  have hanswer : p.Answers (p.attempt (k - 1)) := by
    obtain rfl | rfl : k = 1 ∨ k = 2 := by have := hk.pos; have := hk.le; omega
    · exact Or.inl ⟨fun hb => hk.here.resolve_left (by decide) (blips_iff.mp hb), rfl⟩
    · exact Or.inr ⟨blips_iff.mpr (hk.before 0 (by decide)), rfl⟩
  have hresult : (searchRetryOptions.retryAsync p.attempt random).result
      = .ofOutcome (p.attempt (k - 1)) := congrArg RetryRun.result hrun
  rw [hresult]
  constructor
  · intro h
    rw [h.unique hanswer]
  · intro h
    rwa [← RetryResult.ofOutcome_injective h]

/-- What is behind a task, from the point it is at. -/
def SearchPc.Told (p : AsyncFlightProvider) (away : Prop) : SearchPc → Prop
  | .created | .queued => ¬ away
  | .attempt i => ¬ away ∧ (i = 0 ∨ i = 1 ∧ p.Blips)
  | .sleeping i => ¬ away ∧ i = 0 ∧ p.Blips
  | .done r => away ∧ r = .error .circuitOpenError ∨ ¬ away ∧ p.Answers r

/-- The tasks search their providers, and what is behind each is what the run
has seen. -/
def SearchAll.Tells (providers : Fin n → AsyncFlightProvider)
    (steps : List (SearchAll n × SearchMove n)) (s : SearchAll n) : Prop :=
  ∀ i, (s.procs i).provider = providers i ∧
    (s.procs i).pc.Told (providers i) (FoundOpen steps i)

theorem foundOpen_snoc {steps : List (SearchAll n × SearchMove n)} {i : Fin n}
    {p : SearchAll n × SearchMove n} :
    FoundOpen (steps ++ [p]) i ↔ FoundOpen steps i ∨ TurnedAway i p := by
  simp [FoundOpen, or_and_right, exists_or]

/-- The step of a task, as far as it and its provider are concerned. -/
theorem SearchPc.Told.step {w w' : Fanout} {p : AsyncFlightProvider} {away : Prop}
    {pc pc' : SearchPc} (h : pc.Told p away) (hs : SearchFrame.Steps w p pc w' pc') :
    pc'.Told p (away ∨ pc = .queued ∧ (w.breakers.getBreaker p.name).state w.clock = .opened) := by
  cases hs with
  | enter =>
      rintro (ha | ⟨hq, _⟩)
      · exact h ha
      · cases hq
  | away _ ho => exact Or.inl ⟨Or.inr ⟨rfl, ho⟩, rfl⟩
  | turn _ ho =>
      refine ⟨?_, Or.inl rfl⟩
      rintro (ha | ⟨_, ho'⟩)
      · exact h ha
      · exact ho ho'
  | @ends i r hr =>
      -- it ends with call `i`: the first did not blip, or this is the second
      obtain ⟨ha, hi⟩ := h
      obtain ⟨rfl, hlast⟩ := retryStep_eq_ends.mp hr
      refine Or.inr ⟨by simp [ha], ?_⟩
      rcases hi with rfl | ⟨rfl, hb⟩
      · exact Or.inl ⟨fun hb => hlast ⟨AsyncFlightProvider.blips_iff.mp hb, by decide⟩, rfl⟩
      · exact Or.inr ⟨hb, rfl⟩
  | @again i hr =>
      -- there are two attempts, so this is after the first
      obtain ⟨ha, hi⟩ := h
      obtain ⟨hb, hlast⟩ := retryStep_eq_again.mp hr
      rcases hi with rfl | ⟨rfl, _⟩
      · exact ⟨by simp [ha], rfl, AsyncFlightProvider.blips_iff.mpr hb⟩
      · exact absurd rfl hlast
  | wake =>
      obtain ⟨ha, rfl, hb⟩ := h
      exact ⟨by simp [ha], Or.inr ⟨rfl, hb⟩⟩

variable {providers : Fin n → AsyncFlightProvider} {maxConcurrency : ℕ}
  {breakers : BreakerRegistry} {clock : ℚ} {s t : SearchAll n}
  {steps : List (SearchAll n × SearchMove n)}

/-- The step lemma of `Tells`. -/
theorem SearchAll.Tells.step {m : SearchMove n} (h : s.Tells providers steps)
    (hs : s.step m = some t) : t.Tells providers (steps ++ [(s, m)]) := by
  intro i
  obtain ⟨hp, hpc⟩ := h i
  rcases System.still_or_moved hs i with ⟨hm, he⟩ | ⟨_, rfl, hstep⟩
  · -- not its step, so not its turn either
    have hidle : ¬ TurnedAway i (s, m) := fun ha => hm () ha.1
    rw [he, foundOpen_snoc, or_iff_left hidle]
    exact ⟨hp, hpc⟩
  · obtain ⟨hprov, hsteps⟩ := SearchFrame.steps_of_step hstep
    have hnext := hpc.step (hp ▸ hsteps)
    have haway : TurnedAway i (s, .proc i ()) ↔ (s.procs i).pc = .queued ∧
        (s.shared.breakers.getBreaker (providers i).name).state s.shared.clock = .opened := by
      simp only [TurnedAway, hp, true_and]
    rw [foundOpen_snoc, haway]
    exact ⟨hprov.trans hp, hnext⟩

/-- **The run of a search tells what became of every provider.** -/
theorem SearchAll.tells_run
    (h : Trace SearchAll.step (SearchAll.start providers maxConcurrency breakers clock) steps t) :
    t.Tells providers steps := by
  refine h.history (A := fun _ _ => True) (I := fun l u => SearchAll.Tells providers l u)
    (fun _ _ => trivial) ?_ fun hI _ hs => hI.step hs
  intro i
  refine ⟨rfl, ?_⟩
  show ¬ FoundOpen [] i
  simp [FoundOpen]

/-! ### The answer -/

theorem SearchPc.result?_eq_some {pc : SearchPc} {r : Except Exn (List Offer)} :
    pc.result? = some r ↔ pc = .done r := by
  cases pc <;> simp [SearchPc.result?]

/-- All results are there just if all tasks are done. -/
theorem SearchAll.gather_eq_some {results : List (String × Except Exn (List Offer))} :
    s.gather = some results ↔ ∃ r : Fin n → Except Exn (List Offer),
      (∀ i, (s.procs i).pc = .done (r i)) ∧
        results = (List.finRange n).map fun i => ((s.procs i).provider.name, r i) := by
  rw [SearchAll.gather, mapM_eq_some]
  constructor
  · intro h
    have hdone : ∀ i, ∃ r, (s.procs i).pc = .done r := by
      intro i
      have hi := List.mem_map_of_mem (f := fun i => (s.procs i).pc.result?.map fun r =>
        ((s.procs i).provider.name, r)) (List.mem_finRange i)
      rw [h] at hi
      obtain ⟨_, _, hx⟩ := List.mem_map.mp hi
      obtain ⟨r, hr, _⟩ := Option.map_eq_some_iff.mp hx.symm
      exact ⟨r, SearchPc.result?_eq_some.mp hr⟩
    choose r hr using hdone
    refine ⟨r, hr, List.map_injective_iff.mpr (Option.some_injective _) ?_⟩
    rw [← h, List.map_map]
    refine List.map_congr_left fun i _ => ?_
    simp [hr i, SearchPc.result?]
  · rintro ⟨r, hr, rfl⟩
    rw [List.map_map]
    refine List.map_congr_left fun i _ => ?_
    simp [hr i, SearchPc.result?]

/-- What the loop makes of the results. -/
theorem merge_eq_ok {results : List (String × Except Exn (List Offer))} :
    ∀ {os offers : List Offer} {ds degraded : List String},
      merge os ds results = .ok (offers, degraded) ↔
        (∀ p ∈ results, ∀ e, p.2 = .error e → e.isException = true) ∧
          offers = sortBy (fun o => o.total.amount.value)
            (os ++ results.flatMap fun p => p.2.toOption.getD []) ∧
          degraded = ds ++ (results.filter fun p => p.2.toOption.isNone).map Prod.fst := by
  induction results with
  | nil =>
      intro os offers ds degraded
      constructor
      · intro h
        obtain ⟨rfl, rfl⟩ := Prod.mk.inj (Except.ok.inj h)
        simp
      · rintro ⟨_, rfl, rfl⟩
        simp [merge]
  | cons p results ih =>
      intro os offers ds degraded
      obtain ⟨name, e | found⟩ := p
      · by_cases he : e.isException = true
        · simp [merge, he, ih, Except.toOption]
        · simp [merge, he]
      · simp [merge, ih, Except.toOption]

/-- What a task that is done contributes. -/
def SearchAll.contribution (s : SearchAll n) (i : Fin n) : Option (List Offer) :=
  (s.procs i).pc.result?.bind Except.toOption

/-- The answer that a search with this history returns. -/
theorem SearchAll.Tells.merged {offers : List Offer} {degraded : List String}
    (h : t.Tells providers steps) (hret : t.ends = some (.ok (offers, degraded))) :
    Merged providers (FoundOpen steps) t.contribution offers degraded := by
  obtain ⟨results, hgather, hmerge⟩ := Option.map_eq_some_iff.mp hret
  obtain ⟨r, hdone, rfl⟩ := SearchAll.gather_eq_some.mp hgather
  obtain ⟨-, hoffers, hdegraded⟩ := merge_eq_ok.mp hmerge
  have hc : ∀ i, t.contribution i = (r i).toOption := by
    intro i
    rw [SearchAll.contribution, hdone i]
    rfl
  refine ⟨fun i found => ?_, ?_, ?_⟩
  · obtain ⟨-, htold⟩ := h i
    rw [hdone i] at htold
    rw [hc]
    rcases htold with ⟨ha, hr⟩ | ⟨ha, hr⟩
    · rw [hr]
      exact iff_of_false nofun fun hn => hn.1 ha
    · rw [← AsyncFlightProvider.answers_ok]
      constructor
      · intro hi
        rcases e : r i with x | l
        · rw [e] at hi
          cases hi
        · obtain rfl : l = found := by simpa [e, Except.toOption] using hi
          exact ⟨ha, by rwa [e] at hr⟩
      · rintro ⟨-, hi⟩
        rw [hr.unique hi]
        rfl
  · -- the contributions stand in the order of the providers before they are sorted
    rw [hoffers]
    have := sortBy_stable (fun o : Offer => o.total.amount.value)
      ((List.finRange n).flatMap fun i => (t.contribution i).getD [])
    simpa [List.flatMap_map, hc] using this
  · rw [hdegraded, List.nil_append, List.filter_map, List.map_map]
    simp [Function.comp_def, hc, (h _).1]

/-! ### Independence -/

/-- The turn of the task has come. -/
def SearchPc.Served : SearchPc → Prop
  | .created | .queued => False
  | _ => True

/-- The task is over. -/
def SearchPc.Over : SearchPc → Prop
  | .done _ => True
  | _ => False

/-- The clock stands still, and nothing but the search touches the breakers. -/
def Quiet (steps : List (SearchAll n × SearchMove n)) : Prop :=
  ∀ p ∈ steps, ∃ i, p.2 = .proc i ()

section Frame

variable {w w' : Fanout} {p : AsyncFlightProvider} {pc pc' : SearchPc}

theorem SearchFrame.Steps.clock_eq (h : SearchFrame.Steps w p pc w' pc') :
    w'.clock = w.clock := by
  cases h <;> rfl

/-- A task leaves the breakers of other providers alone. -/
theorem SearchFrame.Steps.getBreaker_of_ne (h : SearchFrame.Steps w p pc w' pc')
    {name : String} (hne : name ≠ p.name) :
    w'.breakers.getBreaker name = w.breakers.getBreaker name := by
  cases h with
  | enter => exact BreakerRegistry.getBreaker_put_of_ne hne
  | ends _ => exact BreakerRegistry.getBreaker_put_of_ne hne
  | away _ _ | turn _ _ | again _ | wake => rfl

/-- A task changes its own breaker when it ends and at no other step. -/
theorem SearchFrame.Steps.getBreaker_self (h : SearchFrame.Steps w p pc w' pc')
    (hover : ¬ pc'.Over) : w'.breakers.getBreaker p.name = w.breakers.getBreaker p.name := by
  cases h with
  | enter => exact BreakerRegistry.getBreaker_put _ _ _
  | ends _ => exact absurd trivial hover
  | away _ _ | turn _ _ | again _ | wake => rfl

/-- A task that is not over is not over before its step. -/
theorem SearchFrame.Steps.not_over (h : SearchFrame.Steps w p pc w' pc') : ¬ pc.Over := by
  cases h <;> exact id

/-- Whether a task has been turned away is settled when its turn comes, by the
state its breaker is in then. -/
theorem SearchFrame.Steps.away_iff {away isOpen : Prop} (h : SearchFrame.Steps w p pc w' pc')
    (hopen : (w.breakers.getBreaker p.name).state w.clock = .opened ↔ isOpen)
    (htold : pc.Told p away) (haway : pc.Served → (away ↔ isOpen)) (hserved : pc'.Served) :
    (away ∨ pc = .queued ∧ (w.breakers.getBreaker p.name).state w.clock = .opened) ↔
      isOpen := by
  cases h with
  | enter => cases hserved
  | away _ ho => exact iff_of_true (Or.inr ⟨rfl, ho⟩) (hopen.mp ho)
  | turn _ ho => exact iff_of_false (by simp [show ¬ away from htold, ho]) (ho ∘ hopen.mpr)
  | ends _ | again _ | wake => simpa using haway trivial

end Frame

/-- A search in which nothing but its tasks moves: until a task is over its
breaker is as it was at the start, and it was turned away if that was open. -/
structure SearchAll.Undisturbed (providers : Fin n → AsyncFlightProvider)
    (breakers : BreakerRegistry) (now : ℚ) (steps : List (SearchAll n × SearchMove n))
    (s : SearchAll n) : Prop where
  tells : s.Tells providers steps
  clock : s.shared.clock = now
  breaker : ∀ i, ¬ (s.procs i).pc.Over → s.shared.breakers.getBreaker (providers i).name =
    breakers.getBreaker (providers i).name
  away : ∀ i, (s.procs i).pc.Served → (FoundOpen steps i ↔
    (breakers.getBreaker (providers i).name).state now = .opened)

/-- The step lemma of `Undisturbed`. -/
theorem SearchAll.Undisturbed.step (hnames : Function.Injective fun i => (providers i).name)
    {k : Fin n} (h : s.Undisturbed providers breakers clock steps)
    (hs : s.step (.proc k ()) = some t) :
    t.Undisturbed providers breakers clock (steps ++ [(s, .proc k ())]) := by
  have htells := h.tells.step hs
  obtain ⟨w, f, hf, rfl⟩ := System.step_proc hs
  obtain ⟨hp, htold⟩ := h.tells k
  obtain ⟨-, hsteps⟩ := SearchFrame.steps_of_step hf
  rw [hp] at hsteps
  refine ⟨htells, hsteps.clock_eq.trans h.clock, fun i hover => ?_, fun i hserved => ?_⟩
  · by_cases hi : i = k
    · subst hi
      -- a task that goes on has not touched its breaker
      have hself : ¬ f.pc.Over := by simpa using hover
      exact (hsteps.getBreaker_self hself).trans (h.breaker i hsteps.not_over)
    · have hother : ¬ (s.procs i).pc.Over := by simpa [hi] using hover
      exact (hsteps.getBreaker_of_ne fun he => hi (hnames he)).trans (h.breaker i hother)
  · by_cases hi : i = k
    · subst hi
      have hself : f.pc.Served := by simpa using hserved
      have hbreaker := h.breaker i hsteps.not_over
      rw [foundOpen_snoc]
      simp only [TurnedAway, hp, true_and]
      refine hsteps.away_iff ?_ htold (h.away i) hself
      rw [hbreaker, h.clock]
    · have hother : (s.procs i).pc.Served := by simpa [hi] using hserved
      have hidle : ¬ TurnedAway i (s, .proc k ()) := fun ha => hi (Move.proc.inj ha.1).1.symm
      rw [foundOpen_snoc, or_iff_left hidle]
      exact h.away i hother

/-- In a quiet search a provider is turned away just if its circuit was open
when the search started. -/
theorem SearchAll.undisturbed_run (hnames : Function.Injective fun i => (providers i).name)
    (h : Trace SearchAll.step (SearchAll.start providers maxConcurrency breakers clock) steps t)
    (hquiet : Quiet steps) : t.Undisturbed providers breakers clock steps := by
  refine h.history (A := fun _ m => ∃ i, m = .proc i ())
    (I := fun l u => SearchAll.Undisturbed providers breakers clock l u) hquiet ?_ ?_
  · refine ⟨fun i => ⟨rfl, ?_⟩, rfl, fun _ _ => rfl, fun _ hserved => hserved.elim⟩
    show ¬ FoundOpen [] i
    simp [FoundOpen]
  · rintro l u m v hI ⟨k, rfl⟩ hs
    exact hI.step hnames hs

/-! ### The law -/

section Merged

variable {away away' : Fin n → Prop} {contribution contribution' : Fin n → Option (List Offer)}
  {offers offers' : List Offer} {degraded degraded' : List String}
  {providers' : Fin n → AsyncFlightProvider} {i : Fin n}

/-- The degraded providers are those without a contribution. -/
theorem Merged.mem_degraded (hnames : Function.Injective fun i => (providers i).name)
    (h : Merged providers away contribution offers degraded) :
    (providers i).name ∈ degraded ↔ contribution i = none := by
  rw [h.degraded, List.mem_map]
  constructor
  · rintro ⟨k, hk, he⟩
    obtain rfl := hnames he
    simpa using hk
  · intro hi
    exact ⟨i, by simpa using hi, rfl⟩

/-- A provider that behaves the same and is turned away or not alike
contributes the same. -/
theorem Merged.contribution_congr (h : Merged providers away contribution offers degraded)
    (h' : Merged providers' away' contribution' offers' degraded')
    (hp : providers' i = providers i) (ha : away' i ↔ away i) :
    contribution' i = contribution i := by
  ext found
  rw [h.delivers, h'.delivers, hp, ha]

end Merged

variable {offers : List Offer} {degraded : List String}

/-- All tasks of a search that has returned are over. -/
theorem SearchAll.over_of_ends {r : Except Exn (List Offer × List String)}
    (h : t.ends = some r) (i : Fin n) : ∃ r, (t.procs i).pc = .done r := by
  obtain ⟨_, hgather, -⟩ := Option.map_eq_some_iff.mp h
  obtain ⟨r, hdone, -⟩ := SearchAll.gather_eq_some.mp hgather
  exact ⟨r i, hdone i⟩

/-- **The merge law of the fan-out.**  A search that returns has merged what
its providers contributed.  In a second search in which one provider behaves
in another way or has another breaker, every other provider contributes the
same, and is degraded just if it was. -/
theorem search_all_merge (hnames : Function.Injective fun i => (providers i).name)
    (hrun : Trace SearchAll.step
      (SearchAll.start providers maxConcurrency breakers clock) steps t)
    (hret : t.ends = some (.ok (offers, degraded))) :
    ∃ contribution, Merged providers (FoundOpen steps) contribution offers degraded ∧
      ∀ (changed : Fin n) (providers' : Fin n → AsyncFlightProvider) (maxConcurrency' : ℕ)
        (breakers' : BreakerRegistry) (steps' : List (SearchAll n × SearchMove n))
        (t' : SearchAll n) (offers' : List Offer) (degraded' : List String),
        (∀ i, (providers' i).name = (providers i).name) →
        (∀ i, i ≠ changed → providers' i = providers i ∧
          breakers' (providers i).name = breakers (providers i).name) →
        Trace SearchAll.step
          (SearchAll.start providers' maxConcurrency' breakers' clock) steps' t' →
        t'.ends = some (.ok (offers', degraded')) → Quiet steps → Quiet steps' →
        ∃ contribution', Merged providers' (FoundOpen steps') contribution' offers' degraded' ∧
          ∀ i, i ≠ changed → contribution' i = contribution i ∧
            ((providers i).name ∈ degraded' ↔ (providers i).name ∈ degraded) := by
  have hmerged := (SearchAll.tells_run hrun).merged hret
  refine ⟨t.contribution, hmerged, ?_⟩
  intro changed providers' maxConcurrency' breakers' steps' t' offers' degraded' hsame hothers
    hrun' hret' hquiet hquiet'
  have hnames' : Function.Injective fun i => (providers' i).name := by
    simpa only [hsame] using hnames
  have hmerged' := (SearchAll.tells_run hrun').merged hret'
  refine ⟨t'.contribution, hmerged', fun i hi => ?_⟩
  obtain ⟨hp, hb⟩ := hothers i hi
  -- a task is turned away by the breaker it starts from, the same in both runs
  have haway : FoundOpen steps' i ↔ FoundOpen steps i := by
    obtain ⟨r, hr⟩ := SearchAll.over_of_ends hret i
    obtain ⟨r', hr'⟩ := SearchAll.over_of_ends hret' i
    rw [(SearchAll.undisturbed_run hnames hrun hquiet).away i (by rw [hr]; trivial),
      (SearchAll.undisturbed_run hnames' hrun' hquiet').away i (by rw [hr']; trivial), hsame,
      BreakerRegistry.getBreaker, BreakerRegistry.getBreaker, hb]
  have hc := hmerged.contribution_congr hmerged' hp haway
  have hmem := hmerged'.mem_degraded (i := i) hnames'
  rw [hsame] at hmem
  refine ⟨hc, ?_⟩
  rw [hmem, hmerged.mem_degraded hnames, hc]

namespace Sample

def airport (code : String) : Place where
  iataCode := code
  name := none
  cityName := none
  type := .airport

/-- A direct flight for 120.50 pounds. -/
def flight : Offer where
  id := "off_1"
  provider := .duffel
  owner := { iataCode := "BA", name := none }
  total := { amount := ⟨false, 12050, -2⟩, currency := "GBP" }
  slices := [{
    id := "sli_1", origin := airport "LHR", destination := airport "JFK", duration := none
    segments := [{
      id := "seg_1", origin := airport "LHR", destination := airport "JFK"
      departingAt := ⟨63922608000000000, none⟩, arrivingAt := ⟨63922636800000000, none⟩
      marketingCarrier := { iataCode := "BA", name := none }, operatingCarrier := none
      flightNumber := "117", aircraft := none, cabinClass := none, duration := none }] }]
  passengerTypes := [.adult]
  cabinClass := none
  expiresAt := none

/-- A healthy provider and a broken one. -/
def mocks : Fin 2 → AsyncFlightProvider
  | 0 => { name := "healthy", search := fun _ => .returns [flight] }
  | 1 => { name := "broken", search := fun _ => .raises .providerError }

/-- The tasks take turns; the broken provider is called twice. -/
def turns : List (SearchMove 2) :=
  [.proc 0 (), .proc 1 (), .proc 1 (), .proc 0 (), .proc 1 (), .proc 0 (), .proc 1 (), .proc 1 ()]

end Sample

/-- The healthy provider's offers come back, and the broken one is degraded. -/
theorem search_all_merge_failingProvider :
    let start := SearchAll.start Sample.mocks 10 (fun _ => none) 0
    ∃ t contribution, exec SearchAll.step start Sample.turns = some t ∧
      Merged Sample.mocks (FoundOpen (execSteps SearchAll.step start Sample.turns))
        contribution [Sample.flight] ["broken"] := by
  obtain ⟨t, ht, hresults⟩ : ∃ t, exec SearchAll.step
      (SearchAll.start Sample.mocks 10 (fun _ => none) 0) Sample.turns = some t ∧
      t.gather = some [("healthy", .ok [Sample.flight]), ("broken", .error .providerError)] :=
    ⟨_, rfl, rfl⟩
  have hret : t.ends = some (.ok ([Sample.flight], ["broken"])) := by
    simp [SearchAll.ends, hresults, merge, Exn.isException, sortBy]
  have hnames : Function.Injective fun i => (Sample.mocks i).name := by
    rw [Function.Injective]
    decide
  obtain ⟨contribution, hmerged, -⟩ := search_all_merge hnames (Trace.of_exec ht) hret
  exact ⟨t, contribution, ht, hmerged⟩

end FlyDesk
