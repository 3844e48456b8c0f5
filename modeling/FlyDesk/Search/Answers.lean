/-
FlyDesk/Search/Answers.lean

What the search endpoint answers.  A request that is not served from the cache returns
what its own fan-out has merged; one that is gets the offers of another request for equal
criteria, complete, in order, rendered as they were, and less than `ttl` seconds old.

The invariant is `SearchService.Backed`: behind every entry stands the write that made
it, and behind every request the run of `search_all` it has made so far.  The other
requests are what happens meanwhile in that run.
-/
import FlyDesk.Search.Service

namespace FlyDesk

open Lib

variable {n : ℕ} {S : SearchSettings} {w w' : SearchWorld} {f f' : RequestFrame n}
  {a : RequestAct n}

/-! ### One fan-out among others -/

/-- Only the environment moves. -/
def Outside (steps : List (SearchAll n × SearchMove n)) : Prop :=
  ∀ p ∈ steps, ∃ e, p.2 = .env e

theorem Outside.foundOpen_append {steps : List (SearchAll n × SearchMove n)} (h : Outside steps)
    (l : List (SearchAll n × SearchMove n)) (j : Fin n) :
    FoundOpen (l ++ steps) j ↔ FoundOpen l j := by
  constructor
  · rintro ⟨p, hp, haway⟩
    rcases List.mem_append.mp hp with hp | hp
    · exact ⟨p, hp, haway⟩
    · obtain ⟨e, he⟩ := h p hp
      cases he.symm.trans haway.1
  · rintro ⟨p, hp, haway⟩
    exact ⟨p, List.mem_append_left _ hp, haway⟩

/-- A task changes one breaker at most. -/
theorem SearchFrame.Steps.breakers_cases {w w' : Fanout} {p : AsyncFlightProvider}
    {pc pc' : SearchPc} (h : SearchFrame.Steps w p pc w' pc') :
    w'.breakers = w.breakers ∨ ∃ b, w'.breakers = w.breakers.put p.name b := by
  cases h with
  | enter => exact Or.inr ⟨_, rfl⟩
  | ends => exact Or.inr ⟨_, rfl⟩
  | away | turn | again | wake => exact Or.inl rfl

/-- Every other fan-out sees the step of a request as something that happens
meanwhile. -/
theorem RequestFrame.Steps.fanout {pc : RequestPc n} (h : RequestFrame.Steps S w f a w' pc)
    (permits : ℕ) (tasks : Fin n → SearchFrame) :
    ∃ more, Outside more ∧
      Trace SearchAll.step (w.fanout permits tasks) more (w'.fanout permits tasks) := by
  cases h with
  | @task permits' tasks' j s hpc hs =>
      obtain ⟨v, g, hg, rfl⟩ := System.step_proc hs
      obtain ⟨-, hsteps⟩ := SearchFrame.steps_of_step hg
      rcases hsteps.breakers_cases with heq | ⟨b, heq⟩
      · have hsame : ({ w with breakers := v.breakers } : SearchWorld) = w := by
          rw [heq]
          rfl
        rw [hsame]
        exact ⟨[], by simp [Outside], .nil⟩
      · refine ⟨_, ?_, Trace.single (a := .env (.elsewhere (tasks' j).provider.name b)) ?_⟩
        · simp [Outside]
        · show some _ = some _
          rw [SearchWorld.fanout, SearchWorld.fanout, heq]
          rfl
  | _ => exact ⟨[], by simp [Outside], .nil⟩

theorem SearchWorld.meanwhile_fanout {e : SearchEvent} (h : w.meanwhile e = some w')
    (permits : ℕ) (tasks : Fin n → SearchFrame) :
    ∃ more, Outside more ∧
      Trace SearchAll.step (w.fanout permits tasks) more (w'.fanout permits tasks) := by
  cases e with
  | evict key =>
      obtain rfl := Option.some.inj h
      exact ⟨[], by simp [Outside], .nil⟩
  | tick d =>
      obtain ⟨hd, hw⟩ := Option.ite_none_right_eq_some.mp h
      obtain rfl := Option.some.inj hw
      refine ⟨_, ?_, Trace.single (a := .env (.tick d)) ?_⟩
      · simp [Outside]
      · show Option.map _ (if 0 ≤ d then some _ else none) = _
        rw [if_pos hd]
        rfl

/-- An entry after a write is the one written, or was there before. -/
theorem SearchWorld.entries_set {key key' : String} {text : List Char} {ttl : ℕ}
    {e : CacheEntry} (h : (w.set key text ttl).entries key' = some e) :
    (key' = key ∧ e = ⟨text, w.clock + ttl⟩) ∨ w.entries key' = some e := by
  simp only [SearchWorld.set, Function.update_apply] at h
  split_ifs at h with hkey
  · exact Or.inl ⟨hkey, (Option.some.inj h).symm⟩
  · exact Or.inr h

/-! ### What a search over these providers can end with -/

/-- Every provider delivers, and these are all the offers, in order. -/
def Complete (providers : Fin n → AsyncFlightProvider) (offers : List Offer) : Prop :=
  ∃ contribution, Merged providers (fun _ => False) contribution offers []

theorem Merged.complete {providers : Fin n → AsyncFlightProvider} {away : Fin n → Prop}
    {contribution : Fin n → Option (List Offer)} {offers : List Offer}
    (h : Merged providers away contribution offers []) : Complete providers offers := by
  have hall : ∀ i, ∃ found, contribution i = some found := by
    intro i
    cases hi : contribution i with
    | some found => exact ⟨found, rfl⟩
    | none => cases h.name_mem hi
  refine ⟨contribution, ⟨fun i found => ?_, h.offers, h.degraded⟩⟩
  obtain ⟨found', hi⟩ := hall i
  have haway := ((h.delivers i found').mp hi).1
  rw [h.delivers i found]
  simp [haway]

theorem Complete.cheapestFirst {providers : Fin n → AsyncFlightProvider} {offers : List Offer}
    (h : Complete providers offers) : CheapestFirst offers := by
  obtain ⟨_, hmerged⟩ := h
  exact hmerged.offers.sorted

/-- Every offer was delivered by a provider. -/
theorem Merged.exists_delivers {providers : Fin n → AsyncFlightProvider} {away : Fin n → Prop}
    {contribution : Fin n → Option (List Offer)} {offers : List Offer} {degraded : List String}
    (h : Merged providers away contribution offers degraded) {o : Offer} (ho : o ∈ offers) :
    ∃ i found, (providers i).Delivers found ∧ o ∈ found := by
  obtain ⟨i, -, hi⟩ := List.mem_flatMap.mp (h.offers.perm.mem_iff.mp ho)
  cases hc : contribution i with
  | none =>
      rw [hc] at hi
      cases hi
  | some found =>
      rw [hc] at hi
      exact ⟨i, found, ((h.delivers i found).mp hc).2, hi⟩

theorem Complete.valid {P : Pydantic} {providers : Fin n → AsyncFlightProvider}
    {offers : List Offer} (h : Complete providers offers)
    (hfinds : ∀ j found, (providers j).Delivers found → ∀ o ∈ found, o.Valid P) :
    ∀ o ∈ offers, o.Valid P := by
  intro o ho
  obtain ⟨_, hmerged⟩ := h
  obtain ⟨j, found, hj, hmem⟩ := hmerged.exists_delivers ho
  exact hfinds j found hj o hmem

/-- The loop raises at a result that is no `Exception`. -/
theorem merge_eq_error {results : List (String × Except Exn (List Offer))} {e : Exn} :
    ∀ {os : List Offer} {ds : List String}, merge os ds results = .error e →
      e = .typeError ∧ ∃ p ∈ results, p.2 = .error .cancelledError := by
  induction results with
  | nil =>
      intro os ds h
      cases h
  | cons p results ih =>
      intro os ds h
      obtain ⟨name, e' | found⟩ := p
      · rw [merge] at h
        split_ifs at h with hexc
        · obtain ⟨he, q, hq, hq'⟩ := ih h
          exact ⟨he, q, List.mem_cons_of_mem _ hq, hq'⟩
        · rw [Exn.isException_iff, not_not] at hexc
          exact ⟨(Except.error.inj h).symm, _, List.mem_cons_self, by rw [hexc]⟩
      · obtain ⟨he, q, hq, hq'⟩ := ih h
        exact ⟨he, q, List.mem_cons_of_mem _ hq, hq'⟩

/-- A search that raises was cancelled in one of its calls. -/
theorem SearchAll.Tells.cancelled {providers : Fin n → AsyncFlightProvider} {t : SearchAll n}
    {steps : List (SearchAll n × SearchMove n)} {e : Exn} (h : t.Tells providers steps)
    (hret : t.ends = some (.error e)) :
    e = .typeError ∧ ∃ j, ¬ FoundOpen steps j ∧ (providers j).Cancels := by
  obtain ⟨results, hgather, hmerge⟩ := Option.map_eq_some_iff.mp hret
  obtain ⟨r, hdone, rfl⟩ := SearchAll.gather_eq_some.mp hgather
  obtain ⟨he, p, hp, hcancel⟩ := merge_eq_error hmerge
  obtain ⟨j, -, rfl⟩ := List.mem_map.mp hp
  have hj := hdone j
  rw [show r j = .error .cancelledError from hcancel] at hj
  exact ⟨he, j, ((h j).2.cancelled_iff (by rw [hj]; trivial)).mp hj⟩

/-! ### Where everything comes from -/

variable {ι : Type*} {criteria : ι → SearchCriteria}
  {providers : ι → Fin n → AsyncFlightProvider} {s t : SearchService ι n}
  {steps : List (SearchService ι n × SearchServiceMove ι n)} {i : ι} {j : Fin n}

/-- At this step the turn of task `j` of request `i` comes, and its circuit is open. -/
def RefusedAt (i : ι) (j : Fin n) (q : SearchService ι n × SearchServiceMove ι n) : Prop :=
  q.2 = .proc i (.task j) ∧ ∃ permits tasks, (q.1.procs i).pc = .searching permits tasks ∧
    TurnedAway j (q.1.shared.fanout permits tasks, .proc j ())

/-- The circuit of its provider `j` was open when request `i` came to call it. -/
def Refused (steps : List (SearchService ι n × SearchServiceMove ι n)) (i : ι) (j : Fin n) :
    Prop :=
  ∃ q ∈ steps, RefusedAt i j q

theorem refused_snoc {q : SearchService ι n × SearchServiceMove ι n} :
    Refused (steps ++ [q]) i j ↔ Refused steps i j ∨ RefusedAt i j q := by
  simp [Refused, or_and_right, exists_or]

/-- No other move refuses a call. -/
theorem refused_snoc_of_ne {m : SearchServiceMove ι n} (h : ∀ j, m ≠ .proc i (.task j)) :
    Refused (steps ++ [(s, m)]) i = Refused steps i := by
  funext j
  rw [refused_snoc, eq_iff_iff, or_iff_left]
  exact fun hq => h j hq.1

/-- A fan-out of request `i` is at the end of a run of `search_all`, which has refused the
providers that the run of the service has. -/
def Fanned (S : SearchSettings) (providers : ι → Fin n → AsyncFlightProvider)
    (steps : List (SearchService ι n × SearchServiceMove ι n)) (i : ι) (u : SearchAll n) :
    Prop :=
  ∃ breakers clock fsteps,
    Trace SearchAll.step (SearchAll.start (providers i) S.maxConcurrency breakers clock)
      fsteps u ∧
    ∀ j, FoundOpen fsteps j ↔ Refused steps i j

/-- The entry was written by a request under this key, whose search was complete, and
lives `ttl` seconds from then on. -/
def StoredBy (S : SearchSettings) (criteria : ι → SearchCriteria)
    (providers : ι → Fin n → AsyncFlightProvider)
    (steps : List (SearchService ι n × SearchServiceMove ι n)) (key : String)
    (e : CacheEntry) : Prop :=
  ∃ q ∈ steps, ∃ j reply found, q.2 = .proc j (.set reply) ∧
    cacheKey S.iso S.sha1 (criteria j) = key ∧ e.text = dumpOffers S.iso found ∧
    e.expires = q.1.shared.clock + (S.ttl : ℚ) ∧ Complete (providers j) found

/-- Request `i` has read what a request like it had written less than `ttl` seconds
before, after a complete search that found these offers. -/
def FreshFrom (S : SearchSettings) (providers : ι → Fin n → AsyncFlightProvider)
    (steps : List (SearchService ι n × SearchServiceMove ι n)) (i : ι) (same : ι → Prop)
    (found : List Offer) : Prop :=
  ∃ before p, before ++ [p] <+: steps ∧ p.2 = .proc i (.get false) ∧
    ∃ q ∈ before, ∃ j reply, q.2 = .proc j (.set reply) ∧ same j ∧
      p.1.shared.clock < q.1.shared.clock + (S.ttl : ℚ) ∧ Complete (providers j) found

theorem StoredBy.append {key : String} {e : CacheEntry}
    (h : StoredBy S criteria providers steps key e)
    (l : List (SearchService ι n × SearchServiceMove ι n)) :
    StoredBy S criteria providers (steps ++ l) key e := by
  obtain ⟨q, hq, hrest⟩ := h
  exact ⟨q, List.mem_append_left _ hq, hrest⟩

theorem FreshFrom.append {same : ι → Prop} {found : List Offer}
    (h : FreshFrom S providers steps i same found)
    (l : List (SearchService ι n × SearchServiceMove ι n)) :
    FreshFrom S providers (steps ++ l) i same found := by
  obtain ⟨before, p, hpre, hrest⟩ := h
  exact ⟨before, p, hpre.trans (List.prefix_append _ _), hrest⟩

theorem FreshFrom.complete {same : ι → Prop} {found : List Offer}
    (h : FreshFrom S providers steps i same found) : ∃ j, Complete (providers j) found := by
  obtain ⟨_, _, -, -, _, -, j, _, -, -, -, hcomplete⟩ := h
  exact ⟨j, hcomplete⟩

theorem FreshFrom.imp {same same' : ι → Prop} {found : List Offer}
    (h : FreshFrom S providers steps i same found)
    (himp : ∀ j, Complete (providers j) found → same j → same' j) :
    FreshFrom S providers steps i same' found := by
  obtain ⟨before, p, hpre, hget, q, hq, j, reply, hset, hj, hlive, hcomplete⟩ := h
  exact ⟨before, p, hpre, hget, q, hq, j, reply, hset, himp j hcomplete hj, hlive, hcomplete⟩

/-- What is behind a request, from the point it is at. -/
def RequestPc.Told (S : SearchSettings) (criteria : ι → SearchCriteria)
    (providers : ι → Fin n → AsyncFlightProvider)
    (steps : List (SearchService ι n × SearchServiceMove ι n)) (w : SearchWorld) (i : ι) :
    RequestPc n → Prop
  | .reading => ∀ j, ¬ Refused steps i j
  | .searching permits tasks => Fanned S providers steps i (w.fanout permits tasks)
  | .writing offers degraded => degraded = [] ∧
      ∃ contribution, Merged (providers i) (Refused steps i) contribution offers []
  | .done r =>
    (∃ offers degraded, r = .ok (offers, degraded, false) ∧
      ∃ contribution, Merged (providers i) (Refused steps i) contribution offers degraded) ∨
    (r = .error .typeError ∧ ∃ j, ¬ Refused steps i j ∧ (providers i j).Cancels) ∨
    ∃ found, FreshFrom S providers steps i
        (fun j => cacheKey S.iso S.sha1 (criteria j) = cacheKey S.iso S.sha1 (criteria i)) found ∧
      r = (loadOffers S.pydantic (dumpOffers S.iso found)).map fun offers => (offers, [], true)

/-- A request that does not move still has behind it what it had. -/
theorem RequestPc.Told.still {pc : RequestPc n} {m : SearchServiceMove ι n}
    (h : pc.Told S criteria providers steps w i)
    (hfan : ∀ permits tasks, ∃ more, Outside more ∧
      Trace SearchAll.step (w.fanout permits tasks) more ((w'.fanout permits tasks) : SearchAll n))
    (hm : ∀ j, m ≠ .proc i (.task j)) :
    pc.Told S criteria providers (steps ++ [(s, m)]) w' i := by
  have hsame : Refused (steps ++ [(s, m)]) i = Refused steps i := refused_snoc_of_ne hm
  cases pc with
  | reading =>
      intro j
      rw [hsame]
      exact h j
  | searching permits tasks =>
      obtain ⟨breakers, clock, fsteps, hrun, haway⟩ := h
      obtain ⟨more, hout, hmore⟩ := hfan permits tasks
      refine ⟨breakers, clock, _, hrun.append hmore, fun j => ?_⟩
      rw [hout.foundOpen_append, haway, hsame]
  | writing offers degraded =>
      obtain ⟨hd, hmerged⟩ := h
      refine ⟨hd, ?_⟩
      rwa [hsame]
  | done r =>
      rcases h with hown | herror | ⟨found, hfresh, hr⟩
      · refine Or.inl ?_
        rwa [hsame]
      · refine Or.inr (Or.inl ?_)
        rwa [hsame]
      · exact Or.inr (Or.inr ⟨found, hfresh.append _, hr⟩)

/-- Every entry and every request has its source in the run. -/
structure SearchService.Backed (S : SearchSettings) (criteria : ι → SearchCriteria)
    (providers : ι → Fin n → AsyncFlightProvider)
    (steps : List (SearchService ι n × SearchServiceMove ι n)) (s : SearchService ι n) :
    Prop where
  asked : ∀ i, (s.procs i).criteria = criteria i ∧ (s.procs i).providers = providers i
  stored : ∀ key e, s.shared.entries key = some e → StoredBy S criteria providers steps key e
  told : ∀ i, (s.procs i).pc.Told S criteria providers steps s.shared i

/-- The tasks of a request that begins to search have refused nobody. -/
theorem fanned_begin (w : SearchWorld) (h : ∀ j, ¬ Refused steps i j) :
    Fanned S providers steps i
      (w.fanout S.maxConcurrency fun j => { provider := providers i j, pc := .created }) := by
  refine ⟨w.breakers, w.clock, [], .nil, fun j => ?_⟩
  simp [FoundOpen, h j]

/-- The step of a task, as its own fan-out sees it. -/
theorem Fanned.task {permits : ℕ} {tasks : Fin n → SearchFrame} {u : SearchAll n}
    (h : Fanned S providers steps i (s.shared.fanout permits tasks))
    (hpc : (s.procs i).pc = .searching permits tasks)
    (hu : (s.shared.fanout permits tasks).step (.proc j ()) = some u) :
    Fanned S providers (steps ++ [(s, .proc i (.task j))]) i u := by
  obtain ⟨breakers, clock, fsteps, hrun, haway⟩ := h
  refine ⟨breakers, clock, _, hrun.append (Trace.single hu), fun j' => ?_⟩
  rw [foundOpen_snoc, refused_snoc, haway]
  refine or_congr_right ⟨fun hturned => ?_, ?_⟩
  · obtain rfl : j = j' := by
      cases hturned.1
      rfl
    exact ⟨rfl, permits, tasks, hpc, hturned⟩
  · rintro ⟨hmove, permits', tasks', hpc', hturned⟩
    obtain rfl : j = j' := by
      cases hmove
      rfl
    obtain ⟨rfl, rfl⟩ := RequestPc.searching.inj (hpc.symm.trans hpc')
    exact hturned

/-- What a fan-out returns is the merge of its providers. -/
theorem Fanned.merged {u : SearchAll n} {offers : List Offer} {degraded : List String}
    (h : Fanned S providers steps i u) (hends : u.ends = some (.ok (offers, degraded))) :
    ∃ contribution, Merged (providers i) (Refused steps i) contribution offers degraded := by
  obtain ⟨breakers, clock, fsteps, hrun, haway⟩ := h
  have hmerged := (SearchAll.tells_run hrun).merged hends
  rw [show FoundOpen fsteps = Refused steps i from funext fun j => propext (haway j)] at hmerged
  exact ⟨_, hmerged⟩

/-- The step of a request, as far as it and the entries are concerned. -/
theorem SearchService.Backed.own (h : s.Backed S criteria providers steps)
    (hs : RequestFrame.Steps S s.shared (s.procs i) a w f.pc) :
    f.pc.Told S criteria providers (steps ++ [(s, .proc i a)]) w i ∧
      ∀ key e, w.entries key = some e →
        StoredBy S criteria providers (steps ++ [(s, .proc i a)]) key e := by
  obtain ⟨hcriteria, hproviders⟩ := h.asked i
  have hstored := fun key e he => (h.stored key e he).append [(s, .proc i a)]
  have htold := h.told i
  have hkey : (s.procs i).key S = cacheKey S.iso S.sha1 (criteria i) := by
    rw [RequestFrame.key, hcriteria]
  have hsame : (∀ j, a ≠ .task j) → Refused (steps ++ [(s, .proc i a)]) i = Refused steps i :=
    fun ha => refused_snoc_of_ne fun j hj => ha j (Move.proc.inj hj).2
  generalize f.pc = pc' at hs
  cases hs with
  | miss hpc =>
      rw [hpc] at htold
      refine ⟨?_, hstored⟩
      rw [RequestFrame.begin, hproviders]
      refine fanned_begin s.shared fun j => ?_
      rw [hsame nofun]
      exact htold j
  | @hit text hpc htext _ =>
      refine ⟨Or.inr (Or.inr ?_), hstored⟩
      -- the entry has not run out
      rw [hkey, SearchWorld.get] at htext
      split at htext
      · rename_i e hentry
        obtain ⟨hlive, htext⟩ := Option.ite_none_right_eq_some.mp htext
        obtain ⟨q, hq, j, reply, found, hmove, hequal, htext', hexpires, hcomplete⟩ :=
          h.stored _ e hentry
        obtain rfl : e.text = text := Option.some.inj htext
        refine ⟨found, ⟨steps, (s, .proc i (.get false)), List.prefix_rfl, rfl, q, hq, j, reply,
          hmove, hequal, ?_, hcomplete⟩, by rw [htext']⟩
        show s.shared.clock < _
        rw [← hexpires]
        exact hlive
      · cases htext
  | @task permits tasks j u hpc hu =>
      rw [hpc] at htold
      refine ⟨?_, hstored⟩
      have hfan : ({ s.shared with breakers := u.shared.breakers } : SearchWorld).fanout
          u.shared.permits u.procs = u := by
        obtain ⟨v, g, hg, rfl⟩ := System.step_proc hu
        have hclock := (SearchFrame.steps_of_step hg).2.clock_eq
        show System.mk (Fanout.mk v.permits v.breakers s.shared.clock) _ = _
        rw [show s.shared.clock = v.clock from hclock.symm]
      show Fanned S providers _ i _
      rw [hfan]
      exact htold.task hpc hu
  | @raises permits tasks e hpc hends =>
      rw [hpc] at htold
      obtain ⟨breakers, clock, fsteps, hrun, haway⟩ := htold
      obtain ⟨rfl, j, hj, hcancel⟩ := (SearchAll.tells_run hrun).cancelled hends
      refine ⟨Or.inr (Or.inl ⟨rfl, j, ?_, hcancel⟩), hstored⟩
      rwa [hsame nofun, ← haway]
  | full hpc hends =>
      rw [hpc] at htold
      exact ⟨⟨rfl, by rw [hsame nofun]; exact htold.merged hends⟩, hstored⟩
  | partly hpc hends _ =>
      rw [hpc] at htold
      exact ⟨Or.inl ⟨_, _, rfl, by rw [hsame nofun]; exact htold.merged hends⟩, hstored⟩
  | @stored offers degraded reply hpc _ =>
      rw [hpc] at htold
      obtain ⟨rfl, contribution, hmerged⟩ := htold
      refine ⟨Or.inl ⟨offers, [], rfl, contribution, by rwa [hsame nofun]⟩, fun key e he => ?_⟩
      rw [hkey] at he
      rcases SearchWorld.entries_set he with ⟨rfl, rfl⟩ | hold
      · exact ⟨(s, .proc i (.set reply)), by simp, i, reply, offers, rfl, rfl, rfl, rfl,
          hmerged.complete⟩
      · exact hstored key e hold
  | @unstored offers degraded reply hpc _ =>
      rw [hpc] at htold
      obtain ⟨rfl, contribution, hmerged⟩ := htold
      exact ⟨Or.inl ⟨offers, [], rfl, contribution, by rwa [hsame nofun]⟩, hstored⟩

variable [DecidableEq ι]

/-- **One step of the service.** -/
theorem SearchService.Backed.step {m : SearchServiceMove ι n}
    (h : s.Backed S criteria providers steps) (hs : s.step S m = some t) :
    t.Backed S criteria providers (steps ++ [(s, m)]) := by
  cases m with
  | proc i a =>
      obtain ⟨w, f, hf, rfl⟩ := System.step_proc hs
      obtain ⟨hcriteria, hproviders, hstep⟩ := RequestFrame.steps_of_step hf
      obtain ⟨htold, hstored⟩ := h.own hstep
      refine ⟨?_, hstored, ?_⟩
      · exact (Function.forall_update_iff _ fun j (g : RequestFrame n) =>
          g.criteria = criteria j ∧ g.providers = providers j).mpr
            ⟨⟨hcriteria.trans (h.asked i).1, hproviders.trans (h.asked i).2⟩,
              fun j _ => h.asked j⟩
      · refine (Function.forall_update_iff _ fun j (g : RequestFrame n) =>
          g.pc.Told S criteria providers _ w j).mpr ⟨htold, fun j hj => ?_⟩
        exact (h.told j).still hstep.fanout fun _ hmove => hj (Move.proc.inj hmove).1.symm
  | env e =>
      obtain ⟨w, hw, rfl⟩ := System.step_env hs
      refine ⟨h.asked, fun key entry hentry => ?_,
        fun j => (h.told j).still (SearchWorld.meanwhile_fanout hw) nofun⟩
      refine (h.stored key entry ?_).append _
      cases e with
      | tick d =>
          obtain ⟨-, hw⟩ := Option.ite_none_right_eq_some.mp hw
          obtain rfl := Option.some.inj hw
          exact hentry
      | evict key' =>
          obtain rfl := Option.some.inj hw
          by_cases hk : key = key'
          · rw [hk] at hentry
            simp at hentry
          · rw [← hentry]
            exact (Function.update_of_ne hk _ _).symm

theorem SearchService.backed_run {breakers : BreakerRegistry} {clock : ℚ}
    (h : Trace (SearchService.step S) (SearchService.start criteria providers breakers clock)
      steps t) : t.Backed S criteria providers steps := by
  refine h.history (A := fun _ _ => True) (I := fun l u => SearchService.Backed S criteria
    providers l u) (fun _ _ => trivial) ⟨fun _ => ⟨rfl, rfl⟩, ?_, fun _ j => ?_⟩
    fun hI _ hs => hI.step hs
  · intro key e he
    cases he
  · simp [Refused]

/-! ### The answer -/

omit [DecidableEq ι] in
/-- What a request that is done has ended with. -/
theorem SearchService.Backed.done (h : t.Backed S criteria providers steps)
    (hP : S.pydantic.Lawful S.iso)
    (hsha1 : ∀ i j, S.sha1 ((criteria i).modelDumpJson S.iso) =
        S.sha1 ((criteria j).modelDumpJson S.iso) →
      (criteria i).modelDumpJson S.iso = (criteria j).modelDumpJson S.iso)
    (hfinds : ∀ i j found, (providers i j).Delivers found → ∀ o ∈ found, o.Valid S.pydantic)
    {r : Except Exn (List Offer × List String × Bool)} (hdone : (t.procs i).pc = .done r) :
    (∃ offers degraded, r = .ok (offers, degraded, false) ∧
      ∃ contribution, Merged (providers i) (Refused steps i) contribution offers degraded) ∨
    (r = .error .typeError ∧ ∃ j, ¬ Refused steps i j ∧ (providers i j).Cancels) ∨
    ∃ offers found, r = .ok (offers, [], true) ∧
      FreshFrom S providers steps i (fun j => criteria j = criteria i) found ∧
      CheapestFirst offers ∧ offers.map (Offer.json S.iso) = found.map (Offer.json S.iso) := by
  have htold := h.told i
  rw [hdone] at htold
  rcases htold with hown | hcancel | ⟨found, hfresh, hr⟩
  · exact Or.inl hown
  · exact Or.inr (Or.inl hcancel)
  · obtain ⟨j, hcomplete⟩ := hfresh.complete
    rw [loadOffers_dumpOffers hP (hcomplete.valid (hfinds j))] at hr
    exact Or.inr (Or.inr ⟨_, found, hr,
      hfresh.imp fun j _ hj => criteria_of_cacheKey hP (hsha1 j i) hj,
      hcomplete.cheapestFirst.map_stored, map_json_stored found⟩)

/-- **What the search endpoint answers.**  A request raises only where a call of its own
was cancelled.  What it returns is in order.  From its own fan-out, it is the merge of what
its providers deliver, those left out whose circuit was open when it came to call them;
from the cache, it is the complete answer to a request for equal criteria, rendered as
it was and written less than `ttl` seconds before. -/
theorem SearchService.search_answers {breakers : BreakerRegistry} {clock : ℚ}
    (hP : S.pydantic.Lawful S.iso)
    (hsha1 : ∀ i j, S.sha1 ((criteria i).modelDumpJson S.iso) =
        S.sha1 ((criteria j).modelDumpJson S.iso) →
      (criteria i).modelDumpJson S.iso = (criteria j).modelDumpJson S.iso)
    (hfinds : ∀ i j found, (providers i j).Delivers found → ∀ o ∈ found, o.Valid S.pydantic)
    (hrun : Trace (SearchService.step S) (SearchService.start criteria providers breakers clock)
      steps t) {r : Except Exn (List Offer × List String × Bool)}
    (hdone : (t.procs i).pc = .done r) :
    (∀ e, r = .error e → e = .typeError ∧
      ∃ j, ¬ Refused steps i j ∧ (providers i j).Cancels) ∧
    ∀ offers degraded cached, r = .ok (offers, degraded, cached) →
      CheapestFirst offers ∧
      (cached = false → ∃ contribution,
        Merged (providers i) (Refused steps i) contribution offers degraded) ∧
      (cached = true → degraded = [] ∧ ∃ found,
        FreshFrom S providers steps i (fun j => criteria j = criteria i) found ∧
        offers.map (Offer.json S.iso) = found.map (Offer.json S.iso)) := by
  rcases (SearchService.backed_run hrun).done hP hsha1 hfinds hdone with
    ⟨os, ds, rfl, contribution, hmerged⟩ | ⟨rfl, hcancel⟩ | ⟨os, found, rfl, hfresh, hsorted, hjson⟩
  · refine ⟨nofun, ?_⟩
    rintro offers degraded cached ⟨⟩
    exact ⟨hmerged.offers.sorted, fun _ => ⟨contribution, hmerged⟩, nofun⟩
  · refine ⟨?_, nofun⟩
    rintro _ ⟨⟩
    exact ⟨rfl, hcancel⟩
  · refine ⟨nofun, ?_⟩
    rintro offers degraded cached ⟨⟩
    exact ⟨hsorted, nofun, fun _ => ⟨rfl, found, hfresh, hjson⟩⟩

namespace Sample

/-- One provider, with one fare. -/
def fareDesk : Fin 1 → AsyncFlightProvider := fun _ =>
  { name := "duffel", search := fun _ => .returns [dinars] }

def settings : SearchSettings where
  maxConcurrency := 10
  ttl := 60
  pydantic := isoPydantic
  iso := iso
  sha1 := digest

/-- The turn of the one task of a request. -/
def turn (i : ℕ) : SearchServiceMove ℕ 1 := .proc i (.task 0)

/-- A request fills the cache; 59 seconds later another one reads it. -/
def requests : List (SearchServiceMove ℕ 1) :=
  [.proc 0 (.get false), turn 0, turn 0, turn 0, .proc 0 .gather, .proc 0 (.set .ok),
    .env (.tick 59), .proc 1 (.get false)]

theorem all_valid_dinars : ∀ o ∈ [dinars], o.Valid isoPydantic := by
  simpa using valid_dinars

theorem exec_requests :
    ∃ t offers, exec (SearchService.step settings)
        (SearchService.start (fun _ : ℕ => trip) (fun _ => fareDesk) (fun _ => none) 0)
        requests = some t ∧
      (t.procs 1).pc = .done (.ok (offers, [], true)) := by
  have hne : dumpOffers iso [dinars] ≠ [] := List.cons_ne_nil _ _
  have hlive : (59 : ℚ) < 60 := by norm_num
  obtain ⟨t, ht, hdone⟩ : ∃ t, exec (SearchService.step settings)
      (SearchService.start (fun _ : ℕ => trip) (fun _ => fareDesk) (fun _ => none) 0)
      requests = some t ∧ (t.procs 1).pc =
        .done ((loadOffers isoPydantic (dumpOffers iso [dinars])).map
          fun offers => (offers, [], true)) := by
    simp [exec, requests, turn, SearchService.step, SearchService.start, System.step,
      RequestFrame.step, SearchWorld.get, SearchWorld.set, RequestFrame.begin, SearchWorld.fanout,
      SearchAll.step, SearchFrame.step, SearchAll.ends, SearchAll.gather, RequestFrame.key,
      settings, fareDesk, WriteReply.stored, BreakerRegistry.getBreaker, BreakerRegistry.put,
      CircuitBreaker.state, CircuitBreaker.create, retryStep, AsyncFlightProvider.attempt,
      Fanout.leave, SearchPc.result?, merge, sortBy, List.finRange, SearchWorld.meanwhile, hlive,
      hne]
  rw [loadOffers_dumpOffers isoPydantic_lawful all_valid_dinars] at hdone
  exact ⟨t, _, ht, hdone⟩

end Sample

/-- The second request is served what the first one found. -/
theorem SearchService.search_answers_hit :
    let start := SearchService.start (fun _ : ℕ => Sample.trip) (fun _ => Sample.fareDesk)
      (fun _ => none) 0
    ∃ t offers, exec (SearchService.step Sample.settings) start Sample.requests = some t ∧
      (t.procs 1).pc = .done (.ok (offers, [], true)) ∧ CheapestFirst offers ∧
      ∃ found, FreshFrom Sample.settings (fun _ => Sample.fareDesk)
          (execSteps (SearchService.step Sample.settings) start Sample.requests) 1
          (fun _ => Sample.trip = Sample.trip) found ∧
        offers.map (Offer.json Sample.iso) = found.map (Offer.json Sample.iso) := by
  intro start
  obtain ⟨t, offers, ht, hdone⟩ := Sample.exec_requests
  have hfinds : ∀ (i : ℕ) (j : Fin 1) found, (Sample.fareDesk j).Delivers found →
      ∀ o ∈ found, o.Valid Sample.isoPydantic := by
    rintro - j found (h | ⟨-, h⟩) <;>
    · obtain rfl : [Sample.dinars] = found := SearchOutcome.returns.inj h
      exact Sample.all_valid_dinars
  obtain ⟨-, hret⟩ := SearchService.search_answers Sample.isoPydantic_lawful
    (by exact fun _ _ _ => rfl) hfinds (Trace.of_exec ht) hdone
  obtain ⟨hsorted, -, hhit⟩ := hret _ _ _ rfl
  obtain ⟨-, hfound⟩ := hhit rfl
  exact ⟨t, offers, ht, hdone, hsorted, hfound⟩

end FlyDesk
