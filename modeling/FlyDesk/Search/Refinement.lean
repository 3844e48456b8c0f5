/-
FlyDesk/Search/Refinement.lean

The service refines the cache.  In `Cache` a search is one step that may hand over any
results, and an entry goes away at any time; in `Service` a search is a fan-out of tasks
over breakers that all requests share, and an entry goes away when its time has run out.
Every run of the service is matched by one of the cache (`SearchService.cache_refines`):
the same calls are at the same points with the same answers, and each search hands over
what a run of `search_all` over the providers of its call has gathered.

The cache knows at least the entries that are alive.  A request that misses, because its
entry is gone or because the read has raised, is a read that raises.
-/
import FlyDesk.Lib.Simulation
import FlyDesk.Search.Answers

namespace FlyDesk

open Lib

variable {n : ℕ} {S : SearchSettings} {w w' : SearchWorld}

/-- What the cache sees of a request: a search is a search. -/
def RequestPc.cachePc : RequestPc n → CachePc
  | .reading => .reading
  | .searching _ _ => .searching
  | .writing offers degraded => .writing offers degraded
  | .done r => .done r

/-- An entry that is alive has its text. -/
theorem SearchWorld.get_eq_some {key : String} {text : List Char} :
    w.get key = some text ↔ ∃ e, w.entries key = some e ∧ w.clock < e.expires ∧ e.text = text := by
  rw [SearchWorld.get]
  cases w.entries key <;> simp

/-- No entry comes to life meanwhile. -/
theorem SearchWorld.get_of_meanwhile {e : SearchEvent} (h : w.meanwhile e = some w')
    {key : String} {text : List Char} (hget : w'.get key = some text) :
    w.get key = some text := by
  obtain ⟨entry, hentry, hlive, htext⟩ := SearchWorld.get_eq_some.mp hget
  cases e with
  | evict key' =>
      obtain rfl := Option.some.inj h
      simp only [Function.update_apply] at hentry
      split_ifs at hentry
      exact SearchWorld.get_eq_some.mpr ⟨entry, hentry, hlive, htext⟩
  | tick d =>
      obtain ⟨hd, h⟩ := Option.ite_none_right_eq_some.mp h
      obtain rfl := Option.some.inj h
      exact SearchWorld.get_eq_some.mpr
        ⟨entry, hentry, lt_of_le_of_lt (le_add_of_nonneg_right hd) hlive, htext⟩

/-- After a write, an entry that is alive is the one written or was alive before. -/
theorem SearchWorld.get_of_set {key key' : String} {text text' : List Char} {ttl : ℕ}
    (h : (w.set key text ttl).get key' = some text') :
    key' = key ∧ text' = text ∨ key' ≠ key ∧ w.get key' = some text' := by
  obtain ⟨entry, hentry, hlive, rfl⟩ := SearchWorld.get_eq_some.mp h
  simp only [SearchWorld.set, Function.update_apply] at hentry
  split_ifs at hentry with hkey
  · obtain rfl := Option.some.inj hentry
    exact Or.inl ⟨hkey, rfl⟩
  · exact Or.inr ⟨hkey, SearchWorld.get_eq_some.mpr ⟨entry, hentry, hlive, rfl⟩⟩

/-! ### The relation -/

variable {ι : Type} {criteria : ι → SearchCriteria} {providers : ι → Fin n → AsyncFlightProvider}
  {s t : SearchService ι n} {steps : List (SearchService ι n × SearchServiceMove ι n)}
  {c : CachedSearches ι} {csteps : List (CachedSearches ι × CacheMove ι)} {i : ι}

/-- A run of `search_all` over these providers has gathered the results. -/
def Gathered (S : SearchSettings) (providers : Fin n → AsyncFlightProvider)
    (results : List (String × Except Exn (List Offer))) : Prop :=
  ∃ breakers clock fsteps u,
    Trace SearchAll.step (SearchAll.start providers S.maxConcurrency breakers clock) fsteps u ∧
      u.gather = some results

/-- The service, and a run of the cache that stands where the service does. -/
structure CachedAs (S : SearchSettings) (providers : ι → Fin n → AsyncFlightProvider)
    (s : SearchService ι n) (csteps : List (CachedSearches ι × CacheMove ι))
    (c : CachedSearches ι) : Prop where
  entries : ∀ key text, s.shared.get key = some text → c.shared key = some text
  calls : ∀ i, c.procs i = { criteria := (s.procs i).criteria, pc := (s.procs i).pc.cachePc }
  searches : ∀ p ∈ csteps, ∀ i results, p.2 = .proc i (.search results) →
    Gathered S (providers i) results

variable [DecidableEq ι]

/-- A step of one request, matched by one step of its call. -/
theorem CachedAs.moves {f : RequestFrame n} {a : CacheAct} {r : RedisStore}
    (h : CachedAs S providers s csteps c) (hcriteria : f.criteria = (s.procs i).criteria)
    (hstep : CacheFrame.step S.pydantic S.iso S.sha1 c.shared (c.procs i) a =
      some (r, { criteria := (s.procs i).criteria, pc := f.pc.cachePc }))
    (hentries : ∀ key text, w.get key = some text → r key = some text)
    (hsearch : ∀ results, a = .search results → Gathered S (providers i) results) :
    ∃ more c', Trace (CachedSearches.step S.pydantic S.iso S.sha1) c more c' ∧
      CachedAs S providers ⟨w, Function.update s.procs i f⟩ (csteps ++ more) c' := by
  have hmove : CachedSearches.step S.pydantic S.iso S.sha1 c (.proc i a) = some
      ⟨r, Function.update c.procs i { criteria := (s.procs i).criteria, pc := f.pc.cachePc }⟩ := by
    show Option.map _ (CacheFrame.step S.pydantic S.iso S.sha1 c.shared (c.procs i) a) = _
    rw [hstep]
    rfl
  refine ⟨_, _, Trace.single hmove, hentries, ?_, ?_⟩
  · intro i'
    by_cases hi : i' = i
    · subst hi
      simp only [Function.update_self, hcriteria]
    · simp only [Function.update_of_ne hi]
      exact h.calls i'
  · intro p hp i' results hmove
    rcases List.mem_append.mp hp with hp | hp
    · exact h.searches p hp i' results hmove
    · obtain rfl := List.mem_singleton.mp hp
      obtain ⟨rfl, ha⟩ := Move.proc.inj hmove
      exact hsearch results ha

/-- Every step of the service is matched by the cache. -/
theorem CachedAs.step {m : SearchServiceMove ι n} (h : CachedAs S providers s csteps c)
    (hbacked : s.Backed S criteria providers steps) (hs : s.step S m = some t) :
    ∃ more c', Trace (CachedSearches.step S.pydantic S.iso S.sha1) c more c' ∧
      CachedAs S providers t (csteps ++ more) c' := by
  cases m with
  | env e =>
      obtain ⟨w, hw, rfl⟩ := System.step_env hs
      refine ⟨[], c, .nil, fun key text hget => ?_, h.calls, by simpa using h.searches⟩
      exact h.entries key text (SearchWorld.get_of_meanwhile hw hget)
  | proc i a =>
      obtain ⟨w, f, hf, rfl⟩ := System.step_proc hs
      obtain ⟨hcriteria, -, hstep⟩ := RequestFrame.steps_of_step hf
      have hcall := h.calls i
      have htold := hbacked.told i
      -- what the tasks have gathered, the search of the call hands over
      have hsearch : ∀ {permits tasks r}, (s.procs i).pc = .searching permits tasks →
          (s.shared.fanout permits tasks).ends = some r →
          (∀ results, merge [] [] results = r →
            CacheFrame.step S.pydantic S.iso S.sha1 c.shared (c.procs i) (.search results) =
              some (c.shared, { criteria := (s.procs i).criteria, pc := f.pc.cachePc })) →
          ∃ more c', Trace (CachedSearches.step S.pydantic S.iso S.sha1) c more c' ∧
            CachedAs S providers ⟨s.shared, Function.update s.procs i f⟩ (csteps ++ more) c' := by
        intro permits tasks r hpc hends hstep
        rw [hpc] at htold
        obtain ⟨breakers, clock, fsteps, hrun, -⟩ := htold
        obtain ⟨results, hgather, hmerge⟩ := Option.map_eq_some_iff.mp hends
        refine h.moves hcriteria (hstep results hmerge) h.entries fun _ hr => ?_
        obtain rfl := CacheAct.search.inj hr
        exact ⟨breakers, clock, fsteps, _, hrun, hgather⟩
      generalize hpc' : f.pc = pc' at hstep hsearch
      cases hstep with
      | miss hpc =>
          refine h.moves (a := .get true) hcriteria ?_ h.entries fun _ hr => by cases hr
          rw [hcall, hpc, hpc']
          rfl
      | @hit text hpc htext hne =>
          refine h.moves (a := .get false) hcriteria ?_ h.entries fun _ hr => by cases hr
          have hkey : c.shared (cacheKey S.iso S.sha1 (s.procs i).criteria) = some text :=
            h.entries _ _ htext
          rw [hcall, hpc, hpc']
          simp [CacheFrame.step, RequestPc.cachePc, hkey, hne]
      | task hpc hu =>
          refine ⟨[], c, .nil, h.entries, fun i' => ?_, by simpa using h.searches⟩
          by_cases hi : i' = i
          · subst hi
            rw [hcall, hpc]
            simp only [Function.update_self, hcriteria, hpc']
            rfl
          · rw [h.calls i']
            simp only [Function.update_of_ne hi]
      | raises hpc hends =>
          refine hsearch hpc hends fun results hmerge => ?_
          rw [hcall, hpc]
          simp [CacheFrame.step, RequestPc.cachePc, hmerge]
      | full hpc hends =>
          refine hsearch hpc hends fun results hmerge => ?_
          rw [hcall, hpc]
          simp [CacheFrame.step, RequestPc.cachePc, hmerge]
      | partly hpc hends hd =>
          refine hsearch hpc hends fun results hmerge => ?_
          rw [hcall, hpc]
          simp [CacheFrame.step, RequestPc.cachePc, hmerge, hd]
      | @stored offers degraded reply hpc hreply =>
          refine h.moves (a := .set reply) (r := Function.update c.shared
            (cacheKey S.iso S.sha1 (s.procs i).criteria) (some (dumpOffers S.iso offers)))
            hcriteria ?_ (fun key text hget => ?_) fun _ hr => by cases hr
          · rw [hcall, hpc, hpc']
            simp only [CacheFrame.step, RequestPc.cachePc, hreply, if_true]
          · rcases SearchWorld.get_of_set hget with ⟨rfl, rfl⟩ | ⟨hkey, hget⟩
            · exact Function.update_self _ _ _
            · exact (Function.update_of_ne hkey _ _).trans (h.entries key text hget)
      | @unstored offers degraded reply hpc hreply =>
          refine h.moves (a := .set reply) hcriteria ?_ h.entries fun _ hr => by cases hr
          rw [hcall, hpc, hpc']
          simp [CacheFrame.step, RequestPc.cachePc, hreply]

/-- **The service refines the cache.** -/
theorem SearchService.cache_refines {breakers : BreakerRegistry} {clock : ℚ}
    (hrun : Trace (SearchService.step S) (SearchService.start criteria providers breakers clock)
      steps t) :
    ∃ csteps c, Trace (CachedSearches.step S.pydantic S.iso S.sha1)
        (CachedSearches.start criteria) csteps c ∧
      (∀ i, c.procs i = { criteria := criteria i, pc := (t.procs i).pc.cachePc }) ∧
      (∀ key text, t.shared.get key = some text → c.shared key = some text) ∧
      ∀ p ∈ csteps, ∀ i results, p.2 = .proc i (.search results) →
        Gathered S (providers i) results := by
  obtain ⟨csteps, c, htrace, hbacked, h⟩ := hrun.simulates (a := CachedSearches.start criteria)
    (R := fun l u cl b => u.Backed S criteria providers l ∧ CachedAs S providers u cl b)
    (A := fun _ _ => True) (fun _ _ => trivial)
    ⟨SearchService.backed_run .nil, nofun, fun _ => rfl, nofun⟩ (by
      rintro l u m v cl b ⟨hbacked, h⟩ - hs
      obtain ⟨more, b', hmore, h'⟩ := h.step hbacked hs
      exact ⟨more, b', hmore, hbacked.step hs, h'⟩)
  refine ⟨csteps, c, htrace, fun i => ?_, h.entries, h.searches⟩
  rw [h.calls i, (hbacked.asked i).1]

/-- The run in which the second request is served from the cache is one of the cache. -/
theorem SearchService.cache_refines_hit :
    ∃ offers csteps c, Trace (CachedSearches.step Sample.isoPydantic Sample.iso Sample.digest)
        (CachedSearches.start fun _ : ℕ => Sample.trip) csteps c ∧
      c.procs 1 = { criteria := Sample.trip, pc := .done (.ok (offers, [], true)) } := by
  obtain ⟨t, offers, ht, hdone⟩ := Sample.exec_requests
  obtain ⟨csteps, c, hrun, hprocs, -⟩ := SearchService.cache_refines (Trace.of_exec ht)
  refine ⟨offers, csteps, c, hrun, ?_⟩
  rw [hprocs 1, hdone]
  rfl

end FlyDesk
