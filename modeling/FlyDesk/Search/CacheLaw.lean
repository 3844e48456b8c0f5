/-
FlyDesk/Search/CacheLaw.lean

The cache is transparent.  Every text under a key of `cached_search` was
written by a call whose search had no degraded provider, and from one key to
one text of criteria SHA-1 leads back.  So what a call reads are the offers
that a search for equal criteria returned before, as they come back from their
text: rendered as they were, and in the same order.

`CachedSearches.Sourced` is what a run keeps, whatever the texts mean;
`loadOffers_dumpOffers` is what becomes of the texts, whatever the run was.
`cached_search_transparent` puts the two together.
-/
import FlyDesk.Search.Cache
import FlyDesk.Search.MergeLaw

namespace FlyDesk

open Lib

/-! ### From offers to text and back -/

section Text

variable {P : Pydantic} {T : IsoText}

/-- The offers come back as they were, their totals rounded. -/
theorem loadOffers_dumpOffers (hP : P.Lawful T) {offers : List Offer}
    (h : ∀ o ∈ offers, o.Valid P) :
    loadOffers P (dumpOffers T offers) =
      .ok (offers.map fun o => { o with total := o.total.stored }) := by
  have hplain : (Json.list (Offer.json T) offers).Plain :=
    Json.plain_list fun o _ => o.plain_json
  have hread : (offers.map (Offer.json T)).mapM (Offer.modelValidate P) =
      some (offers.map fun o => { o with total := o.total.stored }) :=
    Decoder.list_list fun o ho => Offer.modelValidate_json hP (h o ho)
  rw [loadOffers, dumpOffers, jsonLoads_jsonDumps hplain]
  show validated ((offers.map (Offer.json T)).mapM (Offer.modelValidate P)) = _
  rw [hread]
  rfl

/-- They are rendered as they were. -/
theorem map_json_stored (offers : List Offer) :
    (offers.map fun o => { o with total := o.total.stored }).map (Offer.json T) =
      offers.map (Offer.json T) := by
  rw [List.map_map]
  exact List.map_congr_left fun o _ => o.json_stored

/-- The totals do not decrease. -/
def CheapestFirst (offers : List Offer) : Prop :=
  offers.Pairwise fun a b => a.total.amount.value ≤ b.total.amount.value

theorem CheapestFirst.map_stored {offers : List Offer} (h : CheapestFirst offers) :
    CheapestFirst (offers.map fun o => { o with total := o.total.stored }) := by
  rw [CheapestFirst, List.pairwise_map]
  exact h.imp (Decimal.quantize_mono 2)

end Text

/-! ### What a search returns -/

section Merge

variable {results : List (String × Except Exn (List Offer))} {offers : List Offer}
  {degraded : List String}

theorem cheapestFirst_of_merge (h : merge [] [] results = .ok (offers, degraded)) :
    CheapestFirst offers := by
  obtain ⟨-, rfl, -⟩ := merge_eq_ok.mp h
  exact (sortBy_stable _ _).sorted

/-- Every offer was found by a provider. -/
theorem mem_of_merge (h : merge [] [] results = .ok (offers, degraded)) {o : Offer}
    (ho : o ∈ offers) : ∃ name found, (name, Except.ok found) ∈ results ∧ o ∈ found := by
  obtain ⟨-, rfl, -⟩ := merge_eq_ok.mp h
  obtain ⟨⟨name, r⟩, hr, hmem⟩ := List.mem_flatMap.mp ((sortBy_stable _ _).perm.mem_iff.mp ho)
  cases r with
  | error e => cases hmem
  | ok found => exact ⟨name, found, hr, hmem⟩

end Merge

variable {ι : Type} {P : Pydantic} {T : IsoText} {sha1 : List Char → String}
  {criteria : ι → SearchCriteria} {s t : CachedSearches ι}
  {steps steps' : List (CachedSearches ι × CacheMove ι)}

/-! ### What a run has seen -/

/-- The offers the providers find have been through their validators, as those of
the mappers have (`mapped_valid`). -/
def FindsValid (P : Pydantic) : CacheMove ι → Prop
  | .proc _ (.search results) =>
    ∀ name found, (name, Except.ok found) ∈ results → ∀ o ∈ found, o.Valid P
  | _ => True

/-- The search of call `i` has ended so. -/
def Searched (steps : List (CachedSearches ι × CacheMove ι)) (i : ι)
    (r : Except Exn (List Offer × List String)) : Prop :=
  ∃ p ∈ steps, ∃ results, p.2 = .proc i (.search results) ∧ merge [] [] results = r

theorem Searched.append {i : ι} {r : Except Exn (List Offer × List String)}
    (h : Searched steps i r) (l : List (CachedSearches ι × CacheMove ι)) :
    Searched (steps ++ l) i r := by
  obtain ⟨p, hp, hrest⟩ := h
  exact ⟨p, List.mem_append_left _ hp, hrest⟩

/-- What is returned is in order. -/
theorem Searched.cheapestFirst {i : ι} {offers : List Offer} {degraded : List String}
    (h : Searched steps i (.ok (offers, degraded))) : CheapestFirst offers := by
  obtain ⟨_, _, _, _, hret⟩ := h
  exact cheapestFirst_of_merge hret

theorem Searched.valid {i : ι} {offers : List Offer} {degraded : List String}
    (h : Searched steps i (.ok (offers, degraded))) (hvalid : ∀ p ∈ steps, FindsValid P p.2) :
    ∀ o ∈ offers, o.Valid P := by
  intro o ho
  obtain ⟨p, hp, results, hmove, hret⟩ := h
  obtain ⟨name, found, hmem, hfound⟩ := mem_of_merge hret ho
  have hfinds := hvalid p hp
  rw [hmove] at hfinds
  exact hfinds name found hmem o hfound

/-- Call `i` has read an entry, and before that the search of a call that is
the same had found these offers, no provider degraded. -/
def ServedFrom (steps : List (CachedSearches ι × CacheMove ι)) (i : ι) (same : ι → Prop)
    (found : List Offer) : Prop :=
  ∃ before p, before ++ [p] <+: steps ∧ p.2 = .proc i (.get false) ∧
    ∃ j, same j ∧ Searched before j (.ok (found, []))

theorem ServedFrom.append {i : ι} {same : ι → Prop} {found : List Offer}
    (h : ServedFrom steps i same found) (l : List (CachedSearches ι × CacheMove ι)) :
    ServedFrom (steps ++ l) i same found := by
  obtain ⟨before, p, hpre, hrest⟩ := h
  exact ⟨before, p, hpre.trans (List.prefix_append _ _), hrest⟩

theorem ServedFrom.imp {i : ι} {same same' : ι → Prop} {found : List Offer}
    (h : ServedFrom steps i same found) (himp : ∀ j, same j → same' j) :
    ServedFrom steps i same' found := by
  obtain ⟨before, p, hpre, hget, j, hj, hs⟩ := h
  exact ⟨before, p, hpre, hget, j, himp j hj, hs⟩

theorem ServedFrom.valid {i : ι} {same : ι → Prop} {found : List Offer}
    (h : ServedFrom steps i same found) (hvalid : ∀ p ∈ steps, FindsValid P p.2) :
    ∀ o ∈ found, o.Valid P := by
  obtain ⟨before, p, hpre, -, j, -, hs⟩ := h
  exact hs.valid (Trace.allowed_prefix (A := fun _ m => FindsValid P m) hvalid hpre)

theorem ServedFrom.cheapestFirst {i : ι} {same : ι → Prop} {found : List Offer}
    (h : ServedFrom steps i same found) : CheapestFirst found := by
  obtain ⟨_, _, _, _, _, _, hs⟩ := h
  exact hs.cheapestFirst

/-! ### Where everything comes from -/

/-- The two calls have one key. -/
def SameKey (T : IsoText) (sha1 : List Char → String) (criteria : ι → SearchCriteria)
    (i j : ι) : Prop :=
  cacheKey T sha1 (criteria j) = cacheKey T sha1 (criteria i)

/-- What is behind a call, from the point it is at. -/
def CachePc.Told (P : Pydantic) (T : IsoText) (sha1 : List Char → String)
    (criteria : ι → SearchCriteria) (steps : List (CachedSearches ι × CacheMove ι)) (i : ι) :
    CachePc → Prop
  | .reading | .searching => True
  | .writing offers degraded => degraded = [] ∧ Searched steps i (.ok (offers, []))
  | .done r =>
    (∃ offers degraded, r = .ok (offers, degraded, false) ∧
      Searched steps i (.ok (offers, degraded))) ∨
    (∃ e, r = .error e ∧ Searched steps i (.error e)) ∨
    ∃ found, ServedFrom steps i (SameKey T sha1 criteria i) found ∧
      r = (loadOffers P (dumpOffers T found)).map fun offers => (offers, [], true)

theorem CachePc.Told.append {i : ι} {pc : CachePc} (h : pc.Told P T sha1 criteria steps i)
    (l : List (CachedSearches ι × CacheMove ι)) :
    pc.Told P T sha1 criteria (steps ++ l) i := by
  cases pc with
  | reading => trivial
  | searching => trivial
  | writing offers degraded => exact ⟨h.1, h.2.append l⟩
  | done r =>
      rcases h with ⟨offers, degraded, hr, hs⟩ | ⟨e, hr, hs⟩ | ⟨found, hread, hr⟩
      · exact Or.inl ⟨offers, degraded, hr, hs.append l⟩
      · exact Or.inr (Or.inl ⟨e, hr, hs.append l⟩)
      · exact Or.inr (Or.inr ⟨found, hread.append l, hr⟩)

/-- The text was written after a search under this key, no provider degraded. -/
def WrittenAfter (T : IsoText) (sha1 : List Char → String) (criteria : ι → SearchCriteria)
    (steps : List (CachedSearches ι × CacheMove ι)) (key : String) (text : List Char) : Prop :=
  ∃ j found, cacheKey T sha1 (criteria j) = key ∧ text = dumpOffers T found ∧
    Searched steps j (.ok (found, []))

theorem WrittenAfter.append {key : String} {text : List Char}
    (h : WrittenAfter T sha1 criteria steps key text)
    (l : List (CachedSearches ι × CacheMove ι)) :
    WrittenAfter T sha1 criteria (steps ++ l) key text := by
  obtain ⟨j, found, hkey, htext, hs⟩ := h
  exact ⟨j, found, hkey, htext, hs.append l⟩

/-- Every text in the cache and every call has its source in the run. -/
structure CachedSearches.Sourced (P : Pydantic) (T : IsoText) (sha1 : List Char → String)
    (criteria : ι → SearchCriteria) (steps : List (CachedSearches ι × CacheMove ι))
    (s : CachedSearches ι) : Prop where
  asked : ∀ i, (s.procs i).criteria = criteria i
  stored : ∀ c text, s.shared (cacheKey T sha1 c) = some text →
    WrittenAfter T sha1 criteria steps (cacheKey T sha1 c) text
  told : ∀ i, (s.procs i).pc.Told P T sha1 criteria steps i

/-- The step of a call, as far as it and Redis are concerned. -/
theorem CachedSearches.Sourced.own {i : ι} {a : CacheAct} {w : RedisStore} {f : CacheFrame}
    (h : s.Sourced P T sha1 criteria steps)
    (hs : CacheFrame.Steps P T sha1 s.shared (criteria i) (s.procs i).pc a w f.pc) :
    f.pc.Told P T sha1 criteria (steps ++ [(s, .proc i a)]) i ∧
      ∀ c text, w (cacheKey T sha1 c) = some text →
        WrittenAfter T sha1 criteria (steps ++ [(s, .proc i a)]) (cacheKey T sha1 c) text := by
  have hstored := fun c text hc => (h.stored c text hc).append [(s, .proc i a)]
  have htold := h.told i
  generalize hpc : (s.procs i).pc = pc at hs htold
  generalize f.pc = pc' at hs
  -- what the search of this step hands over is seen by the run
  have hnow : ∀ results, a = .search results →
      Searched (steps ++ [(s, .proc i a)]) i (merge [] [] results) := by
    rintro results rfl
    exact ⟨(s, .proc i (.search results)), by simp, results, rfl, rfl⟩
  cases hs with
  | miss => exact ⟨trivial, hstored⟩
  | @hit text htext =>
      -- what is read was written after a search, so that search came before the read
      obtain ⟨j, found, hkey, rfl, hsearched⟩ := h.stored _ _ htext
      refine ⟨Or.inr (Or.inr ⟨found, ?_, rfl⟩), hstored⟩
      exact ⟨steps, (s, .proc i (.get false)), List.prefix_rfl, rfl, j, hkey, hsearched⟩
  | @raises results e hret =>
      exact ⟨Or.inr (Or.inl ⟨e, rfl, hret ▸ hnow results rfl⟩), hstored⟩
  | @full results offers hret => exact ⟨⟨rfl, hret ▸ hnow results rfl⟩, hstored⟩
  | @partly results offers degraded hret =>
      exact ⟨Or.inl ⟨offers, degraded, rfl, hret ▸ hnow results rfl⟩, hstored⟩
  | @write offers degraded reply =>
      obtain ⟨rfl, hsearched⟩ := htold
      have hlater := hsearched.append [(s, .proc i (.set reply))]
      refine ⟨Or.inl ⟨offers, [], rfl, hlater⟩, fun c text hc => ?_⟩
      split_ifs at hc with hreply
      · -- the entry of this key is new; what is under other keys is older
        by_cases hkey : cacheKey T sha1 c = cacheKey T sha1 (criteria i)
        · rw [hkey, Function.update_self] at hc
          exact ⟨i, offers, hkey.symm, (Option.some.inj hc).symm, hlater⟩
        · rw [Function.update_of_ne hkey] at hc
          exact hstored c text hc
      · exact hstored c text hc

/-- What happens to Redis meanwhile puts no text under a key of the cache. -/
theorem RedisStore.meanwhile_cacheKey {w w' : RedisStore} {e : RedisEvent}
    (h : w.meanwhile e = some w') {c : SearchCriteria} {text : List Char}
    (hc : w' (cacheKey T sha1 c) = some text) :
    w (cacheKey T sha1 c) = some text := by
  cases e with
  | expire key =>
      obtain rfl := Option.some.inj h
      by_cases hkey : cacheKey T sha1 c = key
      · rw [hkey, Function.update_self] at hc
        cases hc
      · rwa [Function.update_of_ne hkey] at hc
  | elsewhere key value =>
      obtain ⟨hother, hw⟩ := Option.ite_none_left_eq_some.mp h
      obtain rfl := Option.some.inj hw
      have hkey : cacheKey T sha1 c ≠ key := by
        rintro rfl
        rw [cacheKey, String.toList_append] at hother
        exact hother (List.prefix_append _ _)
      rwa [Function.update_of_ne hkey] at hc

variable [DecidableEq ι]

/-- The step lemma of `Sourced`. -/
theorem CachedSearches.Sourced.step {m : CacheMove ι} (h : s.Sourced P T sha1 criteria steps)
    (hs : s.step P T sha1 m = some t) : t.Sourced P T sha1 criteria (steps ++ [(s, m)]) := by
  cases m with
  | proc i a =>
      obtain ⟨w, f, hf, rfl⟩ := System.step_proc hs
      obtain ⟨hcriteria, hstep⟩ := CacheFrame.steps_of_step hf
      rw [h.asked i] at hcriteria hstep
      obtain ⟨htold, hstored⟩ := h.own hstep
      refine ⟨?_, hstored, ?_⟩
      · exact (Function.forall_update_iff _ fun j (g : CacheFrame) => g.criteria = criteria j).mpr
          ⟨hcriteria, fun j _ => h.asked j⟩
      · refine (Function.forall_update_iff _ fun j (g : CacheFrame) =>
          g.pc.Told P T sha1 criteria _ j).mpr ⟨htold, fun j _ => (h.told j).append _⟩
  | env e =>
      obtain ⟨w, hw, rfl⟩ := System.step_env hs
      refine ⟨h.asked, fun c text hc => ?_, fun j => (h.told j).append _⟩
      exact (h.stored c text (RedisStore.meanwhile_cacheKey hw hc)).append _

/-- **Everything in a run has its source.** -/
theorem CachedSearches.sourced_run
    (h : Trace (CachedSearches.step P T sha1) (CachedSearches.start criteria) steps t) :
    t.Sourced P T sha1 criteria steps := by
  refine h.history (A := fun _ _ => True)
    (I := fun l u => CachedSearches.Sourced P T sha1 criteria l u)
    (fun _ _ => trivial) ⟨fun _ => rfl, ?_, fun _ => trivial⟩ fun hI _ hs => hI.step hs
  intro c text hc
  cases hc

/-! ### The law -/

/-- Where SHA-1 does not collide, calls of one key have equal criteria. -/
theorem criteria_of_cacheKey (hP : P.Lawful T) {c c' : SearchCriteria}
    (hsha1 : sha1 (c.modelDumpJson T) = sha1 (c'.modelDumpJson T) →
      c.modelDumpJson T = c'.modelDumpJson T)
    (h : cacheKey T sha1 c = cacheKey T sha1 c') : c = c' := by
  have hdigest : sha1 (c.modelDumpJson T) = sha1 (c'.modelDumpJson T) := by
    have htext := congrArg String.toList h
    rw [cacheKey, cacheKey, String.toList_append, String.toList_append] at htext
    exact String.toList_inj.mp (List.append_cancel_left htext)
  exact SearchCriteria.modelDumpJson_injective hP (hsha1 hdigest)

/-- **The cache is transparent.**  A call that raises was given the exception
by its search.  What a call returns is in order; from the cache, it is
rendered as what a search for equal criteria without degraded providers
returned before; otherwise, it is what the call's own search returned. -/
theorem cached_search_transparent (hP : P.Lawful T)
    (hsha1 : ∀ i j, sha1 ((criteria i).modelDumpJson T) = sha1 ((criteria j).modelDumpJson T) →
      (criteria i).modelDumpJson T = (criteria j).modelDumpJson T)
    (hrun : Trace (CachedSearches.step P T sha1) (CachedSearches.start criteria) steps t)
    (hvalid : ∀ p ∈ steps, FindsValid P p.2) {i : ι}
    {r : Except Exn (List Offer × List String × Bool)} (hdone : (t.procs i).pc = .done r) :
    (∀ e, r = .error e → Searched steps i (.error e)) ∧
      ∀ offers degraded cached, r = .ok (offers, degraded, cached) →
        CheapestFirst offers ∧
        (cached = true → degraded = [] ∧ ∃ found,
          ServedFrom steps i (fun j => criteria j = criteria i) found ∧
          offers.map (Offer.json T) = found.map (Offer.json T)) ∧
        (cached = false → Searched steps i (.ok (offers, degraded))) := by
  have htold := (CachedSearches.sourced_run hrun).told i
  rw [hdone] at htold
  rcases htold with ⟨os, ds, rfl, hs⟩ | ⟨e, rfl, hs⟩ | ⟨found, hread, hr⟩
  · refine ⟨nofun, ?_⟩
    rintro offers degraded cached ⟨⟩
    exact ⟨hs.cheapestFirst, nofun, fun _ => hs⟩
  · refine ⟨?_, nofun⟩
    rintro _ ⟨⟩
    exact hs
  · rw [loadOffers_dumpOffers hP (hread.valid hvalid)] at hr
    subst hr
    refine ⟨nofun, ?_⟩
    rintro offers degraded cached ⟨⟩
    refine ⟨hread.cheapestFirst.map_stored, fun _ => ⟨rfl, found, ?_, map_json_stored found⟩, nofun⟩
    exact hread.imp fun j hj => criteria_of_cacheKey hP (hsha1 j i) hj

namespace Sample

/-- One adult from London to New York. -/
def trip : SearchCriteria where
  origin := "LHR"
  destination := "JFK"
  departureDate := departureDay
  returnDate := none
  cabinClass := .economy
  passengers := [{ type := .adult, age := none }]
  maxConnections := 1

/-- The digest of the text of `trip`, and some string for every other
text. -/
def digest (text : List Char) : String :=
  if text = trip.modelDumpJson iso then "f063d86b3d6c8a37a265fce483161553e4c6074d"
  else String.ofList text

example : String.ofList (trip.modelDumpJson iso) =
    "\x7b\"origin\":\"LHR\",\"destination\":\"JFK\",\"departure_date\":\"2026-08-15\"," ++
      "\"return_date\":null,\"cabin_class\":\"economy\"," ++
      "\"passengers\":[\x7b\"type\":\"adult\",\"age\":null\x7d],\"max_connections\":1\x7d" := by
  decide +kernel

/-- A fare with a third place. -/
def dinars : Offer := fare { amount := ⟨false, 10125, -3⟩, currency := "KWD" }

theorem valid_dinars : dinars.Valid isoPydantic := valid_fare ⟨"KWD", by decide⟩

/-- A call searches and fills the cache, and another reads it. -/
def lookups : List (CacheMove ℕ) :=
  [.proc 0 (.get false), .proc 0 (.search [("duffel", .ok [dinars])]), .proc 0 (.set .ok),
    .proc 1 (.get false)]

end Sample

/-- The second call is served from the cache. -/
theorem cached_search_transparent_hit :
    let start := CachedSearches.start fun _ : ℕ => Sample.trip
    let step := CachedSearches.step Sample.isoPydantic Sample.iso Sample.digest
    ∃ t offers, exec step start Sample.lookups = some t ∧
      (t.procs 1).pc = .done (.ok (offers, [], true)) ∧ CheapestFirst offers ∧
      ∃ found, ServedFrom (execSteps step start Sample.lookups) 1
          (fun _ => Sample.trip = Sample.trip) found ∧
        offers.map (Offer.json Sample.iso) = found.map (Offer.json Sample.iso) := by
  have hmerge : merge [] [] [("duffel", .ok [Sample.dinars])] = .ok ([Sample.dinars], []) := by
    simp [merge, sortBy]
  have hall : ∀ o ∈ [Sample.dinars], o.Valid Sample.isoPydantic := by
    simpa using Sample.valid_dinars
  have hload := loadOffers_dumpOffers Sample.isoPydantic_lawful hall
  have hne : dumpOffers Sample.iso [Sample.dinars] ≠ [] := List.cons_ne_nil _ _
  intro start step
  obtain ⟨t, ht, hdone⟩ : ∃ t, exec step start Sample.lookups = some t ∧ (t.procs 1).pc =
      .done ((loadOffers Sample.isoPydantic (dumpOffers Sample.iso [Sample.dinars])).map
        fun offers => (offers, [], true)) := by
    simp [start, step, exec, Sample.lookups, CachedSearches.step, CachedSearches.start,
      System.step, CacheFrame.step, hmerge, WriteReply.stored, hne]
  rw [hload] at hdone
  have hvalid : ∀ p ∈ execSteps step start Sample.lookups, FindsValid Sample.isoPydantic p.2 := by
    intro p hp
    have hmove := mem_of_execSteps hp
    simp only [Sample.lookups, List.mem_cons, List.not_mem_nil, or_false] at hmove
    rcases hmove with h | h | h | h <;> rw [h]
    · trivial
    · intro name found hfound o ho
      simp at hfound
      obtain ⟨rfl, rfl⟩ := hfound
      simp at ho
      exact ho ▸ Sample.valid_dinars
    · trivial
    · trivial
  obtain ⟨-, hret⟩ := cached_search_transparent Sample.isoPydantic_lawful
    (by exact fun _ _ _ => rfl) (Trace.of_exec ht) hvalid hdone
  obtain ⟨hsorted, hhit, -⟩ := hret _ _ _ rfl
  obtain ⟨-, hfound⟩ := hhit rfl
  exact ⟨t, _, ht, hdone, hsorted, hfound⟩

end FlyDesk
