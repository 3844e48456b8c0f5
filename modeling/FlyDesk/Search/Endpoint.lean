/-
FlyDesk/Search/Endpoint.lean

POST /api/v1/search as it is deployed: `build_criteria`, `cached_search`, and Duffel as
the one provider.  The law is about what a client is answered, over runs of any number of
requests with whatever Duffel and Redis do meanwhile: an accepted request is answered 200.
Its offers are those of one answer of Duffel's, mapped and sorted, to the request itself
or to an equal one that has filled the cache; or there are none, and Duffel is reported
as degraded.

A call of Duffel ends with an answer, with a failure, or not before the deadline of
`search_all`.  None of its exceptions gets past the gather, so none reaches the client.
-/
import FlyDesk.Providers.Duffel.Faults
import FlyDesk.Providers.Duffel.Search
import FlyDesk.Providers.Validity
import FlyDesk.Search.Answers
import FlyDesk.Search.Criteria

namespace FlyDesk

open Lib

/-! ### The provider -/

section Provider

variable (P : Pydantic) (T : IsoText)

/-- `AsyncDuffelProvider` as one search meets it: each call finds the endpoint as it is
then, or runs into the deadline. -/
def AsyncDuffelProvider.awaited (calls : ℕ → Option (Json → HttpOutcome))
    (criteria : SearchCriteria) : AsyncFlightProvider where
  name := Provider.duffel.value
  search i := match calls i with
    | none => .late
    | some postOfferRequest => (AsyncDuffelProvider.search P T postOfferRequest criteria).outcome

/-- `get_async_providers`. -/
def getAsyncProviders (calls : ℕ → Option (Json → HttpOutcome)) (criteria : SearchCriteria) :
    Fin 1 → AsyncFlightProvider :=
  fun _ => AsyncDuffelProvider.awaited P T calls criteria

/-- Call `k` was answered with these offers, cheapest first. -/
def FoundBy (calls : ℕ → Option (Json → HttpOutcome)) (criteria : SearchCriteria) (k : ℕ)
    (offers : List Offer) : Prop :=
  ∃ postOfferRequest raw found, calls k = some postOfferRequest ∧
    (postOfferRequest (criteria.offerRequest T)).Delivers raw ∧
    Duffel.mapOffers P raw = .ok found ∧ offers = sortBy (fun o => o.total.amount.value) found

/-- Duffel has found these offers: at the first call, or at the second after the first has
failed in a way that is retried. -/
def Fetched (calls : ℕ → Option (Json → HttpOutcome)) (criteria : SearchCriteria)
    (offers : List Offer) : Prop :=
  FoundBy P T calls criteria 0 offers ∨
    (AsyncDuffelProvider.awaited P T calls criteria).Blips ∧ FoundBy P T calls criteria 1 offers

end Provider

/-! ### The view -/

/-- The body of a search that has returned. -/
def SearchView.body (T : IsoText) (offers : List Offer) (degraded : List String)
    (cached : Bool) : Json := .obj
  [("count", .int offers.length), ("cached", .bool cached),
    ("degraded_providers", .list .str degraded), ("offers", .list (Offer.json T) offers)]

/-- `SearchView.post`: without criteria a request is answered at once, and with them when
its `cached_search` is done. -/
def SearchView.post (P : Pydantic) (T : IsoText) (data : SearchRequest) {n : ℕ}
    (pc : RequestPc n) : Option Answer :=
  match buildCriteria P data, pc with
  | .error e, _ => some e.answer
  | .ok _, .done (.ok (offers, degraded, cached)) =>
    some (.ok 200 (SearchView.body T offers degraded cached))
  | .ok _, .done (.error e) => some e.answer
  | .ok _, _ => none

/-! ### What Duffel contributes -/

section Duffel

variable {P : Pydantic} {T : IsoText} {calls : ℕ → Option (Json → HttpOutcome)}
  {criteria : SearchCriteria} {offers : List Offer}

/-- What the client makes of an answer that arrives. -/
theorem AsyncDuffelProvider.received_eq_ok {outcome : HttpOutcome} {raw : Json} :
    AsyncDuffelProvider.post outcome >>= responseJson = .ok raw ↔ outcome.Delivers raw := by
  rw [bind_eq_ok]
  constructor
  · rintro ⟨response, hresponse, hraw⟩
    rcases outcome with - | - | name | ⟨status, body⟩
    case response =>
      rw [post] at hresponse
      split_ifs at hresponse with hstatus
      obtain rfl := Except.ok.inj hresponse
      cases body with
      | none => cases hraw
      | some raw' =>
          obtain rfl := Except.ok.inj hraw
          exact ⟨status, rfl, not_le.mp hstatus⟩
    all_goals cases hresponse
  · rintro ⟨status, rfl, hstatus⟩
    exact ⟨some raw, if_neg (not_le.mpr hstatus), rfl⟩

theorem AsyncDuffelProvider.search_eq_ok {postOfferRequest : Json → HttpOutcome} :
    (AsyncDuffelProvider.search P T postOfferRequest criteria).result = .ok offers ↔
      ∃ raw found, (postOfferRequest (criteria.offerRequest T)).Delivers raw ∧
        Duffel.mapOffers P raw = .ok found ∧
        offers = sortBy (fun o => o.total.amount.value) found := by
  have hsearch : (AsyncDuffelProvider.search P T postOfferRequest criteria).result =
      (AsyncDuffelProvider.post (postOfferRequest (criteria.offerRequest T)) >>= responseJson) >>=
        fun raw => Duffel.mapOffers P raw >>= fun found =>
          .ok (sortBy (fun o => o.total.amount.value) found) := by
    simp only [AsyncDuffelProvider.search, Duffel.mapOffers, bind_assoc,
      SearchCriteria.offerRequest]
  rw [hsearch, bind_eq_ok]
  constructor
  · rintro ⟨raw, hraw, h⟩
    obtain ⟨found, hfound, h⟩ := bind_eq_ok.mp h
    exact ⟨raw, found, received_eq_ok.mp hraw, hfound, (Except.ok.inj h).symm⟩
  · rintro ⟨raw, found, hraw, hfound, rfl⟩
    exact ⟨raw, received_eq_ok.mpr hraw, bind_eq_ok.mpr ⟨found, hfound, rfl⟩⟩

/-- No search of Duffel is cancelled from within. -/
theorem AsyncDuffelProvider.search_isException {postOfferRequest : Json → HttpOutcome} :
    Raises (fun e => e.isException)
      (AsyncDuffelProvider.search P T postOfferRequest criteria).result := by
  have hinvalid : ∀ {α : Type} {x : Except Exn α}, OnlyInvalid x →
      Raises (fun e => e.isException) x :=
    fun h e he => by rw [h e he]; rfl
  refine Raises.bind ?_ fun response _ => Raises.bind ?_ fun _ _ => Raises.bind ?_ fun _ _ =>
    Raises.bind ?_ fun _ _ => Raises.ok
  · generalize postOfferRequest _ = outcome
    rcases outcome with - | - | name | ⟨status, body⟩
    · exact raises_error.mpr rfl
    · exact raises_error.mpr rfl
    · exact raises_error.mpr rfl
    · rw [AsyncDuffelProvider.post]
      split_ifs
      · exact raises_error.mpr rfl
      · exact Raises.ok
  · cases response with
    | none => exact raises_error.mpr rfl
    | some raw => exact Raises.ok
  · exact hinvalid onlyInvalid_validated
  · exact hinvalid (Raises.mapM fun o _ => Duffel.raises_mapOffer P o)

/-- A call that ends in time ends as the client's search does. -/
theorem AsyncDuffelProvider.attempt_eq_result {k : ℕ} {postOfferRequest : Json → HttpOutcome}
    (hk : calls k = some postOfferRequest) :
    (AsyncDuffelProvider.awaited P T calls criteria).attempt k =
      (AsyncDuffelProvider.search P T postOfferRequest criteria).result := by
  simp only [AsyncFlightProvider.attempt, awaited, hk, SearchAttempt.outcome]
  cases (AsyncDuffelProvider.search P T postOfferRequest criteria).result <;> rfl

theorem AsyncDuffelProvider.attempt_late {k : ℕ} (hk : calls k = none) :
    (AsyncDuffelProvider.awaited P T calls criteria).attempt k = .error .timeoutError := by
  simp only [AsyncFlightProvider.attempt, awaited, hk]

theorem AsyncDuffelProvider.search_eq_returns {k : ℕ} :
    (AsyncDuffelProvider.awaited P T calls criteria).search k = .returns offers ↔
      FoundBy P T calls criteria k offers := by
  rw [← AsyncFlightProvider.attempt_eq_ok]
  rcases hk : calls k with - | postOfferRequest
  · simp [attempt_late hk, FoundBy, hk]
  · simp [attempt_eq_result hk, FoundBy, hk, search_eq_ok]

theorem AsyncDuffelProvider.delivers_iff :
    (AsyncDuffelProvider.awaited P T calls criteria).Delivers offers ↔
      Fetched P T calls criteria offers := by
  simp only [AsyncFlightProvider.Delivers, Fetched, search_eq_returns]

theorem AsyncDuffelProvider.not_cancelled :
    ¬ (AsyncDuffelProvider.awaited P T calls criteria).Cancels := by
  rw [← AsyncFlightProvider.answers_cancelled]
  have hattempt : ∀ k, .error .cancelledError ≠
      (AsyncDuffelProvider.awaited P T calls criteria).attempt k := by
    intro k h
    rcases hk : calls k with - | postOfferRequest
    · rw [attempt_late hk] at h
      cases h
    · rw [attempt_eq_result hk] at h
      exact absurd (search_isException _ h.symm) (by decide)
  rintro (⟨-, h⟩ | ⟨-, h⟩)
  · exact hattempt 0 h
  · exact hattempt 1 h

theorem Fetched.exists_found (h : Fetched P T calls criteria offers) :
    ∃ k, FoundBy P T calls criteria k offers := by
  rcases h with h | ⟨-, h⟩
  · exact ⟨0, h⟩
  · exact ⟨1, h⟩

theorem Fetched.cheapestFirst (h : Fetched P T calls criteria offers) : CheapestFirst offers := by
  obtain ⟨-, -, -, found, -, -, -, rfl⟩ := h.exists_found
  exact (sortBy_stable _ found).sorted

theorem Fetched.valid (h : Fetched P T calls criteria offers) : ∀ o ∈ offers, o.Valid P := by
  obtain ⟨-, -, raw, found, -, -, hmap, rfl⟩ := h.exists_found
  obtain ⟨parsed, -, hmap⟩ := bind_eq_ok.mp hmap
  have hvalid := Returns.mapM (fun o _ => Duffel.returns_mapOffer o) found hmap
  exact fun o ho => hvalid o ((sortBy_stable _ found).perm.mem_iff.mp ho)

end Duffel

/-- The merge of one contribution that is sorted already. -/
theorem Merged.one {providers : Fin 1 → AsyncFlightProvider} {away : Fin 1 → Prop}
    {contribution : Fin 1 → Option (List Offer)} {offers : List Offer} {degraded : List String}
    (h : Merged providers away contribution offers degraded)
    (hsorted : ∀ found, (providers 0).Delivers found → CheapestFirst found) :
    (degraded = [] ∧ ¬ away 0 ∧ (providers 0).Delivers offers) ∨
      (degraded = [(providers 0).name] ∧ offers = [] ∧
        ∀ found, away 0 ∨ ¬ (providers 0).Delivers found) := by
  have hmerged := h.offers
  have hdegraded := h.degraded
  rw [List.finRange_succ, List.finRange_zero] at hmerged hdegraded
  cases hc : contribution 0 with
  | some found =>
      obtain ⟨haway, hdelivers⟩ := (h.delivers 0 found).mp hc
      simp [hc] at hmerged hdegraded
      rw [hmerged.eq_self (hsorted found hdelivers)]
      exact Or.inl ⟨hdegraded, haway, hdelivers⟩
  | none =>
      simp [hc] at hmerged hdegraded
      refine Or.inr ⟨hdegraded, hmerged.perm.eq_nil, fun found => ?_⟩
      by_contra hno
      have hfound := (h.delivers 0 found).mpr (not_or.mp hno |>.imp_right not_not.mp)
      rw [hc] at hfound
      cases hfound

/-! ### The answer -/

variable {ι : Type*}

/-- Where the offers of an answer come from: Duffel has found them for this request; it
was not called or has failed, and there are none; or it has found them for a request for
equal criteria, less than `ttl` seconds ago. -/
inductive SearchView.Sourced (S : SearchSettings) (criteria : ι → SearchCriteria)
    (calls : ι → ℕ → Option (Json → HttpOutcome))
    (steps : List (SearchService ι 1 × SearchServiceMove ι 1)) (i : ι) :
    List Offer → List String → Bool → Prop
  | live {offers} : ¬ Refused steps i 0 →
      Fetched S.pydantic S.iso (calls i) (criteria i) offers →
      Sourced S criteria calls steps i offers [] false
  | degraded : (∀ found, Refused steps i 0 ∨
        ¬ Fetched S.pydantic S.iso (calls i) (criteria i) found) →
      Sourced S criteria calls steps i [] ["duffel"] false
  | cached {offers found} :
      FreshFrom S (fun j => getAsyncProviders S.pydantic S.iso (calls j) (criteria j)) steps i
        (fun j => criteria j = criteria i ∧
          Fetched S.pydantic S.iso (calls j) (criteria j) found) found →
      offers.map (Offer.json S.iso) = found.map (Offer.json S.iso) →
      Sourced S criteria calls steps i offers [] true

/-- **What POST /api/v1/search answers.**  Whatever Duffel and Redis do, a request that has
criteria is answered 200 once it is done, with offers in the order of their prices that
come from Duffel's answer to it, or to an equal one; or with none, and Duffel reported as
degraded. -/
theorem SearchView.post_answers [DecidableEq ι] {S : SearchSettings} {data : ι → SearchRequest}
    {criteria : ι → SearchCriteria} {calls : ι → ℕ → Option (Json → HttpOutcome)}
    {breakers : BreakerRegistry} {clock : ℚ} {t : SearchService ι 1}
    {steps : List (SearchService ι 1 × SearchServiceMove ι 1)} {i : ι}
    (hP : S.pydantic.Lawful S.iso)
    (hsha1 : ∀ i j, S.sha1 ((criteria i).modelDumpJson S.iso) =
        S.sha1 ((criteria j).modelDumpJson S.iso) →
      (criteria i).modelDumpJson S.iso = (criteria j).modelDumpJson S.iso)
    (hdata : ∀ i, buildCriteria S.pydantic (data i) = .ok (criteria i))
    (hrun : Trace (SearchService.step S)
      (SearchService.start criteria
        (fun i => getAsyncProviders S.pydantic S.iso (calls i) (criteria i)) breakers clock)
      steps t) {r : Except Exn (List Offer × List String × Bool)}
    (hdone : (t.procs i).pc = .done r) :
    ∃ offers degraded cached,
      SearchView.post S.pydantic S.iso (data i) (t.procs i).pc =
        some (.ok 200 (SearchView.body S.iso offers degraded cached)) ∧
      CheapestFirst offers ∧
      SearchView.Sourced S criteria calls steps i offers degraded cached := by
  have hfinds : ∀ i (j : Fin 1) found,
      (getAsyncProviders S.pydantic S.iso (calls i) (criteria i) j).Delivers found →
        ∀ o ∈ found, o.Valid S.pydantic :=
    fun i _ found h => (AsyncDuffelProvider.delivers_iff.mp h).valid
  have hsorted : ∀ i found,
      (getAsyncProviders S.pydantic S.iso (calls i) (criteria i) 0).Delivers found →
        CheapestFirst found :=
    fun i found h => (AsyncDuffelProvider.delivers_iff.mp h).cheapestFirst
  simp only [SearchView.post, hdata, hdone]
  rcases (SearchService.backed_run hrun).done hP hsha1 hfinds hdone with
    ⟨offers, degraded, rfl, contribution, hmerged⟩ | ⟨-, j, -, hcancel⟩ |
    ⟨offers, found, rfl, hfresh, hcheapest, hjson⟩
  · refine ⟨offers, degraded, false, rfl, hmerged.offers.sorted, ?_⟩
    rcases hmerged.one (hsorted i) with ⟨rfl, haway, hfound⟩ | ⟨rfl, rfl, hnone⟩
    · exact .live haway (AsyncDuffelProvider.delivers_iff.mp hfound)
    · exact .degraded fun found => (hnone found).imp_right
        (mt AsyncDuffelProvider.delivers_iff.mpr)
  · exact absurd hcancel AsyncDuffelProvider.not_cancelled
  · refine ⟨offers, [], true, rfl, hcheapest,
      .cached (hfresh.imp fun j hcomplete hj => ⟨hj, ?_⟩) hjson⟩
    -- a complete search has one contribution, Duffel's
    obtain ⟨_, hmerged⟩ := hcomplete
    rcases hmerged.one (hsorted j) with ⟨-, -, hfound⟩ | ⟨hno, -⟩
    · exact AsyncDuffelProvider.delivers_iff.mp hfound
    · cases hno

namespace Sample

/-- Duffel's answer to a search: one offer. -/
def rawSearch : Json := .obj [("data", .obj [("id", .str "orq_1"), ("offers", .arr [.obj
  [("id", .str "off_1"), ("owner", .obj [("iata_code", .str "BA")]),
    ("total_amount", .str "10.00"), ("total_currency", .str "EUR"),
    ("slices", .arr [rawSlice])]])])]

/-- Duffel is too late at first, and answers from then on. -/
def lateOnce : ℕ → Option (Json → HttpOutcome)
  | 0 => none
  | _ => some fun _ => .response 200 (some rawSearch)

/-- A request whose search is retried. -/
def retried : List (SearchServiceMove ℕ 1) :=
  [.proc 0 (.get false), turn 0, turn 0, turn 0, turn 0, turn 0, .proc 0 .gather,
    .proc 0 (.set .ok)]

end Sample

/-- The first call is lost, and the offer of the second is the answer. -/
theorem SearchView.post_answers_lateOnce :
    let start := SearchService.start (fun _ : ℕ => Sample.trip)
      (fun _ => getAsyncProviders Sample.isoPydantic Sample.iso Sample.lateOnce Sample.trip)
      (fun _ => none) 0
    ∃ t offer, exec (SearchService.step Sample.settings) start Sample.retried = some t ∧
      FoundBy Sample.isoPydantic Sample.iso Sample.lateOnce Sample.trip 1 [offer] ∧
      ∃ offers degraded cached,
        SearchView.post Sample.isoPydantic Sample.iso Sample.asked (t.procs 0).pc =
          some (.ok 200 (SearchView.body Sample.iso offers degraded cached)) ∧
        SearchView.Sourced Sample.settings (fun _ => Sample.trip) (fun _ => Sample.lateOnce)
          (execSteps (SearchService.step Sample.settings) start Sample.retried) 0
          offers degraded cached := by
  intro start
  obtain ⟨offer, hoffer⟩ : ∃ offer, Duffel.mapOffers Sample.isoPydantic Sample.rawSearch =
      .ok [offer] := ⟨_, rfl⟩
  have hfound : FoundBy Sample.isoPydantic Sample.iso Sample.lateOnce Sample.trip 1 [offer] :=
    ⟨_, _, _, rfl, ⟨200, rfl, by decide⟩, hoffer, (List.mergeSort_singleton _).symm⟩
  have hlate : (AsyncDuffelProvider.awaited Sample.isoPydantic Sample.iso Sample.lateOnce
      Sample.trip).attempt 0 = .error .timeoutError := AsyncDuffelProvider.attempt_late rfl
  have hanswered := AsyncFlightProvider.attempt_eq_ok.mpr
    (AsyncDuffelProvider.search_eq_returns.mpr hfound)
  obtain ⟨t, ht, hdone⟩ : ∃ t, exec (SearchService.step Sample.settings) start Sample.retried =
      some t ∧ (t.procs 0).pc = .done (.ok ([offer], [], false)) := by
    simp [start, exec, Sample.retried, Sample.turn, SearchService.step, SearchService.start,
      System.step, RequestFrame.step, SearchWorld.get, RequestFrame.begin, SearchWorld.fanout,
      SearchAll.step, SearchFrame.step, SearchAll.ends, SearchAll.gather, Sample.settings,
      getAsyncProviders, WriteReply.stored, BreakerRegistry.getBreaker, BreakerRegistry.put,
      CircuitBreaker.state, CircuitBreaker.create, retryStep, hlate, hanswered, searchRetryOn,
      Fanout.leave, SearchPc.result?, merge, sortBy, List.finRange]
  have hbuild : ∀ _ : ℕ, buildCriteria Sample.isoPydantic Sample.asked = .ok Sample.trip :=
    fun _ => rfl
  obtain ⟨offers, degraded, cached, hpost, -, hsourced⟩ :=
    SearchView.post_answers Sample.isoPydantic_lawful (by exact fun _ _ _ => rfl) hbuild
      (Trace.of_exec ht) hdone
  exact ⟨t, offer, ht, hfound, offers, degraded, cached, hpost, hsourced⟩

end FlyDesk
