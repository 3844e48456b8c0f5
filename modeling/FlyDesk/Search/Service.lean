/-
FlyDesk/Search/Service.lean

The search endpoint as a whole.  Any number of requests are served at once.  Each reads
the cache, and if it misses fans out to its providers, task by task, and writes what it
has found.  They share Redis, where an entry lives for `ttl` seconds, the registry of
circuit breakers, and the clock; each fan-out has a semaphore of its own.

The parts are those of `Cache` and `AsyncService`: a request takes the step of
`cached_search`, and while it searches its tasks take the steps of `search_all`.  A
fan-out inside the service is a run of `search_all` to which the other requests are the
environment (`SearchService.backed_run`).
-/
import FlyDesk.Search.CacheLaw
import FlyDesk.Search.Degrade

namespace FlyDesk

open Lib

variable {n : ℕ}

/-! ### The state -/

/-- A text in Redis and the time it runs out. -/
structure CacheEntry where
  text : List Char
  expires : ℚ

/-- What the requests share. -/
structure SearchWorld where
  entries : String → Option CacheEntry
  breakers : BreakerRegistry
  clock : ℚ

/-- `GET`. -/
def SearchWorld.get (w : SearchWorld) (key : String) : Option (List Char) :=
  match w.entries key with
  | some e => if w.clock < e.expires then some e.text else none
  | none => none

/-- `SET key text EX ttl`. -/
def SearchWorld.set (w : SearchWorld) (key : String) (text : List Char) (ttl : ℕ) :
    SearchWorld :=
  { w with entries := Function.update w.entries key (some ⟨text, w.clock + ttl⟩) }

/-- Where a request is; a fan-out has its permits and its tasks. -/
inductive RequestPc (n : ℕ)
  | reading
  | searching (permits : ℕ) (tasks : Fin n → SearchFrame)
  | writing (offers : List Offer) (degraded : List String)
  | done (r : Except Exn (List Offer × List String × Bool))

/-- A request: its criteria, the providers as it meets them, and where it is. -/
structure RequestFrame (n : ℕ) where
  criteria : SearchCriteria
  providers : Fin n → AsyncFlightProvider
  pc : RequestPc n

/-- What a request does next: it reads, one of its tasks moves, `gather` returns, it
writes. -/
inductive RequestAct (n : ℕ)
  | get (redisError : Bool)
  | task (j : Fin n)
  | gather
  | set (reply : WriteReply)

/-- A fan-out of the request, as `search_all` sees it. -/
def SearchWorld.fanout (w : SearchWorld) (permits : ℕ) (tasks : Fin n → SearchFrame) :
    SearchAll n where
  shared := { permits := permits, breakers := w.breakers, clock := w.clock }
  procs := tasks

/-! ### The step -/

/-- The settings of the service, and what Python brings along. -/
structure SearchSettings where
  maxConcurrency : ℕ
  ttl : ℕ
  pydantic : Pydantic
  iso : IsoText
  sha1 : List Char → String

variable (S : SearchSettings)

/-- The tasks of a search that begins. -/
def RequestFrame.begin (f : RequestFrame n) : RequestPc n :=
  .searching S.maxConcurrency fun j => { provider := f.providers j, pc := .created }

/-- The key of a request. -/
def RequestFrame.key (f : RequestFrame n) : String := cacheKey S.iso S.sha1 f.criteria

/-- One step of a request. -/
def RequestFrame.step (w : SearchWorld) (f : RequestFrame n) (a : RequestAct n) :
    Option (SearchWorld × RequestFrame n) :=
  match f.pc, a with
  | .reading, .get redisError =>
    match (if redisError then none else w.get (f.key S)) with
    | none => some (w, { f with pc := f.begin S })
    | some hit =>
      if hit = [] then some (w, { f with pc := f.begin S })
      else some (w, { f with
        pc := .done ((loadOffers S.pydantic hit).map fun offers => (offers, [], true)) })
  | .searching permits tasks, .task j =>
    ((w.fanout permits tasks).step (.proc j ())).map fun s =>
      ({ w with breakers := s.shared.breakers },
        { f with pc := .searching s.shared.permits s.procs })
  | .searching permits tasks, .gather =>
    match (w.fanout permits tasks).ends with
    | none => none
    | some (.error e) => some (w, { f with pc := .done (.error e) })
    | some (.ok (offers, degraded)) =>
      if degraded = [] then some (w, { f with pc := .writing offers degraded })
      else some (w, { f with pc := .done (.ok (offers, degraded, false)) })
  | .writing offers degraded, .set reply =>
    some (if reply.stored then w.set (f.key S) (dumpOffers S.iso offers) S.ttl else w,
      { f with pc := .done (.ok (offers, degraded, false)) })
  | _, _ => none

/-- What happens meanwhile: time passes, and Redis drops an entry. -/
inductive SearchEvent
  | tick (d : ℚ)
  | evict (key : String)

def SearchWorld.meanwhile (w : SearchWorld) : SearchEvent → Option SearchWorld
  | .tick d => if 0 ≤ d then some { w with clock := w.clock + d } else none
  | .evict key => some { w with entries := Function.update w.entries key none }

/-- One step of a request, one case for each thing it can be. -/
inductive RequestFrame.Steps (w : SearchWorld) (f : RequestFrame n) :
    RequestAct n → SearchWorld → RequestPc n → Prop
  | miss {redisError} : f.pc = .reading → Steps w f (.get redisError) w (f.begin S)
  | hit {text} : f.pc = .reading → w.get (f.key S) = some text → text ≠ [] →
      Steps w f (.get false) w
        (.done ((loadOffers S.pydantic text).map fun offers => (offers, [], true)))
  | task {permits tasks j s} : f.pc = .searching permits tasks →
      (w.fanout permits tasks).step (.proc j ()) = some s →
      Steps w f (.task j) { w with breakers := s.shared.breakers }
        (.searching s.shared.permits s.procs)
  | raises {permits tasks e} : f.pc = .searching permits tasks →
      (w.fanout permits tasks).ends = some (.error e) → Steps w f .gather w (.done (.error e))
  | full {permits tasks offers} : f.pc = .searching permits tasks →
      (w.fanout permits tasks).ends = some (.ok (offers, [])) →
      Steps w f .gather w (.writing offers [])
  | partly {permits tasks offers degraded} : f.pc = .searching permits tasks →
      (w.fanout permits tasks).ends = some (.ok (offers, degraded)) → degraded ≠ [] →
      Steps w f .gather w (.done (.ok (offers, degraded, false)))
  | stored {offers degraded reply} : f.pc = .writing offers degraded → reply.stored = true →
      Steps w f (.set reply) (w.set (f.key S) (dumpOffers S.iso offers) S.ttl)
        (.done (.ok (offers, degraded, false)))
  | unstored {offers degraded reply} : f.pc = .writing offers degraded → reply.stored = false →
      Steps w f (.set reply) w (.done (.ok (offers, degraded, false)))

variable {S} {w w' : SearchWorld} {f f' : RequestFrame n} {a : RequestAct n}

/-- **Inversion of a step of a request.** -/
theorem RequestFrame.steps_of_step (h : f.step S w a = some (w', f')) :
    f'.criteria = f.criteria ∧ f'.providers = f.providers ∧
      RequestFrame.Steps S w f a w' f'.pc := by
  unfold RequestFrame.step at h
  split at h
  · -- reading
    rename_i redisError hpc
    split at h
    · obtain ⟨rfl, rfl⟩ := Prod.mk.inj (Option.some.inj h)
      exact ⟨rfl, rfl, .miss hpc⟩
    · rename_i hit hhit
      split_ifs at h with hempty
      · obtain ⟨rfl, rfl⟩ := Prod.mk.inj (Option.some.inj h)
        exact ⟨rfl, rfl, .miss hpc⟩
      · obtain ⟨rfl, rfl⟩ := Prod.mk.inj (Option.some.inj h)
        cases redisError with
        | true => cases hhit
        | false => exact ⟨rfl, rfl, .hit hpc hhit hempty⟩
  · -- a task
    rename_i hpc
    obtain ⟨s, hs, hr⟩ := Option.map_eq_some_iff.mp h
    obtain ⟨rfl, rfl⟩ := Prod.mk.inj hr
    exact ⟨rfl, rfl, .task hpc hs⟩
  · -- the results are there
    rename_i hpc
    split at h
    · cases h
    · rename_i he
      obtain ⟨rfl, rfl⟩ := Prod.mk.inj (Option.some.inj h)
      exact ⟨rfl, rfl, .raises hpc he⟩
    · rename_i hret
      split_ifs at h with hd
      · subst hd
        obtain ⟨rfl, rfl⟩ := Prod.mk.inj (Option.some.inj h)
        exact ⟨rfl, rfl, .full hpc hret⟩
      · obtain ⟨rfl, rfl⟩ := Prod.mk.inj (Option.some.inj h)
        exact ⟨rfl, rfl, .partly hpc hret hd⟩
  · -- writing
    rename_i reply hpc
    obtain ⟨rfl, rfl⟩ := Prod.mk.inj (Option.some.inj h)
    cases hreply : reply.stored with
    | true => exact ⟨rfl, rfl, .stored hpc hreply⟩
    | false => exact ⟨rfl, rfl, .unstored hpc hreply⟩
  · cases h

/-! ### Requests at once -/

/-- Any number of requests. -/
abbrev SearchService (ι : Type*) (n : ℕ) := System ι SearchWorld (RequestFrame n)

abbrev SearchServiceMove (ι : Type*) (n : ℕ) := Move ι (RequestAct n) SearchEvent

variable {ι : Type*} [DecidableEq ι]

def SearchService.step (S : SearchSettings) (s : SearchService ι n) (m : SearchServiceMove ι n) :
    Option (SearchService ι n) :=
  System.step (RequestFrame.step S) SearchWorld.meanwhile s m

/-- No request has begun, and nothing is cached. -/
def SearchService.start (criteria : ι → SearchCriteria)
    (providers : ι → Fin n → AsyncFlightProvider) (breakers : BreakerRegistry) (clock : ℚ) :
    SearchService ι n where
  shared := { entries := fun _ => none, breakers := breakers, clock := clock }
  procs i := { criteria := criteria i, providers := providers i, pc := .reading }

end FlyDesk
