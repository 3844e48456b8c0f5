/-
FlyDesk/Search/Cache.lean

`cached_search`: a search goes to Redis first, and to the providers if nothing
is there.  A call reads the key of its criteria; without an entry, or if the
read raises, it searches; what a search without degraded providers has found
is written, and a write that raises is forgotten.

A run is any interleaving of any number of calls.  A read or a write may raise
at any time, a write also after it was done, and entries go away at any time.
What the search of a call hands over, the results of the fan-out, is arbitrary
too; SHA-1 is a parameter.
-/
import FlyDesk.Domain.Serialization
import FlyDesk.Lib.Interleave
import FlyDesk.Search.AsyncService

namespace FlyDesk

open Lib

/-- The texts in Redis. -/
abbrev RedisStore := String → Option (List Char)

/-! ### Keys and texts -/

section Text

variable (P : Pydantic) (T : IsoText) (sha1 : List Char → String)

/-- `_cache_key`. -/
def cacheKey (criteria : SearchCriteria) : String :=
  "offers:" ++ sha1 (criteria.modelDumpJson T)

/-- `json.dumps([o.model_dump(mode="json") for o in offers])`. -/
def dumpOffers (offers : List Offer) : List Char :=
  jsonDumps (.list (Offer.json T) offers)

/-- What a loop over a JSON value goes through. -/
def iterate : Json → Except Exn (List Json)
  | .arr items => .ok items
  | .obj entries => .ok (entries.map fun e => .str e.1)
  | .str s => .ok (s.toList.map fun c => .str (String.singleton c))
  | .null | .bool _ | .num _ => .error .typeError

/-- `[Offer.model_validate(o) for o in json.loads(hit)]`. -/
def loadOffers (hit : List Char) : Except Exn (List Offer) :=
  match jsonLoads hit with
  | none => .error .valueError
  | some v => (iterate v).bind fun items => validated (items.mapM (Offer.modelValidate P))

end Text

/-! ### Calls -/

/-- Where a call of `cached_search` is. -/
inductive CachePc
  | reading
  | searching
  | writing (offers : List Offer) (degraded : List String)
  | done (r : Except Exn (List Offer × List String × Bool))

/-- A call: its criteria and where it is. -/
structure CacheFrame where
  criteria : SearchCriteria
  pc : CachePc

/-- How Redis answers a write.  `RedisError` says nothing about whether the
entry was stored. -/
inductive WriteReply
  | ok
  | redisError (stored : Bool)

def WriteReply.stored : WriteReply → Bool
  | .ok => true
  | .redisError stored => stored

/-- What a call does next, with the answer it gets: it reads, it searches and
is handed the results of the fan-out, it writes. -/
inductive CacheAct
  | get (redisError : Bool)
  | search (results : List (String × Except Exn (List Offer)))
  | set (reply : WriteReply)

section Step

variable (P : Pydantic) (T : IsoText) (sha1 : List Char → String)

/-- One step of `cached_search`. -/
def CacheFrame.step (w : RedisStore) (f : CacheFrame) (a : CacheAct) :
    Option (RedisStore × CacheFrame) :=
  let key := cacheKey T sha1 f.criteria
  match f.pc, a with
  | .reading, .get redisError =>
    match (if redisError then none else w key) with
    | none => some (w, { f with pc := .searching })
    | some hit =>
      -- an empty text is no hit
      if hit = [] then some (w, { f with pc := .searching })
      else some (w,
        { f with pc := .done ((loadOffers P hit).map fun offers => (offers, [], true)) })
  | .searching, .search results =>
    match merge [] [] results with
    | .error e => some (w, { f with pc := .done (.error e) })
    | .ok (offers, degraded) =>
      if degraded = [] then some (w, { f with pc := .writing offers degraded })
      else some (w, { f with pc := .done (.ok (offers, degraded, false)) })
  | .writing offers degraded, .set reply =>
    some (if reply.stored then Function.update w key (some (dumpOffers T offers)) else w,
      { f with pc := .done (.ok (offers, degraded, false)) })
  | _, _ => none

/-- What one step of a call can be. -/
inductive CacheFrame.Steps (w : RedisStore) (criteria : SearchCriteria) :
    CachePc → CacheAct → RedisStore → CachePc → Prop
  | miss {redisError} : Steps w criteria .reading (.get redisError) w .searching
  | hit {text} : w (cacheKey T sha1 criteria) = some text →
      Steps w criteria .reading (.get false) w
        (.done ((loadOffers P text).map fun offers => (offers, [], true)))
  | raises {results e} : merge [] [] results = .error e →
      Steps w criteria .searching (.search results) w (.done (.error e))
  | full {results offers} : merge [] [] results = .ok (offers, []) →
      Steps w criteria .searching (.search results) w (.writing offers [])
  | partly {results offers degraded} : merge [] [] results = .ok (offers, degraded) →
      Steps w criteria .searching (.search results) w (.done (.ok (offers, degraded, false)))
  | write {offers degraded reply} : Steps w criteria (.writing offers degraded) (.set reply)
      (if reply.stored then
        Function.update w (cacheKey T sha1 criteria) (some (dumpOffers T offers)) else w)
      (.done (.ok (offers, degraded, false)))

variable {P T sha1}

theorem CacheFrame.steps_of_step {w w' : RedisStore} {f f' : CacheFrame} {a : CacheAct}
    (h : f.step P T sha1 w a = some (w', f')) :
    f'.criteria = f.criteria ∧ CacheFrame.Steps P T sha1 w f.criteria f.pc a w' f'.pc := by
  obtain ⟨criteria, pc⟩ := f
  cases pc with
  | reading =>
      cases a with
      | get redisError =>
          simp only [CacheFrame.step] at h
          split at h
          · obtain ⟨rfl, rfl⟩ := Prod.mk.inj (Option.some.inj h)
            exact ⟨rfl, .miss⟩
          · rename_i text htext
            split_ifs at h
            · obtain ⟨rfl, rfl⟩ := Prod.mk.inj (Option.some.inj h)
              exact ⟨rfl, .miss⟩
            · obtain ⟨rfl, rfl⟩ := Prod.mk.inj (Option.some.inj h)
              cases redisError with
              | true => cases htext
              | false => exact ⟨rfl, .hit htext⟩
      | search results => cases h
      | set reply => cases h
  | searching =>
      cases a with
      | get redisError => cases h
      | search results =>
          simp only [CacheFrame.step] at h
          split at h
          · rename_i e he
            obtain ⟨rfl, rfl⟩ := Prod.mk.inj (Option.some.inj h)
            exact ⟨rfl, .raises he⟩
          · rename_i offers degraded hret
            split_ifs at h with hd
            · subst hd
              obtain ⟨rfl, rfl⟩ := Prod.mk.inj (Option.some.inj h)
              exact ⟨rfl, .full hret⟩
            · obtain ⟨rfl, rfl⟩ := Prod.mk.inj (Option.some.inj h)
              exact ⟨rfl, .partly hret⟩
      | set reply => cases h
  | writing offers degraded =>
      cases a with
      | get redisError => cases h
      | search results => cases h
      | set reply =>
          obtain ⟨rfl, rfl⟩ := Prod.mk.inj (Option.some.inj h)
          exact ⟨rfl, .write⟩
  | done r => cases a <;> cases h

end Step

/-! ### Runs -/

/-- What happens to Redis meanwhile: an entry goes away, or somebody else
writes under a key of another kind. -/
inductive RedisEvent
  | expire (key : String)
  | elsewhere (key : String) (text : Option (List Char))

def RedisStore.meanwhile (w : RedisStore) : RedisEvent → Option RedisStore
  | .expire key => some (Function.update w key none)
  | .elsewhere key text =>
    if "offers:".toList <+: key.toList then none else some (Function.update w key text)

/-- Calls of `cached_search` over one Redis. -/
abbrev CachedSearches (ι : Type) := System ι RedisStore CacheFrame

abbrev CacheMove (ι : Type) := Move ι CacheAct RedisEvent

variable {ι : Type} [DecidableEq ι]

def CachedSearches.step (P : Pydantic) (T : IsoText) (sha1 : List Char → String)
    (s : CachedSearches ι) (m : CacheMove ι) : Option (CachedSearches ι) :=
  System.step (CacheFrame.step P T sha1) RedisStore.meanwhile s m

/-- Nothing is in Redis, and no call has begun. -/
def CachedSearches.start (criteria : ι → SearchCriteria) : CachedSearches ι where
  shared := fun _ => none
  procs := fun i => { criteria := criteria i, pc := .reading }

end FlyDesk
