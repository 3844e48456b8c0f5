/-
FlyDesk/Search/AsyncService.lean

`search_all`: one search over any number of providers at once.  Every provider
has a task, `SearchFrame`; the tasks share the permits of a semaphore, the
registry of circuit breakers and the clock.  A task takes its breaker, waits
for a permit, is turned away if the circuit is open when its turn comes, and
otherwise calls the provider at most twice, each time under a deadline.

A run is any interleaving of the tasks, of time passing and of other searches
that use the same breakers.  When all tasks are done `gather` hands over what
each ended with, and `merge` makes the answer out of it.
-/
import FlyDesk.Common.Resilience
import FlyDesk.Domain.Models
import FlyDesk.Lib.DecimalValue
import FlyDesk.Lib.StableSort
import Mathlib.Data.List.FinRange

namespace FlyDesk

open Lib

/-! ### Providers -/

/-- How a call of a provider's `search` ends. -/
inductive SearchOutcome
  | returns (offers : List Offer)
  | raises (e : Exn)
  /-- Not before the deadline. -/
  | late

/-- A provider as one search meets it: how its first call ends, its second,
and so on. -/
structure AsyncFlightProvider where
  name : String
  search : ℕ → SearchOutcome

/-- `_attempt`: `asyncio.timeout` ends a late call with a `TimeoutError`. -/
def AsyncFlightProvider.attempt (p : AsyncFlightProvider) (i : ℕ) :
    Except Exn (List Offer) :=
  match p.search i with
  | .returns offers => .ok offers
  | .raises e => .error e
  | .late => .error .timeoutError

/-- `retry_on=(ProviderError, TimeoutError)`. -/
def searchRetryOn (e : Exn) : Bool := e.isProviderError || e == .timeoutError

/-! ### Tasks -/

/-- Where a task of `_search_one` is. -/
inductive SearchPc
  | created
  /-- It has its breaker and waits for the semaphore. -/
  | queued
  /-- Call `i` of the provider is awaited. -/
  | attempt (i : ℕ)
  /-- Call `i` failed, and the task sleeps. -/
  | sleeping (i : ℕ)
  | done (r : Except Exn (List Offer))

/-- A task: the provider it searches and where it is. -/
structure SearchFrame where
  provider : AsyncFlightProvider
  pc : SearchPc

/-- What the tasks share. -/
structure Fanout where
  permits : ℕ
  breakers : BreakerRegistry
  clock : ℚ

/-- `breaker.call` records how the guarded function ended; `except Exception`
does not see a cancellation. -/
def CircuitBreaker.record (b : CircuitBreaker) (now : ℚ) {T : Type} :
    Except Exn T → CircuitBreaker
  | .ok _ => b.onSuccess
  | .error e => if e.isException then b.onFailure now else b

/-- The task is over: its breaker is told, and its permit is free. -/
def Fanout.leave (w : Fanout) (name : String) (r : Except Exn (List Offer)) : Fanout where
  permits := w.permits + 1
  breakers := w.breakers.put name ((w.breakers.getBreaker name).record w.clock r)
  clock := w.clock

/-- One step of `_search_one`. -/
def SearchFrame.step (w : Fanout) (f : SearchFrame) (_ : Unit) : Option (Fanout × SearchFrame) :=
  let name := f.provider.name
  match f.pc with
  | .created =>
    -- before the semaphore: the breaker exists from here on
    some ({ w with breakers := w.breakers.put name (w.breakers.getBreaker name) },
      { f with pc := .queued })
  | .queued =>
    if w.permits = 0 then none
    else if (w.breakers.getBreaker name).state w.clock = .opened then
      -- the permit goes back at once
      some (w, { f with pc := .done (.error .circuitOpenError) })
    else some ({ w with permits := w.permits - 1 }, { f with pc := .attempt 0 })
  | .attempt i =>
    match retryStep 2 searchRetryOn i (f.provider.attempt i) with
    | .ends r => some (w.leave name r, { f with pc := .done r })
    | .again => some (w, { f with pc := .sleeping i })
  | .sleeping i => some (w, { f with pc := .attempt (i + 1) })
  | .done _ => none

/-- What happens meanwhile: time passes, and another search changes a
breaker. -/
inductive Meanwhile
  | tick (d : ℚ)
  | elsewhere (name : String) (b : CircuitBreaker)

def Fanout.meanwhile (w : Fanout) : Meanwhile → Option Fanout
  | .tick d => if 0 ≤ d then some { w with clock := w.clock + d } else none
  | .elsewhere name b => some { w with breakers := w.breakers.put name b }

/-- What one step of a task can be. -/
inductive SearchFrame.Steps (w : Fanout) (p : AsyncFlightProvider) :
    SearchPc → Fanout → SearchPc → Prop
  | enter : Steps w p .created
      { w with breakers := w.breakers.put p.name (w.breakers.getBreaker p.name) } .queued
  | away : w.permits ≠ 0 → (w.breakers.getBreaker p.name).state w.clock = .opened →
      Steps w p .queued w (.done (.error .circuitOpenError))
  | turn : w.permits ≠ 0 → (w.breakers.getBreaker p.name).state w.clock ≠ .opened →
      Steps w p .queued { w with permits := w.permits - 1 } (.attempt 0)
  | ends {i r} : retryStep 2 searchRetryOn i (p.attempt i) = .ends r →
      Steps w p (.attempt i) (w.leave p.name r) (.done r)
  | again {i} : retryStep 2 searchRetryOn i (p.attempt i) = .again →
      Steps w p (.attempt i) w (.sleeping i)
  | wake {i} : Steps w p (.sleeping i) w (.attempt (i + 1))

theorem SearchFrame.steps_of_step {w w' : Fanout} {f f' : SearchFrame} {a : Unit}
    (h : f.step w a = some (w', f')) :
    f'.provider = f.provider ∧ SearchFrame.Steps w f.provider f.pc w' f'.pc := by
  obtain ⟨p, pc⟩ := f
  cases pc with
  | created =>
      obtain ⟨rfl, rfl⟩ := Prod.mk.inj (Option.some.inj h)
      exact ⟨rfl, .enter⟩
  | queued =>
      simp only [SearchFrame.step] at h
      split_ifs at h with hpermits ho
      · obtain ⟨rfl, rfl⟩ := Prod.mk.inj (Option.some.inj h)
        exact ⟨rfl, .away hpermits ho⟩
      · obtain ⟨rfl, rfl⟩ := Prod.mk.inj (Option.some.inj h)
        exact ⟨rfl, .turn hpermits ho⟩
  | attempt i =>
      simp only [SearchFrame.step] at h
      split at h
      · rename_i r hr
        obtain ⟨rfl, rfl⟩ := Prod.mk.inj (Option.some.inj h)
        exact ⟨rfl, .ends hr⟩
      · rename_i hr
        obtain ⟨rfl, rfl⟩ := Prod.mk.inj (Option.some.inj h)
        exact ⟨rfl, .again hr⟩
  | sleeping i =>
      obtain ⟨rfl, rfl⟩ := Prod.mk.inj (Option.some.inj h)
      exact ⟨rfl, .wake⟩
  | done r => cases h

/-! ### The fan-out -/

/-- A search over `n` providers. -/
abbrev SearchAll (n : ℕ) := System (Fin n) Fanout SearchFrame

abbrev SearchMove (n : ℕ) := Move (Fin n) Unit Meanwhile

variable {n : ℕ}

def SearchAll.step (s : SearchAll n) (m : SearchMove n) : Option (SearchAll n) :=
  System.step SearchFrame.step Fanout.meanwhile s m

/-- The search has created its tasks, one for every provider in order. -/
def SearchAll.start (providers : Fin n → AsyncFlightProvider) (maxConcurrency : ℕ)
    (breakers : BreakerRegistry) (clock : ℚ) : SearchAll n where
  shared := { permits := maxConcurrency, breakers := breakers, clock := clock }
  procs := fun i => { provider := providers i, pc := .created }

/-- What a task ended with. -/
def SearchPc.result? : SearchPc → Option (Except Exn (List Offer))
  | .done r => some r
  | _ => none

/-- `asyncio.gather` with `return_exceptions=True`: when all tasks are done,
what they ended with, in the order of the providers. -/
def SearchAll.gather (s : SearchAll n) : Option (List (String × Except Exn (List Offer))) :=
  (List.finRange n).mapM fun i =>
    (s.procs i).pc.result?.map fun r => ((s.procs i).provider.name, r)

/-- The loop over the results.  What is no `Exception` is taken for a list of
offers, and `offers.extend` raises if it is none. -/
def merge (offers : List Offer) (degraded : List String) :
    List (String × Except Exn (List Offer)) → Except Exn (List Offer × List String)
  | [] => .ok (sortBy (fun o => o.total.amount.value) offers, degraded)
  | (name, .error e) :: results =>
    if e.isException then merge offers (degraded ++ [name]) results else .error .typeError
  | (_, .ok found) :: results => merge (offers ++ found) degraded results

/-- How `search_all` ends, once all tasks are done. -/
def SearchAll.ends (s : SearchAll n) : Option (Except Exn (List Offer × List String)) :=
  s.gather.map (merge [] [])

end FlyDesk
