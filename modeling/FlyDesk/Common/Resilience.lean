/-
FlyDesk/Common/Resilience.lean

The circuit breaker that guards the calls to a provider.  It counts failures;
from `failure_threshold` failures on it is open and turns callers away, after
`reset_timeout` it is half open and lets them probe, and a success closes it.

The third state is never stored: `CircuitBreaker.state` derives it from the
time of the last failure and the clock.

Any number of calls share one breaker.  Each is admitted at one time and
recorded at another, so a call is a process: `BreakerCall.step` has a step for
its start and one for each way the awaited function can end.

`retryStep` is one turn of the loop of `retry_async`.
-/
import FlyDesk.Common.Exceptions
import FlyDesk.Lib.Interleave
import Mathlib.Algebra.Order.Ring.Rat

namespace FlyDesk

open Lib

/-! ### The breaker -/

/-- The strings `state` returns: `closed`, `half_open` and `open`. -/
inductive CircuitState
  | closed
  | halfOpen
  | opened
deriving DecidableEq, Repr

/-- `CircuitBreaker`; times are seconds of the monotonic clock. -/
structure CircuitBreaker where
  failureThreshold : ℕ
  resetTimeout : ℚ
  failures : ℕ
  openedAt : Option ℚ
deriving DecidableEq, Repr

/-- `CircuitBreaker(failure_threshold=…, reset_timeout=…)`. -/
def CircuitBreaker.create (failureThreshold : ℕ) (resetTimeout : ℚ) : CircuitBreaker where
  failureThreshold := failureThreshold
  resetTimeout := resetTimeout
  failures := 0
  openedAt := none

def CircuitBreaker.state (b : CircuitBreaker) (now : ℚ) : CircuitState :=
  match b.openedAt with
  | none => .closed
  | some at_ => if b.resetTimeout ≤ now - at_ then .halfOpen else .opened

def CircuitBreaker.onSuccess (b : CircuitBreaker) : CircuitBreaker :=
  { b with failures := 0, openedAt := none }

def CircuitBreaker.onFailure (b : CircuitBreaker) (now : ℚ) : CircuitBreaker :=
  { b with
    failures := b.failures + 1
    openedAt := if b.failureThreshold ≤ b.failures + 1 then some now else b.openedAt }

variable {b : CircuitBreaker} {now : ℚ}

theorem CircuitBreaker.state_eq_opened :
    b.state now = .opened ↔ ∃ τ, b.openedAt = some τ ∧ now - τ < b.resetTimeout := by
  rcases e : b.openedAt with - | τ <;> simp [CircuitBreaker.state, e]

theorem CircuitBreaker.state_eq_closed : b.state now = .closed ↔ b.openedAt = none := by
  rcases e : b.openedAt with - | τ
  · simp [CircuitBreaker.state, e]
  · by_cases hc : b.resetTimeout ≤ now - τ <;> simp [CircuitBreaker.state, e, hc]

/-- A failure does not close an open breaker. -/
theorem CircuitBreaker.openedAt_onFailure (h : b.openedAt ≠ none) :
    (b.onFailure now).openedAt ≠ none := by
  show (if b.failureThreshold ≤ b.failures + 1 then some now else b.openedAt) ≠ none
  split
  · exact Option.some_ne_none now
  · exact h

/-- `_breakers`: the breakers by the name of their provider. -/
abbrev BreakerRegistry := String → Option CircuitBreaker

/-- `get_breaker`: a name without a breaker gets a new one. -/
def BreakerRegistry.getBreaker (r : BreakerRegistry) (name : String) : CircuitBreaker :=
  (r name).getD (.create 3 30)

/-- The registry with this breaker under a name. -/
def BreakerRegistry.put (r : BreakerRegistry) (name : String) (b : CircuitBreaker) :
    BreakerRegistry :=
  Function.update r name (some b)

@[simp] theorem BreakerRegistry.getBreaker_put (r : BreakerRegistry) (name : String)
    (b : CircuitBreaker) : (r.put name b).getBreaker name = b := by
  simp [getBreaker, put]

theorem BreakerRegistry.getBreaker_put_of_ne {r : BreakerRegistry} {name other : String}
    (h : other ≠ name) : (r.put name b).getBreaker other = r.getBreaker other := by
  simp [getBreaker, put, h]

/-! ### Retries -/

/-- What the loop of `retry_async` does after an invocation: it is over, or it
sleeps and invokes the function again. -/
inductive RetryStep (T : Type)
  | ends (r : Except Exn T)
  | again

/-- `retry_async` when invocation `i` has ended. -/
def retryStep {T : Type} (attempts : ℕ) (retryOn : Exn → Bool) (i : ℕ) :
    Except Exn T → RetryStep T
  | .ok x => .ends (.ok x)
  | .error e =>
    if retryOn e then
      if i + 1 = attempts then .ends (.error e) else .again
    else .ends (.error e)

variable {T : Type} {attempts i : ℕ} {retryOn : Exn → Bool} {r r' : Except Exn T}

theorem retryStep_eq_again : retryStep attempts retryOn i r = .again ↔
    (∃ e, r = .error e ∧ retryOn e = true) ∧ i + 1 ≠ attempts := by
  rcases r with e | x
  · by_cases he : retryOn e <;> by_cases hi : i + 1 = attempts <;> simp [retryStep, he, hi]
  · simp [retryStep]

theorem retryStep_eq_ends : retryStep attempts retryOn i r = .ends r' ↔
    r = r' ∧ ¬ ((∃ e, r = .error e ∧ retryOn e = true) ∧ i + 1 ≠ attempts) := by
  rcases r with e | x
  · by_cases he : retryOn e <;> by_cases hi : i + 1 = attempts <;> simp [retryStep, he, hi]
  · simp [retryStep]

/-! ### Calls -/

/-- Where a `CircuitBreaker.call` is. -/
inductive BreakerCall
  | idle
  | running
  | returned
  | raised
  /-- `CircuitOpenError`, the function not invoked. -/
  | rejected
  | cancelled
deriving DecidableEq, Repr

/-- What a call can do next: it starts, or the function it awaits returns,
raises an `Exception`, or is cancelled. -/
inductive BreakerAction
  | start
  | succeed
  | fail
  | cancel
deriving DecidableEq, Repr

/-- What the calls share: the breaker and the clock. -/
structure Guarded where
  breaker : CircuitBreaker
  clock : ℚ

/-- One step of `CircuitBreaker.call`.  A cancellation is not an `Exception`,
so the `except` clause does not see it. -/
def BreakerCall.step (w : Guarded) : BreakerCall → BreakerAction →
    Option (Guarded × BreakerCall)
  | .idle, .start =>
    if w.breaker.state w.clock = .opened then some (w, .rejected) else some (w, .running)
  | .running, .succeed => some ({ w with breaker := w.breaker.onSuccess }, .returned)
  | .running, .fail => some ({ w with breaker := w.breaker.onFailure w.clock }, .raised)
  | .running, .cancel => some (w, .cancelled)
  | _, _ => none

/-- The clock advances. -/
def Guarded.tick (w : Guarded) (d : ℚ) : Option Guarded :=
  if 0 ≤ d then some { w with clock := w.clock + d } else none

/-- What one step of a call can be, whatever it does to the breaker. -/
inductive BreakerCall.Steps (w : Guarded) : BreakerCall → BreakerAction → Guarded →
    BreakerCall → Prop
  | reject : w.breaker.state w.clock = .opened → Steps w .idle .start w .rejected
  | letIn : w.breaker.state w.clock ≠ .opened → Steps w .idle .start w .running
  | succeed :
      Steps w .running .succeed { w with breaker := w.breaker.onSuccess } .returned
  | fail : Steps w .running .fail { w with breaker := w.breaker.onFailure w.clock } .raised
  | cancel : Steps w .running .cancel w .cancelled

theorem BreakerCall.steps_of_step {w w' : Guarded} {c c' : BreakerCall} {a : BreakerAction}
    (h : c.step w a = some (w', c')) : BreakerCall.Steps w c a w' c' := by
  cases c <;> cases a <;> simp only [BreakerCall.step, reduceCtorEq] at h
  case idle.start =>
    split at h <;> obtain ⟨rfl, rfl⟩ := Prod.mk.inj (Option.some.inj h)
    · rename_i ho
      exact .reject ho
    · rename_i ho
      exact .letIn ho
  case running.succeed =>
    obtain ⟨rfl, rfl⟩ := Prod.mk.inj (Option.some.inj h)
    exact .succeed
  case running.fail =>
    obtain ⟨rfl, rfl⟩ := Prod.mk.inj (Option.some.inj h)
    exact .fail
  case running.cancel =>
    obtain ⟨rfl, rfl⟩ := Prod.mk.inj (Option.some.inj h)
    exact .cancel

/-- Any number of calls on one breaker. -/
abbrev Breakers (ι : Type*) := System ι Guarded BreakerCall

/-- A call moves, or the clock does. -/
abbrev BreakerMove (ι : Type*) := Move ι BreakerAction ℚ

variable {ι : Type*} [DecidableEq ι]

/-- One move: calls overlap in any way. -/
def Breakers.step (s : Breakers ι) (m : BreakerMove ι) : Option (Breakers ι) :=
  System.step BreakerCall.step Guarded.tick s m

/-- A new breaker and calls that have not started. -/
def Breakers.new (failureThreshold : ℕ) (resetTimeout clock : ℚ) : Breakers ι where
  shared := { breaker := .create failureThreshold resetTimeout, clock := clock }
  procs := fun _ => .idle

end FlyDesk
