/-
FlyDesk/Bookings/Saga.lean

The saga coordinator and the booking saga built on it.

An action or a compensation changes the context it is given and whatever lies
outside of it, and returns or raises; what it has changed before raising
stays.  So a step is a pair of state transformers over a state `σ`, and a run
starts from a context and a world.  `Saga.run` records the callables it calls
by the position of their step.

`Saga.run_trace` is the law of the coordinator for any list of steps: the
calls it makes, what it returns or raises, and the state those calls leave.
`BookingSaga.allOrNothing` is about the three steps of a booking.  The
services are state transformers of a world of their own, and a run is judged
by what it has done to that world: `Carried services w calls w'` says that
the calls, answered one after the other by the services, lead from `w` to
`w'`.  The compensations find what to undo in the context, where an earlier
run may have left an order and a payment of its own.
-/
import FlyDesk.Lib.DocStore
import FlyDesk.Domain.Models
import FlyDesk.Common.Exceptions
import Mathlib.Data.List.Basic

namespace FlyDesk

open Lib

/-! ### The coordinator -/

/-- What a callable leaves: the state, and the exception if it raised. -/
structure Outcome (σ ε : Type*) where
  state : σ
  raised : Option ε

structure SagaStep (σ ε : Type*) where
  name : String
  action : σ → Outcome σ ε
  compensation : Option (σ → Outcome σ ε)

/-- `SagaError`. -/
structure SagaError (ε : Type*) where
  step : String
  original : ε

structure Saga (σ ε : Type*) where
  steps : List (SagaStep σ ε)

/-- A call of the action or of the compensation of the step at a position. -/
inductive SagaCall
  | action (position : ℕ)
  | compensation (position : ℕ)
deriving DecidableEq, Repr

/-- A finished run: what it returned or raised, the state it left and the
calls it made. -/
structure SagaRun (σ ε : Type*) where
  result : Except (SagaError ε) σ
  state : σ
  calls : List SagaCall

variable {σ ε : Type*}

namespace Saga

/-- The loop of `_compensate`, over the completed steps from the last one;
an exception is logged and the loop goes on. -/
def compensate (s : σ) (calls : List SagaCall) :
    List (SagaStep σ ε × ℕ) → σ × List SagaCall
  | [] => (s, calls)
  | (step, position) :: steps =>
    match step.compensation with
    | none => compensate s calls steps
    | some compensation =>
      compensate (compensation s).state (calls ++ [.compensation position]) steps

/-- The loop of `run`; every completed step stands with its position. -/
def loop (completed : List (SagaStep σ ε × ℕ)) (s : σ) (calls : List SagaCall) :
    List (SagaStep σ ε) → SagaRun σ ε
  | [] => { result := .ok s, state := s, calls }
  | step :: steps =>
    let outcome := step.action s
    let calls := calls ++ [.action completed.length]
    match outcome.raised with
    -- `except Exception`: compensate what is completed, then raise `SagaError`
    | some exc =>
      let (state, calls) := compensate outcome.state calls completed.reverse
      { result := .error { step := step.name, original := exc }, state, calls }
    -- `completed.append(step)`
    | none => loop (completed ++ [(step, completed.length)]) outcome.state calls steps

/-- `Saga.run`; `world` is what the callables find outside of the context. -/
def run {γ ω : Type*} [EmptyCollection γ] (saga : Saga (γ × ω) ε) (context : Option γ)
    (world : ω) : SagaRun (γ × ω) ε :=
  loop [] (context.getD ∅, world) [] saga.steps

/-! ### The trace law -/

/-- The state after the first `k` actions. -/
def stateAt (steps : List (SagaStep σ ε)) (s : σ) (k : ℕ) : σ :=
  (steps.take k).foldl (fun s step => (step.action s).state) s

/-- What action `k` raises when it is called after the first `k`. -/
def raisedAt (steps : List (SagaStep σ ε)) (s : σ) (k : ℕ) : Option ε :=
  steps[k]?.bind fun step => (step.action (stateAt steps s k)).raised

def compensationAt (steps : List (SagaStep σ ε)) (k : ℕ) : Option (σ → Outcome σ ε) :=
  steps[k]?.bind SagaStep.compensation

/-- The state after the compensations there are before `k`, called in reverse
from `s` on, whichever of them raise. -/
def undoneAt (steps : List (SagaStep σ ε)) (s : σ) (k : ℕ) : σ :=
  ((List.range k).reverse.filterMap (compensationAt steps)).foldl
    (fun s compensation => (compensation s).state) s

/-- What a run of `steps` from `s` does.  Either action `k` is the first to
raise, and the run calls the actions up to `k`, then the compensations there
are before `k` in reverse, on the state action `k` left; or none raises, and
it calls all actions. -/
inductive TraceLaw (steps : List (SagaStep σ ε)) (s : σ) (r : SagaRun σ ε) : Prop
  | failed {k step exc} : steps[k]? = some step → raisedAt steps s k = some exc →
      (∀ j < k, raisedAt steps s j = none) →
      r.result = .error { step := step.name, original := exc } →
      r.state = undoneAt steps (stateAt steps s (k + 1)) k →
      r.calls = (List.range (k + 1)).map .action ++
        ((List.range k).reverse.filter fun j => (compensationAt steps j).isSome).map
          .compensation →
      TraceLaw steps s r
  | completed : (∀ j < steps.length, raisedAt steps s j = none) →
      r.result = .ok (stateAt steps s steps.length) →
      r.state = stateAt steps s steps.length →
      r.calls = (List.range steps.length).map .action → TraceLaw steps s r

/-- `_compensate` calls every compensation there is, each on the state the one
before left. -/
theorem compensate_eq (s : σ) (calls : List SagaCall) (steps : List (SagaStep σ ε × ℕ)) :
    compensate s calls steps =
      ((steps.filterMap fun p => p.1.compensation).foldl
        (fun s compensation => (compensation s).state) s,
       calls ++ (steps.filter fun p => p.1.compensation.isSome).map
        fun p => .compensation p.2) := by
  induction steps generalizing s calls with
  | nil => simp [compensate]
  | cons p steps ih =>
      obtain ⟨step, position⟩ := p
      rcases hc : step.compensation with - | compensation
      · -- nothing to call for this step
        simp [compensate, hc, ih]
      · simp [compensate, hc, ih]

/-- The compensation at the position of a step in front is that step's. -/
theorem compensationAt_of_mem {steps : List (SagaStep σ ε)} (rest : List (SagaStep σ ε))
    {p : SagaStep σ ε × ℕ} (hp : p ∈ steps.zipIdx) :
    compensationAt (steps ++ rest) p.2 = p.1.compensation := by
  have hget : steps[p.2]? = some p.1 := List.mem_zipIdx_iff_getElem?.mp hp
  have hlt : p.2 < steps.length := (List.getElem?_eq_some_iff.mp hget).1
  rw [compensationAt, List.getElem?_append_left hlt, hget]
  rfl

/-- The positions of the steps that have a compensation. -/
theorem filter_zipIdx (steps rest : List (SagaStep σ ε)) :
    ((steps.zipIdx.filter fun p => p.1.compensation.isSome).map fun p => p.2) =
      (List.range steps.length).filter
        fun j => (compensationAt (steps ++ rest) j).isSome := by
  have hpos : ∀ p ∈ steps.zipIdx,
      p.1.compensation.isSome = (compensationAt (steps ++ rest) p.2).isSome :=
    fun p hp => by rw [compensationAt_of_mem rest hp]
  rw [List.filter_congr hpos, List.range_eq_range', ← List.zipIdx_map_snd 0 steps,
    List.filter_map]
  rfl

/-- The compensations of the steps, by their positions. -/
theorem filterMap_zipIdx (steps rest : List (SagaStep σ ε)) :
    (steps.zipIdx.filterMap fun p => p.1.compensation) =
      (List.range steps.length).filterMap (compensationAt (steps ++ rest)) := by
  have hpos : ∀ p ∈ steps.zipIdx,
      p.1.compensation = compensationAt (steps ++ rest) p.2 :=
    fun p hp => (compensationAt_of_mem rest hp).symm
  rw [List.filterMap_congr hpos, List.range_eq_range', ← List.zipIdx_map_snd 0 steps,
    List.filterMap_map]
  rfl

/-- `_compensate` calls the compensations of the steps in `done` in reverse. -/
theorem compensate_reverse (s : σ) (calls : List SagaCall)
    (done rest : List (SagaStep σ ε)) :
    compensate s calls done.zipIdx.reverse =
      (undoneAt (done ++ rest) s done.length,
       calls ++ ((List.range done.length).reverse.filter
        fun j => (compensationAt (done ++ rest) j).isSome).map .compensation) := by
  rw [compensate_eq, undoneAt, List.filterMap_reverse, List.filterMap_reverse,
    ← filterMap_zipIdx done rest, List.filter_reverse, List.filter_reverse,
    ← filter_zipIdx done rest, ← List.map_reverse, List.map_map]
  rfl

theorem stateAt_succ {steps : List (SagaStep σ ε)} {k : ℕ} {step : SagaStep σ ε}
    (s : σ) (h : steps[k]? = some step) :
    stateAt steps s (k + 1) = (step.action (stateAt steps s k)).state := by
  simp [stateAt, List.take_add_one, h]

/-- The loop with the steps in `done` behind it, none of which raised. -/
theorem loop_traceLaw (s : σ) (rest done : List (SagaStep σ ε))
    (hdone : ∀ j < done.length, raisedAt (done ++ rest) s j = none) :
    TraceLaw (done ++ rest) s
      (loop done.zipIdx (stateAt (done ++ rest) s done.length)
        ((List.range done.length).map .action) rest) := by
  -- on the steps still to run; those behind the loop move over one by one
  induction rest generalizing done with
  | nil =>
      rw [List.append_nil] at hdone ⊢
      exact .completed hdone rfl rfl rfl
  | cons step rest ih =>
      -- the step at hand is at position `done.length` of the whole list
      have hget : (done ++ step :: rest)[done.length]? = some step := by simp
      have hcalls : (List.range done.length).map SagaCall.action ++ [.action done.length]
          = (List.range (done.length + 1)).map .action := by
        simp [List.range_succ]
      have hraised : raisedAt (done ++ step :: rest) s done.length
          = (step.action (stateAt (done ++ step :: rest) s done.length)).raised := by
        rw [raisedAt, hget]
        rfl
      rcases hr : (step.action (stateAt (done ++ step :: rest) s done.length)).raised
        with - | exc
      · -- the action returns: the step joins the completed ones
        rw [hr] at hraised
        have hdone' : ∀ j < (done ++ [step]).length,
            raisedAt ((done ++ [step]) ++ rest) s j = none := by
          intro j hj
          rw [List.append_assoc, List.singleton_append]
          rcases Nat.lt_succ_iff_lt_or_eq.mp (by simpa using hj) with hlt | rfl
          · exact hdone j hlt
          · exact hraised
        have h := ih (done ++ [step]) hdone'
        rw [List.append_assoc, List.singleton_append, List.length_append,
          List.length_singleton, stateAt_succ s hget, List.zipIdx_append] at h
        simpa [loop, hr, hcalls] using h
      · -- the action raises: compensate and raise
        rw [hr] at hraised
        refine .failed hget hraised hdone ?_ ?_ ?_
        · simp [loop, hr]
        · simp [loop, hr, compensate_reverse _ _ done (step :: rest), stateAt_succ s hget]
        · simp [loop, hr, compensate_reverse _ _ done (step :: rest), hcalls]

/-- **Trace law of the coordinator.** -/
theorem run_trace {γ ω : Type*} [EmptyCollection γ] (saga : Saga (γ × ω) ε)
    (context : Option γ) (world : ω) :
    TraceLaw saga.steps (context.getD ∅, world) (saga.run context world) := by
  have h := loop_traceLaw (context.getD ∅, world) saga.steps [] (by simp)
  simpa [run, stateAt] using h

/-- An action or a compensation that writes a line into the context. -/
def writes (line : String) (raised : Option String) (s : List String × Unit) :
    Outcome (List String × Unit) String :=
  { state := (s.1 ++ [line], ()), raised }

/-- Three steps of which the last raises; the compensation of the second
raises too, after its line is written. -/
def brokenSaga : Saga (List String × Unit) String where
  steps :=
    [{ name := "a", action := writes "do a" none, compensation := some (writes "undo a" none) },
     { name := "b"
       action := writes "do b" none
       compensation := some (writes "undo b" (some "cannot undo b")) },
     { name := "c"
       action := writes "do c" (some "boom")
       compensation := some (writes "undo c" none) }]

/-- The law at the broken saga, with the context it leaves. -/
theorem run_trace_brokenSaga :
    TraceLaw brokenSaga.steps ([], ()) (brokenSaga.run none ()) ∧
      (brokenSaga.run none ()).state.1 = ["do a", "do b", "do c", "undo b", "undo a"] :=
  ⟨run_trace brokenSaga none (), rfl⟩

end Saga

/-! ### The booking saga -/

/-- What `except Exception` catches. -/
abbrev Caught := { exc : Exn // exc.isException = true }

def Caught.keyError : Caught := ⟨.keyError, rfl⟩

def Caught.attributeError : Caught := ⟨.attributeError, rfl⟩

/-- The entries of the context the booking saga reads and writes.  `order`
and `payment_id` may be there from an earlier run, also as `None`. -/
structure BookingContext where
  offerId : Option String
  passengers : Option (List BookingPassenger)
  order : DocField Order
  paymentId : DocField String

/-- The reservation service, the payment gateway and the ticketing service,
in a world `ω` that holds their states: for each method what it returns or
raises, and the world it leaves. -/
structure BookingServices (ω : Type*) where
  reserve : String → List BookingPassenger → ω → Except Caught Order × ω
  void : String → ω → Except Caught Unit × ω
  charge : Money → String → ω → Except Caught String × ω
  refund : String → ω → Except Caught Unit × ω
  issue : Order → ω → Except Caught Order × ω

instance : EmptyCollection BookingContext where
  emptyCollection :=
    { offerId := none, passengers := none, order := .missing, paymentId := .missing }

/-- The exception a call raised, if it raised. -/
def raised {α : Type} : Except Caught α → Option Caught
  | .ok _ => none
  | .error exc => some exc

namespace BookingSaga

variable {ω : Type*} (services : BookingServices ω)

/-- `_reserve`. -/
def reserve (s : BookingContext × ω) : Outcome (BookingContext × ω) Caught :=
  match s.1.offerId, s.1.passengers with
  | some offerId, some passengers =>
    match services.reserve offerId passengers s.2 with
    | (.ok order, world) =>
      { state := ({ s.1 with order := .val order }, world), raised := none }
    | (.error exc, world) => { state := (s.1, world), raised := some exc }
  | _, _ => { state := s, raised := some Caught.keyError }

/-- `_void`. -/
def void (s : BookingContext × ω) : Outcome (BookingContext × ω) Caught :=
  match s.1.order.toOption with
  | some order =>
    let (result, world) := services.void order.providerOrderId s.2
    { state := (s.1, world), raised := raised result }
  | none => { state := s, raised := none }

/-- `_pay`. -/
def pay (s : BookingContext × ω) : Outcome (BookingContext × ω) Caught :=
  match s.1.order with
  | .missing => { state := s, raised := some Caught.keyError }
  | .null => { state := s, raised := some Caught.attributeError }
  | .val order =>
    match services.charge order.total order.id s.2 with
    | (.ok paymentId, world) =>
      { state := ({ s.1 with paymentId := .val paymentId }, world), raised := none }
    | (.error exc, world) => { state := (s.1, world), raised := some exc }

/-- `_refund`. -/
def refund (s : BookingContext × ω) : Outcome (BookingContext × ω) Caught :=
  match s.1.paymentId.toOption with
  | some paymentId =>
    let (result, world) := services.refund paymentId s.2
    { state := (s.1, world), raised := raised result }
  | none => { state := s, raised := none }

/-- `_ticket`.  It follows `_reserve`, so the order is not `None` here. -/
def ticket (s : BookingContext × ω) : Outcome (BookingContext × ω) Caught :=
  match s.1.order with
  | .missing => { state := s, raised := some Caught.keyError }
  | .null => { state := s, raised := some Caught.attributeError }
  | .val order =>
    match services.issue order s.2 with
    | (.ok issued, world) =>
      { state := ({ s.1 with order := .val issued }, world), raised := none }
    | (.error exc, world) => { state := (s.1, world), raised := some exc }

end BookingSaga

/-- `build_booking_saga`. -/
def buildBookingSaga {ω : Type*} (services : BookingServices ω) :
    Saga (BookingContext × ω) Caught where
  steps :=
    [{ name := "reserve"
       action := BookingSaga.reserve services
       compensation := some (BookingSaga.void services) },
     { name := "pay"
       action := BookingSaga.pay services
       compensation := some (BookingSaga.refund services) },
     { name := "ticket"
       action := BookingSaga.ticket services
       compensation := none }]

/-! ### What a run does to the services -/

/-- A call of a service, with what it returned or raised. -/
inductive ServiceCall
  | reserve (offerId : String) (passengers : List BookingPassenger)
      (result : Except Caught Order)
  | void (providerOrderId : String) (result : Except Caught Unit)
  | charge (amount : Money) (reference : String) (result : Except Caught String)
  | refund (paymentId : String) (result : Except Caught Unit)
  | issue (order : Order) (result : Except Caught Order)

/-- A call that undoes something. -/
inductive Undo
  | refund (paymentId : String)
  | void (providerOrderId : String)
deriving DecidableEq, Repr

namespace ServiceCall

/-- In the world `w` the services answer the call as it says, and leave `w'`. -/
inductive Answered {ω : Type*} (services : BookingServices ω) (w : ω) :
    ServiceCall → ω → Prop
  | reserve {offerId passengers result w'} :
      services.reserve offerId passengers w = (result, w') →
      Answered services w (.reserve offerId passengers result) w'
  | void {providerOrderId result w'} : services.void providerOrderId w = (result, w') →
      Answered services w (.void providerOrderId result) w'
  | charge {amount reference result w'} :
      services.charge amount reference w = (result, w') →
      Answered services w (.charge amount reference result) w'
  | refund {paymentId result w'} : services.refund paymentId w = (result, w') →
      Answered services w (.refund paymentId result) w'
  | issue {order result w'} : services.issue order w = (result, w') →
      Answered services w (.issue order result) w'

/-- The order a call reserved. -/
def reserved? : ServiceCall → Option Order
  | .reserve _ _ (.ok order) => some order
  | _ => none

/-- The amount, the reference and the payment id of a charge. -/
def charged? : ServiceCall → Option (Money × String × String)
  | .charge amount reference (.ok paymentId) => some (amount, reference, paymentId)
  | _ => none

/-- The order a ticket was issued for, and the ticketed order. -/
def issued? : ServiceCall → Option (Order × Order)
  | .issue order (.ok issued) => some (order, issued)
  | _ => none

/-- The undoing a call asks for, whether or not it raises. -/
def undo? : ServiceCall → Option Undo
  | .refund paymentId _ => some (.refund paymentId)
  | .void providerOrderId _ => some (.void providerOrderId)
  | _ => none

/-- The undoing a call has done. -/
def undone? : ServiceCall → Option Undo
  | .refund paymentId (.ok ()) => some (.refund paymentId)
  | .void providerOrderId (.ok ()) => some (.void providerOrderId)
  | _ => none

end ServiceCall

/-- The services, called from the world `w` on, answer the calls as they say
and leave `w'`. -/
inductive Carried {ω : Type*} (services : BookingServices ω) (w : ω) :
    List ServiceCall → ω → Prop
  | nil : Carried services w [] w
  | snoc {calls call w₁ w₂} : Carried services w calls w₁ →
      call.Answered services w₁ w₂ → Carried services w (calls ++ [call]) w₂

/-- All or nothing, for a run that ended in `result` and made the calls.  What
the calls reserved, charged and issued, and what they undid, are lists, so a
list equation says how often each took place.  A returned run has booked once
and undone nothing, and its context holds the ticket and the payment.  A
failed run has issued no ticket, refunds the charge it made and then voids
the reservation it made; if no undoing raises, nothing of it is left
standing. -/
inductive BookingSaga.AllOrNothing {ω : Type*} (calls : List ServiceCall) :
    Except (SagaError Caught) (BookingContext × ω) → Prop
  | returned {ctx world order paymentId issued} :
      ctx.order = .val issued → ctx.paymentId = .val paymentId →
      calls.filterMap ServiceCall.reserved? = [order] →
      calls.filterMap ServiceCall.charged? = [(order.total, order.id, paymentId)] →
      calls.filterMap ServiceCall.issued? = [(order, issued)] →
      calls.filterMap ServiceCall.undo? = [] → AllOrNothing calls (.ok (ctx, world))
  | failed {e reserved charged} :
      calls.filterMap ServiceCall.issued? = [] →
      calls.filterMap ServiceCall.reserved? = Option.toList reserved →
      calls.filterMap ServiceCall.charged? = Option.toList charged →
      calls.filterMap ServiceCall.undo? =
        (Option.toList charged).map (fun c => .refund c.2.2) ++
          (Option.toList reserved).map (fun order => .void order.providerOrderId) →
      (calls.filterMap ServiceCall.undone? = calls.filterMap ServiceCall.undo? →
        (∀ c ∈ charged, .refund c.2.2 ∈ calls.filterMap ServiceCall.undone?) ∧
          ∀ order ∈ reserved,
            .void order.providerOrderId ∈ calls.filterMap ServiceCall.undone?) →
      AllOrNothing calls (.error e)

/-- What the calls reserve is what the context asks for. -/
def BookingSaga.AsAsked (context : BookingContext) (calls : List ServiceCall) : Prop :=
  ∀ offerId passengers result, .reserve offerId passengers result ∈ calls →
    context.offerId = some offerId ∧ context.passengers = some passengers

namespace BookingSaga

variable {ω : Type*}

theorem AsAsked.snoc {context : BookingContext} {calls : List ServiceCall} {call : ServiceCall}
    (h : AsAsked context calls)
    (hcall : ∀ offerId passengers result, call ≠ .reserve offerId passengers result) :
    AsAsked context (calls ++ [call]) := by
  intro offerId passengers result hmem
  rcases List.mem_append.mp hmem with hmem | hmem
  · exact h _ _ _ hmem
  · exact absurd (List.mem_singleton.mp hmem).symm (hcall _ _ _)

/-- A failed run undoes exactly what it did: the last part of the law follows
from the others. -/
theorem AllOrNothing.of_undo {calls : List ServiceCall} {e : SagaError Caught}
    (reserved : Option Order) (charged : Option (Money × String × String))
    (hissued : calls.filterMap ServiceCall.issued? = [])
    (hreserved : calls.filterMap ServiceCall.reserved? = reserved.toList)
    (hcharged : calls.filterMap ServiceCall.charged? = charged.toList)
    (hundo : calls.filterMap ServiceCall.undo? =
      charged.toList.map (fun c => Undo.refund c.2.2) ++
        reserved.toList.map (fun order => Undo.void order.providerOrderId)) :
    AllOrNothing (ω := ω) calls (.error e) := by
  refine .failed hissued hreserved hcharged hundo fun hall => ?_
  rw [hall, hundo]
  refine ⟨fun c hc => ?_, fun order ho => ?_⟩
  · obtain rfl := Option.mem_def.mp hc
    simp
  · obtain rfl := Option.mem_def.mp ho
    simp

variable (services : BookingServices ω)

/-- `_reserve` either raises and has reserved nothing, or leaves the order of
this run in the context, whatever was there before. -/
theorem reserve_cases (s : BookingContext × ω) :
    (∃ exc s' calls, reserve services s = { state := s', raised := some exc } ∧
      Carried services s.2 calls s'.2 ∧ AsAsked s.1 calls ∧ (calls = [] ∨
        ∃ offerId passengers, calls = [.reserve offerId passengers (.error exc)])) ∨
    ∃ offerId passengers order s', reserve services s = { state := s', raised := none } ∧
      s'.1.order = .val order ∧
      Carried services s.2 [.reserve offerId passengers (.ok order)] s'.2 ∧
      AsAsked s.1 [.reserve offerId passengers (.ok order)] := by
  unfold reserve
  split
  · rename_i offerId passengers hoffer hpassengers
    have hasked : ∀ result, AsAsked s.1 [.reserve offerId passengers result] := by
      intro result offerId' passengers' result' hmem
      obtain ⟨rfl, rfl, rfl⟩ := ServiceCall.reserve.inj (List.mem_singleton.mp hmem)
      exact ⟨hoffer, hpassengers⟩
    rcases e : services.reserve offerId passengers s.2 with ⟨exc | order, w⟩
    · exact Or.inl ⟨exc, _, _, rfl, .snoc .nil (.reserve e), hasked _,
        Or.inr ⟨offerId, passengers, rfl⟩⟩
    · exact Or.inr ⟨offerId, passengers, order, _, rfl, rfl, .snoc .nil (.reserve e),
        hasked _⟩
  · refine Or.inl ⟨Caught.keyError, s, [], rfl, .nil, fun _ _ _ hmem => ?_, Or.inl rfl⟩
    cases hmem

/-- `_pay` charges the order in the context. -/
theorem pay_cases {s : BookingContext × ω} {order : Order} (h : s.1.order = .val order) :
    (∃ exc s', pay services s = { state := s', raised := some exc } ∧
      s'.1.order = .val order ∧
      ServiceCall.Answered services s.2 (.charge order.total order.id (.error exc)) s'.2) ∨
    ∃ paymentId s', pay services s = { state := s', raised := none } ∧
      s'.1.order = .val order ∧ s'.1.paymentId = .val paymentId ∧
      ServiceCall.Answered services s.2 (.charge order.total order.id (.ok paymentId))
        s'.2 := by
  unfold pay
  simp only [h]
  rcases e : services.charge order.total order.id s.2 with ⟨exc | paymentId, w⟩
  · exact Or.inl ⟨exc, _, rfl, h, .charge e⟩
  · exact Or.inr ⟨paymentId, _, rfl, rfl, rfl, .charge e⟩

/-- `_ticket` issues the order in the context. -/
theorem ticket_cases {s : BookingContext × ω} {order : Order} (h : s.1.order = .val order) :
    (∃ exc s', ticket services s = { state := s', raised := some exc } ∧
      s'.1 = s.1 ∧ ServiceCall.Answered services s.2 (.issue order (.error exc)) s'.2) ∨
    ∃ issued s', ticket services s = { state := s', raised := none } ∧
      s'.1.order = .val issued ∧ s'.1.paymentId = s.1.paymentId ∧
      ServiceCall.Answered services s.2 (.issue order (.ok issued)) s'.2 := by
  unfold ticket
  simp only [h]
  rcases e : services.issue order s.2 with ⟨exc | issued, w⟩
  · exact Or.inl ⟨exc, _, rfl, rfl, .issue e⟩
  · exact Or.inr ⟨issued, _, rfl, rfl, rfl, .issue e⟩

/-- `_void` asks to void the order in the context. -/
theorem void_answered {s : BookingContext × ω} {order : Order}
    (h : s.1.order = .val order) :
    ∃ result, ServiceCall.Answered services s.2 (.void order.providerOrderId result)
      (void services s).state.2 := by
  unfold void
  rw [h]
  exact ⟨_, .void rfl⟩

/-- `_refund` asks to refund the payment in the context. -/
theorem refund_answered {s : BookingContext × ω} {paymentId : String}
    (h : s.1.paymentId = .val paymentId) :
    (refund services s).state.1 = s.1 ∧ ∃ result,
      ServiceCall.Answered services s.2 (.refund paymentId result)
        (refund services s).state.2 := by
  unfold refund
  rw [h]
  exact ⟨rfl, _, .refund rfl⟩

/-! The four ways a run can go. -/

section Runs

variable {services} {context : Option BookingContext} {world : ω}
variable {s₁ s₂ s₃ : BookingContext × ω} {exc : Caught}

theorem run_reserve_failed
    (hr : reserve services (context.getD ∅, world) = { state := s₁, raised := some exc }) :
    (buildBookingSaga services).run context world =
      { result := .error { step := "reserve", original := exc }
        state := s₁
        calls := [.action 0] } := by
  simp [Saga.run, buildBookingSaga, Saga.loop, hr, Saga.compensate]

theorem run_pay_failed
    (hr : reserve services (context.getD ∅, world) = { state := s₁, raised := none })
    (hp : pay services s₁ = { state := s₂, raised := some exc }) :
    (buildBookingSaga services).run context world =
      { result := .error { step := "pay", original := exc }
        state := (void services s₂).state
        calls := [.action 0, .action 1, .compensation 0] } := by
  simp [Saga.run, buildBookingSaga, Saga.loop, hr, hp, Saga.compensate]

theorem run_ticket_failed
    (hr : reserve services (context.getD ∅, world) = { state := s₁, raised := none })
    (hp : pay services s₁ = { state := s₂, raised := none })
    (ht : ticket services s₂ = { state := s₃, raised := some exc }) :
    (buildBookingSaga services).run context world =
      { result := .error { step := "ticket", original := exc }
        state := (void services (refund services s₃).state).state
        calls := [.action 0, .action 1, .action 2, .compensation 1, .compensation 0] } := by
  simp [Saga.run, buildBookingSaga, Saga.loop, hr, hp, ht, Saga.compensate]

theorem run_returned
    (hr : reserve services (context.getD ∅, world) = { state := s₁, raised := none })
    (hp : pay services s₁ = { state := s₂, raised := none })
    (ht : ticket services s₂ = { state := s₃, raised := none }) :
    (buildBookingSaga services).run context world =
      { result := .ok s₃, state := s₃, calls := [.action 0, .action 1, .action 2] } := by
  simp [Saga.run, buildBookingSaga, Saga.loop, hr, hp, ht]

end Runs

/-- **The booking saga is all-or-nothing**, whatever the context holds from
an earlier run and whatever the services do: what the run does to their world
is what some calls do that they answered so, and those calls reserve what the
context asks for and book once, or leave nothing standing. -/
theorem allOrNothing (context : Option BookingContext) (world : ω) :
    ∃ calls,
      Carried services world calls ((buildBookingSaga services).run context world).state.2 ∧
        AsAsked (context.getD ∅) calls ∧
        AllOrNothing calls ((buildBookingSaga services).run context world).result := by
  rcases reserve_cases services (context.getD ∅, world) with
    ⟨exc, s₁, calls, hr, hc₁, ha, hno⟩ | ⟨offerId, ps, order, s₁, hr, ho₁, hc₁, ha₁⟩
  · -- reserving failed: there is nothing to undo
    rw [run_reserve_failed hr]
    refine ⟨calls, hc₁, ha, .of_undo none none ?_ ?_ ?_ ?_⟩
    all_goals rcases hno with rfl | ⟨offerId, ps, rfl⟩ <;> rfl
  rcases pay_cases services ho₁ with
    ⟨exc, s₂, hp, ho₂, hc₂⟩ | ⟨paymentId, s₂, hp, ho₂, hp₂, hc₂⟩
  · -- charging failed: the order of this run is voided
    rw [run_pay_failed hr hp]
    obtain ⟨result, hvoid⟩ := void_answered services ho₂
    exact ⟨_, (hc₁.snoc hc₂).snoc hvoid, (ha₁.snoc (by simp)).snoc (by simp),
      .of_undo (some order) none rfl rfl rfl rfl⟩
  rcases ticket_cases services ho₂ with
    ⟨exc, s₃, ht, hctx, hc₃⟩ | ⟨issued, s₃, ht, ho₃, hp₃, hc₃⟩
  · -- issuing failed: the payment of this run is refunded, then its order voided
    rw [run_ticket_failed hr hp ht]
    obtain ⟨hctx', refunded, hrefund⟩ := refund_answered services (hctx ▸ hp₂)
    obtain ⟨voided, hvoid⟩ := void_answered services (hctx' ▸ hctx ▸ ho₂)
    exact ⟨_, (((hc₁.snoc hc₂).snoc hc₃).snoc hrefund).snoc hvoid,
      (((ha₁.snoc (by simp)).snoc (by simp)).snoc (by simp)).snoc (by simp),
      .of_undo (some order) (some (order.total, order.id, paymentId)) rfl rfl rfl rfl⟩
  · rw [run_returned hr hp ht]
    exact ⟨_, (hc₁.snoc hc₂).snoc hc₃, (ha₁.snoc (by simp)).snoc (by simp),
      .returned ho₃ (hp₃.trans hp₂) rfl rfl rfl rfl⟩

/-- A world that is the list of the effects of the calls.  The gateway charges
and the ticketing service is down; a raising call has no effect. -/
def Sample.noTicketing (order : Order) : BookingServices (List String) where
  reserve _ _ effects := (.ok order, effects ++ ["reserve " ++ order.providerOrderId])
  void providerOrderId effects := (.ok (), effects ++ ["void " ++ providerOrderId])
  charge _ reference effects := (.ok "pay_1", effects ++ ["charge " ++ reference])
  refund paymentId effects := (.ok (), effects ++ ["refund " ++ paymentId])
  issue _ effects := (.error ⟨.providerError, rfl⟩, effects)

/-- A context with an order and a payment of an earlier run. -/
def Sample.leftover (order : Order) : BookingContext where
  offerId := some "off_1"
  passengers := some []
  order := .val order
  paymentId := .val "pay_0"

def Sample.reserved (providerOrderId : String) : Order where
  id := "o-" ++ providerOrderId
  provider := .duffel
  providerOrderId := providerOrderId
  bookingReference := none
  status := .pending
  total := { amount := ⟨false, 12000, -2⟩, currency := "GBP" }
  slices := []
  passengers := []
  idempotencyKey := none
  createdAt := { micros := 0, utcOffset := some 0 }
  events := []
  outbox := []

/-- The run over the leftover context where ticketing is down. -/
def Sample.failedBooking : SagaRun (BookingContext × List String) Caught :=
  (buildBookingSaga (Sample.noTicketing (Sample.reserved "ord_1"))).run
    (some (Sample.leftover (Sample.reserved "ord_0"))) []

/-- The law at that run, with what the services see of it: its own charge and
reservation are undone, those of the earlier run are not. -/
theorem allOrNothing_failedBooking :
    (∃ calls, Carried (Sample.noTicketing (Sample.reserved "ord_1")) [] calls
        Sample.failedBooking.state.2 ∧
      AsAsked (Sample.leftover (Sample.reserved "ord_0")) calls ∧
      AllOrNothing calls Sample.failedBooking.result) ∧
      Sample.failedBooking.state.2 =
        ["reserve ord_1", "charge o-ord_1", "refund pay_1", "void ord_1"] :=
  ⟨allOrNothing _ _ _, by decide⟩

end BookingSaga

end FlyDesk
