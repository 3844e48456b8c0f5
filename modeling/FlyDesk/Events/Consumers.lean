/-
FlyDesk/Events/Consumers.lean

The worker loop of `consume_events`, one shared access at a time.  A worker
takes a message, runs the handlers of ticketing, notifications and audit on
its event one after the other, and commits the offset.

    idle → mark ticketing → getOrder → saveOrder → publishTicket
                ↘──────────────────────────────────────↘
         → mark notifications → notify → mark audit → insertAudit → commit → idle

Each handler records the event as processed before it does its work, and
skips an event it finds recorded.  Any step may raise, which ends the worker,
and the worker may die; either way it is restarted and takes a message again.
-/
import FlyDesk.Events.Relay

namespace FlyDesk

open Lib

/-- The consumers, in the order the worker runs them. -/
inductive Consumer
  | ticketing
  | notifications
  | audit
deriving DecidableEq, Repr

/-- The name under which a consumer records an event. -/
def Consumer.name : Consumer → String
  | .ticketing => "ticketing"
  | .notifications => "notifications"
  | .audit => "audit"

theorem Consumer.name_inj {c c' : Consumer} : c.name = c'.name ↔ c = c' := by
  cases c <;> cases c' <;> decide

/-- The copy of an order `handle_ticketing` saves. -/
def Order.ticketed (order : Order) (now : DateTime) : Order :=
  { order with
    status := .ticketed
    events := order.events ++
      [{ type := "ticket.issued", occurredAt := now, detail := some "e-ticket issued" }] }

/-- The message `handle_ticketing` publishes. -/
def ticketIssued (orderId : String) (bookingReference : Option String) (uuid : String) :
    Message where
  topic := Topic.ticketsIssued
  key := some orderId
  value :=
    { id := uuid
      type := "TicketIssued"
      payload :=
        [("order_id", .str orderId), ("booking_reference", Json.ofOption bookingReference)] }

/-- The point reached in handling one event.  In `saveOrder` the order is as
it was loaded. -/
inductive HandlerPc
  | mark (consumer : Consumer)
  | getOrder
  | saveOrder (orderId : String) (order : Order) (now : DateTime)
  | publishTicket (orderId : String) (order : Order)
  | notify
  | insertAudit
  | commit

/-- Where a consumer goes with an event it has not seen. -/
def Consumer.work : Consumer → HandlerPc
  | .ticketing => .getOrder
  | .notifications => .notify
  | .audit => .insertAudit

/-- Where the worker goes after a consumer. -/
def Consumer.next : Consumer → HandlerPc
  | .ticketing => .mark .notifications
  | .notifications => .mark .audit
  | .audit => .commit

/-- The point a worker process has reached: between two messages, knowing
what the last exception was, or handling the event of a message. -/
inductive WorkerPc
  | idle (raised : Option Exn)
  | run (offset : ℕ) (event : EventValue) (pc : HandlerPc)

/-- What the environment decides at a step of a worker: which message it
gets, what time it is and what `uuid.uuid4` gives, or that it stops. -/
inductive WorkerChoice
  | deliver (offset : ℕ)
  | go (now : DateTime) (uuid : String)
  | stop (how : Stop)

/-- `event["payload"]["order_id"]` as an id to look up; every `_id` is a
string, so nothing is found under another value. -/
def EventValue.orderId (event : EventValue) : Except Exn (Option String) :=
  match Dict.get? event.payload "order_id" with
  | none => .error .keyError
  | some (.str id) => .ok (some id)
  | some _ => .ok none

/-- The step of `handle_ticketing` that reads the order. -/
def getOrderPc (w : World) (offset : ℕ) (event : EventValue) (now : DateTime) : WorkerPc :=
  match event.orderId with
  | .error e => .idle (some e)
  | .ok none => .run offset event (.mark .notifications)
  | .ok (some id) =>
    match OrderRepository.get w.orders id with
    | .error e => .idle (some e)
    | .ok none => .run offset event (.mark .notifications)
    | .ok (some order) =>
      if order.status = .ticketed then .run offset event (.publishTicket id order)
      else .run offset event (.saveOrder id order now)

/-- The row `handle_audit` inserts. -/
def auditRow (event : EventValue) (now : DateTime) : AuditRow where
  eventId := event.id
  type := event.type
  payload := event.payload
  insertedAt := now

/-- One atomic step of a worker process. -/
def WorkerPc.step (w : World) (pc : WorkerPc) (choice : WorkerChoice) :
    Option (World × WorkerPc) :=
  match pc, choice with
  -- the worker reads `bookings.confirmed` only
  | .idle _, .deliver offset =>
    match w.published[offset]? with
    | some m =>
      if m.topic = Topic.bookingsConfirmed then
        some (w, .run offset m.value (.mark .ticketing))
      else none
    | none => none
  -- `if not dedupe.mark_if_new(...)`, at the head of each handler
  | .run offset event (.mark consumer), .go _ _ =>
    match w.markIfNew event.id consumer.name with
    | some w' => some (w', .run offset event consumer.work)
    | none => some (w, .run offset event consumer.next)
  -- `handle_ticketing`: the repository read, the save and the publish
  | .run offset event .getOrder, .go now _ => some (w, getOrderPc w offset event now)
  | .run offset event (.saveOrder id order now), .go _ _ =>
    match OrderRepository.save w.orders (order.ticketed now) with
    | some orders =>
      some ({ w with orders }, .run offset event (.publishTicket id (order.ticketed now)))
    | none => some (w, .idle (some .duplicateKeyError))
  | .run offset event (.publishTicket id order), .go _ uuid =>
    some (w.publish (ticketIssued id order.bookingReference uuid),
      .run offset event (.mark .notifications))
  -- `handle_notification` and `handle_audit`
  | .run offset event .notify, .go _ _ =>
    some ({ w with notified := w.notified ++ [event] }, .run offset event (.mark .audit))
  | .run offset event .insertAudit, .go now _ =>
    some ({ w with audit := w.audit ++ [auditRow event now] }, .run offset event .commit)
  -- `consumer.commit()`
  | .run offset _ .commit, .go _ _ =>
    some ({ w with committed := w.committed ++ [offset] }, .idle none)
  | .run _ _ _, .stop how => some (w, .idle how.raised)
  | _, _ => none

/-! ### What a step can do -/

/-- One case for each thing a step of a worker can do. -/
inductive WorkerPc.Steps (w : World) : WorkerPc → WorkerChoice → World → WorkerPc → Prop
  | delivered {last offset m} : w.published[offset]? = some m →
      m.topic = Topic.bookingsConfirmed →
      Steps w (.idle last) (.deliver offset) w (.run offset m.value (.mark .ticketing))
  | marked {offset event c now uuid} : (c.name, event.id) ∉ w.processed →
      Steps w (.run offset event (.mark c)) (.go now uuid)
        { w with processed := w.processed ++ [(c.name, event.id)] }
        (.run offset event c.work)
  | skipped {offset event c now uuid} : (c.name, event.id) ∈ w.processed →
      Steps w (.run offset event (.mark c)) (.go now uuid) w (.run offset event c.next)
  | found {offset event now uuid id order d} : event.orderId = .ok (some id) →
      d ∈ w.orders.docs → d.id = id → d.toOrder = .ok order → order.status ≠ .ticketed →
      Steps w (.run offset event .getOrder) (.go now uuid) w
        (.run offset event (.saveOrder id order now))
  | foundTicketed {offset event now uuid id order d} : event.orderId = .ok (some id) →
      d ∈ w.orders.docs → d.id = id → d.toOrder = .ok order → order.status = .ticketed →
      Steps w (.run offset event .getOrder) (.go now uuid) w
        (.run offset event (.publishTicket id order))
  | orderMissing {offset event now uuid} :
      (event.orderId = .ok none ∨ ∃ id, event.orderId = .ok (some id) ∧
        ∀ d ∈ w.orders.docs, d.id ≠ id) →
      Steps w (.run offset event .getOrder) (.go now uuid) w
        (.run offset event (.mark .notifications))
  | orderUnreadable {offset event now uuid e} :
      (event.orderId = .error e ∨ ∃ d ∈ w.orders.docs, d.toOrder = .error e) →
      Steps w (.run offset event .getOrder) (.go now uuid) w (.idle (some e))
  | saved {offset event now now' uuid id order orders} :
      OrderRepository.save w.orders (order.ticketed now) = some orders →
      Steps w (.run offset event (.saveOrder id order now)) (.go now' uuid)
        { w with orders } (.run offset event (.publishTicket id (order.ticketed now)))
  | unsaved {offset event now now' uuid id order} :
      OrderRepository.save w.orders (order.ticketed now) = none →
      Steps w (.run offset event (.saveOrder id order now)) (.go now' uuid) w
        (.idle (some .duplicateKeyError))
  | published {offset event now uuid id order} :
      Steps w (.run offset event (.publishTicket id order)) (.go now uuid)
        (w.publish (ticketIssued id order.bookingReference uuid))
        (.run offset event (.mark .notifications))
  | notified {offset event now uuid} :
      Steps w (.run offset event .notify) (.go now uuid)
        { w with notified := w.notified ++ [event] } (.run offset event (.mark .audit))
  | audited {offset event now uuid} :
      Steps w (.run offset event .insertAudit) (.go now uuid)
        { w with audit := w.audit ++ [auditRow event now] } (.run offset event .commit)
  | committed {offset event now uuid} :
      Steps w (.run offset event .commit) (.go now uuid)
        { w with committed := w.committed ++ [offset] } (.idle none)
  | stopped {offset event pc how} :
      Steps w (.run offset event pc) (.stop how) w (.idle how.raised)

/-- `getOrderPc` spelled out. -/
theorem steps_getOrder (w : World) (offset : ℕ) (event : EventValue) (now : DateTime)
    (uuid : String) : WorkerPc.Steps w (.run offset event .getOrder) (.go now uuid) w
      (getOrderPc w offset event now) := by
  unfold getOrderPc
  rcases he : event.orderId with e | - | id
  · exact .orderUnreadable (Or.inl he)
  · exact .orderMissing (Or.inl he)
  · rcases hg : OrderRepository.get w.orders id with e | - | order
    · obtain ⟨d, hd, hde⟩ := OrderRepository.get_eq_error hg
      simp only [hg]
      exact .orderUnreadable (Or.inr ⟨d, hd, hde⟩)
    · simp only [hg]
      exact .orderMissing (Or.inr ⟨id, he, OrderRepository.get_eq_none hg⟩)
    · obtain ⟨d, hd, hid, hread⟩ := OrderRepository.get_eq_some hg
      simp only [hg]
      split
      · rename_i hst
        exact .foundTicketed he hd hid hread hst
      · rename_i hst
        exact .found he hd hid hread hst

/-- **Inversion of a step of a worker.** -/
theorem WorkerPc.steps_of_step {w w' : World} {pc pc' : WorkerPc} {choice : WorkerChoice}
    (h : pc.step w choice = some (w', pc')) : WorkerPc.Steps w pc choice w' pc' := by
  unfold WorkerPc.step at h
  split at h
  · -- a message is delivered
    split at h
    · rename_i m hm
      split at h
      · rename_i htopic
        obtain ⟨rfl, rfl⟩ := Prod.mk.inj (Option.some.inj h)
        exact .delivered hm htopic
      · cases h
    · cases h
  · -- a consumer records the event
    split at h
    · rename_i hmark
      obtain ⟨hnew, rfl⟩ := World.markIfNew_eq_some.mp hmark
      obtain ⟨rfl, rfl⟩ := Prod.mk.inj (Option.some.inj h)
      exact .marked hnew
    · rename_i hmark
      obtain ⟨rfl, rfl⟩ := Prod.mk.inj (Option.some.inj h)
      exact .skipped (World.markIfNew_eq_none.mp hmark)
  · obtain ⟨rfl, rfl⟩ := Prod.mk.inj (Option.some.inj h)
    exact steps_getOrder _ _ _ _ _
  · -- the ticketed order is saved
    split at h
    · rename_i hsave
      obtain ⟨rfl, rfl⟩ := Prod.mk.inj (Option.some.inj h)
      exact .saved hsave
    · rename_i hsave
      obtain ⟨rfl, rfl⟩ := Prod.mk.inj (Option.some.inj h)
      exact .unsaved hsave
  · obtain ⟨rfl, rfl⟩ := Prod.mk.inj (Option.some.inj h)
    exact .published
  · obtain ⟨rfl, rfl⟩ := Prod.mk.inj (Option.some.inj h)
    exact .notified
  · obtain ⟨rfl, rfl⟩ := Prod.mk.inj (Option.some.inj h)
    exact .audited
  · obtain ⟨rfl, rfl⟩ := Prod.mk.inj (Option.some.inj h)
    exact .committed
  · obtain ⟨rfl, rfl⟩ := Prod.mk.inj (Option.some.inj h)
    exact .stopped
  · cases h

end FlyDesk
