/-
FlyDesk/World.lean

What the processes of the system share: the Mongo collections, Redis, the
Kafka log, and what has happened at the provider.

Kafka is the list of published messages; a message's position in it stands
for its offset.  The provider's side is a record of what was asked of it and
what it did, kept for the statements: no process reads it.
-/
import FlyDesk.Bookings.Repository
import Mathlib.Logic.Function.Basic

namespace FlyDesk

open Lib

/-! ### Redis -/

/-- What `create_booking` takes for an idempotency key.  Its test is
`if idempotency_key:`, so an empty string is no key. -/
def IdempotencyKey := { s : String // s ≠ "" }

instance : DecidableEq IdempotencyKey :=
  inferInstanceAs (DecidableEq { s : String // s ≠ "" })

/-- The idempotency key of an argument that may be absent. -/
def IdempotencyKey.of? : Option String → Option IdempotencyKey
  | none => none
  | some s => if h : s ≠ "" then some ⟨s, h⟩ else none

/-- The Redis key of a reservation. -/
def IdempotencyKey.redisKey (k : IdempotencyKey) : String := "idem:" ++ k.val

theorem IdempotencyKey.redisKey_inj {k k' : IdempotencyKey} :
    k.redisKey = k'.redisKey ↔ k = k' := by
  constructor
  · intro h
    exact Subtype.ext (by simpa [redisKey] using h)
  · rintro rfl
    rfl

/-- Redis: its clock in seconds, and when each key expires. -/
structure Redis where
  now : ℕ
  expiry : String → Option ℕ

/-- The key is there and has not expired. -/
def Redis.Held (r : Redis) (key : String) : Prop :=
  ∃ e, r.expiry key = some e ∧ r.now < e

instance (r : Redis) (key : String) : Decidable (r.Held key) :=
  decidable_of_iff ((r.expiry key).any fun e => r.now < e) (by
    cases h : r.expiry key <;> simp [Redis.Held, h])

/-- Writing a key that expires after `ttl` seconds. -/
def Redis.write (r : Redis) (key : String) (ttl : ℕ) : Redis :=
  { r with expiry := Function.update r.expiry key (some (r.now + ttl)) }

/-- `SET key "1" NX EX ttl`; `none` says the key is held. -/
def Redis.setNx (r : Redis) (key : String) (ttl : ℕ) : Option Redis :=
  if r.Held key then none else some (r.write key ttl)

theorem Redis.setNx_eq_some {r r' : Redis} {key : String} {ttl : ℕ} :
    r.setNx key ttl = some r' ↔ ¬ r.Held key ∧ r.write key ttl = r' := by
  by_cases h : r.Held key <;> simp [Redis.setNx, h]

theorem Redis.setNx_eq_none {r : Redis} {key : String} {ttl : ℕ} :
    r.setNx key ttl = none ↔ r.Held key := by
  by_cases h : r.Held key <;> simp [Redis.setNx, h]

theorem Redis.held_write {r : Redis} {key : String} {ttl : ℕ} (h : 0 < ttl) :
    (r.write key ttl).Held key :=
  ⟨r.now + ttl, by simp [Redis.write], by simp [Redis.write, h]⟩

/-- Writing one key leaves the other keys held. -/
theorem Redis.Held.write {r : Redis} {key key' : String} {ttl : ℕ} (h : r.Held key)
    (hne : key ≠ key') : (r.write key' ttl).Held key := by
  obtain ⟨e, he, hlt⟩ := h
  exact ⟨e, by simpa [Redis.write, hne] using he, hlt⟩

/-- Time passes. -/
def Redis.wait (r : Redis) (seconds : ℕ) : Redis :=
  { r with now := r.now + seconds }

/-! ### Kafka -/

/-- The value of a message: `{"id", "type", "payload"}`. -/
structure EventValue where
  id : String
  type : String
  payload : Dict

/-- A published message.  The key is what `str` makes of an order id: a string is
its own text, and `none` stands for what another value becomes, which is left
open. -/
structure Message where
  topic : String
  key : Option String
  value : EventValue

namespace Topic

def bookingsConfirmed : String := "bookings.confirmed"

def ticketsIssued : String := "tickets.issued"

/-- `topic_for`. -/
def topicFor (eventType : String) : String :=
  if eventType = "BookingConfirmed" then bookingsConfirmed
  else if eventType = "TicketIssued" then ticketsIssued
  else "events.dead_letter"

end Topic

/-! ### The shared state -/

/-- A row of `audit_log`. -/
structure AuditRow where
  eventId : String
  type : String
  payload : Dict
  insertedAt : DateTime

structure World where
  /-- the collection `orders` -/
  orders : Collection OrderDoc
  redis : Redis
  /-- the collection `processed_events`, as `(consumer, event_id)` -/
  processed : List (String × String)
  /-- the collection `audit_log` -/
  audit : List AuditRow
  /-- the events a notification was sent for -/
  notified : List EventValue
  /-- every message published so far -/
  published : List Message
  /-- the offsets the worker group has committed -/
  committed : List ℕ
  /-- every invocation of `create_order`, with the key of the caller -/
  createOrderCalls : List (Option IdempotencyKey)
  /-- every order created at the provider, with the key of the caller -/
  ordersCreated : List (Option IdempotencyKey)
  /-- the ids of the orders the provider has returned -/
  orderIds : List String
  /-- the ids `uuid.uuid4` has given to staged events -/
  eventIds : List String

namespace World

/-- A world in which nothing has happened yet. -/
def fresh : World where
  orders := Collection.empty
  redis := { now := 0, expiry := fun _ => none }
  processed := []
  audit := []
  notified := []
  published := []
  committed := []
  createOrderCalls := []
  ordersCreated := []
  orderIds := []
  eventIds := []

/-- `publisher.publish`. -/
def publish (w : World) (m : Message) : World :=
  { w with published := w.published ++ [m] }

/-- `ProcessedEvents.mark_if_new`: the insert under the unique index
`uniq_consumer_event`; `none` says the pair was there. -/
def markIfNew (w : World) (eventId consumer : String) : Option World :=
  if (consumer, eventId) ∈ w.processed then none
  else some { w with processed := w.processed ++ [(consumer, eventId)] }

theorem markIfNew_eq_some {w w' : World} {eventId consumer : String} :
    w.markIfNew eventId consumer = some w' ↔ (consumer, eventId) ∉ w.processed ∧
      { w with processed := w.processed ++ [(consumer, eventId)] } = w' := by
  by_cases h : (consumer, eventId) ∈ w.processed <;> simp [markIfNew, h]

theorem markIfNew_eq_none {w : World} {eventId consumer : String} :
    w.markIfNew eventId consumer = none ↔ (consumer, eventId) ∈ w.processed := by
  by_cases h : (consumer, eventId) ∈ w.processed <;> simp [markIfNew, h]

/-- What the environment does by itself: `seconds` pass. -/
def tick (w : World) (seconds : ℕ) : Option World :=
  some { w with redis := w.redis.wait seconds }

end World

end FlyDesk
