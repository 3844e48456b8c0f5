/-
FlyDesk/Events/Relay.lean

`relay_once`, one shared access at a time.  A pass loads a batch of whole
orders, publishes what it finds unpublished in each, stamps it, and writes
each changed order back whole.  A relay process makes one pass after another;
a pass may end anywhere, by an exception or with the process, and the next
one starts from the store again.

    idle → orders → events ⟲ → orders → … → idle

What a pass has loaded is in its own memory until it is written back, so the
points of a pass carry the orders they work on.
-/
import FlyDesk.World
import FlyDesk.Bookings.Services

namespace FlyDesk

open Lib

/-- The value a message about an event has. -/
def OutboxEvent.value (event : OutboxEvent) : EventValue where
  id := event.id
  type := event.type
  payload := event.payload

/-- The message `relay_once` publishes for an event of an order. -/
def OutboxEvent.message (event : OutboxEvent) (orderId : String) : Message where
  topic := Topic.topicFor event.type
  key := ((Dict.get? event.payload "order_id").getD (.str orderId)).text?
  value := event.value

/-- `event.published_at = now`. -/
def OutboxEvent.stamp (event : OutboxEvent) (now : DateTime) : OutboxEvent :=
  { event with publishedAt := some now }

/-- The point a relay process has reached.  Between two passes it knows how
the last one ended.  In `events`, `order` is as it was loaded and
`done ++ todo` is its outbox by now. -/
inductive RelayPc
  | idle (last : Option (Except Exn ℕ))
  | orders (rest : List Order) (published : ℕ)
  | events (order : Order) (done todo : List OutboxEvent) (changed : Bool)
      (rest : List Order) (published : ℕ)

/-- How a stopped pass or handler has ended. -/
def Stop.raised : Stop → Option Exn
  | .raise name => some (.thirdParty name)
  | .die => none

/-- What the environment decides at a step of a relay: which documents the
query returns, what time it is, or that the pass stops. -/
inductive RelayChoice
  | load (ids : List String)
  | go (now : DateTime)
  | stop (how : Stop)

/-- One atomic step of a relay process. -/
def RelayPc.step (w : World) (pc : RelayPc) (choice : RelayChoice) :
    Option (World × RelayPc) :=
  match pc, choice with
  -- `find_with_unpublished_outbox`
  | .idle _, .load ids =>
    if OrderRepository.UnpublishedBatch w.orders ids then
      match OrderRepository.findWithUnpublishedOutbox w.orders ids with
      | .ok batch => some (w, .orders batch 0)
      | .error e => some (w, .idle (some (.error e)))
    else none
  -- the loop over the orders
  | .orders [] published, .go _ => some (w, .idle (some (.ok published)))
  | .orders (order :: rest) published, .go _ =>
    some (w, .events order [] order.outbox false rest published)
  -- the loop over the outbox: publish, then stamp the copy in memory
  | .events order done (event :: todo) changed rest published, .go now =>
    match event.publishedAt with
    | some _ => some (w, .events order (done ++ [event]) todo changed rest published)
    | none => some (w.publish (event.message order.id),
        .events order (done ++ [event.stamp now]) todo true rest (published + 1))
  -- `if changed: repo.save(order)`, the whole document
  | .events order done [] changed rest published, .go _ =>
    if changed then
      match OrderRepository.save w.orders { order with outbox := done } with
      | some col => some ({ w with orders := col }, .orders rest published)
      | none => some (w, .idle (some (.error .duplicateKeyError)))
    else some (w, .orders rest published)
  | .orders _ _, .stop how | .events _ _ _ _ _ _, .stop how =>
    some (w, .idle (how.raised.map .error))
  | _, _ => none

/-- One case for each thing a step of a relay can do. -/
inductive RelayPc.Steps (w : World) : RelayPc → World → RelayPc → Prop
  | loaded {last ids batch} : OrderRepository.UnpublishedBatch w.orders ids →
      OrderRepository.findWithUnpublishedOutbox w.orders ids = .ok batch →
      Steps w (.idle last) w (.orders batch 0)
  | picked {order rest n} :
      Steps w (.orders (order :: rest) n) w (.events order [] order.outbox false rest n)
  | skipped {order done event todo changed rest n} : event.publishedAt ≠ none →
      Steps w (.events order done (event :: todo) changed rest n) w
        (.events order (done ++ [event]) todo changed rest n)
  | published {order done event todo changed rest n now} : event.publishedAt = none →
      Steps w (.events order done (event :: todo) changed rest n)
        (w.publish (event.message order.id))
        (.events order (done ++ [event.stamp now]) todo true rest (n + 1))
  | saved {order done rest n col} :
      OrderRepository.save w.orders { order with outbox := done } = some col →
      Steps w (.events order done [] true rest n) { w with orders := col } (.orders rest n)
  | unchanged {order done rest n} :
      Steps w (.events order done [] false rest n) w (.orders rest n)
  | ended {pc last} : Steps w pc w (.idle last)

/-- **Inversion of a step of a relay.** -/
theorem RelayPc.steps_of_step {w w' : World} {pc pc' : RelayPc} {choice : RelayChoice}
    (h : pc.step w choice = some (w', pc')) : RelayPc.Steps w pc w' pc' := by
  unfold RelayPc.step at h
  split at h
  · -- a pass begins
    split at h
    · rename_i hbatch
      split at h
      · rename_i batch hfind
        obtain ⟨rfl, rfl⟩ := Prod.mk.inj (Option.some.inj h)
        exact .loaded hbatch hfind
      · obtain ⟨rfl, rfl⟩ := Prod.mk.inj (Option.some.inj h)
        exact .ended
    · cases h
  · -- a pass returns
    obtain ⟨rfl, rfl⟩ := Prod.mk.inj (Option.some.inj h)
    exact .ended
  · -- the next order
    obtain ⟨rfl, rfl⟩ := Prod.mk.inj (Option.some.inj h)
    exact .picked
  · -- the next event
    split at h
    · rename_i at' hpub
      obtain ⟨rfl, rfl⟩ := Prod.mk.inj (Option.some.inj h)
      exact .skipped (by simp [hpub])
    · rename_i hpub
      obtain ⟨rfl, rfl⟩ := Prod.mk.inj (Option.some.inj h)
      exact .published hpub
  · -- the end of the outbox
    rename_i changed _ _ _
    cases changed with
    | false =>
        obtain ⟨rfl, rfl⟩ := Prod.mk.inj (Option.some.inj h)
        exact .unchanged
    | true =>
        rw [if_pos rfl] at h
        split at h
        · rename_i col hsave
          obtain ⟨rfl, rfl⟩ := Prod.mk.inj (Option.some.inj h)
          exact .saved hsave
        · obtain ⟨rfl, rfl⟩ := Prod.mk.inj (Option.some.inj h)
          exact .ended
  · -- the pass stops
    obtain ⟨rfl, rfl⟩ := Prod.mk.inj (Option.some.inj h)
    exact .ended
  · obtain ⟨rfl, rfl⟩ := Prod.mk.inj (Option.some.inj h)
    exact .ended
  · cases h

end FlyDesk
