/-
FlyDesk/Bookings/Services.lean

`create_booking`, one shared access at a time.  A call is a frame: its
arguments, the local variable `order`, and the point it has reached.  The
points are the places where the call touches Mongo, Redis or the provider;
what happens between two of them is local and belongs to the step before.

    start → reserve → prepare → createOrder → postOrder → save → saved → returned
               ↘ findReserved                               ↘ findWinner

At every point a call may stop, by an exception of a driver or by dying with
its process.  An operation that takes effect and then raises is a step
followed by such a stop, so a stop itself changes nothing.  A `RedisError`
is not a stop: `_reserve` catches it.

`BookingFrame.step` is the executable step and `BookingFrame.Steps` its
inversion: every proof about calls goes by its cases.
-/
import FlyDesk.World
import FlyDesk.Providers.Duffel

namespace FlyDesk

open Lib

/-! ### The local parts -/

/-- What a call is made with: its arguments and the configured provider of
the process it runs in.  A passenger stands as what `BookingPassenger(**p)`
makes of its data. -/
structure BookingCall where
  offerId : String
  passengersData : List (Except Exn BookingPassenger)
  idempotencyKey : Option String
  providerName : Option String
  settingsProvider : String

/-- `if idempotency_key:`. -/
def BookingCall.key (c : BookingCall) : Option IdempotencyKey :=
  IdempotencyKey.of? c.idempotencyKey

/-- `get_provider`.  Lowering the ASCII letters is enough here: no other
letter has a lower case among those of the two names. -/
def getProvider (settingsProvider : String) (name : Option String) : Except Exn Provider :=
  let named := match name with
    | some n => if n = "" then settingsProvider else n
    | none => settingsProvider
  let resolved := String.ofList (named.toList.map Char.toLower)
  if resolved = Provider.duffel.value then .ok .duffel
  else if resolved = Provider.amadeus.value then .ok .amadeus
  else .error .valueError

/-- `total.model_dump(mode="json")`. -/
def Money.toJson (m : Money) : Json :=
  .obj [("amount", .str m.modelDump.amount), ("currency", .str m.modelDump.currency)]

/-- `_booking_confirmed_event`; `uuid` is what `uuid.uuid4().hex` gave. -/
def bookingConfirmedEvent (order : Order) (uuid : String) (now : DateTime) : OutboxEvent where
  id := uuid
  type := "BookingConfirmed"
  payload :=
    [("order_id", .str order.id),
     ("booking_reference", Json.ofOption order.bookingReference),
     ("provider", .str order.provider.value),
     ("total", order.total.toJson)]
  createdAt := now
  publishedAt := none

/-- `order.model_copy(update=updates)`. -/
def Order.staged (order : Order) (key : Option IdempotencyKey) (uuid : String)
    (now : DateTime) : Order :=
  { order with
    outbox := [bookingConfirmedEvent order uuid now]
    idempotencyKey := match key with
      | some k => some k.val
      | none => order.idempotencyKey }

/-- The payload that names an order: its id, booking reference, provider and
rendered total. -/
def OrderDoc.confirmedPayload (d : OrderDoc) : Dict :=
  [("order_id", .str d.id),
   ("booking_reference", Json.ofOption d.bookingReference),
   ("provider", .str d.provider.value),
   ("total", .obj [("amount", .str d.total.amount), ("currency", .str d.total.currency)])]

/-- The outbox of the document is one `BookingConfirmed` event that names
it. -/
def OrderDoc.Booked (d : OrderDoc) : Prop :=
  ∃ e, d.outbox = [e] ∧ e.type = "BookingConfirmed" ∧ e.payload = d.confirmedPayload

theorem Order.staged_booked {o : Order} {key : Option IdempotencyKey} {uuid : String}
    {now : DateTime} : (o.staged key uuid now).modelDump.Booked :=
  ⟨_, rfl, rfl, rfl⟩

/-- How long a reservation lasts, in seconds. -/
def reservationTtl : ℕ := 120

/-! ### Calls -/

/-- The point a call has reached. -/
inductive BookingPc
  | start
  | reserve
  | findReserved
  | prepare
  | createOrder (provider : Provider) (passengers : List BookingPassenger)
  | postOrder (passengers : List BookingPassenger)
  | save (order : Order)
  | findWinner
  | saved (order : Order)
  | returned (order : Order)
  | raised (e : Exn)
  | died

/-- The call has started and not ended. -/
def BookingPc.Running : BookingPc → Prop
  | .start | .returned _ | .raised _ | .died => False
  | _ => True

/-- The call has ended. -/
def BookingPc.Ended : BookingPc → Prop
  | .returned _ | .raised _ | .died => True
  | _ => False

instance : DecidablePred BookingPc.Ended
  | .returned _ | .raised _ | .died => .isTrue trivial
  | .start | .reserve | .findReserved | .prepare | .createOrder _ _ | .postOrder _ | .save _
  | .findWinner | .saved _ => .isFalse id

/-- The exception a call has raised. -/
def BookingPc.raised? : BookingPc → Option Exn
  | .raised e => some e
  | _ => none

/-- The order a call has returned. -/
def BookingPc.returned? : BookingPc → Option Order
  | .returned order => some order
  | _ => none

theorem BookingPc.returned?_eq_some {pc : BookingPc} {order : Order} :
    pc.returned? = some order ↔ pc = .returned order := by
  cases pc <;> simp [BookingPc.returned?]

/-- A call of `create_booking`.  `order` is the local variable `order` once
`provider.create_order` has returned; `reachedProvider` records that
`provider.create_order` was invoked. -/
structure BookingFrame where
  call : BookingCall
  pc : BookingPc
  order : Option Order
  reachedProvider : Bool

/-- A call about to start. -/
def BookingFrame.init (call : BookingCall) : BookingFrame where
  call := call
  pc := .start
  order := none
  reachedProvider := false

/-- The call goes on at `pc`. -/
def BookingFrame.goto (f : BookingFrame) (pc : BookingPc) : BookingFrame :=
  { f with pc }

@[simp] theorem BookingFrame.goto_call (f : BookingFrame) (pc : BookingPc) :
    (f.goto pc).call = f.call := rfl

@[simp] theorem BookingFrame.goto_pc (f : BookingFrame) (pc : BookingPc) :
    (f.goto pc).pc = pc := rfl

@[simp] theorem BookingFrame.goto_order (f : BookingFrame) (pc : BookingPc) :
    (f.goto pc).order = f.order := rfl

@[simp] theorem BookingFrame.goto_reachedProvider (f : BookingFrame) (pc : BookingPc) :
    (f.goto pc).reachedProvider = f.reachedProvider := rfl

/-- How a call stops. -/
inductive Stop
  | raise (exception : String)
  | die

def Stop.pc : Stop → BookingPc
  | .raise name => .raised (.thirdParty name)
  | .die => .died

/-- What the environment decides at a step: the operation goes through, Redis
fails (with or without having executed the command), the provider answers
the request for the offer or the one for the order, or the call stops.  With
the answer to the order request comes whether the provider created an order,
which it may have done whatever it answers. -/
inductive BookingChoice
  | go
  | redisError (executed : Bool)
  | offerReply (reply : Reply Unit)
  | orderReply (created : Bool) (reply : Reply DuffelProvider.OrderData) (uuid : String)
      (now : DuffelProvider.OrderClock)
  | stop (how : Stop)

/-! ### The step -/

/-- Where `find_by_idempotency_key` leads: to the order it found, to what
the call does without one, or to an exception. -/
def findPc (w : World) (key : IdempotencyKey) (otherwise : BookingPc) : BookingPc :=
  match OrderRepository.findByIdempotencyKey w.orders key.val with
  | .ok (some existing) => .returned existing
  | .ok none => otherwise
  | .error e => .raised e

/-- The passengers and the provider, lines 85 and 86. -/
def preparePc (c : BookingCall) : BookingPc :=
  match c.passengersData.mapM id with
  | .error e => .raised e
  | .ok passengers =>
    match getProvider c.settingsProvider c.providerName with
    | .error e => .raised e
    | .ok provider => .createOrder provider passengers

/-- The request for the offer, the first thing `create_order` does; Amadeus
is not wired to a live API. -/
def offerPc (provider : Provider) (passengers : List BookingPassenger)
    (reply : Reply Unit) : BookingPc :=
  match provider with
  | .amadeus => .raised .notImplementedError
  | .duffel =>
    match DuffelProvider.request reply with
    | .error e => .raised e
    | .ok () => .postOrder passengers

/-- One atomic step of a call. -/
def BookingFrame.step (w : World) (f : BookingFrame) (choice : BookingChoice) :
    Option (World × BookingFrame) :=
  match f.pc, f.call.key, choice with
  | .start, none, .go => some (w, f.goto .prepare)
  -- the early replay
  | .start, some key, .go => some (w, f.goto (findPc w key .reserve))
  -- `_reserve`; on the losing side the key is looked up once more
  | .reserve, some key, .go =>
    match w.redis.setNx key.redisKey reservationTtl with
    | some redis => some ({ w with redis }, f.goto .prepare)
    | none => some (w, f.goto .findReserved)
  -- `except redis.RedisError`: the call goes on as if it had reserved
  | .reserve, some key, .redisError executed =>
    let redis := if executed ∧ ¬ w.redis.Held key.redisKey
      then w.redis.write key.redisKey reservationTtl else w.redis
    some ({ w with redis }, f.goto .prepare)
  | .findReserved, some key, .go =>
    some (w, f.goto (findPc w key (.raised .bookingInProgressError)))
  | .prepare, _, .go => some (w, f.goto (preparePc f.call))
  -- `provider.create_order` begins with the request for the offer
  | .createOrder provider passengers, key, .offerReply reply =>
    some ({ w with createOrderCalls := w.createOrderCalls ++ [key] },
      { f with pc := offerPc provider passengers reply, reachedProvider := true })
  -- and ends with POST /air/orders; a failure says nothing about the provider
  | .postOrder passengers, key, .orderReply created reply uuid now =>
    match DuffelProvider.request reply with
    | .error e =>
      let ordersCreated := if created then w.ordersCreated ++ [key] else w.ordersCreated
      some ({ w with ordersCreated }, f.goto (.raised e))
    | .ok data =>
      let order := DuffelProvider.mapOrder data passengers now
      some
        ({ w with
            ordersCreated := w.ordersCreated ++ [key]
            orderIds := w.orderIds ++ [order.id]
            eventIds := w.eventIds ++ [uuid] },
          { f with pc := .save (order.staged key uuid now.stagedAt), order := some order })
  -- `except DuplicateKeyError`: only a call with a key looks for the winner
  | .save order, key, .go =>
    match OrderRepository.save w.orders order with
    | some orders => some ({ w with orders }, f.goto (.saved order))
    | none =>
      match key with
      | some _ => some (w, f.goto .findWinner)
      | none => some (w, f.goto (.raised .duplicateKeyError))
  | .findWinner, some key, .go =>
    some (w, f.goto (findPc w key (.raised .duplicateKeyError)))
  | .saved order, _, .go => some (w, f.goto (.returned order))
  -- a driver raises or the process dies
  | pc, _, .stop how => if pc.Ended then none else some (w, f.goto how.pc)
  | _, _, _ => none

/-! ### What a step can do -/

/-- `findPc` spelled out: the order of a stored document under the key, what
the call does if there is none, or an unreadable document. -/
inductive FindsTo (w : World) (key : IdempotencyKey) (otherwise : BookingPc) :
    BookingPc → Prop
  | found {d order} : d ∈ w.orders.docs → d.idempotencyKey = .val key.val →
      d.toOrder = .ok order → FindsTo w key otherwise (.returned order)
  | absent : (∀ d ∈ w.orders.docs, d.idempotencyKey ≠ .val key.val) →
      FindsTo w key otherwise otherwise
  | unreadable {d} : d ∈ w.orders.docs → d.toOrder = .error .validationError →
      FindsTo w key otherwise (.raised .validationError)

theorem findsTo_findPc (w : World) (key : IdempotencyKey) (otherwise : BookingPc) :
    FindsTo w key otherwise (findPc w key otherwise) := by
  unfold findPc
  rcases h : OrderRepository.findByIdempotencyKey w.orders key.val with e | - | order
  · obtain ⟨d, hd, he⟩ := OrderRepository.find_eq_error h
    obtain rfl := OrderDoc.toOrder_error he
    exact .unreadable hd he
  · exact .absent (OrderRepository.find_eq_none h)
  · obtain ⟨d, hd, hk, ho⟩ := OrderRepository.find_eq_some h
    exact .found hd hk ho

theorem preparePc_cases (c : BookingCall) : (∃ e, preparePc c = .raised e) ∨
    ∃ provider passengers, preparePc c = .createOrder provider passengers := by
  unfold preparePc
  split
  · exact Or.inl ⟨_, rfl⟩
  · split
    · exact Or.inl ⟨_, rfl⟩
    · exact Or.inr ⟨_, _, rfl⟩

theorem offerPc_cases (provider : Provider) (passengers : List BookingPassenger)
    (reply : Reply Unit) : (∃ e, offerPc provider passengers reply = .raised e) ∨
    offerPc provider passengers reply = .postOrder passengers := by
  unfold offerPc
  split
  · exact Or.inl ⟨_, rfl⟩
  · split
    · exact Or.inl ⟨_, rfl⟩
    · exact Or.inr rfl

/-- One case for each thing a step of a call can do. -/
inductive BookingFrame.Steps (w : World) (f : BookingFrame) :
    BookingChoice → World → BookingFrame → Prop
  | startUnkeyed : f.pc = .start → f.call.key = none → Steps w f .go w (f.goto .prepare)
  | find {key pc} : f.pc = .start → f.call.key = some key →
      FindsTo w key .reserve pc → Steps w f .go w (f.goto pc)
  | reserved {key} : f.pc = .reserve → f.call.key = some key → ¬ w.redis.Held key.redisKey →
      Steps w f .go { w with redis := w.redis.write key.redisKey reservationTtl }
        (f.goto .prepare)
  | refused {key} : f.pc = .reserve → f.call.key = some key → w.redis.Held key.redisKey →
      Steps w f .go w (f.goto .findReserved)
  | redisDown {key redis executed} : f.pc = .reserve → f.call.key = some key →
      (redis = w.redis ∨ redis = w.redis.write key.redisKey reservationTtl) →
      Steps w f (.redisError executed) { w with redis } (f.goto .prepare)
  | findReserved {key pc} : f.pc = .findReserved → f.call.key = some key →
      FindsTo w key (.raised .bookingInProgressError) pc → Steps w f .go w (f.goto pc)
  | prepared {provider passengers} : f.pc = .prepare →
      preparePc f.call = .createOrder provider passengers →
      Steps w f .go w (f.goto (.createOrder provider passengers))
  | unprepared {e} : f.pc = .prepare → preparePc f.call = .raised e →
      Steps w f .go w (f.goto (.raised e))
  | offered {provider passengers reply} : f.pc = .createOrder provider passengers →
      offerPc provider passengers reply = .postOrder passengers →
      Steps w f (.offerReply reply)
        { w with createOrderCalls := w.createOrderCalls ++ [f.call.key] }
        { f with pc := .postOrder passengers, reachedProvider := true }
  | unoffered {provider passengers reply e} : f.pc = .createOrder provider passengers →
      offerPc provider passengers reply = .raised e →
      Steps w f (.offerReply reply)
        { w with createOrderCalls := w.createOrderCalls ++ [f.call.key] }
        { f with pc := .raised e, reachedProvider := true }
  | booked {passengers data created reply uuid now} : f.pc = .postOrder passengers →
      DuffelProvider.request reply = .ok data →
      Steps w f (.orderReply created reply uuid now)
        { w with
          ordersCreated := w.ordersCreated ++ [f.call.key]
          orderIds := w.orderIds ++ [data.id]
          eventIds := w.eventIds ++ [uuid] }
        { f with
          pc := .save
            ((DuffelProvider.mapOrder data passengers now).staged f.call.key uuid now.stagedAt)
          order := some (DuffelProvider.mapOrder data passengers now) }
  | unbooked {passengers created reply uuid now e ordersCreated} :
      f.pc = .postOrder passengers → DuffelProvider.request reply = .error e →
      (ordersCreated = w.ordersCreated ∨ ordersCreated = w.ordersCreated ++ [f.call.key]) →
      Steps w f (.orderReply created reply uuid now) { w with ordersCreated }
        (f.goto (.raised e))
  | stored {order orders} : f.pc = .save order →
      OrderRepository.save w.orders order = some orders →
      Steps w f .go { w with orders } (f.goto (.saved order))
  | lost {order key} : f.pc = .save order → OrderRepository.save w.orders order = none →
      f.call.key = some key → Steps w f .go w (f.goto .findWinner)
  | orphaned {order} : f.pc = .save order → OrderRepository.save w.orders order = none →
      f.call.key = none → Steps w f .go w (f.goto (.raised .duplicateKeyError))
  | findWinner {key pc} : f.pc = .findWinner → f.call.key = some key →
      FindsTo w key (.raised .duplicateKeyError) pc → Steps w f .go w (f.goto pc)
  | finished {order} : f.pc = .saved order → Steps w f .go w (f.goto (.returned order))
  | stopped {how} : ¬ f.pc.Ended → Steps w f (.stop how) w (f.goto how.pc)

theorem BookingFrame.Steps.call_eq {w w' : World} {f f' : BookingFrame}
    {choice : BookingChoice} (h : f.Steps w choice w' f') : f'.call = f.call := by
  cases h <;> rfl

/-- **Inversion of a step of `create_booking`.** -/
theorem BookingFrame.steps_of_step {w w' : World} {f f' : BookingFrame}
    {choice : BookingChoice} (h : f.step w choice = some (w', f')) :
    f.Steps w choice w' f' := by
  unfold BookingFrame.step at h
  split at h
  · -- start without a key
    rename_i hpc hk
    obtain ⟨rfl, rfl⟩ := Prod.mk.inj (Option.some.inj h)
    exact .startUnkeyed hpc hk
  · -- start with a key
    rename_i key hpc hk
    obtain ⟨rfl, rfl⟩ := Prod.mk.inj (Option.some.inj h)
    exact .find hpc hk (findsTo_findPc _ _ _)
  · -- reserve
    rename_i key hpc hk
    split at h
    · rename_i redis hset
      obtain ⟨hfree, rfl⟩ := Redis.setNx_eq_some.mp hset
      obtain ⟨rfl, rfl⟩ := Prod.mk.inj (Option.some.inj h)
      exact .reserved hpc hk hfree
    · rename_i hset
      obtain ⟨rfl, rfl⟩ := Prod.mk.inj (Option.some.inj h)
      exact .refused hpc hk (Redis.setNx_eq_none.mp hset)
  · -- reserve, Redis fails
    rename_i key executed hpc hk
    obtain ⟨rfl, rfl⟩ := Prod.mk.inj (Option.some.inj h)
    refine .redisDown hpc hk ?_
    split
    · exact Or.inr rfl
    · exact Or.inl rfl
  · -- findReserved
    rename_i key hpc hk
    obtain ⟨rfl, rfl⟩ := Prod.mk.inj (Option.some.inj h)
    exact .findReserved hpc hk (findsTo_findPc _ _ _)
  · -- prepare
    rename_i hpc
    obtain ⟨rfl, rfl⟩ := Prod.mk.inj (Option.some.inj h)
    rcases preparePc_cases f.call with ⟨e, he⟩ | ⟨provider, passengers, he⟩
    · rw [he]
      exact .unprepared hpc he
    · rw [he]
      exact .prepared hpc he
  · -- createOrder
    rename_i provider passengers reply hpc
    obtain ⟨rfl, rfl⟩ := Prod.mk.inj (Option.some.inj h)
    rcases offerPc_cases provider passengers reply with ⟨e, he⟩ | he
    · rw [he]
      exact .unoffered hpc he
    · rw [he]
      exact .offered hpc he
  · -- postOrder
    rename_i passengers created reply uuid now hpc
    split at h
    · rename_i e he
      obtain ⟨rfl, rfl⟩ := Prod.mk.inj (Option.some.inj h)
      refine .unbooked hpc he ?_
      split
      · exact Or.inr rfl
      · exact Or.inl rfl
    · rename_i data hdata
      obtain ⟨rfl, rfl⟩ := Prod.mk.inj (Option.some.inj h)
      exact .booked hpc hdata
  · -- save
    rename_i order hpc
    split at h
    · rename_i orders hsave
      obtain ⟨rfl, rfl⟩ := Prod.mk.inj (Option.some.inj h)
      exact .stored hpc hsave
    · rename_i hsave
      split at h
      · rename_i key hk
        obtain ⟨rfl, rfl⟩ := Prod.mk.inj (Option.some.inj h)
        exact .lost hpc hsave hk
      · rename_i hk
        obtain ⟨rfl, rfl⟩ := Prod.mk.inj (Option.some.inj h)
        exact .orphaned hpc hsave hk
  · -- findWinner
    rename_i key hpc hk
    obtain ⟨rfl, rfl⟩ := Prod.mk.inj (Option.some.inj h)
    exact .findWinner hpc hk (findsTo_findPc _ _ _)
  · -- saved
    rename_i order hpc
    obtain ⟨rfl, rfl⟩ := Prod.mk.inj (Option.some.inj h)
    exact .finished hpc
  · -- the call stops
    split at h
    · cases h
    · rename_i hend
      obtain ⟨rfl, rfl⟩ := Prod.mk.inj (Option.some.inj h)
      exact .stopped hend
  · cases h

end FlyDesk
