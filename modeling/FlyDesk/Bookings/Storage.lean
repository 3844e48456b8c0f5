/-
FlyDesk/Bookings/Storage.lean

The round trip of what is stored.  `OrderDoc.json` is the document of an order
as MongoDB has it, and `OrderRepository.load` reads it through the validators
of all its models; an offer goes to the cache as JSON text and comes back from
it.  Both come back as they were, apart from the amount of the total, which is
written with two places.

Two models are equal if their fields are, where two amounts are equal if they
have the same value, as Python compares decimals.  `storage_roundTrip_iff`
says when what comes back equals what was stored: just if the total is a whole
number of hundredths.  `not_storage_roundTrip_thirdPlace` is an amount with a
third place, which a currency with a thousandth as its minor unit has.
-/
import FlyDesk.Bookings.Repository
import FlyDesk.Domain.Serialization

namespace FlyDesk

open Lib

/-! ### Writing -/

/-- The string an `OrderStatus` serialises as. -/
def OrderStatus.value : OrderStatus → String
  | .pending => "pending"
  | .confirmed => "confirmed"
  | .ticketed => "ticketed"
  | .failed => "failed"
  | .cancelled => "cancelled"

/-- `OrderStatus(value)`. -/
def OrderStatus.ofValue : String → Option OrderStatus
  | "pending" => some .pending
  | "confirmed" => some .confirmed
  | "ticketed" => some .ticketed
  | "failed" => some .failed
  | "cancelled" => some .cancelled
  | _ => none

@[simp] theorem OrderStatus.ofValue_value (s : OrderStatus) : ofValue s.value = some s := by
  cases s <;> rfl

variable (T : IsoText)

def BookingPassenger.json (p : BookingPassenger) : Json := .obj
  [("type", .str p.type.value), ("title", .nullable .str p.title),
    ("gender", .nullable .str p.gender), ("given_name", .str p.givenName),
    ("family_name", .str p.familyName), ("born_on", .str (T.date p.bornOn)),
    ("email", .str p.email), ("phone_number", .str p.phoneNumber),
    ("provider_passenger_id", .nullable .str p.providerPassengerId)]

def OrderEvent.json (e : OrderEvent) : Json := .obj
  [("type", .str e.type), ("at", .str (T.dateTime e.occurredAt)),
    ("detail", .nullable .str e.detail)]

def MoneyDoc.json (m : MoneyDoc) : Json := .obj
  [("amount", .str m.amount), ("currency", .str m.currency)]

/-- A field of a document, left out if it is missing. -/
def fieldEntry {α : Type} (name : String) (enc : α → Json) : DocField α → Dict
  | .missing => []
  | .null => [(name, .null)]
  | .val a => [(name, enc a)]

@[simp] theorem fieldEntry_ofOption {α : Type} (name : String) (enc : α → Json)
    (o : Option α) : fieldEntry name enc (.ofOption o) = [(name, .nullable enc o)] := by
  cases o <;> rfl

def OutboxDoc.json (e : OutboxDoc) : Json := .obj <|
  [("id", .str e.id), ("type", .str e.type), ("payload", .obj e.payload),
    ("created_at", .str (T.dateTime e.createdAt))] ++
  fieldEntry "published_at" (fun t => .str (T.dateTime t)) e.publishedAt

/-- The document of an order: `model_dump` with `id` moved to `_id`. -/
def OrderDoc.json (d : OrderDoc) : Dict :=
  [("provider", .str d.provider.value), ("provider_order_id", .str d.providerOrderId),
    ("booking_reference", .nullable .str d.bookingReference), ("status", .str d.status.value),
    ("total", d.total.json), ("slices", .list (Slice.json T) d.slices),
    ("passengers", .list (BookingPassenger.json T) d.passengers)] ++
  (fieldEntry "idempotency_key" .str d.idempotencyKey ++
  [("created_at", .str (T.dateTime d.createdAt)), ("events", .list (OrderEvent.json T) d.events),
    ("outbox", .list (OutboxDoc.json T) d.outbox), ("_id", .str d.id)])

/-! ### Reading -/

variable (P : Pydantic)

def BookingPassenger.modelValidate : Decoder BookingPassenger := .model fun d =>
  if d.only ["type", "title", "gender", "given_name", "family_name", "born_on", "email",
      "phone_number", "provider_passenger_id"] then do
    let type ← defaulted (d.get? "type") .adult (Decoder.enum PassengerType.ofValue)
    let title ← defaulted (d.get? "title") none (Decoder.nullable Decoder.str)
    let gender ← defaulted (d.get? "gender") none (Decoder.nullable Decoder.str)
    let givenName ← required (d.get? "given_name") Decoder.str
    let familyName ← required (d.get? "family_name") Decoder.str
    let bornOn ← required (d.get? "born_on") P.readDate
    let email ← required (d.get? "email") Decoder.str
    let phoneNumber ← required (d.get? "phone_number") Decoder.str
    let providerPassengerId ← defaulted (d.get? "provider_passenger_id") none
      (Decoder.nullable Decoder.str)
    some
      { type, title, gender, givenName, familyName, bornOn, email, phoneNumber,
        providerPassengerId }
  else none

/-- `now` is the time of a field that is left out. -/
def OrderEvent.modelValidate (now : DateTime) : Decoder OrderEvent := .model fun d =>
  if d.only ["type", "at", "detail"] then do
    let type ← required (d.get? "type") Decoder.str
    let occurredAt ← defaulted (d.get? "at") now P.readDateTime
    let detail ← defaulted (d.get? "detail") none (Decoder.nullable Decoder.str)
    some { type, occurredAt, detail }
  else none

/-- An object as it is. -/
def readPayload : Decoder Dict
  | .obj entries => some entries
  | _ => none

def OutboxEvent.modelValidate (now : DateTime) : Decoder OutboxEvent := .model fun d => do
  let id ← required (d.get? "id") Decoder.str
  let type ← required (d.get? "type") Decoder.str
  let payload ← required (d.get? "payload") readPayload
  let createdAt ← defaulted (d.get? "created_at") now P.readDateTime
  let publishedAt ← defaulted (d.get? "published_at") none (Decoder.nullable P.readDateTime)
  some { id, type, payload, createdAt, publishedAt }

def Order.modelValidate (now : DateTime) : Decoder Order := .model fun d =>
  if d.only ["id", "provider", "provider_order_id", "booking_reference", "status", "total",
      "slices", "passengers", "idempotency_key", "created_at", "events", "outbox"] then do
    let id ← required (d.get? "id") Decoder.str
    let provider ← required (d.get? "provider") (Decoder.enum Provider.ofValue)
    let providerOrderId ← required (d.get? "provider_order_id") Decoder.str
    let bookingReference ← defaulted (d.get? "booking_reference") none
      (Decoder.nullable Decoder.str)
    let status ← defaulted (d.get? "status") .pending (Decoder.enum OrderStatus.ofValue)
    let total ← required (d.get? "total") (Money.modelValidate P)
    let slices ← required (d.get? "slices") (Decoder.list (Slice.modelValidate P))
    let passengers ← required (d.get? "passengers")
      (Decoder.list (BookingPassenger.modelValidate P))
    let idempotencyKey ← defaulted (d.get? "idempotency_key") none (Decoder.nullable Decoder.str)
    let createdAt ← defaulted (d.get? "created_at") now P.readDateTime
    let events ← defaulted (d.get? "events") [] (Decoder.list (OrderEvent.modelValidate P now))
    let outbox ← defaulted (d.get? "outbox") [] (Decoder.list (OutboxEvent.modelValidate P now))
    some
      { id, provider, providerOrderId, bookingReference, status, total, slices, passengers,
        idempotencyKey, createdAt, events, outbox }
  else none

namespace OrderRepository

/-- `_to_order`, on the document itself. -/
def readDocument (now : DateTime) (doc : Dict) : Except Exn Order :=
  match doc.get? "_id" with
  | none => .error .keyError
  | some id => validated <| Order.modelValidate P now <|
      .obj ((doc.filter fun e => e.1 != "_id") ++ [("id", id)])

/-- `get`, through the document. -/
def load (now : DateTime) (col : Collection OrderDoc) (orderId : String) :
    Except Exn (Option Order) :=
  match col.get orderId with
  | none => .ok none
  | some d => (readDocument P now (d.json T)).map some

end OrderRepository

/-! ### Valid orders -/

structure Order.Valid (o : Order) : Prop where
  total : o.total.Valid P
  slices : ∀ s ∈ o.slices, s.Valid P

/-- The document of an order with `_id` moved back to `id`. -/
def Order.fields (o : Order) : Dict :=
  [("provider", .str o.provider.value), ("provider_order_id", .str o.providerOrderId),
    ("booking_reference", .nullable .str o.bookingReference), ("status", .str o.status.value),
    ("total", o.total.json), ("slices", .list (Slice.json T) o.slices),
    ("passengers", .list (BookingPassenger.json T) o.passengers),
    ("idempotency_key", .nullable .str o.idempotencyKey),
    ("created_at", .str (T.dateTime o.createdAt)), ("events", .list (OrderEvent.json T) o.events),
    ("outbox", .list (fun e => e.modelDump.json T) o.outbox), ("id", .str o.id)]

/-- Moving `_id` back gives the fields of the dump. -/
theorem OrderDoc.json_modelDump (o : Order) :
    (o.modelDump.json T).get? "_id" = some (.str o.id) ∧
      ((o.modelDump.json T).filter fun e => e.1 != "_id") ++ [("id", .str o.id)] = o.fields T := by
  have hmoney : o.total.modelDump.json = o.total.json := rfl
  have henc : Json.list (OutboxDoc.json T) (o.outbox.map OutboxEvent.modelDump) =
      Json.list (fun e => e.modelDump.json T) o.outbox := by
    simp [Json.list]
  rw [Order.modelDump, OrderDoc.json, henc, hmoney]
  simp only [fieldEntry_ofOption]
  exact ⟨rfl, rfl⟩

section RoundTrip

variable {P T} (hP : P.Lawful T)
include hP

theorem BookingPassenger.modelValidate_json (p : BookingPassenger) :
    BookingPassenger.modelValidate P (p.json T) = some p := by
  simp [BookingPassenger.modelValidate, BookingPassenger.json, Dict.only, required, defaulted,
    Decoder.enum, hP.date]

theorem OrderEvent.modelValidate_json (now : DateTime) (e : OrderEvent) :
    OrderEvent.modelValidate P now (e.json T) = some e := by
  simp [OrderEvent.modelValidate, OrderEvent.json, Dict.only, required, defaulted, hP.dateTime]

theorem OutboxEvent.modelValidate_json (now : DateTime) (e : OutboxEvent) :
    OutboxEvent.modelValidate P now (e.modelDump.json T) = some e := by
  simp [OutboxEvent.modelValidate, OutboxEvent.modelDump, OutboxDoc.json, required, defaulted,
    readPayload, hP.dateTime, hP.nullable_dateTime]

/-- **An order is read back from its document, its total rounded.** -/
theorem OrderRepository.readDocument_json (now : DateTime) {o : Order} (h : o.Valid P) :
    readDocument P now (o.modelDump.json T) = .ok { o with total := o.total.stored } := by
  have htotal := Money.modelValidate_json hP h.total
  have hslices := slices_modelValidate hP h.slices
  have hpassengers : Decoder.list (BookingPassenger.modelValidate P)
      (Json.list (BookingPassenger.json T) o.passengers) = some o.passengers :=
    Decoder.list_list_self fun p _ => BookingPassenger.modelValidate_json hP p
  have hevents : Decoder.list (OrderEvent.modelValidate P now)
      (Json.list (OrderEvent.json T) o.events) = some o.events :=
    Decoder.list_list_self fun e _ => OrderEvent.modelValidate_json hP now e
  have houtbox : Decoder.list (OutboxEvent.modelValidate P now)
      (Json.list (fun e => e.modelDump.json T) o.outbox) = some o.outbox :=
    Decoder.list_list_self fun e _ => OutboxEvent.modelValidate_json hP now e
  -- the entries of the object, looked up one by one
  obtain ⟨hid, hfields⟩ := OrderDoc.json_modelDump T o
  have honly : (o.fields T).only ["id", "provider", "provider_order_id", "booking_reference",
      "status", "total", "slices", "passengers", "idempotency_key", "created_at", "events",
      "outbox"] = true := rfl
  have hget : (o.fields T).get? "id" = some (.str o.id) ∧
      (o.fields T).get? "provider" = some (.str o.provider.value) ∧
      (o.fields T).get? "provider_order_id" = some (.str o.providerOrderId) ∧
      (o.fields T).get? "booking_reference" = some (.nullable .str o.bookingReference) ∧
      (o.fields T).get? "status" = some (.str o.status.value) ∧
      (o.fields T).get? "total" = some o.total.json ∧
      (o.fields T).get? "slices" = some (.list (Slice.json T) o.slices) ∧
      (o.fields T).get? "passengers" = some (.list (BookingPassenger.json T) o.passengers) ∧
      (o.fields T).get? "idempotency_key" = some (.nullable .str o.idempotencyKey) ∧
      (o.fields T).get? "created_at" = some (.str (T.dateTime o.createdAt)) ∧
      (o.fields T).get? "events" = some (.list (OrderEvent.json T) o.events) ∧
      (o.fields T).get? "outbox" = some (.list (fun e => e.modelDump.json T) o.outbox) :=
    ⟨rfl, rfl, rfl, rfl, rfl, rfl, rfl, rfl, rfl, rfl, rfl, rfl⟩
  rw [readDocument, hid]
  show validated (Order.modelValidate P now (.obj (_ ++ _))) = _
  rw [hfields, validated_eq_ok, Order.modelValidate, Decoder.model_obj, if_pos honly]
  simp [hget, required, defaulted, Decoder.enum, htotal, hslices, hpassengers, hevents, houtbox,
    hP.dateTime]

/-- A save is refused just if another order has the idempotency key; two
orders without one have the same. -/
theorem OrderRepository.load_save (now : DateTime) {o : Order} (h : o.Valid P)
    (col : Collection OrderDoc) :
    (∃ d ∈ col.docs, d.id ≠ o.id ∧ Conflict d o.modelDump) ∨
      ∃ col', save col o = some col' ∧
        load T P now col' o.id = .ok (some { o with total := o.total.stored }) := by
  rcases e : save col o with - | col'
  · exact Or.inl (Collection.replaceOne_eq_none.mp e)
  · refine Or.inr ⟨col', rfl, ?_⟩
    have hget : col'.get o.id = some o.modelDump := by
      rw [Collection.get_replaceOne e]
      exact if_pos rfl
    rw [load, hget]
    show (readDocument P now (o.modelDump.json T)).map some = _
    rw [readDocument_json hP now h]
    rfl

/-- Where every document is the dump of a valid order, reading it through the
validators is reading its total and nothing else. -/
theorem OrderRepository.load_eq_get (now : DateTime) {col : Collection OrderDoc}
    (hcol : ∀ d ∈ col.docs, ∃ o : Order, o.Valid P ∧ o.modelDump = d) (orderId : String) :
    load T P now col orderId = get col orderId := by
  rcases e : col.get orderId with - | d
  · rw [load, get, e]
    rfl
  · obtain ⟨o, ho, rfl⟩ := hcol d (Collection.get_eq_some.mp e).1
    rw [load, get, e]
    show (readDocument P now (o.modelDump.json T)).map some = o.modelDump.toOrder.map some
    rw [readDocument_json hP now ho, o.toOrder_modelDump]

end RoundTrip

/-! ### Equality -/

/-- `==` on amounts of money: amounts of the same value are equal. -/
structure Money.Equals (a b : Money) : Prop where
  amount : a.amount.value = b.amount.value
  currency : a.currency = b.currency

/-- `==` on orders. -/
structure Order.Equals (a b : Order) : Prop where
  total : a.total.Equals b.total
  rest : { a with total := b.total } = b

/-- `==` on offers. -/
structure Offer.Equals (a b : Offer) : Prop where
  total : a.total.Equals b.total
  rest : { a with total := b.total } = b

/-- The amount is a whole number of hundredths. -/
def Money.WholeHundredths (m : Money) : Prop := ∃ k : ℤ, m.amount.value * 10 ^ 2 = k

theorem Money.stored_equals_iff {m : Money} : m.stored.Equals m ↔ m.WholeHundredths := by
  rw [Money.WholeHundredths, ← Decimal.value_quantize_iff]
  exact ⟨Money.Equals.amount, fun h => ⟨h, rfl⟩⟩

theorem Order.stored_equals_iff {o : Order} :
    ({ o with total := o.total.stored } : Order).Equals o ↔ o.total.WholeHundredths := by
  rw [← Money.stored_equals_iff]
  exact ⟨Order.Equals.total, fun h => ⟨h, rfl⟩⟩

theorem Offer.stored_equals_iff {o : Offer} :
    ({ o with total := o.total.stored } : Offer).Equals o ↔ o.total.WholeHundredths := by
  rw [← Money.stored_equals_iff]
  exact ⟨Offer.Equals.total, fun h => ⟨h, rfl⟩⟩

variable {P T}

/-- A booking for an amount of money. -/
def Sample.priced (total : Money) : Order where
  id := "order-1"
  provider := .duffel
  providerOrderId := "ord_1"
  bookingReference := none
  status := .confirmed
  total := total
  slices := []
  passengers := []
  idempotencyKey := none
  createdAt := Sample.bookedAt
  events := []
  outbox := []

/-- **The storage round trip.**  An order that is saved and loaded, and an
offer that goes through its JSON text, come back equal just if the total is a
whole number of hundredths. -/
theorem storage_roundTrip_iff (hP : P.Lawful T) (now : DateTime) {o : Order} (ho : o.Valid P)
    {offer : Offer} (hoffer : offer.Valid P) :
    (∀ col : Collection OrderDoc,
      (∃ d ∈ col.docs, d.id ≠ o.id ∧ Conflict d o.modelDump) ∨
        ∃ col', OrderRepository.save col o = some col' ∧
          ((∃ o', OrderRepository.load T P now col' o.id = .ok (some o') ∧ o'.Equals o) ↔
            o.total.WholeHundredths)) ∧
      ((∃ offer', (jsonLoads (jsonDumps (offer.json T))).bind (Offer.modelValidate P) =
          some offer' ∧ offer'.Equals offer) ↔ offer.total.WholeHundredths) := by
  refine ⟨fun col => ?_, ?_⟩
  · rcases OrderRepository.load_save hP now ho col with hclash | ⟨col', hsave, hload⟩
    · exact Or.inl hclash
    · refine Or.inr ⟨col', hsave, ?_⟩
      rw [hload, ← Order.stored_equals_iff]
      simp
  · rw [jsonLoads_jsonDumps offer.plain_json, Option.bind_some, Offer.modelValidate_json hP hoffer,
      ← Offer.stored_equals_iff]
    simp

/-- Amounts in pounds and pence come back as they were. -/
theorem storage_roundTrip_pence :
    let total : Money := { amount := ⟨false, 12050, -2⟩, currency := "GBP" }
    (∃ col', OrderRepository.save Collection.empty (Sample.priced total) = some col' ∧
      ∃ o', OrderRepository.load Sample.iso Sample.isoPydantic Sample.bookedAt col' "order-1" =
        .ok (some o') ∧ o'.Equals (Sample.priced total)) ∧
    ∃ offer', (jsonLoads (jsonDumps ((Sample.fare total).json Sample.iso))).bind
      (Offer.modelValidate Sample.isoPydantic) = some offer' ∧
        offer'.Equals (Sample.fare total) := by
  intro total
  have hmoney : total.Valid Sample.isoPydantic := ⟨"GBP", by decide⟩
  have hwhole : total.WholeHundredths := ⟨12050, by decide +kernel⟩
  obtain ⟨horder, hoffer⟩ := storage_roundTrip_iff Sample.isoPydantic_lawful Sample.bookedAt
    (o := Sample.priced total) ⟨hmoney, nofun⟩ (Sample.valid_fare hmoney)
  refine ⟨?_, hoffer.mpr hwhole⟩
  rcases horder Collection.empty with ⟨d, hd, -⟩ | ⟨col', hsave, hload⟩
  · cases hd
  · exact ⟨col', hsave, hload.mpr hwhole⟩

/-- A total of 10.125 Kuwaiti dinars comes back as 10.12, in an order and in an offer. -/
theorem not_storage_roundTrip_thirdPlace :
    let total : Money := { amount := ⟨false, 10125, -3⟩, currency := "KWD" }
    (Sample.priced total).Valid Sample.isoPydantic ∧ (Sample.fare total).Valid Sample.isoPydantic ∧
      (∃ col', OrderRepository.save Collection.empty (Sample.priced total) = some col' ∧
        ¬ ∃ o', OrderRepository.load Sample.iso Sample.isoPydantic Sample.bookedAt col' "order-1" =
          .ok (some o') ∧ o'.Equals (Sample.priced total)) ∧
      ¬ ∃ offer', (jsonLoads (jsonDumps ((Sample.fare total).json Sample.iso))).bind
        (Offer.modelValidate Sample.isoPydantic) = some offer' ∧
          offer'.Equals (Sample.fare total) := by
  intro total
  have hmoney : total.Valid Sample.isoPydantic := ⟨"KWD", by decide⟩
  have hvalid : (Sample.priced total).Valid Sample.isoPydantic := ⟨hmoney, nofun⟩
  have hfare := Sample.valid_fare hmoney
  refine ⟨hvalid, hfare, ?_, ?_⟩
  · rcases OrderRepository.load_save Sample.isoPydantic_lawful Sample.bookedAt hvalid
      Collection.empty with ⟨d, hd, -⟩ | ⟨col', hsave, hload⟩
    · cases hd
    · refine ⟨col', hsave, ?_⟩
      rintro ⟨o', ho', heq⟩
      obtain rfl := Option.some.inj (Except.ok.inj (hload.symm.trans ho'))
      exact absurd heq.total.amount (by decide +kernel)
  · rw [jsonLoads_jsonDumps (Sample.fare total).plain_json, Option.bind_some,
      Offer.modelValidate_json Sample.isoPydantic_lawful hfare]
    rintro ⟨offer', hoffer', heq⟩
    obtain rfl := Option.some.inj hoffer'
    exact absurd heq.total.amount (by decide +kernel)

end FlyDesk
