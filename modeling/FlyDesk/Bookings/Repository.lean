/-
FlyDesk/Bookings/Repository.lean

Order persistence.  An order is stored as one document: `Order.modelDump` is
the document `OrderRepository.save` writes and `OrderDoc.toOrder` is the way
back.  Two details of the document matter to everything built on it:

* the dump writes every field, so an absent idempotency key or publication
  time is stored as null, not left out;
* an amount is stored as text with two digits after the point, so what is
  read back is the rounded amount.  Rounding again changes nothing, hence a
  document that is read and written back unmodified stays as it was
  (`modelDump_toOrder`).

The validators of the models leave values alone that they have normalised
before, and only `save` writes documents, so reading a document checks the
text of the amount and nothing else.

`OrderDoc.core` is what no process ever changes in a stored document: all of
it but the status, the history and the publication times.
-/
import FlyDesk.Lib.DocStore
import FlyDesk.Lib.Raises
import FlyDesk.Domain.Models
import FlyDesk.Common.Exceptions

namespace FlyDesk

open Lib

/-! ### The document -/

/-- `Money` in JSON. -/
structure MoneyDoc where
  amount : String
  currency : String
deriving DecidableEq, Repr

/-- An entry of the stored outbox. -/
structure OutboxDoc where
  id : String
  type : String
  payload : Dict
  createdAt : DateTime
  publishedAt : DocField DateTime

/-- The document of an order; `id` is its `_id`. -/
structure OrderDoc where
  id : String
  provider : Provider
  providerOrderId : String
  bookingReference : Option String
  status : OrderStatus
  total : MoneyDoc
  slices : List Slice
  passengers : List BookingPassenger
  idempotencyKey : DocField String
  createdAt : DateTime
  events : List OrderEvent
  outbox : List OutboxDoc

/-- The collection `orders` under its unique sparse index
`uniq_idempotency_key`. -/
instance : Document OrderDoc String String where
  docId := OrderDoc.id
  indexed := OrderDoc.idempotencyKey

@[simp] theorem docId_orderDoc (d : OrderDoc) : Document.docId d = d.id := rfl

@[simp] theorem indexed_orderDoc (d : OrderDoc) :
    Document.indexed d = d.idempotencyKey := rfl

/-! ### Writing and reading -/

def Money.modelDump (m : Money) : MoneyDoc where
  amount := String.ofList (m.amount.format 2)
  currency := m.currency

def OutboxEvent.modelDump (e : OutboxEvent) : OutboxDoc where
  id := e.id
  type := e.type
  payload := e.payload
  createdAt := e.createdAt
  publishedAt := DocField.ofOption e.publishedAt

/-- `order.model_dump(mode="json")` with `id` moved to `_id`. -/
def Order.modelDump (o : Order) : OrderDoc where
  id := o.id
  provider := o.provider
  providerOrderId := o.providerOrderId
  bookingReference := o.bookingReference
  status := o.status
  total := o.total.modelDump
  slices := o.slices
  passengers := o.passengers
  idempotencyKey := DocField.ofOption o.idempotencyKey
  createdAt := o.createdAt
  events := o.events
  outbox := o.outbox.map OutboxEvent.modelDump

def MoneyDoc.validate (d : MoneyDoc) : Except Exn Money :=
  match Decimal.parse d.amount.toList with
  | some amount => .ok { amount, currency := d.currency }
  | none => .error .validationError

def OutboxDoc.validate (d : OutboxDoc) : OutboxEvent where
  id := d.id
  type := d.type
  payload := d.payload
  createdAt := d.createdAt
  publishedAt := d.publishedAt.toOption

/-- The order of a document whose total reads as `total`. -/
def OrderDoc.withTotal (d : OrderDoc) (total : Money) : Order where
  id := d.id
  provider := d.provider
  providerOrderId := d.providerOrderId
  bookingReference := d.bookingReference
  status := d.status
  total := total
  slices := d.slices
  passengers := d.passengers
  idempotencyKey := d.idempotencyKey.toOption
  createdAt := d.createdAt
  events := d.events
  outbox := d.outbox.map OutboxDoc.validate

/-- `OrderRepository._to_order`. -/
def OrderDoc.toOrder (d : OrderDoc) : Except Exn Order :=
  d.total.validate.map d.withTotal

theorem OrderDoc.toOrder_eq_ok {d : OrderDoc} {o : Order} :
    d.toOrder = .ok o ↔ ∃ total, d.total.validate = .ok total ∧ d.withTotal total = o := by
  rcases h : d.total.validate with e | total <;> simp [OrderDoc.toOrder, h, Except.map]

theorem OrderDoc.toOrder_error {d : OrderDoc} {e : Exn} (h : d.toOrder = .error e) :
    e = .validationError := by
  rcases hp : Decimal.parse d.total.amount.toList with - | a
  · simp [OrderDoc.toOrder, MoneyDoc.validate, hp, Except.map] at h
    exact h.symm
  · simp [OrderDoc.toOrder, MoneyDoc.validate, hp, Except.map] at h

/-! ### Reading back what was written -/

theorem Money.validate_modelDump (m : Money) : m.modelDump.validate = .ok m.stored := by
  simp [Money.modelDump, MoneyDoc.validate, Decimal.parse_format, Money.stored]

theorem Money.modelDump_stored (m : Money) : m.stored.modelDump = m.modelDump := by
  simp [Money.modelDump, Money.stored, Decimal.format_quantize]

@[simp] theorem OutboxEvent.validate_modelDump (e : OutboxEvent) :
    e.modelDump.validate = e := by
  simp [OutboxEvent.modelDump, OutboxDoc.validate]

/-- A stored order is read back, with its total rounded. -/
theorem Order.toOrder_modelDump (o : Order) :
    o.modelDump.toOrder = .ok { o with total := o.total.stored } := by
  refine OrderDoc.toOrder_eq_ok.mpr ⟨o.total.stored, o.total.validate_modelDump, ?_⟩
  simp [OrderDoc.withTotal, Order.modelDump, Function.comp_def]

/-- The documents `save` writes. -/
def OrderDoc.Written (d : OrderDoc) : Prop :=
  ∃ o : Order, o.modelDump = d

theorem Order.written_modelDump (o : Order) : o.modelDump.Written := ⟨o, rfl⟩

/-- A written document can be read. -/
theorem OrderDoc.Written.toOrder_ok {d : OrderDoc} (h : d.Written) :
    ∃ o, d.toOrder = .ok o := by
  obtain ⟨o, rfl⟩ := h
  exact ⟨_, o.toOrder_modelDump⟩

/-- **Writing back an unmodified order leaves its document as it was.** -/
theorem OrderDoc.Written.modelDump_toOrder {d : OrderDoc} {o : Order} (h : d.Written)
    (ho : d.toOrder = .ok o) : o.modelDump = d := by
  obtain ⟨o', rfl⟩ := h
  rw [Order.toOrder_modelDump] at ho
  obtain rfl := Except.ok.inj ho
  have ht := o'.total.modelDump_stored
  simp only [Order.modelDump]
  rw [ht]

/-! ### What stays as it was booked -/

/-- An outbox entry without its publication time. -/
def OutboxDoc.core (e : OutboxDoc) : OutboxDoc :=
  { e with publishedAt := .missing }

/-- The document without its status, its history and its publication
times. -/
def OrderDoc.core (d : OrderDoc) : OrderDoc :=
  { d with status := .pending, events := [], outbox := d.outbox.map OutboxDoc.core }

/-- The outbox events without their publication times. -/
def OutboxEvent.core (e : OutboxEvent) : OutboxDoc :=
  e.modelDump.core

/-- Changing the status, the history and the publication times of an order
leaves the core of its document. -/
theorem Order.core_modelDump_update (o : Order) (status : OrderStatus)
    (events : List OrderEvent) {outbox : List OutboxEvent}
    (h : outbox.map OutboxEvent.core = o.outbox.map OutboxEvent.core) :
    ({ o with status, events, outbox } : Order).modelDump.core = o.modelDump.core := by
  have h' : (outbox.map OutboxEvent.modelDump).map OutboxDoc.core
      = (o.outbox.map OutboxEvent.modelDump).map OutboxDoc.core := by
    rw [List.map_map, List.map_map]
    exact h
  simp only [Order.modelDump, OrderDoc.core]
  rw [h']

/-- The entry has a publication time. -/
def OutboxDoc.Published (e : OutboxDoc) : Prop :=
  e.publishedAt.toOption ≠ none

instance (e : OutboxDoc) : Decidable e.Published :=
  inferInstanceAs (Decidable (_ ≠ none))

/-! ### The repository -/

namespace OrderRepository

/-- The order of the document a query found, if it found one. -/
def read : Option OrderDoc → Except Exn (Option Order)
  | none => .ok none
  | some d => d.toOrder.map some

theorem read_eq_some {found : Option OrderDoc} {o : Order}
    (h : read found = .ok (some o)) : ∃ d, found = some d ∧ d.toOrder = .ok o := by
  rcases found with - | d
  · simp [read] at h
  · rcases ho : d.toOrder with e | o'
    · simp [read, ho, Except.map] at h
    · exact ⟨d, rfl, by simpa [read, ho, Except.map] using h⟩

theorem read_eq_none {found : Option OrderDoc} (h : read found = .ok none) :
    found = none := by
  rcases found with - | d
  · rfl
  · rcases ho : d.toOrder with e | o' <;> simp [read, ho, Except.map] at h

theorem read_eq_error {found : Option OrderDoc} {e : Exn} (h : read found = .error e) :
    ∃ d, found = some d ∧ d.toOrder = .error e := by
  rcases found with - | d
  · simp [read] at h
  · rcases ho : d.toOrder with e' | o'
    · exact ⟨d, rfl, by simpa [read, ho, Except.map] using h⟩
    · simp [read, ho, Except.map] at h

variable (col : Collection OrderDoc)

/-- `save`; `none` is pymongo's `DuplicateKeyError`. -/
def save (order : Order) : Option (Collection OrderDoc) :=
  col.replaceOne order.modelDump

def get (orderId : String) : Except Exn (Option Order) :=
  read (col.get orderId)

def findByIdempotencyKey (key : String) : Except Exn (Option Order) :=
  read (col.findIndexed key)

/-- The query of `find_with_unpublished_outbox`: some outbox entry has no
publication time.  A null and a missing field both match. -/
def hasUnpublished (d : OrderDoc) : Bool :=
  d.outbox.any fun e => e.publishedAt.toOption.isNone

/-- `find_with_unpublished_outbox` with its default limit, where the database
picked the documents `ids`. -/
def findWithUnpublishedOutbox (ids : List String) : Except Exn (List Order) :=
  (col.getAll ids).mapM OrderDoc.toOrder

/-- The documents the query may return. -/
def UnpublishedBatch (ids : List String) : Prop :=
  col.FindResult hasUnpublished 100 ids

instance (ids : List String) : Decidable (UnpublishedBatch col ids) :=
  inferInstanceAs (Decidable (Collection.FindResult _ _ _ _))

variable {col}

theorem get_eq_some {orderId : String} {o : Order} (h : get col orderId = .ok (some o)) :
    ∃ d ∈ col.docs, d.id = orderId ∧ d.toOrder = .ok o := by
  obtain ⟨d, hd, ho⟩ := read_eq_some h
  obtain ⟨hmem, hid⟩ := Collection.get_eq_some.mp hd
  exact ⟨d, hmem, hid, ho⟩

theorem get_eq_none {orderId : String} (h : get col orderId = .ok none) :
    ∀ d ∈ col.docs, d.id ≠ orderId :=
  Collection.get_eq_none.mp (read_eq_none h)

theorem get_eq_error {orderId : String} {e : Exn} (h : get col orderId = .error e) :
    ∃ d ∈ col.docs, d.toOrder = .error e := by
  obtain ⟨d, hd, ho⟩ := read_eq_error h
  exact ⟨d, (Collection.get_eq_some.mp hd).1, ho⟩

theorem find_eq_some {key : String} {o : Order}
    (h : findByIdempotencyKey col key = .ok (some o)) :
    ∃ d ∈ col.docs, d.idempotencyKey = .val key ∧ d.toOrder = .ok o := by
  obtain ⟨d, hd, ho⟩ := read_eq_some h
  obtain ⟨hmem, hkey⟩ := Collection.findIndexed_eq_some.mp hd
  exact ⟨d, hmem, hkey, ho⟩

theorem find_eq_none {key : String} (h : findByIdempotencyKey col key = .ok none) :
    ∀ d ∈ col.docs, d.idempotencyKey ≠ .val key :=
  Collection.findIndexed_eq_none.mp (read_eq_none h)

theorem find_eq_error {key : String} {e : Exn}
    (h : findByIdempotencyKey col key = .error e) :
    ∃ d ∈ col.docs, d.toOrder = .error e := by
  obtain ⟨d, hd, ho⟩ := read_eq_error h
  exact ⟨d, (Collection.findIndexed_eq_some.mp hd).1, ho⟩

/-- A save carries over every document, as the relation of the replaced one
says. -/
theorem save_relates {R : OrderDoc → OrderDoc → Prop} (hrefl : ∀ d, R d d)
    {col col' : Collection OrderDoc} {o : Order} (hsave : save col o = some col')
    (hR : ∀ d ∈ col.docs, d.id = o.id → R d o.modelDump) :
    ∀ d ∈ col.docs, ∃ d' ∈ col'.docs, R d d' := by
  intro d hd
  by_cases hid : d.id = o.id
  · exact ⟨o.modelDump, (Collection.mem_replaceOne hsave).mpr (Or.inl rfl), hR d hd hid⟩
  · exact ⟨d, (Collection.mem_replaceOne hsave).mpr (Or.inr ⟨hd, hid⟩), hrefl d⟩

/-- Every order of a batch is read from a stored document. -/
theorem mem_batch {ids : List String} {os : List Order}
    (h : findWithUnpublishedOutbox col ids = .ok os) {o : Order} (ho : o ∈ os) :
    ∃ d ∈ col.docs, d.toOrder = .ok o := by
  obtain ⟨d, hd, hdo⟩ := exists_of_mapM h ho
  exact ⟨d, Collection.mem_getAll hd, hdo⟩

end OrderRepository

end FlyDesk
