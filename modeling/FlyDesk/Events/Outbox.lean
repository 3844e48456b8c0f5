/-
FlyDesk/Events/Outbox.lean

The transactional outbox over whole runs.  Bookings stage one event with
each order they store; relays and workers later write whole documents back
from what they once loaded.  None of them changes the core of a document (all
but status, history and publication times), so a stale write, an aborted pass
or a second publication cannot lose or invent an event.

The invariant couples the store, the log and the memory of every process:

* every stored document is booked: its outbox is one confirmation naming it;
* every confirmation in the log is of a stored document;
* whatever has a publication time, in the store or in memory, is in the log;
* whatever a process has loaded has the core of the stored document.
-/
import FlyDesk.Events.System

namespace FlyDesk

open Lib

/-! ### Booked documents -/

/-- The value of the message about an outbox entry. -/
def OutboxDoc.value (e : OutboxDoc) : EventValue where
  id := e.id
  type := e.type
  payload := e.payload

/-- The message that confirms an order. -/
def confirmation (orderId : String) (value : EventValue) : Message where
  topic := Topic.bookingsConfirmed
  key := some orderId
  value := value

/-! The core has everything the message names. -/

@[simp] theorem OutboxDoc.value_core (e : OutboxDoc) : e.core.value = e.value := rfl

@[simp] theorem OutboxDoc.type_core (e : OutboxDoc) : e.core.type = e.type := rfl

@[simp] theorem OutboxDoc.payload_core (e : OutboxDoc) : e.core.payload = e.payload := rfl

@[simp] theorem OutboxEvent.value_core (e : OutboxEvent) : e.core.value = e.value := rfl

@[simp] theorem OrderDoc.id_core (d : OrderDoc) : d.core.id = d.id := rfl

@[simp] theorem OrderDoc.outbox_core (d : OrderDoc) :
    d.core.outbox = d.outbox.map OutboxDoc.core := rfl

@[simp] theorem OrderDoc.confirmedPayload_core (d : OrderDoc) :
    d.core.confirmedPayload = d.confirmedPayload := rfl

theorem OutboxDoc.value_eq_of_core {e e' : OutboxDoc} (h : e'.core = e.core) :
    e'.value = e.value := by
  rw [← e'.value_core, h, e.value_core]

theorem OrderDoc.id_eq_of_core {d d' : OrderDoc} (h : d'.core = d.core) : d'.id = d.id := by
  rw [← d'.id_core, h, d.id_core]

theorem OrderDoc.outbox_eq_of_core {d d' : OrderDoc} (h : d'.core = d.core) :
    d'.outbox.map OutboxDoc.core = d.outbox.map OutboxDoc.core := by
  rw [← d'.outbox_core, h, d.outbox_core]

/-- An entry of one document is an entry of any other with its core. -/
theorem OrderDoc.mem_outbox_of_core {d d' : OrderDoc} (h : d'.core = d.core) {e : OutboxDoc}
    (he : e ∈ d.outbox) : ∃ e' ∈ d'.outbox, e'.core = e.core := by
  have hmem : e.core ∈ d'.outbox.map OutboxDoc.core := by
    rw [OrderDoc.outbox_eq_of_core h]
    exact List.mem_map_of_mem he
  obtain ⟨e', he', hcore⟩ := List.mem_map.mp hmem
  exact ⟨e', he', hcore⟩

theorem OrderDoc.Booked.of_core {d d' : OrderDoc} (h : d'.core = d.core) (hd : d.Booked) :
    d'.Booked := by
  obtain ⟨e, he, htype, hpayload⟩ := hd
  have hout := OrderDoc.outbox_eq_of_core h
  rw [he] at hout
  obtain ⟨e', he', hcore⟩ := List.map_eq_singleton_iff.mp hout
  refine ⟨e', he', ?_, ?_⟩
  · rw [← e'.type_core, hcore, e.type_core, htype]
  · rw [← e'.payload_core, hcore, e.payload_core, hpayload, ← d'.confirmedPayload_core, h,
      d.confirmedPayload_core]

/-- What a call stages is a booked document with nothing published. -/
theorem Order.booked_staged (data : DuffelProvider.OrderData)
    (passengers : List BookingPassenger) (key : Option IdempotencyKey) (uuid : String)
    (now : DuffelProvider.OrderClock) :
    ((DuffelProvider.mapOrder data passengers now).staged key uuid
        now.stagedAt).modelDump.Booked ∧
      ∀ e ∈ ((DuffelProvider.mapOrder data passengers now).staged key uuid now.stagedAt).outbox,
        e.publishedAt = none := by
  refine ⟨Order.staged_booked, fun e he => ?_⟩
  obtain rfl := List.mem_singleton.mp he
  rfl

/-- The message `relay_once` publishes for an event of a booked document. -/
theorem message_eq_confirmation {d : OrderDoc} (hd : d.Booked) {event : OutboxEvent}
    (he : event.core ∈ d.outbox.map OutboxDoc.core) (orderId : String) :
    event.message orderId = confirmation d.id event.value := by
  obtain ⟨e, hout, htype, hpayload⟩ := hd
  rw [hout, List.map_singleton, List.mem_singleton] at he
  have htype' : event.type = "BookingConfirmed" := by
    rw [← htype, ← e.type_core, ← he]
    rfl
  have hpayload' : event.payload = d.confirmedPayload := by
    rw [← hpayload, ← e.payload_core, ← he]
    rfl
  rw [OutboxEvent.message, confirmation, htype', hpayload']
  rfl

/-! ### The invariant -/

/-- Store and log. -/
structure World.Faithful (w : World) : Prop where
  written : ∀ d ∈ w.orders.docs, d.Written
  booked : ∀ d ∈ w.orders.docs, d.Booked
  confirmed : ∀ m ∈ w.published, m.value.type = "BookingConfirmed" →
    ∃ d ∈ w.orders.docs, ∃ e ∈ d.outbox, m = confirmation d.id e.value
  stamped : ∀ d ∈ w.orders.docs, ∀ e ∈ d.outbox, e.Published →
    confirmation d.id e.value ∈ w.published
  routed : ∀ m ∈ w.published, m.topic = Topic.topicFor m.value.type

/-- The order has the core of a stored document, and what is published of it
is in the log. -/
structure SameCore (w : World) (o : Order) : Prop where
  core : ∃ d ∈ w.orders.docs, d.core = o.modelDump.core
  stamped : ∀ e ∈ o.outbox, e.publishedAt ≠ none →
    confirmation o.id e.value ∈ w.published

/-- Memory: an order in flight is new and booked, a loaded one has the core of
its document, and what a pass has stamped is in the log. -/
structure Proc.Faithful (w : World) (p : Proc) : Prop where
  inFlight : ∀ call, p = .booking call → call.InFlight w
  staged : ∀ call st, p = .booking call → call.pc = .save st →
    st.modelDump.Booked ∧ ∀ e ∈ st.outbox, e.publishedAt = none
  loaded : ∀ o ∈ p.loaded, SameCore w o
  inOrder : p.InOrder
  done : ∀ order done todo changed rest n,
    p = .relay (.events order done todo changed rest n) →
      ∀ e ∈ done ++ todo, e.publishedAt ≠ none → confirmation order.id e.value ∈ w.published

/-- Two calls save different orders. -/
def Proc.Apart (p q : Proc) : Prop :=
  ∀ f g, p = .booking f → q = .booking g → f.Apart g

/-- Documents keep their cores, and the log grows. -/
structure World.Grows (w w' : World) : Prop where
  docs : ∀ d ∈ w.orders.docs, ∃ d' ∈ w'.orders.docs, d'.core = d.core
  published : w.published <+: w'.published

/-- The ids of new orders are fresh at a step of a process. -/
def ProcChoice.Fresh (w : World) : ProcChoice → Prop
  | .booking choice => FreshOrder w choice
  | _ => True

variable {w w' : World} {p p' q : Proc} {choice : ProcChoice}

theorem SameCore.mono {o : Order} (h : w.Grows w') (ho : SameCore w o) : SameCore w' o := by
  obtain ⟨d, hd, hcore⟩ := ho.core
  obtain ⟨d', hd', hcore'⟩ := h.docs d hd
  exact ⟨⟨d', hd', hcore'.trans hcore⟩,
    fun e he hpub => h.published.subset (ho.stamped e he hpub)⟩

/-- An order read from the store. -/
theorem sameCore_of_read (hw : w.Faithful) {d : OrderDoc} {o : Order}
    (hd : d ∈ w.orders.docs) (ho : d.toOrder = .ok o) : SameCore w o := by
  have hdump := (hw.written d hd).modelDump_toOrder ho
  refine ⟨⟨d, hd, congrArg OrderDoc.core hdump.symm⟩, fun e he hpub => ?_⟩
  have hmem : e.modelDump ∈ d.outbox := by
    rw [← hdump]
    exact List.mem_map_of_mem he
  have hpub' : e.modelDump.Published := by
    show (DocField.ofOption e.publishedAt).toOption ≠ none
    rw [DocField.toOption_ofOption]
    exact hpub
  rw [OrderDoc.toOrder_id ho]
  exact hw.stamped d hd e.modelDump hmem hpub'

/-- The document under the id of a loaded order has its core. -/
theorem SameCore.core_eq {o : Order} (ho : SameCore w o) {d : OrderDoc}
    (hd : d ∈ w.orders.docs) (hid : d.id = o.id) : d.core = o.modelDump.core := by
  obtain ⟨d', hd', hcore⟩ := ho.core
  have hid' : d'.id = o.id := by
    rw [← d'.id_core, hcore]
    rfl
  obtain rfl := Collection.eq_of_docId hd hd' (hid.trans hid'.symm)
  exact hcore

/-- The event a pass is at is an event of the document it has loaded. -/
theorem Proc.Faithful.event_core {order : Order} {done todo : List OutboxEvent}
    {event : OutboxEvent} {changed : Bool} {rest : List Order} {n : ℕ} {d : OrderDoc}
    (hp : (Proc.relay (.events order done (event :: todo) changed rest n)).Faithful w)
    (hcore : d.core = order.modelDump.core) :
    event.core ∈ d.outbox.map OutboxDoc.core := by
  have hin : event.core ∈ (done ++ event :: todo).map OutboxEvent.core :=
    List.mem_map_of_mem (by simp)
  rw [hp.inOrder.1] at hin
  rw [OrderDoc.outbox_eq_of_core hcore, Order.modelDump, List.map_map]
  exact hin

/-! ### One step -/

/-- What a step does to the stored orders, in a faithful world: nothing, a
call saves a new order, or a process writes back what it has loaded, with the
core it had. -/
theorem Proc.Steps.orders_cases (h : Proc.Steps w p choice w' p') (hp : p.Faithful w) :
    (w'.orders = w.orders ∧ w.orderIds ⊆ w'.orderIds) ∨
    (∃ call st, p = .booking call ∧ call.pc = .save st ∧
      OrderRepository.save w.orders st = some w'.orders) ∨
    (∃ o ∈ p.loaded, ∃ o' : Order, o'.modelDump.core = o.modelDump.core ∧ o'.id = o.id ∧
      (∀ e ∈ o'.outbox, e.publishedAt ≠ none → confirmation o.id e.value ∈ w.published) ∧
      OrderRepository.save w.orders o' = some w'.orders ∧ w'.orderIds = w.orderIds) := by
  rcases h.orders with hsame | ⟨hids, _, hbooking | hrelay | hworker⟩
  · exact Or.inl hsame
  · exact Or.inr (Or.inl hbooking)
  · obtain ⟨order, done, rest, n, rfl, hsave⟩ := hrelay
    have hcore : done.map OutboxEvent.core = order.outbox.map OutboxEvent.core := by
      simpa using hp.inOrder.1
    refine Or.inr (Or.inr ⟨order, List.mem_cons_self, { order with outbox := done },
      ?_, rfl, ?_, hsave, hids⟩)
    · exact order.core_modelDump_update order.status order.events hcore
    · intro e he
      exact hp.done order done [] true rest n rfl e (by simpa using he)
  · obtain ⟨offset, event, id, order, now, rfl, hsave⟩ := hworker
    refine Or.inr (Or.inr ⟨order, List.mem_cons_self, order.ticketed now, ?_, rfl, ?_,
      hsave, hids⟩)
    · exact order.core_modelDump_update .ticketed _ rfl
    · exact (hp.loaded order List.mem_cons_self).stamped

/-- Documents keep their cores. -/
theorem Proc.Steps.grows (h : Proc.Steps w p choice w' p') (hp : p.Faithful w) :
    w.Grows w' where
  docs := by
    rcases h.orders_cases hp with ⟨heq, _⟩ | ⟨call, st, rfl, hpc, hsave⟩ |
      ⟨o, ho, o', hcore, hid, _, hsave, _⟩
    · rw [heq]
      exact fun d hd => ⟨d, hd, rfl⟩
    · intro d hd
      have hfresh := (hp.inFlight call rfl st hpc).2
      exact ⟨d, (OrderRepository.mem_save_fresh hsave hfresh).mpr (Or.inr hd), rfl⟩
    · refine OrderRepository.save_relates (R := fun d d' => d'.core = d.core)
        (fun _ => rfl) hsave fun d hd hdid => ?_
      rw [hcore, (hp.loaded o ho).core_eq hd (hdid.trans hid)]
  published := by
    rcases h.published with heq | ⟨_, ⟨_, _, _, _, _, _, _, _, heq⟩ | ⟨_, _, _, _, _, _, _, heq⟩⟩
    · exact heq ▸ List.prefix_rfl
    · exact heq ▸ List.prefix_append _ _
    · exact heq ▸ List.prefix_append _ _

/-- A document after a step: an old one, a newly booked one, or an old one
written back. -/
theorem Proc.Steps.docs_cases (h : Proc.Steps w p choice w' p') (hp : p.Faithful w)
    {d : OrderDoc} (hd : d ∈ w'.orders.docs) :
    d ∈ w.orders.docs ∨
    (∃ call st, p = .booking call ∧ call.pc = .save st ∧ d = st.modelDump) ∨
    (∃ d₀ ∈ w.orders.docs, d.core = d₀.core ∧ d.Written ∧
      ∀ e ∈ d.outbox, e.Published → confirmation d.id e.value ∈ w.published) := by
  rcases h.orders_cases hp with ⟨heq, _⟩ | ⟨call, st, rfl, hpc, hsave⟩ |
    ⟨o, ho, o', hcore, hid, hpub, hsave, _⟩
  · exact Or.inl (heq ▸ hd)
  · rcases (Collection.mem_replaceOne hsave).mp hd with rfl | ⟨hd, _⟩
    · exact Or.inr (Or.inl ⟨call, st, rfl, hpc, rfl⟩)
    · exact Or.inl hd
  · rcases (Collection.mem_replaceOne hsave).mp hd with rfl | ⟨hd, _⟩
    · obtain ⟨d₀, hd₀, hcore₀⟩ := (hp.loaded o ho).core
      refine Or.inr (Or.inr ⟨d₀, hd₀, hcore.trans hcore₀.symm, o'.written_modelDump, ?_⟩)
      intro e he hpublished
      obtain ⟨e', he', rfl⟩ := List.mem_map.mp he
      rw [Order.id_modelDump, hid]
      refine hpub e' he' ?_
      intro hnone
      rw [OutboxDoc.Published, OutboxEvent.modelDump, hnone] at hpublished
      exact hpublished rfl
    · exact Or.inl hd

/-- What a pass publishes confirms the order it has loaded. -/
theorem Proc.Faithful.message_eq {order : Order} {done todo : List OutboxEvent}
    {event : OutboxEvent} {changed : Bool} {rest : List Order} {n : ℕ} (hw : w.Faithful)
    (hp : (Proc.relay (.events order done (event :: todo) changed rest n)).Faithful w) :
    ∃ d ∈ w.orders.docs, d.id = order.id ∧ ∃ e ∈ d.outbox, e.value = event.value ∧
      e.type = "BookingConfirmed" ∧ event.message order.id = confirmation d.id e.value := by
  obtain ⟨d, hd, hcore⟩ := (hp.loaded order List.mem_cons_self).core
  have hevent := hp.event_core hcore
  obtain ⟨e, he, hecore⟩ := List.mem_map.mp hevent
  have hvalue : e.value = event.value := by
    rw [← e.value_core, hecore, event.value_core]
  obtain ⟨e', hout, htype, _⟩ := hw.booked d hd
  refine ⟨d, hd, OrderDoc.id_eq_of_core hcore, e, he, hvalue, ?_, ?_⟩
  · rw [hout, List.mem_singleton] at he
    rw [he, htype]
  · rw [message_eq_confirmation (hw.booked d hd) hevent, hvalue]

/-- What a step publishes about a booking confirms a stored order. -/
theorem Proc.Steps.confirmed (h : Proc.Steps w p choice w' p') (hw : w.Faithful)
    (hp : p.Faithful w) {m : Message} (hm : m ∈ w'.published)
    (htype : m.value.type = "BookingConfirmed") :
    ∃ d ∈ w.orders.docs, ∃ e ∈ d.outbox, m = confirmation d.id e.value := by
  rcases h.published with heq | ⟨_, hrelay | ⟨_, _, _, _, _, _, _, heq⟩⟩
  · exact hw.confirmed m (heq ▸ hm) htype
  · obtain ⟨order, done, event, todo, changed, rest, n, rfl, heq⟩ := hrelay
    rw [heq] at hm
    rcases List.mem_append.mp hm with hm | hm
    · exact hw.confirmed m hm htype
    · obtain rfl := List.mem_singleton.mp hm
      obtain ⟨d, hd, _, e, he, _, _, hmsg⟩ := hp.message_eq hw
      exact ⟨d, hd, e, he, hmsg⟩
  · rw [heq] at hm
    rcases List.mem_append.mp hm with hm | hm
    · exact hw.confirmed m hm htype
    · obtain rfl := List.mem_singleton.mp hm
      simp [ticketIssued] at htype

/-- **One step keeps store and log faithful.** -/
theorem Proc.Steps.faithful (h : Proc.Steps w p choice w' p') (hw : w.Faithful)
    (hp : p.Faithful w) : w'.Faithful where
  written := by
    intro d hd
    rcases h.docs_cases hp hd with hold | ⟨_, st, _, _, rfl⟩ | ⟨_, _, _, hwritten, _⟩
    · exact hw.written d hold
    · exact st.written_modelDump
    · exact hwritten
  booked := by
    intro d hd
    rcases h.docs_cases hp hd with hold | ⟨call, st, hcall, hpc, rfl⟩ | ⟨d₀, hd₀, hcore, _⟩
    · exact hw.booked d hold
    · exact (hp.staged call st hcall hpc).1
    · exact (hw.booked d₀ hd₀).of_core hcore
  confirmed := by
    intro m hm htype
    obtain ⟨d, hd, e, he, rfl⟩ := h.confirmed hw hp hm htype
    obtain ⟨d', hd', hcore⟩ := (h.grows hp).docs d hd
    obtain ⟨e', he', hecore⟩ := OrderDoc.mem_outbox_of_core hcore he
    refine ⟨d', hd', e', he', ?_⟩
    rw [OrderDoc.id_eq_of_core hcore, OutboxDoc.value_eq_of_core hecore]
  stamped := by
    intro d hd e he hpub
    rcases h.docs_cases hp hd with hold | ⟨call, st, hcall, hpc, rfl⟩ | ⟨_, _, _, _, hlog⟩
    · exact (h.grows hp).published.subset (hw.stamped d hold e he hpub)
    · -- a new order has nothing published
      obtain ⟨e', he', rfl⟩ := List.mem_map.mp he
      have hnone := (hp.staged call st hcall hpc).2 e' he'
      rw [OutboxDoc.Published, OutboxEvent.modelDump, hnone] at hpub
      exact absurd rfl hpub
    · exact (h.grows hp).published.subset (hlog e he hpub)
  routed := by
    intro m hm
    -- the relay and the ticketing consumer publish by type
    rcases h.published with heq | ⟨_, ⟨_, _, _, _, _, _, _, _, heq⟩ | ⟨_, _, _, _, _, _, _, heq⟩⟩
    · exact hw.routed m (heq ▸ hm)
    · rcases List.mem_append.mp (heq ▸ hm) with hm | hm
      · exact hw.routed m hm
      · obtain rfl := List.mem_singleton.mp hm
        rfl
    · rcases List.mem_append.mp (heq ▸ hm) with hm | hm
      · exact hw.routed m hm
      · obtain rfl := List.mem_singleton.mp hm
        rfl

/-- A step keeps what its process knows. -/
theorem Proc.Steps.faithful_own (h : Proc.Steps w p choice w' p') (hw : w.Faithful)
    (hp : p.Faithful w) (hfresh : choice.Fresh w) : p'.Faithful w' where
  inFlight := by
    rintro call rfl
    cases h with
    | booking h => exact h.inFlight hfresh
  staged := by
    rintro call st rfl hpc
    cases h with
    | @booking call₀ _ _ _ h =>
        obtain ⟨ps, data, _, _, uuid, now, _, _, _, rfl, _⟩ := h.to_save hpc
        exact Order.booked_staged data ps call₀.call.key uuid now
  loaded := by
    intro o ho
    rcases h.loaded ho with hold | ⟨rfl, d, hd, hread⟩
    · exact (hp.loaded o hold).mono (h.grows hp)
    · exact sameCore_of_read hw hd hread
  inOrder := h.inOrder hp.inOrder
  done := by
    rintro order done todo changed rest n rfl e he hpub
    have hmono := (h.grows hp).published.subset
    cases h with
    | relay h =>
      cases h with
      | picked => exact hmono ((hp.loaded order List.mem_cons_self).stamped e he hpub)
      | @skipped _ done event =>
          refine hmono (hp.done order done (event :: todo) changed rest n rfl e ?_ hpub)
          simpa using he
      | @published _ done event _ _ _ n now hevent =>
          rcases List.mem_append.mp he with he | he
          · rcases List.mem_append.mp he with he | he
            · exact hmono (hp.done order done (event :: todo) _ rest n rfl e
                (List.mem_append_left _ he) hpub)
            · -- the event the pass has just published
              obtain rfl := List.mem_singleton.mp he
              obtain ⟨d, _, hid, e, _, hvalue, _, hmsg⟩ := hp.message_eq hw
              refine List.mem_append_right _ (List.mem_singleton.mpr ?_)
              rw [hmsg, hid, hvalue]
              rfl
          · exact hmono (hp.done order done (event :: todo) _ rest n rfl e
              (List.mem_append_right _ (List.mem_cons_of_mem _ he)) hpub)

/-- A step keeps what another process knows. -/
theorem Proc.Steps.faithful_other (h : Proc.Steps w p choice w' p') (hp : p.Faithful w)
    (hq : q.Faithful w) (hpq : p.Apart q) : q.Faithful w' where
  inFlight := by
    rintro call rfl st hpc
    obtain ⟨hid, hdocs⟩ := hq.inFlight call rfl st hpc
    have hids : w.orderIds ⊆ w'.orderIds := by
      rcases h.orders with ⟨_, hsub⟩ | ⟨heq, _⟩
      · exact hsub
      · exact heq ▸ fun _ hx => hx
    refine ⟨hids hid, fun d hd => ?_⟩
    rcases h.docs_cases hp hd with hold | ⟨call', st', rfl, hpc', rfl⟩ | ⟨d₀, hd₀, hcore, _⟩
    · exact hdocs d hold
    · exact hpq call' call rfl rfl st' st hpc' hpc
    · rw [OrderDoc.id_eq_of_core hcore]
      exact hdocs d₀ hd₀
  staged := hq.staged
  loaded := fun o ho => (hq.loaded o ho).mono (h.grows hp)
  inOrder := hq.inOrder
  done := fun order done todo changed rest n heq e he hpub =>
    (h.grows hp).published.subset (hq.done order done todo changed rest n heq e he hpub)

theorem Proc.Steps.apart (h : Proc.Steps w p choice w' p') (hq : q.Faithful w)
    (hpq : p.Apart q) (hfresh : choice.Fresh w) : p'.Apart q := by
  rintro f g rfl rfl
  cases h with
  | booking h => exact h.apart hfresh (hq.inFlight g rfl)

/-! ### Runs -/

namespace FlyDeskSystem

variable {ι : Type*}

/-- The system before anything has happened. -/
structure Fresh (s : FlyDeskSystem ι) : Prop where
  shared : s.shared = World.fresh
  initial : ∀ i, (s.procs i).Initial

/-- The ids of new orders are fresh at a step of the run. -/
def FreshIds (s : FlyDeskSystem ι) : FlyDeskMove ι → Prop
  | .proc _ choice => choice.Fresh s.shared
  | .env _ => True

/-- The assertions of the outbox. -/
def outbox : Assertions World Proc where
  shared w := w.Faithful
  each w p := p.Faithful w
  pair := Proc.Apart

theorem outbox_stable :
    outbox.Stable Proc.step World.tick (FreshIds (ι := ι)) where
  symm := by
    intro p q h f g hf hg o o' ho ho' he
    exact h g f hg hf o' o ho' ho he.symm
  own := by
    intro s i c w' p' hA hok hf
    have h := Proc.steps_of_step hf
    exact ⟨h.faithful hA.shared (hA.each i), h.faithful_own hA.shared (hA.each i) hok⟩
  other := by
    intro s i j c w' p' hA hok hf hij
    have h := Proc.steps_of_step hf
    have hpair := hA.pair i j hij
    exact ⟨h.faithful_other (hA.each i) (hA.each j) hpair, h.apart (hA.each j) hpair hok⟩
  env := by
    intro s seconds w' hA _ hg
    obtain rfl := Option.some.inj hg
    obtain ⟨hwritten, hbooked, hconfirmed, hstamped, hrouted⟩ := hA.shared
    refine ⟨⟨hwritten, hbooked, hconfirmed, hstamped, hrouted⟩, fun i => ?_⟩
    obtain ⟨hflight, hstaged, hloaded, hin, hdone⟩ := hA.each i
    exact ⟨hflight, hstaged, fun o ho => ⟨(hloaded o ho).core, (hloaded o ho).stamped⟩,
      hin, hdone⟩

/-- A call of a fresh system has nothing to save. -/
theorem Fresh.not_saving {s : FlyDeskSystem ι} (hs : s.Fresh) {i : ι} {call : BookingFrame}
    (hi : s.procs i = .booking call) (st : Order) : call.pc ≠ .save st := by
  have h := hs.initial i
  rw [hi] at h
  obtain ⟨c, rfl⟩ := h
  nofun

theorem outbox_initial {s : FlyDeskSystem ι} (hs : s.Fresh) : outbox.Hold s := by
  refine ⟨?_, fun i => ⟨?_, ?_, ?_, ?_, ?_⟩, fun i j _ f g hf _ o o' ho => ?_⟩
  · -- the world
    show s.shared.Faithful
    rw [hs.shared]
    refine ⟨?_, ?_, ?_, ?_, ?_⟩ <;> simp [World.fresh]
  · intro call hi st hst
    exact absurd hst (hs.not_saving hi st)
  · intro call st hi hst
    exact absurd hst (hs.not_saving hi st)
  · intro o ho
    rw [(hs.initial i).loaded] at ho
    cases ho
  · exact (hs.initial i).inOrder
  · intro order done todo changed rest n hi
    have h := hs.initial i
    rw [hi] at h
    cases h
  · exact absurd ho (hs.not_saving hf o)

/-- A move from a faithful state keeps documents and log. -/
theorem grows_of_step [DecidableEq ι] {s t : FlyDeskSystem ι} {m : FlyDeskMove ι}
    (hs : outbox.Hold s) (h : FlyDeskSystem.step s m = some t) : s.shared.Grows t.shared := by
  cases m with
  | env seconds =>
      obtain ⟨w, hw, rfl⟩ := System.step_env h
      obtain rfl := Option.some.inj hw
      exact ⟨fun d hd => ⟨d, hd, rfl⟩, List.prefix_rfl⟩
  | proc i c =>
      obtain ⟨w, p', hstep, rfl⟩ := System.step_proc h
      exact (Proc.steps_of_step hstep).grows (hs.each i)

/-- Documents keep their cores along a run. -/
theorem cores_kept [DecidableEq ι] {s t : FlyDeskSystem ι}
    {steps : List (FlyDeskSystem ι × FlyDeskMove ι)}
    (h : Trace FlyDeskSystem.step s steps t) (hs : s.Fresh)
    (hfresh : ∀ p ∈ steps, FreshIds p.1 p.2) :
    ∀ p ∈ steps, ∀ d ∈ p.1.shared.orders.docs, ∃ d' ∈ t.shared.orders.docs,
      d'.core = d.core := by
  refine h.relates (R := fun u v => ∀ d ∈ u.shared.orders.docs,
    ∃ d' ∈ v.shared.orders.docs, d'.core = d.core) ?_ ?_
  · intro u v x huv hvx d hd
    obtain ⟨d', hd', hcore⟩ := huv d hd
    obtain ⟨d'', hd'', hcore'⟩ := hvx d' hd'
    exact ⟨d'', hd'', hcore'.trans hcore⟩
  · intro p hp v hv
    exact (grows_of_step (outbox_stable.run_mem h hfresh (outbox_initial hs) p hp) hv).docs

/-- **The outbox neither loses nor fabricates events.**  In every run of the
system in which order ids are fresh: every stored document is booked, and its
core is what it was in every earlier state; every confirmation in the log is
of a stored document; and what is stored as published is in the log. -/
theorem outbox_faithful [DecidableEq ι] {s t : FlyDeskSystem ι}
    {steps : List (FlyDeskSystem ι × FlyDeskMove ι)}
    (h : Trace FlyDeskSystem.step s steps t) (hs : s.Fresh)
    (hfresh : ∀ p ∈ steps, FreshIds p.1 p.2) :
    (∀ d ∈ t.shared.orders.docs, d.Booked) ∧
    (∀ p ∈ steps, ∀ d ∈ p.1.shared.orders.docs, ∃ d' ∈ t.shared.orders.docs,
      d'.id = d.id ∧ d'.outbox.map OutboxDoc.core = d.outbox.map OutboxDoc.core) ∧
    (∀ m ∈ t.shared.published, m.value.type = "BookingConfirmed" →
      ∃ d ∈ t.shared.orders.docs, ∃ e ∈ d.outbox, m = confirmation d.id e.value) ∧
    ∀ d ∈ t.shared.orders.docs, ∀ e ∈ d.outbox, e.Published →
      confirmation d.id e.value ∈ t.shared.published := by
  have ht := (outbox_stable.run h hfresh (outbox_initial hs)).shared
  refine ⟨ht.booked, fun p hp d hd => ?_, ht.confirmed, ht.stamped⟩
  obtain ⟨d', hd', hcore⟩ := cores_kept h hs hfresh p hp d hd
  exact ⟨d', hd', OrderDoc.id_eq_of_core hcore, OrderDoc.outbox_eq_of_core hcore⟩

instance (w : World) : DecidablePred (ProcChoice.Fresh w)
  | .booking c => inferInstanceAs (Decidable (FreshOrder w c))
  | .relay _ | .worker _ => .isTrue trivial

instance (s : FlyDeskSystem ι) : DecidablePred (FreshIds s)
  | .proc _ choice => inferInstanceAs (Decidable (choice.Fresh s.shared))
  | .env _ => .isTrue trivial

theorem fresh_desk : Fresh Sample.desk :=
  ⟨rfl, Sample.initial_desk⟩

/-- A booking, a pass of the relay that dies before its save, a second pass,
and a worker handling the message: one order, and its event published. -/
theorem outbox_faithful_desk :
    let run := Sample.publishedTwice ++
      Sample.deliver .worker 0 :: List.replicate 3 (Sample.workerGo .worker)
    ∃ t, exec FlyDeskSystem.step Sample.desk run = some t ∧
      t.shared.published.length = 2 ∧ (∃ d ∈ t.shared.orders.docs, d.status = .ticketed) ∧
      ∀ d ∈ t.shared.orders.docs, d.Booked := by
  intro run
  obtain ⟨t, ht, hlen, hticket⟩ := exec_any (P := fun t : FlyDeskSystem Sample.Role =>
    t.shared.published.length = 2 ∧ ∃ d ∈ t.shared.orders.docs, d.status = .ticketed)
    (by decide : (exec FlyDeskSystem.step Sample.desk run).any _ = true)
  exact ⟨t, ht, hlen, hticket,
    (outbox_faithful (Trace.of_exec ht) fresh_desk (by decide)).1⟩

end FlyDeskSystem

end FlyDesk
