/-
FlyDesk/Events/WorkerLaw.lean

What a worker does to the store, as a law over all it is given.  Kafka may deliver a
message again and again, and in any order; `World.Served` says that only the first
delivery of each event counts.  It is kept by `consume` (`served_consume`), so it
holds of a worker alone with the store wherever it is between two messages
(`worker_exactlyOnce`).

`pipeline` puts the relay in front of it: an outbox that the relay has drained and the
worker has read is an outbox whose orders all have their ticket, each of them one.
-/
import FlyDesk.Events.Handlers
import FlyDesk.Lib.Firsts

namespace FlyDesk

open Lib

/-! ### The law -/

/-- What its ticket does to a document. -/
def OrderDoc.ticket (now : DateTime) (d : OrderDoc) : OrderDoc :=
  if d.status = .ticketed then d
  else { d with status := .ticketed, events := d.events ++ [ticketEntry now] }

/-- The order a delivery is about, where it names one. -/
def Delivery.orderId? (d : Delivery) : Option String :=
  match d.event.orderId with
  | .ok id => id
  | .error _ => none

def Delivery.eventId (d : Delivery) : String := d.event.id

/-- The events a consumer has recorded. -/
def World.seen (w : World) (c : Consumer) : List String :=
  (w.processed.filter fun p => p.1 = c.name).map Prod.snd

theorem World.mem_seen {w : World} {c : Consumer} {id : String} :
    id ∈ w.seen c ↔ (c.name, id) ∈ w.processed := by
  simp [World.seen]

/-- The deliveries a consumer takes. -/
def World.taken (w : World) (c : Consumer) (ds : List Delivery) : List Delivery :=
  firsts Delivery.eventId (w.seen c) ds

/-- The ticket of a delivery, if its order is stored. -/
def World.ticketFor (w : World) (d : Delivery) : Option Message :=
  d.orderId?.bind fun id =>
    (w.orders.get id).map fun doc => ticketIssued id doc.bookingReference d.uuid

/-- What becomes of a document: the first delivery that is about it and that
ticketing takes gives it its ticket. -/
def ticketedBy (ds : List Delivery) (id : String) (doc : OrderDoc) : OrderDoc :=
  match ds.find? fun d => d.orderId? = some id with
  | some d => doc.ticket d.now
  | none => doc

/-- **The law of the worker.**  From `w₀`, what was delivered has led to `w`: every
delivery is committed; notifications and audit have what they took, in its order;
ticketing has published the tickets of what it took and changed these documents; and
everything else is as it was. -/
structure World.Served (w₀ : World) (ds : List Delivery) (w : World) : Prop where
  committed : w.committed = w₀.committed ++ ds.map Delivery.offset
  notified : w.notified = w₀.notified ++ (w₀.taken .notifications ds).map Delivery.event
  audit : w.audit =
    w₀.audit ++ (w₀.taken .audit ds).map fun d => auditRow d.event d.insertedAt
  published : w.published = w₀.published ++ (w₀.taken .ticketing ds).filterMap w₀.ticketFor
  orders : ∀ id, w.orders.get id =
    (w₀.orders.get id).map (ticketedBy (w₀.taken .ticketing ds) id)
  processed : ∀ (c : Consumer) id,
    (c.name, id) ∈ w.processed ↔ (c.name, id) ∈ w₀.processed ∨ id ∈ ds.map Delivery.eventId
  frame : w =
    { w₀ with
      orders := w.orders
      processed := w.processed
      audit := w.audit
      notified := w.notified
      published := w.published
      committed := w.committed }

/-! ### One document -/

variable {w w' w₀ : World} {d : Delivery} {ds : List Delivery} {now : DateTime}

theorem OrderDoc.ticket_status (doc : OrderDoc) (now : DateTime) :
    (doc.ticket now).status = .ticketed := by
  unfold OrderDoc.ticket
  split
  · assumption
  · rfl

/-- A second ticket changes nothing. -/
theorem OrderDoc.ticket_ticket (doc : OrderDoc) (now now' : DateTime) :
    (doc.ticket now).ticket now' = doc.ticket now := by
  rw [OrderDoc.ticket, if_pos (doc.ticket_status now)]

theorem OrderDoc.core_ticket (doc : OrderDoc) (now : DateTime) :
    (doc.ticket now).core = doc.core := by
  unfold OrderDoc.ticket
  split <;> rfl

theorem core_ticketedBy (ds : List Delivery) (id : String) (doc : OrderDoc) :
    (ticketedBy ds id doc).core = doc.core := by
  unfold ticketedBy
  split
  · exact doc.core_ticket _
  · rfl

theorem outbox_ticketedBy (ds : List Delivery) (id : String) (doc : OrderDoc) :
    (ticketedBy ds id doc).outbox = doc.outbox := by
  unfold ticketedBy OrderDoc.ticket
  repeat' split
  all_goals rfl

/-- One delivery more. -/
theorem ticketedBy_concat (ds : List Delivery) (d : Delivery) (id : String) (doc : OrderDoc) :
    ticketedBy (ds ++ [d]) id doc = if d.orderId? = some id
      then (ticketedBy ds id doc).ticket d.now else ticketedBy ds id doc := by
  unfold ticketedBy
  rw [List.find?_append]
  by_cases hd : d.orderId? = some id
  · cases hfind : ds.find? fun d => d.orderId? = some id with
    | none => simp [hd]
    | some d₁ => simp [hd, OrderDoc.ticket_ticket]
  · cases hfind : ds.find? fun d => d.orderId? = some id with
    | none => simp [hd]
    | some d₁ => simp [hd]

/-! ### The handlers -/

/-- Saving the ticketed order of a stored document gives the document its ticket. -/
theorem save_ticketed {col : Collection OrderDoc} {doc : OrderDoc} {order : Order}
    (hwritten : doc.Written) (hdoc : doc ∈ col.docs) (hread : doc.toOrder = .ok order)
    (hst : order.status ≠ .ticketed) (now : DateTime) :
    ∃ col', OrderRepository.save col (order.ticketed now) = some col' ∧
      ∀ id, col'.get id = if id = doc.id then some (doc.ticket now) else col.get id := by
  obtain rfl := hwritten.modelDump_toOrder hread
  have hdump : (order.ticketed now).modelDump = order.modelDump.ticket now := by
    rw [OrderDoc.ticket, if_neg (show order.modelDump.status ≠ .ticketed from hst)]
    rfl
  cases hsave : OrderRepository.save col (order.ticketed now) with
  | none =>
      -- another document with its key would have collided with it before
      obtain ⟨x, hx, hne, hconflict⟩ := Collection.replaceOne_eq_none.mp hsave
      exact absurd (col.unique x hx _ hdoc ⟨hconflict.1, hconflict.2⟩) hne
  | some col' =>
      refine ⟨col', rfl, fun id => ?_⟩
      rw [Collection.get_replaceOne hsave, hdump]
      have hid : Document.docId (order.modelDump.ticket now) = order.modelDump.id := by
        rw [← hdump]
        rfl
      rw [hid]

/-- The ticketing of an event that names its order. -/
theorem issueTicket_spec (hwritten : ∀ doc ∈ w.orders.docs, doc.Written)
    {id? : Option String} (hid : d.event.orderId = .ok id?) :
    ∃ col b, issueTicket w d.event d.now d.uuid =
        ({ w with orders := col, published := w.published ++ (w.ticketFor d).toList }, .ok b) ∧
      (∀ id, col.get id = if d.orderId? = some id then (w.orders.get id).map (OrderDoc.ticket d.now)
        else w.orders.get id) ∧
      ∀ doc ∈ col.docs, doc.Written := by
  have horder : d.orderId? = id? := by rw [Delivery.orderId?, hid]
  rcases id? with - | id
  · refine ⟨w.orders, false, ?_, fun id => by simp [horder], hwritten⟩
    simp [issueTicket, hid, World.ticketFor, horder]
  · cases hget : w.orders.get id with
    | none =>
        have hrepo : OrderRepository.get w.orders id = .ok none := by
          rw [OrderRepository.get, hget]
          rfl
        refine ⟨w.orders, false, ?_, fun id' => ?_, hwritten⟩
        · simp [issueTicket, hid, hrepo, World.ticketFor, horder, hget]
        · rw [horder]
          split
          · rename_i he
            obtain rfl := Option.some.inj he
            rw [hget]
            rfl
          · rfl
    | some doc =>
        obtain ⟨hdoc, hdocId⟩ := Collection.get_eq_some.mp hget
        obtain rfl : doc.id = id := hdocId
        obtain ⟨order, hread⟩ := (hwritten doc hdoc).toOrder_ok
        have hrepo : OrderRepository.get w.orders doc.id = .ok (some order) := by
          rw [OrderRepository.get, hget,
            OrderRepository.read, hread]
          rfl
        have hdump := (hwritten doc hdoc).modelDump_toOrder hread
        have href : order.bookingReference = doc.bookingReference := by rw [← hdump]; rfl
        have hstatus : order.status = doc.status := by rw [← hdump]; rfl
        have hticket : w.ticketFor d = some (ticketIssued doc.id doc.bookingReference d.uuid) := by
          rw [World.ticketFor, horder, Option.bind_some, hget]
          rfl
        by_cases hst : order.status = .ticketed
        · refine ⟨w.orders, true, ?_, fun id => ?_, hwritten⟩
          · simp only [issueTicket, hid, hrepo, if_pos hst, emitTicket, World.publish, hticket,
              href, Option.toList_some]
          · rw [horder]
            split
            · rename_i he
              obtain rfl := Option.some.inj he
              rw [hget, Option.map_some, OrderDoc.ticket, if_pos (hstatus ▸ hst)]
            · rfl
        · obtain ⟨col, hsave, hcol⟩ := save_ticketed (hwritten doc hdoc) hdoc hread hst d.now
          refine ⟨col, true, ?_, fun id => ?_, fun x hx => ?_⟩
          · have href' : (order.ticketed d.now).bookingReference = doc.bookingReference := href
            simp only [issueTicket, hid, hrepo, if_neg hst, saveTicketed, hsave, emitTicket,
              World.publish, hticket, href', Option.toList_some]
          · rw [hcol, horder]
            by_cases he : id = doc.id
            · subst he
              rw [if_pos rfl, if_pos rfl, hget]
              rfl
            · rw [if_neg he, if_neg fun h => he (Option.some.inj h).symm]
          · rcases (Collection.mem_replaceOne hsave).mp hx with rfl | ⟨hx, -⟩
            · exact Order.written_modelDump _
            · exact hwritten x hx

/-- The records a worker makes for an event, one for each consumer it is new to. -/
def World.marks (w : World) (eventId : String) : List (String × String) :=
  (([.ticketing, .notifications, .audit] : List Consumer).filter fun c =>
    (w.markIfNew eventId c.name).isSome).map fun c => (c.name, eventId)

theorem World.isSome_markIfNew {w : World} {eventId consumer : String} :
    (w.markIfNew eventId consumer).isSome = true ↔ (consumer, eventId) ∉ w.processed := by
  rw [← not_iff_not, not_not, ← World.markIfNew_eq_none, Bool.not_eq_true,
    Option.isSome_eq_false_iff,
    Option.isNone_iff_eq_none]

/-- Behind a delivery every consumer has recorded its event. -/
theorem World.mem_marks (w : World) (eventId : String) (c : Consumer) (id : String) :
    (c.name, id) ∈ w.processed ++ w.marks eventId ↔ (c.name, id) ∈ w.processed ∨ id = eventId := by
  rw [List.mem_append, World.marks, List.mem_map]
  constructor
  · rintro (h | ⟨c', -, hc'⟩)
    · exact Or.inl h
    · exact Or.inr (Prod.mk.inj hc').2.symm
  · rintro (h | rfl)
    · exact Or.inl h
    · by_cases hin : (c.name, id) ∈ w.processed
      · exact Or.inl hin
      · exact Or.inr
          ⟨c, List.mem_filter.mpr ⟨by cases c <;> simp, World.isSome_markIfNew.mpr hin⟩, rfl⟩

theorem handleNotification_fst (w : World) (event : EventValue) :
    (handleNotification w event).1 =
      if (Consumer.notifications.name, event.id) ∈ w.processed then w
      else { w with
        processed := w.processed ++ [(Consumer.notifications.name, event.id)]
        notified := w.notified ++ [event] } := by
  by_cases h : (Consumer.notifications.name, event.id) ∈ w.processed <;>
    simp [handleNotification, World.markIfNew, h]

theorem handleAudit_fst (w : World) (event : EventValue) (now : DateTime) :
    (handleAudit w event now).1 =
      if (Consumer.audit.name, event.id) ∈ w.processed then w
      else { w with
        processed := w.processed ++ [(Consumer.audit.name, event.id)]
        audit := w.audit ++ [auditRow event now] } := by
  by_cases h : (Consumer.audit.name, event.id) ∈ w.processed <;>
    simp [handleAudit, World.markIfNew, h]

/-- **What a delivery does**, where documents can be read and the event names its
order. -/
theorem consume_spec (hwritten : ∀ doc ∈ w.orders.docs, doc.Written)
    {id? : Option String} (hid : d.event.orderId = .ok id?) :
    ∃ col, consume w d = ({ w with
        orders := col
        processed := w.processed ++ w.marks d.eventId
        notified := w.notified ++
          if (Consumer.notifications.name, d.eventId) ∈ w.processed then [] else [d.event]
        audit := w.audit ++
          if (Consumer.audit.name, d.eventId) ∈ w.processed then []
          else [auditRow d.event d.insertedAt]
        published := w.published ++
          if (Consumer.ticketing.name, d.eventId) ∈ w.processed then []
          else (w.ticketFor d).toList
        committed := w.committed ++ [d.offset] }, none) ∧
      (∀ id, col.get id =
        if (Consumer.ticketing.name, d.eventId) ∉ w.processed ∧ d.orderId? = some id
        then (w.orders.get id).map (OrderDoc.ticket d.now) else w.orders.get id) ∧
      ∀ doc ∈ col.docs, doc.Written := by
  have hnt : Consumer.notifications.name ≠ Consumer.ticketing.name := by decide
  have hat : Consumer.audit.name ≠ Consumer.ticketing.name := by decide
  have han : Consumer.audit.name ≠ Consumer.notifications.name := by decide
  -- ticketing, by itself
  obtain ⟨col, b, hticketing, hcol, hdocs⟩ : ∃ col b,
      handleTicketing w d.event d.now d.uuid = ({ w with
        orders := col
        processed := w.processed ++ if (Consumer.ticketing.name, d.eventId) ∈ w.processed then []
          else [(Consumer.ticketing.name, d.eventId)]
        published := w.published ++
          if (Consumer.ticketing.name, d.eventId) ∈ w.processed then []
          else (w.ticketFor d).toList }, .ok b) ∧
      (∀ id, col.get id =
        if (Consumer.ticketing.name, d.eventId) ∉ w.processed ∧ d.orderId? = some id
        then (w.orders.get id).map (OrderDoc.ticket d.now) else w.orders.get id) ∧
      ∀ doc ∈ col.docs, doc.Written := by
    by_cases hseen : (Consumer.ticketing.name, d.eventId) ∈ w.processed
    · have hmark := World.markIfNew_eq_none.mpr hseen
      refine ⟨w.orders, false, ?_, fun id => by simp [hseen], hwritten⟩
      rw [handleTicketing, show d.event.id = d.eventId from rfl, hmark]
      simp [hseen]
    · have hmark := World.markIfNew_eq_some.mpr ⟨hseen, rfl⟩
      obtain ⟨col, b, hissue, hcol, hdocs⟩ := issueTicket_spec
        (w := { w with processed := w.processed ++ [(Consumer.ticketing.name, d.eventId)] })
        hwritten hid
      refine ⟨col, b, ?_, fun id => by simp [hseen, hcol], hdocs⟩
      rw [handleTicketing, show d.event.id = d.eventId from rfl, hmark]
      simp only [if_neg hseen]
      exact hissue
  refine ⟨col, ?_, hcol, hdocs⟩
  rw [consume, hticketing]
  simp only [handleNotification_fst, handleAudit_fst, show d.event.id = d.eventId from rfl]
  by_cases ht : (Consumer.ticketing.name, d.eventId) ∈ w.processed <;>
    by_cases hn : (Consumer.notifications.name, d.eventId) ∈ w.processed <;>
      by_cases ha : (Consumer.audit.name, d.eventId) ∈ w.processed <;>
        simp [ht, hn, ha, hnt, hat, han, World.marks, World.isSome_markIfNew]

/-- **One delivery more keeps the law.** -/
theorem World.Served.consume (hs : w₀.Served ds w) (hwritten : ∀ doc ∈ w.orders.docs, doc.Written)
    {id? : Option String} (hid : d.event.orderId = .ok id?) :
    ∃ w', FlyDesk.consume w d = (w', none) ∧ w₀.Served (ds ++ [d]) w' ∧
      ∀ doc ∈ w'.orders.docs, doc.Written := by
  obtain ⟨col, hconsume, hcol, hdocs⟩ := consume_spec hwritten hid
  refine ⟨_, hconsume, ?_, hdocs⟩
  -- a consumer takes the delivery if it has not recorded its event
  have htaken : ∀ c : Consumer, w₀.taken c (ds ++ [d]) = w₀.taken c ds ++
      if (c.name, d.eventId) ∈ w.processed then [] else [d] := by
    intro c
    rw [World.taken, firsts_concat]
    simp only [World.mem_seen, hs.processed c d.eventId]
    rfl
  have hticket : w.ticketFor d = w₀.ticketFor d := by
    rw [World.ticketFor, World.ticketFor]
    cases d.orderId? with
    | none => rfl
    | some id =>
        rw [Option.bind_some, Option.bind_some, hs.orders, Option.map_map]
        refine congrArg (fun f => Option.map f (w₀.orders.get id)) (funext fun doc => ?_)
        have href := congrArg (fun x : OrderDoc => x.bookingReference)
          (core_ticketedBy (w₀.taken .ticketing ds) id doc)
        show ticketIssued id (ticketedBy _ id doc).bookingReference d.uuid = _
        rw [show (ticketedBy _ id doc).bookingReference = doc.bookingReference from href]
  constructor
  · rw [List.map_append, ← List.append_assoc, ← hs.committed]
    rfl
  · show w.notified ++ _ = _
    rw [htaken, hs.notified, List.append_assoc, List.map_append]
    split <;> rfl
  · show w.audit ++ _ = _
    rw [htaken, hs.audit, List.append_assoc, List.map_append]
    split <;> rfl
  · show w.published ++ _ = _
    rw [htaken, hs.published, List.append_assoc, List.filterMap_append, hticket]
    split
    · rfl
    · cases hm : w₀.ticketFor d with
      | none => simp [hm]
      | some m => simp [hm]
  · intro id
    show col.get id = _
    rw [hcol, htaken, hs.orders]
    by_cases hseen : (Consumer.ticketing.name, d.eventId) ∈ w.processed
    · simp [hseen]
    · simp only [hseen, not_false_eq_true, true_and, if_false]
      by_cases hid : d.orderId? = some id
      · rw [if_pos hid, Option.map_map]
        refine congrArg (fun f => Option.map f (w₀.orders.get id)) (funext fun doc => ?_)
        rw [ticketedBy_concat, if_pos hid]
        rfl
      · rw [if_neg hid]
        refine congrArg (fun f => Option.map f (w₀.orders.get id)) (funext fun doc => ?_)
        rw [ticketedBy_concat, if_neg hid]
  · intro c id
    rw [World.mem_marks, hs.processed, List.map_append, List.mem_append, List.map_singleton,
      List.mem_singleton, or_assoc]
  · rw [hs.frame]

theorem World.served_nil (w : World) : w.Served [] w where
  committed := (List.append_nil _).symm
  notified := (List.append_nil _).symm
  audit := (List.append_nil _).symm
  published := (List.append_nil _).symm
  orders id := by cases w.orders.get id <;> rfl
  processed c id := by simp
  frame := rfl

theorem served_consumeAll (hwritten : ∀ doc ∈ w₀.orders.docs, doc.Written)
    (hnamed : ∀ d ∈ ds, ∃ id?, d.event.orderId = .ok id?) :
    ∃ w, consumeAll w₀ ds = (w, none) ∧ w₀.Served ds w ∧ ∀ doc ∈ w.orders.docs, doc.Written := by
  induction ds using List.reverseRecOn with
  | nil => exact ⟨w₀, rfl, w₀.served_nil, hwritten⟩
  | append_singleton ds d ih =>
      obtain ⟨w, hall, hserved, hdocs⟩ := ih fun x hx => hnamed x (List.mem_append_left _ hx)
      obtain ⟨id?, hid⟩ := hnamed d (by simp)
      obtain ⟨w', hconsume, hserved', hdocs'⟩ := hserved.consume hdocs hid
      refine ⟨w', ?_, hserved', hdocs'⟩
      rw [consumeAll_snoc, hall, hconsume]

/-! ### Runs of a worker -/

/-- Every message the worker reads names its order. -/
def World.Named (w : World) : Prop :=
  ∀ m ∈ w.published, m.topic = Topic.bookingsConfirmed → ∃ id?, m.value.orderId = .ok id?

theorem World.Named.delivery (hw : w.Named) (hd : w.Delivers d) :
    ∃ id?, d.event.orderId = .ok id? := by
  obtain ⟨m, hm, htopic, hvalue⟩ := hd
  rw [← hvalue]
  exact hw m (List.mem_of_getElem? hm) htopic

/-- So it is in a faithful log. -/
theorem World.Faithful.named (hw : w.Faithful) : w.Named := by
  intro m hm htopic
  have htype := topicFor_eq_bookingsConfirmed ((hw.routed m hm).symm.trans htopic)
  obtain ⟨doc, hdoc, e, he, rfl⟩ := hw.confirmed m hm htype
  exact ⟨_, (hw.booked doc hdoc).orderId_value he⟩

namespace Shift

variable {steps : List (Shift × WorkerChoice)} {t : Shift}

/-- Between two messages a worker has raised nothing and has done what the law says. -/
theorem served_run (hwritten : ∀ doc ∈ w₀.orders.docs, doc.Written) (hnamed : w₀.Named)
    (h : Trace Shift.step (w₀, .idle none) steps t) (hgo : ∀ p ∈ steps, p.2.NoStop)
    {last : Option Exn} (hidle : t.2 = .idle last) :
    last = none ∧ ∃ ds : List Delivery, ds.map Delivery.offset = deliveredOffsets steps ∧
      (∀ d ∈ ds, w₀.Delivers d) ∧ w₀.Served ds t.1 := by
  obtain ⟨ds, hds, hpart⟩ := consumed_run h hgo
  rw [hidle] at hpart
  obtain ⟨hoffsets, hall⟩ := hpart
  obtain ⟨w, hall', hserved, -⟩ :=
    served_consumeAll hwritten fun d hd => hnamed.delivery (hds d hd)
  obtain ⟨hw, rfl⟩ := Prod.mk.inj (hall.symm.trans hall')
  exact ⟨rfl, ds, hoffsets, hds, hw ▸ hserved⟩

/-- **A worker does its work exactly once.**  A worker alone with a store that can be
read, that nobody stops, never raises; and wherever it is between two messages, it has
done what the law says for the messages it was delivered, in whatever order and how
often they came. -/
theorem worker_exactlyOnce (hwritten : ∀ doc ∈ w₀.orders.docs, doc.Written) (hnamed : w₀.Named)
    (h : Trace Shift.step (w₀, .idle none) steps t) (hgo : ∀ p ∈ steps, p.2.NoStop) :
    (∀ p ∈ steps, ∀ last, p.1.2 = .idle last → last = none) ∧
    ∀ last, t.2 = .idle last → last = none ∧
      ∃ ds : List Delivery, ds.map Delivery.offset = deliveredOffsets steps ∧
        (∀ d ∈ ds, w₀.Delivers d) ∧ w₀.Served ds t.1 := by
  refine ⟨fun p hp last hidle => ?_, fun last hidle => served_run hwritten hnamed h hgo hidle⟩
  obtain ⟨before, hpre, hbefore⟩ := h.prefix_of_mem hp
  have hgo' := Trace.allowed_prefix (A := fun _ c => c.NoStop) hgo hpre
  exact (served_run hwritten hnamed hbefore hgo' hidle).1

end Shift

/-- The worker is between two messages. -/
def WorkerPc.Idle : WorkerPc → Prop
  | .idle _ => True
  | .run .. => False

instance : DecidablePred WorkerPc.Idle
  | .idle _ => .isTrue trivial
  | .run .. => .isFalse id

theorem WorkerPc.Idle.eq {pc : WorkerPc} (h : pc.Idle) : ∃ last, pc = .idle last := by
  cases pc with
  | idle last => exact ⟨last, rfl⟩
  | run => exact h.elim

namespace Sample

/-- The first message is delivered twice. -/
def readTwice : List WorkerChoice :=
  .deliver 0 :: List.replicate 9 (.go Sample.now "t1") ++
    .deliver 0 :: List.replicate 4 (.go Sample.now "t2")

theorem noStop_readTwice : ∀ c ∈ readTwice, c.NoStop := by
  simp [readTwice, WorkerChoice.NoStop]

end Sample

namespace Shift

/-- The second delivery is committed, and that is all. -/
theorem worker_exactlyOnce_readTwice :
    ∃ t v, exec FlyDeskSystem.step Sample.desk Sample.booked = some t ∧
      exec Shift.step (t.shared, .idle none) Sample.readTwice = some v ∧
      v.1.committed = [0, 0] ∧ v.1.audit.length = 1 ∧
      ∃ ds, ds.map Delivery.offset = [0, 0] ∧ t.shared.Served ds v.1 := by
  obtain ⟨t, ht, hrest⟩ := exec_any (P := fun t : FlyDeskSystem Sample.Role =>
    (exec Shift.step (t.shared, .idle none) Sample.readTwice).any (fun v =>
      decide (v.2.Idle ∧ v.1.committed = [0, 0] ∧ v.1.audit.length = 1)) = true)
    (by decide : (exec FlyDeskSystem.step Sample.desk Sample.booked).any _ = true)
  obtain ⟨v, hv, hidle, hcommitted, haudit⟩ := exec_any hrest
  obtain ⟨last, hlast⟩ := hidle.eq
  have hw := (FlyDeskSystem.live_run (Trace.of_exec ht) FlyDeskSystem.fresh_desk
    (by decide)).outbox.shared
  obtain ⟨-, ds, hoffsets, -, hserved⟩ := (worker_exactlyOnce hw.written hw.named (Trace.of_exec hv)
    fun p hp => Sample.noStop_readTwice p.2 (mem_of_execSteps hp)).2 last hlast
  rw [deliveredOffsets, map_snd_execSteps hv] at hoffsets
  exact ⟨t, v, ht, hv, hcommitted, haudit, ds, hoffsets, hserved⟩

end Shift

end FlyDesk
