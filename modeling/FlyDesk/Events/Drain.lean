/-
FlyDesk/Events/Drain.lean

A relay alone with the store, making one pass after another until a pass
returns 0 (`Drain.step`).

The ghost of a run is the list of documents whose turn is over, `handled`, as
they were in the beginning.  `Drain.Relayed` says in its terms what the store,
the log and the memory of the pass are: a handled document has all its events
stamped, any other is as it was, and the messages of the handled ones are in
the log.  It is kept by every step, an aborted pass included, since the store
changes only where the turn of a document ends.
-/
import FlyDesk.Events.Relay
import FlyDesk.Lib.Related
import FlyDesk.Lib.Trace
import Mathlib.Data.List.Nodup
import Mathlib.Data.List.Perm.Subperm

namespace FlyDesk

open Lib

/-! ### Events that wait -/

/-- The event has not been published, as far as the store knows. -/
def OutboxDoc.waiting (e : OutboxDoc) : Bool := e.publishedAt.toOption.isNone

def OutboxEvent.waiting (e : OutboxEvent) : Bool := e.publishedAt.isNone

/-- Some event of the document waits. -/
def OrderDoc.waits (d : OrderDoc) : Bool := d.outbox.any OutboxDoc.waiting

/-- The message announces the event, an event of this order. -/
structure OutboxDoc.Announced (orderId : String) (e : OutboxDoc) (m : Message) : Prop where
  confirmed : e.type = "BookingConfirmed" → m.topic = "bookings.confirmed"
  issued : e.type = "TicketIssued" → m.topic = "tickets.issued"
  other : e.type ≠ "BookingConfirmed" → e.type ≠ "TicketIssued" → m.topic = "events.dead_letter"
  named : ∀ id, e.payload.get? "order_id" = some (.str id) → m.key = some id
  unnamed : e.payload.get? "order_id" = none → m.key = some orderId
  id : m.value.id = e.id
  type : m.value.type = e.type
  payload : m.value.payload = e.payload

theorem OutboxDoc.announced_message (orderId : String) (e : OutboxDoc) :
    e.Announced orderId (e.validate.message orderId) where
  confirmed h := if_pos h
  issued h := by
    show Topic.topicFor e.type = _
    rw [h]
    rfl
  other h h' := (if_neg h).trans (if_neg h')
  named id h := by
    show ((Dict.get? e.payload "order_id").getD (.str orderId)).text? = _
    rw [h]
    rfl
  unnamed h := by
    show ((Dict.get? e.payload "order_id").getD (.str orderId)).text? = _
    rw [h]
    rfl
  id := rfl
  type := rfl
  payload := rfl

/-- The messages of the events that wait, in outbox order. -/
def messagesOf (orderId : String) (events : List OutboxEvent) : List Message :=
  (events.filter OutboxEvent.waiting).map fun e => e.message orderId

/-- The messages of the events of a document that wait, in outbox order. -/
def OrderDoc.pendingMessages (d : OrderDoc) : List Message :=
  (d.outbox.filter OutboxDoc.waiting).map fun e => e.validate.message d.id

theorem OrderDoc.announced_pendingMessages (d : OrderDoc) :
    List.Forall₂ (OutboxDoc.Announced d.id) (d.outbox.filter OutboxDoc.waiting)
      d.pendingMessages :=
  forall₂_map_self fun e _ => e.announced_message d.id

/-- What the turn of its order does to an entry: one that waits gets a time. -/
def OutboxDoc.StampedTo (e e' : OutboxDoc) : Prop :=
  (e.waiting = true → ∃ now, e' = { e with publishedAt := .val now }) ∧
    (e.waiting = false → e' = e)

def OutboxEvent.StampedTo (e e' : OutboxEvent) : Prop :=
  (e.waiting = true → ∃ now, e' = e.stamp now) ∧ (e.waiting = false → e' = e)

/-- What its turn does to a document: times for the entries that wait, and
nothing else. -/
structure OrderDoc.StampedTo (d d' : OrderDoc) : Prop where
  frame : d' = { d with outbox := d'.outbox }
  outbox : List.Forall₂ OutboxDoc.StampedTo d.outbox d'.outbox

@[simp] theorem OutboxEvent.waiting_modelDump (e : OutboxEvent) :
    e.modelDump.waiting = e.waiting := by
  simp [OutboxDoc.waiting, OutboxEvent.waiting, OutboxEvent.modelDump]

/-- The query of the relay finds the documents in which something waits. -/
theorem hasUnpublished_eq_waits : OrderRepository.hasUnpublished = OrderDoc.waits := rfl

theorem waits_of_batch {w : World} {ids : List String}
    (hids : OrderRepository.UnpublishedBatch w.orders ids) {d : OrderDoc}
    (hd : d ∈ w.orders.getAll ids) : d ∈ w.orders.docs ∧ d.waits = true := by
  rw [← hasUnpublished_eq_waits]
  exact hids.mem_getAll hd

theorem Order.waits_modelDump (o : Order) :
    o.modelDump.waits = o.outbox.any OutboxEvent.waiting := by
  show (o.outbox.map OutboxEvent.modelDump).any OutboxDoc.waiting = _
  rw [List.any_map]
  exact congrArg o.outbox.any (funext OutboxEvent.waiting_modelDump)

theorem Order.pendingMessages_modelDump (o : Order) :
    o.modelDump.pendingMessages = messagesOf o.id o.outbox := by
  show (((o.outbox.map OutboxEvent.modelDump).filter OutboxDoc.waiting).map _) = _
  have hwaiting : OutboxDoc.waiting ∘ OutboxEvent.modelDump = OutboxEvent.waiting :=
    funext OutboxEvent.waiting_modelDump
  rw [List.filter_map, List.map_map, hwaiting]
  refine List.map_congr_left fun e _ => ?_
  show e.modelDump.validate.message o.id = e.message o.id
  rw [OutboxEvent.validate_modelDump]

theorem OutboxEvent.StampedTo.modelDump {e e' : OutboxEvent} (h : e.StampedTo e') :
    e.modelDump.StampedTo e'.modelDump := by
  refine ⟨fun hw => ?_, fun hw => ?_⟩
  · obtain ⟨now, rfl⟩ := h.1 (by simpa using hw)
    exact ⟨now, rfl⟩
  · rw [h.2 (by simpa using hw)]

theorem OutboxDoc.StampedTo.not_waiting {e e' : OutboxDoc} (h : e.StampedTo e') :
    e'.waiting = false := by
  cases hw : e.waiting with
  | false => rw [h.2 hw, hw]
  | true =>
      obtain ⟨now, rfl⟩ := h.1 hw
      rfl

theorem OrderDoc.StampedTo.id_eq {d d' : OrderDoc} (h : d.StampedTo d') : d'.id = d.id := by
  rw [h.frame]

/-- After its turn nothing in a document waits. -/
theorem OrderDoc.StampedTo.not_waits {d d' : OrderDoc} (h : d.StampedTo d') :
    d'.waits = false := by
  refine List.any_eq_false.mpr fun e' he' => ?_
  obtain ⟨e, -, he⟩ := exists_of_forall₂ h.outbox he'
  rw [he.not_waiting]
  exact Bool.false_ne_true

/-- A document in which nothing waits is as after its turn. -/
theorem OrderDoc.stampedTo_self {d : OrderDoc} (h : d.waits = false) :
    d.StampedTo d where
  frame := rfl
  outbox := by
    refine forall₂_imp_of_mem (List.forall₂_same.mpr fun _ _ => rfl) fun e he e' hee' => ?_
    have hw : e.waiting = false := Bool.eq_false_iff.mpr (List.any_eq_false.mp h e he)
    obtain rfl : e = e' := hee'
    exact ⟨fun hw' => absurd (hw.symm.trans hw') Bool.false_ne_true, fun _ => rfl⟩

/-- The turn of an order whose events have become `done`. -/
theorem Order.stampedTo {o : Order} {done : List OutboxEvent}
    (h : List.Forall₂ OutboxEvent.StampedTo o.outbox done) :
    o.modelDump.StampedTo ({ o with outbox := done } : Order).modelDump where
  frame := rfl
  outbox := by
    show List.Forall₂ _ (o.outbox.map _) (done.map _)
    rw [List.forall₂_map_left_iff, List.forall₂_map_right_iff]
    exact h.imp fun _ _ => OutboxEvent.StampedTo.modelDump

/-! ### The relay alone -/

/-- A world and the one relay at work on it. -/
abbrev Drain := World × RelayPc

/-- `relay_once` again and again, until a pass returns 0. -/
def Drain.step (s : Drain) (choice : RelayChoice) : Option Drain :=
  match s.2 with
  | .idle (some (.ok 0)) => none
  | pc => pc.step s.1 choice

/-- The last pass returned 0. -/
def Drain.Over (s : Drain) : Prop := s.2 = .idle (some (.ok 0))

theorem Drain.step_eq {s t : Drain} {choice : RelayChoice} (h : s.step choice = some t) :
    ¬ s.Over ∧ s.2.step s.1 choice = some t := by
  unfold Drain.step at h
  unfold Drain.Over
  split at h
  · cases h
  · rename_i hpc
    exact ⟨hpc, h⟩

namespace RelayPc

/-- The orders a pass has in memory, as they were loaded. -/
def held : RelayPc → List Order
  | .idle _ => []
  | .orders rest _ => rest
  | .events order _ _ _ rest _ => order :: rest

/-- What a pass has published of the order it works on. -/
def sent : RelayPc → List Message
  | .events order done _ _ _ _ => messagesOf order.id (order.outbox.take done.length)
  | _ => []

/-- `before` of the outbox has become `done`, and `changed` says whether
anything in it waited. -/
def AtWork : RelayPc → Prop
  | .events order done todo changed _ _ => ∃ before, order.outbox = before ++ todo ∧
      List.Forall₂ OutboxEvent.StampedTo before done ∧ changed = before.any OutboxEvent.waiting
  | _ => True

end RelayPc

/-- Where the run that started in `w₀` is, the turns of `handled` being over. -/
structure Drain.Relayed (w₀ : World) (handled : List OrderDoc) (s : Drain) : Prop where
  frame : s.1 = { w₀ with orders := s.1.orders, published := s.1.published }
  docs : List.Forall₂ (fun d d' => (d ∈ handled → d.StampedTo d') ∧ (d ∉ handled → d' = d))
    w₀.orders.docs s.1.orders.docs
  mem : ∀ d ∈ handled ++ s.2.held.map Order.modelDump,
    d ∈ w₀.orders.docs ∧ d.waits = true
  nodup : (handled ++ s.2.held.map Order.modelDump).Nodup
  atWork : s.2.AtWork
  log : ∃ sent, s.1.published = w₀.published ++ sent ∧
    (handled.flatMap OrderDoc.pendingMessages ++ s.2.sent).Sublist sent

/-! ### What the steps keep -/

theorem messagesOf_append (orderId : String) (xs ys : List OutboxEvent) :
    messagesOf orderId (xs ++ ys) = messagesOf orderId xs ++ messagesOf orderId ys := by
  rw [messagesOf, List.filter_append, List.map_append]
  rfl

theorem messagesOf_waiting {event : OutboxEvent} (orderId : String) (h : event.waiting = true) :
    messagesOf orderId [event] = [event.message orderId] := by
  simp [messagesOf, h]

theorem messagesOf_not_waiting {event : OutboxEvent} (orderId : String)
    (h : event.waiting = false) : messagesOf orderId [event] = [] := by
  simp [messagesOf, h]

theorem RelayPc.sent_events {order : Order} {before done todo : List OutboxEvent}
    {changed : Bool} {rest : List Order} {n : ℕ} (hout : order.outbox = before ++ todo)
    (hdone : List.Forall₂ OutboxEvent.StampedTo before done) :
    (RelayPc.events order done todo changed rest n).sent = messagesOf order.id before := by
  show messagesOf order.id (order.outbox.take done.length) = _
  rw [hout, ← hdone.length_eq, List.take_left]

namespace Drain

variable {w₀ w : World} {handled : List OrderDoc} {last : Option (Except Exn ℕ)} {pc : RelayPc}
  {order : Order} {done todo : List OutboxEvent} {event : OutboxEvent} {changed : Bool}
  {rest batch : List Order} {n : ℕ}

theorem relayed_start : Relayed w₀ [] (w₀, .idle last) where
  frame := rfl
  docs := List.forall₂_same.mpr fun _ _ => ⟨fun h => absurd h List.not_mem_nil, fun _ => rfl⟩
  mem := fun _ hd => absurd hd List.not_mem_nil
  nodup := List.nodup_nil
  atWork := trivial
  log := ⟨[], (List.append_nil _).symm, List.Sublist.refl _⟩

/-- A document of the store in which something waits has not had its turn. -/
theorem Relayed.unhandled {s : Drain} (h : Relayed w₀ handled s) {d : OrderDoc}
    (hd : d ∈ s.1.orders.docs) (hw : d.waits = true) :
    d ∈ w₀.orders.docs ∧ d ∉ handled := by
  obtain ⟨d₀, hd₀, hstamped, hsame⟩ := exists_of_forall₂ h.docs hd
  have hnot : d₀ ∉ handled := by
    intro hmem
    rw [(hstamped hmem).not_waits] at hw
    cases hw
  obtain rfl := hsame hnot
  exact ⟨hd₀, hnot⟩

/-- A document that is not handled is in the store. -/
theorem Relayed.mem_docs {s : Drain} (h : Relayed w₀ handled s) {d : OrderDoc}
    (hd : d ∈ w₀.orders.docs) (hnot : d ∉ handled) : d ∈ s.1.orders.docs := by
  obtain ⟨d', hd', -, hsame⟩ := exists_of_forall₂_left h.docs hd
  exact hsame hnot ▸ hd'

/-- The pass is over, whichever way it ended. -/
theorem Relayed.ended (h : Relayed w₀ handled (w, pc)) :
    Relayed w₀ handled (w, .idle last) where
  frame := h.frame
  docs := h.docs
  mem := fun d hd => h.mem d (List.mem_append_left _ (by simpa [RelayPc.held] using hd))
  nodup := by simpa [RelayPc.held] using h.nodup.of_append_left
  atWork := trivial
  log := by
    obtain ⟨sent, hlog, hsub⟩ := h.log
    refine ⟨sent, hlog, List.Sublist.trans ?_ hsub⟩
    show (_ ++ []).Sublist _
    rw [List.append_nil]
    exact List.sublist_append_left _ _

/-- The batch of a pass, as documents. -/
theorem batch_eq {ids : List String} (hwritten : ∀ d ∈ w₀.orders.docs, d.Written)
    (h : Relayed w₀ handled (w, pc)) (hids : OrderRepository.UnpublishedBatch w.orders ids)
    (hfind : OrderRepository.findWithUnpublishedOutbox w.orders ids = .ok batch) :
    batch.map Order.modelDump = w.orders.getAll ids := by
  have hdump : List.Forall₂ (fun d o => d = o.modelDump) (w.orders.getAll ids) batch := by
    refine forall₂_imp_of_mem (forall₂_of_mapM hfind) fun d hd o ho => ?_
    obtain ⟨hdocs, hp⟩ := waits_of_batch hids hd
    exact ((hwritten d (h.unhandled hdocs hp).1).modelDump_toOrder ho).symm
  exact ((forall₂_iff_eq_map fun _ _ => Iff.rfl).mp hdump.flip).symm

/-- A pass begins with as many orders as the limit allows. -/
theorem batch_length {ids : List String} (hwritten : ∀ d ∈ w₀.orders.docs, d.Written)
    (h : Relayed w₀ handled (w, pc)) (hids : OrderRepository.UnpublishedBatch w.orders ids)
    (hfind : OrderRepository.findWithUnpublishedOutbox w.orders ids = .ok batch) :
    batch.length = min 100 (w.orders.docs.countP OrderDoc.waits) := by
  have hbatch := congrArg List.length (batch_eq hwritten h hids hfind)
  have hids' := congrArg List.length hids.map_docId_getAll
  rw [List.length_map] at hbatch hids'
  rw [hbatch, hids', ← hasUnpublished_eq_waits]
  exact hids.2.2

/-- A pass begins. -/
theorem Relayed.loaded {ids : List String} (hwritten : ∀ d ∈ w₀.orders.docs, d.Written)
    (h : Relayed w₀ handled (w, .idle last)) (hids : OrderRepository.UnpublishedBatch w.orders ids)
    (hfind : OrderRepository.findWithUnpublishedOutbox w.orders ids = .ok batch) :
    Relayed w₀ handled (w, .orders batch 0) := by
  have hbatch := batch_eq hwritten h hids hfind
  have hnodup : (w.orders.getAll ids).Nodup :=
    List.Nodup.of_map _ (hids.map_docId_getAll.symm ▸ hids.1)
  exact
    { frame := h.frame
      docs := h.docs
      mem := fun d hd => by
        rw [RelayPc.held, hbatch] at hd
        rcases List.mem_append.mp hd with hd | hd
        · exact h.mem d (List.mem_append_left _ hd)
        · obtain ⟨hdocs, hp⟩ := waits_of_batch hids hd
          exact ⟨(h.unhandled hdocs hp).1, hp⟩
      nodup := by
        rw [RelayPc.held, hbatch, List.nodup_append]
        refine ⟨h.nodup.of_append_left, hnodup, fun a ha b hb hab => ?_⟩
        obtain ⟨hdocs, hp⟩ := waits_of_batch hids hb
        exact (h.unhandled hdocs hp).2 (hab ▸ ha)
      atWork := trivial
      log := h.log }

/-- The turn of an order begins. -/
theorem Relayed.picked (h : Relayed w₀ handled (w, .orders (order :: rest) n)) :
    Relayed w₀ handled (w, .events order [] order.outbox false rest n) where
  frame := h.frame
  docs := h.docs
  mem := h.mem
  nodup := h.nodup
  atWork := ⟨[], rfl, .nil, rfl⟩
  log := h.log

/-- An event that has its time is passed over. -/
theorem Relayed.skipped (hpub : event.publishedAt ≠ none)
    (h : Relayed w₀ handled (w, .events order done (event :: todo) changed rest n)) :
    Relayed w₀ handled (w, .events order (done ++ [event]) todo changed rest n) ∧
      (RelayPc.events order (done ++ [event]) todo changed rest n).sent =
        (RelayPc.events order done (event :: todo) changed rest n).sent := by
  obtain ⟨before, hout, hdone, hchanged⟩ := h.atWork
  have hwait : event.waiting = false := by
    rcases hp : event.publishedAt with - | at_
    · exact absurd hp hpub
    · simp [OutboxEvent.waiting, hp]
  have hout' : order.outbox = (before ++ [event]) ++ todo := by simpa using hout
  have hdone' : List.Forall₂ OutboxEvent.StampedTo (before ++ [event]) (done ++ [event]) :=
    List.rel_append hdone (.cons ⟨fun hw => absurd (hwait.symm.trans hw) Bool.false_ne_true,
      fun _ => rfl⟩ .nil)
  have hsent : (RelayPc.events order (done ++ [event]) todo changed rest n).sent =
      (RelayPc.events order done (event :: todo) changed rest n).sent := by
    rw [RelayPc.sent_events hout hdone, RelayPc.sent_events hout' hdone', messagesOf_append,
      messagesOf_not_waiting _ hwait, List.append_nil]
  refine ⟨?_, hsent⟩
  exact
    { frame := h.frame
      docs := h.docs
      mem := h.mem
      nodup := h.nodup
      atWork := ⟨before ++ [event], hout', hdone', by simp [hchanged, hwait]⟩
      log := hsent ▸ h.log }

/-- The message of an event is published, and the event stamped in memory. -/
theorem Relayed.published (now : DateTime) (hpub : event.publishedAt = none)
    (h : Relayed w₀ handled (w, .events order done (event :: todo) changed rest n)) :
    Relayed w₀ handled (w.publish (event.message order.id),
        .events order (done ++ [event.stamp now]) todo true rest (n + 1)) ∧
      (RelayPc.events order (done ++ [event.stamp now]) todo true rest (n + 1)).sent =
        (RelayPc.events order done (event :: todo) changed rest n).sent ++
          [event.message order.id] := by
  obtain ⟨before, hout, hdone, hchanged⟩ := h.atWork
  have hwait : event.waiting = true := by simp [OutboxEvent.waiting, hpub]
  have hout' : order.outbox = (before ++ [event]) ++ todo := by simpa using hout
  have hdone' : List.Forall₂ OutboxEvent.StampedTo (before ++ [event])
      (done ++ [event.stamp now]) :=
    List.rel_append hdone (.cons ⟨fun _ => ⟨now, rfl⟩,
      fun hw => absurd (hwait.symm.trans hw).symm Bool.false_ne_true⟩ .nil)
  have hsent : (RelayPc.events order (done ++ [event.stamp now]) todo true rest (n + 1)).sent =
      (RelayPc.events order done (event :: todo) changed rest n).sent ++
        [event.message order.id] := by
    rw [RelayPc.sent_events hout hdone, RelayPc.sent_events hout' hdone', messagesOf_append,
      messagesOf_waiting _ hwait]
  refine ⟨?_, hsent⟩
  obtain ⟨sent, hlog, hsub⟩ := h.log
  exact
    { frame := congrArg (fun v : World => v.publish (event.message order.id)) h.frame
      docs := h.docs
      mem := h.mem
      nodup := h.nodup
      atWork := ⟨before ++ [event], hout', hdone', by simp [hwait]⟩
      log := by
        refine ⟨sent ++ [event.message order.id], ?_, ?_⟩
        · show w.published ++ _ = _
          rw [show w.published = w₀.published ++ sent from hlog, List.append_assoc]
        · rw [hsent, ← List.append_assoc]
          exact hsub.append (List.Sublist.refl _) }

/-- The order at hand is as it was in the beginning. -/
theorem Relayed.at_hand (h : Relayed w₀ handled (w, .events order done todo changed rest n)) :
    order.modelDump ∈ w₀.orders.docs ∧ order.modelDump ∉ handled ∧
      OrderDoc.waits order.modelDump = true := by
  have hmem : order.modelDump ∈ handled ++ (order :: rest).map Order.modelDump :=
    List.mem_append_right _ List.mem_cons_self
  obtain ⟨hdocs, hwait⟩ := h.mem _ hmem
  exact ⟨hdocs, fun hin => (List.nodup_append.mp h.nodup).2.2 _ hin _ List.mem_cons_self rfl, hwait⟩

/-- At the end of an outbox something has changed: the query returns no order
of which nothing waits. -/
theorem Relayed.all_stamped (h : Relayed w₀ handled (w, .events order done [] changed rest n)) :
    changed = true ∧ List.Forall₂ OutboxEvent.StampedTo order.outbox done := by
  obtain ⟨before, hout, hdone, hchanged⟩ := h.atWork
  obtain rfl : order.outbox = before := by simpa using hout
  obtain ⟨-, -, hwait⟩ := h.at_hand
  rw [Order.waits_modelDump] at hwait
  exact ⟨hchanged.trans hwait, hdone⟩

/-- The save of a changed order goes through. -/
theorem Relayed.save_ne_none (h : Relayed w₀ handled (w, .events order done todo changed rest n))
    {outbox : List OutboxEvent} : OrderRepository.save w.orders { order with outbox } ≠ none := by
  intro hnone
  obtain ⟨x, hx, hne, hconflict⟩ := Collection.replaceOne_eq_none.mp hnone
  obtain ⟨hdocs₀, hnot, -⟩ := h.at_hand
  -- its key in the index is the one its document has
  have hdocs := h.mem_docs hdocs₀ hnot
  exact hne (w.orders.unique x hx order.modelDump hdocs hconflict)

/-- The documents after the turn of an order: its own is stamped, and the
others are as before. -/
theorem Relayed.docs_saved (h : Relayed w₀ handled (w, .events order done [] changed rest n))
    {col : Collection OrderDoc}
    (hsave : OrderRepository.save w.orders { order with outbox := done } = some col) :
    List.Forall₂ (fun d d' => (d ∈ handled ++ [order.modelDump] → d.StampedTo d') ∧
      (d ∉ handled ++ [order.modelDump] → d' = d)) w₀.orders.docs col.docs := by
  obtain ⟨-, hdone⟩ := h.all_stamped
  have hstamped := Order.stampedTo hdone
  obtain ⟨hdocs₀, hnot, -⟩ := h.at_hand
  have hcol : col.docs = w.orders.docs.map fun x =>
      if x.id = order.id then ({ order with outbox := done } : Order).modelDump else x := by
    rw [Collection.docs_replaceOne hsave, Collection.upsert, if_pos]
    · rfl
    · exact List.mem_map.mpr ⟨_, h.mem_docs hdocs₀ hnot, rfl⟩
  rw [hcol, List.forall₂_map_right_iff]
  refine forall₂_imp_of_mem h.docs ?_
  rintro d hd d' ⟨hin, hout⟩
  by_cases hdo : d = order.modelDump
  · -- its own document
    obtain rfl := hout (hdo ▸ hnot)
    rw [if_pos (by rw [hdo]; rfl)]
    exact ⟨fun _ => hdo ▸ hstamped, fun hnin => absurd (by simp [hdo]) hnin⟩
  · -- any other stays
    have hid : d'.id = d.id := by
      by_cases hd' : d ∈ handled
      · exact (hin hd').id_eq
      · rw [hout hd']
    have hne : d'.id ≠ order.id := fun he =>
      hdo (Collection.eq_of_docId hd hdocs₀ (hid.symm.trans he))
    rw [if_neg hne]
    simpa [hdo] using And.intro hin hout

/-- The turn of an order is over. -/
theorem Relayed.saved {col : Collection OrderDoc}
    (h : Relayed w₀ handled (w, .events order done [] changed rest n))
    (hsave : OrderRepository.save w.orders { order with outbox := done } = some col) :
    Relayed w₀ (handled ++ [order.modelDump]) ({ w with orders := col }, .orders rest n) := by
  have hlist : handled ++ (order :: rest).map Order.modelDump =
      (handled ++ [order.modelDump]) ++ rest.map Order.modelDump := by simp
  exact
    { frame := congrArg (fun v : World => { v with orders := col }) h.frame
      docs := h.docs_saved hsave
      mem := fun d hd => h.mem d (by
        show d ∈ handled ++ (order :: rest).map Order.modelDump
        rw [hlist]
        exact hd)
      nodup := hlist ▸ h.nodup
      atWork := trivial
      log := by
        -- what was sent of the order is all of it
        obtain ⟨-, hdone⟩ := h.all_stamped
        obtain ⟨sent, hlog, hsub⟩ := h.log
        refine ⟨sent, hlog, ?_⟩
        rw [RelayPc.sent_events (List.append_nil _).symm hdone,
          ← Order.pendingMessages_modelDump] at hsub
        simpa [RelayPc.sent] using hsub }

/-- **One step of the run.** -/
theorem Relayed.steps {w' : World} {pc' : RelayPc} (hwritten : ∀ d ∈ w₀.orders.docs, d.Written)
    (h : Relayed w₀ handled (w, pc)) (hs : RelayPc.Steps w pc w' pc') :
    ∃ more, Relayed w₀ (handled ++ more) (w', pc') := by
  cases hs with
  | loaded hids hfind => exact ⟨[], by simpa using h.loaded hwritten hids hfind⟩
  | picked => exact ⟨[], by simpa using h.picked⟩
  | skipped hpub => exact ⟨[], by simpa using (h.skipped hpub).1⟩
  | published hpub => exact ⟨[], by simpa using (h.published _ hpub).1⟩
  | saved hsave => exact ⟨_, h.saved hsave⟩
  | unchanged => cases h.all_stamped.1
  | ended => exact ⟨[], by simpa using h.ended⟩

/-! ### What is left -/

/-- The orders with an event that waits. -/
def pendingOrders (w : World) : ℕ := w.orders.docs.countP OrderDoc.waits

/-- The handled documents and those in which something waits are the ones
there were in the beginning. -/
theorem Relayed.pending_left (h : Relayed w₀ handled (w, pc)) :
    handled.length + pendingOrders w = pendingOrders w₀ := by
  classical
  have hleft : w₀.orders.docs.countP (fun d => d.waits &&
      !decide (d ∈ handled)) = pendingOrders w := by
    refine countP_eq_of_forall₂ h.docs ?_
    rintro d d' ⟨hin, hout⟩
    by_cases hd : d ∈ handled
    · simp [hd, (hin hd).not_waits]
    · simp [hd, hout hd]
  have hdone : (w₀.orders.docs.filter fun d => d.waits &&
      decide (d ∈ handled)).Perm handled := by
    have hdocs : w₀.orders.docs.Nodup := List.Nodup.of_map _ w₀.orders.nodup_ids
    refine (List.perm_ext_iff_of_nodup (hdocs.filter _) h.nodup.of_append_left).mpr fun d => ?_
    simp only [List.mem_filter, Bool.and_eq_true, decide_eq_true_eq]
    constructor
    · exact fun hd => hd.2.2
    · intro hd
      obtain ⟨hmem, hwait⟩ := h.mem d (List.mem_append_left _ hd)
      exact ⟨hmem, hwait, hd⟩
  have hsplit := List.countP_eq_countP_filter_add w₀.orders.docs OrderDoc.waits
    fun d => decide (d ∈ handled)
  have hcount : w₀.orders.docs.countP (fun d => d.waits &&
      decide (d ∈ handled)) = handled.length :=
    List.countP_eq_length_filter.trans hdone.length_eq
  rw [List.countP_filter, List.countP_filter, hcount, hleft] at hsplit
  exact hsplit.symm

/-- Where nothing is in memory and nothing waits, all have had their turn. -/
theorem Relayed.drained (h : Relayed w₀ handled (w, pc))
    (hlen : handled.length = pendingOrders w₀) :
    handled.Perm (w₀.orders.docs.filter OrderDoc.waits) ∧
      (∀ d ∈ w.orders.docs, d.waits = false) ∧
      List.Forall₂ OrderDoc.StampedTo w₀.orders.docs w.orders.docs := by
  have hnone : pendingOrders w = 0 := by
    have := h.pending_left
    omega
  have hwait : ∀ d ∈ w.orders.docs, d.waits = false := fun d hd =>
    Bool.eq_false_iff.mpr (List.countP_eq_zero.mp hnone d hd)
  refine ⟨?_, hwait, ?_⟩
  · have hsub : handled.Subperm (w₀.orders.docs.filter OrderDoc.waits) :=
      h.nodup.of_append_left.subperm fun d hd =>
        List.mem_filter.mpr (h.mem d (List.mem_append_left _ hd))
    refine hsub.perm_of_length_le ?_
    rw [hlen, pendingOrders, List.countP_eq_length_filter]
  · refine forall₂_imp_of_mem h.docs ?_
    rintro d hd d' ⟨hin, hout⟩
    by_cases hmem : d ∈ handled
    · exact hin hmem
    · obtain rfl := hout hmem
      refine OrderDoc.stampedTo_self (hwait d' ?_)
      exact h.mem_docs hd hmem

end Drain

end FlyDesk
