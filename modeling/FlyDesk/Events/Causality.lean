/-
FlyDesk/Events/Causality.lean

What is in the log, and what is in the store.  Every message is about a stored
order and goes under its id, and a ticket comes after the confirmation of its
booking.  Every stored document can be read, and its status and history tell
one story: confirmed with the entry of its creation, or ticketed with one
ticket more, and then the event of the order is recorded as processed.

Both are invariants of store, log and memory on top of the ones of the outbox:
a pass or a handler writes back what it loaded, so what holds of a document
must hold of every copy of it.
-/
import FlyDesk.Events.Commit

namespace FlyDesk

open Lib

variable {w w' : World} {p p' q : Proc} {choice : ProcChoice}

/-! ### The log -/

@[simp] theorem OrderDoc.bookingReference_core (d : OrderDoc) :
    d.core.bookingReference = d.bookingReference := rfl

theorem OrderDoc.bookingReference_eq_of_core {d d' : OrderDoc} (h : d'.core = d.core) :
    d'.bookingReference = d.bookingReference := by
  rw [← d'.bookingReference_core, h, d.bookingReference_core]

/-- The message is about a stored order, under whose id it goes; it confirms the
booking, or it is the ticket and `earlier` has the confirmation. -/
structure Message.Explained (w : World) (earlier : List Message) (m : Message) : Prop where
  names : ∃ d ∈ w.orders.docs, m.key = some d.id ∧ m.value.orderId = .ok (some d.id) ∧
    Dict.get? m.value.payload "booking_reference" = some (Json.ofOption d.bookingReference)
  kind : m.topic = Topic.bookingsConfirmed ∧ m.value.type = "BookingConfirmed" ∨
    m.topic = Topic.ticketsIssued ∧ m.value.type = "TicketIssued" ∧
      ∃ c ∈ earlier, c.topic = Topic.bookingsConfirmed ∧ c.key = m.key

/-- Every message of the log is explained by what is before it. -/
def World.Causal (w : World) : Prop :=
  ∀ before m, before ++ [m] <+: w.published → m.Explained w before

theorem Message.Explained.mono {earlier : List Message} {m : Message} (h : w.Grows w')
    (hm : m.Explained w earlier) : m.Explained w' earlier where
  names := by
    obtain ⟨d, hd, hkey, hid, href⟩ := hm.names
    obtain ⟨d', hd', hcore⟩ := h.docs d hd
    have hid' := OrderDoc.id_eq_of_core hcore
    have href' := OrderDoc.bookingReference_eq_of_core hcore
    exact ⟨d', hd', by rw [hid', hkey], by rw [hid', hid], by rw [href', href]⟩
  kind := hm.kind

theorem World.Causal.of_published (h : w.Grows w') (hw : w.Causal)
    (heq : w'.published = w.published) : w'.Causal :=
  fun before m hpre => (hw before m (heq ▸ hpre)).mono h

/-- One message more. -/
theorem World.Causal.publish {m : Message} (h : w.Grows w') (hw : w.Causal)
    (heq : w'.published = w.published ++ [m]) (hm : m.Explained w' w.published) :
    w'.Causal := by
  intro before m' hpre
  rw [heq] at hpre
  rcases List.prefix_concat_iff.mp hpre with hlast | hpre
  · obtain ⟨rfl, rfl⟩ := List.append_singleton_inj.mp hlast
    exact hm
  · exact (hw before m' hpre).mono h

/-- The confirmation of a stored order is explained. -/
theorem explained_confirmation {d : OrderDoc} (hd : d ∈ w.orders.docs) (hbooked : d.Booked)
    {e : OutboxDoc} (he : e ∈ d.outbox) (earlier : List Message) :
    (confirmation d.id e.value).Explained w earlier where
  names := by
    refine ⟨d, hd, rfl, hbooked.orderId_value he, ?_⟩
    obtain ⟨e', hout, -, hpayload⟩ := hbooked
    rw [hout, List.mem_singleton] at he
    subst he
    show Dict.get? e.payload "booking_reference" = _
    rw [hpayload]
    rfl
  kind := by
    obtain ⟨e', hout, htype, -⟩ := hbooked
    rw [hout, List.mem_singleton] at he
    subst he
    exact Or.inl ⟨rfl, htype⟩

/-- A worker about to publish a ticket has the id of an order, and its reference. -/
def Proc.HoldsOrder (w : World) (p : Proc) : Prop :=
  ∀ offset event id order, p = .worker (.run offset event (.publishTicket id order)) →
    ∃ d ∈ w.orders.docs, d.id = id ∧ d.bookingReference = order.bookingReference

theorem Proc.HoldsOrder.mono (h : w.Grows w') (hp : p.HoldsOrder w) : p.HoldsOrder w' := by
  intro offset event id order hrun
  obtain ⟨d, hd, hid, href⟩ := hp offset event id order hrun
  obtain ⟨d', hd', hcore⟩ := h.docs d hd
  exact ⟨d', hd', (OrderDoc.id_eq_of_core hcore).trans hid,
    (OrderDoc.bookingReference_eq_of_core hcore).trans href⟩

theorem Proc.Steps.holdsOrder (h : Proc.Steps w p choice w' p') (hlinked : p.Linked) :
    p'.HoldsOrder w' := by
  rintro offset event id order rfl
  rcases h with - | - | hsteps
  generalize hrun : WorkerPc.run offset event (.publishTicket id order) = pc' at hsteps
  cases hsteps with
  | @foundTicketed _ _ _ _ _ _ d _ hd hid hread _ =>
      obtain ⟨rfl, rfl, hpc⟩ := WorkerPc.run.inj hrun
      obtain ⟨rfl, rfl⟩ := HandlerPc.publishTicket.inj hpc
      obtain ⟨total, _, rfl⟩ := OrderDoc.toOrder_eq_ok.mp hread
      exact ⟨d, hd, hid, rfl⟩
  | @saved _ _ now _ _ _ order _ hsave =>
      obtain ⟨rfl, rfl, hpc⟩ := WorkerPc.run.inj hrun
      obtain ⟨rfl, rfl⟩ := HandlerPc.publishTicket.inj hpc
      refine ⟨(order.ticketed now).modelDump, ?_, hlinked.2, rfl⟩
      exact (Collection.mem_replaceOne hsave).mpr (Or.inl rfl)
  | @marked _ _ c => cases c <;> simp [Consumer.work] at hrun
  | @skipped _ _ c => cases c <;> simp [Consumer.next] at hrun
  | _ => simp at hrun

/-- **What a step publishes is explained by the log before it.** -/
theorem Proc.Steps.causal (h : Proc.Steps w p choice w' p') (hw : w.Faithful)
    (hp : p.Faithful w) (hdel : p.Delivered w) (hlinked : p.Linked) (hholds : p.HoldsOrder w)
    (hcausal : w.Causal) : w'.Causal := by
  have hgrows := h.grows hp
  rcases h.published with heq | ⟨-, hrelay | hworker⟩
  · exact hcausal.of_published hgrows heq
  · -- the relay confirms the order it has loaded
    obtain ⟨order, done, event, todo, changed, rest, n, rfl, heq⟩ := hrelay
    obtain ⟨d, hd, -, e, he, -, -, hmsg⟩ := hp.message_eq hw
    refine hcausal.publish hgrows heq (Message.Explained.mono hgrows ?_)
    rw [hmsg]
    exact explained_confirmation hd (hw.booked d hd) he w.published
  · -- the worker was delivered the confirmation of the order it tickets
    obtain ⟨offset, event, id, order, uuid, rfl, rfl, heq⟩ := hworker
    obtain ⟨d, hd, e, he, rfl, hat⟩ := hdel offset event _ rfl
    obtain ⟨d', hd', rfl, href⟩ := hholds _ _ _ _ rfl
    have horder := (hw.booked d hd).orderId_value he
    obtain hid : d.id = d'.id := Option.some.inj (Except.ok.inj (horder.symm.trans hlinked))
    refine hcausal.publish hgrows heq (Message.Explained.mono hgrows ⟨?_, Or.inr ⟨rfl, rfl, ?_⟩⟩)
    · refine ⟨d', hd', rfl, rfl, ?_⟩
      rw [href]
      rfl
    · exact ⟨_, List.mem_of_getElem? hat, rfl, congrArg some hid⟩

/-! ### The store -/

/-- The entry `map_order` begins the history with. -/
def OrderDoc.creation (d : OrderDoc) (now : DateTime) : OrderEvent where
  type := "order.created"
  occurredAt := now
  detail := some ("Duffel order " ++ d.id ++ " (PNR " ++ d.bookingReference.getD "None" ++ ")")

/-- The entry `handle_ticketing` adds. -/
def ticketEntry (now : DateTime) : OrderEvent where
  type := "ticket.issued"
  occurredAt := now
  detail := some "e-ticket issued"

/-- The document is confirmed, with its creation for a history; or ticketed, with a
ticket behind it, and its event is recorded. -/
def OrderDoc.OnRecord (w : World) (d : OrderDoc) : Prop :=
  ∃ created, d.status = .confirmed ∧ d.events = [d.creation created] ∨
    d.status = .ticketed ∧
      (∃ ticketed, d.events = [d.creation created, ticketEntry ticketed]) ∧
      ∃ e ∈ d.outbox, (Consumer.ticketing.name, e.id) ∈ w.processed

theorem OrderDoc.OnRecord.mono {d : OrderDoc} (h : w.processed ⊆ w'.processed)
    (hd : d.OnRecord w) : d.OnRecord w' := by
  obtain ⟨created, hconfirmed | ⟨hst, hevents, e, he, hin⟩⟩ := hd
  · exact ⟨created, Or.inl hconfirmed⟩
  · exact ⟨created, Or.inr ⟨hst, hevents, e, he, h hin⟩⟩

/-- Publication times do not matter. -/
theorem OrderDoc.OnRecord.of_outbox {d : OrderDoc} {outbox : List OutboxDoc}
    (hd : d.OnRecord w) (h : outbox.map OutboxDoc.core = d.outbox.map OutboxDoc.core) :
    ({ d with outbox } : OrderDoc).OnRecord w := by
  obtain ⟨created, hconfirmed | ⟨hst, hevents, e, he, hin⟩⟩ := hd
  · exact ⟨created, Or.inl hconfirmed⟩
  · refine ⟨created, Or.inr ⟨hst, hevents, ?_⟩⟩
    have hmem : e.core ∈ outbox.map OutboxDoc.core := h ▸ List.mem_map_of_mem he
    obtain ⟨e', he', hcore⟩ := List.mem_map.mp hmem
    exact ⟨e', he', OutboxDoc.id_eq_of_core hcore ▸ hin⟩

/-- The points of ticketing at which the event is recorded. -/
def HandlerPc.Recorded : HandlerPc → Prop
  | .getOrder | .saveOrder _ _ _ => True
  | _ => False

/-- The orders of a process are on record, and a handler that tickets an order has
recorded its event. -/
structure Proc.OnRecord (w : World) (p : Proc) : Prop where
  staged : ∀ call st, p = .booking call → call.pc = .save st → st.modelDump.OnRecord w
  loaded : ∀ o ∈ p.loaded, o.modelDump.OnRecord w
  recorded : ∀ offset event pc, p = .worker (.run offset event pc) → pc.Recorded →
    (Consumer.ticketing.name, event.id) ∈ w.processed

theorem Proc.OnRecord.mono (h : w.processed ⊆ w'.processed) (hp : p.OnRecord w) :
    p.OnRecord w' where
  staged := fun call st hcall hpc => (hp.staged call st hcall hpc).mono h
  loaded := fun o ho => (hp.loaded o ho).mono h
  recorded := fun offset event pc hrun hpc => h (hp.recorded offset event pc hrun hpc)

/-- The stored orders are on record. -/
def World.OnRecord (w : World) : Prop :=
  ∀ d ∈ w.orders.docs, d.OnRecord w

theorem Order.onRecord_staged (data : DuffelProvider.OrderData)
    (passengers : List BookingPassenger) (key : Option IdempotencyKey) (uuid : String)
    (now : DuffelProvider.OrderClock) : ((DuffelProvider.mapOrder data passengers now).staged
      key uuid now.stagedAt).modelDump.OnRecord w :=
  ⟨now.occurredAt, Or.inl ⟨rfl, rfl⟩⟩

/-- The order `handle_ticketing` saves, when the event of the order is recorded. -/
theorem Order.onRecord_ticketed {order : Order} (h : order.modelDump.OnRecord w)
    (hst : order.status ≠ .ticketed) {e : OutboxDoc} (he : e ∈ order.modelDump.outbox)
    (hin : (Consumer.ticketing.name, e.id) ∈ w.processed) (now : DateTime) :
    (order.ticketed now).modelDump.OnRecord w := by
  obtain ⟨created, ⟨-, hevents⟩ | ⟨hst', -⟩⟩ := h
  · refine ⟨created, Or.inr ⟨rfl, ⟨now, ?_⟩, e, he, hin⟩⟩
    show order.events ++ [ticketEntry now] = _
    rw [show order.events = _ from hevents]
    rfl
  · exact absurd hst' hst

/-- **A step keeps the store on record.** -/
theorem Proc.Steps.onRecord (h : Proc.Steps w p choice w' p') (hw : w.Faithful)
    (hp : p.Faithful w) (hdel : p.Delivered w) (hlinked : p.Linked) (htidy : p.Tidy)
    (hstore : w.OnRecord) (hown : p.OnRecord w) : w'.OnRecord := by
  have hmono := h.processed_subset
  intro d hd
  rcases h.orders with ⟨heq, -⟩ | ⟨-, -, hbooking | hrelay | hworker⟩
  · exact (hstore d (heq ▸ hd)).mono hmono
  · obtain ⟨call, st, rfl, hpc, hsave⟩ := hbooking
    rcases (Collection.mem_replaceOne hsave).mp hd with rfl | ⟨hd, -⟩
    · exact (hown.staged call st rfl hpc).mono hmono
    · exact (hstore d hd).mono hmono
  · obtain ⟨order, done, rest, n, rfl, hsave⟩ := hrelay
    rcases (Collection.mem_replaceOne hsave).mp hd with rfl | ⟨hd, -⟩
    · have hcore : done.map OutboxEvent.core = order.outbox.map OutboxEvent.core := by
        simpa using hp.inOrder.1
      refine ((hown.loaded order List.mem_cons_self).of_outbox ?_).mono hmono
      rw [Order.modelDump, List.map_map, List.map_map]
      exact hcore
    · exact (hstore d hd).mono hmono
  · obtain ⟨offset, event, id, order, now, rfl, hsave⟩ := hworker
    rcases (Collection.mem_replaceOne hsave).mp hd with rfl | ⟨hd, -⟩
    · -- the event of the order is the one the worker was delivered
      obtain ⟨d₀, hd₀, e, he, rfl, -⟩ := hdel offset event _ rfl
      have horder := (hw.booked d₀ hd₀).orderId_value he
      obtain hid : d₀.id = id :=
        Option.some.inj (Except.ok.inj (horder.symm.trans hlinked.1))
      have hcore := (hp.loaded order List.mem_cons_self).core_eq hd₀ (hid.trans hlinked.2.symm)
      obtain ⟨e', he', hecore⟩ := OrderDoc.mem_outbox_of_core hcore.symm he
      have hrecorded := hown.recorded _ _ _ rfl trivial
      refine (Order.onRecord_ticketed (hown.loaded order List.mem_cons_self)
        (htidy.saving _ _ _ _ _ rfl) he' ?_ now).mono hmono
      rw [OutboxDoc.id_eq_of_core hecore]
      exact hrecorded
    · exact (hstore d hd).mono hmono

/-- A step keeps what its process holds on record. -/
theorem Proc.Steps.onRecord_own (h : Proc.Steps w p choice w' p') (hw : w.Faithful)
    (hstore : w.OnRecord) (hown : p.OnRecord w) : p'.OnRecord w' where
  staged := by
    rintro call st rfl hpc
    cases h with
    | @booking call₀ _ _ _ h =>
        obtain ⟨ps, data, _, _, uuid, now, _, _, _, rfl, _⟩ := h.to_save hpc
        exact Order.onRecord_staged data ps call₀.call.key uuid now
  loaded := by
    intro o ho
    rcases h.loaded ho with hold | ⟨rfl, d, hd, hread⟩
    · exact (hown.loaded o hold).mono h.processed_subset
    · rw [(hw.written d hd).modelDump_toOrder hread]
      exact hstore d hd
  recorded := by
    rintro offset event pc rfl hpc
    have hmono := h.processed_subset
    rcases h with - | - | hsteps
    generalize hrun : WorkerPc.run offset event pc = pc' at hsteps
    cases hsteps with
    | @marked _ _ c =>
        obtain ⟨rfl, rfl, rfl⟩ := WorkerPc.run.inj hrun
        cases c with
        | ticketing => exact List.mem_append_right _ (List.mem_singleton.mpr rfl)
        | _ => cases hpc
    | @skipped _ _ c =>
        obtain ⟨rfl, rfl, rfl⟩ := WorkerPc.run.inj hrun
        cases c <;> cases hpc
    | found =>
        obtain ⟨rfl, rfl, rfl⟩ := WorkerPc.run.inj hrun
        exact hown.recorded _ _ _ rfl trivial
    | orderUnreadable | unsaved | committed | stopped => cases hrun
    | _ =>
        obtain ⟨rfl, rfl, rfl⟩ := WorkerPc.run.inj hrun
        cases hpc

/-! ### Runs -/

namespace FlyDeskSystem

variable {ι : Type*}

/-- What the log and the store explain, on top of what lives in every state. -/
structure Explained (s : FlyDeskSystem ι) : Prop where
  live : Live s
  linked : ∀ i, (s.procs i).Linked
  holds : ∀ i, (s.procs i).HoldsOrder s.shared
  causal : s.shared.Causal
  store : s.shared.OnRecord
  memory : ∀ i, (s.procs i).OnRecord s.shared

theorem Fresh.explained {s : FlyDeskSystem ι} (hs : s.Fresh) : Explained s where
  live := hs.live
  linked := fun i => (hs.initial i).linked
  holds := fun i offset event id order hi => absurd hi (hs.not_running i offset event _)
  causal := by
    intro before m hpre
    rw [hs.shared] at hpre
    simp [World.fresh] at hpre
  store := by
    intro d hd
    rw [hs.shared] at hd
    cases hd
  memory := fun i =>
    { staged := fun call st hi hpc => absurd hpc (hs.not_saving hi st)
      loaded := fun o ho => by
        rw [(hs.initial i).loaded] at ho
        cases ho
      recorded := fun offset event pc hi => absurd hi (hs.not_running i offset event pc) }

variable [DecidableEq ι]

theorem Explained.step {s t : FlyDeskSystem ι} {m : FlyDeskMove ι} (hs : Explained s)
    (hfresh : FreshIds s m) (h : FlyDeskSystem.step s m = some t) : Explained t := by
  have hgrows := grows_of_step hs.live.outbox h
  have hlive := hs.live.step hfresh h
  have hlinked : ∀ i, (t.procs i).Linked :=
    fun j => by
      rcases System.procs_of_step h j with he | ⟨c, -, hf⟩
      · exact he ▸ hs.linked j
      · exact (Proc.steps_of_step hf).linked (hs.linked j)
  cases m with
  | env seconds =>
      obtain ⟨w, hw, rfl⟩ := System.step_env h
      obtain rfl := Option.some.inj hw
      exact
        { live := hlive
          linked := hlinked
          holds := fun j => (hs.holds j).mono hgrows
          causal := hs.causal.of_published hgrows rfl
          store := fun d hd => (hs.store d hd).mono fun _ hx => hx
          memory := fun j => (hs.memory j).mono (w := s.shared) fun _ hx => hx }
  | proc i c =>
      obtain ⟨w, p', hf, rfl⟩ := System.step_proc h
      have hstep := Proc.steps_of_step hf
      have hw := hs.live.outbox.shared
      have hp := hs.live.outbox.each i
      have hdel := hs.live.delivered i
      exact
        { live := hlive
          linked := hlinked
          holds := (Function.forall_update_iff _ fun _ (p : Proc) => p.HoldsOrder w).mpr
            ⟨hstep.holdsOrder (hs.linked i), fun j _ => (hs.holds j).mono hgrows⟩
          causal := hstep.causal hw hp hdel (hs.linked i) (hs.holds i) hs.causal
          store := hstep.onRecord hw hp hdel (hs.linked i) (hs.live.tidyProcs i) hs.store
            (hs.memory i)
          memory := (Function.forall_update_iff _ fun _ (p : Proc) => p.OnRecord w).mpr
            ⟨hstep.onRecord_own hw hs.store (hs.memory i),
              fun j _ => (hs.memory j).mono hstep.processed_subset⟩ }

variable {s t : FlyDeskSystem ι} {steps : List (FlyDeskSystem ι × FlyDeskMove ι)}

theorem explained_run (h : Trace FlyDeskSystem.step s steps t) (hs : s.Fresh)
    (hfresh : ∀ p ∈ steps, FreshIds p.1 p.2) : Explained t :=
  h.invariant hfresh hs.explained fun hI hok hstep => hI.step hok hstep

/-- **The log is causal.**  In every run of the system in which order ids are
fresh, every message of the log confirms a booking or issues a ticket; it goes
under the id of the stored order that it is about, with the reference of that
order; and a ticket comes after a confirmation under the same key. -/
theorem log_causal (h : Trace FlyDeskSystem.step s steps t) (hs : s.Fresh)
    (hfresh : ∀ p ∈ steps, FreshIds p.1 p.2) {before : List Message} {m : Message}
    (hm : before ++ [m] <+: t.shared.published) : m.Explained t.shared before :=
  (explained_run h hs hfresh).causal before m hm

/-- Two messages: the confirmation, and the ticket behind it. -/
theorem log_causal_desk :
    let run := Sample.booked ++ Sample.deliver .worker 0 ::
      List.replicate 4 (Sample.workerGo .worker)
    ∃ t, exec FlyDeskSystem.step Sample.desk run = some t ∧
      ∃ c m, t.shared.published = [c] ++ [m] ∧ m.value.type = "TicketIssued" ∧
        m.Explained t.shared [c] := by
  intro run
  obtain ⟨t, ht, hlen, htype⟩ := exec_any (P := fun t : FlyDeskSystem Sample.Role =>
    t.shared.published.length = 2 ∧ ∀ m ∈ t.shared.published[1]?, m.value.type = "TicketIssued")
    (by decide : (exec FlyDeskSystem.step Sample.desk run).any _ = true)
  obtain ⟨c, m, hcm⟩ := List.length_eq_two.mp hlen
  refine ⟨t, ht, c, m, hcm, htype m (by rw [hcm]; rfl), ?_⟩
  refine log_causal (Trace.of_exec ht) fresh_desk (by decide) ?_
  rw [hcm]
  exact List.prefix_rfl

/-- **Status and history agree.**  In every run of the system in which order ids
are fresh, every stored document can be read; it is confirmed, with the entry of its
creation for a history, or it is ticketed, with one ticket after that entry, and
then its event is recorded as processed by ticketing. -/
theorem stored_onRecord (h : Trace FlyDeskSystem.step s steps t) (hs : s.Fresh)
    (hfresh : ∀ p ∈ steps, FreshIds p.1 p.2) :
    ∀ d ∈ t.shared.orders.docs, (∃ o, d.toOrder = .ok o) ∧ d.OnRecord t.shared := by
  have ht := explained_run h hs hfresh
  exact fun d hd => ⟨(ht.live.outbox.shared.written d hd).toOrder_ok, ht.store d hd⟩

/-- A pass that has loaded a confirmed order writes it back after the worker has
ticketed it: the document is confirmed again, with the history of a confirmed one. -/
theorem stored_onRecord_overtaken :
    let run := Sample.books .caller "ord_1" "e1" ++ [Sample.relayLoad .relay ["ord_1"]] ++
      List.replicate 2 (Sample.relayGo .relay) ++ Sample.deliver .worker 0 ::
      List.replicate 3 (Sample.workerGo .worker) ++ [Sample.relayGo .relay]
    ∃ t, exec FlyDeskSystem.step Sample.desk run = some t ∧
      t.shared.processed.length = 1 ∧ (∃ d ∈ t.shared.orders.docs, d.status = .confirmed) ∧
      ∀ d ∈ t.shared.orders.docs, (∃ o, d.toOrder = .ok o) ∧ d.OnRecord t.shared := by
  intro run
  obtain ⟨t, ht, hlen, hst⟩ := exec_any (P := fun t : FlyDeskSystem Sample.Role =>
    t.shared.processed.length = 1 ∧ ∃ d ∈ t.shared.orders.docs, d.status = .confirmed)
    (by decide : (exec FlyDeskSystem.step Sample.desk run).any _ = true)
  exact ⟨t, ht, hlen, hst, stored_onRecord (Trace.of_exec ht) fresh_desk (by decide)⟩

end FlyDeskSystem

end FlyDesk
