/-
FlyDesk/Events/AtMostOnce.lean

Effects at most once, end to end.  A message can be published again by
another relay or after a crash, and delivered again to any worker.  What
stands against it is the record of processed events, inserted before the work
of a consumer.  It is a one-shot guard (`Lib.Guard`), and its key is stable
because the id of an event never changes from the outbox through every
publication.

For audit rows and notifications the guard is the record itself; for tickets
it is the record of the one event of the order, so the invariant of the
outbox is needed to see that no two events are about one order.
-/
import FlyDesk.Events.Outbox

namespace FlyDesk

open Lib

/-! ### Delivered events -/

/-- The event a worker handles is the confirmation of a stored order, at its
offset in the log. -/
def Proc.Delivered (w : World) (p : Proc) : Prop :=
  ∀ offset event pc, p = .worker (.run offset event pc) →
    ∃ d ∈ w.orders.docs, ∃ e ∈ d.outbox, event = e.value ∧
      w.published[offset]? = some (confirmation d.id e.value)

/-- The event of a message on the topic of confirmations is a confirmation. -/
theorem topicFor_eq_bookingsConfirmed {type : String}
    (h : Topic.topicFor type = Topic.bookingsConfirmed) : type = "BookingConfirmed" := by
  unfold Topic.topicFor at h
  split at h
  · assumption
  · split at h <;> simp [Topic.bookingsConfirmed, Topic.ticketsIssued] at h

/-- A worker handles one event between two deliveries. -/
theorem WorkerPc.Steps.event_eq {w w' : World} {pc pc' : WorkerPc} {choice : WorkerChoice}
    (h : WorkerPc.Steps w pc choice w' pc') {offset : ℕ} {event : EventValue}
    {hpc : HandlerPc} (hrun : pc' = .run offset event hpc) :
    (∃ hpc₀, pc = .run offset event hpc₀) ∨
      ∃ m, w.published[offset]? = some m ∧ m.topic = Topic.bookingsConfirmed ∧
        m.value = event ∧ hpc = .mark .ticketing ∧ w' = w := by
  cases h with
  | delivered hm htopic =>
      obtain ⟨rfl, rfl, rfl⟩ := WorkerPc.run.inj hrun
      exact Or.inr ⟨_, hm, htopic, rfl, rfl, rfl⟩
  | orderUnreadable | unsaved | committed | stopped => cases hrun
  | _ =>
      obtain ⟨rfl, rfl, _⟩ := WorkerPc.run.inj hrun
      exact Or.inl ⟨_, rfl⟩

variable {w w' : World} {p p' : Proc} {choice : ProcChoice}

/-- A message stays at its offset. -/
theorem World.Grows.at_offset (h : w.Grows w') {offset : ℕ} {m : Message}
    (hm : w.published[offset]? = some m) : w'.published[offset]? = some m := by
  obtain ⟨later, hlater⟩ := h.published
  have hlt : offset < w.published.length := (List.getElem?_eq_some_iff.mp hm).1
  rw [← hlater, List.getElem?_append_left hlt]
  exact hm

theorem Proc.Delivered.mono (h : w.Grows w') (hp : p.Delivered w) : p.Delivered w' := by
  intro offset event pc hrun
  obtain ⟨d, hd, e, he, hevent, hoff⟩ := hp offset event pc hrun
  obtain ⟨d', hd', hcore⟩ := h.docs d hd
  obtain ⟨e', he', hecore⟩ := OrderDoc.mem_outbox_of_core hcore he
  have hvalue := OutboxDoc.value_eq_of_core hecore
  refine ⟨d', hd', e', he', hevent.trans hvalue.symm, ?_⟩
  rw [OrderDoc.id_eq_of_core hcore, hvalue]
  exact h.at_offset hoff

theorem Proc.Steps.delivered (h : Proc.Steps w p choice w' p') (hw : w.Faithful)
    (hgrows : w.Grows w') (hp : p.Delivered w) : p'.Delivered w' := by
  rintro offset event pc rfl
  cases h with
  | @worker pc₀ _ _ _ h =>
      rcases h.event_eq rfl with ⟨pc₁, rfl⟩ | ⟨m, hm, htopic, hvalue, _, rfl⟩
      · exact hp.mono hgrows offset event pc₁ rfl
      · -- the message is a confirmation, by its topic
        have hmem := List.mem_of_getElem? hm
        have htype := topicFor_eq_bookingsConfirmed ((hw.routed m hmem).symm.trans htopic)
        obtain ⟨d, hd, e, he, rfl⟩ := hw.confirmed m hmem htype
        exact ⟨d, hd, e, he, hvalue.symm, hm⟩

/-! ### Audit rows and notifications -/

/-- The effects of a consumer for an event that the record guards. -/
def Consumer.effects (c : Consumer) (eventId : String) (w : World) : ℕ :=
  match c with
  | .ticketing => 0
  | .notifications => w.notified.countP fun ev => ev.id = eventId
  | .audit => w.audit.countP fun row => row.eventId = eventId

/-- The record of an event by a consumer, as a guard of its effects. -/
def recorded (c : Consumer) (eventId : String) : Guard World Proc where
  claimed w := (c.name, eventId) ∈ w.processed
  used w := c.effects eventId w
  holding p := ∃ offset event, p = .worker (.run offset event c.work) ∧ event.id = eventId

/-- The records only grow. -/
theorem Proc.Steps.processed (h : Proc.Steps w p choice w' p') :
    w'.processed = w.processed ∨ ∃ offset event c,
      p = .worker (.run offset event (.mark c)) ∧
      p' = .worker (.run offset event c.work) ∧ (c.name, event.id) ∉ w.processed ∧
      w' = { w with processed := w.processed ++ [(c.name, event.id)] } := by
  cases h with
  | booking h => cases h <;> exact Or.inl rfl
  | relay h => cases h <;> exact Or.inl rfl
  | worker h =>
      cases h with
      | marked hnew => exact Or.inr ⟨_, _, _, rfl, rfl, hnew, rfl⟩
      | _ => exact Or.inl rfl

theorem Proc.Steps.processed_subset (h : Proc.Steps w p choice w' p') :
    w.processed ⊆ w'.processed := by
  rcases h.processed with heq | ⟨_, _, _, _, _, _, rfl⟩
  · exact heq ▸ fun _ hx => hx
  · exact fun _ hx => List.mem_append_left _ hx

/-- What a step does to the effects of a consumer: nothing, or it is the step
of a worker that does the work. -/
theorem Proc.Steps.effects (h : Proc.Steps w p choice w' p') (c : Consumer)
    (eventId : String) : c.effects eventId w' = c.effects eventId w ∨
      ((recorded c eventId).holding p ∧ ¬ (recorded c eventId).holding p' ∧
        c.effects eventId w' = c.effects eventId w + 1) := by
  cases h with
  | booking h => cases h <;> exact Or.inl rfl
  | relay h => cases h <;> exact Or.inl rfl
  | worker h =>
      cases h with
      | @notified offset event =>
          cases c with
          | notifications =>
              by_cases hid : event.id = eventId
              · refine Or.inr ⟨⟨_, _, rfl, hid⟩, ?_, ?_⟩
                · rintro ⟨_, _, h, _⟩
                  simp [Consumer.work] at h
                · simp [Consumer.effects, hid]
              · exact Or.inl (by simp [Consumer.effects, hid])
          | _ => exact Or.inl rfl
      | @audited offset event now =>
          cases c with
          | audit =>
              by_cases hid : event.id = eventId
              · refine Or.inr ⟨⟨_, _, rfl, hid⟩, ?_, ?_⟩
                · rintro ⟨_, _, h, _⟩
                  simp [Consumer.work] at h
                · simp [Consumer.effects, auditRow, hid]
              · exact Or.inl (by simp [Consumer.effects, auditRow, hid])
          | _ => exact Or.inl rfl
      | _ => cases c <;> exact Or.inl rfl

/-- How a worker comes to hold a record: by inserting it. -/
theorem Proc.Steps.holding (h : Proc.Steps w p choice w' p') {c : Consumer}
    {eventId : String} (hh : (recorded c eventId).holding p') :
    (c.name, eventId) ∉ w.processed ∧ (c.name, eventId) ∈ w'.processed := by
  obtain ⟨offset, event, rfl, rfl⟩ := hh
  cases h with
  | worker h =>
      generalize hpc : WorkerPc.run offset event c.work = pc' at h
      cases h with
      | @marked offset' event' c' now uuid hnew =>
          obtain ⟨rfl, rfl, hwork⟩ := WorkerPc.run.inj hpc
          have hc : c = c' := by cases c <;> cases c' <;> simp_all [Consumer.work]
          subst hc
          exact ⟨hnew, by simp⟩
      | @skipped _ _ c' => cases c <;> cases c' <;> simp [Consumer.work, Consumer.next] at hpc
      | _ => cases c <;> simp [Consumer.work] at hpc

/-- **The record guards the effects of a consumer.** -/
theorem recorded_moves (h : Proc.Steps w p choice w' p') (c : Consumer)
    (eventId : String) : (recorded c eventId).Moves w p w' p' := by
  rcases h.effects c eventId with heff | ⟨hheld, hfree, heff⟩
  · by_cases hh : (recorded c eventId).holding p'
    · obtain ⟨hnew, hin⟩ := h.holding hh
      exact .claim hnew hin heff
    · exact .quiet (fun hc => h.processed_subset hc) heff fun hh' => absurd hh' hh
  · exact .use hheld hfree (fun hc => h.processed_subset hc) heff

/-! ### Tickets -/

/-- The points from the record of an event to the publication of the ticket
of the order. -/
def HandlerPc.Ticketing (orderId : String) (event : EventValue) : HandlerPc → Prop
  | .getOrder => event.orderId = .ok (some orderId)
  | .saveOrder id _ _ => id = orderId
  | .publishTicket id _ => id = orderId
  | _ => False

/-- The messages that issue a ticket for an order. -/
def World.tickets (orderId : String) (w : World) : ℕ :=
  w.published.countP fun m => m.value.type = "TicketIssued" ∧ m.key = some orderId

/-- The record of the event of an order, as a guard of its ticket. -/
def ticketRecorded (orderId : String) : Guard World Proc where
  claimed w := ∃ d ∈ w.orders.docs, d.id = orderId ∧
    ∃ e ∈ d.outbox, (Consumer.ticketing.name, e.id) ∈ w.processed
  used w := w.tickets orderId
  holding p := ∃ offset event pc, p = .worker (.run offset event pc) ∧
    pc.Ticketing orderId event

/-- The event of a booked order is about this order. -/
theorem OrderDoc.Booked.orderId_value {d : OrderDoc} (hd : d.Booked) {e : OutboxDoc}
    (he : e ∈ d.outbox) : e.value.orderId = .ok (some d.id) := by
  obtain ⟨e', hout, _, hpayload⟩ := hd
  rw [hout, List.mem_singleton] at he
  subst he
  simp [EventValue.orderId, OutboxDoc.value, hpayload, OrderDoc.confirmedPayload]

/-- A booked order has one event. -/
theorem OrderDoc.Booked.eq_of_mem {d : OrderDoc} (hd : d.Booked) {e e' : OutboxDoc}
    (he : e ∈ d.outbox) (he' : e' ∈ d.outbox) : e = e' := by
  obtain ⟨x, hout, _⟩ := hd
  rw [hout, List.mem_singleton] at he he'
  rw [he, he']

/-- What a step does to the tickets of an order: nothing, or a worker
publishes one. -/
theorem Proc.Steps.tickets (h : Proc.Steps w p choice w' p') (hw : w.Faithful)
    (hp : p.Faithful w) (orderId : String) : w'.tickets orderId = w.tickets orderId ∨
      ∃ offset event order, p = .worker (.run offset event (.publishTicket orderId order)) ∧
        p' = .worker (.run offset event (.mark .notifications)) ∧
        w'.tickets orderId = w.tickets orderId + 1 := by
  rcases h.published with heq | ⟨_, hrelay | hworker⟩
  · exact Or.inl (by rw [World.tickets, World.tickets, heq])
  · obtain ⟨order, done, event, todo, changed, rest, n, rfl, heq⟩ := hrelay
    obtain ⟨d, _, _, e, _, _, htype, hmsg⟩ := hp.message_eq hw
    left
    rw [World.tickets, World.tickets, heq, List.countP_append, hmsg]
    simp [confirmation, OutboxDoc.value, htype]
  · obtain ⟨offset, event, id, order, uuid, rfl, rfl, heq⟩ := hworker
    rw [World.tickets, World.tickets, heq, List.countP_append]
    by_cases hid : id = orderId
    · subst hid
      exact Or.inr ⟨_, _, _, rfl, rfl, by simp [ticketIssued]⟩
    · exact Or.inl (by simp [ticketIssued, hid])

/-- How a worker comes to work on the ticket of an order: it was, or it has
just recorded the event. -/
theorem Proc.Steps.ticketing (h : Proc.Steps w p choice w' p') {orderId : String}
    (hh : (ticketRecorded orderId).holding p') : (ticketRecorded orderId).holding p ∨
      ∃ offset event, p = .worker (.run offset event (.mark .ticketing)) ∧
        event.orderId = .ok (some orderId) ∧
        (Consumer.ticketing.name, event.id) ∉ w.processed ∧
        (Consumer.ticketing.name, event.id) ∈ w'.processed := by
  obtain ⟨offset, event, pc, rfl, hpc⟩ := hh
  cases h with
  | worker h =>
      generalize hrun : WorkerPc.run offset event pc = pc' at h
      cases h with
      | @marked offset' event' c now uuid hnew =>
          obtain ⟨rfl, rfl, rfl⟩ := WorkerPc.run.inj hrun
          cases c with
          | ticketing => exact Or.inr ⟨_, _, rfl, hpc, hnew, by simp⟩
          | _ => cases hpc
      | @found _ _ _ _ id _ _ hid | @foundTicketed _ _ _ _ id _ _ hid =>
          obtain ⟨rfl, rfl, rfl⟩ := WorkerPc.run.inj hrun
          obtain rfl : id = orderId := hpc
          exact Or.inl ⟨_, _, _, rfl, hid⟩
      | saved =>
          obtain ⟨rfl, rfl, rfl⟩ := WorkerPc.run.inj hrun
          exact Or.inl ⟨_, _, _, rfl, hpc⟩
      | @skipped _ _ c =>
          obtain ⟨rfl, rfl, rfl⟩ := WorkerPc.run.inj hrun
          cases c <;> cases hpc
      | orderUnreadable | unsaved | committed | stopped => cases hrun
      | _ =>
          obtain ⟨rfl, rfl, rfl⟩ := WorkerPc.run.inj hrun
          cases hpc

/-- The record of an order, once claimed, stays claimed. -/
theorem ticketRecorded_mono {orderId : String} (hgrows : w.Grows w')
    (hproc : w.processed ⊆ w'.processed) (h : (ticketRecorded orderId).claimed w) :
    (ticketRecorded orderId).claimed w' := by
  obtain ⟨d, hd, hid, e, he, hin⟩ := h
  obtain ⟨d', hd', hcore⟩ := hgrows.docs d hd
  obtain ⟨e', he', hecore⟩ := OrderDoc.mem_outbox_of_core hcore he
  have hev : e'.id = e.id := congrArg EventValue.id (OutboxDoc.value_eq_of_core hecore)
  exact ⟨d', hd', (OrderDoc.id_eq_of_core hcore).trans hid, e', he', hev ▸ hproc hin⟩

/-- **The record of its event guards the ticket of an order.** -/
theorem ticketRecorded_moves (h : Proc.Steps w p choice w' p') (hw : w.Faithful)
    (hp : p.Faithful w) (hdel : p.Delivered w) (orderId : String) :
    (ticketRecorded orderId).Moves w p w' p' := by
  have hmono := fun hc : (ticketRecorded orderId).claimed w =>
    ticketRecorded_mono (h.grows hp) h.processed_subset hc
  rcases h.tickets hw hp orderId with hsame | ⟨offset, event, order, hrun, rfl, hmore⟩
  · by_cases hh : (ticketRecorded orderId).holding p'
    · rcases h.ticketing hh with hheld | ⟨offset, event, rfl, hid, hnew, hin⟩
      · exact .quiet hmono hsame fun _ => hheld
      · -- the event just recorded is the one of the order
        obtain ⟨d, hd, e, he, rfl, _⟩ := hdel offset event _ rfl
        have hbooked := hw.booked d hd
        rw [hbooked.orderId_value he] at hid
        obtain rfl : d.id = orderId := Option.some.inj (Except.ok.inj hid)
        refine .claim ?_ ?_ hsame
        · rintro ⟨d', hd', hid', e', he', hin'⟩
          obtain rfl := Collection.eq_of_docId hd' hd hid'
          obtain rfl := hbooked.eq_of_mem he' he
          exact hnew hin'
        · obtain ⟨d', hd', hcore⟩ := (h.grows hp).docs d hd
          obtain ⟨e', he', hecore⟩ := OrderDoc.mem_outbox_of_core hcore he
          have hev : e'.id = e.value.id :=
            congrArg EventValue.id (OutboxDoc.value_eq_of_core hecore)
          exact ⟨d', hd', OrderDoc.id_eq_of_core hcore, e', he', hev ▸ hin⟩
    · exact .quiet hmono hsame fun hh' => absurd hh' hh
  · refine .use ⟨offset, event, _, hrun, rfl⟩ ?_ hmono hmore
    rintro ⟨_, _, pc, hpc, hticketing⟩
    obtain ⟨_, _, rfl⟩ := WorkerPc.run.inj (Proc.worker.inj hpc)
    exact hticketing

/-! ### Histories -/

/-- The tickets in a history. -/
def ticketEntries (events : List OrderEvent) : ℕ :=
  events.countP fun ev => ev.type = "ticket.issued"

/-- A status with its history: one ticket if the order is ticketed, and none
if it is not. -/
def TidyHistory (status : OrderStatus) (events : List OrderEvent) : Prop :=
  (status = .ticketed ∧ ticketEntries events = 1) ∨
    (status ≠ .ticketed ∧ ticketEntries events = 0)

theorem TidyHistory.ticketed {order : Order} (h : TidyHistory order.status order.events)
    (hst : order.status ≠ .ticketed) (now : DateTime) :
    TidyHistory (order.ticketed now).status (order.ticketed now).events := by
  rcases h with ⟨ht, _⟩ | ⟨_, hzero⟩
  · exact absurd ht hst
  · left
    refine ⟨rfl, ?_⟩
    rw [ticketEntries, Order.ticketed, List.countP_append]
    simpa [ticketEntries] using hzero

/-- The orders of a process are tidy, and a worker about to save a ticket has
loaded an order without one. -/
structure Proc.Tidy (p : Proc) : Prop where
  staged : ∀ call st, p = .booking call → call.pc = .save st →
    TidyHistory st.status st.events
  loaded : ∀ o ∈ p.loaded, TidyHistory o.status o.events
  saving : ∀ offset event id order now,
    p = .worker (.run offset event (.saveOrder id order now)) → order.status ≠ .ticketed

/-- The stored orders are tidy. -/
def World.Tidy (w : World) : Prop :=
  ∀ d ∈ w.orders.docs, TidyHistory d.status d.events

theorem Proc.Steps.tidy (h : Proc.Steps w p choice w' p') (hw : w.Tidy) (hp : p.Tidy) :
    w'.Tidy := by
  intro d hd
  rcases h.orders with ⟨heq, _⟩ | ⟨_, _, hbooking | hrelay | hworker⟩
  · exact hw d (heq ▸ hd)
  · obtain ⟨call, st, rfl, hpc, hsave⟩ := hbooking
    rcases (Collection.mem_replaceOne hsave).mp hd with rfl | ⟨hd, _⟩
    · exact hp.staged call st rfl hpc
    · exact hw d hd
  · obtain ⟨order, done, rest, n, rfl, hsave⟩ := hrelay
    rcases (Collection.mem_replaceOne hsave).mp hd with rfl | ⟨hd, _⟩
    · exact hp.loaded order List.mem_cons_self
    · exact hw d hd
  · obtain ⟨offset, event, id, order, now, rfl, hsave⟩ := hworker
    rcases (Collection.mem_replaceOne hsave).mp hd with rfl | ⟨hd, _⟩
    · exact (hp.loaded order List.mem_cons_self).ticketed
        (hp.saving offset event id order now rfl) now
    · exact hw d hd

theorem Proc.Steps.tidy_own (h : Proc.Steps w p choice w' p') (hw : w.Tidy)
    (hp : p.Tidy) : p'.Tidy where
  staged := by
    rintro call st rfl hpc
    cases h with
    | booking h =>
        obtain ⟨ps, data, _, _, uuid, now, _, _, _, rfl, _⟩ := h.to_save hpc
        right
        exact ⟨nofun, rfl⟩
  loaded := by
    intro o ho
    rcases h.loaded ho with hold | ⟨_, d, hd, hread⟩
    · exact hp.loaded o hold
    · obtain ⟨total, _, rfl⟩ := OrderDoc.toOrder_eq_ok.mp hread
      exact hw d hd
  saving := by
    rintro offset event id order now rfl
    cases h with
    | worker h =>
        generalize hrun : WorkerPc.run offset event (.saveOrder id order now) = pc' at h
        cases h with
        | found _ _ _ _ hst =>
            obtain ⟨rfl, rfl, hpc⟩ := WorkerPc.run.inj hrun
            obtain ⟨rfl, rfl, rfl⟩ := HandlerPc.saveOrder.inj hpc
            exact hst
        | @marked _ _ c => cases c <;> simp [Consumer.work] at hrun
        | @skipped _ _ c => cases c <;> simp [Consumer.next] at hrun
        | _ => simp at hrun

/-! ### Runs -/

namespace FlyDeskSystem

variable {ι : Type*}

/-- What holds in every state of a run from a fresh system. -/
structure Live (s : FlyDeskSystem ι) : Prop where
  outbox : outbox.Hold s
  delivered : ∀ i, (s.procs i).Delivered s.shared
  tidy : s.shared.Tidy
  tidyProcs : ∀ i, (s.procs i).Tidy

/-- No worker of a fresh system is running. -/
theorem Fresh.not_running {s : FlyDeskSystem ι} (hs : s.Fresh) (i : ι) (offset : ℕ)
    (event : EventValue) (pc : HandlerPc) : s.procs i ≠ .worker (.run offset event pc) := by
  intro hi
  have h := hs.initial i
  rw [hi] at h
  cases h

theorem Fresh.live {s : FlyDeskSystem ι} (hs : s.Fresh) : Live s := by
  refine ⟨outbox_initial hs, fun i offset event pc hi => ?_, ?_, fun i => ⟨?_, ?_, ?_⟩⟩
  · exact absurd hi (hs.not_running i offset event pc)
  · rw [hs.shared]
    intro d hd
    cases hd
  · intro call st hi hpc
    exact absurd hpc (hs.not_saving hi st)
  · intro o ho
    rw [(hs.initial i).loaded] at ho
    cases ho
  · intro offset event id order now hi
    exact absurd hi (hs.not_running i offset event _)

variable [DecidableEq ι]

theorem Live.step {s t : FlyDeskSystem ι} {m : FlyDeskMove ι} (hs : Live s)
    (hfresh : FreshIds s m) (h : FlyDeskSystem.step s m = some t) : Live t := by
  have hgrows := grows_of_step hs.outbox h
  refine ⟨outbox_stable.step hs.outbox hfresh h, fun j => ?_, ?_, fun j => ?_⟩
  · rcases System.procs_of_step h j with he | ⟨c, _, hstep⟩
    · rw [he]
      exact (hs.delivered j).mono hgrows
    · exact (Proc.steps_of_step hstep).delivered hs.outbox.shared hgrows (hs.delivered j)
  · cases m with
    | env seconds =>
        obtain ⟨w, hw, rfl⟩ := System.step_env h
        obtain rfl := Option.some.inj hw
        exact hs.tidy
    | proc i c =>
        obtain ⟨w, p', hstep, rfl⟩ := System.step_proc h
        exact (Proc.steps_of_step hstep).tidy hs.tidy (hs.tidyProcs i)
  · rcases System.procs_of_step h j with he | ⟨c, _, hstep⟩
    · rw [he]
      exact hs.tidyProcs j
    · exact (Proc.steps_of_step hstep).tidy_own hs.tidy (hs.tidyProcs j)

variable {s t : FlyDeskSystem ι} {steps : List (FlyDeskSystem ι × FlyDeskMove ι)}

theorem live_run (h : Trace FlyDeskSystem.step s steps t) (hs : s.Fresh)
    (hfresh : ∀ p ∈ steps, FreshIds p.1 p.2) : Live t :=
  h.invariant hfresh hs.live fun hI hok hstep => hI.step hok hstep

theorem live_mem (h : Trace FlyDeskSystem.step s steps t) (hs : s.Fresh)
    (hfresh : ∀ p ∈ steps, FreshIds p.1 p.2) : ∀ p ∈ steps, Live p.1 :=
  h.invariant_mem hfresh hs.live fun hI hok hstep => hI.step hok hstep

theorem effects_le_one (h : Trace FlyDeskSystem.step s steps t) (hs : s.Fresh)
    (c : Consumer) (eventId : String) : c.effects eventId t.shared ≤ 1 := by
  refine Guard.atMostOnce (recorded c eventId) (R := fun _ _ => True)
    (fun _ hf => ?_) (fun _ hg => ?_) h (fun _ _ => trivial) ?_ ?_
  · exact recorded_moves (Proc.steps_of_step hf) c eventId
  · obtain rfl := Option.some.inj hg
    exact ⟨id, rfl⟩
  · show c.effects eventId s.shared = 0
    rw [hs.shared]
    cases c <;> rfl
  · rintro i ⟨offset, event, hi, _⟩
    exact hs.not_running i offset event _ hi

theorem tickets_le_one (h : Trace FlyDeskSystem.step s steps t) (hs : s.Fresh)
    (hfresh : ∀ p ∈ steps, FreshIds p.1 p.2) (orderId : String) :
    t.shared.tickets orderId ≤ 1 := by
  refine Guard.atMostOnce (ticketRecorded orderId) (R := fun u _ => Live u)
    (fun hu hf => ?_) (fun _ hg => ?_) h (live_mem h hs hfresh) ?_ ?_
  · exact ticketRecorded_moves (Proc.steps_of_step hf) hu.outbox.shared (hu.outbox.each _)
      (hu.delivered _) orderId
  · obtain rfl := Option.some.inj hg
    exact ⟨id, rfl⟩
  · show s.shared.tickets orderId = 0
    rw [hs.shared]
    rfl
  · rintro i ⟨offset, event, pc, hi, _⟩
    exact hs.not_running i offset event pc hi

/-! ### Consumers do not shadow each other -/

/-- The step is one of a worker in which consumer `c` takes the event on: it
finds no record of it, and goes to its work. -/
def Takes (c : Consumer) (eventId : String) (p : FlyDeskSystem ι × FlyDeskMove ι) : Prop :=
  ∃ i offset event choice, p.2 = .proc i choice ∧
    p.1.procs i = .worker (.run offset event (.mark c)) ∧ event.id = eventId ∧
    (c.name, eventId) ∉ p.1.shared.processed ∧
    ∀ u, FlyDeskSystem.step p.1 p.2 = some u →
      u.procs i = .worker (.run offset event c.work)

/-- Every record was made by the consumer whose name it carries. -/
theorem taken_of_processed (h : Trace FlyDeskSystem.step s steps t) (hs : s.Fresh)
    {c : Consumer} {eventId : String} (hin : (c.name, eventId) ∈ t.shared.processed) :
    ∃ p ∈ steps, Takes c eventId p := by
  have h₀ : (c.name, eventId) ∉ s.shared.processed := by
    rw [hs.shared]
    exact List.not_mem_nil
  obtain ⟨⟨u, m⟩, hp, hnew, v, hv, hrec⟩ :=
    h.turn (P := fun u => (c.name, eventId) ∈ u.shared.processed) h₀ hin
  refine ⟨(u, m), hp, ?_⟩
  cases m with
  | env seconds =>
      obtain ⟨w, hw, rfl⟩ := System.step_env hv
      obtain rfl := Option.some.inj hw
      exact absurd hrec hnew
  | proc i choice =>
      obtain ⟨w, p', hstep, rfl⟩ := System.step_proc hv
      rcases (Proc.steps_of_step hstep).processed with
        heq | ⟨offset, event, c', hrun, rfl, hnot, rfl⟩
      · exact absurd (heq ▸ hrec) hnew
      · -- the pair just recorded is the one in question
        have hpair : (c.name, eventId) = (c'.name, event.id) := by
          rcases List.mem_append.mp hrec with hold | hlast
          · exact absurd hold hnew
          · exact List.mem_singleton.mp hlast
        obtain ⟨hname, rfl⟩ := Prod.mk.inj hpair
        obtain rfl := Consumer.name_inj.mp hname
        refine ⟨i, offset, event, choice, rfl, hrun, rfl, hnot, fun u' hu' => ?_⟩
        obtain rfl := Option.some.inj (hv.symm.trans hu')
        simp

/-- A consumer skips an event only if it has taken it on before. -/
theorem taken_of_skipped (h : Trace FlyDeskSystem.step s steps t) (hs : s.Fresh)
    {i : ι} {offset : ℕ} {event : EventValue} {c : Consumer} {now : DateTime}
    {uuid : String} {u : FlyDeskSystem ι}
    (hi : t.procs i = .worker (.run offset event (.mark c)))
    (hu : FlyDeskSystem.step t (.proc i (.worker (.go now uuid))) = some u)
    (hskip : u.procs i = .worker (.run offset event c.next)) :
    ∃ p ∈ steps, Takes c event.id p := by
  obtain ⟨w, p', hstep, rfl⟩ := System.step_proc hu
  have hp' : p' = .worker (.run offset event c.next) := by simpa using hskip
  subst hp'
  refine taken_of_processed h hs ?_
  rw [hi] at hstep
  rcases (Proc.steps_of_step hstep) with - | - | hsteps
  generalize hrun : WorkerPc.run offset event c.next = pc' at hsteps
  cases hsteps with
  | marked => cases c <;> simp [Consumer.next, Consumer.work] at hrun
  | skipped hin => exact hin

/-- **Effects at most once.**  In every run of the system in which order ids
are fresh: at most one ticket is issued for an order and at most one entered
in its stored history; for an event there is at most one audit row and at most
one notification; and a consumer skips an event only if it has itself taken
that event on before. -/
theorem effects_atMostOnce (h : Trace FlyDeskSystem.step s steps t) (hs : s.Fresh)
    (hfresh : ∀ p ∈ steps, FreshIds p.1 p.2) :
    (∀ orderId, (t.shared.published.countP fun m =>
      m.value.type = "TicketIssued" ∧ m.key = some orderId) ≤ 1) ∧
    (∀ d ∈ t.shared.orders.docs,
      (d.events.countP fun ev => ev.type = "ticket.issued") ≤ 1) ∧
    (∀ eventId, (t.shared.audit.countP fun row => row.eventId = eventId) ≤ 1 ∧
      (t.shared.notified.countP fun ev => ev.id = eventId) ≤ 1) ∧
    ∀ i offset event c now uuid u,
      t.procs i = .worker (.run offset event (.mark c)) →
        FlyDeskSystem.step t (.proc i (.worker (.go now uuid))) = some u →
          u.procs i = .worker (.run offset event c.next) →
            ∃ p ∈ steps, Takes c event.id p := by
  refine ⟨fun orderId => tickets_le_one h hs hfresh orderId, fun d hd => ?_,
    fun eventId => ⟨effects_le_one h hs .audit eventId,
      effects_le_one h hs .notifications eventId⟩,
    fun i offset event c now uuid u hi hu hskip => taken_of_skipped h hs hi hu hskip⟩
  rcases (live_run h hs hfresh).tidy d hd with ⟨_, hone⟩ | ⟨_, hzero⟩
  · exact hone.le
  · exact hzero.le.trans (Nat.zero_le 1)

/-- The message is published twice and delivered twice, the first time to a
worker that dies on the way: one ticket, and one audit row. -/
theorem effects_atMostOnce_desk :
    let run := Sample.publishedTwice ++
      Sample.deliver .worker 0 :: List.replicate 6 (Sample.workerGo .worker) ++
      [Sample.workerDies .worker, Sample.deliver .worker 1] ++
      List.replicate 5 (Sample.workerGo .worker)
    ∃ t, exec FlyDeskSystem.step Sample.desk run = some t ∧
      t.shared.published.length = 3 ∧ t.shared.audit.length = 1 ∧
      (t.shared.published.countP fun m =>
        m.value.type = "TicketIssued" ∧ m.key = some "ord_1") ≤ 1 := by
  intro run
  obtain ⟨t, ht, hlen, haudit⟩ := exec_any (P := fun t : FlyDeskSystem Sample.Role =>
    t.shared.published.length = 3 ∧ t.shared.audit.length = 1)
    (by decide : (exec FlyDeskSystem.step Sample.desk run).any _ = true)
  exact ⟨t, ht, hlen, haudit,
    (effects_atMostOnce (Trace.of_exec ht) fresh_desk (by decide)).1 "ord_1"⟩

end FlyDeskSystem

end FlyDesk
