/-
FlyDesk/Events/Pipeline.lean

From the outbox to the ticket.  Take the system in any state it can reach; let a relay
make passes until one returns 0, failing as often as it may, and then let a worker
read the topic, every message at least once.  Each half has its own law, `Drained` and
`World.Served`, and `pipeline` is what they give together: every stored order that
ticketing had not seen has its ticket, exactly one, and its row in the audit log, and
whatever the consumers had recorded before stays as it was.
-/
import FlyDesk.Events.DrainLaw
import FlyDesk.Events.WorkerLaw

namespace FlyDesk

open Lib

variable {w w' w₀ : World} {ds : List Delivery}

/-! ### The relay -/

theorem Proc.faithful_relay_idle (w : World) (last : Option (Except Exn ℕ)) :
    (Proc.relay (.idle last)).Faithful w where
  inFlight call h := by cases h
  staged call st h := by cases h
  loaded o ho := by cases ho
  inOrder := trivial
  done order done todo changed rest n h := by cases h

/-- A relay alone keeps the store faithful and the events apart, and issues no
ticket. -/
theorem Drain.faithful_run {steps : List (Drain × RelayChoice)} {t : Drain}
    (hw : w₀.Faithful) (hdistinct : w₀.Distinct)
    (h : Trace Drain.step (w₀, .idle none) steps t) :
    t.1.Faithful ∧ t.1.Distinct ∧ ∀ id, t.1.tickets id = w₀.tickets id := by
  have hrun := h.preserved (I := fun u : Drain => (u.1.Faithful ∧ (Proc.relay u.2).Faithful u.1) ∧
    u.1.Distinct ∧ ∀ id, u.1.tickets id = w₀.tickets id)
    ⟨⟨hw, Proc.faithful_relay_idle _ _⟩, hdistinct, fun _ => rfl⟩ ?_
  · exact ⟨hrun.1.1, hrun.2⟩
  · rintro ⟨u, pc⟩ choice ⟨v, pc'⟩ ⟨⟨hu, hpc⟩, hd, htickets⟩ hstep
    have hsteps : Proc.Steps u (.relay pc) (.relay choice) v (.relay pc') :=
      .relay (RelayPc.steps_of_step (Drain.step_eq hstep).2)
    -- a relay handles no message, and has no order in flight
    have hdelivered : (Proc.relay pc).Delivered u := by
      intro offset event hpc h
      cases h
    have hnew : (Proc.relay pc).NewEvents u := by
      intro call st h
      cases h
    refine ⟨⟨hsteps.faithful hu hpc, hsteps.faithful_own hu hpc trivial⟩,
      hsteps.distinct hpc hdelivered hd hnew, fun id => ?_⟩
    rcases hsteps.tickets hu hpc id with heq | ⟨_, _, _, hworker, -⟩
    · exact heq.trans (htickets id)
    · cases hworker

/-- Publication times leave the core. -/
theorem OrderDoc.StampedTo.core_eq {d d' : OrderDoc} (h : d.StampedTo d') : d'.core = d.core := by
  have hout : d'.outbox.map OutboxDoc.core = d.outbox.map OutboxDoc.core := by
    refine forall₂_map_eq_iff.mp (h.outbox.flip.imp fun e' e he => ?_)
    cases hw : e.waiting with
    | true =>
        obtain ⟨now, rfl⟩ := he.1 hw
        rfl
    | false => rw [he.2 hw]
  rw [h.frame]
  simp [OrderDoc.core, hout]

/-! ### The worker -/

/-- What the worker reads of a faithful log confirms a stored order. -/
theorem World.Faithful.delivery (hw : w.Faithful) {d : Delivery} (hd : w.Delivers d) :
    ∃ doc ∈ w.orders.docs, ∃ e ∈ doc.outbox, d.event = e.value := by
  obtain ⟨m, hm, htopic, hvalue⟩ := hd
  have hmem := List.mem_of_getElem? hm
  have htype := topicFor_eq_bookingsConfirmed ((hw.routed m hmem).symm.trans htopic)
  obtain ⟨doc, hdoc, e, he, rfl⟩ := hw.confirmed m hmem htype
  exact ⟨doc, hdoc, e, he, hvalue.symm⟩

/-- A delivery is about an order exactly if its event is the event of the order. -/
theorem orderId?_iff (hw : w.Faithful) (hdistinct : w.Distinct) {d : Delivery}
    (hd : w.Delivers d) {doc : OrderDoc} (hdoc : doc ∈ w.orders.docs) {e : OutboxDoc}
    (he : e ∈ doc.outbox) : d.orderId? = some doc.id ↔ d.eventId = e.id := by
  obtain ⟨doc', hdoc', e', he', hevent⟩ := hw.delivery hd
  have horder : d.orderId? = some doc'.id := by
    rw [Delivery.orderId?, hevent, (hw.booked doc' hdoc').orderId_value he']
  have hid : d.eventId = e'.id := congrArg EventValue.id hevent
  rw [horder, hid]
  constructor
  · intro h
    obtain rfl := Collection.eq_of_docId hdoc' hdoc (Option.some.inj h)
    exact congrArg OutboxDoc.id ((hw.booked doc' hdoc').eq_of_mem he' he)
  · intro h
    obtain ⟨rfl, -⟩ := hdistinct.eq_of_id hw hdoc' hdoc he' he h
    rfl

section Served

variable (hw : w₀.Faithful) (hdistinct : w₀.Distinct) (hds : ∀ d ∈ ds, w₀.Delivers d)
  (hserved : w₀.Served ds w) {doc : OrderDoc} (hdoc : doc ∈ w₀.orders.docs) {e : OutboxDoc}
  (he : e ∈ doc.outbox) (hread : e.id ∈ ds.map Delivery.eventId)

include hw hdistinct hds hserved hdoc he hread

/-- One ticket for an order whose event ticketing had not recorded, none otherwise. -/
theorem World.Served.tickets_eq : w.tickets doc.id = w₀.tickets doc.id +
    if (Consumer.ticketing.name, e.id) ∈ w₀.processed then 0 else 1 := by
  have hone : ((w₀.taken .ticketing ds).filterMap w₀.ticketFor).countP
      (fun m => m.value.type = "TicketIssued" ∧ m.key = some doc.id) =
      (w₀.taken .ticketing ds).countP fun d => d.eventId = e.id := by
    rw [List.countP_filterMap]
    refine List.countP_congr fun d hd => ?_
    have hdeliver := hds d (mem_of_firsts hd).1
    obtain ⟨doc', hdoc', e', he', hevent⟩ := hw.delivery hdeliver
    have horder : d.orderId? = some doc'.id := by
      rw [Delivery.orderId?, hevent, (hw.booked doc' hdoc').orderId_value he']
    have hget : w₀.orders.get doc'.id = some doc' := Collection.get_eq_some.mpr ⟨hdoc', rfl⟩
    have hticket : w₀.ticketFor d =
        some (ticketIssued doc'.id doc'.bookingReference d.uuid) := by
      rw [World.ticketFor, horder, Option.bind_some, hget]
      rfl
    have hiff := orderId?_iff hw hdistinct hdeliver hdoc he
    rw [horder] at hiff
    rw [hticket]
    simp only [Option.map_some, Option.getD_some, decide_eq_true_eq, ← hiff, Option.some.injEq]
    simp [ticketIssued]
  rw [World.tickets, World.tickets, hserved.published, List.countP_append, hone, World.taken,
    countP_firsts]
  simp [hread, World.mem_seen]

omit hserved in
/-- The order has its ticket if ticketing had not recorded its event. -/
theorem ticketedBy_status (hnew : (Consumer.ticketing.name, e.id) ∉ w₀.processed) :
    (ticketedBy (w₀.taken .ticketing ds) doc.id doc).status = .ticketed := by
  -- the first delivery of its event has been taken
  obtain ⟨d₀, hd₀, hd₀e⟩ := List.mem_map.mp hread
  have hnew' : d₀.eventId ∉ w₀.seen .ticketing := by
    rw [hd₀e, World.mem_seen]
    exact hnew
  obtain ⟨d, hd, hde⟩ : ∃ d ∈ w₀.taken .ticketing ds, d.eventId = d₀.eventId :=
    exists_firsts hd₀ hnew'
  have habout := (orderId?_iff hw hdistinct (hds d (mem_of_firsts hd).1) hdoc he).mpr
    (hde.trans hd₀e)
  rw [ticketedBy]
  cases hfind : (w₀.taken .ticketing ds).find? fun d => d.orderId? = some doc.id with
  | none => exact absurd habout (by simpa using List.find?_eq_none.mp hfind d hd)
  | some d₁ => exact doc.ticket_status _

omit hw hdistinct hds hdoc he in
/-- Notifications and audit have the event once more if they had not recorded it. -/
theorem World.Served.effects_eq {c : Consumer} (hc : c ≠ .ticketing) :
    c.effects e.id w = c.effects e.id w₀ +
      if (c.name, e.id) ∈ w₀.processed then 0 else 1 := by
  have hone : (w₀.taken c ds).countP (fun d => d.eventId = e.id) =
      if (c.name, e.id) ∈ w₀.processed then 0 else 1 := by
    rw [World.taken, countP_firsts]
    simp [hread, World.mem_seen]
  rw [← hone]
  cases c with
  | ticketing => exact absurd rfl hc
  | notifications =>
      rw [Consumer.effects, Consumer.effects, hserved.notified, List.countP_append,
        List.countP_map]
      rfl
  | audit =>
      rw [Consumer.effects, Consumer.effects, hserved.audit, List.countP_append, List.countP_map]
      rfl

end Served

/-! ### Reachable worlds -/

namespace FlyDeskSystem

variable {ι : Type*} [DecidableEq ι] {s t : FlyDeskSystem ι}
  {steps : List (FlyDeskSystem ι × FlyDeskMove ι)}

/-- The assertions that keep the events of orders apart, without those about who
handles them. -/
def newEvents : Assertions World Proc where
  shared w := w.Distinct
  each w p := p.NewEvents w
  pair p q := p.ApartEvents q

omit [DecidableEq ι] in
theorem newEvents_stable : newEvents.Stable Proc.step World.tick
    (fun (s : FlyDeskSystem ι) m => Live s ∧ FreshUuids s m) where
  symm := by
    intro p q hapart f g st st' hf hg hpc hpc' e he e' he' heq
    exact hapart g f st' st hg hf hpc' hpc e' he' e he heq.symm
  own := by
    rintro s i c w' p' hA ⟨hlive, huuid⟩ hf
    have h := Proc.steps_of_step hf
    exact ⟨h.distinct (hlive.outbox.each i) (hlive.delivered i) hA.shared (hA.each i),
      h.newEvents hA.shared huuid⟩
  other := by
    rintro s i j c w' p' hA ⟨hlive, huuid⟩ hf hij
    have h := Proc.steps_of_step hf
    exact ⟨h.newEvents_other (hlive.outbox.each i) (hA.each j) (hA.pair i j hij),
      h.apartEvents (hA.each j) huuid⟩
  env := by
    rintro s seconds w' hA _ hg
    obtain rfl := Option.some.inj hg
    exact ⟨⟨hA.shared.known, hA.shared.distinct, hA.shared.recorded⟩, hA.each⟩

theorem distinct_run (h : Trace FlyDeskSystem.step s steps t) (hs : s.Fresh)
    (hfresh : ∀ p ∈ steps, FreshIds p.1 p.2) (huuids : ∀ p ∈ steps, FreshUuids p.1 p.2) :
    t.shared.Distinct := by
  have hinitial := separate_initial hs
  refine (newEvents_stable.run h
    (fun p hp => ⟨live_mem h hs hfresh p hp, huuids p hp⟩)
    ⟨hinitial.shared, hinitial.each, fun i j hij => (hinitial.pair i j hij).1⟩).shared

/-- **From the outbox to the ticket.**  Whatever the system has done, once a relay has
made passes until one returned 0, and a worker that nobody stops has read every message
of the topic, it has raised nothing; every stored order whose event ticketing had not
recorded is ticketed and has one ticket more, and the others none; every event is
published; and notifications and audit have had it, once. -/
theorem pipeline (h : Trace FlyDeskSystem.step s steps t) (hs : s.Fresh)
    (hfresh : ∀ p ∈ steps, FreshIds p.1 p.2) (huuids : ∀ p ∈ steps, FreshUuids p.1 p.2)
    {passes : List (Drain × RelayChoice)} {u : Drain}
    (hrelay : Trace Drain.step (t.shared, .idle none) passes u) (hover : u.Over)
    {shift : List (Shift × WorkerChoice)} {v : Shift}
    (hworker : Trace Shift.step (u.1, .idle none) shift v) (hgo : ∀ p ∈ shift, p.2.NoStop)
    {last : Option Exn} (hidle : v.2 = .idle last)
    (hread : ∀ (offset : ℕ) m, u.1.published[offset]? = some m →
      m.topic = Topic.bookingsConfirmed → offset ∈ Shift.deliveredOffsets shift) :
    last = none ∧ ∀ doc ∈ t.shared.orders.docs, ∀ e ∈ doc.outbox,
      (∃ doc' ∈ v.1.orders.docs, doc'.core = doc.core ∧ (∀ e' ∈ doc'.outbox, e'.Published) ∧
        ((Consumer.ticketing.name, e.id) ∉ t.shared.processed → doc'.status = .ticketed)) ∧
      v.1.tickets doc.id = t.shared.tickets doc.id +
        (if (Consumer.ticketing.name, e.id) ∈ t.shared.processed then 0 else 1) ∧
      ∀ c : Consumer, c ≠ .ticketing → c.effects e.id v.1 = c.effects e.id t.shared +
        if (c.name, e.id) ∈ t.shared.processed then 0 else 1 := by
  have hw := (live_run h hs hfresh).outbox.shared
  -- the relay
  obtain ⟨hu, hdistinct, htickets⟩ :=
    Drain.faithful_run hw (distinct_run h hs hfresh huuids) hrelay
  obtain ⟨handled, hrelayed, hlen⟩ := Drain.Relayed.of_over hw.written hrelay hover
  obtain ⟨hdrained, -⟩ := hrelayed.drained_over hlen
  have hprocessed : u.1.processed = t.shared.processed := by rw [hdrained.frame]
  have heffects : ∀ (c : Consumer) id, c.effects id u.1 = c.effects id t.shared := by
    intro c id
    rw [hdrained.frame]
    cases c <;> rfl
  -- the worker
  obtain ⟨hlast, ds, hoffsets, hds, hserved⟩ :=
    Shift.served_run hu.written hu.named hworker hgo hidle
  refine ⟨hlast, fun doc hdoc e he => ?_⟩
  -- the document as the relay leaves it, and its event
  obtain ⟨doc₁, hdoc₁, hstamped⟩ := exists_of_forall₂_left hdrained.stamped hdoc
  have hcore := hstamped.core_eq
  obtain ⟨e₁, he₁, hecore⟩ := OrderDoc.mem_outbox_of_core hcore he
  have hid : doc₁.id = doc.id := OrderDoc.id_eq_of_core hcore
  have heid : e₁.id = e.id := OutboxDoc.id_eq_of_core hecore
  have hpublished : ∀ e' ∈ doc₁.outbox, e'.Published := by
    intro e' he' hnone
    have hno := List.any_eq_false.mp (hdrained.nothing_waits doc₁ hdoc₁) e' he'
    exact hno (by simp [OutboxDoc.waiting, hnone])
  -- it is in the log, and so the worker has read it
  have hin : e₁.id ∈ ds.map Delivery.eventId := by
    obtain ⟨offset, hoffset⟩ :=
      List.mem_iff_getElem?.mp (hu.stamped doc₁ hdoc₁ e₁ he₁ (hpublished e₁ he₁))
    have hmem := hread offset _ hoffset rfl
    rw [← hoffsets] at hmem
    obtain ⟨d, hd, rfl⟩ := List.mem_map.mp hmem
    obtain ⟨m, hm, -, hvalue⟩ := hds d hd
    obtain rfl := Option.some.inj (hm.symm.trans hoffset)
    exact List.mem_map.mpr ⟨d, hd, congrArg EventValue.id hvalue.symm⟩
  rw [← hid, ← heid, ← hprocessed]
  refine ⟨?_, ?_, fun c hc => ?_⟩
  · have hget : u.1.orders.get doc₁.id = some doc₁ := Collection.get_eq_some.mpr ⟨hdoc₁, rfl⟩
    have hgot := hserved.orders doc₁.id
    rw [hget, Option.map_some] at hgot
    obtain ⟨hmem, -⟩ := Collection.get_eq_some.mp hgot
    refine ⟨_, hmem, (core_ticketedBy _ _ _).trans hcore, ?_, fun hnew => ?_⟩
    · rw [outbox_ticketedBy]
      exact hpublished
    · exact ticketedBy_status hu hdistinct hds hdoc₁ he₁ hin hnew
  · rw [hserved.tickets_eq hu hdistinct hds hdoc₁ he₁ hin, htickets]
  · rw [hserved.effects_eq hin hc, heffects]

/-- A pass over the booked order, one that finds none, and a worker that reads the
message twice. -/
theorem pipeline_desk :
    let passes := [RelayChoice.load ["ord_1"], .go Sample.now, .go Sample.now, .go Sample.now,
      .go Sample.now, .load [], .go Sample.now]
    let shift := Sample.readTwice
    ∃ t u v, exec FlyDeskSystem.step Sample.desk (Sample.books .caller "ord_1" "e1") = some t ∧
      exec Drain.step (t.shared, .idle none) passes = some u ∧
      exec Shift.step (u.1, .idle none) shift = some v ∧ t.shared.orders.docs ≠ [] ∧
      ∀ doc ∈ t.shared.orders.docs, ∃ doc' ∈ v.1.orders.docs,
        doc'.core = doc.core ∧ doc'.status = .ticketed := by
  intro passes shift
  obtain ⟨t, ht, hdocs, hprocessed, hrest⟩ := exec_any
    (P := fun t : FlyDeskSystem Sample.Role => t.shared.orders.docs.length = 1 ∧
      t.shared.processed = [] ∧ (exec Drain.step (t.shared, .idle none) passes).any (fun u =>
        decide (u.Over ∧ u.1.published.length = 1 ∧
          (exec Shift.step (u.1, .idle none) shift).any (fun v => decide v.2.Idle) = true)) = true)
    (by decide : (exec FlyDeskSystem.step Sample.desk (Sample.books .caller "ord_1" "e1")).any _ =
      true)
  obtain ⟨u, hu, hover, hlen, hrest⟩ := exec_any hrest
  obtain ⟨v, hv, hidle⟩ := exec_any hrest
  obtain ⟨last, hlast⟩ := hidle.eq
  have hread : ∀ (offset : ℕ) m, u.1.published[offset]? = some m →
      m.topic = Topic.bookingsConfirmed →
      offset ∈ Shift.deliveredOffsets (execSteps Shift.step (u.1, .idle none) shift) := by
    intro offset m hm _
    have hlt := (List.getElem?_eq_some_iff.mp hm).1
    obtain rfl : offset = 0 := by omega
    rw [Shift.deliveredOffsets, map_snd_execSteps hv]
    decide
  obtain ⟨-, hall⟩ := pipeline (Trace.of_exec ht) fresh_desk (by decide) (by decide)
    (Trace.of_exec hu) hover (Trace.of_exec hv)
    (fun p hp => Sample.noStop_readTwice p.2 (mem_of_execSteps hp)) hlast hread
  refine ⟨t, u, v, ht, hu, hv, fun hnil => by simp [hnil] at hdocs, fun doc hdoc => ?_⟩
  obtain ⟨e, hout, -⟩ := (live_run (Trace.of_exec ht) fresh_desk (by decide)).outbox.shared.booked
    doc hdoc
  obtain ⟨⟨doc', hdoc', hcore, -, hticketed⟩, -⟩ := hall doc hdoc e (by simp [hout])
  exact ⟨doc', hdoc', hcore, hticketed (by simp [hprocessed])⟩

end FlyDeskSystem

end FlyDesk
