/-
FlyDesk/Events/Commit.lean

Committed events have taken effect.  The worker commits an offset after its
three handlers have returned, but a handler that finds an event recorded
returns at once, and the record is made before the work.  A worker that stops
between the two leaves a record without its work; the message is delivered
again, the handler skips it, and the offset is committed.

`died_after_record` is such a run.  `committed_done` says that nothing else
can go wrong: where no worker is interrupted between a record and the end of
the work it stands for, whatever has been committed has been done.  The record
is then a guard that is never abandoned (`Guard.atLeastOnce`).
-/
import FlyDesk.Events.EventIds

namespace FlyDesk

open Lib

variable {w w' : World} {p p' q : Proc} {choice : ProcChoice}

/-! ### Records that are not abandoned -/

/-- The event is recorded, and the work of ticketing or of audit is still to be
done. -/
def HandlerPc.Unfinished : HandlerPc → Prop
  | .getOrder | .saveOrder _ _ _ | .publishTicket _ _ | .insertAudit => True
  | _ => False

/-- `HandlerPc.Unfinished` for a process. -/
def Proc.Unfinished : Proc → Prop
  | .worker (.run _ _ pc) => pc.Unfinished
  | _ => False

/-- The step does not interrupt a worker between a record and the end of the
work it stands for. -/
def ProcChoice.Uninterrupted (p : Proc) : ProcChoice → Prop
  | .worker (.stop _) => ¬ p.Unfinished
  | _ => True

/-- The order of a delivered event is in the store. -/
theorem Proc.Delivered.order (hp : p.Delivered w) (hw : w.Faithful) {offset : ℕ}
    {event : EventValue} {pc : HandlerPc} (hrun : p = .worker (.run offset event pc)) :
    ∃ d ∈ w.orders.docs, event.orderId = .ok (some d.id) := by
  obtain ⟨d, hd, e, he, rfl, _⟩ := hp offset event pc hrun
  exact ⟨d, hd, (hw.booked d hd).orderId_value he⟩

/-- So the handler finds it. -/
theorem Proc.Delivered.order_found (hp : p.Delivered w) (hw : w.Faithful) {offset : ℕ}
    {event : EventValue} {pc : HandlerPc} (hrun : p = .worker (.run offset event pc)) :
    ¬ (event.orderId = .ok none ∨ ∃ id, event.orderId = .ok (some id) ∧
      ∀ d ∈ w.orders.docs, d.id ≠ id) := by
  obtain ⟨d, hd, horder⟩ := hp.order hw hrun
  rintro (hnone | ⟨id, hid, hdocs⟩)
  · rw [horder] at hnone
    cases hnone
  · have hid' : d.id = id := Option.some.inj (Except.ok.inj (horder.symm.trans hid))
    exact hdocs d hd hid'

/-- Publishing a ticket issues one. -/
theorem World.tickets_publish (w : World) (orderId : String) (ref : Option String)
    (uuid : String) : 0 < (w.publish (ticketIssued orderId ref uuid)).tickets orderId := by
  rw [World.tickets, World.publish, List.countP_append]
  simp [ticketIssued]

/-- An order loaded from the store can be saved: the document it replaces has
its key. -/
theorem SameCore.save_ne_none {o : Order} (ho : SameCore w o) {o' : Order}
    (hcore : o'.modelDump.core = o.modelDump.core) :
    OrderRepository.save w.orders o' ≠ none := by
  intro hnone
  obtain ⟨x, hx, hne, hconflict⟩ := Collection.replaceOne_eq_none.mp hnone
  obtain ⟨d, hd, hdcore⟩ := ho.core
  have hcore' : d.core = o'.modelDump.core := hdcore.trans hcore.symm
  have hkey : d.idempotencyKey = o'.modelDump.idempotencyKey := by
    show d.core.idempotencyKey = o'.modelDump.core.idempotencyKey
    rw [hcore']
  have hxd : Conflict x d := ⟨hconflict.1, hconflict.2.trans hkey.symm⟩
  exact hne ((w.orders.unique x hx d hd hxd).trans (OrderDoc.id_eq_of_core hcore'.symm).symm)

/-- A worker that has recorded the event of an order goes on until the ticket
is published, if it is not interrupted. -/
theorem Proc.Steps.ticketing_held (h : Proc.Steps w p choice w' p') (hw : w.Faithful)
    (hp : p.Faithful w) (hdel : p.Delivered w) (hok : choice.Uninterrupted p)
    {orderId : String} (hh : (ticketRecorded orderId).holding p) :
    (ticketRecorded orderId).holding p' ∨ 0 < w'.tickets orderId := by
  obtain ⟨offset, event, pc, rfl, hpc⟩ := hh
  obtain ⟨d, hd, horder⟩ := hdel.order hw rfl
  cases h with
  | worker h =>
      cases h with
      | found hid | foundTicketed hid =>
          obtain rfl := Option.some.inj (Except.ok.inj (hid.symm.trans hpc))
          exact Or.inl ⟨_, _, _, rfl, rfl⟩
      | orderMissing hmissing => exact absurd hmissing (hdel.order_found hw rfl)
      | orderUnreadable hunread =>
          rcases hunread with herr | ⟨x, hx, hread⟩
          · rw [horder] at herr
            cases herr
          · obtain ⟨o, ho⟩ := (hw.written x hx).toOrder_ok
            rw [ho] at hread
            cases hread
      | saved => exact Or.inl ⟨_, _, _, rfl, hpc⟩
      | @unsaved _ _ now _ _ id order hnone =>
          refine absurd hnone ((hp.loaded order List.mem_cons_self).save_ne_none ?_)
          exact order.core_modelDump_update .ticketed _ rfl
      | published =>
          obtain rfl := hpc
          exact Or.inr (World.tickets_publish w _ _ _)
      | marked | skipped | notified | audited | committed => exact absurd hpc id
      | stopped =>
          refine absurd ?_ hok
          cases pc <;> trivial

theorem Proc.Steps.tickets_le (h : Proc.Steps w p choice w' p') (hw : w.Faithful)
    (hp : p.Faithful w) (orderId : String) : w.tickets orderId ≤ w'.tickets orderId := by
  rcases h.tickets hw hp orderId with hsame | ⟨_, _, _, _, _, hmore⟩
  · exact hsame.ge
  · exact Nat.le.intro hmore.symm

theorem Proc.Steps.effects_le (h : Proc.Steps w p choice w' p') (c : Consumer)
    (eventId : String) : c.effects eventId w ≤ c.effects eventId w' := by
  rcases h.effects c eventId with hsame | ⟨_, _, hmore⟩
  · exact hsame.ge
  · exact Nat.le.intro hmore.symm

/-- **No step abandons the record of the event of an order.** -/
theorem ticketRecorded_keeps (h : Proc.Steps w p choice w' p') (hw : w.Faithful)
    (hp : p.Faithful w) (hdel : p.Delivered w) (hdist : w.Distinct) (hnew : p.NewEvents w)
    (hok : choice.Uninterrupted p) (orderId : String) :
    (ticketRecorded orderId).Keeps w p w' p' where
  claimed := by
    rintro ⟨d, hd, hid, e, he, hin⟩
    rcases h.processed with heq | ⟨offset, event, c, hrun, rfl, _, rfl⟩
    · left
      rw [heq] at hin
      rcases h.entry_cases hp hd he with
        ⟨d₀, hd₀, hdid, e₀, he₀, heid⟩ | ⟨call, st, hcall, hpc, _, e₁, he₁, heid⟩
      · exact ⟨d₀, hd₀, hdid.trans hid, e₀, he₀, heid ▸ hin⟩
      · -- the event of a new order is not recorded yet
        obtain ⟨d₀, hd₀, e₀, he₀, heid₀⟩ := hdist.recorded _ hin
        exact absurd (heid₀.trans heid.symm) ((hnew call st hcall hpc e₁ he₁).2 d₀ hd₀ e₀ he₀)
    · rcases List.mem_append.mp hin with hin | hin
      · exact Or.inl ⟨d, hd, hid, e, he, hin⟩
      · -- the worker has just recorded it
        obtain ⟨hname, heid⟩ := Prod.mk.inj (List.mem_singleton.mp hin)
        obtain rfl := Consumer.name_inj.mp hname
        obtain ⟨d₀, hd₀, e₀, he₀, rfl, _⟩ := hdel offset event _ hrun
        obtain ⟨rfl, rfl⟩ := hdist.eq_of_id hw hd hd₀ he he₀ heid
        refine Or.inr ⟨offset, _, _, rfl, ?_⟩
        rw [← hid]
        exact (hw.booked d hd).orderId_value he
  held := h.ticketing_held hw hp hdel hok
  used := h.tickets_le hw hp orderId

/-- **No step abandons the record of an event by audit.** -/
theorem auditRecorded_keeps (h : Proc.Steps w p choice w' p') (hok : choice.Uninterrupted p)
    (eventId : String) : (recorded .audit eventId).Keeps w p w' p' where
  claimed := by
    intro hin
    rcases h.processed with heq | ⟨offset, event, c, _, rfl, _, rfl⟩
    · left
      show (Consumer.audit.name, eventId) ∈ w.processed
      rw [← heq]
      exact hin
    · rcases List.mem_append.mp hin with hin | hin
      · exact Or.inl hin
      · obtain ⟨hname, heid⟩ := Prod.mk.inj (List.mem_singleton.mp hin)
        obtain rfl := Consumer.name_inj.mp hname
        exact Or.inr ⟨offset, event, rfl, heid.symm⟩
  held := by
    rintro ⟨offset, event, rfl, rfl⟩
    rcases h with - | - | hsteps
    generalize hrun : WorkerPc.run offset event (Consumer.audit.work) = pc at hsteps
    cases hsteps with
    | audited =>
        obtain ⟨rfl, rfl, _⟩ := WorkerPc.run.inj hrun
        exact Or.inr (by simp [recorded, Consumer.effects, auditRow])
    | stopped =>
        obtain ⟨rfl, rfl, rfl⟩ := WorkerPc.run.inj hrun
        exact absurd trivial hok
    | _ => simp [Consumer.work] at hrun
  used := h.effects_le .audit eventId

/-! ### What has been done for an event -/

/-- A ticket has been issued for the order of the event. -/
def World.Ticketed (w : World) (event : EventValue) : Prop :=
  ∀ orderId, event.orderId = .ok (some orderId) → 0 < w.tickets orderId

/-- The event has its audit row. -/
def World.Audited (w : World) (event : EventValue) : Prop :=
  0 < Consumer.audit.effects event.id w

/-- The points behind ticketing. -/
def HandlerPc.PastTicketing : HandlerPc → Prop
  | .mark .notifications | .mark .audit | .notify | .insertAudit | .commit => True
  | _ => False

/-- What a worker has behind it has been done for its event. -/
structure Proc.Performed (w : World) (p : Proc) : Prop where
  ticketed : ∀ offset event pc, p = .worker (.run offset event pc) → pc.PastTicketing →
    w.Ticketed event
  audited : ∀ offset event, p = .worker (.run offset event .commit) → w.Audited event

/-- The event at an offset has been ticketed and audited. -/
def World.PerformedAt (w : World) (offset : ℕ) : Prop :=
  ∃ m : Message, w.published[offset]? = some m ∧ w.Ticketed m.value ∧ w.Audited m.value

/-- What is committed has been done. -/
def World.Performed (w : World) : Prop :=
  ∀ offset ∈ w.committed, w.PerformedAt offset

/-- The order a handler works on is the one its event names. -/
def HandlerPc.Linked (event : EventValue) : HandlerPc → Prop
  | .saveOrder id order _ => event.orderId = .ok (some id) ∧ order.id = id
  | .publishTicket id _ => event.orderId = .ok (some id)
  | _ => True

/-- `HandlerPc.Linked` for a process. -/
def Proc.Linked : Proc → Prop
  | .worker (.run _ event pc) => pc.Linked event
  | _ => True

theorem Proc.Initial.linked {p : Proc} (h : p.Initial) : p.Linked := by
  rcases p with call | pc | pc
  · trivial
  · trivial
  · obtain rfl : pc = .idle none := h
    trivial

theorem Proc.Steps.linked (h : Proc.Steps w p choice w' p') (hp : p.Linked) : p'.Linked := by
  cases h with
  | booking => trivial
  | relay => trivial
  | worker h =>
      cases h with
      | @marked _ _ c => cases c <;> trivial
      | @skipped _ _ c => cases c <;> trivial
      | found horder _ hid hread => exact ⟨horder, (OrderDoc.toOrder_id hread).trans hid⟩
      | foundTicketed horder => exact horder
      | saved => exact hp.1
      | _ => trivial

theorem Proc.Steps.ticketed (h : Proc.Steps w p choice w' p') (hw : w.Faithful)
    (hp : p.Faithful w) {event : EventValue} (hev : w.Ticketed event) : w'.Ticketed event :=
  fun orderId horder => Nat.lt_of_lt_of_le (hev orderId horder) (h.tickets_le hw hp orderId)

theorem Proc.Steps.audited (h : Proc.Steps w p choice w' p') {event : EventValue}
    (hev : w.Audited event) : w'.Audited event :=
  Nat.lt_of_lt_of_le hev (h.effects_le .audit event.id)

/-- **A step performs what it leaves behind**, if what the worker finds
recorded has been done. -/
theorem Proc.Steps.performed_own (h : Proc.Steps w p choice w' p') (hw : w.Faithful)
    (hp : p.Faithful w) (hdel : p.Delivered w) (hlinked : p.Linked) (hperf : p.Performed w)
    (hticket : ∀ offset event, p = .worker (.run offset event (.mark .ticketing)) →
      (Consumer.ticketing.name, event.id) ∈ w.processed → w.Ticketed event)
    (haudit : ∀ offset event, p = .worker (.run offset event (.mark .audit)) →
      (Consumer.audit.name, event.id) ∈ w.processed → w.Audited event) :
    p'.Performed w' where
  ticketed := by
    rintro offset event pc rfl hpc
    -- a run past its ticket has issued it before this step
    have hbehind := fun pc₀ hrun hpast =>
      h.ticketed hw hp (hperf.ticketed offset event pc₀ hrun hpast)
    rcases h with - | - | hsteps
    generalize hrun : WorkerPc.run offset event pc = pc' at hsteps
    cases hsteps with
    | @marked _ _ c =>
        obtain ⟨rfl, rfl, rfl⟩ := WorkerPc.run.inj hrun
        cases c with
        | ticketing => cases hpc
        | notifications => exact hbehind _ rfl trivial
        | audit => exact hbehind _ rfl trivial
    | @skipped _ _ c _ _ hin =>
        obtain ⟨rfl, rfl, rfl⟩ := WorkerPc.run.inj hrun
        cases c with
        | ticketing => exact hticket _ _ rfl hin
        | notifications => exact hbehind _ rfl trivial
        | audit => exact hbehind _ rfl trivial
    | orderMissing hmissing =>
        -- the order of a delivered event is stored
        obtain ⟨rfl, rfl, rfl⟩ := WorkerPc.run.inj hrun
        exact absurd hmissing (hdel.order_found hw rfl)
    | published =>
        obtain ⟨rfl, rfl, rfl⟩ := WorkerPc.run.inj hrun
        intro orderId horder
        have hid : event.orderId = _ := hlinked
        obtain rfl := Option.some.inj (Except.ok.inj (hid.symm.trans horder))
        exact World.tickets_publish w _ _ _
    | notified | audited =>
        obtain ⟨rfl, rfl, rfl⟩ := WorkerPc.run.inj hrun
        exact hbehind _ rfl trivial
    | delivered | found | foundTicketed | saved =>
        -- not past it yet
        obtain ⟨rfl, rfl, rfl⟩ := WorkerPc.run.inj hrun
        cases hpc
    | _ => cases hrun
  audited := by
    rintro offset event rfl
    -- only the audit consumer goes on to the commit
    rcases h with - | - | hsteps
    generalize hrun : WorkerPc.run offset event .commit = pc' at hsteps
    cases hsteps with
    | @skipped _ _ c _ _ hin =>
        obtain ⟨rfl, rfl, hnext⟩ := WorkerPc.run.inj hrun
        cases c with
        | audit => exact haudit _ _ rfl hin
        | _ => cases hnext
    | audited =>
        obtain ⟨rfl, rfl, _⟩ := WorkerPc.run.inj hrun
        simp [World.Audited, Consumer.effects, auditRow]
    | @marked _ _ c => cases c <;> simp [Consumer.work] at hrun
    | _ => simp at hrun

theorem Proc.Steps.performed_other (h : Proc.Steps w p choice w' p') (hw : w.Faithful)
    (hp : p.Faithful w) (hq : q.Performed w) : q.Performed w' where
  ticketed := fun offset event pc hrun hpc =>
    h.ticketed hw hp (hq.ticketed offset event pc hrun hpc)
  audited := fun offset event hrun => h.audited (hq.audited offset event hrun)

/-- A commit is the last step of a worker with a message. -/
theorem Proc.Steps.committed (h : Proc.Steps w p choice w' p') :
    w'.committed = w.committed ∨ ∃ offset event, p = .worker (.run offset event .commit) ∧
      w'.committed = w.committed ++ [offset] := by
  cases h with
  | booking h => cases h <;> exact Or.inl rfl
  | relay h => cases h <;> exact Or.inl rfl
  | worker h =>
      cases h with
      | committed => exact Or.inr ⟨_, _, rfl, rfl⟩
      | _ => exact Or.inl rfl

theorem Proc.Steps.performed (h : Proc.Steps w p choice w' p') (hw : w.Faithful)
    (hp : p.Faithful w) (hdel : p.Delivered w) (hperf : w.Performed)
    (hown : p.Performed w) : w'.Performed := by
  have hkept : ∀ offset, w.PerformedAt offset → w'.PerformedAt offset := by
    rintro offset ⟨m, hm, hticketed, haudited⟩
    exact ⟨m, (h.grows hp).at_offset hm, h.ticketed hw hp hticketed, h.audited haudited⟩
  intro offset hoff
  refine hkept offset ?_
  rcases h.committed with heq | ⟨offset', event, hrun, heq⟩
  · exact hperf offset (heq ▸ hoff)
  · rcases List.mem_append.mp (heq ▸ hoff) with hoff | hoff
    · exact hperf offset hoff
    · -- the worker has the message of this offset behind it
      obtain rfl := List.mem_singleton.mp hoff
      obtain ⟨d, hd, e, he, rfl, hm⟩ := hdel _ _ _ hrun
      exact ⟨_, hm, hown.ticketed _ _ _ hrun trivial, hown.audited _ _ hrun⟩

/-- A worker about to publish a ticket has its order ticketed in the store. -/
theorem Proc.Steps.to_publishTicket (h : Proc.Steps w p choice w' p') (hp : p.Linked)
    {offset : ℕ} {event : EventValue} {orderId : String} {order : Order}
    (hrun : p' = .worker (.run offset event (.publishTicket orderId order))) :
    ∃ d ∈ w'.orders.docs, d.id = orderId ∧ d.status = .ticketed := by
  subst hrun
  rcases h with - | - | hsteps
  generalize hrun : WorkerPc.run offset event (.publishTicket orderId order) = pc' at hsteps
  cases hsteps with
  | @foundTicketed _ _ _ _ _ _ d _ hd hid hread hst =>
      obtain ⟨rfl, rfl, hpc⟩ := WorkerPc.run.inj hrun
      obtain ⟨rfl, rfl⟩ := HandlerPc.publishTicket.inj hpc
      obtain ⟨total, _, rfl⟩ := OrderDoc.toOrder_eq_ok.mp hread
      exact ⟨d, hd, hid, hst⟩
  | @saved _ _ now _ _ _ order _ hsave =>
      obtain ⟨rfl, rfl, hpc⟩ := WorkerPc.run.inj hrun
      obtain ⟨rfl, rfl⟩ := HandlerPc.publishTicket.inj hpc
      refine ⟨(order.ticketed now).modelDump, ?_, hp.2, rfl⟩
      exact (Collection.mem_replaceOne hsave).mpr (Or.inl rfl)
  | @marked _ _ c => cases c <;> simp [Consumer.work] at hrun
  | @skipped _ _ c => cases c <;> simp [Consumer.next] at hrun
  | _ => simp at hrun

/-! ### Runs -/

namespace FlyDeskSystem

variable {ι : Type*}

/-- No worker is interrupted between a record and the end of its work. -/
def Uninterrupted (s : FlyDeskSystem ι) : FlyDeskMove ι → Prop
  | .proc i choice => choice.Uninterrupted (s.procs i)
  | .env _ => True

/-- A step at which ids are fresh, messages are assigned, and no worker is
interrupted. -/
structure Allowed (s : FlyDeskSystem ι) (m : FlyDeskMove ι) : Prop where
  ids : FreshIds s m
  uuids : FreshUuids s m
  assigned : Assigned s m
  uninterrupted : Uninterrupted s m

/-- What holds in every state of a run of allowed steps: besides the outbox
and the event ids, what is recorded has been done or is being worked on. -/
structure Settled (s : FlyDeskSystem ι) : Prop where
  live : Live s
  separate : separate.Hold s
  linked : ∀ i, (s.procs i).Linked
  ticketing : ∀ orderId, (ticketRecorded orderId).claimed s.shared →
    0 < s.shared.tickets orderId ∨ ∃ i, (ticketRecorded orderId).holding (s.procs i)
  auditing : ∀ eventId, (recorded .audit eventId).claimed s.shared →
    0 < Consumer.audit.effects eventId s.shared ∨
      ∃ i, (recorded .audit eventId).holding (s.procs i)

/-- An event is handled by one worker. -/
theorem Settled.same_worker {s : FlyDeskSystem ι} (hs : Settled s) {i j : ι}
    {offset offset' : ℕ} {event event' : EventValue} {pc pc' : HandlerPc}
    (hi : s.procs i = .worker (.run offset event pc))
    (hj : s.procs j = .worker (.run offset' event' pc')) (hid : event.id = event'.id) : i = j := by
  by_contra hij
  refine (hs.separate.pair i j hij).2 event ?_ event' ?_ hid
  · rw [hi]
    rfl
  · rw [hj]
    rfl

/-- A worker that is about to run ticketing on a recorded event: the ticket is
out, as nobody else is working on it. -/
theorem Settled.ticketed {s : FlyDeskSystem ι} (hs : Settled s) {i : ι} {offset : ℕ}
    {event : EventValue} (hi : s.procs i = .worker (.run offset event (.mark .ticketing)))
    (hin : (Consumer.ticketing.name, event.id) ∈ s.shared.processed) :
    s.shared.Ticketed event := by
  have hw := hs.live.outbox.shared
  obtain ⟨d, hd, e, he, rfl, _⟩ := hs.live.delivered i offset event _ hi
  have hbooked := hw.booked d hd
  intro orderId horder
  obtain rfl := Option.some.inj (Except.ok.inj ((hbooked.orderId_value he).symm.trans horder))
  rcases hs.ticketing d.id ⟨d, hd, rfl, e, he, hin⟩ with hpos | ⟨j, offset', event', pc, hj, hpc⟩
  · exact hpos
  · -- the other worker would be handling the same event
    exfalso
    have hlinked := hs.linked j
    obtain ⟨d', hd', e', he', rfl, _⟩ := hs.live.delivered j offset' event' pc hj
    have horder' : e'.value.orderId = .ok (some d.id) := by
      rw [hj] at hlinked
      cases pc with
      | getOrder => exact hpc
      | saveOrder id => exact (show id = d.id from hpc) ▸ hlinked.1
      | publishTicket id => exact (show id = d.id from hpc) ▸ hlinked
      | _ => cases hpc
    rw [(hw.booked d' hd').orderId_value he'] at horder'
    obtain rfl := Collection.eq_of_docId hd' hd (Option.some.inj (Except.ok.inj horder'))
    obtain rfl := hbooked.eq_of_mem he he'
    obtain rfl := hs.same_worker hi hj rfl
    obtain ⟨_, _, rfl⟩ := WorkerPc.run.inj (Proc.worker.inj (hi.symm.trans hj))
    exact hpc

/-- The same for audit. -/
theorem Settled.audited {s : FlyDeskSystem ι} (hs : Settled s) {i : ι} {offset : ℕ}
    {event : EventValue} (hi : s.procs i = .worker (.run offset event (.mark .audit)))
    (hin : (Consumer.audit.name, event.id) ∈ s.shared.processed) :
    s.shared.Audited event := by
  rcases hs.auditing event.id hin with hpos | ⟨j, offset', event', hj, hid⟩
  · exact hpos
  · exfalso
    obtain rfl := hs.same_worker hi hj hid.symm
    obtain ⟨_, _, hpc⟩ := WorkerPc.run.inj (Proc.worker.inj (hi.symm.trans hj))
    cases hpc

/-- The assertions about what has been done. -/
def performed : Assertions World Proc where
  shared w := w.Performed
  each w p := p.Performed w
  pair _ _ := True

theorem performed_stable : performed.Stable Proc.step World.tick
    (fun (s : FlyDeskSystem ι) _ => Settled s) where
  symm := id
  own := by
    intro s i c w' p' hA hs hf
    have h := Proc.steps_of_step hf
    have hw := hs.live.outbox.shared
    have hp := hs.live.outbox.each i
    exact ⟨h.performed hw hp (hs.live.delivered i) hA.shared (hA.each i),
      h.performed_own hw hp (hs.live.delivered i) (hs.linked i) (hA.each i)
        (fun _ _ hi hin => hs.ticketed hi hin) (fun _ _ hi hin => hs.audited hi hin)⟩
  other := by
    intro s i j c w' p' hA hs hf _
    exact ⟨(Proc.steps_of_step hf).performed_other hs.live.outbox.shared
      (hs.live.outbox.each i) (hA.each j), trivial⟩
  env := by
    intro s seconds w' hA _ hg
    obtain rfl := Option.some.inj hg
    exact ⟨hA.shared, fun i => ⟨(hA.each i).ticketed, (hA.each i).audited⟩⟩

theorem performed_initial {s : FlyDeskSystem ι} (hs : s.Fresh) : performed.Hold s := by
  refine ⟨?_, fun i => ⟨?_, ?_⟩, fun _ _ _ => trivial⟩
  · show s.shared.Performed
    rw [hs.shared]
    intro offset hoff
    cases hoff
  · intro offset event pc hi
    exact absurd hi (hs.not_running i offset event pc)
  · intro offset event hi
    exact absurd hi (hs.not_running i offset event _)

variable [DecidableEq ι] {s t : FlyDeskSystem ι}
variable {steps : List (FlyDeskSystem ι × FlyDeskMove ι)}

theorem settled_run (h : Trace FlyDeskSystem.step s steps t) (hs : s.Fresh)
    (hok : ∀ p ∈ steps, Allowed p.1 p.2) : Settled t := by
  have hids : ∀ p ∈ steps, FreshIds p.1 p.2 := fun p hp => (hok p hp).ids
  have hlive := live_mem h hs hids
  have hsep : ∀ p ∈ steps, Live p.1 ∧ FreshUuids p.1 p.2 ∧ Assigned p.1 p.2 :=
    fun p hp => ⟨hlive p hp, (hok p hp).uuids, (hok p hp).assigned⟩
  have hdist := separate_stable.run_mem h hsep (separate_initial hs)
  refine ⟨live_run h hs hids, separate_stable.run h hsep (separate_initial hs), ?_, ?_, ?_⟩
  · exact System.each_of_run h (fun i => (hs.initial i).linked)
      fun hf hJ => (Proc.steps_of_step hf).linked hJ
  · intro orderId hclaimed
    refine Guard.atLeastOnce (ticketRecorded orderId)
      (R := fun u m => Live u ∧ separate.Hold u ∧ Uninterrupted u m) ?_ ?_ h ?_ ?_ hclaimed
    · rintro u i c w p ⟨hl, hd, hu⟩ hf
      exact ticketRecorded_keeps (Proc.steps_of_step hf) hl.outbox.shared (hl.outbox.each i)
        (hl.delivered i) hd.shared (hd.each i) hu orderId
    · intro u seconds w _ hg
      obtain rfl := Option.some.inj hg
      exact ⟨id, rfl⟩
    · exact fun p hp => ⟨hlive p hp, hdist p hp, (hok p hp).uninterrupted⟩
    · -- no order is stored in the beginning
      rintro ⟨d, hd, _⟩
      rw [hs.shared] at hd
      cases hd
  · intro eventId hclaimed
    refine Guard.atLeastOnce (recorded .audit eventId) (R := Uninterrupted) ?_ ?_ h ?_ ?_
      hclaimed
    · intro u i c w p hu hf
      exact auditRecorded_keeps (Proc.steps_of_step hf) hu eventId
    · intro u seconds w _ hg
      obtain rfl := Option.some.inj hg
      exact ⟨id, rfl⟩
    · exact fun p hp => (hok p hp).uninterrupted
    · intro hin
      have hin' : (Consumer.audit.name, eventId) ∈ s.shared.processed := hin
      rw [hs.shared] at hin'
      cases hin'

theorem settled_mem (h : Trace FlyDeskSystem.step s steps t) (hs : s.Fresh)
    (hok : ∀ p ∈ steps, Allowed p.1 p.2) : ∀ p ∈ steps, Settled p.1 := by
  intro p hp
  obtain ⟨before, hpre, hbefore⟩ := h.prefix_of_mem hp
  exact settled_run hbefore hs (Trace.allowed_prefix hok hpre)

/-- A ticket is published only for an order that was ticketed in the store. -/
theorem seen_ticketed (h : Trace FlyDeskSystem.step s steps t) (hs : s.Fresh)
    (hok : ∀ p ∈ steps, Settled p.1) {orderId : String} (hpos : 0 < t.shared.tickets orderId) :
    Seen steps t fun u => ∃ d ∈ u.shared.orders.docs, d.id = orderId ∧
      d.status = .ticketed := by
  -- published, or about to be
  refine h.seen (P := fun u => 0 < u.shared.tickets orderId ∨ ∃ i offset event order,
      u.procs i = .worker (.run offset event (.publishTicket orderId order)))
    (A := fun u _ => Settled u) hok ?_ ?_ (Or.inl hpos)
  · rintro (hpos | ⟨i, offset, event, order, hi⟩)
    · rw [hs.shared] at hpos
      cases hpos
    · exact hs.not_running i offset event _ hi
  · intro u m v hu hstep hv
    cases m with
    | env seconds =>
        obtain ⟨w, hw, rfl⟩ := System.step_env hstep
        obtain rfl := Option.some.inj hw
        exact Or.inl hv
    | proc i c =>
        obtain ⟨w, p', hf, rfl⟩ := System.step_proc hstep
        have hsteps := Proc.steps_of_step hf
        rcases hv with hpos | ⟨j, offset, event, order, hj⟩
        · left
          rcases hsteps.tickets hu.live.outbox.shared (hu.live.outbox.each i) orderId with
            hsame | ⟨offset, event, order, hi, _, _⟩
          · exact Or.inl (hsame ▸ hpos)
          · exact Or.inr ⟨i, offset, event, order, hi⟩
        · by_cases hij : j = i
          · subst hij
            exact Or.inr (Or.inr (hsteps.to_publishTicket (hu.linked j) (by simpa using hj)))
          · exact Or.inl (Or.inr ⟨j, offset, event, order, by simpa [hij] using hj⟩)

/-- **Committed events have taken effect**, in every run in which no worker is
interrupted between a record and the end of its work: where the offset of a
message has been committed and its order is in the store, the order was saved
as ticketed, its ticket was published, and the event has its audit row. -/
theorem committed_done (h : Trace FlyDeskSystem.step s steps t) (hs : s.Fresh)
    (hids : ∀ p ∈ steps, FreshIds p.1 p.2) (huuids : ∀ p ∈ steps, FreshUuids p.1 p.2)
    (hassigned : ∀ p ∈ steps, Assigned p.1 p.2)
    (huninterrupted : ∀ p ∈ steps, Uninterrupted p.1 p.2) :
    ∀ offset ∈ t.shared.committed, ∃ m : Message, t.shared.published[offset]? = some m ∧
      ∀ d ∈ t.shared.orders.docs, m.value.orderId = .ok (some d.id) →
        Seen steps t (fun u => ∃ d' ∈ u.shared.orders.docs, d'.id = d.id ∧
          d'.status = .ticketed) ∧
        (∃ m' ∈ t.shared.published, m'.value.type = "TicketIssued" ∧ m'.key = some d.id) ∧
        ∃ row ∈ t.shared.audit, row.eventId = m.value.id := by
  have hok : ∀ p ∈ steps, Allowed p.1 p.2 :=
    fun p hp => ⟨hids p hp, huuids p hp, hassigned p hp, huninterrupted p hp⟩
  have hsettled := settled_mem h hs hok
  have hperformed := (performed_stable.run h hsettled (performed_initial hs)).shared
  intro offset hoff
  obtain ⟨m, hm, hticketed, haudited⟩ := hperformed offset hoff
  refine ⟨m, hm, fun d hd horder => ?_⟩
  have hticket := hticketed d.id horder
  refine ⟨seen_ticketed h hs hsettled hticket, ?_, ?_⟩
  · obtain ⟨m', hm', hp⟩ := List.countP_pos_iff.mp hticket
    exact ⟨m', hm', of_decide_eq_true hp⟩
  · obtain ⟨row, hrow, hid⟩ := List.countP_pos_iff.mp haudited
    exact ⟨row, hrow, of_decide_eq_true hid⟩

instance : DecidablePred HandlerPc.Unfinished
  | .getOrder | .saveOrder _ _ _ | .publishTicket _ _ | .insertAudit => .isTrue trivial
  | .mark _ | .notify | .commit => .isFalse id

instance : DecidablePred Proc.Unfinished
  | .worker (.run _ _ pc) => inferInstanceAs (Decidable pc.Unfinished)
  | .worker (.idle _) | .booking _ | .relay _ => .isFalse id

instance (p : Proc) : DecidablePred (ProcChoice.Uninterrupted p)
  | .worker (.stop _) => inferInstanceAs (Decidable (¬ p.Unfinished))
  | .worker (.deliver _) | .worker (.go _ _) | .booking _ | .relay _ => .isTrue trivial

instance (s : FlyDeskSystem ι) : DecidablePred (Uninterrupted s)
  | .proc i choice => inferInstanceAs (Decidable (choice.Uninterrupted (s.procs i)))
  | .env _ => .isTrue trivial

/-- The worker dies right after it has recorded the event.  On redelivery the
handler skips the event, and the offset is committed: no ticket. -/
theorem died_after_record :
    let run := Sample.booked ++ [Sample.deliver .worker 0, Sample.workerGo .worker,
      Sample.workerDies .worker, Sample.deliver .worker 0] ++
      List.replicate 6 (Sample.workerGo .worker)
    ∃ t, exec FlyDeskSystem.step Sample.desk run = some t ∧ 0 ∈ t.shared.committed ∧
      (∃ m ∈ t.shared.published[0]?, m.value.type = "BookingConfirmed" ∧ m.key = some "ord_1") ∧
      (∃ d ∈ t.shared.orders.docs, d.id = "ord_1") ∧
      (∀ p ∈ execSteps FlyDeskSystem.step Sample.desk run,
        ∀ d ∈ p.1.shared.orders.docs, d.status ≠ .ticketed) ∧
      ∀ m ∈ t.shared.published, m.value.type ≠ "TicketIssued" := by
  intro run
  obtain ⟨t, ht, hend⟩ := exec_any (P := fun t : FlyDeskSystem Sample.Role =>
    0 ∈ t.shared.committed ∧
      (∃ m ∈ t.shared.published[0]?, m.value.type = "BookingConfirmed" ∧ m.key = some "ord_1") ∧
      (∃ d ∈ t.shared.orders.docs, d.id = "ord_1") ∧
      ∀ m ∈ t.shared.published, m.value.type ≠ "TicketIssued")
    (by decide : (exec FlyDeskSystem.step Sample.desk run).any _ = true)
  obtain ⟨hcommitted, hm, hd, hnone⟩ := hend
  exact ⟨t, ht, hcommitted, hm, hd, by decide, hnone⟩

/-- The worker dies between two handlers, which does no harm. -/
theorem committed_done_desk :
    let run := Sample.booked ++
      Sample.deliver .worker 0 :: List.replicate 4 (Sample.workerGo .worker) ++
      [Sample.workerDies .worker, Sample.deliver .worker 0] ++
      List.replicate 6 (Sample.workerGo .worker)
    ∃ t m d, exec FlyDeskSystem.step Sample.desk run = some t ∧ 0 ∈ t.shared.committed ∧
      t.shared.published[0]? = some m ∧ d ∈ t.shared.orders.docs ∧
      m.value.orderId = .ok (some d.id) ∧
      Seen (execSteps FlyDeskSystem.step Sample.desk run) t (fun u =>
        ∃ d' ∈ u.shared.orders.docs, d'.id = d.id ∧ d'.status = .ticketed) ∧
      (∃ m' ∈ t.shared.published, m'.value.type = "TicketIssued" ∧ m'.key = some d.id) ∧
      ∃ row ∈ t.shared.audit, row.eventId = m.value.id := by
  intro run
  obtain ⟨t, m, d, ht, hcommitted, hm, hd, horder⟩ : ∃ t m d,
      exec FlyDeskSystem.step Sample.desk run = some t ∧ 0 ∈ t.shared.committed ∧
        t.shared.published[0]? = some m ∧ d ∈ t.shared.orders.docs ∧
        m.value.orderId = .ok (some d.id) :=
    ⟨_, _, _, rfl, List.mem_singleton.mpr rfl, rfl, List.mem_singleton.mpr rfl, rfl⟩
  have halone : ∀ j, j ≠ .worker → ∀ pc, Sample.desk.procs j ≠ .worker pc
    | .caller, _, _ | .relay, _, _ => nofun
    | .worker, hj, _ => absurd rfl hj
  obtain ⟨m', hm', hdone⟩ := committed_done (Trace.of_exec ht) fresh_desk (by decide)
    (by decide) (assigned_of_alone (Trace.of_exec ht) halone) (by decide) 0 hcommitted
  obtain rfl := Option.some.inj (hm'.symm.trans hm)
  exact ⟨t, m', d, ht, hcommitted, hm, hd, horder, hdone d hd horder⟩

end FlyDeskSystem

end FlyDesk
