/-
FlyDesk/Events/Handlers.lean

The consumers as functions.  `handleTicketing`, `handleNotification` and
`handleAudit` do a whole event each, and `consume` is the body of the worker's loop:
the three of them and the commit.  The worker of `Consumers` does the same one shared
access at a time.

`worker_refines` connects the two.  Where nobody else moves and nobody stops it, a
worker that is between two messages has done what `consume` does for each delivery in
turn, and whatever `consume` does it can do.
-/
import FlyDesk.Events.Progress
import Mathlib.Data.List.Induction

namespace FlyDesk

open Lib

/-! ### The handlers -/

/-- The publish at the end of `handle_ticketing`. -/
def emitTicket (w : World) (orderId : String) (order : Order) (uuid : String) :
    World × Except Exn Bool :=
  (w.publish (ticketIssued orderId order.bookingReference uuid), .ok true)

/-- The save before it. -/
def saveTicketed (w : World) (orderId : String) (order : Order) (now : DateTime)
    (uuid : String) : World × Except Exn Bool :=
  match OrderRepository.save w.orders (order.ticketed now) with
  | some orders => emitTicket { w with orders } orderId (order.ticketed now) uuid
  | none => (w, .error .duplicateKeyError)

/-- `handle_ticketing` for an event it has not seen. -/
def issueTicket (w : World) (event : EventValue) (now : DateTime) (uuid : String) :
    World × Except Exn Bool :=
  match event.orderId with
  | .error e => (w, .error e)
  | .ok none => (w, .ok false)
  | .ok (some id) =>
    match OrderRepository.get w.orders id with
    | .error e => (w, .error e)
    | .ok none => (w, .ok false)
    | .ok (some order) =>
      if order.status = .ticketed then emitTicket w id order uuid
      else saveTicketed w id order now uuid

/-- `handle_ticketing`: the world it leaves, and what it returns or raises. -/
def handleTicketing (w : World) (event : EventValue) (now : DateTime) (uuid : String) :
    World × Except Exn Bool :=
  match w.markIfNew event.id Consumer.ticketing.name with
  | none => (w, .ok false)
  | some w => issueTicket w event now uuid

/-- `handle_notification`. -/
def handleNotification (w : World) (event : EventValue) : World × Bool :=
  match w.markIfNew event.id Consumer.notifications.name with
  | none => (w, false)
  | some w => ({ w with notified := w.notified ++ [event] }, true)

/-- `handle_audit`. -/
def handleAudit (w : World) (event : EventValue) (now : DateTime) : World × Bool :=
  match w.markIfNew event.id Consumer.audit.name with
  | none => (w, false)
  | some w => ({ w with audit := w.audit ++ [auditRow event now] }, true)

/-- A message as the worker takes it, with the times and the id its handlers get. -/
structure Delivery where
  offset : ℕ
  event : EventValue
  now : DateTime
  uuid : String
  insertedAt : DateTime

/-- The body of the loop of `consume_events`: the world it leaves, and the exception
that ends the worker, if there is one. -/
def consume (w : World) (d : Delivery) : World × Option Exn :=
  match handleTicketing w d.event d.now d.uuid with
  | (w, .error e) => (w, some e)
  | (w, .ok _) =>
    let w := (handleNotification w d.event).1
    let w := (handleAudit w d.event d.insertedAt).1
    ({ w with committed := w.committed ++ [d.offset] }, none)

/-- The worker's loop; a worker that an exception has ended is started again. -/
def consumeAll (w : World) (ds : List Delivery) : World × Option Exn :=
  ds.foldl (fun r d => consume r.1 d) (w, none)

theorem consumeAll_snoc (w : World) (ds : List Delivery) (d : Delivery) :
    consumeAll w (ds ++ [d]) = consume (consumeAll w ds).1 d := by
  simp [consumeAll]

/-! ### What is left to do -/

namespace HandlerPc

/-- The commit. -/
def afterAudit (d : Delivery) (w : World) : World × Option Exn :=
  ({ w with committed := w.committed ++ [d.offset] }, none)

def afterNotification (d : Delivery) (w : World) : World × Option Exn :=
  afterAudit d (handleAudit w d.event d.insertedAt).1

def afterTicketing (d : Delivery) : World × Except Exn Bool → World × Option Exn
  | (w, .error e) => (w, some e)
  | (w, .ok _) => afterNotification d (handleNotification w d.event).1

/-- What is left of `consume` at a point of the worker. -/
def finish (d : Delivery) (w : World) : HandlerPc → World × Option Exn
  | .mark .ticketing => afterTicketing d (handleTicketing w d.event d.now d.uuid)
  | .getOrder => afterTicketing d (issueTicket w d.event d.now d.uuid)
  | .saveOrder id order now => afterTicketing d (saveTicketed w id order now d.uuid)
  | .publishTicket id order => afterTicketing d (emitTicket w id order d.uuid)
  | .mark .notifications => afterNotification d (handleNotification w d.event).1
  | .notify => afterNotification d { w with notified := w.notified ++ [d.event] }
  | .mark .audit => afterNotification d w
  | .insertAudit => afterAudit d { w with audit := w.audit ++ [auditRow d.event d.insertedAt] }
  | .commit => afterAudit d w

/-- The delivery comes with what the step from this point gets. -/
def Fits (d : Delivery) (now : DateTime) (uuid : String) : HandlerPc → Prop
  | .getOrder => d.now = now
  | .publishTicket _ _ => d.uuid = uuid
  | .insertAudit => d.insertedAt = now
  | _ => True

end HandlerPc

theorem consume_eq_finish (w : World) (d : Delivery) :
    consume w d = (HandlerPc.mark .ticketing).finish d w := by
  rw [consume, HandlerPc.finish]
  rcases handleTicketing w d.event d.now d.uuid with ⟨w, e | b⟩ <;> rfl

/-- What is left to a worker. -/
def WorkerPc.finish (d : Delivery) (w : World) : WorkerPc → World × Option Exn
  | .idle last => (w, last)
  | .run _ _ pc => pc.finish d w

variable {w w' : World} {pc : HandlerPc} {pc' : WorkerPc} {d : Delivery}
  {now : DateTime} {uuid : String}

/-- The read of the order, and what follows from it. -/
theorem finish_getOrder (w : World) (d : Delivery) :
    HandlerPc.getOrder.finish d w = (getOrderPc w d.offset d.event d.now).finish d w := by
  show HandlerPc.afterTicketing d (issueTicket w d.event d.now d.uuid) = _
  rw [issueTicket, getOrderPc]
  rcases d.event.orderId with e | - | id
  · rfl
  · rfl
  · simp only
    rcases OrderRepository.get w.orders id with e | - | order
    · rfl
    · rfl
    · simp only
      split <;> rfl

/-- **A step does a part of what is left.** -/
theorem finish_of_step
    (h : WorkerPc.step w (.run d.offset d.event pc) (.go now uuid) = some (w', pc'))
    (hfits : pc.Fits d now uuid) : pc.finish d w = pc'.finish d w' := by
  cases pc with
  | mark c =>
      rcases hmark : w.markIfNew d.event.id c.name with - | w₁
      · obtain ⟨rfl, rfl⟩ : w = w' ∧ WorkerPc.run d.offset d.event c.next = pc' := by
          simpa [WorkerPc.step, hmark] using h
        cases c with
        | ticketing | notifications | audit =>
            simp [HandlerPc.finish, WorkerPc.finish, Consumer.next, handleTicketing,
              handleNotification, handleAudit, hmark, HandlerPc.afterTicketing,
              HandlerPc.afterNotification]
      · obtain ⟨rfl, rfl⟩ : w₁ = w' ∧ WorkerPc.run d.offset d.event c.work = pc' := by
          simpa [WorkerPc.step, hmark] using h
        cases c with
        | ticketing | notifications | audit =>
            simp [HandlerPc.finish, WorkerPc.finish, Consumer.work, handleTicketing,
              handleNotification, handleAudit, hmark, HandlerPc.afterNotification]
  | getOrder =>
      obtain rfl : d.now = now := hfits
      obtain ⟨rfl, rfl⟩ := Prod.mk.inj (Option.some.inj h)
      exact finish_getOrder w d
  | saveOrder id order at_ =>
      show HandlerPc.afterTicketing d (saveTicketed w id order at_ d.uuid) = _
      rw [saveTicketed]
      rcases hsave : OrderRepository.save w.orders (order.ticketed at_) with - | orders
      · obtain ⟨rfl, rfl⟩ : w = w' ∧ WorkerPc.idle (some .duplicateKeyError) = pc' := by
          simpa [WorkerPc.step, hsave] using h
        rfl
      · obtain ⟨rfl, rfl⟩ : { w with orders } = w' ∧
            WorkerPc.run d.offset d.event (.publishTicket id (order.ticketed at_)) = pc' := by
          simpa [WorkerPc.step, hsave] using h
        rfl
  | publishTicket id order =>
      obtain rfl : d.uuid = uuid := hfits
      obtain ⟨rfl, rfl⟩ := Prod.mk.inj (Option.some.inj h)
      rfl
  | insertAudit =>
      obtain rfl : d.insertedAt = now := hfits
      obtain ⟨rfl, rfl⟩ := Prod.mk.inj (Option.some.inj h)
      rfl
  | notify | commit =>
      obtain ⟨rfl, rfl⟩ := Prod.mk.inj (Option.some.inj h)
      rfl

/-! ### The worker alone -/

/-- A world and the one worker at work on it. -/
abbrev Shift := World × WorkerPc

def Shift.step (s : Shift) (choice : WorkerChoice) : Option Shift := s.2.step s.1 choice

theorem Shift.steps_of_step {s t : Shift} {choice : WorkerChoice} (h : s.step choice = some t) :
    WorkerPc.Steps s.1 s.2 choice t.1 t.2 :=
  WorkerPc.steps_of_step h

/-- Nobody stops the worker. -/
def WorkerChoice.NoStop (choice : WorkerChoice) : Prop := ∀ how, choice ≠ .stop how

/-- The offset of the message that is delivered. -/
def WorkerChoice.delivered : WorkerChoice → Option ℕ
  | .deliver offset => some offset
  | _ => none

namespace Shift

/-- The offsets of the messages a worker has taken. -/
def deliveredOffsets (steps : List (Shift × WorkerChoice)) : List ℕ :=
  (steps.map Prod.snd).filterMap WorkerChoice.delivered

theorem deliveredOffsets_deliver {steps : List (Shift × WorkerChoice)} {s : Shift} {offset : ℕ} :
    deliveredOffsets (steps ++ [(s, .deliver offset)]) = deliveredOffsets steps ++ [offset] := by
  simp [deliveredOffsets, WorkerChoice.delivered]

theorem deliveredOffsets_go {steps : List (Shift × WorkerChoice)} {s : Shift} :
    deliveredOffsets (steps ++ [(s, .go now uuid)]) = deliveredOffsets steps := by
  simp [deliveredOffsets, WorkerChoice.delivered]

end Shift

/-- The delivery is of a message in the log that the worker reads. -/
def World.Delivers (w : World) (d : Delivery) : Prop :=
  ∃ m, w.published[d.offset]? = some m ∧ m.topic = Topic.bookingsConfirmed ∧ m.value = d.event

/-- The deliveries agree on what a worker has got by this point; `HandlerPc.left` says
how far it is. -/
structure Delivery.Agrees (pc : HandlerPc) (d d' : Delivery) : Prop where
  offset : d'.offset = d.offset
  event : d'.event = d.event
  now : pc.left ≤ 7 → d'.now = d.now
  uuid : pc.left ≤ 5 → d'.uuid = d.uuid
  insertedAt : pc.left ≤ 1 → d'.insertedAt = d.insertedAt

/-- The delivery, once the step from `pc` has got its time and its id. -/
def Delivery.record (d : Delivery) (now : DateTime) (uuid : String) : HandlerPc → Delivery
  | .getOrder => { d with now }
  | .publishTicket _ _ => { d with uuid }
  | .insertAudit => { d with insertedAt := now }
  | _ => d

theorem Delivery.record_agrees (d : Delivery) (now : DateTime) (uuid : String)
    (pc : HandlerPc) :
    d.Agrees pc (d.record now uuid pc) ∧ pc.Fits (d.record now uuid pc) now uuid := by
  cases pc with
  | getOrder | publishTicket | insertAudit =>
      exact ⟨⟨rfl, rfl, by simp [HandlerPc.left, Delivery.record],
        by simp [HandlerPc.left, Delivery.record], by simp [HandlerPc.left, Delivery.record]⟩, rfl⟩
  | _ => exact ⟨⟨rfl, rfl, fun _ => rfl, fun _ => rfl, fun _ => rfl⟩, trivial⟩

/-- Whatever agrees with it after the step agreed before it, and fits the step. -/
theorem Delivery.Agrees.before {d' : Delivery} {pc pc₁ : HandlerPc}
    (h : (d.record now uuid pc).Agrees pc₁ d') (hleft : pc₁.left < pc.left) :
    d.Agrees pc d' ∧ pc.Fits d' now uuid := by
  have hoffset := h.offset
  have hevent := h.event
  have hnow := h.now
  have huuid := h.uuid
  have hinserted := h.insertedAt
  cases pc with
  | getOrder =>
      refine ⟨⟨hoffset, hevent, ?_, ?_, ?_⟩, hnow (Nat.le_of_lt_succ hleft)⟩ <;>
        simp [HandlerPc.left]
  | publishTicket =>
      refine ⟨⟨hoffset, hevent, fun _ => hnow ?_, ?_, ?_⟩, huuid (Nat.le_of_lt_succ hleft)⟩
      · have : pc₁.left < 6 := hleft
        omega
      · simp [HandlerPc.left]
      · simp [HandlerPc.left]
  | insertAudit =>
      have hlt : pc₁.left < 2 := hleft
      refine ⟨⟨hoffset, hevent, fun _ => hnow (by omega), fun _ => huuid (by omega), ?_⟩,
        hinserted (by omega)⟩
      simp [HandlerPc.left]
  | _ =>
      exact ⟨⟨hoffset, hevent, fun hle => hnow (by omega), fun hle => huuid (by omega),
        fun hle => hinserted (by omega)⟩, trivial⟩

/-! ### A step of the worker alone -/

/-- A worker that handles an event is never stuck. -/
theorem WorkerPc.go_enabled (w : World) (offset : ℕ) (event : EventValue) (pc : HandlerPc)
    (now : DateTime) (uuid : String) :
    ∃ r, WorkerPc.step w (.run offset event pc) (.go now uuid) = some r := by
  cases pc with
  | mark c =>
      simp only [WorkerPc.step]
      split <;> exact ⟨_, rfl⟩
  | saveOrder =>
      simp only [WorkerPc.step]
      split <;> exact ⟨_, rfl⟩
  | _ => exact ⟨_, rfl⟩

/-- It stays with its message, and gets nearer to the end. -/
theorem WorkerPc.Steps.nearer {offset offset' : ℕ} {event event' : EventValue}
    {pc pc₁ : HandlerPc}
    (h : WorkerPc.Steps w (.run offset event pc) (.go now uuid) w' (.run offset' event' pc₁)) :
    offset' = offset ∧ event' = event ∧ pc₁.left < pc.left := by
  cases h with
  | @marked _ _ c | @skipped _ _ c => cases c <;> exact ⟨rfl, rfl, by decide⟩
  | _ => exact ⟨rfl, rfl, by simp [HandlerPc.left]⟩

/-- The log gets tickets only. -/
theorem WorkerPc.Steps.log {pc pc' : WorkerPc} {choice : WorkerChoice}
    (h : WorkerPc.Steps w pc choice w' pc') :
    ∃ sent, w'.published = w.published ++ sent ∧
      ∀ m ∈ sent, m.topic = Topic.ticketsIssued := by
  cases h with
  | published => exact ⟨[_], rfl, fun m hm => by obtain rfl := List.mem_singleton.mp hm; rfl⟩
  | _ => exact ⟨[], (List.append_nil _).symm, fun m hm => absurd hm List.not_mem_nil⟩

/-- What the worker reads of the log is in `w₀` already. -/
def World.Continues (w₀ w : World) : Prop :=
  ∃ sent, w.published = w₀.published ++ sent ∧ ∀ m ∈ sent, m.topic = Topic.ticketsIssued

theorem World.Continues.step {w₀ : World} {pc pc' : WorkerPc} {choice : WorkerChoice}
    (hw : w₀.Continues w) (h : WorkerPc.Steps w pc choice w' pc') : w₀.Continues w' := by
  obtain ⟨sent, hsent, htopic⟩ := hw
  obtain ⟨more, hmore, htopic'⟩ := h.log
  refine ⟨sent ++ more, by rw [hmore, hsent, List.append_assoc], fun m hm => ?_⟩
  exact (List.mem_append.mp hm).elim (htopic m) (htopic' m)

theorem World.Continues.delivers {w₀ : World} (hw : w₀.Continues w) :
    w.Delivers d ↔ w₀.Delivers d := by
  obtain ⟨sent, hsent, htopic⟩ := hw
  constructor
  · rintro ⟨m, hm, hread, hvalue⟩
    rw [hsent] at hm
    rcases Nat.lt_or_ge d.offset w₀.published.length with hlt | hge
    · rw [List.getElem?_append_left hlt] at hm
      exact ⟨m, hm, hread, hvalue⟩
    · rw [List.getElem?_append_right hge] at hm
      have hticket := htopic m (List.mem_of_getElem? hm)
      rw [hread] at hticket
      exact absurd hticket (by decide)
  · rintro ⟨m, hm, hread, hvalue⟩
    refine ⟨m, ?_, hread, hvalue⟩
    rw [hsent, List.getElem?_append_left (List.getElem?_eq_some_iff.mp hm).1]
    exact hm

/-! ### The worker's loop is `consumeAll` -/

namespace Shift

variable {w₀ : World} {steps : List (Shift × WorkerChoice)} {s t : Shift}

/-- What a worker has done so far: the deliveries it is through with, and a part of
the one at hand. -/
def Consumed (w₀ : World) (steps : List (Shift × WorkerChoice)) (s : Shift) : Prop :=
  ∃ ds : List Delivery, (∀ d ∈ ds, w₀.Delivers d) ∧
    match s.2 with
    | .idle last =>
      ds.map Delivery.offset = deliveredOffsets steps ∧ consumeAll w₀ ds = (s.1, last)
    | .run offset event pc =>
      ds.map Delivery.offset ++ [offset] = deliveredOffsets steps ∧
      ∃ d : Delivery, w₀.Delivers d ∧ d.offset = offset ∧ d.event = event ∧
        ∀ d', d.Agrees pc d' → consume (consumeAll w₀ ds).1 d' = pc.finish d' s.1

theorem consumed_step {choice : WorkerChoice} (hs : Consumed w₀ steps s)
    (hlog : w₀.Continues s.1) (hgo : choice.NoStop) (h : s.step choice = some t) :
    Consumed w₀ (steps ++ [(s, choice)]) t := by
  obtain ⟨w, pc⟩ := s
  obtain ⟨w', pc'⟩ := t
  obtain ⟨ds, hds, hpart⟩ := hs
  have hsteps := WorkerPc.steps_of_step h
  cases choice with
  | stop how => exact absurd rfl (hgo how)
  | deliver offset =>
      cases hsteps with
      | @delivered last _ m hm htopic =>
          obtain ⟨hoffsets, hall⟩ := hpart
          refine ⟨ds, hds, ?_, ?_⟩
          · rw [deliveredOffsets_deliver, hoffsets]
          · -- nothing has been read of the clock yet
            let now : DateTime := { micros := 0, utcOffset := none }
            let d : Delivery := ⟨offset, m.value, now, "", now⟩
            refine ⟨d, hlog.delivers.mp ⟨m, hm, htopic, rfl⟩, rfl, rfl, fun d' _ => ?_⟩
            rw [hall, consume_eq_finish]
  | go now uuid =>
      cases pc with
      | idle last => cases h
      | run offset event pc =>
          obtain ⟨hoffsets, d, hd, rfl, rfl, hpart⟩ := hpart
          cases pc' with
          | run offset' event' pc₁ =>
              obtain ⟨rfl, rfl, hleft⟩ := hsteps.nearer
              refine ⟨ds, hds, ?_, d.record now uuid pc, ?_, ?_, ?_, fun d' hd' => ?_⟩
              · rw [deliveredOffsets_go]
                exact hoffsets
              · cases pc <;> exact hd
              · cases pc <;> rfl
              · cases pc <;> rfl
              · obtain ⟨hagrees, hfits⟩ := hd'.before hleft
                rw [hpart d' hagrees]
                have hstep : WorkerPc.step w (.run d'.offset d'.event pc) (.go now uuid) =
                    some (w', .run d.offset d.event pc₁) := by
                  rw [hagrees.offset, hagrees.event]
                  exact h
                exact finish_of_step hstep hfits
          | idle last =>
              -- the delivery is over
              obtain ⟨hagrees, hfits⟩ := d.record_agrees now uuid pc
              set d₁ := d.record now uuid pc with hd₁
              have hstep : WorkerPc.step w (.run d₁.offset d₁.event pc) (.go now uuid) =
                  some (w', .idle last) := by
                rw [hagrees.offset, hagrees.event]
                exact h
              refine ⟨ds ++ [d₁], fun x hx => ?_, ?_, ?_⟩
              · rcases List.mem_append.mp hx with hx | hx
                · exact hds x hx
                · obtain rfl := List.mem_singleton.mp hx
                  rw [hd₁]
                  cases pc <;> exact hd
              · rw [deliveredOffsets_go, ← hoffsets, List.map_append, List.map_singleton,
                  hagrees.offset]
              · rw [consumeAll_snoc, hpart d₁ hagrees, finish_of_step hstep hfits]
                rfl

theorem continues_run (h : Trace Shift.step s steps t) : s.1.Continues t.1 :=
  h.preserved (I := fun u => s.1.Continues u.1) ⟨[], by simp, by simp⟩
    fun hu hstep => hu.step (Shift.steps_of_step hstep)

theorem consumed_run (h : Trace Shift.step (w₀, .idle none) steps t)
    (hgo : ∀ p ∈ steps, p.2.NoStop) : Consumed w₀ steps t := by
  refine (h.history (I := fun l u => Consumed w₀ l u ∧ w₀.Continues u.1) (A := fun _ c => c.NoStop)
    hgo ⟨⟨[], by simp, rfl, rfl⟩, [], by simp, by simp⟩ ?_).1
  rintro l u choice v ⟨hu, hlog⟩ hno hstep
  exact ⟨consumed_step hu hlog hno hstep, hlog.step (Shift.steps_of_step hstep)⟩

/-! ### And back -/

/-- A worker can do what is left. -/
theorem finish_reached (d : Delivery) : ∀ (n : ℕ) (pc : HandlerPc) (w : World), pc.left ≤ n →
    ∃ choices, (∀ c ∈ choices, WorkerChoice.NoStop c) ∧
      choices.filterMap WorkerChoice.delivered = [] ∧
      exec Shift.step (w, .run d.offset d.event pc) choices =
        some ((pc.finish d w).1, .idle (pc.finish d w).2)
  | 0, pc, _, hn => by
    cases pc with
    | mark c => cases c <;> simp [HandlerPc.left] at hn
    | _ => simp [HandlerPc.left] at hn
  | n + 1, pc, w, hn => by
    obtain ⟨now, uuid, hfits⟩ : ∃ now uuid, pc.Fits d now uuid := by
      cases pc with
      | insertAudit => exact ⟨d.insertedAt, d.uuid, rfl⟩
      | getOrder | publishTicket => exact ⟨d.now, d.uuid, rfl⟩
      | _ => exact ⟨d.now, d.uuid, trivial⟩
    obtain ⟨⟨w', pc'⟩, hstep⟩ := WorkerPc.go_enabled w d.offset d.event pc now uuid
    have hfinish := finish_of_step hstep hfits
    have hno : WorkerChoice.NoStop (.go now uuid) := by
      intro e he
      cases he
    cases pc' with
    | idle last =>
        refine ⟨[.go now uuid], by simpa using hno, rfl, ?_⟩
        rw [hfinish]
        exact Option.bind_eq_some_iff.mpr ⟨_, hstep, rfl⟩
    | run offset event pc₁ =>
        obtain ⟨rfl, rfl, hleft⟩ := (WorkerPc.steps_of_step hstep).nearer
        obtain ⟨choices, hall, hnone, hexec⟩ := finish_reached d n pc₁ w' (by omega)
        refine ⟨.go now uuid :: choices, by simpa using ⟨hno, hall⟩, hnone, ?_⟩
        rw [hfinish]
        exact Option.bind_eq_some_iff.mpr ⟨_, hstep, hexec⟩

theorem consume_reached (hd : w₀.Delivers d) (last : Option Exn) :
    ∃ choices, (∀ c ∈ choices, WorkerChoice.NoStop c) ∧
      choices.filterMap WorkerChoice.delivered = [d.offset] ∧
      exec Shift.step (w₀, .idle last) choices =
        some ((consume w₀ d).1, .idle (consume w₀ d).2) := by
  obtain ⟨m, hm, htopic, hvalue⟩ := hd
  obtain ⟨choices, hall, hnone, hexec⟩ := finish_reached d 9 (.mark .ticketing) w₀ le_rfl
  have hstep : Shift.step (w₀, .idle last) (.deliver d.offset) =
      some (w₀, .run d.offset d.event (.mark .ticketing)) := by
    simp [Shift.step, WorkerPc.step, hm, htopic, hvalue]
  refine ⟨.deliver d.offset :: choices, ?_, ?_, ?_⟩
  · simp only [List.mem_cons, forall_eq_or_imp]
    refine ⟨?_, hall⟩
    intro e he
    cases he
  · simp [WorkerChoice.delivered, hnone]
  · rw [consume_eq_finish]
    exact Option.bind_eq_some_iff.mpr ⟨_, hstep, hexec⟩

theorem consumeAll_reached {ds : List Delivery} (hds : ∀ d ∈ ds, w₀.Delivers d) :
    ∃ choices, (∀ c ∈ choices, WorkerChoice.NoStop c) ∧
      choices.filterMap WorkerChoice.delivered = ds.map Delivery.offset ∧
      exec Shift.step (w₀, .idle none) choices =
        some ((consumeAll w₀ ds).1, .idle (consumeAll w₀ ds).2) := by
  induction ds using List.reverseRecOn with
  | nil => exact ⟨[], by simp, rfl, rfl⟩
  | append_singleton ds d ih =>
      obtain ⟨choices, hall, hoffsets, hexec⟩ := ih fun x hx => hds x (List.mem_append_left _ hx)
      have hlog := continues_run (Trace.of_exec hexec)
      obtain ⟨more, hmore, hoffset, hexec'⟩ := consume_reached
        (hlog.delivers.mpr (hds d (by simp))) (consumeAll w₀ ds).2
      refine ⟨choices ++ more, fun c hc => (List.mem_append.mp hc).elim (hall c) (hmore c), ?_, ?_⟩
      · rw [List.filterMap_append, hoffsets, hoffset, List.map_append, List.map_singleton]
      · rw [consumeAll_snoc]
        exact exec_append hexec hexec'

/-- **The worker's loop refines its handlers.**  A worker alone with the store, that
nobody stops, is between two messages only where `consumeAll` ends for the messages it
has taken, in their order; and it can get there for any messages of its topic, taken
in any order and any number of times. -/
theorem worker_refines (w₀ w : World) (last : Option Exn) (offsets : List ℕ) :
    (∃ steps, Trace Shift.step (w₀, .idle none) steps (w, .idle last) ∧
      (∀ p ∈ steps, p.2.NoStop) ∧ deliveredOffsets steps = offsets) ↔
    ∃ ds : List Delivery, (∀ d ∈ ds, w₀.Delivers d) ∧ ds.map Delivery.offset = offsets ∧
      consumeAll w₀ ds = (w, last) := by
  constructor
  · rintro ⟨steps, h, hgo, rfl⟩
    obtain ⟨ds, hds, hoffsets, hall⟩ := consumed_run h hgo
    exact ⟨ds, hds, hoffsets, hall⟩
  · rintro ⟨ds, hds, rfl, hall⟩
    obtain ⟨choices, hno, hoffsets, hexec⟩ := consumeAll_reached hds
    rw [hall] at hexec
    refine ⟨_, Trace.of_exec hexec, fun p hp => hno p.2 (mem_of_execSteps hp), ?_⟩
    rw [deliveredOffsets, map_snd_execSteps hexec, hoffsets]

end Shift

end FlyDesk
