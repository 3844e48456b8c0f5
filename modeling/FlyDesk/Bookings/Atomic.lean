/-
FlyDesk/Bookings/Atomic.lean

`create_booking` as if it were one step.  The desk is what the service is for: a list of
bookings, one a key, on which a call either finds the booking of its key or adds its own
(`Desk.createBooking`).  The program does this in up to seven steps, with Redis in between
that may fail and forget, while relays and workers write whole orders back and any process
may stop anywhere.

`FlyDeskSystem.linearizable` says that nobody can tell: every run has an order of its calls
in which they are served one after the other by the desk, with the answers they got, in
the order of time, and the desk ends with the bookings that are stored.
-/
import FlyDesk.Bookings.Views
import FlyDesk.Lib.Linearize

namespace FlyDesk

open Lib

/-! ### The desk -/

/-- What is done for a call: the key it was made with, and what lasts of its order. -/
structure Placed where
  key : Option IdempotencyKey
  booking : OrderDoc

namespace Desk

/-- `create_booking` in one step, on the bookings there are; `booking` is what the provider
would make of the call. -/
def createBooking (desk : List OrderDoc) (key : Option IdempotencyKey) (booking : OrderDoc) :
    List OrderDoc × OrderDoc :=
  match key.bind fun k => desk.find? fun b => b.idempotencyKey = .val k.val with
  | some existing => (desk, existing)
  | none => (desk ++ [booking], booking)

/-- The desk serves a call.  What it adds is new and carries the key of the call. -/
structure Serves {ι : Type*} (desk : List OrderDoc) (e : ι × Placed) (desk' : List OrderDoc) :
    Prop where
  atomic : createBooking desk e.2.key e.2.booking = (desk', e.2.booking)
  keyed : ∀ k, e.2.key = some k → e.2.booking.idempotencyKey = .val k.val
  fresh : e.2.booking ∈ desk ∨ ∀ b ∈ desk, b.id ≠ e.2.booking.id

/-- The desk has the bookings that are stored, apart from their status, history and
publication times. -/
def Of (desk : List OrderDoc) (w : World) : Prop :=
  ∀ b, b ∈ desk ↔ ∃ d ∈ w.orders.docs, d.core = b

variable {ι : Type*} {desk : List OrderDoc} {w w' : World} {i : ι} {k : IdempotencyKey}
  {d : OrderDoc} {o : Order}

/-- The booking of a key, on the desk and in the store. -/
theorem Of.find_eq_some (h : Of desk w) (hd : d ∈ w.orders.docs)
    (hkey : d.idempotencyKey = .val k.val) :
    (desk.find? fun b => b.idempotencyKey = .val k.val) = some d.core := by
  have hmem : d.core ∈ desk := (h _).mpr ⟨d, hd, rfl⟩
  cases hfind : desk.find? fun b => b.idempotencyKey = .val k.val with
  | none => exact absurd (decide_eq_true hkey) (List.find?_eq_none.mp hfind d.core hmem)
  | some b =>
      obtain ⟨d', hd', rfl⟩ := (h b).mp (List.mem_of_find?_eq_some hfind)
      have hfound := List.find?_some hfind
      have hkey' : d'.idempotencyKey = .val k.val := of_decide_eq_true hfound
      obtain rfl := Collection.eq_of_indexed hd' hd hkey' hkey
      rfl

theorem Of.find_eq_none (h : Of desk w)
    (hno : ∀ d ∈ w.orders.docs, d.idempotencyKey ≠ .val k.val) :
    (desk.find? fun b => b.idempotencyKey = .val k.val) = none := by
  refine List.find?_eq_none.mpr fun b hb hkey => ?_
  obtain ⟨d, hd, rfl⟩ := (h b).mp hb
  exact hno d hd (of_decide_eq_true hkey)

/-- A call that finds the order of its key is served. -/
theorem Of.serves_found (h : Of desk w) (hd : d ∈ w.orders.docs)
    (hkey : d.idempotencyKey = .val k.val) : Serves desk (i, ⟨some k, d.core⟩) desk where
  atomic := by
    show createBooking desk (some k) d.core = (desk, d.core)
    rw [createBooking, Option.bind_some, h.find_eq_some hd hkey]
  keyed := by
    rintro k' hk'
    obtain rfl := Option.some.inj hk'
    exact hkey
  fresh := Or.inl ((h _).mpr ⟨d, hd, rfl⟩)

/-- A call that stores a new order is served. -/
theorem Of.serves_stored {key : Option IdempotencyKey} (h : Of desk w)
    (hsave : OrderRepository.save w.orders o = some w'.orders)
    (hfresh : ∀ d ∈ w.orders.docs, d.id ≠ o.id)
    (hkeyed : ∀ k, key = some k → o.modelDump.idempotencyKey = .val k.val) :
    Serves desk (i, ⟨key, o.modelDump.core⟩) (desk ++ [o.modelDump.core]) where
  atomic := by
    show createBooking desk key o.modelDump.core = _
    rcases key with - | k
    · rfl
    · have hkey := hkeyed k rfl
      have hno : ∀ d ∈ w.orders.docs, d.idempotencyKey ≠ .val k.val := by
        intro d hd hdk
        -- the unique index would have refused the new document
        have hd' := (OrderRepository.mem_save_fresh hsave hfresh).mpr (Or.inr hd)
        have ho' := (OrderRepository.mem_save_fresh hsave hfresh).mpr (Or.inl rfl)
        obtain rfl := Collection.eq_of_indexed hd' ho' hdk hkey
        exact hfresh _ hd rfl
      rw [createBooking, Option.bind_some, h.find_eq_none hno]
  keyed := hkeyed
  fresh := by
    refine Or.inr fun b hb => ?_
    obtain ⟨d, hd, rfl⟩ := (h b).mp hb
    exact hfresh d hd

theorem Of.stored (h : Of desk w) (hsave : OrderRepository.save w.orders o = some w'.orders)
    (hfresh : ∀ d ∈ w.orders.docs, d.id ≠ o.id) : Of (desk ++ [o.modelDump.core]) w' := by
  intro b
  rw [List.mem_append, List.mem_singleton, h b]
  constructor
  · rintro (⟨d, hd, rfl⟩ | rfl)
    · exact ⟨d, (OrderRepository.mem_save_fresh hsave hfresh).mpr (Or.inr hd), rfl⟩
    · exact ⟨_, (OrderRepository.mem_save_fresh hsave hfresh).mpr (Or.inl rfl), rfl⟩
  · rintro ⟨d, hd, rfl⟩
    rcases (OrderRepository.mem_save_fresh hsave hfresh).mp hd with rfl | hd
    · exact Or.inr rfl
    · exact Or.inl ⟨d, hd, rfl⟩

theorem Of.of_orders_eq (h : Of desk w) (heq : w'.orders = w.orders) : Of desk w' := by
  intro b
  rw [heq]
  exact h b

end Desk

/-! ### The point of a call -/

/-- What has been done for a call: it has stored its order, or has found one. -/
def BookingFrame.placed (f : BookingFrame) : Option Placed :=
  match f.pc with
  | .saved o | .returned o => some ⟨f.call.key, o.modelDump.core⟩
  | _ => none

/-- The call may still come to an order. -/
def BookingPc.Pending : BookingPc → Prop
  | .saved _ | .returned _ | .raised _ | .died => False
  | _ => True

def Proc.placed : Proc → Option Placed
  | .booking f => f.placed
  | _ => none

/-- Relays and workers are no calls. -/
def Proc.Pending : Proc → Prop
  | .booking f => f.pc.Pending
  | _ => True

variable {w w' : World} {f f' : BookingFrame} {choice : BookingChoice}

theorem BookingFrame.Steps.pending (h : f.Steps w choice w' f') (hf : f'.pc.Pending) :
    f.pc.Pending := by
  cases h with
  | finished => exact hf.elim
  | @stopped how hend => cases how <;> exact hf.elim
  | startUnkeyed hpc | find hpc | reserved hpc | refused hpc | redisDown hpc | findReserved hpc
  | prepared hpc | unprepared hpc | offered hpc | unoffered hpc | booked hpc | unbooked hpc
  | stored hpc | lost hpc | orphaned hpc | findWinner hpc =>
      rw [hpc]
      trivial

/-- How a call comes to have an order. -/
theorem BookingFrame.Steps.placed (h : f.Steps w choice w' f') {e : Placed}
    (he : f'.placed = some e) : f.placed = some e ∨ f.pc.Pending ∧
      ((∃ o, f.pc = .save o ∧ OrderRepository.save w.orders o = some w'.orders ∧
        e = ⟨f.call.key, o.modelDump.core⟩) ∨
      (w'.orders = w.orders ∧ ∃ k d o, f.call.key = some k ∧ d ∈ w.orders.docs ∧
        d.idempotencyKey = .val k.val ∧ d.toOrder = .ok o ∧
        e = ⟨some k, o.modelDump.core⟩)) := by
  cases h with
  | @stored order orders hpc hsave =>
      obtain rfl := Option.some.inj he
      refine Or.inr ⟨by rw [hpc]; trivial, Or.inl ⟨order, hpc, hsave, rfl⟩⟩
  | @find k _ hpc hk hfind | @findReserved k _ hpc hk hfind | @findWinner k _ hpc hk hfind =>
      cases hfind with
      | @found d o hd hkey hread =>
          obtain rfl := Option.some.inj he
          refine Or.inr ⟨by rw [hpc]; trivial, Or.inr ⟨rfl, k, d, o, hk, hd, hkey, hread, ?_⟩⟩
          rw [← hk]
          rfl
      | _ => cases he
  | finished hpc =>
      refine Or.inl ?_
      rw [BookingFrame.placed, hpc]
      exact he
  | @stopped how => cases how <;> cases he
  | _ => cases he

/-- Every call has one operation. -/
theorem Proc.operations : Operations Proc.step Proc.Pending Proc.placed where
  pending_done := by
    intro p hp
    cases p with
    | booking f =>
        have hpending : f.pc.Pending := hp
        show f.placed = none
        rw [BookingFrame.placed]
        cases hpc : f.pc with
        | saved | returned =>
            rw [hpc] at hpending
            exact hpending.elim
        | _ => rfl
    | _ => rfl
  pending_step := by
    intro w p c w' p' hf hp'
    cases Proc.steps_of_step hf with
    | booking h => exact h.pending hp'
    | _ => trivial
  done_step := by
    intro w p c w' p' e hf he
    cases Proc.steps_of_step hf with
    | booking h => exact (h.placed he).imp_right And.left
    | _ => cases he

variable {p p' : Proc} {c : ProcChoice} {desk : List OrderDoc}

/-- A step at which a call comes to an order is a step of the desk. -/
theorem Proc.Steps.serves_desk {ι : Type*} {i : ι} {e : Placed} (h : Proc.Steps w p c w' p')
    (hdesk : Desk.Of desk w) (hw : w.Faithful) (hp : p.Faithful w) (hknows : p.KnowsKey w)
    (hnone : p.placed = none) (hsome : p'.placed = some e) :
    ∃ desk', Desk.Serves desk (i, e) desk' ∧ Desk.Of desk' w' := by
  cases h with
  | @booking f f' _ _ h =>
      have hplaced := (h.placed hsome).resolve_left fun hd => by cases hnone.symm.trans hd
      obtain ⟨-, ⟨o, hpc, hsave, rfl⟩ | ⟨heq, k, d, o, hk, hd, hkey, hread, rfl⟩⟩ := hplaced
      · have hfresh := (hp.inFlight f rfl o hpc).2
        exact ⟨_, hdesk.serves_stored hsave hfresh fun k hk => hknows.staged f o k rfl hpc hk,
          hdesk.stored hsave hfresh⟩
      · rw [(hw.written d hd).modelDump_toOrder hread]
        exact ⟨desk, hdesk.serves_found hd hkey, hdesk.of_orders_eq heq⟩
  | _ => cases hsome

/-- Any other step leaves the bookings as they are: what is written back has the core it
had. -/
theorem Proc.Steps.keeps_desk (h : Proc.Steps w p c w' p') (hdesk : Desk.Of desk w)
    (hp : p.Faithful w) (hno : ∀ e, p.placed = none → p'.placed ≠ some e) :
    Desk.Of desk w' := by
  have hwritten : (∀ f, p ≠ .booking f) → Desk.Of desk w' := by
    intro hf b
    rw [hdesk b]
    constructor
    · rintro ⟨d, hd, rfl⟩
      exact (h.grows hp).docs d hd
    · rintro ⟨d, hd, rfl⟩
      rcases h.docs_cases hp hd with hold | ⟨f, _, hbooking, -⟩ | ⟨d₀, hd₀, hcore, -⟩
      · exact ⟨d, hold, rfl⟩
      · exact absurd hbooking (hf f)
      · exact ⟨d₀, hd₀, hcore.symm⟩
  cases h with
  | @booking f f' _ _ h =>
      rcases h.orders with ⟨heq, -⟩ | ⟨o, hpc, hpc', -, -⟩
      · exact hdesk.of_orders_eq heq
      · -- the call would have come to its order
        refine absurd ?_ (hno ⟨f'.call.key, o.modelDump.core⟩ ?_)
        · show f'.placed = _
          rw [BookingFrame.placed, hpc']
        · show f.placed = none
          rw [BookingFrame.placed, hpc]
  | relay => exact hwritten fun _ hf => by cases hf
  | worker => exact hwritten fun _ hf => by cases hf

/-! ### Runs -/

namespace FlyDeskSystem

variable {ι : Type*} [DecidableEq ι] {s t : FlyDeskSystem ι} {m : FlyDeskMove ι}
  {steps : List (FlyDeskSystem ι × FlyDeskMove ι)}

/-- The calls that came to an order, in the order in which they did. -/
def linearized (steps : List (FlyDeskSystem ι × FlyDeskMove ι)) : List (ι × Placed) :=
  System.linearized Proc.step World.tick Proc.placed steps

/-- A step with a point is one of the desk. -/
theorem serves_of_point {e : ι × Placed} (h : Desk.Of desk s.shared) (hlive : outbox.Hold s)
    (hknows : ∀ i, (s.procs i).KnowsKey s.shared) (hs : FlyDeskSystem.step s m = some t)
    (hp : System.point Proc.step World.tick Proc.placed (s, m) = some e) :
    ∃ desk', Desk.Serves desk e desk' ∧ Desk.Of desk' t.shared := by
  obtain ⟨i, e⟩ := e
  obtain ⟨⟨c, rfl⟩, hnone, hsome⟩ := (System.point_eq_some hs).mp hp
  obtain ⟨hne, -⟩ | ⟨c', hm, hf⟩ := System.still_or_moved hs i
  · exact absurd rfl (hne c)
  · exact (Proc.steps_of_step hf).serves_desk h hlive.shared (hlive.each i) (hknows i) hnone hsome

/-- One without leaves it as it is. -/
theorem keeps_of_no_point (h : Desk.Of desk s.shared) (hlive : outbox.Hold s)
    (hs : FlyDeskSystem.step s m = some t)
    (hp : System.point Proc.step World.tick Proc.placed (s, m) = none) :
    Desk.Of desk t.shared := by
  cases m with
  | env seconds =>
      obtain ⟨w, hw, rfl⟩ := System.step_env hs
      obtain rfl := Option.some.inj hw
      exact h.of_orders_eq rfl
  | proc i c =>
      obtain ⟨hne, -⟩ | ⟨c', -, hf⟩ := System.still_or_moved hs i
      · exact absurd rfl (hne c)
      · refine (Proc.steps_of_step hf).keeps_desk h (hlive.each i) fun e hnone hsome => ?_
        cases hp.symm.trans ((System.point_eq_some hs).mpr ⟨⟨c, rfl⟩, hnone, hsome⟩)

omit [DecidableEq ι] in
theorem Fresh.pending (hs : s.Fresh) (i : ι) : (s.procs i).Pending := by
  have hinit := hs.initial i
  generalize s.procs i = p at hinit
  cases p with
  | booking f =>
      obtain ⟨call, rfl⟩ := hinit
      trivial
  | _ => trivial

/-- **`create_booking` is one step.**  In every run of the system in which order ids are
fresh, the calls that come to an order can be served by the desk one after the other: with
the answers they got, none twice, in the order of time (a call that has returned before
another starts comes before it), and the desk ends with the bookings that are stored. -/
theorem linearizable (h : Trace FlyDeskSystem.step s steps t) (hs : s.Fresh)
    (hfresh : ∀ p ∈ steps, FreshIds p.1 p.2) :
    (∃ desk, Legal Desk.Serves [] (linearized steps) desk ∧ Desk.Of desk t.shared) ∧
      ((linearized steps).map Prod.fst).Nodup ∧
      (∀ i f o, t.procs i = .booking f → f.pc = .returned o →
        (i, ⟨f.call.key, o.modelDump.core⟩) ∈ linearized steps) ∧
      ∀ p ∈ steps, ∀ i j f g o, p.1.procs i = .booking f → f.pc = .returned o →
        p.1.procs j = .booking g → g.pc = .start →
        ∃ l l', linearized steps = l ++ l' ∧ (i, ⟨f.call.key, o.modelDump.core⟩) ∈ l ∧
          j ∉ l.map Prod.fst := by
  have hplaced : ∀ {f : BookingFrame} {o : Order}, f.pc = .returned o →
      (Proc.booking f).placed = some ⟨f.call.key, o.modelDump.core⟩ := by
    intro f o hpc
    show f.placed = _
    rw [BookingFrame.placed, hpc]
  have haccounted := Proc.operations.accounted h hs.pending
  refine ⟨?_, haccounted.nodup, fun i f o hi hpc => ?_, ?_⟩
  · refine Trace.legal (R := fun desk u => Desk.Of desk u.shared)
      (A := fun u _ => outbox.Hold u ∧ ∀ i, (u.procs i).KnowsKey u.shared) h
      (fun p hp => ⟨(live_mem h hs hfresh p hp).outbox, knowsKey_mem h hs hfresh p hp⟩) ?_
      (fun hR hA hv hp => serves_of_point hR hA.1 hA.2 hv hp)
      fun hR hA hv hp => keeps_of_no_point hR hA.1 hv hp
    -- nothing is stored yet
    intro b
    rw [hs.shared]
    simp [World.fresh]
  · exact haccounted.done i _ (by rw [hi]; exact hplaced hpc)
  · intro p hp i j f g o hi hpc hj hstart
    refine Proc.operations.before h hs.pending hp (by rw [hi]; exact hplaced hpc) ?_
    rw [hj]
    show g.pc.Pending
    rw [hstart]
    trivial

/-- Redis is down for two calls with one key: both have an order made, and the second is
answered with that of the first. -/
def bothBook : List (FlyDeskMove Sample.Caller) :=
  Bookings.doubleBooking.map fun
    | .proc i choice => .proc i (.booking choice)
    | .env seconds => .env seconds

theorem linearizable_bothBook :
    let steps := execSteps FlyDeskSystem.step twins bothBook
    ∃ t, exec FlyDeskSystem.step twins bothBook = some t ∧
      (linearized steps).map Prod.fst = [.first, .second] ∧
      ∃ desk, Legal Desk.Serves [] (linearized steps) desk ∧ Desk.Of desk t.shared := by
  intro steps
  obtain ⟨t, ht, -⟩ := exec_any (P := fun t : FlyDeskSystem Sample.Caller =>
    t.shared.orders.docs.length = 1)
    (by decide : (exec FlyDeskSystem.step twins bothBook).any _ = true)
  exact ⟨t, ht, by decide, (linearizable (Trace.of_exec ht) ⟨rfl, fun _ => ⟨_, rfl⟩⟩
    (by decide)).1⟩

end FlyDeskSystem

end FlyDesk
