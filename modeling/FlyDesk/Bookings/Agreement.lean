/-
FlyDesk/Bookings/Agreement.lean

Agreement through the unique index.  Nothing is assumed of Redis here: any
command may fail and a reservation may run out at any time, so several calls
with one key may book.  What is left is the unique index on the key, and the
fact that the ids of new orders are fresh: a document, once stored, is never
replaced by another call, and every call with the key that returns does so
with the id of the one document under it.

The invariant is about the orders in flight, those a call holds between
booking and saving: their ids are of no stored document, and no two calls hold
the same.
-/
import FlyDesk.Bookings.Reservation

namespace FlyDesk

open Lib

/-! ### Orders and their documents -/

theorem OrderDoc.toOrder_id {d : OrderDoc} {o : Order} (h : d.toOrder = .ok o) :
    o.id = d.id := by
  obtain ⟨total, _, rfl⟩ := OrderDoc.toOrder_eq_ok.mp h
  rfl

@[simp] theorem Order.id_modelDump (o : Order) : o.modelDump.id = o.id := rfl

@[simp] theorem Order.id_staged (o : Order) (key : Option IdempotencyKey) (uuid : String)
    (now : DateTime) : (o.staged key uuid now).id = o.id := rfl

/-- The order a keyed call stages is stored under that key. -/
theorem Order.indexed_staged (o : Order) (k : IdempotencyKey) (uuid : String)
    (now : DateTime) :
    (o.staged (some k) uuid now).modelDump.idempotencyKey = .val k.val := rfl

/-- After storing an order whose id is of no document, it is one document
more. -/
theorem OrderRepository.mem_save_fresh {col col' : Collection OrderDoc} {o : Order}
    (h : OrderRepository.save col o = some col') (hfresh : ∀ d ∈ col.docs, d.id ≠ o.id)
    {x : OrderDoc} : x ∈ col'.docs ↔ x = o.modelDump ∨ x ∈ col.docs := by
  rw [Collection.mem_replaceOne h]
  constructor
  · rintro (rfl | ⟨hx, _⟩)
    · exact Or.inl rfl
    · exact Or.inr hx
  · rintro (rfl | hx)
    · exact Or.inl rfl
    · exact Or.inr ⟨hx, hfresh x hx⟩

/-! ### Orders in flight -/

/-- The id of an order the provider returns is new: no order returned before
has it, and no document. -/
def FreshOrder (w : World) : BookingChoice → Prop
  | .orderReply _ reply _ _ => ∀ data, DuffelProvider.request reply = .ok data →
      data.id ∉ w.orderIds ∧ ∀ d ∈ w.orders.docs, d.id ≠ data.id
  | _ => True

instance (w : World) : DecidablePred (FreshOrder w)
  | .orderReply _ reply _ _ =>
    match h : DuffelProvider.request reply with
    | .ok data => decidable_of_iff
        (data.id ∉ w.orderIds ∧ ∀ d ∈ w.orders.docs, d.id ≠ data.id)
        ⟨fun hd _ h' => Except.ok.inj (h.symm.trans h') ▸ hd, fun hd => hd data h⟩
    | .error _ => .isTrue fun _ h' => nomatch h.symm.trans h'
  | .go | .redisError _ | .offerReply _ | .stop _ => .isTrue trivial

/-- The order a call is about to save is of no stored document. -/
def BookingFrame.InFlight (w : World) (f : BookingFrame) : Prop :=
  ∀ o, f.pc = .save o → o.id ∈ w.orderIds ∧ ∀ d ∈ w.orders.docs, d.id ≠ o.id

/-- Two calls are about to save different orders. -/
def BookingFrame.Apart (f g : BookingFrame) : Prop :=
  ∀ o o', f.pc = .save o → g.pc = .save o' → o.id ≠ o'.id

/-- What a step does to the stored orders: nothing, or it saves the order of
the call. -/
theorem BookingFrame.Steps.orders {w w' : World} {f f' : BookingFrame}
    {choice : BookingChoice} (h : f.Steps w choice w' f') :
    (w'.orders = w.orders ∧ w.orderIds ⊆ w'.orderIds) ∨
      ∃ o, f.pc = .save o ∧ f'.pc = .saved o ∧
        OrderRepository.save w.orders o = some w'.orders ∧ w'.orderIds = w.orderIds := by
  cases h with
  | stored hpc hsave => exact Or.inr ⟨_, hpc, rfl, hsave, rfl⟩
  | booked => exact Or.inl ⟨rfl, fun _ hx => List.mem_append_left _ hx⟩
  | _ => exact Or.inl ⟨rfl, fun _ hx => hx⟩

/-- How a call comes to save an order: the provider has just returned it. -/
theorem BookingFrame.Steps.to_save {w w' : World} {f f' : BookingFrame}
    {choice : BookingChoice} (h : f.Steps w choice w' f') {o : Order}
    (ho : f'.pc = .save o) : ∃ passengers data created reply uuid now,
      f.pc = .postOrder passengers ∧ choice = .orderReply created reply uuid now ∧
      DuffelProvider.request reply = .ok data ∧
      o = (DuffelProvider.mapOrder data passengers now).staged f.call.key uuid now.stagedAt ∧
      w' = { w with
        ordersCreated := w.ordersCreated ++ [f.call.key]
        orderIds := w.orderIds ++ [data.id]
        eventIds := w.eventIds ++ [uuid] } := by
  cases h with
  | @booked passengers data created reply uuid now hpc hdata =>
      have he := BookingPc.save.inj ho
      exact ⟨passengers, data, created, reply, uuid, now, hpc, rfl, hdata, he.symm, rfl⟩
  | find _ _ hf | findReserved _ _ hf | findWinner _ _ hf => cases hf <;> cases ho
  | @stopped how => cases how <;> cases ho
  | _ => cases ho

/-- A call that has just saved an order. -/
theorem BookingFrame.Steps.to_saved {w w' : World} {f f' : BookingFrame}
    {choice : BookingChoice} (h : f.Steps w choice w' f') {o : Order}
    (ho : f'.pc = .saved o) :
    f.pc = .save o ∧ OrderRepository.save w.orders o = some w'.orders := by
  cases h with
  | stored hpc hsave =>
      obtain rfl := BookingPc.saved.inj ho
      exact ⟨hpc, hsave⟩
  | find _ _ hf | findReserved _ _ hf | findWinner _ _ hf => cases hf <;> cases ho
  | @stopped how => cases how <;> cases ho
  | _ => cases ho

variable {w w' : World} {f f' g : BookingFrame} {choice : BookingChoice}

theorem BookingFrame.Steps.inFlight (h : f.Steps w choice w' f')
    (hfresh : FreshOrder w choice) : f'.InFlight w' := by
  intro o ho
  obtain ⟨ps, data, created, reply, uuid, now, _, rfl, hdata, rfl, rfl⟩ := h.to_save ho
  refine ⟨?_, (hfresh data hdata).2⟩
  exact List.mem_append_right _ (List.mem_singleton.mpr rfl)

/-- A step keeps what another call has in flight. -/
theorem BookingFrame.Steps.inFlight_other (h : f.Steps w choice w' f')
    (hf : f.InFlight w) (hg : g.InFlight w) (hfg : f.Apart g) : g.InFlight w' := by
  intro o ho
  obtain ⟨hid, hdocs⟩ := hg o ho
  rcases h.orders with ⟨heq, hids⟩ | ⟨o', hpc, _, hsave, hids⟩
  · rw [heq]
    exact ⟨hids hid, hdocs⟩
  · refine ⟨hids ▸ hid, fun d hd => ?_⟩
    rcases (OrderRepository.mem_save_fresh hsave (hf o' hpc).2).mp hd with rfl | hd
    · exact hfg o' o hpc ho
    · exact hdocs d hd

theorem BookingFrame.Steps.apart (h : f.Steps w choice w' f') (hfresh : FreshOrder w choice)
    (hg : g.InFlight w) : f'.Apart g := by
  intro o o' ho ho'
  obtain ⟨ps, data, created, reply, uuid, now, _, rfl, hdata, rfl, rfl⟩ := h.to_save ho
  intro he
  have hid := (hg o' ho').1
  rw [← he] at hid
  exact (hfresh data hdata).1 hid

/-- A stored document stays where it is. -/
theorem BookingFrame.Steps.docs_subset (h : f.Steps w choice w' f') (hf : f.InFlight w) :
    w.orders.docs ⊆ w'.orders.docs := by
  intro d hd
  rcases h.orders with ⟨heq, _⟩ | ⟨o, hpc, _, hsave, _⟩
  · rw [heq]
    exact hd
  · exact (OrderRepository.mem_save_fresh hsave (hf o hpc).2).mpr (Or.inr hd)

/-! ### Agreement -/

/-- The document under key `k` has this id. -/
def StoredUnder (k : IdempotencyKey) (id : String) (w : World) : Prop :=
  ∃ d ∈ w.orders.docs, d.idempotencyKey = .val k.val ∧ d.id = id

theorem FindsTo.storedUnder {k : IdempotencyKey} {otherwise : BookingPc} {o : Order}
    {pc : BookingPc} (h : FindsTo w k otherwise pc) (ho : pc = .returned o)
    (hother : otherwise ≠ .returned o) : StoredUnder k o.id w := by
  cases h with
  | found hd hk hread =>
      obtain rfl := BookingPc.returned.inj ho
      exact ⟨_, hd, hk, (OrderDoc.toOrder_id hread).symm⟩
  | absent => exact absurd ho hother
  | unreadable => cases ho

namespace Bookings

variable {ι : Type*} [DecidableEq ι]

/-- What a call knows: its order in flight is new and carries its key; once
it has saved or returned an order, that one is stored under its key. -/
structure Agrees (w : World) (f : BookingFrame) : Prop where
  inFlight : f.InFlight w
  keyed : ∀ o k, f.call.key = some k → f.pc = .save o →
    o.modelDump.idempotencyKey = .val k.val
  stored : ∀ o k, f.call.key = some k → f.pc = .saved o ∨ f.pc = .returned o →
    StoredUnder k o.id w

theorem storedUnder_mono {k : IdempotencyKey} {id : String}
    (hsub : w.orders.docs ⊆ w'.orders.docs) (h : StoredUnder k id w) :
    StoredUnder k id w' := by
  obtain ⟨d, hd, hk, hid⟩ := h
  exact ⟨d, hsub hd, hk, hid⟩

/-- A step of a call that makes it return: the four ways out. -/
theorem storedUnder_of_returned {k : IdempotencyKey} {o : Order}
    (h : f.Steps w choice w' f') (hA : Agrees w f) (hk : f.call.key = some k)
    (ho : f'.pc = .returned o) : StoredUnder k o.id w' := by
  cases h with
  | @find key _ _ hkey hfind | @findReserved key _ _ hkey hfind
  | @findWinner key _ _ hkey hfind =>
      obtain rfl := Option.some.inj (hkey.symm.trans hk)
      exact hfind.storedUnder ho (by simp)
  | finished hpc =>
      obtain rfl := BookingPc.returned.inj ho
      exact hA.stored _ k hk (Or.inl hpc)
  | @stopped how => cases how <;> cases ho
  | _ => cases ho

theorem agrees_own (h : f.Steps w choice w' f') (hfresh : FreshOrder w choice)
    (hA : Agrees w f) : Agrees w' f' where
  inFlight := h.inFlight hfresh
  keyed := by
    intro o k hk ho
    rw [h.call_eq] at hk
    obtain ⟨ps, data, _, _, uuid, now, _, _, _, rfl, _⟩ := h.to_save ho
    rw [hk]
    exact Order.indexed_staged _ k uuid now.stagedAt
  stored := by
    intro o k hk ho
    rw [h.call_eq] at hk
    rcases ho with ho | ho
    · -- the call has just saved its order
      rcases h.to_saved ho with ⟨hpc, hsave⟩
      refine ⟨o.modelDump, ?_, hA.keyed o k hk hpc, rfl⟩
      exact (OrderRepository.mem_save_fresh hsave (hA.inFlight o hpc).2).mpr (Or.inl rfl)
    · exact storedUnder_of_returned h hA hk ho

theorem agrees_other (h : f.Steps w choice w' f') (hA : Agrees w f) (hB : Agrees w g)
    (hfg : f.Apart g) : Agrees w' g where
  inFlight := h.inFlight_other hA.inFlight hB.inFlight hfg
  keyed := hB.keyed
  stored := fun o k hk ho =>
    storedUnder_mono (h.docs_subset hA.inFlight) (hB.stored o k hk ho)

/-- The assertions behind the agreement. -/
def agreement : Assertions World BookingFrame where
  shared _ := True
  each := Agrees
  pair := BookingFrame.Apart

/-- Every order the provider returns in this step is new. -/
def FreshIds (s : Bookings ι) : BookingMove ι → Prop
  | .proc _ choice => FreshOrder s.shared choice
  | .env _ => True

omit [DecidableEq ι] in
theorem agreement_stable :
    agreement.Stable BookingFrame.step World.tick (FreshIds (ι := ι)) where
  symm := fun h o o' ho ho' he => h o' o ho' ho he.symm
  own := by
    intro s i choice w' f' hA hok hf
    exact ⟨trivial, agrees_own (BookingFrame.steps_of_step hf) hok (hA.each i)⟩
  other := by
    intro s i j choice w' f' hA hok hf hij
    have h := BookingFrame.steps_of_step hf
    exact ⟨agrees_other h (hA.each i) (hA.each j) (hA.pair i j hij),
      h.apart hok (hA.each j).inFlight⟩
  env := by
    intro s seconds w' hA _ hg
    obtain rfl := Option.some.inj hg
    -- time changes neither the documents nor the ids
    refine ⟨trivial, fun i => ?_⟩
    obtain ⟨hflight, hkeyed, hstored⟩ := hA.each i
    exact ⟨hflight, hkeyed, hstored⟩

omit [DecidableEq ι] in
theorem agreement_initial {s : Bookings ι} (hs : s.Initial) : agreement.Hold s := by
  have hpc : ∀ i, (s.procs i).pc = .start := by
    intro i
    obtain ⟨call, hcall⟩ := hs.init i
    rw [hcall]
    rfl
  refine ⟨trivial, fun i => ⟨?_, ?_, ?_⟩, fun i j _ o o' ho => ?_⟩
  · intro o ho
    simp [hpc i] at ho
  · intro o k _ ho
    simp [hpc i] at ho
  · intro o k _ ho
    simp [hpc i] at ho
  · simp [hpc i] at ho

/-- **Agreement without Redis.**  In every run in which the provider's order
ids are fresh, at most one document carries a key, and every call with the
key that returns, returns the id of that document. -/
theorem returned_agree (k : IdempotencyKey) {s t : Bookings ι}
    {steps : List (Bookings ι × BookingMove ι)} (h : Trace Bookings.step s steps t)
    (hs : s.Initial) (hfresh : ∀ p ∈ steps, FreshIds p.1 p.2) :
    (∀ d ∈ t.shared.orders.docs, ∀ d' ∈ t.shared.orders.docs,
      d.idempotencyKey = .val k.val → d'.idempotencyKey = .val k.val → d = d') ∧
    ∀ i o, (t.procs i).call.key = some k → (t.procs i).pc = .returned o →
      ∃ d ∈ t.shared.orders.docs, d.idempotencyKey = .val k.val ∧ d.id = o.id := by
  have hA := agreement_stable.run h hfresh (agreement_initial hs)
  constructor
  · intro d hd d' hd' hk hk'
    exact Collection.eq_of_indexed hd hd' hk hk'
  · intro i o hk ho
    exact (hA.each i).stored o k hk (Or.inr ho)

instance (s : Bookings ι) : DecidablePred (FreshIds s)
  | .proc _ choice => inferInstanceAs (Decidable (FreshOrder s.shared choice))
  | .env _ => .isTrue trivial

/-- Redis is down for both calls, both book, and the second to save returns
the order of the first. -/
def doubleBooking : List (BookingMove Sample.Caller) :=
  [.proc .first .go, .proc .second .go, .proc .first (.redisError false),
    .proc .second (.redisError true), .proc .first .go, .proc .second .go,
    .proc .first Sample.offer, .proc .second Sample.offer,
    .proc .first (Sample.created "ord_1" "e1"), .proc .second (Sample.created "ord_2" "e2"),
    .proc .first .go, .proc .second .go, .proc .second .go, .proc .first .go]

theorem returned_agree_doubleBooking :
    let s := Sample.bookings fun _ : Sample.Caller => Sample.call (some "k1")
    ∃ t o, exec Bookings.step s doubleBooking = some t ∧
      (t.procs .second).pc = .returned o ∧ o.id = "ord_1" ∧
      ∃ d ∈ t.shared.orders.docs, d.idempotencyKey = .val "k1" ∧ d.id = o.id := by
  intro s
  obtain ⟨t, ht, hid, hkey⟩ := exec_any (P := fun t : Bookings Sample.Caller =>
    (t.procs .second).pc.returned?.map Order.id = some "ord_1" ∧
      (t.procs .second).call.key = some Sample.key)
    (by decide : (exec Bookings.step s doubleBooking).any _ = true)
  obtain ⟨o, ho, hid⟩ := Option.map_eq_some_iff.mp hid
  have hpc := BookingPc.returned?_eq_some.mp ho
  exact ⟨t, o, ht, hpc, hid, (returned_agree Sample.key (Trace.of_exec ht)
    (Sample.initial_bookings _) (by decide)).2 .second o hkey hpc⟩

end Bookings

end FlyDesk
