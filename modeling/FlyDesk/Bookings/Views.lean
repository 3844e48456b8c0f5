/-
FlyDesk/Bookings/Views.lean

The two views over bookings: POST /api/v1/bookings makes a call of
`create_booking`, and GET /api/v1/bookings/{id} one of `get_booking`.  The law is
about what a client sees of the whole system: relays and workers write orders back
all the time, yet what was answered once is what a later GET shows, but for the
status, the history and the publication times; and a call with a key whose order is
stored is answered with that order, without a word to Redis or the provider.

The serializer in front of `create_booking` belongs to the framework; a call begins
with what it lets through.
-/
import FlyDesk.Bookings.Storage
import FlyDesk.Common.Answer
import FlyDesk.Events.Progress

namespace FlyDesk

open Lib

/-! ### Answers -/

section Views

variable (T : IsoText)

/-- `order.model_dump(mode="json")`. -/
def Order.json (o : Order) : Json := .obj
  [("id", .str o.id), ("provider", .str o.provider.value),
    ("provider_order_id", .str o.providerOrderId),
    ("booking_reference", .nullable .str o.bookingReference), ("status", .str o.status.value),
    ("total", o.total.json), ("slices", .list (Slice.json T) o.slices),
    ("passengers", .list (BookingPassenger.json T) o.passengers),
    ("idempotency_key", .nullable .str o.idempotencyKey),
    ("created_at", .str (T.dateTime o.createdAt)), ("events", .list (OrderEvent.json T) o.events),
    ("outbox", .list (fun e => e.modelDump.json T) o.outbox)]

/-- `BookingsView.post`, once its call has ended; a call that dies with its process
is not answered. -/
def BookingsView.post : BookingPc → Option Answer
  | .returned order => some (.ok 201 (order.json T))
  | .raised e => some e.answer
  | _ => none

/-- What `get_booking` raises. -/
inductive GetBookingError
  | bookingNotFoundError
  | raised (e : Exn)

/-- `get_booking`. -/
def getBooking (col : Collection OrderDoc) (orderId : String) : Except GetBookingError Order :=
  match OrderRepository.get col orderId with
  | .ok (some order) => .ok order
  | .ok none => .error .bookingNotFoundError
  | .error e => .error (.raised e)

/-- `BookingDetailView.get`. -/
def BookingDetailView.get (col : Collection OrderDoc) (orderId : String) : Answer :=
  match getBooking col orderId with
  | .ok order => .ok 200 (order.json T)
  | .error .bookingNotFoundError => .error 404 "booking_not_found"
  | .error (.raised e) => e.answer

end Views

/-- The two orders differ in status, history and publication times at most. -/
def Order.SameBooking (o o' : Order) : Prop := o'.modelDump.core = o.modelDump.core

/-- The fields of an answer that stay as they are. -/
def lastingFields : List String :=
  ["id", "provider", "provider_order_id", "booking_reference", "total", "slices", "passengers",
    "idempotency_key", "created_at"]

variable {T : IsoText}

/-- They are rendered with the same lasting fields. -/
theorem Order.SameBooking.json {o o' : Order} (h : o.SameBooking o') :
    ∃ d d' : Dict, o.json T = .obj d ∧ o'.json T = .obj d' ∧
      ∀ name ∈ lastingFields, d'.get? name = d.get? name := by
  refine ⟨_, _, rfl, rfl, ?_⟩
  have hid : o'.id = o.id := congrArg (fun d : OrderDoc => d.id) h
  have hprovider : o'.provider = o.provider := congrArg (fun d : OrderDoc => d.provider) h
  have hproviderId : o'.providerOrderId = o.providerOrderId :=
    congrArg (fun d : OrderDoc => d.providerOrderId) h
  have href : o'.bookingReference = o.bookingReference :=
    congrArg (fun d : OrderDoc => d.bookingReference) h
  have htotal : o'.total.modelDump = o.total.modelDump := congrArg (fun d : OrderDoc => d.total) h
  have hslices : o'.slices = o.slices := congrArg (fun d : OrderDoc => d.slices) h
  have hpassengers : o'.passengers = o.passengers :=
    congrArg (fun d : OrderDoc => d.passengers) h
  have hcreated : o'.createdAt = o.createdAt := congrArg (fun d : OrderDoc => d.createdAt) h
  have hkey : o'.idempotencyKey = o.idempotencyKey := by
    have hfield := congrArg (fun d : OrderDoc => d.idempotencyKey.toOption) h
    simpa [Order.modelDump, OrderDoc.core] using hfield
  have hmoney : o'.total.json = o.total.json := congrArg MoneyDoc.json htotal
  simp [lastingFields, hid, hprovider, hproviderId, href, hmoney, hslices, hpassengers, hcreated,
    hkey]

/-! ### What a call has answered -/

variable {w w' : World} {p p' : Proc} {choice : ProcChoice}

/-- The order a call has saved or returned has the core of a stored document, and a
call with a key has that of the document under its key. -/
def Proc.Answered (w : World) (p : Proc) : Prop :=
  ∀ call o, p = .booking call → call.pc = .saved o ∨ call.pc = .returned o →
    ∃ d ∈ w.orders.docs, d.core = o.modelDump.core ∧
      ∀ k, call.call.key = some k → d.idempotencyKey = .val k.val

theorem Proc.Answered.mono (h : w.Grows w') (hp : p.Answered w) : p.Answered w' := by
  intro call o hcall hpc
  obtain ⟨d, hd, hcore, hkey⟩ := hp call o hcall hpc
  obtain ⟨d', hd', hcore'⟩ := h.docs d hd
  exact ⟨d', hd', hcore'.trans hcore,
    fun k hk => (OrderDoc.idempotencyKey_eq_of_core hcore').trans (hkey k hk)⟩

/-- A document that was found under a key is the answer to the call. -/
theorem FindsTo.answered {key : IdempotencyKey} {otherwise pc : BookingPc} {o : Order}
    (h : FindsTo w key otherwise pc) (hw : w.Faithful) (ho : pc = .saved o ∨ pc = .returned o)
    (hother : otherwise ≠ .saved o ∧ otherwise ≠ .returned o) :
    ∃ d ∈ w.orders.docs, d.core = o.modelDump.core ∧ d.idempotencyKey = .val key.val := by
  cases h with
  | @found d order hd hkey hread =>
      rcases ho with ho | ho
      · cases ho
      · obtain rfl := BookingPc.returned.inj ho
        exact ⟨d, hd, congrArg OrderDoc.core ((hw.written d hd).modelDump_toOrder hread).symm, hkey⟩
  | absent => exact absurd ho (not_or.mpr hother)
  | unreadable => rcases ho with ho | ho <;> cases ho

theorem Proc.Steps.answered (h : Proc.Steps w p choice w' p') (hw : w.Faithful)
    (hknows : p.KnowsKey w) (hp : p.Answered w) : p'.Answered w' := by
  rintro call o rfl hpc
  cases h with
  | @booking f _ _ _ h =>
      rw [h.call_eq]
      have hfound : ∀ {key : IdempotencyKey} {otherwise pc : BookingPc},
          FindsTo w key otherwise pc → f.call.key = some key →
          (otherwise ≠ .saved o ∧ otherwise ≠ .returned o) → (pc = .saved o ∨ pc = .returned o) →
          ∃ d ∈ w.orders.docs, d.core = o.modelDump.core ∧
            ∀ k, f.call.key = some k → d.idempotencyKey = .val k.val := by
        intro key otherwise pc hfind hk hother ho
        obtain ⟨d, hd, hcore, hkey⟩ := hfind.answered hw ho hother
        refine ⟨d, hd, hcore, fun k hk' => ?_⟩
        obtain rfl := Option.some.inj (hk.symm.trans hk')
        exact hkey
      cases h with
      | find _ hk hfind | findReserved _ hk hfind | findWinner _ hk hfind =>
          exact hfound hfind hk ⟨by simp, by simp⟩ hpc
      | stored hsaving hsave =>
          -- the call has just saved its order
          rcases hpc with hpc | hpc
          · obtain rfl := BookingPc.saved.inj hpc
            refine ⟨_, (Collection.mem_replaceOne hsave).mpr (Or.inl rfl), rfl, fun k hk => ?_⟩
            exact hknows.staged f _ k rfl hsaving hk
          · cases hpc
      | finished hsaved =>
          rcases hpc with hpc | hpc
          · cases hpc
          · obtain rfl := BookingPc.returned.inj hpc
            exact hp f _ rfl (Or.inl hsaved)
      | @stopped how => cases how <;> rcases hpc with hpc | hpc <;> cases hpc
      | _ => rcases hpc with hpc | hpc <;> cases hpc

/-- No step leads to the start of a call. -/
theorem BookingFrame.Steps.pc_ne_start {f f' : BookingFrame} {choice : BookingChoice}
    (h : f.Steps w choice w' f') : f'.pc ≠ .start := by
  cases h with
  | find _ _ hfind | findReserved _ _ hfind | findWinner _ _ hfind => cases hfind <;> simp
  | @stopped how => cases how <;> simp [Stop.pc]
  | _ => simp

/-- A stored order is shown: reading it changes nothing. -/
theorem getBooking_of_mem (hw : w.Faithful) {d : OrderDoc} (hd : d ∈ w.orders.docs) :
    ∃ o, getBooking w.orders d.id = .ok o ∧ o.modelDump = d := by
  obtain ⟨o, ho⟩ := (hw.written d hd).toOrder_ok
  have hget : w.orders.get d.id = some d := Collection.get_eq_some.mpr ⟨hd, rfl⟩
  refine ⟨o, ?_, (hw.written d hd).modelDump_toOrder ho⟩
  rw [getBooking, OrderRepository.get, hget, OrderRepository.read, ho]
  rfl

theorem getBooking_of_absent {col : Collection OrderDoc} {orderId : String}
    (h : ∀ d ∈ col.docs, d.id ≠ orderId) :
    getBooking col orderId = .error .bookingNotFoundError := by
  rw [getBooking, OrderRepository.get, Collection.get_eq_none.mpr h]
  rfl

/-- The call has not started, was stopped, or has returned the order of the document;
it has not been to the provider. -/
def BookingFrame.Replayed (d : OrderDoc) (f : BookingFrame) : Prop :=
  f.reachedProvider = false ∧ (f.pc = .start ∨ (∃ how : Stop, f.pc = how.pc) ∨
    ∃ o : Order, f.pc = .returned o ∧ o.modelDump.core = d.core)

/-! ### Runs -/

namespace FlyDeskSystem

variable {ι : Type*} [DecidableEq ι] {s t : FlyDeskSystem ι}
  {steps : List (FlyDeskSystem ι × FlyDeskMove ι)}

theorem answered_run (h : Trace FlyDeskSystem.step s steps t) (hs : s.Fresh)
    (hfresh : ∀ p ∈ steps, FreshIds p.1 p.2) (i : ι) : (t.procs i).Answered t.shared := by
  refine h.invariant (A := fun u m => (Live u ∧ ∀ i, (u.procs i).KnowsKey u.shared) ∧ FreshIds u m)
    (I := fun u => ∀ i, (u.procs i).Answered u.shared) (fun p hp => ⟨⟨?_, ?_⟩, hfresh p hp⟩) ?_ ?_ i
  · exact live_mem h hs hfresh p hp
  · exact knowsKey_mem h hs hfresh p hp
  · rintro i call o hi hpc
    obtain ⟨c, rfl⟩ := hs.exists_init hi
    rcases hpc with hpc | hpc <;> cases hpc
  · rintro u m v hI ⟨⟨hlive, hknows⟩, -⟩ hstep j
    rcases System.procs_of_step hstep j with he | ⟨c, -, hf⟩
    · rw [he]
      exact (hI j).mono (grows_of_step hlive.outbox hstep)
    · exact (Proc.steps_of_step hf).answered hlive.outbox.shared (hknows j) (hI j)

omit [DecidableEq ι] in
/-- What has the core of a stored document is shown under its id. -/
theorem Explained.shown (hs : Explained s) {d : OrderDoc} (hd : d ∈ s.shared.orders.docs)
    {o : Order} (hcore : d.core = o.modelDump.core) :
    ∃ o' : Order, BookingDetailView.get T s.shared.orders o.id = .ok 200 (o'.json T) ∧
      o.SameBooking o' ∧ (o'.status = .confirmed ∨ o'.status = .ticketed) := by
  obtain ⟨o', hget, hdump⟩ := getBooking_of_mem hs.live.outbox.shared hd
  have hid : d.id = o.id := OrderDoc.id_eq_of_core hcore
  refine ⟨o', ?_, ?_, ?_⟩
  · rw [BookingDetailView.get, ← hid, hget]
  · rw [Order.SameBooking, hdump, hcore]
  · have hstatus : o'.status = d.status := congrArg (fun x : OrderDoc => x.status) hdump
    rw [hstatus]
    obtain ⟨-, ⟨hst, -⟩ | ⟨hst, -⟩⟩ := hs.store d hd
    · exact Or.inl hst
    · exact Or.inr hst

/-- **What was answered is shown.**  In every run of the system in which order ids are
fresh: once POST has answered 201 with an order, GET of its id is answered 200 at any
later time, with the same lasting fields, confirmed or ticketed; and a GET is answered
either so, with an order of this id, or 404, and then there is no such order. -/
theorem answers_last (h : Trace FlyDeskSystem.step s steps t) (hs : s.Fresh)
    (hfresh : ∀ p ∈ steps, FreshIds p.1 p.2) :
    (∀ p ∈ steps, ∀ i call body, p.1.procs i = .booking call →
      BookingsView.post T call.pc = some (.ok 201 body) →
      ∃ (id : String) (d d' : Dict), body = .obj d ∧ d.get? "id" = some (.str id) ∧
        BookingDetailView.get T t.shared.orders id = .ok 200 (.obj d') ∧
        (∀ name ∈ lastingFields, d'.get? name = d.get? name) ∧
        (d'.get? "status" = some (.str "confirmed") ∨
          d'.get? "status" = some (.str "ticketed"))) ∧
    ∀ id, (∃ d : Dict, BookingDetailView.get T t.shared.orders id = .ok 200 (.obj d) ∧
        d.get? "id" = some (.str id)) ∨
      BookingDetailView.get T t.shared.orders id = .error 404 "booking_not_found" ∧
        ∀ d ∈ t.shared.orders.docs, d.id ≠ id := by
  have ht := explained_run h hs hfresh
  constructor
  · intro p hp i call body hi hpost
    -- the call has returned an order, whose document is there until the end
    obtain ⟨o, hpc, rfl⟩ : ∃ o, call.pc = .returned o ∧ body = o.json T := by
      cases hpc : call.pc with
      | returned o =>
          rw [hpc] at hpost
          exact ⟨o, rfl, (Answer.ok.inj (Option.some.inj hpost)).2.symm⟩
      | raised e =>
          rw [hpc, BookingsView.post, Exn.answer] at hpost
          split at hpost <;> cases hpost
      | _ =>
          rw [hpc] at hpost
          cases hpost
    obtain ⟨before, hpre, hbefore⟩ := h.prefix_of_mem hp
    obtain ⟨d, hd, hcore, -⟩ := answered_run hbefore hs (Trace.allowed_prefix hfresh hpre) i
      call o hi (Or.inr hpc)
    obtain ⟨d', hd', hcore'⟩ := cores_kept h hs hfresh p hp d hd
    obtain ⟨o', hget, hsame, hstatus⟩ := ht.shown (T := T) hd' (hcore'.trans hcore)
    obtain ⟨e, e', he, he', hlasting⟩ := hsame.json (T := T)
    refine ⟨o.id, e, e', he, ?_, he' ▸ hget, hlasting, ?_⟩
    · obtain rfl := Json.obj.inj he
      rfl
    · obtain rfl := Json.obj.inj he'
      rcases hstatus with hst | hst
      · exact Or.inl (by rw [hst]; rfl)
      · exact Or.inr (by rw [hst]; rfl)
  · intro id
    by_cases hid : ∃ d ∈ t.shared.orders.docs, d.id = id
    · obtain ⟨d, hd, rfl⟩ := hid
      obtain ⟨o, hget, hdump⟩ := getBooking_of_mem ht.live.outbox.shared hd
      have hoid : o.id = d.id := congrArg (fun x : OrderDoc => x.id) hdump
      refine Or.inl ⟨_, by rw [BookingDetailView.get, hget]; rfl, ?_⟩
      rw [← hoid]
      rfl
    · push Not at hid
      refine Or.inr ⟨?_, hid⟩
      rw [BookingDetailView.get, getBooking_of_absent hid]

/-- The order of the answer is shown after the relay and the worker have written it
back. -/
theorem answers_last_desk :
    let run := Sample.booked ++ Sample.deliver .worker 0 ::
      List.replicate 9 (Sample.workerGo .worker)
    ∃ t o, exec FlyDeskSystem.step Sample.desk run = some t ∧
      (∃ p ∈ execSteps FlyDeskSystem.step Sample.desk run, ∃ call,
        p.1.procs .caller = .booking call ∧
        BookingsView.post Sample.iso call.pc = some (.ok 201 (Order.json Sample.iso o))) ∧
      (∃ d ∈ t.shared.orders.docs, d.id = "ord_1" ∧ d.status = .ticketed) ∧
      (∃ d d' : Dict, Order.json Sample.iso o = .obj d ∧
        BookingDetailView.get Sample.iso t.shared.orders "ord_1" = .ok 200 (.obj d') ∧
        (∀ name ∈ lastingFields, d'.get? name = d.get? name) ∧
        (d'.get? "status" = some (.str "confirmed") ∨
          d'.get? "status" = some (.str "ticketed"))) ∧
      BookingDetailView.get Sample.iso t.shared.orders "ord_2" =
        .error 404 "booking_not_found" := by
  intro run
  obtain ⟨t, ht, hst, hone⟩ := exec_any (P := fun t : FlyDeskSystem Sample.Role =>
    (∃ d ∈ t.shared.orders.docs, d.id = "ord_1" ∧ d.status = .ticketed) ∧
      ∀ d ∈ t.shared.orders.docs, d.id ≠ "ord_2")
    (by decide : (exec FlyDeskSystem.step Sample.desk run).any _ = true)
  obtain ⟨p, call, o, hp, hcall, hpc, hid⟩ : ∃ p call o,
      (execSteps FlyDeskSystem.step Sample.desk run)[11]? = some p ∧
        p.1.procs .caller = .booking call ∧ call.pc = .returned o ∧ o.id = "ord_1" :=
    ⟨_, _, _, rfl, rfl, rfl, rfl⟩
  have hpost : BookingsView.post Sample.iso call.pc = some (.ok 201 (o.json Sample.iso)) := by
    rw [hpc]
    rfl
  have hmem := List.mem_of_getElem? hp
  obtain ⟨hlasting, hshown⟩ :=
    answers_last (T := Sample.iso) (Trace.of_exec ht) fresh_desk (by decide)
  refine ⟨t, o, ht, ⟨p, hmem, call, hcall, hpost⟩, hst, ?_, ?_⟩
  · obtain ⟨id, d, d', hd, hget, hrest⟩ := hlasting p hmem .caller call _ hcall hpost
    obtain rfl : id = "ord_1" := by
      obtain rfl := Json.obj.inj hd
      obtain rfl := Json.str.inj (Option.some.inj hget)
      exact hid
    exact ⟨d, d', hd, hrest⟩
  · rcases hshown "ord_2" with ⟨d, hd, -⟩ | ⟨hnone, -⟩
    · rw [BookingDetailView.get, getBooking_of_absent hone] at hd
      cases hd
    · exact hnone

/-! ### Replays -/

/-- A call that has not started has not been to the provider. -/
theorem started_of_reached (h : Trace FlyDeskSystem.step s steps t) (hs : s.Fresh) (i : ι)
    {f : BookingFrame} (hi : t.procs i = .booking f) (hpc : f.pc = .start) :
    f.reachedProvider = false := by
  refine h.preserved (I := fun u => ∀ f, u.procs i = .booking f → f.pc = .start →
    f.reachedProvider = false) ?_ ?_ f hi hpc
  · intro f hi _
    obtain ⟨c, rfl⟩ := hs.exists_init hi
    rfl
  · intro u m v hu hstep f hi hpc
    rcases System.procs_of_step hstep i with he | ⟨c, -, hf⟩
    · exact hu f (he.symm.trans hi) hpc
    · rw [hi] at hf
      generalize u.procs i = q at hf
      cases Proc.steps_of_step hf with
      | booking hf => exact absurd hpc hf.pc_ne_start

/-- A step of a call that replays. -/
theorem replayed_step {w w' : World} {f f' : BookingFrame} {choice : BookingChoice}
    (h : f.Steps w choice w' f') (hw : w.Faithful) {k : IdempotencyKey} {d : OrderDoc}
    (hk : f.call.key = some k) (hd : ∃ d' ∈ w.orders.docs, d'.core = d.core)
    (hkey : d.idempotencyKey = .val k.val) (hf : f.Replayed d) : f'.Replayed d := by
  obtain ⟨hreached, hpc | ⟨how, hpc⟩ | ⟨o, hpc, hcore⟩⟩ := hf
  · -- its first move finds the document
    cases h with
    | startUnkeyed _ hnone => cases hnone.symm.trans hk
    | find _ hk' hfind =>
        obtain rfl := Option.some.inj (hk'.symm.trans hk)
        obtain ⟨d₁, hd₁, hcore₁⟩ := hd
        have hkey₁ := (OrderDoc.idempotencyKey_eq_of_core hcore₁).trans hkey
        cases hfind with
        | @found d₂ o hd₂ hkey₂ hread =>
            obtain rfl := Collection.eq_of_indexed hd₁ hd₂ hkey₁ hkey₂
            have hdump := (hw.written d₁ hd₁).modelDump_toOrder hread
            exact ⟨hreached, Or.inr (Or.inr ⟨o, rfl, by rw [hdump, hcore₁]⟩)⟩
        | absent hno => exact absurd hkey₁ (hno d₁ hd₁)
        | unreadable hd₂ he =>
            obtain ⟨o, ho⟩ := (hw.written _ hd₂).toOrder_ok
            cases ho.symm.trans he
    | @stopped how => exact ⟨hreached, Or.inr (Or.inl ⟨how, rfl⟩)⟩
    | reserved h | refused h | redisDown h | findReserved h | findWinner h | prepared h
    | unprepared h | offered h | unoffered h | booked h | unbooked h | stored h | lost h
    | orphaned h | finished h => cases hpc.symm.trans h
  · -- and it makes no other
    have hzero : f.pc.left = 0 := by
      rw [hpc]
      cases how <;> rfl
    exact absurd h.left_lt (by omega)
  · have hzero : f.pc.left = 0 := by
      rw [hpc]
      rfl
    exact absurd h.left_lt (by omega)

/-- **A key stands for one booking.**  In every run of the system in which order ids are
fresh: calls with one key that return an order return the same booking; and a call
that has not started when the order of its key is stored returns that booking, unless
it is stopped, and never goes to the provider. -/
theorem replays_agree (h : Trace FlyDeskSystem.step s steps t) (hs : s.Fresh)
    (hfresh : ∀ p ∈ steps, FreshIds p.1 p.2) (k : IdempotencyKey) :
    (∀ i j f g o o', t.procs i = .booking f → t.procs j = .booking g →
      f.call.key = some k → g.call.key = some k → f.pc = .returned o → g.pc = .returned o' →
        o.SameBooking o') ∧
    ∀ p ∈ steps, ∀ i f d, p.1.procs i = .booking f → f.pc = .start → f.call.key = some k →
      d ∈ p.1.shared.orders.docs → d.idempotencyKey = .val k.val →
        ∃ g, t.procs i = .booking g ∧ g.Replayed d := by
  constructor
  · intro i j f g o o' hi hj hk hk' hpc hpc'
    obtain ⟨d, hd, hcore, hkey⟩ := answered_run h hs hfresh i f o hi (Or.inr hpc)
    obtain ⟨d', hd', hcore', hkey'⟩ := answered_run h hs hfresh j g o' hj (Or.inr hpc')
    obtain rfl := Collection.eq_of_indexed hd hd' (hkey k hk) (hkey' k hk')
    rw [Order.SameBooking, ← hcore', hcore]
  · intro p hp i f d hi hpc hk hd hkey
    obtain ⟨before, hpre, hbefore⟩ := h.prefix_of_mem hp
    have hreached := started_of_reached hbefore hs i hi hpc
    -- from here on the document is there, and the call replays it
    obtain ⟨-, g, hg, -, hreplayed⟩ := h.since (A := fun u _ => Live u)
      (I := fun u => (∃ d' ∈ u.shared.orders.docs, d'.core = d.core) ∧
        ∃ g, u.procs i = .booking g ∧ g.call.key = some k ∧ g.Replayed d)
      (live_mem h hs hfresh) hp ⟨⟨d, hd, rfl⟩, f, hi, hk, hreached, Or.inl hpc⟩ (by
        rintro u m v ⟨hd', g, hg, hkg, hreplayed⟩ hu hstep
        have hgrows := grows_of_step hu.outbox hstep
        have hstays : ∃ d' ∈ v.shared.orders.docs, d'.core = d.core := by
          obtain ⟨d', hd', hcore⟩ := hd'
          obtain ⟨d'', hd'', hcore'⟩ := hgrows.docs d' hd'
          exact ⟨d'', hd'', hcore'.trans hcore⟩
        refine ⟨hstays, ?_⟩
        rcases System.procs_of_step hstep i with he | ⟨c, -, hf⟩
        · exact ⟨g, he.trans hg, hkg, hreplayed⟩
        · rw [hg] at hf
          generalize hv : v.procs i = q at hf
          cases Proc.steps_of_step hf with
          | booking hsteps =>
              exact ⟨_, rfl, by rw [hsteps.call_eq]; exact hkg,
                replayed_step hsteps hu.outbox.shared hkg hd' hkey hreplayed⟩)
    exact ⟨g, hg, hreplayed⟩

/-- Two calls with the key `k1`. -/
def twins : FlyDeskSystem Sample.Caller where
  shared := World.fresh
  procs _ := .booking (.init (Sample.call (some "k1")))

/-- The process has returned an order under the key. -/
def HasReturned (k : IdempotencyKey) (p : Proc) : Prop :=
  match p with
  | .booking f => f.call.key = some k ∧ ∃ o, f.pc = .returned o
  | _ => False

instance (k : IdempotencyKey) : DecidablePred (HasReturned k)
  | .booking f => match hpc : f.pc with
    | .returned o => decidable_of_iff (f.call.key = some k) (by simp [HasReturned, hpc])
    | .start | .reserve | .findReserved | .prepare | .createOrder .. | .postOrder _ | .save _
    | .findWinner | .saved _ | .raised _ | .died =>
      .isFalse (by simp [HasReturned, hpc])
  | .relay _ | .worker _ => .isFalse id

theorem returned_of {k : IdempotencyKey} {p : Proc} (h : HasReturned k p) :
    ∃ f o, p = .booking f ∧ f.call.key = some k ∧ f.pc = .returned o := by
  cases p with
  | booking f =>
      obtain ⟨hkey, o, hpc⟩ := h
      exact ⟨f, o, rfl, hkey, hpc⟩
  | _ => exact h.elim

/-- One call books under the key, and the other is answered with its order. -/
theorem replays_agree_twins :
    let run : List (FlyDeskMove Sample.Caller) :=
      .proc .first (.booking .go) :: Sample.books .first "ord_1" "e1" ++
        [.proc .second (.booking .go)]
    ∃ t, exec FlyDeskSystem.step twins run = some t ∧
      ∃ f g o o', t.procs .first = .booking f ∧ t.procs .second = .booking g ∧
        f.pc = .returned o ∧ g.pc = .returned o' ∧ o.SameBooking o' := by
  intro run
  obtain ⟨t, ht, hret⟩ := exec_any (P := fun t : FlyDeskSystem Sample.Caller =>
    HasReturned Sample.key (t.procs .first) ∧ HasReturned Sample.key (t.procs .second))
    (by decide : (exec FlyDeskSystem.step twins run).any _ = true)
  obtain ⟨f, o, hf, hkey, hpc⟩ := returned_of hret.1
  obtain ⟨g, o', hg, hkey', hpc'⟩ := returned_of hret.2
  exact ⟨t, ht, f, g, o, o', hf, hg, hpc, hpc',
    (replays_agree (Trace.of_exec ht) ⟨rfl, fun _ => ⟨_, rfl⟩⟩ (by decide) Sample.key).1
      .first .second f g o o' hf hg hkey hkey' hpc hpc'⟩

end FlyDeskSystem

end FlyDesk
