/-
FlyDesk/Bookings/Endpoint.lean

POST /api/v1/bookings as it is deployed, with Duffel behind `create_booking`.  A run of the
system leaves open what the provider replies; here the replies are what `_request` and the
schemas make of Duffel's responses (`BookingFrame.Meets`), and the two steps that a call
makes at the provider are then one `create_order` (`request_readOffer`,
`request_readOrder`).

`BookingsView.post_law` names the cause of every answer: the order is the one
`create_order` has returned, or the stored one of the key; and for every exception there is
a step of the run or a response of Duffel's that it comes from.
-/
import FlyDesk.Bookings.Views
import FlyDesk.Providers.Duffel.Booking

namespace FlyDesk

open Lib

/-! ### The two requests -/

namespace DuffelProvider

variable (P : Pydantic)

/-- The body of GET /air/offers/{id}: a call keeps nothing of it but the offer it posts. -/
def readOffer : Decoder Unit := fun raw => (DuffelOfferResponse.data P raw).map fun _ => ()

/-- The data of a created order, its total and its slices mapped. -/
def orderData (data : DuffelOrderData) : Option OrderData := do
  let total ← Money.create P data.totalAmount data.totalCurrency
  let slices ← (data.slices.mapM (FlyDesk.Duffel.slice P)).toOption
  some { id := data.id, bookingReference := data.bookingReference, total, slices }

/-- The body of POST /air/orders. -/
def readOrder : Decoder OrderData :=
  fun raw => (DuffelOrderResponse.data P raw).bind (orderData P)

variable {P} {duffel : Duffel} {offerId : String} {passengers : List BookingPassenger}
  {now : OrderClock}

/-- The first request, as `create_order` makes it. -/
theorem request_readOffer {r : Reply Unit}
    (h : reply (readOffer P) (duffel.getOffer offerId) = some r) :
    request r = (fetchOffer P duffel offerId).map fun _ => () := by
  rw [← request_reply h, fetchOffer]
  rcases send (duffel.getOffer offerId) with e | raw
  · rfl
  · show validated ((DuffelOfferResponse.data P raw).map _) =
      (validated (DuffelOfferResponse.data P raw)).map _
    rcases DuffelOfferResponse.data P raw with - | offer <;> rfl

/-- What is mapped and then made an order of is mapped by `map_order`. -/
theorem map_validated_orderData (data : DuffelOrderData) :
    (validated (orderData P data)).map (fun data => mapOrder data passengers now) =
      FlyDesk.Duffel.mapOrder P data passengers now := by
  unfold orderData FlyDesk.Duffel.mapOrder
  rcases Money.create P data.totalAmount data.totalCurrency with - | total
  · rfl
  · rcases hslices : data.slices.mapM (FlyDesk.Duffel.slice P) with e | slices
    · -- the mapper raises what the validation raises
      obtain rfl : e = .validationError :=
        Raises.mapM (fun sl _ => FlyDesk.Duffel.raises_slice P sl) e hslices
      rfl
    · rfl

/-- The second request, as `create_order` makes it. -/
theorem request_readOrder {payload : OrderPayload} {r : Reply OrderData}
    (h : reply (readOrder P) (duffel.postOrder payload) = some r) :
    (request r).map (fun data => mapOrder data passengers now) =
      orderOf P duffel payload passengers now := by
  rw [← request_reply h, orderOf]
  rcases send (duffel.postOrder payload) with e | raw
  · rfl
  · show (validated ((DuffelOrderResponse.data P raw).bind (orderData P))).map _ =
      validated (DuffelOrderResponse.data P raw) >>= fun data =>
        FlyDesk.Duffel.mapOrder P data passengers now
    rcases DuffelOrderResponse.data P raw with - | data
    · rfl
    · exact map_validated_orderData data

theorem result_of_fetch_error {e : Exn} (h : fetchOffer P duffel offerId = .error e) :
    (createOrder P duffel offerId passengers now).result = .error e := by
  rw [createOrder, h]

theorem result_of_fetch_ok {offer : DuffelOffer} (h : fetchOffer P duffel offerId = .ok offer) :
    (createOrder P duffel offerId passengers now).result =
      orderOf P duffel (orderPayload offer passengers) passengers now := by
  rw [createOrder, h]

end DuffelProvider

/-! ### A call and Duffel -/

variable (P : Pydantic) (duffel : DuffelProvider.Duffel)

/-- What the provider replies at a step of the call is what comes of Duffel's responses. -/
def BookingFrame.Meets (f : BookingFrame) : BookingChoice → Prop
  | .offerReply r =>
    match f.pc with
    | .createOrder .duffel _ => DuffelProvider.reply (DuffelProvider.readOffer P)
        (duffel.getOffer f.call.offerId) = some r
    | _ => True
  | .orderReply _ r _ _ =>
    match f.pc, DuffelProvider.fetchOffer P duffel f.call.offerId with
    | .postOrder passengers, .ok offer => DuffelProvider.reply (DuffelProvider.readOrder P)
        (duffel.postOrder (DuffelProvider.orderPayload offer passengers)) = some r
    | _, _ => True
  | _ => True

/-- `create_order` has returned the order that the call stages. -/
def BookingCall.Books (c : BookingCall) (o : Order) : Prop :=
  ∃ passengers order uuid now, preparePc c = .createOrder .duffel passengers ∧
    (DuffelProvider.createOrder P duffel c.offerId passengers now).result = .ok order ∧
    o = order.staged c.key uuid now.stagedAt

section Events

variable {ι : Type*}

/-- Call `i` comes to reserve its key while it is taken. -/
def HeldAt (i : ι) (k : IdempotencyKey) (p : FlyDeskSystem ι × FlyDeskMove ι) : Prop :=
  p.2 = .proc i (.booking .go) ∧ ∃ f, p.1.procs i = .booking f ∧ f.pc = .reserve ∧
    p.1.shared.redis.Held k.redisKey

/-- Call `i` looks its key up once more, and there is no order. -/
def MissedAt (i : ι) (k : IdempotencyKey) (p : FlyDeskSystem ι × FlyDeskMove ι) : Prop :=
  p.2 = .proc i (.booking .go) ∧ ∃ f, p.1.procs i = .booking f ∧ f.pc = .findReserved ∧
    ∀ d ∈ p.1.shared.orders.docs, d.idempotencyKey ≠ .val k.val

/-- Call `i` comes to save its order while another order without a key is stored. -/
def ClashAt (i : ι) (p : FlyDeskSystem ι × FlyDeskMove ι) : Prop :=
  p.2 = .proc i (.booking .go) ∧ ∃ f o, p.1.procs i = .booking f ∧ f.pc = .save o ∧
    ∃ d ∈ p.1.shared.orders.docs, d.id ≠ o.id ∧ d.idempotencyKey = .null

/-- A driver raises in call `i`. -/
def StoppedAt (i : ι) (name : String) (p : FlyDeskSystem ι × FlyDeskMove ι) : Prop :=
  p.2 = .proc i (.booking (.stop (.raise name)))

/-- Why call `i` raises. -/
inductive BookingCall.Fails (steps : List (FlyDeskSystem ι × FlyDeskMove ι)) (i : ι)
    (c : BookingCall) : Exn → Prop
  | invalid {e} : preparePc c = .raised e → Fails steps i c e
  | notLive {passengers} : preparePc c = .createOrder .amadeus passengers →
      Fails steps i c .notImplementedError
  | failed {passengers e} : preparePc c = .createOrder .duffel passengers →
      (∀ now, (DuffelProvider.createOrder P duffel c.offerId passengers now).result = .error e) →
      Fails steps i c e
  | inProgress {k p q} : c.key = some k → p ∈ steps → HeldAt i k p → q ∈ steps →
      MissedAt i k q → Fails steps i c .bookingInProgressError
  | clash {p} : c.key = none → p ∈ steps → ClashAt i p → Fails steps i c .duplicateKeyError
  | stopped {name p} : p ∈ steps → StoppedAt i name p → Fails steps i c (.thirdParty name)

/-- What has led a call to the point it has reached. -/
def BookingFrame.Told (steps : List (FlyDeskSystem ι × FlyDeskMove ι)) (i : ι)
    (f : BookingFrame) : Prop :=
  match f.pc with
  | .start | .reserve | .prepare | .findWinner | .died => True
  | .findReserved => ∃ k, f.call.key = some k ∧ ∃ p ∈ steps, HeldAt i k p
  | .createOrder provider passengers => preparePc f.call = .createOrder provider passengers
  | .postOrder passengers => preparePc f.call = .createOrder .duffel passengers ∧
      ∃ offer, DuffelProvider.fetchOffer P duffel f.call.offerId = .ok offer
  | .save o | .saved o => f.call.Books P duffel o
  | .returned o => f.call.Books P duffel o ∨ ∃ k, f.call.key = some k
  | .raised e => f.call.Fails P duffel steps i e

end Events

variable {P duffel} {ι : Type*} {steps : List (FlyDeskSystem ι × FlyDeskMove ι)} {i : ι}
  {w w' : World} {f f' : BookingFrame} {choice : BookingChoice}

theorem BookingCall.Fails.mono {c : BookingCall} {e : Exn}
    (h : c.Fails P duffel steps i e) (l : List (FlyDeskSystem ι × FlyDeskMove ι)) :
    c.Fails P duffel (steps ++ l) i e := by
  cases h with
  | invalid h => exact .invalid h
  | notLive h => exact .notLive h
  | failed h hresult => exact .failed h hresult
  | inProgress hk hp hheld hq hmissed =>
      exact .inProgress hk (List.mem_append_left _ hp) hheld (List.mem_append_left _ hq) hmissed
  | clash hk hp hclash => exact .clash hk (List.mem_append_left _ hp) hclash
  | stopped hp hstopped => exact .stopped (List.mem_append_left _ hp) hstopped

theorem BookingFrame.Told.mono (h : f.Told P duffel steps i)
    (l : List (FlyDeskSystem ι × FlyDeskMove ι)) : f.Told P duffel (steps ++ l) i := by
  unfold BookingFrame.Told at h ⊢
  generalize f.pc = pc at h ⊢
  cases pc with
  | findReserved =>
      obtain ⟨k, hk, p, hp, hheld⟩ := h
      exact ⟨k, hk, p, List.mem_append_left _ hp, hheld⟩
  | raised e => exact h.mono l
  | _ => exact h

/-- An order without a key is stored with an empty one. -/
theorem BookingCall.Books.unkeyed {c : BookingCall} {o : Order} (h : c.Books P duffel o)
    (hk : c.key = none) : o.modelDump.idempotencyKey = .null := by
  obtain ⟨passengers, order, uuid, now, -, hresult, rfl⟩ := h
  obtain ⟨payload, -, horder⟩ := DuffelProvider.result_eq_ok.mp hresult
  obtain ⟨raw, data, -, -, hmaps⟩ := DuffelProvider.orderOf_eq_ok_iff.mp horder
  rw [hk]
  simp [Order.staged, Order.modelDump, hmaps.idempotencyKey, DocField.ofOption]

/-- What the provider replies to the request for the offer. -/
theorem BookingFrame.Meets.offer {r : Reply Unit} {passengers : List BookingPassenger}
    (h : f.Meets P duffel (.offerReply r)) (hpc : f.pc = .createOrder .duffel passengers) :
    offerPc .duffel passengers r =
      match DuffelProvider.fetchOffer P duffel f.call.offerId with
      | .ok _ => .postOrder passengers
      | .error e => .raised e := by
  unfold BookingFrame.Meets at h
  rw [hpc] at h
  rw [offerPc, DuffelProvider.request_readOffer h]
  cases DuffelProvider.fetchOffer P duffel f.call.offerId <;> rfl

/-- What it replies to the order. -/
theorem BookingFrame.Meets.order {created : Bool} {r : Reply DuffelProvider.OrderData}
    {uuid : String} {now : DuffelProvider.OrderClock} {passengers : List BookingPassenger}
    {offer : DuffelOffer} (h : f.Meets P duffel (.orderReply created r uuid now))
    (hpc : f.pc = .postOrder passengers)
    (hoffer : DuffelProvider.fetchOffer P duffel f.call.offerId = .ok offer)
    (now' : DuffelProvider.OrderClock) :
    (DuffelProvider.request r).map (fun data => DuffelProvider.mapOrder data passengers now') =
      (DuffelProvider.createOrder P duffel f.call.offerId passengers now').result := by
  unfold BookingFrame.Meets at h
  rw [hpc, hoffer] at h
  rw [DuffelProvider.request_readOrder h, DuffelProvider.result_of_fetch_ok hoffer]

/-- **A step of a call has its cause.** -/
theorem BookingFrame.Steps.told {s : FlyDeskSystem ι} (h : f.Steps s.shared choice w' f')
    (hi : s.procs i = .booking f) (hw : s.shared.Faithful)
    (hknows : (Proc.booking f).KnowsKey s.shared) (hmeets : f.Meets P duffel choice)
    (hf : f.Told P duffel steps i) :
    f'.Told P duffel (steps ++ [(s, .proc i (.booking choice))]) i := by
  have hlast : (s, Move.proc i (ProcChoice.booking choice)) ∈
      steps ++ [(s, Move.proc i (ProcChoice.booking choice))] := by simp
  unfold BookingFrame.Told at hf
  cases h with
  | startUnkeyed | reserved | redisDown | lost => trivial
  | find hpc hk hfind =>
      obtain ⟨o, rfl⟩ | ⟨rfl, -⟩ := hfind.goesOn hw
      · exact Or.inr ⟨_, hk⟩
      · trivial
  | refused hpc hk hheld => exact ⟨_, hk, _, hlast, rfl, f, hi, hpc, hheld⟩
  | findReserved hpc hk hfind =>
      obtain ⟨o, rfl⟩ | ⟨rfl, hno⟩ := hfind.goesOn hw
      · exact Or.inr ⟨_, hk⟩
      · rw [hpc] at hf
        obtain ⟨k, hk', p, hp, hheld⟩ := hf
        obtain rfl := Option.some.inj (hk.symm.trans hk')
        exact .inProgress hk (List.mem_append_left _ hp) hheld hlast ⟨rfl, f, hi, hpc, hno⟩
  | prepared hpc hprepare => exact hprepare
  | unprepared hpc hprepare => exact .invalid hprepare
  | @offered provider passengers reply hpc hoffer =>
      rw [hpc] at hf
      cases provider with
      | amadeus => cases hoffer
      | duffel =>
          rw [hmeets.offer hpc] at hoffer
          split at hoffer
          · rename_i offer hfetch
            exact ⟨hf, offer, hfetch⟩
          · cases hoffer
  | @unoffered provider passengers reply e hpc hoffer =>
      rw [hpc] at hf
      cases provider with
      | amadeus =>
          obtain rfl := BookingPc.raised.inj hoffer
          exact .notLive hf
      | duffel =>
          rw [hmeets.offer hpc] at hoffer
          split at hoffer
          · cases hoffer
          · rename_i hfetch
            obtain rfl := BookingPc.raised.inj hoffer
            exact .failed hf fun now => DuffelProvider.result_of_fetch_error hfetch
  | @booked passengers data created reply uuid now hpc hdata =>
      rw [hpc] at hf
      obtain ⟨hprepare, offer, hoffer⟩ := hf
      have hresult := hmeets.order hpc hoffer now
      rw [hdata] at hresult
      exact ⟨passengers, _, uuid, now, hprepare, hresult.symm, rfl⟩
  | @unbooked passengers created reply uuid now e ordersCreated hpc he =>
      rw [hpc] at hf
      obtain ⟨hprepare, offer, hoffer⟩ := hf
      refine .failed hprepare fun now' => ?_
      have hresult := hmeets.order hpc hoffer now'
      rw [he] at hresult
      exact hresult.symm
  | stored hpc hsave =>
      rw [hpc] at hf
      exact hf
  | @orphaned order hpc hsave hk =>
      rw [hpc] at hf
      obtain ⟨d, hd, hid, hconflict⟩ := Collection.replaceOne_eq_none.mp hsave
      exact .clash hk hlast ⟨rfl, f, order, hi, hpc, d, hd, hid,
        hconflict.2.trans (hf.unkeyed hk)⟩
  | @findWinner key pc hpc hk hfind =>
      obtain ⟨o, rfl⟩ | ⟨rfl, hno⟩ := hfind.goesOn hw
      · exact Or.inr ⟨_, hk⟩
      · -- the order that was in the way of the save is there
        obtain ⟨d, hd, hkey⟩ := hknows.winner f key rfl hpc hk
        exact absurd hkey (hno d hd)
  | finished hpc =>
      rw [hpc] at hf
      exact Or.inl hf
  | @stopped how =>
      cases how with
      | raise name => exact .stopped hlast rfl
      | die => trivial

/-! ### The view -/

/-- The replies of the provider are Duffel's, at a step of the run. -/
def FlyDeskSystem.Meets (P : Pydantic) (duffel : ι → DuffelProvider.Duffel)
    (s : FlyDeskSystem ι) : FlyDeskMove ι → Prop
  | .proc i (.booking choice) => ∀ f, s.procs i = .booking f → f.Meets P (duffel i) choice
  | _ => True

/-- Why POST /api/v1/bookings is answered as it is. -/
inductive BookingsView.Because (P : Pydantic) (duffel : DuffelProvider.Duffel) (T : IsoText)
    (steps : List (FlyDeskSystem ι × FlyDeskMove ι)) (i : ι) (w : World) (c : BookingCall) :
    Answer → Prop
  | booked {d} {o : Order} : c.Books P duffel o → d ∈ w.orders.docs →
      d.core = o.modelDump.core → Because P duffel T steps i w c (.ok 201 (o.json T))
  | replayed {k d} {o : Order} : c.key = some k → d ∈ w.orders.docs →
      d.idempotencyKey = .val k.val → d.core = o.modelDump.core →
      Because P duffel T steps i w c (.ok 201 (o.json T))
  | failed {e} : c.Fails P duffel steps i e → Because P duffel T steps i w c e.answer

namespace FlyDeskSystem

variable [DecidableEq ι] {s t : FlyDeskSystem ι} {duffel : ι → DuffelProvider.Duffel}

theorem told_run (h : Trace FlyDeskSystem.step s steps t) (hs : s.Fresh)
    (hfresh : ∀ p ∈ steps, FreshIds p.1 p.2) (hduffel : ∀ p ∈ steps, Meets P duffel p.1 p.2) :
    ∀ i f, t.procs i = .booking f → f.Told P (duffel i) steps i := by
  refine h.history (A := fun u m => (Live u ∧ ∀ i, (u.procs i).KnowsKey u.shared) ∧
      Meets P duffel u m)
    (I := fun l u => ∀ i f, u.procs i = .booking f → f.Told P (duffel i) l i)
    (fun p hp => ⟨⟨live_mem h hs hfresh p hp, knowsKey_mem h hs hfresh p hp⟩, hduffel p hp⟩)
    ?_ ?_
  · intro i f hi
    obtain ⟨c, rfl⟩ := hs.exists_init hi
    trivial
  · rintro l u m v hI ⟨⟨hlive, hknows⟩, hmeets⟩ hstep i f hi
    rcases System.procs_of_step hstep i with he | ⟨c, rfl, hf⟩
    · exact (hI i f (he.symm.trans hi)).mono _
    · rw [hi] at hf
      have hknowsi := hknows i
      generalize hq : u.procs i = q at hf hknowsi
      cases Proc.steps_of_step hf with
      | booking hsteps =>
          exact hsteps.told hq hlive.outbox.shared hknowsi (hmeets _ hq) (hI i _ hq)

end FlyDeskSystem

/-- **What POST /api/v1/bookings answers.**  In every run of the system in which order ids
are fresh and the provider is Duffel, every answer has its cause: 201 with the order that
this call's `create_order` has returned, stored, or with the stored order of its key; and
otherwise what becomes of an exception, which is that of its own arguments, that of
`create_order` on Duffel's responses, or one that a step of the run accounts for. -/
theorem BookingsView.post_law [DecidableEq ι] {T : IsoText} {s t : FlyDeskSystem ι}
    {duffel : ι → DuffelProvider.Duffel} (h : Trace FlyDeskSystem.step s steps t)
    (hs : s.Fresh) (hfresh : ∀ p ∈ steps, FlyDeskSystem.FreshIds p.1 p.2)
    (hduffel : ∀ p ∈ steps, FlyDeskSystem.Meets P duffel p.1 p.2)
    (hi : t.procs i = .booking f) {a : Answer} (hpost : BookingsView.post T f.pc = some a) :
    BookingsView.Because P (duffel i) T steps i t.shared f.call a := by
  have htold := FlyDeskSystem.told_run h hs hfresh hduffel i f hi
  unfold BookingFrame.Told at htold
  cases hpc : f.pc with
  | returned o =>
      rw [hpc] at hpost htold
      obtain rfl := Option.some.inj hpost
      obtain ⟨d, hd, hcore, hkey⟩ := FlyDeskSystem.answered_run h hs hfresh i f o hi (Or.inr hpc)
      rcases htold with hbooks | ⟨k, hk⟩
      · exact .booked hbooks hd hcore
      · exact .replayed hk hd (hkey k hk) hcore
  | raised e =>
      rw [hpc] at hpost htold
      obtain rfl := Option.some.inj hpost
      exact .failed htold
  | _ =>
      rw [hpc] at hpost
      cases hpost

namespace Sample

/-- An order of no slices, as Duffel sends it. -/
def rawOrder : Json :=
  .obj [("data", .obj
    [("id", .str "ord_1"), ("booking_reference", .str "PNR1"), ("total_amount", .str "10.00"),
      ("total_currency", .str "EUR"), ("slices", .arr [])])]

/-- Duffel has the offer and creates the order. -/
def bookable : DuffelProvider.Duffel where
  getOffer _ := .response 200 (some (rawOffer []))
  postOrder _ := .response 201 (some rawOrder)

/-- What the client makes of that. -/
def offered : BookingChoice :=
  .offerReply (.response 200 (validated (DuffelProvider.readOffer pydantic (rawOffer []))))

def ordered : BookingChoice :=
  .orderReply true (.response 201 (validated (DuffelProvider.readOrder pydantic rawOrder)))
    "e1" clock

theorem meets_bookable (f : BookingFrame) {choice : BookingChoice}
    (h : choice ∈ [.go, offered, ordered]) : f.Meets pydantic bookable choice := by
  simp only [List.mem_cons, List.not_mem_nil, or_false] at h
  rcases h with rfl | rfl | rfl
  · trivial
  · unfold BookingFrame.Meets offered
    dsimp only
    split
    · rfl
    · trivial
  · unfold BookingFrame.Meets ordered
    dsimp only
    split
    · rfl
    · trivial

/-- A call books at Duffel. -/
def booksAtDuffel : List (FlyDeskMove Role) :=
  [.go, .go, offered, ordered, .go, .go].map fun c => .proc .caller (.booking c)

end Sample

/-- The order that Duffel has created is the answer. -/
theorem BookingsView.post_law_bookable :
    let run := execSteps FlyDeskSystem.step Sample.desk Sample.booksAtDuffel
    ∃ t f o, exec FlyDeskSystem.step Sample.desk Sample.booksAtDuffel = some t ∧
      t.procs .caller = .booking f ∧
      BookingsView.post Sample.iso f.pc = some (.ok 201 (Order.json Sample.iso o)) ∧
      BookingsView.Because Sample.pydantic Sample.bookable Sample.iso run .caller t.shared f.call
        (.ok 201 (Order.json Sample.iso o)) := by
  intro run
  obtain ⟨t, f, o, ht, hi, hpc⟩ : ∃ t f o,
      exec FlyDeskSystem.step Sample.desk Sample.booksAtDuffel = some t ∧
        t.procs .caller = .booking f ∧ f.pc = .returned o := ⟨_, _, _, rfl, rfl, rfl⟩
  have hpost : BookingsView.post Sample.iso f.pc = some (.ok 201 (o.json Sample.iso)) := by
    rw [hpc]
    rfl
  have hduffel : ∀ p ∈ run, FlyDeskSystem.Meets Sample.pydantic (fun _ => Sample.bookable)
      p.1 p.2 := by
    intro p hp
    obtain ⟨c, hc, he⟩ := List.mem_map.mp (mem_of_execSteps hp)
    rw [← he]
    refine fun g _ => Sample.meets_bookable g ?_
    simp only [List.mem_cons, List.not_mem_nil, or_false] at hc ⊢
    tauto
  exact ⟨t, f, o, ht, hi, hpost, BookingsView.post_law (Trace.of_exec ht)
    FlyDeskSystem.fresh_desk (by decide) hduffel hi hpost⟩

end FlyDesk
