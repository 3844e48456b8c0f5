/-
FlyDesk/Providers/Duffel/Booking.lean

What `get_offer` shows and what `create_order` books.  Both fetch the offer, one to show
it and one to order it, and Duffel may answer the two differently: the price that is paid
is the one Duffel asks at the time of the order, whatever has been shown before.  The
order that comes back is what Duffel has answered, field by field; neither its total nor
its slices are held against the offer.
-/
import FlyDesk.Providers.Duffel.Faults
import FlyDesk.Providers.Duffel.Itinerary

namespace FlyDesk

open Lib

namespace DuffelProvider

variable {P : Pydantic} {duffel : Duffel} {offerId : String}
  {passengers : List BookingPassenger} {now : OrderClock}

/-- `get_offer`. -/
def getOffer (P : Pydantic) (duffel : Duffel) (offerId : String) : Except Exn Offer := do
  let offer ← fetchOffer P duffel offerId
  FlyDesk.Duffel.mapOffer P offer

theorem getOffer_eq_ok {x : Offer} :
    getOffer P duffel offerId = .ok x ↔
      ∃ offer, HasOffer P duffel offerId offer ∧ FlyDesk.Duffel.OfferMaps P offer x := by
  simp only [getOffer, bind_eq_ok, fetchOffer_eq_ok, FlyDesk.Duffel.mapOffer_iff]

theorem orderOf_eq_ok_iff {payload : OrderPayload} {order : Order} :
    orderOf P duffel payload passengers now = .ok order ↔
      ∃ raw data, (duffel.postOrder payload).Delivers raw ∧
        DuffelOrderResponse.data P raw = some data ∧
        FlyDesk.Duffel.OrderMaps P data passengers now order := by
  simp only [orderOf, bind_eq_ok, send_eq_ok, validated_eq_ok, FlyDesk.Duffel.mapOrder_iff,
    exists_and_left]

/-! ### What is posted -/

/-- The order for an offer: it selects the offer, pays its amount in its currency, and
names a person for each slot, as long as there are both. -/
structure Orders (offer : DuffelOffer) (passengers : List BookingPassenger)
    (payload : OrderPayload) : Prop where
  selected : payload.selectedOffers = [offer.id]
  amount : payload.amount = offer.totalAmount
  currency : payload.currency = offer.totalCurrency
  passengers : List.Forall₂ (fun x posted => posted.id = x.1.id ∧ posted.Carries x.2)
    (offer.passengers.zip passengers) payload.passengers

theorem eq_orderPassengers_iff {slots : List DuffelOfferPassenger}
    {posted : List OrderPassenger} :
    posted = orderPassengers slots passengers ↔
      List.Forall₂ (fun (x : DuffelOfferPassenger × BookingPassenger) posted =>
        posted.id = x.1.id ∧ posted.Carries x.2) (slots.zip passengers) posted := by
  have hzip : orderPassengers slots passengers =
      (slots.zip passengers).map fun x => orderPassenger x.1.id x.2 := by
    rw [orderPassengers, List.zip, List.map_zipWith]
  rw [hzip]
  refine Iff.symm (forall₂_iff_eq_map fun x posted => ?_)
  exact eq_orderPassenger_iff.symm

theorem eq_orderPayload_iff {offer : DuffelOffer} {payload : OrderPayload} :
    payload = orderPayload offer passengers ↔ Orders offer passengers payload := by
  constructor
  · rintro rfl
    exact ⟨rfl, rfl, rfl, eq_orderPassengers_iff.mp rfl⟩
  · rintro ⟨hselected, hamount, hcurrency, hpassengers⟩
    rw [orderPayload, ← eq_orderPassengers_iff.mpr hpassengers, ← hselected, ← hamount,
      ← hcurrency]

/-- An order is posted just for an offer that is there. -/
theorem posted_eq_some {payload : OrderPayload} :
    (createOrder P duffel offerId passengers now).posted = some payload ↔
      ∃ offer, HasOffer P duffel offerId offer ∧ Orders offer passengers payload := by
  simp only [← fetchOffer_eq_ok, ← eq_orderPayload_iff]
  cases h : fetchOffer P duffel offerId with
  | error e => simp [createOrder, h]
  | ok offer => simp [createOrder, h, eq_comm]

theorem result_eq_ok {order : Order} :
    (createOrder P duffel offerId passengers now).result = .ok order ↔
      ∃ payload, (createOrder P duffel offerId passengers now).posted = some payload ∧
        orderOf P duffel payload passengers now = .ok order := by
  cases h : fetchOffer P duffel offerId with
  | error e => simp [createOrder, h]
  | ok offer => simp [createOrder, h]

/-- Slices of one payload are mapped to the same slices. -/
theorem maps_unique {sls : List DuffelSlice} {xs ys : List Slice}
    (h : List.Forall₂ (FlyDesk.Duffel.SliceMaps P) sls xs)
    (h' : List.Forall₂ (FlyDesk.Duffel.SliceMaps P) sls ys) : xs = ys :=
  Except.ok.inj ((FlyDesk.Duffel.slices_iff.mpr h).symm.trans (FlyDesk.Duffel.slices_iff.mpr h'))

/-- **The law of `create_order`.**  An order is posted just if Duffel delivers the offer,
and it pays what Duffel asks for it then.  An order is returned just if Duffel answers
what is posted with a payload that the models accept, and it is that payload, field by
field.  `shop` is Duffel as it has answered `get_offer`: what was shown is the offer it
had.  Where Duffel still has that offer, what is posted selects what was shown, at the
price that was shown, and where it repeats the slices in the order, the order that is
returned has the slices that were shown. -/
theorem createOrder_law (P : Pydantic) (shop duffel : Duffel) (offerId : String)
    (passengers : List BookingPassenger) (now : OrderClock) :
    (∀ payload, (createOrder P duffel offerId passengers now).posted = some payload ↔
      ∃ offer, HasOffer P duffel offerId offer ∧ Orders offer passengers payload) ∧
    (∀ order, (createOrder P duffel offerId passengers now).result = .ok order ↔
      ∃ offer payload raw data, HasOffer P duffel offerId offer ∧
        Orders offer passengers payload ∧ (duffel.postOrder payload).Delivers raw ∧
        DuffelOrderResponse.data P raw = some data ∧
        FlyDesk.Duffel.OrderMaps P data passengers now order) ∧
    ∀ x, getOffer P shop offerId = .ok x → ∃ shown, HasOffer P shop offerId shown ∧
      FlyDesk.Duffel.OfferMaps P shown x ∧
      (HasOffer P duffel offerId shown → ∃ payload,
        (createOrder P duffel offerId passengers now).posted = some payload ∧
        payload.selectedOffers = [x.id] ∧ payload.amount = x.total.amount ∧
        P.currencyIso4217 payload.currency = some x.total.currency ∧
        ∀ order, (createOrder P duffel offerId passengers now).result = .ok order →
          ∃ raw data, (duffel.postOrder payload).Delivers raw ∧
            DuffelOrderResponse.data P raw = some data ∧
            (data.slices = shown.slices → order.slices = x.slices)) := by
  refine ⟨fun _ => posted_eq_some, fun order => ?_, fun x hx => ?_⟩
  · simp only [result_eq_ok, posted_eq_some, orderOf_eq_ok_iff]
    constructor
    · rintro ⟨payload, ⟨offer, hoffer, hpays⟩, raw, data, hraw, hdata, hmaps⟩
      exact ⟨offer, payload, raw, data, hoffer, hpays, hraw, hdata, hmaps⟩
    · rintro ⟨offer, payload, raw, data, hoffer, hpays, hraw, hdata, hmaps⟩
      exact ⟨payload, ⟨offer, hoffer, hpays⟩, raw, data, hraw, hdata, hmaps⟩
  · obtain ⟨shown, hshop, hshown⟩ := getOffer_eq_ok.mp hx
    refine ⟨shown, hshop, hshown, fun hoffer => ?_⟩
    have hpays : Orders shown passengers (orderPayload shown passengers) :=
      eq_orderPayload_iff.mp rfl
    have hposted : (createOrder P duffel offerId passengers now).posted = some _ :=
      posted_eq_some.mpr ⟨shown, hoffer, hpays⟩
    refine ⟨_, hposted, ?_, ?_, ?_, fun order horder => ?_⟩
    · rw [hpays.selected, hshown.id]
    · rw [hpays.amount, hshown.total.amount]
    · rw [hpays.currency, hshown.total.currency]
    · obtain ⟨payload, hpayload, horder⟩ := result_eq_ok.mp horder
      obtain rfl := Option.some.inj (hpayload.symm.trans hposted)
      obtain ⟨raw, data, hraw, hdata, hmaps⟩ := orderOf_eq_ok_iff.mp horder
      refine ⟨raw, data, hraw, hdata, fun hsame => ?_⟩
      have hslices := hmaps.slices
      rw [hsame] at hslices
      exact maps_unique hslices hshown.slices

end DuffelProvider

namespace Sample

/-- Duffel asks this price for the offer, and creates the order at it. -/
def asking (price : String) : DuffelProvider.Duffel where
  getOffer _ := .response 200 (some (.obj [("data", .obj
    [("id", .str "off_1"), ("owner", .obj [("iata_code", .str "BA")]),
      ("total_amount", .str price), ("total_currency", .str "EUR"),
      ("slices", .arr [rawSlice]),
      ("passengers", .arr [.obj [("id", .str "pas_1"), ("type", .str "adult")]])])]))
  postOrder payload := .response 201 (some (.obj [("data", .obj
    [("id", .str "ord_1"), ("booking_reference", .str "PNR1"), ("total_amount", .str price),
      ("total_currency", .str payload.currency), ("slices", .arr [rawSlice])])]))

end Sample

namespace DuffelProvider

/-- An offer is shown at 10.00 and costs 12.00 when it is ordered: what is posted pays
12.00, and the order is returned. -/
theorem createOrder_law_repriced :
    ∃ x payload order, getOffer Sample.isoPydantic (Sample.asking "10.00") "off_1" = .ok x ∧
      x.total.amount = ⟨false, 1000, -2⟩ ∧ payload.amount = ⟨false, 1200, -2⟩ ∧
      (∃ offer, HasOffer Sample.isoPydantic (Sample.asking "12.00") "off_1" offer ∧
        Orders offer [Sample.passenger "Tony"] payload) ∧
      (∃ data, FlyDesk.Duffel.OrderMaps Sample.isoPydantic data [Sample.passenger "Tony"]
        Sample.epochClock order) ∧
      ∃ shown, HasOffer Sample.isoPydantic (Sample.asking "10.00") "off_1" shown ∧
        FlyDesk.Duffel.OfferMaps Sample.isoPydantic shown x := by
  obtain ⟨hposted, hresult, hshown⟩ := createOrder_law Sample.isoPydantic (Sample.asking "10.00")
    (Sample.asking "12.00") "off_1" [Sample.passenger "Tony"] Sample.epochClock
  obtain ⟨order, horder⟩ : ∃ order, (createOrder Sample.isoPydantic (Sample.asking "12.00")
      "off_1" [Sample.passenger "Tony"] Sample.epochClock).result = .ok order := ⟨_, rfl⟩
  obtain ⟨_, _, _, data, -, -, -, -, hmaps⟩ := (hresult order).mp horder
  obtain ⟨shown, hhas, hmapped, -⟩ := hshown _ rfl
  exact ⟨_, _, order, rfl, rfl, rfl, (hposted _).mp rfl, ⟨data, hmaps⟩, shown, hhas, hmapped⟩

end DuffelProvider

end FlyDesk
