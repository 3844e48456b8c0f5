/-
FlyDesk/Providers/Duffel/Faults.lean

Who is blamed for a fault of Duffel's.  A request that fails becomes one of
the provider's exceptions.  A request that succeeds with a body nobody can use
does not: what reading, validating or mapping the body raises is what a bad
request of a client raises too, and is answered with 400.

`DuffelProvider.blamesProvider_iff` is the exact condition on the two answers.
-/
import FlyDesk.Providers.Duffel.Client

namespace FlyDesk

open Lib

/-! ### Orders the domain models accept -/

namespace Duffel

variable (P : Pydantic)

def PlaceFits (p : DuffelPlace) : Prop :=
  ∃ value code, p.iataCode = some value ∧ P.airportCode value = some code

structure SegmentFits (s : DuffelSegment) : Prop where
  origin : PlaceFits P s.origin
  destination : PlaceFits P s.destination
  marketingCarrier : CarrierFits P s.marketingCarrier.iataCode
  operatingCarrier : ∀ c, s.operatingCarrier = some c → CarrierFits P c.iataCode
  duration : DurationFits P s.duration

structure SliceFits (sl : DuffelSlice) : Prop where
  origin : PlaceFits P sl.origin
  destination : PlaceFits P sl.destination
  segments : ∀ s ∈ sl.segments, SegmentFits P s
  nonempty : sl.segments ≠ []
  duration : DurationFits P sl.duration

structure OrderFits (data : DuffelOrderData) : Prop where
  currency : CurrencyFits P data.totalCurrency
  slices : ∀ sl ∈ data.slices, SliceFits P sl

variable {P}

theorem place_eq_ok {p : DuffelPlace} : (∃ pl, place P p = .ok pl) ↔ PlaceFits P p := by
  have hopt : ∀ o : Option String, Decoder.nullable Decoder.str (.ofOption o) = some o := by
    intro o
    cases o <;> rfl
  unfold PlaceFits
  simp only [place, validated_eq_ok, Place.create, hopt]
  rcases p.iataCode with - | value
  · simp [Json.ofOption, Decoder.str]
  · rcases e : P.airportCode value with - | code <;> simp [Json.ofOption, e]

theorem carrier_eq_ok {c : DuffelCarrier} :
    (∃ x, carrier P c = .ok x) ↔ CarrierFits P c.iataCode := by
  simp only [carrier, validated_eq_ok]
  exact Carrier.create_eq_some

theorem carrier?_eq_ok {c : Option DuffelCarrier} :
    (∃ x, carrier? P c = .ok x) ↔ ∀ c', c = some c' → CarrierFits P c'.iataCode := by
  rcases c with - | c
  · simp [carrier?]
  · have hiff := carrier_eq_ok (P := P) (c := c)
    rcases e : carrier P c with ex | x
    · rw [e] at hiff
      simpa [carrier?, e, Except.map] using hiff
    · rw [e] at hiff
      simpa [carrier?, e, Except.map] using hiff

theorem segment_eq_ok {s : DuffelSegment} :
    (∃ x, segment P s = .ok x) ↔ SegmentFits P s := by
  constructor
  · rintro ⟨x, h⟩
    obtain ⟨origin, ho, h⟩ := bind_eq_ok.mp h
    obtain ⟨destination, hd, h⟩ := bind_eq_ok.mp h
    obtain ⟨marketing, hm, h⟩ := bind_eq_ok.mp h
    obtain ⟨operating, hop, h⟩ := bind_eq_ok.mp h
    exact
      { origin := place_eq_ok.mp ⟨origin, ho⟩
        destination := place_eq_ok.mp ⟨destination, hd⟩
        marketingCarrier := carrier_eq_ok.mp ⟨marketing, hm⟩
        operatingCarrier := carrier?_eq_ok.mp ⟨operating, hop⟩
        duration := Segment.create_eq_some.mp ⟨x, validated_eq_ok.mp h⟩ }
  · intro h
    obtain ⟨origin, ho⟩ := place_eq_ok.mpr h.origin
    obtain ⟨destination, hd⟩ := place_eq_ok.mpr h.destination
    obtain ⟨marketing, hm⟩ := carrier_eq_ok.mpr h.marketingCarrier
    obtain ⟨operating, hop⟩ := carrier?_eq_ok.mpr h.operatingCarrier
    obtain ⟨x, hx⟩ := Segment.create_eq_some.mpr h.duration
    exact ⟨x, bind_eq_ok.mpr ⟨origin, ho, bind_eq_ok.mpr ⟨destination, hd,
      bind_eq_ok.mpr ⟨marketing, hm, bind_eq_ok.mpr ⟨operating, hop, validated_eq_ok.mpr hx⟩⟩⟩⟩⟩

theorem slice_eq_ok {sl : DuffelSlice} : (∃ x, slice P sl = .ok x) ↔ SliceFits P sl := by
  constructor
  · rintro ⟨x, h⟩
    obtain ⟨origin, ho, h⟩ := bind_eq_ok.mp h
    obtain ⟨destination, hd, h⟩ := bind_eq_ok.mp h
    obtain ⟨segments, hs, h⟩ := bind_eq_ok.mp h
    obtain ⟨hne, hdur⟩ := (Slice.create_eq_some _ _ _).mp ⟨x, validated_eq_ok.mp h⟩
    exact
      { origin := place_eq_ok.mp ⟨origin, ho⟩
        destination := place_eq_ok.mp ⟨destination, hd⟩
        segments := fun s hmem => segment_eq_ok.mp (mapM_ok_iff.mp ⟨segments, hs⟩ s hmem)
        nonempty := fun hnil => hne ((mapM_eq_nil hs).mpr hnil)
        duration := hdur }
  · intro h
    obtain ⟨origin, ho⟩ := place_eq_ok.mpr h.origin
    obtain ⟨destination, hd⟩ := place_eq_ok.mpr h.destination
    obtain ⟨segments, hs⟩ := mapM_ok_iff.mpr fun s hmem => segment_eq_ok.mpr (h.segments s hmem)
    obtain ⟨x, hx⟩ := (Slice.create_eq_some sl.id origin destination).mpr
      ⟨fun hnil => h.nonempty ((mapM_eq_nil hs).mp hnil), h.duration⟩
    exact ⟨x, bind_eq_ok.mpr ⟨origin, ho, bind_eq_ok.mpr ⟨destination, hd,
      bind_eq_ok.mpr ⟨segments, hs, validated_eq_ok.mpr hx⟩⟩⟩⟩

theorem mapOrder_eq_ok {data : DuffelOrderData} (passengers : List BookingPassenger)
    (now : DuffelProvider.OrderClock) :
    (∃ o, mapOrder P data passengers now = .ok o) ↔ OrderFits P data := by
  constructor
  · rintro ⟨o, h⟩
    obtain ⟨total, ht, h⟩ := bind_eq_ok.mp h
    obtain ⟨slices, hs, -⟩ := bind_eq_ok.mp h
    exact
      { currency := (Money.create_eq_some _).mp ⟨total, validated_eq_ok.mp ht⟩
        slices := fun sl hmem => slice_eq_ok.mp (mapM_ok_iff.mp ⟨slices, hs⟩ sl hmem) }
  · intro h
    obtain ⟨total, ht⟩ := (Money.create_eq_some data.totalAmount).mpr h.currency
    obtain ⟨slices, hs⟩ := mapM_ok_iff.mpr fun sl hmem => slice_eq_ok.mpr (h.slices sl hmem)
    exact ⟨_, bind_eq_ok.mpr ⟨total, validated_eq_ok.mpr ht, bind_eq_ok.mpr ⟨slices, hs, rfl⟩⟩⟩

end Duffel

/-! ### Blame -/

/-- The exceptions that stand for a fault of the provider. -/
def Exn.OfProvider (e : Exn) : Prop :=
  e = .providerError ∨ e = .providerTimeoutError ∨ e = .offerNotFoundError

/-- It returns an order or raises one of them, and the client is answered with
502, 504 or 404. -/
def BlamesProvider (result : Except Exn Order) : Prop :=
  Raises (fun e => e.OfProvider ∧ ∃ status code, drfExceptionHandler e = some (status, code) ∧
    status ∈ [502, 504, 404]) result

theorem Exn.OfProvider.answer {e : Exn} (h : e.OfProvider) : e.OfProvider ∧
    ∃ status code, drfExceptionHandler e = some (status, code) ∧ status ∈ [502, 504, 404] := by
  refine ⟨h, ?_⟩
  rcases h with rfl | rfl | rfl
  · exact ⟨502, _, rfl, by simp⟩
  · exact ⟨504, _, rfl, by simp⟩
  · exact ⟨404, _, rfl, by simp⟩

namespace HttpOutcome

/-- The request fails, in a way `_request` translates. -/
def Fails : HttpOutcome → Prop
  | .timeout | .transportError => True
  | .raised _ => False
  | .response status _ => 400 ≤ status

/-- The request succeeds and its body is this JSON. -/
def Delivers (outcome : HttpOutcome) (raw : Json) : Prop :=
  ∃ status, outcome = .response status (some raw) ∧ status < 400

theorem Delivers.unique {outcome : HttpOutcome} {raw raw' : Json}
    (h : outcome.Delivers raw) (h' : outcome.Delivers raw') : raw = raw' := by
  obtain ⟨_, rfl, -⟩ := h
  obtain ⟨_, he, -⟩ := h'
  cases he
  rfl

end HttpOutcome

namespace DuffelProvider

/-- The three ways a request can go. -/
theorem send_cases (outcome : HttpOutcome) :
    (outcome.Fails ∧ ∃ e, send outcome = .error e ∧ e.OfProvider) ∨
    (¬ outcome.Fails ∧ ∃ raw, outcome.Delivers raw ∧ send outcome = .ok raw) ∨
    (¬ outcome.Fails ∧ (∀ raw, ¬ outcome.Delivers raw) ∧
      ∃ name, send outcome = .error (.thirdParty name)) := by
  rcases outcome with - | - | name | ⟨status, body⟩
  · exact Or.inl ⟨trivial, _, rfl, Or.inr (Or.inl rfl)⟩
  · exact Or.inl ⟨trivial, _, rfl, Or.inl rfl⟩
  · -- an exception of the transport that the client does not catch
    refine Or.inr (Or.inr ⟨fun h => h, fun raw => ?_, name, rfl⟩)
    rintro ⟨status, h, -⟩
    cases h
  · by_cases h404 : status = 404
    · subst h404
      exact Or.inl ⟨by simp [HttpOutcome.Fails], _, rfl, Or.inr (Or.inr rfl)⟩
    · by_cases h400 : 400 ≤ status
      · exact Or.inl ⟨h400, .providerError, by simp [send, h404, h400], Or.inl rfl⟩
      · rcases body with - | raw
        · -- a success whose body is no JSON
          refine Or.inr (Or.inr ⟨h400, fun raw => ?_, _, by simp [send, h404, h400]; rfl⟩)
          rintro ⟨_, h, -⟩
          cases h
        · exact Or.inr (Or.inl ⟨h400, raw, ⟨status, rfl, Nat.lt_of_not_le h400⟩,
            by simp [send, h404, h400]⟩)

theorem send_eq_ok {outcome : HttpOutcome} {raw : Json} :
    send outcome = .ok raw ↔ outcome.Delivers raw := by
  constructor
  · intro h
    rcases send_cases outcome with ⟨-, e, he, -⟩ | ⟨-, raw', hraw', he⟩ | ⟨-, -, name, he⟩
    · cases h.symm.trans he
    · obtain rfl := Except.ok.inj (h.symm.trans he)
      exact hraw'
    · cases h.symm.trans he
  · rintro ⟨status, rfl, hlt⟩
    have h404 : status ≠ 404 := by omega
    simp [send, h404, Nat.not_le.mpr hlt]

variable (P : Pydantic) (duffel : Duffel)

/-- Duffel delivers the offer, in a body the schema accepts. -/
def HasOffer (offerId : String) (offer : DuffelOffer) : Prop :=
  ∃ raw, (duffel.getOffer offerId).Delivers raw ∧ DuffelOfferResponse.data P raw = some offer

/-- The answer to the order is an order the schema and the domain models
accept. -/
def OrderReturned (payload : OrderPayload) : Prop :=
  ∃ raw data, (duffel.postOrder payload).Delivers raw ∧
    DuffelOrderResponse.data P raw = some data ∧ Duffel.OrderFits P data

/-- The answer to the order can be used: it is such an order or a failure. -/
def OrderUsable (payload : OrderPayload) : Prop :=
  (duffel.postOrder payload).Fails ∨ OrderReturned P duffel payload

/-- Both answers can be used: the first is a failure, or an offer the schema
accepts whose order has a usable answer. -/
def Usable (offerId : String) (passengers : List BookingPassenger) : Prop :=
  (duffel.getOffer offerId).Fails ∨
    ∃ raw offer, (duffel.getOffer offerId).Delivers raw ∧
      DuffelOfferResponse.data P raw = some offer ∧
      OrderUsable P duffel (orderPayload offer passengers)

variable {P duffel}

theorem fetchOffer_eq_ok {offerId : String} {offer : DuffelOffer} :
    fetchOffer P duffel offerId = .ok offer ↔ HasOffer P duffel offerId offer := by
  simp only [fetchOffer, bind_eq_ok, send_eq_ok, validated_eq_ok, HasOffer]

/-- What a request and its validation raise. -/
theorem blames_send {α β : Type} {dec : Decoder α} {outcome : HttpOutcome}
    {f : α → Except Exn β} {p : Exn → Prop} (hp : ∀ e, e.OfProvider → p e)
    (hname : ∀ name, ¬ p (.thirdParty name)) (hinvalid : ¬ p .validationError) :
    Raises p (send outcome >>= fun raw => validated (dec raw) >>= f) ↔
      outcome.Fails ∨ ∃ raw a, outcome.Delivers raw ∧ dec raw = some a ∧ Raises p (f a) := by
  rcases send_cases outcome with ⟨hfail, e, he, hprov⟩ | ⟨hno, raw, hraw, he⟩ |
    ⟨hno, hbody, name, he⟩
  · -- the client turns the failure into one of the provider's
    rw [he]
    exact ⟨fun _ => Or.inl hfail, fun _ => raises_error.mpr (hp e hprov)⟩
  · -- there is a body: its schema decides
    rw [he]
    constructor
    · intro h
      rcases hd : dec raw with - | a
      · have h' : Raises p (validated (dec raw) >>= f) := h
        rw [hd] at h'
        exact absurd (raises_error.mp h') hinvalid
      · have h' : Raises p (validated (dec raw) >>= f) := h
        rw [hd] at h'
        exact Or.inr ⟨raw, a, hraw, hd, h'⟩
    · rintro (hfail | ⟨raw', a, hraw', hd, h⟩)
      · exact absurd hfail hno
      · obtain rfl := hraw.unique hraw'
        show Raises p (validated (dec raw) >>= f)
        rw [hd]
        exact h
  · -- neither: the exception goes through as it is
    rw [he]
    constructor
    · exact fun h => absurd (raises_error.mp h) (hname name)
    · rintro (hfail | ⟨raw, _, hraw, _⟩)
      · exact absurd hfail hno
      · exact absurd hraw (hbody raw)

/-- The result of `create_order`, as the two requests in sequence. -/
theorem result_createOrder (offerId : String) (passengers : List BookingPassenger)
    (now : OrderClock) : (createOrder P duffel offerId passengers now).result =
      send (duffel.getOffer offerId) >>= fun raw => validated (DuffelOfferResponse.data P raw) >>=
        fun offer => orderOf P duffel (orderPayload offer passengers) passengers now := by
  unfold createOrder fetchOffer
  rcases send (duffel.getOffer offerId) with e | raw
  · rfl
  · rcases e : DuffelOfferResponse.data P raw with - | offer <;> simp [Bind.bind, Except.bind,
      e, validated]

/-- When the answer to an order becomes one. -/
theorem orderOf_eq_ok {payload : OrderPayload} (passengers : List BookingPassenger)
    (now : OrderClock) : (∃ order, orderOf P duffel payload passengers now = .ok order) ↔
      OrderReturned P duffel payload := by
  unfold OrderReturned orderOf
  constructor
  · rintro ⟨order, h⟩
    obtain ⟨raw, hraw, h⟩ := bind_eq_ok.mp h
    obtain ⟨data, hdata, h⟩ := bind_eq_ok.mp h
    exact ⟨raw, data, send_eq_ok.mp hraw, validated_eq_ok.mp hdata,
      (FlyDesk.Duffel.mapOrder_eq_ok _ _).mp ⟨order, h⟩⟩
  · rintro ⟨raw, data, hraw, hdata, hfits⟩
    obtain ⟨order, h⟩ := (FlyDesk.Duffel.mapOrder_eq_ok passengers now).mpr hfits
    exact ⟨order, bind_eq_ok.mpr ⟨raw, send_eq_ok.mpr hraw, bind_eq_ok.mpr
      ⟨data, validated_eq_ok.mpr hdata, h⟩⟩⟩

/-- What the second request raises. -/
theorem blames_orderOf {p : Exn → Prop} (hp : ∀ e, e.OfProvider → p e)
    (hname : ∀ name, ¬ p (.thirdParty name)) (hinvalid : ¬ p .validationError)
    (passengers : List BookingPassenger) (now : OrderClock) (payload : OrderPayload) :
    Raises p (orderOf P duffel payload passengers now) ↔ OrderUsable P duffel payload := by
  rw [orderOf, blames_send hp hname hinvalid, OrderUsable, OrderReturned]
  refine or_congr_right ?_
  constructor
  · rintro ⟨raw, data, hraw, hd, h⟩
    refine ⟨raw, data, hraw, hd, ?_⟩
    rcases e : FlyDesk.Duffel.mapOrder P data passengers now with ex | o
    · -- the mapper raises what a bad request raises
      obtain rfl := FlyDesk.Duffel.raises_mapOrder P data passengers now ex e
      rw [e] at h
      exact absurd (raises_error.mp h) hinvalid
    · exact (FlyDesk.Duffel.mapOrder_eq_ok _ _).mp ⟨o, e⟩
  · rintro ⟨raw, data, hraw, hd, h⟩
    obtain ⟨o, ho⟩ := (FlyDesk.Duffel.mapOrder_eq_ok passengers now).mpr h
    exact ⟨raw, data, hraw, hd, ho ▸ Raises.ok⟩

/-- **A fault of Duffel's is blamed on the provider iff both answers can be
used.** -/
theorem blamesProvider_iff (P : Pydantic) (duffel : Duffel) (offerId : String)
    (passengers : List BookingPassenger) (now : OrderClock) :
    BlamesProvider (createOrder P duffel offerId passengers now).result ↔
      Usable P duffel offerId passengers := by
  have hname : ∀ name, ¬ ((Exn.thirdParty name).OfProvider ∧ ∃ status code,
      drfExceptionHandler (.thirdParty name) = some (status, code) ∧
        status ∈ [502, 504, 404]) := by
    rintro name ⟨h | h | h, -⟩ <;> cases h
  have hinvalid : ¬ (Exn.validationError.OfProvider ∧ ∃ status code,
      drfExceptionHandler .validationError = some (status, code) ∧
        status ∈ [502, 504, 404]) := by
    rintro ⟨h | h | h, -⟩ <;> cases h
  rw [BlamesProvider, result_createOrder,
    blames_send (fun _ => Exn.OfProvider.answer) hname hinvalid, Usable]
  simp only [blames_orderOf (fun _ => Exn.OfProvider.answer) hname hinvalid]

end DuffelProvider

namespace Sample

def rawPlace (iataCode : String) : Json := .obj [("iata_code", .str iataCode)]

/-- A slice of one segment from London to New York. -/
def rawSlice : Json := .obj
  [("id", .str "sli_1"), ("origin", rawPlace "LHR"), ("destination", rawPlace "JFK"),
    ("segments", .arr [.obj
      [("id", .str "seg_1"), ("origin", rawPlace "LHR"), ("destination", rawPlace "JFK"),
        ("departing_at", .str "2026-08-15T08:00:00Z"),
        ("arriving_at", .str "2026-08-15T16:00:00Z"),
        ("marketing_carrier", .obj [("iata_code", .str "BA")]),
        ("marketing_carrier_flight_number", .str "117")]])]

/-- An offer of no slices and these passengers, as Duffel sends it. -/
def rawOffer (passengers : List Json) : Json :=
  .obj [("data", .obj
    [("id", .str "off_1"), ("owner", .obj [("iata_code", .str "BA")]),
      ("total_amount", .str "10.00"), ("total_currency", .str "EUR"), ("slices", .arr []),
      ("passengers", .arr passengers)])]

/-- An offer with one slot. -/
def rawOneSlot : Json := rawOffer [.obj [("id", .str "pas_1"), ("type", .str "adult")]]

/-- Duffel has the offer, and answers an order with a body that is none. -/
def brokenOrder : DuffelProvider.Duffel where
  getOffer _ := .response 200 (some rawOneSlot)
  postOrder _ := .response 201 (some (.obj [("data", .obj [("id", .str "ord_1")])]))

def epoch : DateTime := { micros := 0, utcOffset := some 0 }

/-- The clock stands at the epoch. -/
def epochClock : DuffelProvider.OrderClock where
  occurredAt := epoch
  createdAt := epoch
  stagedAt := epoch

def passenger (givenName : String) : BookingPassenger where
  type := .adult
  title := none
  gender := none
  givenName := givenName
  familyName := "Stark"
  bornOn := { ordinal := 722_654 }
  email := "stark@example.com"
  phoneNumber := "+442080160508"
  providerPassengerId := none

end Sample

namespace DuffelProvider

/-- The order is created and paid, and the client is told that its request was
bad. -/
theorem not_blamesProvider_brokenOrder :
    (createOrder Sample.pydantic Sample.brokenOrder "off_1" [Sample.passenger "Tony"]
        Sample.epochClock).result = .error .validationError ∧
      drfExceptionHandler .validationError = some (400, "validation_error") ∧
      ¬ BlamesProvider (createOrder Sample.pydantic Sample.brokenOrder "off_1"
        [Sample.passenger "Tony"] Sample.epochClock).result := by
  have h : (createOrder Sample.pydantic Sample.brokenOrder "off_1" [Sample.passenger "Tony"]
      Sample.epochClock).result = .error .validationError := rfl
  refine ⟨h, rfl, fun hblame => ?_⟩
  obtain ⟨h' | h' | h', -⟩ := hblame _ h <;> cases h'

end DuffelProvider

end FlyDesk
