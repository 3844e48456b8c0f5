/-
FlyDesk/Providers/Malformed.lean

What becomes of malformed payloads.  Duffel's mapper raises nothing but
pydantic's `ValidationError`.  Amadeus's schemas let through what its mapper
indexes into without looking: an itinerary without segments, an offer with
neither itineraries nor validating codes, a location that is not an object.

`Amadeus.raises_mapPayload_iff` is the exact condition on a payload.  Since
the mapper stops at the first part a domain model rejects, it is about the
parts in front of that one: `Fits` says that a part is accepted and `Safe`
that it can be indexed into.
-/
import FlyDesk.Providers.Amadeus.Mapper
import FlyDesk.Providers.Duffel.Mapper

namespace FlyDesk

open Lib

namespace Amadeus

variable (P : Pydantic) (dictionaries : Option AmadeusDictionaries)

/-! ### Parts that can be indexed into -/

/-- The entry of a location, if there is one, is an object. -/
def Located (iataCode : String) : Prop :=
  ∀ v, location dictionaries iataCode = some v → ∃ entry, v = .obj entry

/-- The place of a code: the code is an airport's, and the city of its entry a
string if there is one. -/
def PlaceFits (iataCode : String) : Prop :=
  (∃ code, P.airportCode iataCode = some code) ∧
    ∀ entry, location dictionaries iataCode = some (.obj entry) →
      ∃ city, Decoder.nullable Decoder.str ((Dict.get? entry "cityCode").getD .null) = some city

structure SegmentFits (seg : AmadeusSegment) : Prop where
  departure : Located dictionaries seg.departure.iataCode ∧
    PlaceFits P dictionaries seg.departure.iataCode
  arrival : Located dictionaries seg.arrival.iataCode ∧
    PlaceFits P dictionaries seg.arrival.iataCode
  carrier : CarrierFits P seg.carrierCode
  operating : ∀ code, seg.operating.bind AmadeusOperating.carrierCode = some code →
    code ≠ "" → CarrierFits P code
  duration : DurationFits P seg.duration

/-- The arrival is looked up only where the departure is a place. -/
def SegmentSafe (seg : AmadeusSegment) : Prop :=
  Located dictionaries seg.departure.iataCode ∧
    (PlaceFits P dictionaries seg.departure.iataCode →
      Located dictionaries seg.arrival.iataCode)

structure ItineraryFits (itin : AmadeusItinerary) : Prop where
  nonempty : itin.segments ≠ []
  segments : ∀ seg ∈ itin.segments, SegmentFits P dictionaries seg
  duration : DurationFits P itin.duration

def ItinerarySafe (itin : AmadeusItinerary) : Prop :=
  itin.segments ≠ [] ∧
    InOrder (SegmentFits P dictionaries) (SegmentSafe P dictionaries) itin.segments

structure OfferFits (o : AmadeusFlightOffer) : Prop where
  nonempty : o.itineraries ≠ []
  itineraries : ∀ itin ∈ o.itineraries, ItineraryFits P dictionaries itin
  owner : ∀ code, ownerCode o = .ok code → CarrierFits P code
  currency : CurrencyFits P o.price.currency

/-- The owner of an offer without itineraries has to be named. -/
def OfferSafe (o : AmadeusFlightOffer) : Prop :=
  InOrder (ItineraryFits P dictionaries) (ItinerarySafe P dictionaries) o.itineraries ∧
    (o.itineraries = [] → o.validatingAirlineCodes ≠ [])

/-- Up to the first offer the domain models reject, every part the mapper
indexes into is there. -/
def PayloadSafe (raw : Json) : Prop :=
  ∀ response, AmadeusFlightOffersResponse.decode P raw = some response →
    InOrder (OfferFits P response.dictionaries) (OfferSafe P response.dictionaries)
      response.data

/-! ### Places -/

variable {P dictionaries}

theorem cityName_eq_ok {iataCode : String} {city : Json} :
    cityName dictionaries iataCode = .ok city ↔ Located dictionaries iataCode ∧
      city = ((location dictionaries iataCode).bind fun
        | .obj entry => Dict.get? entry "cityCode"
        | _ => none).getD .null := by
  unfold Located cityName
  rcases location dictionaries iataCode with - | v
  · simp [eq_comm]
  · cases v <;> simp [eq_comm]

theorem raises_cityName {iataCode : String} :
    OnlyInvalid (cityName dictionaries iataCode) ↔ Located dictionaries iataCode := by
  unfold Located cityName
  rcases location dictionaries iataCode with - | v
  · simp [OnlyInvalid, Raises]
  · cases v <;> simp [OnlyInvalid, Raises]

theorem raises_place {iataCode : String} :
    OnlyInvalid (place P dictionaries iataCode) ↔ Located dictionaries iataCode := by
  rw [OnlyInvalid, place, Raises.bind_iff]
  exact (and_iff_left fun _ _ => onlyInvalid_validated).trans raises_cityName

theorem placeCreate_eq_some {iataCode : String} {city : Json} :
    (∃ p, Place.create P (.str iataCode) .null city .airport = some p) ↔
      (∃ code, P.airportCode iataCode = some code) ∧
        ∃ name, Decoder.nullable Decoder.str city = some name := by
  rcases e : P.airportCode iataCode with - | code
  · simp [Place.create, e]
  · rcases e' : Decoder.nullable Decoder.str city with - | name
    · simp [Place.create, e, e']
    · simp [Place.create, e, e']

theorem place_eq_ok {iataCode : String} :
    (∃ p, place P dictionaries iataCode = .ok p) ↔
      Located dictionaries iataCode ∧ PlaceFits P dictionaries iataCode := by
  constructor
  · rintro ⟨p, h⟩
    obtain ⟨city, hcity, h⟩ := bind_eq_ok.mp h
    obtain ⟨hloc, rfl⟩ := cityName_eq_ok.mp hcity
    obtain ⟨hcode, hname⟩ := placeCreate_eq_some.mp ⟨p, validated_eq_ok.mp h⟩
    refine ⟨hloc, hcode, fun entry hentry => ?_⟩
    rwa [hentry] at hname
  · rintro ⟨hloc, hcode, hname⟩
    have hcity := cityName_eq_ok.mpr ⟨hloc, rfl⟩
    have hfits : ∃ name, Decoder.nullable Decoder.str
        (((location dictionaries iataCode).bind fun
          | .obj entry => Dict.get? entry "cityCode"
          | _ => none).getD .null) = some name := by
      rcases e : location dictionaries iataCode with - | v
      · exact ⟨none, rfl⟩
      · obtain ⟨entry, rfl⟩ := hloc v e
        exact hname entry e
    obtain ⟨p, hp⟩ := placeCreate_eq_some.mpr ⟨hcode, hfits⟩
    exact ⟨p, bind_eq_ok.mpr ⟨_, hcity, validated_eq_ok.mpr hp⟩⟩

/-! ### Segments -/

variable (dictionaries) in
theorem carrier_eq_ok {code : String} :
    (∃ c, carrier P dictionaries code = .ok c) ↔ CarrierFits P code := by
  simp only [carrier, validated_eq_ok]
  exact Carrier.create_eq_some

variable (dictionaries) in
theorem operatingCarrier_eq_ok {operating : Option AmadeusOperating} :
    (∃ c, operatingCarrier P dictionaries operating = .ok c) ↔
      ∀ code, operating.bind AmadeusOperating.carrierCode = some code →
        code ≠ "" → CarrierFits P code := by
  unfold operatingCarrier
  rcases operating.bind AmadeusOperating.carrierCode with - | code
  · simp
  · by_cases he : code = ""
    · simp [he]
    · have hiff : _ ↔ CarrierFits P code := carrier_eq_ok dictionaries
      rcases e : carrier P dictionaries code with ex | c
      · rw [e] at hiff
        simpa [he, e, Except.map] using hiff
      · rw [e] at hiff
        simpa [he, e, Except.map] using hiff

theorem raises_operatingCarrier {operating : Option AmadeusOperating} :
    OnlyInvalid (operatingCarrier P dictionaries operating) := by
  unfold operatingCarrier
  split
  · exact Raises.ok
  · split
    · exact Raises.ok
    · exact Raises.map onlyInvalid_validated

variable {cabins : List (String × Option String)} {seg : AmadeusSegment}

theorem raises_segment : OnlyInvalid (segment P dictionaries cabins seg) ↔
    SegmentSafe P dictionaries seg := by
  -- past the departure, the lookup of the arrival is all that raises anything else
  have hrest : ∀ origin : Place, OnlyInvalid (do
      let destination ← place P dictionaries seg.arrival.iataCode
      let marketingCarrier ← carrier P dictionaries seg.carrierCode
      let operatingCarrier ← operatingCarrier P dictionaries seg.operating
      validated (Segment.create P seg.id origin destination seg.departure.at_ seg.arrival.at_
        marketingCarrier operatingCarrier (seg.carrierCode ++ seg.number)
        (aircraft dictionaries seg.aircraft) (cabin (cabins.lookup seg.id).join)
        (.ofOption seg.duration))) ↔ Located dictionaries seg.arrival.iataCode := by
    intro origin
    rw [OnlyInvalid.bind_iff, raises_place]
    refine and_iff_left fun _ _ => Raises.bind onlyInvalid_validated fun _ _ => ?_
    exact Raises.bind raises_operatingCarrier fun _ _ => onlyInvalid_validated
  rw [segment, OnlyInvalid.bind_iff, raises_place, SegmentSafe]
  refine and_congr_right fun hloc => ?_
  constructor
  · intro h hfits
    obtain ⟨origin, ho⟩ := place_eq_ok.mpr ⟨hloc, hfits⟩
    exact (hrest origin).mp (h origin ho)
  · intro h origin ho
    exact (hrest origin).mpr (h (place_eq_ok.mp ⟨origin, ho⟩).2)

variable (cabins) in
theorem segment_eq_ok : (∃ s, segment P dictionaries cabins seg = .ok s) ↔
    SegmentFits P dictionaries seg := by
  constructor
  · rintro ⟨s, h⟩
    obtain ⟨origin, ho, h⟩ := bind_eq_ok.mp h
    obtain ⟨destination, hd, h⟩ := bind_eq_ok.mp h
    obtain ⟨marketing, hm, h⟩ := bind_eq_ok.mp h
    obtain ⟨operating, hop, h⟩ := bind_eq_ok.mp h
    exact
      { departure := place_eq_ok.mp ⟨origin, ho⟩
        arrival := place_eq_ok.mp ⟨destination, hd⟩
        carrier := (carrier_eq_ok dictionaries).mp ⟨marketing, hm⟩
        operating := (operatingCarrier_eq_ok dictionaries).mp ⟨operating, hop⟩
        duration := Segment.create_eq_some.mp ⟨s, validated_eq_ok.mp h⟩ }
  · intro h
    obtain ⟨origin, ho⟩ := place_eq_ok.mpr h.departure
    obtain ⟨destination, hd⟩ := place_eq_ok.mpr h.arrival
    obtain ⟨marketing, hm⟩ := (carrier_eq_ok dictionaries).mpr h.carrier
    obtain ⟨operating, hop⟩ :=
      (operatingCarrier_eq_ok dictionaries).mpr h.operating
    obtain ⟨s, hs⟩ := Segment.create_eq_some.mpr h.duration
    exact ⟨s, bind_eq_ok.mpr ⟨origin, ho, bind_eq_ok.mpr ⟨destination, hd,
      bind_eq_ok.mpr ⟨marketing, hm, bind_eq_ok.mpr ⟨operating, hop, validated_eq_ok.mpr hs⟩⟩⟩⟩⟩

/-! ### Itineraries -/

variable {offerId : String} {itin : AmadeusItinerary × ℕ}

/-- What the loop does with the segments it has mapped. -/
def sliceOf (P : Pydantic) (offerId : String) (itin : AmadeusItinerary × ℕ)
    (segments : List Segment) : Except Exn Slice :=
  match segments.head?, segments.getLast? with
  | some first, some last =>
    validated (Slice.create P (offerId ++ "-itin-" ++ toString itin.2) first.origin
      last.destination (.ofOption itin.1.duration) segments)
  | _, _ => .error .indexError

theorem slice_eq : slice P dictionaries offerId cabins itin =
    itin.1.segments.mapM (segment P dictionaries cabins) >>= sliceOf P offerId itin := rfl

theorem raises_sliceOf {segments : List Segment} :
    OnlyInvalid (sliceOf P offerId itin segments) ↔ segments ≠ [] := by
  rcases segments with - | ⟨s, segments⟩
  · simp [sliceOf, OnlyInvalid, Raises]
  · rcases e : (s :: segments).getLast? with - | last
    · simp at e
    · have hof : sliceOf P offerId itin (s :: segments) = validated (Slice.create P
          (offerId ++ "-itin-" ++ toString itin.2) s.origin last.destination
          (.ofOption itin.1.duration) (s :: segments)) := by
        rw [sliceOf, e]
        rfl
      rw [hof]
      exact ⟨fun _ => List.cons_ne_nil _ _, fun _ => onlyInvalid_validated⟩

variable (offerId itin) in
theorem sliceOf_eq_ok {segments : List Segment} :
    (∃ s, sliceOf P offerId itin segments = .ok s) ↔
      segments ≠ [] ∧ DurationFits P itin.1.duration := by
  rcases segments with - | ⟨s, segments⟩
  · simp [sliceOf]
  · rcases e : (s :: segments).getLast? with - | last
    · simp at e
    · rw [← Slice.create_eq_some (offerId ++ "-itin-" ++ toString itin.2) s.origin
        last.destination]
      simp [sliceOf, e, validated_eq_ok]

theorem raises_segments {segments : List AmadeusSegment} :
    OnlyInvalid (segments.mapM (segment P dictionaries cabins)) ↔
      InOrder (SegmentFits P dictionaries) (SegmentSafe P dictionaries) segments := by
  rw [OnlyInvalid, Raises.mapM_iff]
  exact InOrder.congr (fun _ => segment_eq_ok cabins) fun _ => raises_segment

theorem raises_slice : OnlyInvalid (slice P dictionaries offerId cabins itin) ↔
    ItinerarySafe P dictionaries itin.1 := by
  rw [slice_eq, OnlyInvalid.bind_iff, raises_segments, ItinerarySafe, and_comm]
  refine and_congr_left fun _ => ⟨fun h hnil => ?_, fun hne segments hseg => ?_⟩
  · -- without segments the loop goes through, and there is no first one
    have hok : itin.1.segments.mapM (segment P dictionaries cabins) = .ok [] := by
      rw [hnil]
      rfl
    exact raises_sliceOf.mp (h [] hok) rfl
  · exact raises_sliceOf.mpr fun hnil => hne ((mapM_eq_nil hseg).mp hnil)

theorem slice_eq_ok : (∃ s, slice P dictionaries offerId cabins itin = .ok s) ↔
    ItineraryFits P dictionaries itin.1 := by
  rw [slice_eq]
  constructor
  · rintro ⟨s, h⟩
    obtain ⟨segments, hseg, h⟩ := bind_eq_ok.mp h
    obtain ⟨hne, hdur⟩ := (sliceOf_eq_ok offerId itin).mp ⟨s, h⟩
    exact
      { nonempty := fun hnil => hne ((mapM_eq_nil hseg).mpr hnil)
        segments := fun seg hmem =>
          (segment_eq_ok cabins).mp (mapM_ok_iff.mp ⟨segments, hseg⟩ seg hmem)
        duration := hdur }
  · intro h
    obtain ⟨segments, hseg⟩ := mapM_ok_iff.mpr fun seg hmem =>
      (segment_eq_ok cabins).mpr (h.segments seg hmem)
    obtain ⟨s, hs⟩ := (sliceOf_eq_ok offerId itin).mpr
      ⟨fun hnil => h.nonempty ((mapM_eq_nil hseg).mp hnil), h.duration⟩
    exact ⟨s, bind_eq_ok.mpr ⟨segments, hseg, hs⟩⟩

/-! ### Offers -/

variable {o : AmadeusFlightOffer}

theorem raises_slices : OnlyInvalid
      (o.itineraries.zipIdx.mapM (slice P dictionaries offerId cabins)) ↔
    InOrder (ItineraryFits P dictionaries) (ItinerarySafe P dictionaries) o.itineraries := by
  -- the number of an itinerary is in its id and nowhere else
  rw [OnlyInvalid, Raises.mapM_iff, ← List.zipIdx_map_fst 0 o.itineraries, inOrder_map,
    List.zipIdx_map_fst]
  exact InOrder.congr (fun _ => slice_eq_ok) fun _ => raises_slice

variable (offerId cabins) in
theorem slices_eq_ok :
    (∃ s, o.itineraries.zipIdx.mapM (slice P dictionaries offerId cabins) = .ok s) ↔
      ∀ itin ∈ o.itineraries, ItineraryFits P dictionaries itin := by
  rw [mapM_ok_iff]
  constructor
  · intro h itin hmem
    rw [← List.zipIdx_map_fst 0 o.itineraries] at hmem
    obtain ⟨x, hx, rfl⟩ := List.mem_map.mp hmem
    exact slice_eq_ok.mp (h x hx)
  · intro h x hx
    exact slice_eq_ok.mpr (h x.1 (List.fst_mem_of_mem_zipIdx hx))

theorem raises_ownerCode : OnlyInvalid (ownerCode o) ↔ ∃ code, ownerCode o = .ok code := by
  unfold ownerCode
  split
  · simp [OnlyInvalid, Raises]
  · split <;> simp [OnlyInvalid, Raises]

/-- Where every itinerary fits, the owner is known unless there is neither an
itinerary nor a validating code. -/
theorem ownerCode_eq_ok (h : ∀ itin ∈ o.itineraries, ItineraryFits P dictionaries itin) :
    (∃ code, ownerCode o = .ok code) ↔
      (o.itineraries = [] → o.validatingAirlineCodes ≠ []) := by
  unfold ownerCode
  rcases o.validatingAirlineCodes with - | ⟨code, codes⟩
  · -- without a validating code the first segment of the first itinerary names the owner
    rcases e : o.itineraries with - | ⟨itin, itins⟩
    · simp
    · obtain ⟨seg, segs, hseg⟩ := List.exists_cons_of_ne_nil
        (h itin (by rw [e]; exact List.mem_cons_self)).nonempty
      simp [hseg]
  · simp

theorem raises_mapOffer : OnlyInvalid (mapOffer P dictionaries o) ↔
    OfferSafe P dictionaries o := by
  rw [mapOffer, OnlyInvalid.bind_iff, raises_slices, OfferSafe]
  refine and_congr_right fun _ => ?_
  -- past the slices, the owner's code is all that raises anything else
  have hrest : ∀ slices : List Slice, OnlyInvalid (do
      let ownerCode ← ownerCode o
      let firstCabin := ((cabinBySegment o).head?.map Prod.snd).join
      let owner ← carrier P dictionaries ownerCode
      let total ← validated (Money.create P (amount o.price) o.price.currency)
      validated (Offer.create o.id .amadeus owner total slices
        (o.travelerPricings.map fun tp => travelerType tp.travelerType) (cabin firstCabin)
        none)) ↔ OnlyInvalid (ownerCode o) := by
    intro slices
    rw [OnlyInvalid.bind_iff]
    refine and_iff_left fun _ _ => Raises.bind onlyInvalid_validated fun _ _ => ?_
    exact Raises.bind onlyInvalid_validated fun _ _ => onlyInvalid_validated
  constructor
  · intro h hnil
    have hfits : ∀ itin ∈ o.itineraries, ItineraryFits P dictionaries itin := by simp [hnil]
    obtain ⟨slices, hs⟩ := (slices_eq_ok (cabinBySegment o) o.id).mpr hfits
    exact (ownerCode_eq_ok hfits).mp (raises_ownerCode.mp ((hrest slices).mp (h slices hs))) hnil
  · intro h slices hs
    exact (hrest slices).mpr (raises_ownerCode.mpr
      ((ownerCode_eq_ok ((slices_eq_ok _ _).mp ⟨slices, hs⟩)).mpr h))

theorem offer_eq_ok : (∃ offer, mapOffer P dictionaries o = .ok offer) ↔
    OfferFits P dictionaries o := by
  have hnil : ∀ {slices : List Slice}, o.itineraries.zipIdx.mapM
      (slice P dictionaries o.id (cabinBySegment o)) = .ok slices →
        (slices = [] ↔ o.itineraries = []) := by
    intro slices hs
    rw [mapM_eq_nil hs, List.zipIdx_eq_nil_iff]
  constructor
  · rintro ⟨offer, h⟩
    obtain ⟨slices, hs, h⟩ := bind_eq_ok.mp h
    obtain ⟨code, hcode, h⟩ := bind_eq_ok.mp h
    obtain ⟨owner, howner, h⟩ := bind_eq_ok.mp h
    obtain ⟨total, htotal, h⟩ := bind_eq_ok.mp h
    refine
      { nonempty := fun he => ?_
        itineraries := (slices_eq_ok _ _).mp ⟨slices, hs⟩
        owner := fun code' hcode' => ?_
        currency := (Money.create_eq_some _).mp ⟨total, validated_eq_ok.mp htotal⟩ }
    · exact Offer.create_eq_some.mp ⟨offer, validated_eq_ok.mp h⟩ ((hnil hs).mpr he)
    · obtain rfl := Except.ok.inj (hcode.symm.trans hcode')
      exact (carrier_eq_ok dictionaries).mp ⟨owner, howner⟩
  · intro h
    obtain ⟨slices, hs⟩ := (slices_eq_ok (cabinBySegment o) o.id).mpr
      h.itineraries
    obtain ⟨code, hcode⟩ := (ownerCode_eq_ok h.itineraries).mpr fun he => absurd he h.nonempty
    obtain ⟨owner, howner⟩ := (carrier_eq_ok dictionaries).mpr
      (h.owner code hcode)
    obtain ⟨total, htotal⟩ := (Money.create_eq_some (amount o.price)).mpr h.currency
    obtain ⟨offer, hoffer⟩ := Offer.create_eq_some.mpr fun he => h.nonempty ((hnil hs).mp he)
    exact ⟨offer, bind_eq_ok.mpr ⟨slices, hs, bind_eq_ok.mpr ⟨code, hcode,
      bind_eq_ok.mpr ⟨owner, howner, bind_eq_ok.mpr ⟨total, validated_eq_ok.mpr htotal,
        validated_eq_ok.mpr hoffer⟩⟩⟩⟩⟩

/-! ### Payloads -/

theorem raises_mapPayload {raw : Json} : OnlyInvalid (mapPayload P raw) ↔
    PayloadSafe P raw := by
  have hoffers : ∀ response, OnlyInvalid (mapOffers P response) ↔
      InOrder (OfferFits P response.dictionaries) (OfferSafe P response.dictionaries)
        response.data := by
    intro response
    rw [mapOffers, OnlyInvalid, Raises.mapM_iff]
    exact InOrder.congr (fun _ => offer_eq_ok) fun _ => raises_mapOffer
  rw [mapPayload, OnlyInvalid.bind_iff, and_iff_right onlyInvalid_validated]
  constructor
  · exact fun h response hr => (hoffers response).mp (h response (validated_eq_ok.mpr hr))
  · exact fun h response hr => (hoffers response).mpr (h response (validated_eq_ok.mp hr))

end Amadeus

/-- **Malformed payloads**: Duffel's raise nothing but `ValidationError`,
Amadeus's iff every part the mapper gets to and indexes into is there. -/
theorem onlyInvalid_payloads (P : Pydantic) (raw : Json) :
    OnlyInvalid (Duffel.mapOffers P raw) ∧
      (OnlyInvalid (Amadeus.mapPayload P raw) ↔ Amadeus.PayloadSafe P raw) :=
  ⟨Duffel.raises_mapOffers P raw, Amadeus.raises_mapPayload⟩

/-- A payload of one offer with these itineraries. -/
def Sample.amadeusPayload (itineraries : List Json) : Json :=
  .obj [("data", .arr [.obj
    [("id", .str "1"), ("itineraries", .arr itineraries),
      ("price", .obj [("currency", .str "EUR"), ("total", .str "10.00")])]])]

/-- An itinerary without segments passes the schemas, and the mapper raises
`IndexError`. -/
theorem not_onlyInvalid_emptyItinerary :
    Amadeus.mapPayload Sample.pydantic (Sample.amadeusPayload [.obj [("segments", .arr [])]]) =
        .error .indexError ∧
      ¬ OnlyInvalid (Amadeus.mapPayload Sample.pydantic
        (Sample.amadeusPayload [.obj [("segments", .arr [])]])) := by
  have h : Amadeus.mapPayload Sample.pydantic
      (Sample.amadeusPayload [.obj [("segments", .arr [])]]) = .error .indexError := by
    rfl
  refine ⟨h, fun honly => ?_⟩
  cases honly _ h

end FlyDesk
