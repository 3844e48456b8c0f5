/-
FlyDesk/Providers/Amadeus/Itinerary.lean

What Amadeus's mapper keeps of an offer.  Wherever it returns, the slices are
the itineraries and their segments the segments, in order (`Kept`), and each
segment flies in the cabin of the fare detail that is last for it:

* `lookup_cabinBySegment` — the table the mapper fills from the fare details,
  where a later entry replaces an earlier one, holds the last one for every id;
* `unnamed` — an offer without the names that come from the `dictionaries`
  block.  Two blocks give the same offer, `unnamed` (`unnamed_of_mapOffer`).
-/
import FlyDesk.Domain.Serialization
import FlyDesk.Providers.Amadeus.Mapper
import Mathlib.Data.List.Forall2
import Mathlib.Data.List.Nodup
import Mathlib.Tactic.Ring

namespace FlyDesk

open Lib

namespace Amadeus

/-! ### The table of cabins -/

theorem lookup_setItem {α : Type} (key k : String) (value : α) (d : List (String × α)) :
    (setItem key value d).lookup k = if k = key then some value else d.lookup k := by
  induction d with
  | nil =>
      by_cases hk : k = key
      · simp [setItem, hk]
      · simp [setItem, hk, lookup_cons_of_ne hk]
  | cons e d ih =>
      rcases e with ⟨k', v⟩
      rw [setItem]
      by_cases hkey : k' = key
      · subst hkey
        by_cases hk : k = k'
        · simp [hk]
        · simp [hk, lookup_cons_of_ne hk]
      · rw [if_neg hkey]
        by_cases hk : k = k'
        · simp [hk, hkey]
        · rw [lookup_cons_of_ne hk, lookup_cons_of_ne hk, ih]

/-- A key keeps its place, and a new one comes last. -/
theorem head?_setItem {α : Type} (key : String) (value : α) (d : List (String × α)) :
    (setItem key value d).head?.map Prod.fst = some ((d.head?.map Prod.fst).getD key) := by
  rcases d with - | ⟨⟨k', v⟩, d⟩
  · rfl
  · by_cases hkey : k' = key <;> simp [setItem, hkey]

/-- The fare details of the first traveller. -/
def firstFares (o : AmadeusFlightOffer) : List AmadeusFareDetail :=
  (o.travelerPricings.head?.map AmadeusTravelerPricing.fareDetailsBySegment).getD []

/-- The last of them that names a segment. -/
def lastFare (o : AmadeusFlightOffer) (segmentId : String) : Option AmadeusFareDetail :=
  ((firstFares o).filter fun fd => fd.segmentId = segmentId).getLast?

/-- Its cabin, normalised. -/
def fareCabin (o : AmadeusFlightOffer) (segmentId : String) : Option CabinClass :=
  (lastFare o segmentId).bind fun fd => cabin fd.cabin

/-- That is the cabin whose value the text is in lower case. -/
theorem eq_fareCabin_iff {o : AmadeusFlightOffer} {segmentId : String} {c : Option CabinClass} :
    c = fareCabin o segmentId ↔ NamedBy CabinClass.value
      ((lastFare o segmentId).bind fun fd => fd.cabin.map String.toLower) c := by
  rw [namedBy_iff CabinClass.ofValue_eq_some, fareCabin]
  rcases lastFare o segmentId with - | fd
  · rfl
  · rcases e : fd.cabin with - | v
    · simp [cabin, e]
    · have hlower : v.toLower = String.ofList (v.toList.map Char.toLower) := by
        show v.map Char.toLower = _
        rw [← String.toList_map, String.ofList_toList]
      simp [cabin, e, hlower]

theorem cabinBySegment_eq (o : AmadeusFlightOffer) : cabinBySegment o =
    (firstFares o).foldl (fun d fd => setItem fd.segmentId fd.cabin d) [] := by
  unfold cabinBySegment firstFares
  rcases o.travelerPricings with - | ⟨first, rest⟩ <;> rfl

theorem lookup_fares (fares : List AmadeusFareDetail) (segmentId : String) :
    (fares.foldl (fun d fd => setItem fd.segmentId fd.cabin d) []).lookup segmentId
      = ((fares.filter fun fd => fd.segmentId = segmentId).getLast?).map
          AmadeusFareDetail.cabin := by
  induction fares using List.reverseRecOn with
  | nil => rfl
  | append_singleton fares fd ih =>
      rw [List.foldl_concat, lookup_setItem, List.filter_append]
      by_cases h : segmentId = fd.segmentId
      · simp [h]
      · rw [if_neg h, ih]
        simp [Ne.symm h]

theorem head?_fares (fares : List AmadeusFareDetail) :
    (fares.foldl (fun d fd => setItem fd.segmentId fd.cabin d) []).head?.map Prod.fst
      = fares.head?.map AmadeusFareDetail.segmentId := by
  induction fares using List.reverseRecOn with
  | nil => rfl
  | append_singleton fares fd ih =>
      rw [List.foldl_concat, head?_setItem, ih]
      rcases fares with - | ⟨f, fares⟩ <;> rfl

/-- The table holds the last fare detail of every segment. -/
theorem lookup_cabinBySegment (o : AmadeusFlightOffer) (segmentId : String) :
    (cabinBySegment o).lookup segmentId = (lastFare o segmentId).map AmadeusFareDetail.cabin := by
  rw [cabinBySegment_eq, lookup_fares, lastFare]

theorem cabin_lookup (o : AmadeusFlightOffer) (segmentId : String) :
    cabin ((cabinBySegment o).lookup segmentId).join = fareCabin o segmentId := by
  rw [lookup_cabinBySegment, fareCabin]
  rcases lastFare o segmentId with - | fd <;> rfl

/-- Its first value is the cabin of the segment the first fare detail names. -/
theorem cabin_first (o : AmadeusFlightOffer) :
    cabin ((cabinBySegment o).head?.map Prod.snd).join
      = (firstFares o).head?.bind fun fd => fareCabin o fd.segmentId := by
  have hhead := head?_fares (firstFares o)
  rw [← cabinBySegment_eq] at hhead
  rcases e : cabinBySegment o with - | ⟨⟨k, v⟩, d⟩
  · rw [e] at hhead
    rcases hf : (firstFares o).head? with - | fd
    · rfl
    · simp [hf] at hhead
  · rw [e] at hhead
    rcases hf : (firstFares o).head? with - | fd
    · simp [hf] at hhead
    · rw [hf] at hhead
      obtain rfl : k = fd.segmentId := Option.some.inj hhead
      show cabin v = fareCabin o fd.segmentId
      rw [← cabin_lookup, e]
      simp

/-! ### What is kept -/

variable (P : Pydantic)

/-- A segment and what has become of it: the codes are those of the raw ones
after validation. -/
structure SegmentKept (o : AmadeusFlightOffer) (seg : AmadeusSegment) (s : Segment) : Prop where
  id : s.id = seg.id
  origin : P.airportCode seg.departure.iataCode = some s.origin.iataCode
  destination : P.airportCode seg.arrival.iataCode = some s.destination.iataCode
  departingAt : s.departingAt = seg.departure.at_
  arrivingAt : s.arrivingAt = seg.arrival.at_
  cabinClass : NamedBy CabinClass.value
    ((lastFare o seg.id).bind fun fd => fd.cabin.map String.toLower) s.cabinClass

/-- An itinerary and its slice. -/
structure ItineraryKept (o : AmadeusFlightOffer) (itin : AmadeusItinerary) (s : Slice) :
    Prop where
  segments : List.Forall₂ (SegmentKept P o) itin.segments s.segments
  ends : ∃ first last, s.segments.head? = some first ∧ s.segments.getLast? = some last ∧
    s.origin = first.origin ∧ s.destination = last.destination

/-- The type of a passenger and that of the traveller.  A traveller of any other
type is an adult. -/
structure TravelerKept (tp : AmadeusTravelerPricing) (t : PassengerType) : Prop where
  adult : tp.travelerType = "ADULT" → t = .adult
  child : tp.travelerType = "CHILD" → t = .child
  heldInfant : tp.travelerType = "HELD_INFANT" → t = .infantWithoutSeat
  seatedInfant : tp.travelerType = "SEATED_INFANT" → t = .child
  other : tp.travelerType ∉ ["ADULT", "CHILD", "HELD_INFANT", "SEATED_INFANT"] → t = .adult

/-- A raw offer and what the mapper makes of it. -/
structure Kept (o : AmadeusFlightOffer) (offer : Offer) : Prop where
  slices : List.Forall₂ (ItineraryKept P o) o.itineraries offer.slices
  ids : (offer.slices.map Slice.id).Nodup
  totalStops : offer.totalStops =
    (o.itineraries.map fun itin => (itin.segments.length : ℤ)).sum - o.itineraries.length
  passengerTypes : List.Forall₂ TravelerKept o.travelerPricings offer.passengerTypes

variable {P} {dictionaries : Option AmadeusDictionaries}

/-- A place has a validated code, and nothing else but the name of its city. -/
theorem place_made {code : String} {p : Place} (h : place P dictionaries code = .ok p) :
    P.airportCode code = some p.iataCode ∧ p = ⟨p.iataCode, none, p.cityName, .airport⟩ := by
  obtain ⟨city, -, h⟩ := bind_eq_ok.mp h
  have hcreate := validated_eq_ok.mp h
  rcases hcode : P.airportCode code with - | code'
  · simp [Place.create, hcode] at hcreate
  · rcases hcity : Decoder.nullable Decoder.str city with - | cityName
    · simp [Place.create, hcode, hcity] at hcreate
    · simp only [Place.create, Decoder.str_str, Decoder.nullable_null, hcode, hcity,
        Option.bind_eq_bind, Option.bind_some] at hcreate
      obtain rfl := Option.some.inj hcreate
      exact ⟨rfl, rfl⟩

theorem segment_kept {o : AmadeusFlightOffer} {seg : AmadeusSegment} {s : Segment}
    (h : segment P dictionaries (cabinBySegment o) seg = .ok s) : SegmentKept P o seg s := by
  obtain ⟨origin, ho, h⟩ := bind_eq_ok.mp h
  obtain ⟨destination, hd, h⟩ := bind_eq_ok.mp h
  obtain ⟨_, -, h⟩ := bind_eq_ok.mp h
  obtain ⟨_, -, h⟩ := bind_eq_ok.mp h
  obtain ⟨_, -, h⟩ := Option.bind_eq_some_iff.mp (validated_eq_ok.mp h)
  obtain rfl := Option.some.inj h
  exact
    { id := rfl
      origin := (place_made ho).1
      destination := (place_made hd).1
      departingAt := rfl
      arrivingAt := rfl
      cabinClass := eq_fareCabin_iff.mp (cabin_lookup o seg.id) }

/-- The slice of an itinerary, and its id. -/
theorem slice_kept {o : AmadeusFlightOffer} {itin : AmadeusItinerary × ℕ} {s : Slice}
    (h : slice P dictionaries o.id (cabinBySegment o) itin = .ok s) :
    ItineraryKept P o itin.1 s ∧ s.id = o.id ++ "-itin-" ++ toString itin.2 := by
  obtain ⟨segments, hsegments, h⟩ := bind_eq_ok.mp h
  have hkept := (forall₂_of_mapM hsegments).imp fun _ _ => segment_kept
  split at h
  · rename_i first last hfirst hlast
    obtain ⟨_, -, h⟩ := Option.bind_eq_some_iff.mp (validated_eq_ok.mp h)
    obtain ⟨-, h⟩ := Option.ite_none_left_eq_some.mp h
    obtain rfl := Option.some.inj h
    exact ⟨⟨hkept, first, last, hfirst, hlast, rfl, rfl⟩, rfl⟩
  · cases h

/-- The synthesised ids differ from each other. -/
theorem itin_id_injective (offerId : String) :
    Function.Injective fun idx : ℕ => offerId ++ "-itin-" ++ toString idx := by
  intro i j h
  have hdigits : toString i = toString j := (String.append_right_inj _).mp h
  rw [Nat.toString_eq_ofList_toDigits, Nat.toString_eq_ofList_toDigits] at hdigits
  have hlist : Nat.toDigits 10 i = Nat.toDigits 10 j := by
    have := congrArg String.toList hdigits
    rwa [String.toList_ofList, String.toList_ofList] at this
  rw [← Nat.ofDigitChars_ten_toDigits (n := i), hlist, Nat.ofDigitChars_ten_toDigits]

/-- Segments are counted once in their slice. -/
theorem totalStops_kept {o : AmadeusFlightOffer} {itins : List AmadeusItinerary}
    {slices : List Slice} (h : List.Forall₂ (ItineraryKept P o) itins slices) :
    (slices.map Slice.stops).sum =
      (itins.map fun itin => (itin.segments.length : ℤ)).sum - itins.length := by
  induction h with
  | nil => rfl
  | cons hs _ ih =>
      rw [List.map_cons, List.sum_cons, ih, List.map_cons, List.sum_cons, Slice.stops,
        hs.segments.length_eq, List.length_cons]
      push_cast
      ring

theorem traveler_kept (tp : AmadeusTravelerPricing) :
    TravelerKept tp (travelerType tp.travelerType) where
  adult h := by rw [h]; rfl
  child h := by rw [h]; rfl
  heldInfant h := by rw [h]; rfl
  seatedInfant h := by rw [h]; rfl
  other h := by
    unfold travelerType
    split <;> simp_all

/-- **The mapper keeps the itinerary.** -/
theorem kept_of_mapOffer {o : AmadeusFlightOffer} {offer : Offer}
    (h : mapOffer P dictionaries o = .ok offer) : Kept P o offer := by
  obtain ⟨slices, hslices, h⟩ := bind_eq_ok.mp h
  obtain ⟨_, -, h⟩ := bind_eq_ok.mp h
  obtain ⟨_, -, h⟩ := bind_eq_ok.mp h
  obtain ⟨_, -, h⟩ := bind_eq_ok.mp h
  obtain ⟨-, h⟩ := Option.ite_none_left_eq_some.mp (validated_eq_ok.mp h)
  obtain rfl := Option.some.inj h
  have hall := (forall₂_of_mapM hslices).imp fun _ _ => slice_kept
  have hkept : List.Forall₂ (ItineraryKept P o) o.itineraries slices := by
    have hfst : List.Forall₂ (fun x => ItineraryKept P o x.1) o.itineraries.zipIdx slices :=
      hall.imp fun _ _ => And.left
    rwa [← List.forall₂_map_left_iff (f := Prod.fst), List.zipIdx_map_fst] at hfst
  have hids : slices.map Slice.id =
      (List.range o.itineraries.length).map fun idx => o.id ++ "-itin-" ++ toString idx := by
    have hsnd : List.Forall₂ (fun idx (s : Slice) => s.id = o.id ++ "-itin-" ++ toString idx)
        (o.itineraries.zipIdx.map Prod.snd) slices :=
      List.forall₂_map_left_iff.mpr (hall.imp fun _ _ => And.right)
    rw [List.zipIdx_map_snd, ← List.range_eq_range'] at hsnd
    exact forall₂_map_eq_iff.mp hsnd.flip
  exact
    { slices := hkept
      ids := hids ▸ List.Nodup.map (itin_id_injective o.id) List.nodup_range
      totalStops := totalStops_kept hkept
      passengerTypes := forall₂_map_self fun tp _ => traveler_kept tp }

/-! ### Names -/

end Amadeus

/-- A place without its city. -/
def Place.unnamed (p : Place) : Place := { p with cityName := none }

/-- A carrier without its name. -/
def Carrier.unnamed (c : Carrier) : Carrier := { c with name := none }

/-- A segment without the names and the description of the aircraft. -/
def Segment.unnamed (s : Segment) : Segment :=
  { s with
    origin := s.origin.unnamed
    destination := s.destination.unnamed
    marketingCarrier := s.marketingCarrier.unnamed
    operatingCarrier := s.operatingCarrier.map Carrier.unnamed
    aircraft := none }

def Slice.unnamed (s : Slice) : Slice :=
  { s with
    origin := s.origin.unnamed
    destination := s.destination.unnamed
    segments := s.segments.map Segment.unnamed }

/-- An offer without carrier names, city names and descriptions of aircraft. -/
def Offer.unnamed (o : Offer) : Offer :=
  { o with
    owner := o.owner.unnamed
    slices := o.slices.map Slice.unnamed }

namespace Amadeus

variable {dictionaries' : Option AmadeusDictionaries}

theorem place_unnamed {code : String} {p p' : Place} (h : place P dictionaries code = .ok p)
    (h' : place P dictionaries' code = .ok p') : p.unnamed = p'.unnamed := by
  obtain ⟨hcode, hp⟩ := place_made h
  obtain ⟨hcode', hp'⟩ := place_made h'
  have heq : p.iataCode = p'.iataCode := Option.some.inj (hcode.symm.trans hcode')
  rw [hp, hp', heq]
  rfl

theorem carrier_unnamed {code : String} {c c' : Carrier}
    (h : carrier P dictionaries code = .ok c) (h' : carrier P dictionaries' code = .ok c') :
    c.unnamed = c'.unnamed := by
  obtain ⟨i, hi, h⟩ := Option.bind_eq_some_iff.mp (validated_eq_ok.mp h)
  obtain ⟨i', hi', h'⟩ := Option.bind_eq_some_iff.mp (validated_eq_ok.mp h')
  obtain rfl := Option.some.inj h
  obtain rfl := Option.some.inj h'
  obtain rfl := Option.some.inj (hi.symm.trans hi')
  rfl

theorem operatingCarrier_unnamed {operating : Option AmadeusOperating} {c c' : Option Carrier}
    (h : operatingCarrier P dictionaries operating = .ok c)
    (h' : operatingCarrier P dictionaries' operating = .ok c') :
    c.map Carrier.unnamed = c'.map Carrier.unnamed := by
  rcases hcode : operating.bind AmadeusOperating.carrierCode with - | code
  · simp only [operatingCarrier, hcode, Except.ok.injEq] at h h'
    rw [← h, ← h']
  · by_cases he : code = ""
    · simp only [operatingCarrier, hcode, he, if_true, Except.ok.injEq] at h h'
      rw [← h, ← h']
    · simp only [operatingCarrier, hcode, if_neg he] at h h'
      rcases e : carrier P dictionaries code with ex | d
      · rw [e] at h
        cases h
      · rcases e' : carrier P dictionaries' code with ex | d'
        · rw [e'] at h'
          cases h'
        · rw [e] at h
          rw [e'] at h'
          obtain rfl := Except.ok.inj h
          obtain rfl := Except.ok.inj h'
          exact congrArg some (carrier_unnamed e e')

theorem segment_unnamed {cabins : List (String × Option String)} {seg : AmadeusSegment}
    {s s' : Segment} (h : segment P dictionaries cabins seg = .ok s)
    (h' : segment P dictionaries' cabins seg = .ok s') : s.unnamed = s'.unnamed := by
  obtain ⟨origin, ho, h⟩ := bind_eq_ok.mp h
  obtain ⟨origin', ho', h'⟩ := bind_eq_ok.mp h'
  obtain ⟨destination, hd, h⟩ := bind_eq_ok.mp h
  obtain ⟨destination', hd', h'⟩ := bind_eq_ok.mp h'
  obtain ⟨marketing, hm, h⟩ := bind_eq_ok.mp h
  obtain ⟨marketing', hm', h'⟩ := bind_eq_ok.mp h'
  obtain ⟨operating, hop, h⟩ := bind_eq_ok.mp h
  obtain ⟨operating', hop', h'⟩ := bind_eq_ok.mp h'
  obtain ⟨duration, hdur, h⟩ := Option.bind_eq_some_iff.mp (validated_eq_ok.mp h)
  obtain ⟨duration', hdur', h'⟩ := Option.bind_eq_some_iff.mp (validated_eq_ok.mp h')
  obtain rfl := Option.some.inj h
  obtain rfl := Option.some.inj h'
  obtain rfl := Option.some.inj (hdur.symm.trans hdur')
  simp only [Segment.unnamed, place_unnamed ho ho', place_unnamed hd hd',
    carrier_unnamed hm hm', operatingCarrier_unnamed hop hop']

theorem slice_unnamed {offerId : String} {cabins : List (String × Option String)}
    {itin : AmadeusItinerary × ℕ} {s s' : Slice}
    (h : slice P dictionaries offerId cabins itin = .ok s)
    (h' : slice P dictionaries' offerId cabins itin = .ok s') : s.unnamed = s'.unnamed := by
  obtain ⟨segments, hsegments, h⟩ := bind_eq_ok.mp h
  obtain ⟨segments', hsegments', h'⟩ := bind_eq_ok.mp h'
  have hmap : segments.map Segment.unnamed = segments'.map Segment.unnamed :=
    map_eq_of_mapM hsegments hsegments' fun _ _ _ => segment_unnamed
  split at h
  · rename_i first last hfirst hlast
    split at h'
    · rename_i first' last' hfirst' hlast'
      obtain ⟨duration, hdur, h⟩ := Option.bind_eq_some_iff.mp (validated_eq_ok.mp h)
      obtain ⟨duration', hdur', h'⟩ := Option.bind_eq_some_iff.mp (validated_eq_ok.mp h')
      obtain ⟨-, h⟩ := Option.ite_none_left_eq_some.mp h
      obtain ⟨-, h'⟩ := Option.ite_none_left_eq_some.mp h'
      obtain rfl := Option.some.inj h
      obtain rfl := Option.some.inj h'
      obtain rfl := Option.some.inj (hdur.symm.trans hdur')
      have hhead : first.unnamed = first'.unnamed := by
        have := congrArg List.head? hmap
        rw [List.head?_map, List.head?_map, hfirst, hfirst'] at this
        exact Option.some.inj this
      have hlast : last.unnamed = last'.unnamed := by
        have := congrArg List.getLast? hmap
        rw [List.getLast?_map, List.getLast?_map, hlast, hlast'] at this
        exact Option.some.inj this
      have horigin : first.origin.unnamed = first'.origin.unnamed :=
        congrArg Segment.origin hhead
      have hdestination : last.destination.unnamed = last'.destination.unnamed :=
        congrArg Segment.destination hlast
      simp only [Slice.unnamed, horigin, hdestination, hmap]
    · cases h'
  · cases h

/-- **The `dictionaries` block gives names and nothing else.** -/
theorem unnamed_of_mapOffer {o : AmadeusFlightOffer} {offer offer' : Offer}
    (h : mapOffer P dictionaries o = .ok offer) (h' : mapOffer P dictionaries' o = .ok offer') :
    offer.unnamed = offer'.unnamed := by
  obtain ⟨slices, hslices, h⟩ := bind_eq_ok.mp h
  obtain ⟨slices', hslices', h'⟩ := bind_eq_ok.mp h'
  obtain ⟨code, hcode, h⟩ := bind_eq_ok.mp h
  obtain ⟨code', hcode', h'⟩ := bind_eq_ok.mp h'
  obtain rfl := Except.ok.inj (hcode.symm.trans hcode')
  obtain ⟨owner, howner, h⟩ := bind_eq_ok.mp h
  obtain ⟨owner', howner', h'⟩ := bind_eq_ok.mp h'
  obtain ⟨total, htotal, h⟩ := bind_eq_ok.mp h
  obtain ⟨total', htotal', h'⟩ := bind_eq_ok.mp h'
  obtain rfl := Except.ok.inj (htotal.symm.trans htotal')
  obtain ⟨-, h⟩ := Option.ite_none_left_eq_some.mp (validated_eq_ok.mp h)
  obtain ⟨-, h'⟩ := Option.ite_none_left_eq_some.mp (validated_eq_ok.mp h')
  obtain rfl := Option.some.inj h
  obtain rfl := Option.some.inj h'
  have hmap : slices.map Slice.unnamed = slices'.map Slice.unnamed :=
    map_eq_of_mapM hslices hslices' fun _ _ _ => slice_unnamed
  simp only [Offer.unnamed, carrier_unnamed howner howner', hmap]

/-- **Amadeus normalisation keeps the itinerary**, whatever the `dictionaries`
block; two blocks make a difference to the names only. -/
theorem mapOffer_keeps (P : Pydantic) (o : AmadeusFlightOffer) :
    (∀ dictionaries offer, mapOffer P dictionaries o = .ok offer → Kept P o offer) ∧
      ∀ dictionaries dictionaries' offer offer', mapOffer P dictionaries o = .ok offer →
        mapOffer P dictionaries' o = .ok offer' → offer.unnamed = offer'.unnamed :=
  ⟨fun _ _ => kept_of_mapOffer, fun _ _ _ _ => unnamed_of_mapOffer⟩

end Amadeus

namespace Sample

/-- A segment of an Amadeus payload. -/
def amadeusSegment (id origin destination : String) : Json :=
  .obj [("id", .str id),
    ("departure", .obj [("iataCode", .str origin), ("at", .str "2026-08-15T08:00:00Z")]),
    ("arrival", .obj [("iataCode", .str destination), ("at", .str "2026-08-15T16:00:00Z")]),
    ("carrierCode", .str "TG"), ("number", .str "404")]

/-- There in two segments and back in one, for an adult and an infant.  The first
segment has two fare details. -/
def roundTrip : Json :=
  .obj [
    ("data", .arr [.obj
      [("id", .str "1"),
        ("itineraries", .arr [
          .obj [("segments", .arr
            [amadeusSegment "1" "SYD" "SIN", amadeusSegment "2" "SIN" "BKK"])],
          .obj [("segments", .arr [amadeusSegment "3" "BKK" "SYD"])]]),
        ("price", .obj [("currency", .str "EUR"), ("total", .str "1054.70")]),
        ("travelerPricings", .arr [
          .obj [("travelerId", .str "1"), ("travelerType", .str "ADULT"),
            ("fareDetailsBySegment", .arr
              [.obj [("segmentId", .str "1"), ("cabin", .str "ECONOMY")],
                .obj [("segmentId", .str "2"), ("cabin", .str "SLEEPER")],
                .obj [("segmentId", .str "1"), ("cabin", .str "BUSINESS")]])],
          .obj [("travelerId", .str "2"), ("travelerType", .str "HELD_INFANT")]])]]),
    ("dictionaries", .obj [("carriers", .obj [("TG", .str "THAI AIRWAYS INTERNATIONAL")])])]

end Sample

namespace Amadeus

/-- The round trip, with the names and without. -/
theorem mapOffer_keeps_roundTrip :
    ∃ o dictionaries offer offer',
      AmadeusFlightOffersResponse.decode Sample.isoPydantic Sample.roundTrip =
        some { data := [o], dictionaries := some dictionaries } ∧
      mapOffer Sample.isoPydantic (some dictionaries) o = .ok offer ∧
      mapOffer Sample.isoPydantic none o = .ok offer' ∧
      Kept Sample.isoPydantic o offer ∧ offer.unnamed = offer'.unnamed ∧
      offer.slices.map (fun sl => sl.segments.map Segment.cabinClass) =
        [[some .business, none], [none]] ∧
      offer.totalStops = 1 ∧ offer.passengerTypes = [.adult, .infantWithoutSeat] ∧
      offer.owner.name = some "THAI AIRWAYS INTERNATIONAL" ∧ offer'.owner.name = none := by
  obtain ⟨o, dictionaries, offer, offer', hdecode, hoffer, hoffer', hrest⟩ :
      ∃ o dictionaries offer offer',
        AmadeusFlightOffersResponse.decode Sample.isoPydantic Sample.roundTrip =
          some { data := [o], dictionaries := some dictionaries } ∧
        mapOffer Sample.isoPydantic (some dictionaries) o = .ok offer ∧
        mapOffer Sample.isoPydantic none o = .ok offer' ∧
        offer.slices.map (fun sl => sl.segments.map Segment.cabinClass) =
          [[some .business, none], [none]] ∧
        offer.totalStops = 1 ∧ offer.passengerTypes = [.adult, .infantWithoutSeat] ∧
        offer.owner.name = some "THAI AIRWAYS INTERNATIONAL" ∧ offer'.owner.name = none :=
    ⟨_, _, _, _, rfl, rfl, rfl, rfl, rfl, rfl, rfl, rfl⟩
  obtain ⟨hkeeps, hnames⟩ := mapOffer_keeps Sample.isoPydantic o
  exact ⟨o, dictionaries, offer, offer', hdecode, hoffer, hoffer', hkeeps _ _ hoffer,
    hnames _ _ _ _ hoffer hoffer', hrest⟩

end Amadeus

end FlyDesk
