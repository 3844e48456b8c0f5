/-
FlyDesk/Providers/Cabin.lean

The cabin of an offer.  Duffel's mapper takes it from the first segment of the
first slice.  Amadeus's takes the first value of the table of cabins, which is
the cabin of whatever segment the first fare detail of the first traveller
names; nothing ties that to the first segment.

`cabin_law` has the exact condition, `Amadeus.CabinsAlign`.
-/
import FlyDesk.Providers.Amadeus.Itinerary
import FlyDesk.Providers.Duffel.Mapper

namespace FlyDesk

open Lib

/-- The cabin of the offer is that of the first segment of its first slice. -/
def Offer.CabinIsFirst (o : Offer) : Prop :=
  ∃ sl s, o.slices.head? = some sl ∧ sl.segments.head? = some s ∧ o.cabinClass = s.cabinClass

variable {P : Pydantic}

/-! ### Duffel -/

namespace Duffel

/-- The cabin of a raw segment's first passenger. -/
theorem cabinClass_segment {seg : DuffelSegment} {s : Segment} (h : segment P seg = .ok s) :
    s.cabinClass = seg.passengers.head?.bind fun p => cabin p.cabinClass := by
  obtain ⟨_, -, h⟩ := bind_eq_ok.mp h
  obtain ⟨_, -, h⟩ := bind_eq_ok.mp h
  obtain ⟨_, -, h⟩ := bind_eq_ok.mp h
  obtain ⟨_, -, h⟩ := bind_eq_ok.mp h
  obtain ⟨_, -, h⟩ := Option.bind_eq_some_iff.mp (validated_eq_ok.mp h)
  obtain rfl := Option.some.inj h
  rfl

/-- A slice has a first segment, made of the first raw one. -/
theorem head?_slice {raw : DuffelSlice} {sl : Slice} (h : slice P raw = .ok sl) :
    ∃ seg s, raw.segments.head? = some seg ∧ sl.segments.head? = some s ∧
      segment P seg = .ok s := by
  obtain ⟨_, -, h⟩ := bind_eq_ok.mp h
  obtain ⟨_, -, h⟩ := bind_eq_ok.mp h
  obtain ⟨segments, hsegments, h⟩ := bind_eq_ok.mp h
  obtain ⟨_, -, h⟩ := Option.bind_eq_some_iff.mp (validated_eq_ok.mp h)
  obtain ⟨hne, h⟩ := Option.ite_none_left_eq_some.mp h
  obtain rfl := Option.some.inj h
  exact head?_of_forall₂ (forall₂_of_mapM hsegments) hne

theorem cabinIsFirst_of_mapOffer {o : DuffelOffer} {offer : Offer}
    (h : mapOffer P o = .ok offer) : offer.CabinIsFirst := by
  obtain ⟨_, -, h⟩ := bind_eq_ok.mp h
  obtain ⟨_, -, h⟩ := bind_eq_ok.mp h
  obtain ⟨slices, hslices, h⟩ := bind_eq_ok.mp h
  obtain ⟨hne, h⟩ := Option.ite_none_left_eq_some.mp (validated_eq_ok.mp h)
  obtain rfl := Option.some.inj h
  obtain ⟨raw, sl, hraw, hsl, hslice⟩ := head?_of_forall₂ (forall₂_of_mapM hslices) hne
  obtain ⟨seg, s, hseg, hs, hsegment⟩ := head?_slice hslice
  refine ⟨sl, s, hsl, hs, ?_⟩
  rw [cabinClass_segment hsegment]
  simp only [hraw, hseg, Option.bind_some]

end Duffel

/-! ### Amadeus -/

namespace Amadeus

/-- The first fare detail of the first traveller, if there is one, names a segment
of the same cabin as the first segment, which it may be itself. -/
def CabinsAlign (o : AmadeusFlightOffer) : Prop :=
  ∀ fd itin seg, (firstFares o).head? = some fd → o.itineraries.head? = some itin →
    itin.segments.head? = some seg → fareCabin o fd.segmentId = fareCabin o seg.id

variable {dictionaries : Option AmadeusDictionaries}

/-- The cabin of the offer, and that there is a slice. -/
theorem cabinClass_mapOffer {o : AmadeusFlightOffer} {offer : Offer}
    (h : mapOffer P dictionaries o = .ok offer) :
    offer.cabinClass = ((firstFares o).head?.bind fun fd => fareCabin o fd.segmentId) ∧
      offer.slices ≠ [] := by
  obtain ⟨_, -, h⟩ := bind_eq_ok.mp h
  obtain ⟨_, -, h⟩ := bind_eq_ok.mp h
  obtain ⟨_, -, h⟩ := bind_eq_ok.mp h
  obtain ⟨_, -, h⟩ := bind_eq_ok.mp h
  obtain ⟨hne, h⟩ := Option.ite_none_left_eq_some.mp (validated_eq_ok.mp h)
  obtain rfl := Option.some.inj h
  exact ⟨cabin_first o, hne⟩

/-- The first segment of the first slice is made of the first raw one. -/
theorem Kept.first {o : AmadeusFlightOffer} {offer : Offer} (h : Kept P o offer)
    (hne : offer.slices ≠ []) :
    ∃ itin seg sl s, o.itineraries.head? = some itin ∧ itin.segments.head? = some seg ∧
      offer.slices.head? = some sl ∧ sl.segments.head? = some s ∧ SegmentKept P o seg s := by
  obtain ⟨itin, sl, hitin, hsl, hkept⟩ := head?_of_forall₂ h.slices hne
  obtain ⟨first, -, hfirst, -⟩ := hkept.ends
  have hsegments : sl.segments ≠ [] := by
    intro hnil
    rw [hnil] at hfirst
    cases hfirst
  obtain ⟨seg, s, hseg, hs, hk⟩ := head?_of_forall₂ hkept.segments hsegments
  exact ⟨itin, seg, sl, s, hitin, hseg, hsl, hs, hk⟩

theorem cabinIsFirst_iff {o : AmadeusFlightOffer} {offer : Offer}
    (h : mapOffer P dictionaries o = .ok offer) : offer.CabinIsFirst ↔ CabinsAlign o := by
  obtain ⟨hcabin, hne⟩ := cabinClass_mapOffer h
  obtain ⟨itin, seg, sl, s, hitin, hseg, hsl, hs, hkept⟩ := (kept_of_mapOffer h).first hne
  have hiff : offer.CabinIsFirst ↔ offer.cabinClass = fareCabin o seg.id := by
    rw [← eq_fareCabin_iff.mpr hkept.cabinClass]
    constructor
    · rintro ⟨sl', s', hsl', hs', heq⟩
      obtain rfl := Option.some.inj (hsl.symm.trans hsl')
      obtain rfl := Option.some.inj (hs.symm.trans hs')
      exact heq
    · exact fun heq => ⟨sl, s, hsl, hs, heq⟩
  rw [hiff, hcabin]
  rcases hfd : (firstFares o).head? with - | fd
  · -- no fare details: no cabin anywhere
    have hnil : firstFares o = [] := List.head?_eq_none_iff.mp hfd
    have hnone : fareCabin o seg.id = none := by simp [fareCabin, lastFare, hnil]
    rw [hnone]
    refine iff_of_true rfl ?_
    intro fd' _ _ hfd'
    rw [hfd] at hfd'
    cases hfd'
  · show fareCabin o fd.segmentId = fareCabin o seg.id ↔ _
    constructor
    · intro heq fd' itin' seg' hfd' hitin' hseg'
      obtain rfl := Option.some.inj (hfd.symm.trans hfd')
      obtain rfl := Option.some.inj (hitin.symm.trans hitin')
      obtain rfl := Option.some.inj (hseg.symm.trans hseg')
      exact heq
    · exact fun halign => halign fd itin seg hfd hitin hseg

end Amadeus

/-- **The cabin of an offer is that of its first segment**: always where the
offer is Duffel's, and iff the fare details align where it is Amadeus's. -/
theorem cabin_law (P : Pydantic) :
    (∀ raw offer, Duffel.mapOffer P raw = .ok offer → offer.CabinIsFirst) ∧
      ∀ dictionaries raw offer, Amadeus.mapOffer P dictionaries raw = .ok offer →
        (offer.CabinIsFirst ↔ Amadeus.CabinsAlign raw) :=
  ⟨fun _ _ => Duffel.cabinIsFirst_of_mapOffer, fun _ _ _ => Amadeus.cabinIsFirst_iff⟩

namespace Sample

/-- Two segments, economy and then business, with the fare details the other
way round. -/
def swappedFares : Json :=
  .obj [("data", .arr [.obj
    [("id", .str "1"),
      ("itineraries", .arr [.obj
        [("segments", .arr [amadeusSegment "1" "SYD" "SIN", amadeusSegment "2" "SIN" "BKK"])]]),
      ("price", .obj [("currency", .str "EUR"), ("total", .str "1054.70")]),
      ("travelerPricings", .arr [.obj
        [("travelerId", .str "1"), ("travelerType", .str "ADULT"),
          ("fareDetailsBySegment", .arr
            [.obj [("segmentId", .str "2"), ("cabin", .str "BUSINESS")],
              .obj [("segmentId", .str "1"), ("cabin", .str "ECONOMY")]])]])]])]

end Sample

/-- The offer is sold as business, and its first segment is economy. -/
theorem not_cabinIsFirst_swappedFares :
    ∃ offer, Amadeus.mapPayload Sample.isoPydantic Sample.swappedFares = .ok [offer] ∧
      offer.cabinClass = some .business ∧
      (offer.slices.map fun sl => sl.segments.map Segment.cabinClass)
        = [[some .economy, some .business]] ∧
      ¬ offer.CabinIsFirst := by
  refine ⟨_, rfl, rfl, rfl, ?_⟩
  rintro ⟨sl, s, hsl, hs, h⟩
  obtain rfl := Option.some.inj hsl
  obtain rfl := Option.some.inj hs
  cases h

end FlyDesk
