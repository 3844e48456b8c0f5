/-
FlyDesk/Providers/Validity.lean

Every offer a mapper returns is valid.  The mappers build the domain models
through their validators and in no other way, so what has been built has been
through them, down to the codes in a segment.  This is what the cache relies on
when it writes offers and reads them back.
-/
import FlyDesk.Domain.Serialization
import FlyDesk.Providers.Amadeus.Mapper
import FlyDesk.Providers.Duffel.Mapper

namespace FlyDesk

open Lib

variable {P : Pydantic}

/-! ### Building a model -/

theorem returns_validated {α : Type} {q : α → Prop} {o : Option α} (h : ∀ a, o = some a → q a) :
    Returns q (validated o) :=
  fun a ha => h a (validated_eq_ok.mp ha)

theorem Money.valid_of_create {amount : Decimal} {currency : String} {m : Money}
    (h : Money.create P amount currency = some m) : m.Valid P := by
  obtain ⟨code, hcode, h⟩ := Option.bind_eq_some_iff.mp h
  obtain rfl := Option.some.inj h
  exact ⟨currency, hcode⟩

theorem Carrier.valid_of_create {iataCode : String} {name : Option String} {c : Carrier}
    (h : Carrier.create P iataCode name = some c) : c.Valid P := by
  obtain ⟨code, hcode, h⟩ := Option.bind_eq_some_iff.mp h
  obtain rfl := Option.some.inj h
  exact ⟨iataCode, hcode⟩

theorem Place.valid_of_create {iataCode name cityName : Json} {type : PlaceType} {p : Place}
    (h : Place.create P iataCode name cityName type = some p) : p.Valid P := by
  obtain ⟨code, hcode, h⟩ := Option.bind_eq_some_iff.mp h
  obtain ⟨_, -, h⟩ := Option.bind_eq_some_iff.mp h
  obtain ⟨_, -, h⟩ := Option.bind_eq_some_iff.mp h
  obtain rfl := Option.some.inj h
  obtain ⟨raw, -, hraw⟩ := Option.bind_eq_some_iff.mp hcode
  exact ⟨raw, hraw⟩

theorem Segment.valid_of_create {id : String} {origin destination : Place}
    {departingAt arrivingAt : DateTime} {marketingCarrier : Carrier}
    {operatingCarrier : Option Carrier} {flightNumber : String} {aircraft : Option String}
    {cabinClass : Option CabinClass} {duration : Json} {s : Segment} (horigin : origin.Valid P)
    (hdestination : destination.Valid P) (hmarketing : marketingCarrier.Valid P)
    (hoperating : ∀ c, operatingCarrier = some c → c.Valid P)
    (h : Segment.create P id origin destination departingAt arrivingAt marketingCarrier
      operatingCarrier flightNumber aircraft cabinClass duration = some s) : s.Valid P := by
  obtain ⟨_, -, h⟩ := Option.bind_eq_some_iff.mp h
  obtain rfl := Option.some.inj h
  exact ⟨horigin, hdestination, hmarketing, hoperating⟩

theorem Slice.valid_of_create {id : String} {origin destination : Place} {duration : Json}
    {segments : List Segment} {s : Slice} (horigin : origin.Valid P)
    (hdestination : destination.Valid P) (hsegments : ∀ seg ∈ segments, seg.Valid P)
    (h : Slice.create P id origin destination duration segments = some s) : s.Valid P := by
  obtain ⟨_, -, h⟩ := Option.bind_eq_some_iff.mp h
  obtain ⟨hne, h⟩ := Option.ite_none_left_eq_some.mp h
  obtain rfl := Option.some.inj h
  exact ⟨horigin, hdestination, hne, hsegments⟩

theorem Offer.valid_of_create {id : String} {provider : Provider} {owner : Carrier}
    {total : Money} {slices : List Slice} {passengerTypes : List PassengerType}
    {cabinClass : Option CabinClass} {expiresAt : Option DateTime} {o : Offer}
    (howner : owner.Valid P) (htotal : total.Valid P) (hslices : ∀ s ∈ slices, s.Valid P)
    (h : Offer.create id provider owner total slices passengerTypes cabinClass expiresAt =
      some o) : o.Valid P := by
  obtain ⟨hne, h⟩ := Option.ite_none_left_eq_some.mp h
  obtain rfl := Option.some.inj h
  exact ⟨howner, htotal, hne, hslices⟩

/-! ### Duffel's mapper -/

namespace Duffel

theorem returns_place (p : DuffelPlace) : Returns (Place.Valid P) (place P p) :=
  returns_validated fun _ h => Place.valid_of_create h

theorem returns_carrier (c : DuffelCarrier) : Returns (Carrier.Valid P) (carrier P c) :=
  returns_validated fun _ h => Carrier.valid_of_create h

theorem returns_carrier? (c : Option DuffelCarrier) :
    Returns (fun c => ∀ c', c = some c' → Carrier.Valid P c') (carrier? P c) := by
  cases c with
  | none => exact Returns.ok nofun
  | some c => exact (returns_carrier c).map fun d hd _ he => Option.some.inj he ▸ hd

theorem returns_segment (s : DuffelSegment) : Returns (Segment.Valid P) (segment P s) := by
  refine (returns_place s.origin).bind fun origin horigin => ?_
  refine (returns_place s.destination).bind fun destination hdestination => ?_
  refine (returns_carrier s.marketingCarrier).bind fun marketing hmarketing => ?_
  refine (returns_carrier? s.operatingCarrier).bind fun operating hoperating => ?_
  exact returns_validated fun _ h =>
    Segment.valid_of_create horigin hdestination hmarketing hoperating h

theorem returns_slice (sl : DuffelSlice) : Returns (Slice.Valid P) (slice P sl) := by
  refine (returns_place sl.origin).bind fun origin horigin => ?_
  refine (returns_place sl.destination).bind fun destination hdestination => ?_
  refine (Returns.mapM fun s _ => returns_segment s).bind fun segments hsegments => ?_
  exact returns_validated fun _ h => Slice.valid_of_create horigin hdestination hsegments h

theorem returns_mapOffer (o : DuffelOffer) : Returns (Offer.Valid P) (mapOffer P o) := by
  refine (returns_carrier o.owner).bind fun owner howner => ?_
  refine (returns_validated fun _ h => Money.valid_of_create h).bind fun total htotal => ?_
  refine (Returns.mapM fun sl _ => returns_slice sl).bind fun slices hslices => ?_
  exact returns_validated fun _ h => Offer.valid_of_create howner htotal hslices h

end Duffel

/-! ### Amadeus's mapper -/

namespace Amadeus

variable {dictionaries : Option AmadeusDictionaries}

theorem returns_place (iataCode : String) :
    Returns (Place.Valid P) (place P dictionaries iataCode) :=
  Returns.any.bind fun _ _ => returns_validated fun _ h => Place.valid_of_create h

theorem returns_carrier (code : String) :
    Returns (Carrier.Valid P) (carrier P dictionaries code) :=
  returns_validated fun _ h => Carrier.valid_of_create h

theorem returns_operatingCarrier (operating : Option AmadeusOperating) :
    Returns (fun c => ∀ c', c = some c' → Carrier.Valid P c')
      (operatingCarrier P dictionaries operating) := by
  rw [operatingCarrier]
  split
  · exact Returns.ok nofun
  · split
    · exact Returns.ok nofun
    · exact (returns_carrier _).map fun d hd _ he => Option.some.inj he ▸ hd

theorem returns_segment (cabins : List (String × Option String)) (seg : AmadeusSegment) :
    Returns (Segment.Valid P) (segment P dictionaries cabins seg) := by
  refine (returns_place _).bind fun origin horigin => ?_
  refine (returns_place _).bind fun destination hdestination => ?_
  refine (returns_carrier _).bind fun marketing hmarketing => ?_
  refine (returns_operatingCarrier _).bind fun operating hoperating => ?_
  exact returns_validated fun _ h =>
    Segment.valid_of_create horigin hdestination hmarketing hoperating h

theorem returns_slice (offerId : String) (cabins : List (String × Option String))
    (itin : AmadeusItinerary × ℕ) :
    Returns (Slice.Valid P) (slice P dictionaries offerId cabins itin) := by
  refine (Returns.mapM fun seg _ => returns_segment cabins seg).bind fun segments hsegments => ?_
  split
  · -- the ends of the slice are those of its first and last segment
    rename_i first last hfirst hlast
    exact returns_validated fun _ h => Slice.valid_of_create
      (hsegments first (List.mem_of_mem_head? hfirst)).origin
      (hsegments last (List.mem_of_mem_getLast? hlast)).destination hsegments h
  · exact nofun

theorem returns_mapOffer (o : AmadeusFlightOffer) :
    Returns (Offer.Valid P) (mapOffer P dictionaries o) := by
  refine (Returns.mapM fun itin _ => returns_slice _ _ itin).bind fun slices hslices => ?_
  refine Returns.any.bind fun code _ => ?_
  refine (returns_carrier code).bind fun owner howner => ?_
  refine (returns_validated fun _ h => Money.valid_of_create h).bind fun total htotal => ?_
  exact returns_validated fun _ h => Offer.valid_of_create howner htotal hslices h

end Amadeus

/-- **What a mapper returns is valid.** -/
theorem mapped_valid (P : Pydantic) (raw : Json) :
    Returns (fun offers => ∀ o ∈ offers, Offer.Valid P o) (Duffel.mapOffers P raw) ∧
      Returns (fun offers => ∀ o ∈ offers, Offer.Valid P o) (Amadeus.mapPayload P raw) := by
  constructor
  · exact Returns.any.bind fun _ _ => Returns.mapM fun o _ => Duffel.returns_mapOffer o
  · exact Returns.any.bind fun _ _ => Returns.mapM fun o _ => Amadeus.returns_mapOffer o

end FlyDesk
