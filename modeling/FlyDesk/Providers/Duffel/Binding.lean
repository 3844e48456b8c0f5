/-
FlyDesk/Providers/Duffel/Binding.lean

Passengers and slots.  An offer has a slot for each passenger it was searched
for, with an id and a type; an order names a person for each slot.  A binding
gives every passenger a slot of its own, the one it asks for if it asks for
one; it respects the types when nobody could be in a slot of its type without
another leaving one.

`create_order` pairs the two lists by position and posts as many pairs as the
shorter one has.  `DuffelProvider.bound_iff` says when that is right: there has
to be a slot for everybody, and, where Duffel answers with an order, the first
slots of the offer have to suit the passengers in the order in which they come,
up to exchanging passengers with the same details.
-/
import FlyDesk.Providers.Duffel.Faults
import FlyDesk.Domain.Serialization
import FlyDesk.Lib.Seating
import Mathlib.Data.List.OfFn

namespace FlyDesk

open Lib

namespace DuffelProvider

/-! ### Bindings -/

section Bindings

variable (slots : List DuffelOfferPassenger) (passengers : List BookingPassenger)

/-- The ids of the slots. -/
def slotIds : Finset String := (slots.map DuffelOfferPassenger.id).toFinset

/-- The slot with this id, the first that has it, is one for passengers of this
type.  A slot whose type is missing or none of ours is an adult's. -/
def Fits (id : String) (type : PassengerType) : Prop :=
  ∃ slot, slots.find? (fun slot => slot.id = id) = some slot ∧
    NamedOr PassengerType.value .adult slot.type type

/-- The slot a passenger asks for. -/
def asked (i : Fin passengers.length) : Option String := passengers[i].providerPassengerId

/-- Slots for the passengers: distinct slots of the offer, and the one a
passenger asks for. -/
abbrev Binding (ids : Fin passengers.length → String) : Prop :=
  Seating (slotIds slots) (asked passengers) ids

/-- A passenger is in a slot of its type if some binding puts it into one and
leaves everybody who is in one in one. -/
abbrev TypesKept (ids : Fin passengers.length → String) : Prop :=
  Fair (slotIds slots) (asked passengers) (fun i id => Fits slots id passengers[i].type) ids

/-- What is posted carries the details of every passenger once and nobody else's,
each under the slot of a binding that respects the types. -/
def PostedBound (posted : List OrderPassenger) : Prop :=
  ∃ place : Fin passengers.length ≃ Fin posted.length,
    (∀ i, posted[place i].Carries passengers[i]) ∧
    Binding slots passengers (fun i => posted[place i].id) ∧
    TypesKept slots passengers (fun i => posted[place i].id)

/-- Passengers are bound to the slots of the offer: an order that is posted and
returned carries a binding of the returned passengers, and none is posted if
there is no binding. -/
structure Bound (attempt : OrderAttempt) : Prop where
  bound : ∀ payload order, attempt.posted = some payload → attempt.result = .ok order →
    order.passengers = passengers ∧ PostedBound slots order.passengers payload.passengers
  posted : attempt.posted ≠ none → ∃ ids, Binding slots passengers ids

/-! ### Positions -/

/-- There is a slot for everybody: nobody asks for the slot of another or for one
the offer does not have, and the slots are no fewer than the passengers. -/
structure Roomy : Prop where
  distinct : ∀ i j id, asked passengers i = some id → asked passengers j = some id → i = j
  known : ∀ i id, asked passengers i = some id → ∃ slot ∈ slots, slot.id = id
  room : passengers.length ≤ (slotIds slots).card

end Bindings

/-- Two passengers are the same to Duffel. -/
structure SameDetails (p q : BookingPassenger) : Prop where
  title : orDefault p.title "mr" = orDefault q.title "mr"
  gender : orDefault p.gender "m" = orDefault q.gender "m"
  givenName : p.givenName = q.givenName
  familyName : p.familyName = q.familyName
  bornOn : p.bornOn = q.bornOn
  email : p.email = q.email
  phoneNumber : p.phoneNumber = q.phoneNumber

/-- The first slots of the offer, `ids`, suit the passengers, the `i`-th of whom
has the details of the one at position `place i`.  Where a passenger who asks for
nothing does not fit the slot there, the slots it would fit are among the first
ones too, and who is there fits or has asked for it. -/
structure InPlace (slots : List DuffelOfferPassenger) (passengers : List BookingPassenger)
    (ids : Fin passengers.length → String) (place : Equiv.Perm (Fin passengers.length)) :
    Prop where
  first : ∀ k : Fin passengers.length, slots[k.val]?.map DuffelOfferPassenger.id = some (ids k)
  distinct : Function.Injective ids
  details : ∀ i, SameDetails passengers[place i] passengers[i]
  own : ∀ i id, asked passengers i = some id → ids (place i) = id
  types : ∀ i, asked passengers i = none → ¬ Fits slots (ids (place i)) passengers[i].type →
    ∀ slot ∈ slots, Fits slots slot.id passengers[i].type → ∃ j, ids (place j) = slot.id ∧
      (Fits slots slot.id passengers[j].type ∨ asked passengers j ≠ none)

variable {slots : List DuffelOfferPassenger} {passengers : List BookingPassenger}

theorem mem_slotIds {id : String} : id ∈ slotIds slots ↔ ∃ slot ∈ slots, slot.id = id := by
  rw [slotIds, List.mem_toFinset, List.mem_map]

/-- A slot is of one type. -/
theorem Fits.unique {id : String} {s t : PassengerType} (hs : Fits slots id s)
    (ht : Fits slots id t) : s = t := by
  obtain ⟨slot, hslot, hs⟩ := hs
  obtain ⟨slot', hslot', ht⟩ := ht
  obtain rfl := Option.some.inj (hslot.symm.trans hslot')
  rw [namedOr_iff PassengerType.ofValue_eq_some] at hs ht
  exact hs.trans ht.symm

theorem exists_binding_iff : (∃ ids, Binding slots passengers ids) ↔ Roomy slots passengers := by
  rw [exists_seating_iff, Fintype.card_fin]
  simp only [mem_slotIds]
  exact ⟨fun ⟨hdistinct, hknown, hroom⟩ => ⟨hdistinct, hknown, hroom⟩,
    fun h => ⟨h.distinct, h.known, h.room⟩⟩

theorem typesKept_iff {ids : Fin passengers.length → String} (h : Binding slots passengers ids) :
    TypesKept slots passengers ids ↔
      ∀ i, asked passengers i = none → ¬ Fits slots (ids i) passengers[i].type →
        ∀ slot ∈ slots, Fits slots slot.id passengers[i].type → ∃ j, ids j = slot.id ∧
          (Fits slots slot.id passengers[j].type ∨ asked passengers j ≠ none) := by
  refine (h.fair_iff fun hi hj hb => hi.unique hj ▸ hb).trans (forall₃_congr fun i _ _ => ?_)
  simp only [mem_slotIds]
  exact ⟨fun hall slot hslot => hall slot.id ⟨slot, hslot, rfl⟩,
    fun hall id ⟨slot, hslot, hid⟩ => hid ▸ hall slot hslot⟩

/-! ### What is posted -/

theorem length_orderPassengers : (orderPassengers slots passengers).length =
    min slots.length passengers.length := by
  rw [orderPassengers, List.length_zipWith]

/-- Nobody is left out where there are as many slots as passengers. -/
theorem orderPassengers_eq_ofFn {ids : Fin passengers.length → String}
    (h : ∀ k : Fin passengers.length, slots[k.val]?.map DuffelOfferPassenger.id = some (ids k)) :
    orderPassengers slots passengers =
      List.ofFn fun k => orderPassenger (ids k) passengers[k] := by
  have hslot : ∀ k : Fin passengers.length, ∃ slot, slots[k.val]? = some slot ∧
      slot.id = ids k := fun k => Option.map_eq_some_iff.mp (h k)
  refine List.ext_getElem? fun k => ?_
  rw [orderPassengers, List.getElem?_zipWith, List.getElem?_ofFn]
  rcases lt_or_ge k passengers.length with hk | hk
  · obtain ⟨slot, hs, hid⟩ := hslot ⟨k, hk⟩
    rw [hs, List.getElem?_eq_getElem hk, dif_pos hk]
    exact congrArg (fun id => some (orderPassenger id passengers[k])) hid
  · rw [List.getElem?_eq_none hk, dif_neg (Nat.not_lt.mpr hk)]
    cases slots[k]? <;> rfl

theorem carries_orderPassenger {id : String} {p q : BookingPassenger} :
    (orderPassenger id p).Carries q ↔ SameDetails p q :=
  ⟨fun ⟨h₁, h₂, h₃, h₄, h₅, h₆, h₇⟩ => ⟨h₁, h₂, h₃, h₄, h₅, h₆, h₇⟩,
    fun ⟨h₁, h₂, h₃, h₄, h₅, h₆, h₇⟩ => ⟨h₁, h₂, h₃, h₄, h₅, h₆, h₇⟩⟩

/-- Posted passengers, as many as there are passengers. -/
theorem postedBound_ofFn {posted : Fin passengers.length → OrderPassenger} :
    PostedBound slots passengers (List.ofFn posted) ↔
      ∃ place : Equiv.Perm (Fin passengers.length),
        (∀ i, (posted (place i)).Carries passengers[i]) ∧
        Binding slots passengers (fun i => (posted (place i)).id) ∧
        TypesKept slots passengers (fun i => (posted (place i)).id) := by
  have hlen : (List.ofFn posted).length = passengers.length := List.length_ofFn
  have hget : ∀ k : Fin (List.ofFn posted).length,
      (List.ofFn posted)[k] = posted (finCongr hlen k) := fun k => List.getElem_ofFn k.isLt
  constructor
  · rintro ⟨place, hplace⟩
    simp only [hget] at hplace
    exact ⟨place.trans (finCongr hlen), hplace⟩
  · rintro ⟨place, hplace⟩
    refine ⟨place.trans (finCongr hlen.symm), ?_⟩
    simp only [hget]
    exact hplace

/-- Everybody is posted only if there is a slot at everybody's position. -/
theorem PostedBound.exists_ids
    (h : PostedBound slots passengers (orderPassengers slots passengers)) :
    ∃ ids : Fin passengers.length → String, ∀ k : Fin passengers.length,
      slots[k.val]?.map DuffelOfferPassenger.id = some (ids k) := by
  obtain ⟨place, -⟩ := h
  have hlen : passengers.length = min slots.length passengers.length :=
    (Fin.equiv_iff_eq.mp ⟨place⟩).trans length_orderPassengers
  have hle : ∀ k : Fin passengers.length, k.val < slots.length := fun k => by omega
  refine ⟨fun k => (slots.get ⟨k, hle k⟩).id, fun k => ?_⟩
  rw [List.getElem?_eq_getElem (hle k)]
  rfl

/-- The slots at the positions of the passengers are a binding that respects the
types iff they suit them. -/
theorem postedBound_iff :
    PostedBound slots passengers (orderPassengers slots passengers) ↔
      ∃ ids place, InPlace slots passengers ids place := by
  have key : ∀ ids : Fin passengers.length → String,
      (∀ k : Fin passengers.length,
        slots[k.val]?.map DuffelOfferPassenger.id = some (ids k)) →
      (PostedBound slots passengers (orderPassengers slots passengers) ↔
        ∃ place, InPlace slots passengers ids place) := by
    intro ids hids
    have hmem : ∀ k, ids k ∈ slotIds slots := by
      intro k
      obtain ⟨slot, hslot, hid⟩ := Option.map_eq_some_iff.mp (hids k)
      exact mem_slotIds.mpr ⟨slot, List.mem_of_getElem? hslot, hid⟩
    rw [orderPassengers_eq_ofFn hids, postedBound_ofFn]
    refine exists_congr fun place => ?_
    simp only [carries_orderPassenger]
    constructor
    · rintro ⟨hdetails, hB, htypes⟩
      exact
        { first := hids
          distinct := fun k l hkl =>
            place.symm.injective (hB.injective (by simpa [orderPassenger] using hkl))
          details := hdetails
          own := hB.fixed
          types := (typesKept_iff hB).mp htypes }
    · intro h
      have hB : Binding slots passengers fun i => ids (place i) :=
        { injective := h.distinct.comp place.injective
          mem := fun i => hmem (place i)
          fixed := h.own }
      exact ⟨h.details, hB, (typesKept_iff hB).mpr h.types⟩
  constructor
  · intro h
    obtain ⟨ids, hids⟩ := h.exists_ids
    exact ⟨ids, (key ids hids).mp h⟩
  · rintro ⟨ids, place, h⟩
    exact (key ids h.first).mpr ⟨place, h⟩

/-! ### Orders -/

variable {P : Pydantic} {duffel : Duffel}

/-- The passengers of an order are those it was asked for. -/
theorem passengers_of_orderOf {payload : OrderPayload} {now : OrderClock} {order : Order}
    (h : orderOf P duffel payload passengers now = .ok order) :
    order.passengers = passengers := by
  obtain ⟨_, _, h⟩ := bind_eq_ok.mp h
  obtain ⟨_, _, h⟩ := bind_eq_ok.mp h
  obtain ⟨_, _, h⟩ := bind_eq_ok.mp h
  obtain ⟨_, _, h⟩ := bind_eq_ok.mp h
  rw [← Except.ok.inj h]
  rfl

/-- **Passengers are bound to the slots of the offer iff** there is a slot for
everybody and, where Duffel answers with an order, the first ones suit the
passengers as they come.  Without an offer nothing is posted. -/
theorem bound_iff (P : Pydantic) (duffel : Duffel) (offerId : String)
    (passengers : List BookingPassenger) (now : OrderClock) :
    (∀ offer, HasOffer P duffel offerId offer →
      (Bound offer.passengers passengers (createOrder P duffel offerId passengers now) ↔
        Roomy offer.passengers passengers ∧
          (OrderReturned P duffel (orderPayload offer passengers) →
            ∃ ids place, InPlace offer.passengers passengers ids place))) ∧
    ((∀ offer, ¬ HasOffer P duffel offerId offer) →
      (createOrder P duffel offerId passengers now).posted = none) := by
  constructor
  · intro offer hoffer
    rw [createOrder, fetchOffer_eq_ok.mpr hoffer]
    constructor
    · -- an order that is returned shows that what was posted is bound
      intro h
      refine ⟨exists_binding_iff.mp (h.posted (Option.some_ne_none _)), fun hret => ?_⟩
      obtain ⟨order, horder⟩ := (orderOf_eq_ok passengers now).mpr hret
      obtain ⟨hpass, hbound⟩ := h.bound _ order rfl horder
      rw [hpass] at hbound
      exact postedBound_iff.mp hbound
    · rintro ⟨hroomy, hplace⟩
      refine ⟨fun payload order hposted horder => ?_, fun _ => exists_binding_iff.mpr hroomy⟩
      obtain rfl := Option.some.inj hposted
      have hpass := passengers_of_orderOf horder
      refine ⟨hpass, ?_⟩
      rw [hpass]
      exact postedBound_iff.mpr (hplace ((orderOf_eq_ok _ _).mp ⟨order, horder⟩))
  · intro hnone
    rcases h : fetchOffer P duffel offerId with e | offer
    · rw [createOrder, h]
    · exact absurd (fetchOffer_eq_ok.mp h) (hnone offer)

end DuffelProvider

/-! ### Two offers -/

namespace Sample

def child (givenName : String) : BookingPassenger := { passenger givenName with type := .child }

def rawTwoSlots : Json := rawOffer
  [.obj [("id", .str "pas_1"), ("type", .str "adult")],
    .obj [("id", .str "pas_2"), ("type", .str "child")]]

def twoSlots : List DuffelOfferPassenger :=
  [{ id := "pas_1", type := some "adult" }, { id := "pas_2", type := some "child" }]

/-- Duffel has the offer, and creates the order it is asked for. -/
def creating (offer : Json) : DuffelProvider.Duffel where
  getOffer _ := .response 200 (some offer)
  postOrder _ := .response 201 (some (.obj [("data", .obj
    [("id", .str "ord_1"), ("total_amount", .str "10.00"), ("total_currency", .str "EUR"),
      ("slices", .arr [])])]))

end Sample

namespace DuffelProvider

/-- An adult and a child are bound to the slots of an adult and a child if they
come in this order. -/
theorem bound_iff_twoSlots :
    ∃ offer, HasOffer Sample.pydantic (Sample.creating Sample.rawTwoSlots) "off_1" offer ∧
      (∀ payload, OrderReturned Sample.pydantic (Sample.creating Sample.rawTwoSlots) payload) ∧
      Bound offer.passengers [Sample.passenger "Tony", Sample.child "Morgan"]
        (createOrder Sample.pydantic (Sample.creating Sample.rawTwoSlots) "off_1"
          [Sample.passenger "Tony", Sample.child "Morgan"] Sample.epochClock) ∧
      ¬ Bound offer.passengers [Sample.child "Morgan", Sample.passenger "Tony"]
        (createOrder Sample.pydantic (Sample.creating Sample.rawTwoSlots) "off_1"
          [Sample.child "Morgan", Sample.passenger "Tony"] Sample.epochClock) := by
  obtain ⟨offer, hoffer, hslots⟩ : ∃ offer, HasOffer Sample.pydantic
      (Sample.creating Sample.rawTwoSlots) "off_1" offer ∧ offer.passengers = Sample.twoSlots :=
    ⟨_, fetchOffer_eq_ok.mp rfl, rfl⟩
  have hreturned : ∀ payload, OrderReturned Sample.pydantic
      (Sample.creating Sample.rawTwoSlots) payload := fun payload =>
    (orderOf_eq_ok [] Sample.epochClock).mp ⟨_, rfl⟩
  have hadult : Fits Sample.twoSlots "pas_1" .adult := ⟨_, rfl, Or.inl rfl⟩
  have hchild : Fits Sample.twoSlots "pas_2" .child := ⟨_, rfl, Or.inl rfl⟩
  refine ⟨offer, hoffer, hreturned, ?_, fun h => ?_⟩
  · refine ((bound_iff _ _ _ _ _).1 _ hoffer).mpr ?_
    rw [hslots]
    refine ⟨?_, fun _ => ⟨fun k => if k.val = 0 then "pas_1" else "pas_2", Equiv.refl _, ?_⟩⟩
    · exact ⟨by decide, by decide, by decide⟩
    · exact
        { first := by decide
          distinct := by decide
          details := fun i => ⟨rfl, rfl, rfl, rfl, rfl, rfl, rfl⟩
          own := by decide
          types := by
            refine (Fin.forall_fin_two (p := _)).mpr ⟨fun _ hmiss => ?_, fun _ hmiss => ?_⟩
            · exact absurd hadult hmiss
            · exact absurd hchild hmiss }
  · -- Morgan is in the adult's slot, and Tony in the one she fits
    obtain ⟨-, hplace⟩ := ((bound_iff _ _ _ _ _).1 _ hoffer).mp h
    obtain ⟨ids, place, hin⟩ := hplace (hreturned _)
    rw [hslots] at hin
    have hnames : ∀ k : Fin 2, [Sample.child "Morgan", Sample.passenger "Tony"][k].givenName =
        "Morgan" → k = 0 := by decide
    have hmorgan : place (0 : Fin 2) = (0 : Fin 2) := hnames _ (hin.details (0 : Fin 2)).givenName
    have hfirst : ids (0 : Fin 2) = "pas_1" := (Option.some.inj (hin.first (0 : Fin 2))).symm
    have hmiss : ¬ Fits Sample.twoSlots (ids (place (0 : Fin 2))) .child := by
      rw [hmorgan, hfirst]
      exact fun hfits => by cases hadult.unique hfits
    obtain ⟨j, hj, hfits | hasked⟩ := hin.types (0 : Fin 2) rfl hmiss
      { id := "pas_2", type := some "child" } (List.mem_of_getElem? (i := 1) rfl) hchild
    · have htypes : ∀ k : Fin 2, PassengerType.child =
          [Sample.child "Morgan", Sample.passenger "Tony"][k].type → k = 0 := by decide
      obtain rfl := htypes j (hchild.unique hfits)
      rw [hmorgan, hfirst] at hj
      exact absurd hj (by decide)
    · have hnone : ∀ k : Fin 2,
          asked [Sample.child "Morgan", Sample.passenger "Tony"] k = none := by decide
      exact hasked (hnone j)

/-- Two passengers for one slot: the order is posted and returned, and the second
passenger is on it only in our copy. -/
theorem not_bound_oneSlot :
    ∃ offer payload order,
      HasOffer Sample.pydantic (Sample.creating Sample.rawOneSlot) "off_1" offer ∧
      createOrder Sample.pydantic (Sample.creating Sample.rawOneSlot) "off_1"
        [Sample.passenger "Tony", Sample.passenger "Morgan"] Sample.epochClock =
          { posted := some payload, result := .ok order } ∧
      payload.passengers = [orderPassenger "pas_1" (Sample.passenger "Tony")] ∧
      order.passengers = [Sample.passenger "Tony", Sample.passenger "Morgan"] ∧
      ¬ Bound offer.passengers [Sample.passenger "Tony", Sample.passenger "Morgan"]
        (createOrder Sample.pydantic (Sample.creating Sample.rawOneSlot) "off_1"
          [Sample.passenger "Tony", Sample.passenger "Morgan"] Sample.epochClock) := by
  refine ⟨_, _, _, fetchOffer_eq_ok.mp rfl, rfl, rfl, rfl, fun h => ?_⟩
  -- both passengers would have to be in the one slot
  have hroom := (exists_binding_iff.mp (h.posted (Option.some_ne_none _))).room
  exact absurd hroom (by decide)

end DuffelProvider

end FlyDesk
