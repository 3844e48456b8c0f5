/-
FlyDesk/Search/Criteria.lean

From a search request to its criteria.  `build_criteria` fills in the defaults and hands
the rest to the validators of `PassengerSpec` and `SearchCriteria`: codes are stripped
and turned to upper case, and the rules that need two fields are checked last.

The criteria are a normal form.  `buildCriteria_law` says which requests have one, and
that a request that spells it out gets it back; so a key of the cache stands for all the
ways to ask for one trip.
-/
import FlyDesk.Common.Answer
import FlyDesk.Lib.Raises
import FlyDesk.Search.CacheLaw

namespace FlyDesk

open Lib

/-! ### Requests -/

/-- A passenger of a request, as the serializer leaves it. -/
structure PassengerData where
  type : Option String
  age : Option ℤ

/-- The validated data of a request; what may be left out is optional. -/
structure SearchRequest where
  origin : String
  destination : String
  departureDate : Date
  returnDate : Option Date
  cabinClass : Option String
  passengers : Option (List PassengerData)
  maxConnections : Option ℤ

/-- `Field(ge=…, le=…)`. -/
def between (low high n : ℤ) : Option ℤ := if low ≤ n ∧ n ≤ high then some n else none

/-- `Field(min_length=1)`. -/
def atLeastOne {α : Type} (xs : List α) : Option (List α) :=
  if xs.isEmpty then none else some xs

/-- The type of a passenger, an adult unless it is given. -/
def PassengerData.typeOrAdult (p : PassengerData) : Option PassengerType :=
  match p.type with
  | none => some .adult
  | some value => PassengerType.ofValue value

/-- `PassengerSpec(**p)`. -/
def PassengerSpec.create (p : PassengerData) : Option PassengerSpec := do
  let type ← p.typeOrAdult
  let age ← p.age.mapM (between 0 17)
  some { type, age }

/-- `_validate_dates_and_route`. -/
def SearchCriteria.validateDatesAndRoute (c : SearchCriteria) : Option SearchCriteria :=
  if c.origin = c.destination then none
  else if ∃ d ∈ c.returnDate, d.ordinal < c.departureDate.ordinal then none
  else some c

variable (P : Pydantic)

/-- `SearchCriteria(origin=…, …, max_connections=…)`. -/
def SearchCriteria.create (origin destination : String) (departureDate : Date)
    (returnDate : Option Date) (cabinClass : String) (passengers : List PassengerSpec)
    (maxConnections : ℤ) : Option SearchCriteria := do
  let origin ← P.airportCode origin
  let destination ← P.airportCode destination
  let cabinClass ← CabinClass.ofValue cabinClass
  let maxConnections ← between 0 2 maxConnections
  let passengers ← atLeastOne passengers
  SearchCriteria.validateDatesAndRoute
    { origin, destination, departureDate, returnDate, cabinClass, passengers, maxConnections }

/-- `data.get("passengers") or [{}]`. -/
def SearchRequest.travellers (data : SearchRequest) : List PassengerData :=
  match data.passengers with
  | none | some [] => [{ type := none, age := none }]
  | some ps => ps

/-- `build_criteria`. -/
def buildCriteria (data : SearchRequest) : Except Exn SearchCriteria := do
  let passengers ← data.travellers.mapM fun p => validated (PassengerSpec.create p)
  validated (SearchCriteria.create P data.origin data.destination data.departureDate
    data.returnDate (data.cabinClass.getD "economy") passengers (data.maxConnections.getD 1))

/-! ### What is accepted -/

/-- The type is known, and the age that of a child. -/
structure PassengerData.Accepted (p : PassengerData) : Prop where
  type : ∃ type, p.typeOrAdult = some type
  age : ∀ age, p.age = some age → 0 ≤ age ∧ age ≤ 17

/-- The rules of a request. -/
structure SearchRequest.Accepted (data : SearchRequest) : Prop where
  route : ∃ origin destination, P.airportCode data.origin = some origin ∧
    P.airportCode data.destination = some destination ∧ origin ≠ destination
  dates : ∀ d, data.returnDate = some d → data.departureDate.ordinal ≤ d.ordinal
  cabinClass : ∃ c, CabinClass.ofValue (data.cabinClass.getD "economy") = some c
  passengers : ∀ p ∈ data.travellers, p.Accepted
  maxConnections : ∀ k, data.maxConnections = some k → 0 ≤ k ∧ k ≤ 2

/-- The rules of the criteria: those of a request, in normal form. -/
structure SearchCriteria.Valid (c : SearchCriteria) : Prop where
  origin : ∃ raw, P.airportCode raw = some c.origin
  destination : ∃ raw, P.airportCode raw = some c.destination
  route : c.origin ≠ c.destination
  dates : ∀ d, c.returnDate = some d → c.departureDate.ordinal ≤ d.ordinal
  nonempty : c.passengers ≠ []
  ages : ∀ p ∈ c.passengers, ∀ age, p.age = some age → 0 ≤ age ∧ age ≤ 17
  maxConnections : 0 ≤ c.maxConnections ∧ c.maxConnections ≤ 2

/-- A passenger, spelled out. -/
def PassengerSpec.data (p : PassengerSpec) : PassengerData where
  type := some p.type.value
  age := p.age

/-- The request that spells the criteria out. -/
def SearchCriteria.request (c : SearchCriteria) : SearchRequest where
  origin := c.origin
  destination := c.destination
  departureDate := c.departureDate
  returnDate := c.returnDate
  cabinClass := some c.cabinClass.value
  passengers := some (c.passengers.map PassengerSpec.data)
  maxConnections := some c.maxConnections

variable {P}

theorem atLeastOne_eq_some {α : Type} {xs ys : List α} :
    atLeastOne xs = some ys ↔ xs ≠ [] ∧ xs = ys := by
  simp [atLeastOne]

/-! ### Passengers -/

theorem between_eq_some {low high n m : ℤ} :
    between low high n = some m ↔ (low ≤ n ∧ n ≤ high) ∧ n = m := by
  rw [between, Option.ite_none_right_eq_some, Option.some_inj]

theorem mapM_between_eq_some {low high : ℤ} {o o' : Option ℤ} :
    o.mapM (between low high) = some o' ↔ (∀ n, o = some n → low ≤ n ∧ n ≤ high) ∧ o = o' := by
  cases o with
  | none => simp
  | some n => simp [between_eq_some]

theorem PassengerSpec.create_eq_some {p : PassengerData} {spec : PassengerSpec} :
    PassengerSpec.create p = some spec ↔ p.typeOrAdult = some spec.type ∧
      (∀ age, p.age = some age → 0 ≤ age ∧ age ≤ 17) ∧ p.age = spec.age := by
  constructor
  · intro h
    obtain ⟨type, htype, h⟩ := Option.bind_eq_some_iff.mp h
    obtain ⟨age, hage, h⟩ := Option.bind_eq_some_iff.mp h
    obtain rfl := Option.some.inj h
    exact ⟨htype, mapM_between_eq_some.mp hage⟩
  · rintro ⟨htype, hage⟩
    exact Option.bind_eq_some_iff.mpr ⟨_, htype,
      Option.bind_eq_some_iff.mpr ⟨_, mapM_between_eq_some.mpr hage, rfl⟩⟩

theorem PassengerSpec.exists_create {p : PassengerData} :
    (∃ spec, PassengerSpec.create p = some spec) ↔ p.Accepted := by
  constructor
  · rintro ⟨spec, h⟩
    obtain ⟨htype, hage, -⟩ := create_eq_some.mp h
    exact ⟨⟨spec.type, htype⟩, hage⟩
  · rintro ⟨⟨type, htype⟩, hage⟩
    exact ⟨⟨type, p.age⟩, create_eq_some.mpr ⟨htype, hage, rfl⟩⟩

theorem PassengerSpec.create_data {p : PassengerSpec}
    (h : ∀ age, p.age = some age → 0 ≤ age ∧ age ≤ 17) : PassengerSpec.create p.data = some p :=
  create_eq_some.mpr ⟨PassengerType.ofValue_value p.type, h, rfl⟩

theorem SearchRequest.travellers_ne_nil (data : SearchRequest) : data.travellers ≠ [] := by
  rw [travellers]
  split
  · exact List.cons_ne_nil _ _
  · exact List.cons_ne_nil _ _
  · rename_i hne _
    exact hne

/-! ### Criteria -/

theorem SearchCriteria.validateDatesAndRoute_eq_some {c c' : SearchCriteria} :
    c.validateDatesAndRoute = some c' ↔ c.origin ≠ c.destination ∧
      (∀ d, c.returnDate = some d → c.departureDate.ordinal ≤ d.ordinal) ∧ c = c' := by
  rw [validateDatesAndRoute, Option.ite_none_left_eq_some, Option.ite_none_left_eq_some,
    Option.some_inj]
  simp only [Option.mem_def, not_exists, not_and, not_lt, ne_eq]

/-- What the constructor builds: every field has been through its validator. -/
theorem SearchCriteria.create_eq_some {origin destination cabinClass : String}
    {departureDate : Date} {returnDate : Option Date} {passengers : List PassengerSpec}
    {maxConnections : ℤ} {c : SearchCriteria} :
    SearchCriteria.create P origin destination departureDate returnDate cabinClass passengers
        maxConnections = some c ↔
      ∃ origin' destination' cabinClass', P.airportCode origin = some origin' ∧
        P.airportCode destination = some destination' ∧
        CabinClass.ofValue cabinClass = some cabinClass' ∧
        (0 ≤ maxConnections ∧ maxConnections ≤ 2) ∧ passengers ≠ [] ∧
        origin' ≠ destination' ∧
        (∀ d, returnDate = some d → departureDate.ordinal ≤ d.ordinal) ∧
        SearchCriteria.mk origin' destination' departureDate returnDate cabinClass' passengers
          maxConnections = c := by
  constructor
  · intro h
    obtain ⟨origin', horigin, h⟩ := Option.bind_eq_some_iff.mp h
    obtain ⟨destination', hdestination, h⟩ := Option.bind_eq_some_iff.mp h
    obtain ⟨cabinClass', hcabin, h⟩ := Option.bind_eq_some_iff.mp h
    obtain ⟨k, hk, h⟩ := Option.bind_eq_some_iff.mp h
    obtain ⟨ps, hps, h⟩ := Option.bind_eq_some_iff.mp h
    obtain ⟨hmax, rfl⟩ := between_eq_some.mp hk
    obtain ⟨hne, rfl⟩ := atLeastOne_eq_some.mp hps
    obtain ⟨hroute, hdates, rfl⟩ := validateDatesAndRoute_eq_some.mp h
    exact ⟨origin', destination', cabinClass', horigin, hdestination, hcabin, hmax, hne, hroute,
      hdates, rfl⟩
  · rintro ⟨origin', destination', cabinClass', horigin, hdestination, hcabin, hmax, hne, hroute,
      hdates, rfl⟩
    refine Option.bind_eq_some_iff.mpr ⟨_, horigin, ?_⟩
    refine Option.bind_eq_some_iff.mpr ⟨_, hdestination, ?_⟩
    refine Option.bind_eq_some_iff.mpr ⟨_, hcabin, ?_⟩
    refine Option.bind_eq_some_iff.mpr ⟨_, between_eq_some.mpr ⟨hmax, rfl⟩, ?_⟩
    refine Option.bind_eq_some_iff.mpr ⟨_, atLeastOne_eq_some.mpr ⟨hne, rfl⟩, ?_⟩
    exact validateDatesAndRoute_eq_some.mpr ⟨hroute, hdates, rfl⟩

/-! ### Building criteria -/

/-- A request has criteria just if its passengers are read and the constructor builds
them. -/
theorem buildCriteria_eq_ok {data : SearchRequest} {c : SearchCriteria} :
    buildCriteria P data = .ok c ↔ ∃ passengers,
      (data.travellers.mapM fun p => validated (PassengerSpec.create p)) = .ok passengers ∧
      SearchCriteria.create P data.origin data.destination data.departureDate data.returnDate
        (data.cabinClass.getD "economy") passengers (data.maxConnections.getD 1) = some c := by
  rw [buildCriteria, bind_eq_ok]
  simp only [validated_eq_ok]

theorem buildCriteria_accepts {data : SearchRequest} :
    (∃ c, buildCriteria P data = .ok c) ↔ data.Accepted P := by
  have hread : (∃ passengers, (data.travellers.mapM fun p =>
      validated (PassengerSpec.create p)) = .ok passengers) ↔
      ∀ p ∈ data.travellers, p.Accepted := by
    simp only [mapM_ok_iff, validated_eq_ok, PassengerSpec.exists_create]
  constructor
  · rintro ⟨c, h⟩
    obtain ⟨passengers, hps, h⟩ := buildCriteria_eq_ok.mp h
    obtain ⟨origin, destination, cabinClass, horigin, hdestination, hcabin, hmax, -, hroute,
      hdates, -⟩ := SearchCriteria.create_eq_some.mp h
    refine ⟨⟨origin, destination, horigin, hdestination, hroute⟩, hdates, ⟨cabinClass, hcabin⟩,
      hread.mp ⟨passengers, hps⟩, fun k hk => ?_⟩
    rwa [hk] at hmax
  · rintro ⟨⟨origin, destination, horigin, hdestination, hroute⟩, hdates, ⟨cabinClass, hcabin⟩,
      hpassengers, hmax⟩
    obtain ⟨passengers, hps⟩ := hread.mpr hpassengers
    have hne : passengers ≠ [] := (mapM_eq_nil hps).not.mpr data.travellers_ne_nil
    have hmax' : 0 ≤ data.maxConnections.getD 1 ∧ data.maxConnections.getD 1 ≤ 2 := by
      cases hk : data.maxConnections with
      | none => decide
      | some k => exact hmax k hk
    exact ⟨_, buildCriteria_eq_ok.mpr ⟨passengers, hps, SearchCriteria.create_eq_some.mpr
      ⟨origin, destination, cabinClass, horigin, hdestination, hcabin, hmax', hne, hroute, hdates,
        rfl⟩⟩⟩

theorem SearchCriteria.valid_of_build {data : SearchRequest} {c : SearchCriteria}
    (h : buildCriteria P data = .ok c) : c.Valid P := by
  obtain ⟨passengers, hps, h⟩ := buildCriteria_eq_ok.mp h
  obtain ⟨origin, destination, cabinClass, horigin, hdestination, hcabin, hmax, hne, hroute,
    hdates, rfl⟩ := SearchCriteria.create_eq_some.mp h
  refine ⟨⟨_, horigin⟩, ⟨_, hdestination⟩, hroute, hdates, hne, fun spec hspec age hage => ?_, hmax⟩
  -- the age of a passenger is that of its data
  obtain ⟨p, -, hp⟩ := exists_of_mapM hps hspec
  obtain ⟨-, hchild, hsame⟩ := PassengerSpec.create_eq_some.mp (validated_eq_ok.mp hp)
  exact hchild age (hsame.trans hage)

theorem PassengerSpec.mapM_create_data {ps : List PassengerSpec}
    (h : ∀ p ∈ ps, ∀ age, p.age = some age → 0 ≤ age ∧ age ≤ 17) :
    ((ps.map PassengerSpec.data).mapM fun p => validated (PassengerSpec.create p)) = .ok ps := by
  induction ps with
  | nil => rfl
  | cons p ps ih =>
      obtain ⟨hp, hps⟩ := List.forall_mem_cons.mp h
      exact mapM_cons_eq_ok.mpr ⟨p, ps, validated_eq_ok.mpr (create_data hp), ih hps, rfl⟩

/-- Criteria that are spelled out are built again. -/
theorem SearchCriteria.Valid.build_request {T : IsoText} (hP : P.Lawful T) {c : SearchCriteria}
    (h : c.Valid P) : buildCriteria P c.request = .ok c := by
  obtain ⟨⟨raw, horigin⟩, ⟨raw', hdestination⟩, hroute, hdates, hne, hages, hmax⟩ := h
  have htravellers : c.request.travellers = c.passengers.map PassengerSpec.data := by
    cases hps : c.passengers with
    | nil => exact absurd hps hne
    | cons p ps => simp [SearchRequest.travellers, request, hps]
  refine buildCriteria_eq_ok.mpr ⟨c.passengers, ?_, create_eq_some.mpr ⟨c.origin, c.destination,
    c.cabinClass, ?_, ?_, CabinClass.ofValue_value _, hmax, hne, hroute, hdates, rfl⟩⟩
  · rw [htravellers]
    exact PassengerSpec.mapM_create_data hages
  · exact hP.code_code hP.alpha_not_space horigin
  · exact hP.code_code hP.alpha_not_space hdestination

/-- **The law of `build_criteria`.**  A request is accepted just if it keeps the rules,
and any other is answered 400; the criteria keep the rules in normal form, and a request
that spells out such criteria gets them back.  So the criteria are the normal forms of
the requests. -/
theorem buildCriteria_law {T : IsoText} (hP : P.Lawful T) (data : SearchRequest) :
    ((∃ c, buildCriteria P data = .ok c) ↔ data.Accepted P) ∧
      (∀ e, buildCriteria P data = .error e → e.answer = .error 400 "validation_error") ∧
      (∀ c, buildCriteria P data = .ok c → c.Valid P) ∧
      ∀ c : SearchCriteria, c.Valid P → buildCriteria P c.request = .ok c := by
  refine ⟨buildCriteria_accepts, fun e he => ?_, fun _ => SearchCriteria.valid_of_build,
    fun _ hc => hc.build_request hP⟩
  have hvalidated : ∀ {α : Type} (o : Option α), Raises (· = .validationError) (validated o) := by
    intro α o e' h
    cases o with
    | none => exact (Except.error.inj h).symm
    | some a => cases h
  have hraises : Raises (· = .validationError) (buildCriteria P data) :=
    Raises.bind (Raises.mapM fun _ _ => hvalidated _) fun _ _ => hvalidated _
  rw [hraises e he]
  rfl

namespace Sample

/-- The request of `trip`, in small letters and with nothing that has a default. -/
def asked : SearchRequest where
  origin := "lhr"
  destination := "jfk"
  departureDate := departureDay
  returnDate := none
  cabinClass := none
  passengers := none
  maxConnections := none

end Sample

theorem buildCriteria_law_asked :
    Sample.asked.Accepted Sample.isoPydantic ∧
      buildCriteria Sample.isoPydantic Sample.asked = .ok Sample.trip ∧
      buildCriteria Sample.isoPydantic Sample.trip.request = .ok Sample.trip := by
  have hbuild : buildCriteria Sample.isoPydantic Sample.asked = .ok Sample.trip := rfl
  obtain ⟨haccepts, -, hvalid, hagain⟩ :=
    buildCriteria_law Sample.isoPydantic_lawful Sample.asked
  exact ⟨haccepts.mp ⟨_, hbuild⟩, hbuild, hagain _ (hvalid _ hbuild)⟩

end FlyDesk
