/-
FlyDesk/Lib/Schema.lean

Reading typed data out of JSON.  A decoder is a partial function on JSON
values; `none` says the value does not fit.  The combinators are those of a
declarative schema: nullable values, lists, maps with values of one kind,
objects with required fields and fields that have a default.
-/
import FlyDesk.Lib.Json
import Mathlib.Data.List.Basic

namespace Lib

/-- All of a list can be read: what each item is read as. -/
theorem mapM_eq_some {α β : Type*} {f : α → Option β} {l : List α} {rs : List β} :
    l.mapM f = some rs ↔ l.map f = rs.map some := by
  induction l generalizing rs with
  | nil => rcases rs with - | ⟨r, rs⟩ <;> simp
  | cons a l ih =>
      rw [List.mapM_cons, List.map_cons]
      rcases ea : f a with - | b
      · rcases rs with - | ⟨r, rs⟩ <;> simp
      · rcases rs with - | ⟨r, rs⟩
        · simp [Option.bind_eq_some_iff]
        · simp [Option.bind_eq_some_iff, ih, and_comm]

/-- A reader of JSON values. -/
abbrev Decoder (α : Type) := Json → Option α

namespace Decoder

variable {α β : Type}

/-- A string, and nothing that could be turned into one. -/
def str : Decoder String
  | .str s => some s
  | _ => none

/-- Null, or a value. -/
def nullable (dec : Decoder α) : Decoder (Option α)
  | .null => some none
  | v => (dec v).map some

@[simp] theorem str_str (s : String) : str (.str s) = some s := rfl

@[simp] theorem nullable_null (dec : Decoder α) : nullable dec .null = some none := rfl

/-- A string that stands for a member of an enumeration. -/
def enum (ofValue : String → Option α) : Decoder α := fun v => (str v).bind ofValue

/-- A list of values. -/
def list (dec : Decoder α) : Decoder (List α)
  | .arr items => items.mapM dec
  | _ => none

/-- An object as a map with values of one kind. -/
def dict (dec : Decoder α) : Decoder (List (String × α))
  | .obj entries => entries.mapM fun e => (dec e.2).map fun v => (e.1, v)
  | _ => none

/-- An object that is read field by field. -/
def model (fields : Dict → Option α) : Decoder α
  | .obj entries => fields entries
  | _ => none

@[simp] theorem model_obj (fields : Dict → Option α) (entries : Dict) :
    model fields (.obj entries) = fields entries := rfl

end Decoder

/-- An optional value, null if there is none. -/
def Json.nullable {α : Type} (enc : α → Json) : Option α → Json
  | none => .null
  | some a => enc a

/-- A list of values. -/
def Json.list {α : Type} (enc : α → Json) (xs : List α) : Json := .arr (xs.map enc)

/-- An integer. -/
def Json.int (n : ℤ) : Json := .num ⟨n < 0, n.natAbs, 0⟩

/-- What is written as an optional value is read as one. -/
theorem Decoder.nullable_nullable {α : Type} {dec : Decoder α} {enc : α → Json} {o : Option α}
    (h : ∀ a, o = some a → dec (enc a) = some a ∧ enc a ≠ .null) :
    Decoder.nullable dec (Json.nullable enc o) = some o := by
  rcases o with - | a
  · rfl
  · obtain ⟨ha, hne⟩ := h a rfl
    show Decoder.nullable dec (enc a) = some (some a)
    rw [Decoder.nullable.eq_def]
    split
    · rename_i heq
      exact absurd heq hne
    · rw [ha, Option.map_some]

@[simp] theorem Decoder.nullable_str (o : Option String) :
    Decoder.nullable Decoder.str (Json.nullable .str o) = some o :=
  Decoder.nullable_nullable fun _ _ => ⟨rfl, nofun⟩

/-- What is written as a list is read as one. -/
theorem Decoder.list_list {α β : Type} {dec : Decoder β} {enc : α → Json} {xs : List α}
    {g : α → β} (h : ∀ a ∈ xs, dec (enc a) = some (g a)) :
    Decoder.list dec (Json.list enc xs) = some (xs.map g) := by
  show (xs.map enc).mapM dec = _
  rw [mapM_eq_some, List.map_map, List.map_map]
  exact List.map_congr_left h

theorem Decoder.list_list_self {α : Type} {dec : Decoder α} {enc : α → Json} {xs : List α}
    (h : ∀ a ∈ xs, dec (enc a) = some a) : Decoder.list dec (Json.list enc xs) = some xs := by
  rw [Decoder.list_list h, List.map_id']

theorem Json.nullable_injective {α : Type} {enc : α → Json} (h : Function.Injective enc)
    (hnull : ∀ a, enc a ≠ .null) : Function.Injective (Json.nullable enc) := by
  intro a b hab
  cases a with
  | none =>
      cases b with
      | none => rfl
      | some b => exact absurd hab.symm (hnull b)
  | some a =>
      cases b with
      | none => exact absurd hab (hnull a)
      | some b => exact congrArg some (h hab)

theorem Json.list_injective {α : Type} {enc : α → Json} (h : Function.Injective enc) :
    Function.Injective (Json.list enc) := by
  intro xs ys hxy
  exact List.map_injective_iff.mpr h (Json.arr.inj hxy)

theorem Json.int_injective : Function.Injective Json.int := by
  intro m n hmn
  obtain ⟨hsign, hsize, -⟩ := Decimal.mk.inj (Json.num.inj hmn)
  have hneg : m < 0 ↔ n < 0 := by simpa using hsign
  omega

/-- The value of a field that has an alias: under the alias, else under its
name. -/
def Dict.aliased (d : Dict) (other name : String) : Option Json :=
  (d.get? other).or (d.get? name)

/-- The value of a field, null if it is left out. -/
def Dict.orNull (d : Dict) (name : String) : Json := (d.get? name).getD .null

/-- A field that has to be there. -/
def required {α : Type} (v : Option Json) (dec : Decoder α) : Option α :=
  v.bind dec

/-- A field with a default. -/
def defaulted {α : Type} (v : Option Json) (default : α) (dec : Decoder α) : Option α :=
  match v with
  | none => some default
  | some v => dec v

/-- The object has no other fields than these. -/
def Dict.only (d : Dict) (names : List String) : Bool :=
  d.all fun e => names.contains e.1

end Lib
