/-
FlyDesk/Lib/Json.lean

JSON values and objects.  An object is the list of its entries in order, and
a lookup finds the first entry under a name.
-/
import FlyDesk.Lib.Decimal

namespace Lib

/-- A JSON value. -/
inductive Json
  | null
  | bool (b : Bool)
  | num (n : Decimal)
  | str (s : String)
  | arr (items : List Json)
  | obj (entries : List (String × Json))

/-- The entries of an object. -/
abbrev Dict := List (String × Json)

/-- The value under a name, if there is one. -/
def Dict.get? (d : Dict) (name : String) : Option Json :=
  d.lookup name

/-- A string or null. -/
def Json.ofOption : Option String → Json
  | none => .null
  | some s => .str s

@[simp] theorem Dict.get?_cons_self (d : Dict) (name : String) (v : Json) :
    Dict.get? ((name, v) :: d) name = some v := by
  simp [Dict.get?]

/-- An entry under another key is passed over. -/
theorem lookup_cons_of_ne {κ α : Type*} [DecidableEq κ] {k k' : κ} {v : α} {d : List (κ × α)}
    (h : k ≠ k') : ((k', v) :: d).lookup k = d.lookup k := by
  rw [List.lookup_cons, beq_eq_false_iff_ne.mpr h]

@[simp] theorem Dict.get?_cons_of_ne {d : Dict} {name other : String} {v : Json}
    (h : name ≠ other) : Dict.get? ((other, v) :: d) name = d.get? name :=
  lookup_cons_of_ne h

/-- The text of a value that is a string. -/
def Json.text? : Json → Option String
  | .str s => some s
  | _ => none

@[simp] theorem Json.text?_str (s : String) : (Json.str s).text? = some s := rfl

end Lib
