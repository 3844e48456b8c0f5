/-
FlyDesk/Lib/Decimal.lean

Decimal numbers as a sign, a coefficient and a power of ten, the way an
arbitrary-precision decimal type stores them: 12.50 and 12.5 are different
numbers with the same value.

`quantize p` rounds to `p` places after the point, halves to even, and
`fixedText p` writes the result with exactly `p` digits after the point.
`parse_fixedText` says a quantised number is read back from its text as it
was, so rounding loses nothing the second time (`parse_format`).
-/
import Mathlib.Algebra.Group.Nat.Defs
import Mathlib.Data.List.TakeWhile
import Mathlib.Tactic.Common

namespace Lib

/-- The number `± coefficient · 10 ^ exponent`; `sign` is true for minus. -/
structure Decimal where
  sign : Bool
  coefficient : ℕ
  exponent : ℤ
deriving DecidableEq, Repr

namespace Decimal

/-! ### Rounding -/

/-- `n / m` rounded to the nearest integer, halves to even. -/
def divHalfEven (n m : ℕ) : ℕ :=
  let q := n / m
  let r := n % m
  if 2 * r < m then q
  else if m < 2 * r then q + 1
  else if q % 2 = 0 then q else q + 1

/-- The number with `p` places after the point, rounded half to even. -/
def quantize (p : ℕ) (d : Decimal) : Decimal where
  sign := d.sign
  coefficient :=
    if -p ≤ d.exponent then d.coefficient * 10 ^ (d.exponent + p).toNat
    else divHalfEven d.coefficient (10 ^ (-p - d.exponent).toNat)
  exponent := -p

@[simp] theorem exponent_quantize (p : ℕ) (d : Decimal) :
    (quantize p d).exponent = -p := rfl

/-- A number that has `p` places already is not changed. -/
theorem quantize_of_exponent {p : ℕ} {d : Decimal} (h : d.exponent = -p) :
    quantize p d = d := by
  obtain ⟨s, c, e⟩ := d
  obtain rfl : e = -p := h
  have h0 : (-(p : ℤ) + p).toNat = 0 := by omega
  rw [quantize]
  simp only [h0]
  simp

/-! ### Text -/

/-- `n` in decimal, filled with zeros on the left up to `p` digits. -/
def padded (p n : ℕ) : List Char :=
  List.replicate (p - (Nat.toDigits 10 n).length) '0' ++ Nat.toDigits 10 n

/-- The text of a number with `p` places after the point. -/
def fixedText (p : ℕ) (d : Decimal) : List Char :=
  (if d.sign then ['-'] else []) ++
    (Nat.toDigits 10 (d.coefficient / 10 ^ p) ++
      if p = 0 then [] else '.' :: padded p (d.coefficient % 10 ^ p))

/-- Splits off the sign. -/
def signOf : List Char → Bool × List Char
  | '-' :: cs => (true, cs)
  | '+' :: cs => (false, cs)
  | cs => (false, cs)

/-- The power of ten after the digits: nothing, or `e` and an integer. -/
def exponentOf : List Char → Option ℤ
  | [] => some 0
  | c :: cs =>
    if c = 'e' ∨ c = 'E' then
      let (neg, ds) := signOf cs
      if ds = [] ∨ ¬ ds.all Char.isDigit then none
      else some (if neg then -(Nat.ofDigitChars 10 ds 0 : ℤ) else Nat.ofDigitChars 10 ds 0)
    else none

/-- The digits after the point, and what follows them. -/
def fractionOf : List Char → List Char × List Char
  | '.' :: cs => (cs.takeWhile Char.isDigit, cs.dropWhile Char.isDigit)
  | cs => ([], cs)

/-- Reads a finite number: a sign, digits with an optional point, and an
optional power of ten. -/
def parse (text : List Char) : Option Decimal :=
  let (sign, cs) := signOf text
  let whole := cs.takeWhile Char.isDigit
  let (frac, rest) := fractionOf (cs.dropWhile Char.isDigit)
  match exponentOf rest with
  | none => none
  | some e =>
    if whole = [] ∧ frac = [] then none
    else some ⟨sign, Nat.ofDigitChars 10 (whole ++ frac) 0, e - frac.length⟩

/-! ### Reading back what was written -/

theorem isDigit_toDigits (n : ℕ) : ∀ c ∈ Nat.toDigits 10 n, c.isDigit = true :=
  fun _ hc => Nat.isDigit_of_mem_toDigits (by decide) (by decide) hc

theorem isDigit_padded (p n : ℕ) : ∀ c ∈ padded p n, c.isDigit = true := by
  intro c hc
  rcases List.mem_append.mp hc with hc | hc
  · rw [List.eq_of_mem_replicate hc]
    decide
  · exact isDigit_toDigits n c hc

theorem length_padded {p n : ℕ} (hp : 0 < p) (h : n < 10 ^ p) :
    (padded p n).length = p := by
  have hle := (Nat.length_toDigits_le_iff (b := 10) (by decide) hp).mpr h
  simp [padded]
  omega

theorem ofDigitChars_padded (p n k : ℕ) :
    Nat.ofDigitChars 10 (padded p n) k
      = 10 ^ (padded p n).length * k + n := by
  rw [Nat.ofDigitChars_eq_ofDigitChars_zero, padded, Nat.ofDigitChars_append]
  simp

/-- Text that starts with a digit has no sign. -/
theorem signOf_digits {ds : List Char} (hne : ds ≠ [])
    (hd : ∀ c ∈ ds, c.isDigit = true) (cs : List Char) :
    signOf (ds ++ cs) = (false, ds ++ cs) := by
  rcases ds with - | ⟨c, ds⟩
  · exact absurd rfl hne
  · have hc := hd c (by simp)
    rw [List.cons_append]
    unfold signOf
    split
    · rename_i heq
      obtain rfl := (List.cons.inj heq).1
      exact absurd hc (by decide)
    · rename_i heq
      obtain rfl := (List.cons.inj heq).1
      exact absurd hc (by decide)
    · rfl

/-- The sign, the digits and the power of ten of a written number. -/
theorem signOf_fixedText (p : ℕ) (d : Decimal) :
    signOf (fixedText p d) = (d.sign, Nat.toDigits 10 (d.coefficient / 10 ^ p) ++
      if p = 0 then [] else '.' :: padded p (d.coefficient % 10 ^ p)) := by
  rcases hs : d.sign with - | -
  · have h := signOf_digits Nat.toDigits_ne_nil (isDigit_toDigits (d.coefficient / 10 ^ p))
    simpa [fixedText, hs] using h _
  · simp [fixedText, hs, signOf]

/-- **A number with `p` places is read back from its text.** -/
theorem parse_fixedText {p : ℕ} {d : Decimal} (h : d.exponent = -p) :
    parse (fixedText p d) = some d := by
  obtain ⟨s, c, e⟩ := d
  obtain rfl : e = -p := h
  have hw := isDigit_toDigits (c / 10 ^ p)
  rcases Nat.eq_zero_or_pos p with rfl | hp
  · have htake := List.takeWhile_eq_self_iff.mpr hw
    have hdrop := List.dropWhile_eq_nil_iff.mpr hw
    simp only [Nat.pow_zero, Nat.div_one] at htake hdrop
    simp [parse, signOf_fixedText, htake, hdrop, fractionOf, exponentOf]
  · have hlt : c % 10 ^ p < 10 ^ p := Nat.mod_lt _ (Nat.pow_pos (by decide))
    have hf := isDigit_padded p (c % 10 ^ p)
    have htake : (padded p (c % 10 ^ p)).takeWhile Char.isDigit
        = padded p (c % 10 ^ p) := List.takeWhile_eq_self_iff.mpr hf
    have hdrop : (padded p (c % 10 ^ p)).dropWhile Char.isDigit = [] :=
      List.dropWhile_eq_nil_iff.mpr hf
    have hpoint : ('.' : Char).isDigit = false := by decide
    have hvalue : Nat.ofDigitChars 10
        (Nat.toDigits 10 (c / 10 ^ p) ++ padded p (c % 10 ^ p)) 0 = c := by
      rw [Nat.ofDigitChars_append, Nat.ofDigitChars_ten_toDigits, ofDigitChars_padded,
        length_padded hp hlt]
      exact Nat.div_add_mod c (10 ^ p)
    simp [parse, signOf_fixedText, Nat.ne_of_gt hp, List.takeWhile_append_of_pos hw,
      List.dropWhile_append_of_pos hw, hpoint, fractionOf, htake, hdrop, exponentOf, hvalue,
      length_padded hp hlt]

/-- Rounding to `p` places and writing the result. -/
def format (p : ℕ) (d : Decimal) : List Char :=
  fixedText p (quantize p d)

theorem parse_format (p : ℕ) (d : Decimal) :
    parse (format p d) = some (quantize p d) :=
  parse_fixedText rfl

/-- Writing a number that was read back gives the same text. -/
theorem format_quantize (p : ℕ) (d : Decimal) :
    format p (quantize p d) = format p d := by
  rw [format, quantize_of_exponent (exponent_quantize p d), ← format]

example : format 2 ⟨false, 2675, -3⟩ = "2.68".toList := by decide
example : format 2 ⟨true, 1, -3⟩ = "-0.00".toList := by decide

end Decimal

end Lib
