/-
FlyDesk/Lib/JsonText.lean

JSON values as text, and back.  `Json.write` is a writer that puts one line
out; a style says whether a space follows each comma and colon, and whether
characters outside ASCII are escaped.  `Json.read` is a reader that takes any
spacing and any escapes.

`Json.read_write` says that a value is read back from its text as it was, in
every style, so the text of a value determines it.  Numbers are those written
without a power of ten.
-/
import FlyDesk.Lib.Schema

namespace Lib

namespace Json

/-- How a value is laid out. -/
structure Style where
  /-- The number of spaces after a comma and after a colon. -/
  gap : ℕ
  /-- Characters outside ASCII are escaped. -/
  ascii : Bool

/-! ### Characters -/

def hexDigit (n : ℕ) : Char :=
  if n < 10 then Char.ofNat (48 + n) else Char.ofNat (87 + n)

def hexValue (c : Char) : Option ℕ :=
  if '0' ≤ c ∧ c ≤ '9' then some (c.toNat - 48)
  else if 'a' ≤ c ∧ c ≤ 'f' then some (c.toNat - 87)
  else if 'A' ≤ c ∧ c ≤ 'F' then some (c.toNat - 55)
  else none

/-- A number below 2^16 as an escape. -/
def writeUnit (n : ℕ) : List Char :=
  ['\\', 'u', hexDigit (n / 4096), hexDigit (n / 256 % 16), hexDigit (n / 16 % 16),
    hexDigit (n % 16)]

/-- The four digits of an escape. -/
def readUnit : List Char → Option (ℕ × List Char)
  | a :: b :: c :: d :: cs => do
    let a ← hexValue a
    let b ← hexValue b
    let c ← hexValue c
    let d ← hexValue d
    some (a * 4096 + b * 256 + c * 16 + d, cs)
  | _ => none

/-- The characters with an escape of their own, and the letters that stand for
them. -/
def escapes : List (Char × Char) :=
  [('"', '"'), ('\\', '\\'), ('\n', 'n'), ('\r', 'r'), ('\t', 't'), ('\x08', 'b'),
    ('\x0c', 'f')]

/-- A character of a string.  What is beyond 16 bits is a pair of escapes. -/
def writeChar (ascii : Bool) (c : Char) : List Char :=
  match escapes.lookup c with
  | some d => ['\\', d]
  | none =>
    if c.toNat < 0x20 then writeUnit c.toNat
    else if ascii = true ∧ 0x7f ≤ c.toNat then
      if c.toNat < 0x10000 then writeUnit c.toNat
      else writeUnit (0xd800 + (c.toNat - 0x10000) / 0x400) ++
        writeUnit (0xdc00 + (c.toNat - 0x10000) % 0x400)
    else [c]

/-- The character after a backslash. -/
def unescape (d : Char) : Option Char :=
  if d = '/' then some '/' else (escapes.find? fun e => e.2 = d).map Prod.fst

/-- The second escape of a pair. -/
def readLow (high : ℕ) : List Char → Option (Char × List Char)
  | '\\' :: 'u' :: cs => do
    let (low, cs) ← readUnit cs
    if 0xdc00 ≤ low ∧ low < 0xe000 then
      some (Char.ofNat (0x10000 + (high - 0xd800) * 0x400 + (low - 0xdc00)), cs)
    else none
  | _ => none

/-- The next character of a string.  Half a pair is not a character. -/
def readChar : List Char → Option (Char × List Char)
  | '\\' :: 'u' :: cs => do
    let (n, cs) ← readUnit cs
    if 0xd800 ≤ n ∧ n < 0xdc00 then readLow n cs
    else if 0xdc00 ≤ n ∧ n < 0xe000 then none
    else some (Char.ofNat n, cs)
  | '\\' :: c :: cs => (unescape c).map fun c => (c, cs)
  | c :: cs => if c.toNat < 0x20 then none else some (c, cs)
  | [] => none

theorem hexValue_hexDigit : ∀ n < 16, hexValue (hexDigit n) = some n := by decide

theorem readUnit_writeUnit {n : ℕ} (h : n < 65536) (rest : List Char) :
    readUnit ((writeUnit n).drop 2 ++ rest) = some (n, rest) := by
  have ha := hexValue_hexDigit (n / 4096) (by omega)
  have hb := hexValue_hexDigit (n / 256 % 16) (by omega)
  have hc := hexValue_hexDigit (n / 16 % 16) (by omega)
  have hd := hexValue_hexDigit (n % 16) (by omega)
  have hn : n / 4096 * 4096 + n / 256 % 16 * 256 + n / 16 % 16 * 16 + n % 16 = n := by omega
  simp [writeUnit, readUnit, ha, hb, hc, hd, hn]

/-- A character is no half of a pair. -/
theorem not_surrogate (c : Char) : ¬ (0xd800 ≤ c.toNat ∧ c.toNat < 0xe000) := by
  have hv := c.valid
  have ht : c.toNat = c.val.toNat := rfl
  rcases hv with hv | ⟨hv, -⟩ <;> omega

theorem toNat_lt (c : Char) : c.toNat < 0x110000 := by
  have hv := c.valid
  have ht : c.toNat = c.val.toNat := rfl
  rcases hv with hv | ⟨-, hv⟩ <;> omega

theorem readChar_unit {n : ℕ} (h : n < 65536) (hs : ¬ (0xd800 ≤ n ∧ n < 0xe000))
    (rest : List Char) : readChar (writeUnit n ++ rest) = some (Char.ofNat n, rest) := by
  have hu := readUnit_writeUnit h rest
  have hhigh : ¬ (0xd800 ≤ n ∧ n < 0xdc00) := by omega
  have hlow : ¬ (0xdc00 ≤ n ∧ n < 0xe000) := by omega
  show (do let (n, cs) ← readUnit ((writeUnit n).drop 2 ++ rest); _) = _
  rw [hu]
  simp [hhigh, hlow]

theorem readChar_high {n : ℕ} (h : 0xd800 ≤ n ∧ n < 0xdc00) (cs : List Char) :
    readChar (writeUnit n ++ cs) = readLow n cs := by
  have hu := readUnit_writeUnit (n := n) (by omega) cs
  show (do let (n, cs) ← readUnit ((writeUnit n).drop 2 ++ cs); _) = _
  rw [hu]
  simp [h]

theorem readLow_writeUnit {high low : ℕ} (h : 0xdc00 ≤ low ∧ low < 0xe000)
    (rest : List Char) : readLow high (writeUnit low ++ rest) =
      some (Char.ofNat (0x10000 + (high - 0xd800) * 0x400 + (low - 0xdc00)), rest) := by
  have hu := readUnit_writeUnit (n := low) (by omega) rest
  show (do let (n, cs) ← readUnit ((writeUnit low).drop 2 ++ rest); _) = _
  rw [hu]
  simp [h]

/-- A pair is read as its character. -/
theorem readChar_pair {c : Char} (h : ¬ c.toNat < 0x10000) (rest : List Char) :
    readChar (writeUnit (0xd800 + (c.toNat - 0x10000) / 0x400) ++
      writeUnit (0xdc00 + (c.toNat - 0x10000) % 0x400) ++ rest) = some (c, rest) := by
  have hlt := toNat_lt c
  have hc : 0x10000 + (0xd800 + (c.toNat - 0x10000) / 0x400 - 0xd800) * 0x400 +
      (0xdc00 + (c.toNat - 0x10000) % 0x400 - 0xdc00) = c.toNat := by omega
  rw [List.append_assoc, readChar_high (by omega), readLow_writeUnit (by omega), hc,
    Char.ofNat_toNat]

theorem unescape_of_lookup {c d : Char} (h : escapes.lookup c = some d) :
    d ≠ 'u' ∧ unescape d = some c := by
  have hall : ∀ e ∈ escapes, e.2 ≠ 'u' ∧ unescape e.2 = some e.1 := by decide
  obtain ⟨l₁, l₂, he, -⟩ := List.lookup_eq_some_iff.mp h
  exact hall (c, d) (by simp [he])

theorem readChar_escape {d : Char} (hu : d ≠ 'u') (cs : List Char) :
    readChar ('\\' :: d :: cs) = (unescape d).map fun c => (c, cs) := by
  rw [readChar.eq_def]
  split
  · rename_i heq
    exact absurd (List.cons.inj (List.cons.inj heq).2).1 hu
  · rename_i heq
    obtain ⟨rfl, rfl⟩ := List.cons.inj (List.cons.inj heq).2
    rfl
  · rename_i hno heq
    obtain ⟨rfl, rfl⟩ := List.cons.inj heq
    exact absurd rfl (hno d cs rfl)
  · rename_i heq
    cases heq

theorem readChar_plain {c : Char} (hc : c ≠ '\\') (h : ¬ c.toNat < 0x20) (cs : List Char) :
    readChar (c :: cs) = some (c, cs) := by
  rw [readChar.eq_def]
  split
  · rename_i heq
    exact absurd (List.cons.inj heq).1 hc
  · rename_i heq
    exact absurd (List.cons.inj heq).1 hc
  · rename_i heq
    obtain ⟨rfl, rfl⟩ := List.cons.inj heq
    rw [if_neg h]
  · rename_i heq
    cases heq

/-- **A character is read back as it was.** -/
theorem readChar_writeChar (ascii : Bool) (c : Char) (rest : List Char) :
    readChar (writeChar ascii c ++ rest) = some (c, rest) := by
  rw [writeChar]
  split
  · -- it has an escape of its own
    rename_i d hd
    obtain ⟨hu, hc⟩ := unescape_of_lookup hd
    show readChar ('\\' :: d :: rest) = _
    rw [readChar_escape hu, hc]
    rfl
  · rename_i hnone
    have hc : c ≠ '\\' := by
      rintro rfl
      cases hnone
    by_cases hctl : c.toNat < 0x20
    · rw [if_pos hctl, readChar_unit (by omega) (by omega), Char.ofNat_toNat]
    rw [if_neg hctl]
    by_cases hascii : ascii = true ∧ 0x7f ≤ c.toNat
    · rw [if_pos hascii]
      by_cases hwide : c.toNat < 0x10000
      · -- one unit, which starts no pair
        rw [if_pos hwide, readChar_unit (by omega) (not_surrogate c), Char.ofNat_toNat]
      · rw [if_neg hwide]
        exact readChar_pair hwide rest
    · rw [if_neg hascii]
      exact readChar_plain hc hctl rest

/-- The text of a character does not end a string. -/
theorem writeChar_head (ascii : Bool) (c : Char) :
    ∃ d ds, writeChar ascii c = d :: ds ∧ d ≠ '"' := by
  rw [writeChar]
  split
  · exact ⟨_, _, rfl, by decide⟩
  · rename_i hnone
    have hc : c ≠ '"' := by
      rintro rfl
      cases hnone
    split_ifs
    · exact ⟨_, _, rfl, by decide⟩
    · exact ⟨_, _, rfl, by decide⟩
    · exact ⟨_, _, rfl, by decide⟩
    · exact ⟨_, _, rfl, hc⟩

/-! ### Strings -/

/-- The rest of a string, with its closing quote. -/
def writeString (ascii : Bool) : List Char → List Char
  | [] => ['"']
  | c :: cs => writeChar ascii c ++ writeString ascii cs

/-- Reads up to the closing quote; `n` bounds the number of characters. -/
def readString : ℕ → List Char → Option (List Char × List Char)
  | _, [] => none
  | 0, '"' :: cs => some ([], cs)
  | 0, _ => none
  | n + 1, c :: cs =>
    if c = '"' then some ([], cs)
    else do
      let (d, cs) ← readChar (c :: cs)
      let (ds, cs) ← readString n cs
      some (d :: ds, cs)

theorem readString_writeString (ascii : Bool) (rest : List Char) : ∀ (n : ℕ) (s : List Char),
    s.length ≤ n → readString n (writeString ascii s ++ rest) = some (s, rest)
  | 0, [], _ => rfl
  | n + 1, [], _ => rfl
  | 0, c :: cs, h => absurd h (Nat.not_succ_le_zero _)
  | n + 1, c :: cs, h => by
    have hread := readChar_writeChar ascii c (writeString ascii cs ++ rest)
    have ih := readString_writeString ascii rest n cs (Nat.le_of_succ_le_succ h)
    obtain ⟨d, ds, hd, hq⟩ := writeChar_head ascii c
    rw [writeString, List.append_assoc, hd, List.cons_append, readString, if_neg hq,
      ← List.cons_append, ← hd, hread]
    simp [ih]

theorem length_le_writeString (ascii : Bool) (s : List Char) :
    s.length < (writeString ascii s).length := by
  induction s with
  | nil => exact Nat.one_pos
  | cons c cs ih =>
      obtain ⟨d, ds, hd, -⟩ := writeChar_head ascii c
      rw [writeString, List.length_append, hd, List.length_cons, List.length_cons]
      omega

/-! ### Numbers -/

/-- The characters numbers are written with. -/
def isNumberChar (c : Char) : Bool :=
  c.isDigit || c == '-' || c == '+' || c == '.' || c == 'e' || c == 'E'

/-- A number without a power of ten. -/
def writeNumber (d : Decimal) : List Char := d.fixedText (-d.exponent).toNat

/-- The word for a value. -/
def readWord (word : List Char) (v : Json) (cs : List Char) : Option (Json × List Char) :=
  if word.isPrefixOf cs then some (v, cs.drop word.length) else none

/-- A literal or a number. -/
def readScalar (cs : List Char) : Option (Json × List Char) :=
  (readWord ['n', 'u', 'l', 'l'] .null cs).or <|
    (readWord ['t', 'r', 'u', 'e'] (.bool true) cs).or <|
    (readWord ['f', 'a', 'l', 's', 'e'] (.bool false) cs).or <|
    (Decimal.parse (cs.takeWhile isNumberChar)).map fun d =>
      (.num d, cs.dropWhile isNumberChar)

/-- What follows a value: nothing that could belong to a number. -/
def Stops (rest : List Char) : Prop := ∀ c, rest.head? = some c → isNumberChar c = false

theorem stops_nil : Stops [] := nofun

theorem stops_cons {c : Char} (h : isNumberChar c = false) (cs : List Char) :
    Stops (c :: cs) := by
  intro d hd
  obtain rfl := Option.some.inj hd
  exact h

theorem isNumberChar_of_isDigit {c : Char} (h : c.isDigit = true) : isNumberChar c = true := by
  simp [isNumberChar, h]

theorem isNumberChar_writeNumber (d : Decimal) : ∀ c ∈ writeNumber d, isNumberChar c = true := by
  intro c hc
  rcases List.mem_append.mp hc with hc | hc
  · split at hc
    · obtain rfl := List.mem_singleton.mp hc
      decide
    · cases hc
  · rcases List.mem_append.mp hc with hc | hc
    · exact isNumberChar_of_isDigit (Decimal.isDigit_toDigits _ c hc)
    · split at hc
      · cases hc
      · rcases List.mem_cons.mp hc with rfl | hc
        · decide
        · exact isNumberChar_of_isDigit (Decimal.isDigit_padded _ _ c hc)

theorem writeNumber_ne_nil (d : Decimal) : writeNumber d ≠ [] := by
  simp [writeNumber, Decimal.fixedText, Nat.toDigits_ne_nil]

/-- The text of a number starts like a number. -/
theorem writeNumber_head (d : Decimal) :
    ∃ c cs, writeNumber d = c :: cs ∧ isNumberChar c = true := by
  rcases e : writeNumber d with - | ⟨c, cs⟩
  · exact absurd e (writeNumber_ne_nil d)
  · exact ⟨c, cs, rfl, isNumberChar_writeNumber d c (by simp [e])⟩

theorem readWord_of_ne {c d : Char} (h : c ≠ d) (word : List Char) (v : Json)
    (cs : List Char) : readWord (c :: word) v (d :: cs) = none := by
  have hne : (c == d) = false := by simpa using h
  simp [readWord, List.isPrefixOf, hne]

theorem readScalar_number {c : Char} (h : isNumberChar c = true) (cs : List Char) :
    readScalar (c :: cs) = (Decimal.parse ((c :: cs).takeWhile isNumberChar)).map fun d =>
      (.num d, (c :: cs).dropWhile isNumberChar) := by
  have hne : ∀ d, isNumberChar d = false → d ≠ c := by
    rintro d hd rfl
    rw [h] at hd
    cases hd
  rw [readScalar, readWord_of_ne (hne _ (by decide)), readWord_of_ne (hne _ (by decide)),
    readWord_of_ne (hne _ (by decide)), Option.none_or, Option.none_or, Option.none_or]

/-- **A number is read back as it was.** -/
theorem readScalar_writeNumber {d : Decimal} (h : d.exponent ≤ 0) {rest : List Char}
    (hrest : Stops rest) : readScalar (writeNumber d ++ rest) = some (.num d, rest) := by
  have hall := isNumberChar_writeNumber d
  have htake : (writeNumber d ++ rest).takeWhile isNumberChar = writeNumber d := by
    rw [List.takeWhile_append_of_pos hall]
    rcases rest with - | ⟨r, rest⟩
    · simp
    · simp [hrest r rfl]
  have hdrop : (writeNumber d ++ rest).dropWhile isNumberChar = rest := by
    rw [List.dropWhile_append_of_pos hall]
    rcases rest with - | ⟨r, rest⟩
    · simp
    · simp [hrest r rfl]
  have hparse : Decimal.parse (writeNumber d) = some d := Decimal.parse_fixedText (by omega)
  obtain ⟨c, cs, hc, hnum⟩ := writeNumber_head d
  have hscalar := readScalar_number hnum (cs ++ rest)
  rw [← List.cons_append, ← hc, htake, hdrop, hparse] at hscalar
  exact hscalar

/-! ### Values -/

def isSpace (c : Char) : Bool := c == ' ' || c == '\n' || c == '\r' || c == '\t'

def skip (cs : List Char) : List Char := cs.dropWhile isSpace

mutual
def write (σ : Style) : Json → List Char
  | .null => ['n', 'u', 'l', 'l']
  | .bool true => ['t', 'r', 'u', 'e']
  | .bool false => ['f', 'a', 'l', 's', 'e']
  | .num d => writeNumber d
  | .str s => '"' :: writeString σ.ascii s.toList
  | .arr items => '[' :: writeItems σ true items
  | .obj entries => '\x7b' :: writeEntries σ true entries

/-- The items of a list with its closing bracket. -/
def writeItems (σ : Style) (first : Bool) : List Json → List Char
  | [] => [']']
  | v :: vs => (if first then [] else ',' :: List.replicate σ.gap ' ') ++
      (write σ v ++ writeItems σ false vs)

/-- The entries of an object with its closing brace. -/
def writeEntries (σ : Style) (first : Bool) : List (String × Json) → List Char
  | [] => ['\x7d']
  | (k, v) :: es => (if first then [] else ',' :: List.replicate σ.gap ' ') ++
      ('"' :: writeString σ.ascii k.toList ++
        ':' :: (List.replicate σ.gap ' ' ++ (write σ v ++ writeEntries σ false es)))
end

variable (value : List Char → Option (Json × List Char))

/-- Reads items up to the closing bracket, at least one; `n` bounds their
number. -/
def readItems : ℕ → List Char → Option (List Json × List Char)
  | 0, _ => none
  | n + 1, cs => do
    let (v, cs) ← value cs
    match skip cs with
    | ',' :: cs => (readItems n cs).map fun r => (v :: r.1, r.2)
    | ']' :: cs => some ([v], cs)
    | _ => none

/-- Reads a name and its value. -/
def readEntry (cs : List Char) : Option ((String × Json) × List Char) :=
  match skip cs with
  | '"' :: cs => do
    let (k, cs) ← readString cs.length cs
    match skip cs with
    | ':' :: cs => (value cs).map fun r => ((String.ofList k, r.1), r.2)
    | _ => none
  | _ => none

/-- Reads entries up to the closing brace, at least one; `n` bounds their
number. -/
def readEntries : ℕ → List Char → Option (Dict × List Char)
  | 0, _ => none
  | n + 1, cs => do
    let (e, cs) ← readEntry value cs
    match skip cs with
    | ',' :: cs => (readEntries n cs).map fun r => (e :: r.1, r.2)
    | '\x7d' :: cs => some ([e], cs)
    | _ => none

/-- Reads a value; `n` bounds its size. -/
def readValue : ℕ → List Char → Option (Json × List Char)
  | 0, _ => none
  | n + 1, cs =>
    match skip cs with
    | '"' :: cs => (readString cs.length cs).map fun r => (.str (String.ofList r.1), r.2)
    | '[' :: cs =>
      match skip cs with
      | ']' :: cs => some (.arr [], cs)
      | cs => (readItems (readValue n) n cs).map fun r => (.arr r.1, r.2)
    | '\x7b' :: cs =>
      match skip cs with
      | '\x7d' :: cs => some (.obj [], cs)
      | cs => (readEntries (readValue n) n cs).map fun r => (.obj r.1, r.2)
    | cs => readScalar cs

/-- The value of a text. -/
def read (text : List Char) : Option Json :=
  match readValue (text.length + 1) text with
  | some (v, rest) => if skip rest = [] then some v else none
  | none => none

/-! ### Reading back what was written -/

/-- Induction over the items of lists and the entries of objects. -/
theorem induct {P : Json → Prop} (hnull : P .null) (hbool : ∀ b, P (.bool b))
    (hnum : ∀ d, P (.num d)) (hstr : ∀ s, P (.str s))
    (harr : ∀ items, (∀ v ∈ items, P v) → P (.arr items))
    (hobj : ∀ entries, (∀ e ∈ entries, P e.2) → P (.obj entries)) : ∀ v, P v
  | .null => hnull
  | .bool b => hbool b
  | .num d => hnum d
  | .str s => hstr s
  | .arr items => harr items fun v _ => induct hnull hbool hnum hstr harr hobj v
  | .obj entries => hobj entries fun e _ => induct hnull hbool hnum hstr harr hobj e.2
termination_by v => sizeOf v
decreasing_by
  · have h := List.sizeOf_lt_of_mem ‹_›
    simp only [arr.sizeOf_spec]
    omega
  · have h := List.sizeOf_lt_of_mem ‹_›
    rcases e with ⟨k, v⟩
    simp only [Prod.mk.sizeOf_spec, obj.sizeOf_spec] at h ⊢
    omega

mutual
/-- The numbers in a value are written without a power of ten. -/
def Plain : Json → Prop
  | .num d => d.exponent ≤ 0
  | .arr items => PlainItems items
  | .obj entries => PlainEntries entries
  | _ => True

def PlainItems : List Json → Prop
  | [] => True
  | v :: vs => Plain v ∧ PlainItems vs

def PlainEntries : List (String × Json) → Prop
  | [] => True
  | (_, v) :: es => Plain v ∧ PlainEntries es
end

theorem plain_arr {items : List Json} : Plain (.arr items) ↔ ∀ v ∈ items, Plain v := by
  show PlainItems items ↔ _
  induction items with
  | nil => simp [PlainItems]
  | cons v vs ih => simp [PlainItems, ih]

theorem plain_obj {entries : List (String × Json)} :
    Plain (.obj entries) ↔ ∀ e ∈ entries, Plain e.2 := by
  show PlainEntries entries ↔ _
  induction entries with
  | nil => simp [PlainEntries]
  | cons e es ih => simp [PlainEntries, ih]

@[simp] theorem plain_null : Plain .null := trivial

@[simp] theorem plain_str (s : String) : Plain (.str s) := trivial

@[simp] theorem plain_int (n : ℤ) : Plain (.int n) := Int.le_refl 0

theorem plain_nullable {α : Type} {enc : α → Json} {o : Option α}
    (h : ∀ a, o = some a → Plain (enc a)) : Plain (nullable enc o) := by
  rcases o with - | a
  · exact plain_null
  · exact h a rfl

theorem plain_list {α : Type} {enc : α → Json} {xs : List α} (h : ∀ a ∈ xs, Plain (enc a)) :
    Plain (list enc xs) := by
  refine plain_arr.mpr fun v hv => ?_
  obtain ⟨a, ha, rfl⟩ := List.mem_map.mp hv
  exact h a ha

mutual
/-- The number of values in a value. -/
def size : Json → ℕ
  | .arr items => 1 + sizeItems items
  | .obj entries => 1 + sizeEntries entries
  | _ => 1

def sizeItems : List Json → ℕ
  | [] => 0
  | v :: vs => size v + sizeItems vs

def sizeEntries : List (String × Json) → ℕ
  | [] => 0
  | (_, v) :: es => size v + sizeEntries es
end

theorem size_pos (v : Json) : 0 < size v := by
  cases v <;> simp only [size] <;> omega

variable {σ : Style}

/-- A value starts with neither a space nor a closing bracket. -/
theorem write_head (v : Json) : ∃ c cs, write σ v = c :: cs ∧ isSpace c = false ∧ c ≠ ']' := by
  rcases v with - | b | d | s | items | entries
  · exact ⟨_, _, rfl, by decide, by decide⟩
  · cases b
    · exact ⟨_, _, rfl, by decide, by decide⟩
    · exact ⟨_, _, rfl, by decide, by decide⟩
  · obtain ⟨c, cs, hc, hnum⟩ := writeNumber_head d
    have hne : ∀ d, isNumberChar d = false → c ≠ d := by
      rintro d hd rfl
      rw [hnum] at hd
      cases hd
    refine ⟨c, cs, hc, ?_, hne ']' (by decide)⟩
    simp [isSpace, hne ' ' (by decide), hne '\n' (by decide), hne '\r' (by decide),
      hne '\t' (by decide)]
  · exact ⟨_, _, rfl, by decide, by decide⟩
  · exact ⟨_, _, rfl, by decide, by decide⟩
  · exact ⟨_, _, rfl, by decide, by decide⟩

theorem skip_gap (g : ℕ) (cs : List Char) : skip (List.replicate g ' ' ++ cs) = skip cs := by
  induction g with
  | zero => rfl
  | succ g ih =>
      rw [List.replicate_succ, List.cons_append, skip, List.dropWhile_cons_of_pos (by decide)]
      exact ih

theorem readValue_gap (n g : ℕ) (cs : List Char) :
    readValue n (List.replicate g ' ' ++ cs) = readValue n cs := by
  cases n with
  | zero => rfl
  | succ n => rw [readValue, readValue, skip_gap]

theorem readItems_gap (n m g : ℕ) (cs : List Char) :
    readItems (readValue n) m (List.replicate g ' ' ++ cs) = readItems (readValue n) m cs := by
  cases m with
  | zero => rfl
  | succ m => rw [readItems, readItems, readValue_gap]

/-- The items of a list are read back if each of them is. -/
theorem readItems_write {n : ℕ} (rest : List Char) : ∀ (m : ℕ) (v : Json) (vs : List Json),
    (∀ u ∈ v :: vs, ∀ r, Stops r → readValue n (write σ u ++ r) = some (u, r)) →
    vs.length < m →
    readItems (readValue n) m (write σ v ++ (writeItems σ false vs ++ rest)) =
      some (v :: vs, rest)
  | 0, _, _, _, hm => absurd hm (Nat.not_lt_zero _)
  | m + 1, v, [], h, _ => by
    have hv := h v List.mem_cons_self (']' :: rest) (stops_cons (by decide) _)
    show readItems (readValue n) (m + 1) (write σ v ++ (']' :: rest)) = _
    rw [readItems, hv]
    rfl
  | m + 1, v, w :: ws, h, hm => by
    have htext : writeItems σ false (w :: ws) ++ rest = ',' ::
        (List.replicate σ.gap ' ' ++ (write σ w ++ (writeItems σ false ws ++ rest))) := by
      simp [writeItems]
    have hv := h v List.mem_cons_self (writeItems σ false (w :: ws) ++ rest)
      (stops_cons (by decide) _)
    have ih := readItems_write rest m w ws (fun u hu => h u (List.mem_cons_of_mem _ hu))
      (Nat.lt_of_succ_lt_succ hm)
    rw [readItems, hv, htext]
    show (readItems (readValue n) m _).map _ = _
    rw [readItems_gap, ih]
    rfl

theorem readEntries_gap (n m g : ℕ) (cs : List Char) :
    readEntries (readValue n) m (List.replicate g ' ' ++ cs) = readEntries (readValue n) m cs := by
  cases m with
  | zero => rfl
  | succ m => rw [readEntries, readEntries, readEntry, readEntry, skip_gap]

/-- The text of an entry. -/
def writeEntry (σ : Style) (e : String × Json) : List Char :=
  '"' :: writeString σ.ascii e.1.toList ++ ':' :: (List.replicate σ.gap ' ' ++ write σ e.2)

theorem readEntry_write {n : ℕ} {e : String × Json} {rest : List Char}
    (h : readValue n (write σ e.2 ++ rest) = some (e.2, rest)) :
    readEntry (readValue n) (writeEntry σ e ++ rest) = some (e, rest) := by
  obtain ⟨k, v⟩ := e
  have hlen := length_le_writeString σ.ascii k.toList
  have hkey := readString_writeString σ.ascii
    (':' :: (List.replicate σ.gap ' ' ++ (write σ v ++ rest)))
    (writeString σ.ascii k.toList ++
      ':' :: (List.replicate σ.gap ' ' ++ (write σ v ++ rest))).length k.toList
    (by rw [List.length_append]; omega)
  have htext : writeEntry σ (k, v) ++ rest = '"' :: (writeString σ.ascii k.toList ++
      ':' :: (List.replicate σ.gap ' ' ++ (write σ v ++ rest))) := by
    simp [writeEntry]
  rw [htext]
  show (readString _ _).bind _ = _
  rw [hkey]
  show (readValue n _).map _ = _
  rw [readValue_gap, h, String.ofList_toList]
  rfl

theorem writeEntries_cons (first : Bool) (e : String × Json) (es : List (String × Json)) :
    writeEntries σ first (e :: es) = (if first then [] else ',' :: List.replicate σ.gap ' ') ++
      (writeEntry σ e ++ writeEntries σ false es) := by
  obtain ⟨k, v⟩ := e
  simp [writeEntries, writeEntry]

/-- The entries of an object are read back if the value of each is. -/
theorem readEntries_write {n : ℕ} (rest : List Char) :
    ∀ (m : ℕ) (e : String × Json) (es : List (String × Json)),
    (∀ u ∈ e :: es, ∀ r, Stops r → readValue n (write σ u.2 ++ r) = some (u.2, r)) →
    es.length < m →
    readEntries (readValue n) m (writeEntry σ e ++ (writeEntries σ false es ++ rest)) =
      some (e :: es, rest)
  | 0, _, _, _, hm => absurd hm (Nat.not_lt_zero _)
  | m + 1, e, [], h, _ => by
    have he := readEntry_write (h e List.mem_cons_self ('\x7d' :: rest) (stops_cons (by decide) _))
    show readEntries (readValue n) (m + 1) (writeEntry σ e ++ ('\x7d' :: rest)) = _
    rw [readEntries, he]
    rfl
  | m + 1, e, f :: fs, h, hm => by
    have htext : writeEntries σ false (f :: fs) ++ rest = ',' ::
        (List.replicate σ.gap ' ' ++ (writeEntry σ f ++ (writeEntries σ false fs ++ rest))) := by
      simp [writeEntries_cons]
    have he := readEntry_write (h e List.mem_cons_self (writeEntries σ false (f :: fs) ++ rest)
      (htext ▸ stops_cons (by decide) _))
    have ih := readEntries_write rest m f fs (fun u hu => h u (List.mem_cons_of_mem _ hu))
      (Nat.lt_of_succ_lt_succ hm)
    rw [readEntries, he, htext]
    show (readEntries (readValue n) m _).map _ = _
    rw [readEntries_gap, ih]
    rfl

theorem length_le_sizeItems (items : List Json) : items.length ≤ sizeItems items := by
  induction items with
  | nil => exact Nat.le_refl 0
  | cons v vs ih =>
      have hv := size_pos v
      rw [List.length_cons, sizeItems]
      omega

theorem size_le_sizeItems {items : List Json} : ∀ v ∈ items, size v ≤ sizeItems items := by
  induction items with
  | nil => simp
  | cons w ws ih =>
      intro v hv
      rw [sizeItems]
      rcases List.mem_cons.mp hv with rfl | hv
      · omega
      · have := ih v hv
        omega

theorem length_le_sizeEntries (entries : List (String × Json)) :
    entries.length ≤ sizeEntries entries := by
  induction entries with
  | nil => exact Nat.le_refl 0
  | cons e es ih =>
      have he := size_pos e.2
      rw [List.length_cons, sizeEntries]
      omega

theorem size_le_sizeEntries {entries : List (String × Json)} :
    ∀ e ∈ entries, size e.2 ≤ sizeEntries entries := by
  induction entries with
  | nil => simp
  | cons f fs ih =>
      intro e he
      rw [sizeEntries]
      rcases List.mem_cons.mp he with rfl | he
      · omega
      · have := ih e he
        omega

theorem readValue_number (n : ℕ) {c : Char} (hs : isSpace c = false)
    (h : isNumberChar c = true) (cs : List Char) :
    readValue (n + 1) (c :: cs) = readScalar (c :: cs) := by
  have hskip : skip (c :: cs) = c :: cs := List.dropWhile_cons_of_neg (by simp [hs])
  rw [readValue, hskip]
  split
  case h_4 => rfl
  all_goals
    rename_i heq
    obtain ⟨rfl, -⟩ := List.cons.inj heq
    cases h

theorem readValue_arr (n : ℕ) {c : Char} (hs : isSpace c = false) (h : c ≠ ']')
    (cs : List Char) : readValue (n + 1) ('[' :: c :: cs) =
      (readItems (readValue n) n (c :: cs)).map fun r => (.arr r.1, r.2) := by
  have hskip : skip (c :: cs) = c :: cs := List.dropWhile_cons_of_neg (by simp [hs])
  rw [readValue, show skip ('[' :: c :: cs) = '[' :: c :: cs from rfl]
  show (match skip (c :: cs) with
    | ']' :: cs => some (Json.arr [], cs)
    | cs => (readItems (readValue n) n cs).map
        fun r : List Json × List Char => (Json.arr r.1, r.2)) = _
  rw [hskip]
  split
  · rename_i heq
    exact absurd (List.cons.inj heq).1 h
  · rfl

theorem readValue_str (n : ℕ) (cs : List Char) : readValue (n + 1) ('"' :: cs) =
    (readString cs.length cs).map fun r => (.str (String.ofList r.1), r.2) := rfl

theorem readValue_obj (n : ℕ) (cs : List Char) : readValue (n + 1) ('\x7b' :: '"' :: cs) =
    (readEntries (readValue n) n ('"' :: cs)).map fun r => (.obj r.1, r.2) := rfl

/-- A list is read back if its items are. -/
theorem readValue_items {n : ℕ} (rest : List Char) {v : Json} {vs : List Json}
    (h : ∀ u ∈ v :: vs, ∀ r, Stops r → readValue n (write σ u ++ r) = some (u, r))
    (hlen : vs.length < n) :
    readValue (n + 1) (write σ (.arr (v :: vs)) ++ rest) = some (.arr (v :: vs), rest) := by
  have hitems := readItems_write rest n v vs h hlen
  obtain ⟨c, cs, hc, hs, hne⟩ := write_head (σ := σ) v
  have htext : write σ (.arr (v :: vs)) ++ rest =
      '[' :: (write σ v ++ (writeItems σ false vs ++ rest)) := by
    simp [write, writeItems]
  rw [htext, hc, List.cons_append, readValue_arr n hs hne, ← List.cons_append, ← hc, hitems]
  rfl

/-- An object is read back if the values of its entries are. -/
theorem readValue_entries {n : ℕ} (rest : List Char) {e : String × Json}
    {es : List (String × Json)}
    (h : ∀ u ∈ e :: es, ∀ r, Stops r → readValue n (write σ u.2 ++ r) = some (u.2, r))
    (hlen : es.length < n) :
    readValue (n + 1) (write σ (.obj (e :: es)) ++ rest) = some (.obj (e :: es), rest) := by
  have hentries := readEntries_write rest n e es h hlen
  have htext : write σ (.obj (e :: es)) ++ rest =
      '\x7b' :: (writeEntry σ e ++ (writeEntries σ false es ++ rest)) := by
    simp [write, writeEntries_cons]
  obtain ⟨cs, hcs⟩ : ∃ cs,
      writeEntry σ e ++ (writeEntries σ false es ++ rest) = '"' :: cs := ⟨_, rfl⟩
  rw [htext, hcs, readValue_obj, ← hcs, hentries]
  rfl

/-- **A value is read back as it was, whatever follows it.** -/
theorem readValue_write (v : Json) : ∀ (n : ℕ) (rest : List Char), Plain v → size v ≤ n →
    Stops rest → readValue n (write σ v ++ rest) = some (v, rest) := by
  -- the size of a value is fuel enough, and it is never 0
  induction v using induct with
  | hnull =>
      rintro (- | n) rest - hn -
      · cases hn
      · rfl
  | hbool b =>
      rintro (- | n) rest - hn -
      · cases hn
      · cases b <;> rfl
  | hnum d =>
      rintro (- | n) rest hplain hn hrest
      · cases hn
      · obtain ⟨c, cs, hc, hs, -⟩ := write_head (σ := σ) (.num d)
        have hnum : isNumberChar c = true := isNumberChar_writeNumber d c
          (show c ∈ write σ (.num d) by simp [hc])
        rw [hc, List.cons_append, readValue_number n hs hnum, ← List.cons_append, ← hc]
        exact readScalar_writeNumber hplain hrest
  | hstr s =>
      rintro (- | n) rest - hn -
      · cases hn
      · have hlen := length_le_writeString σ.ascii s.toList
        have hs := readString_writeString σ.ascii rest
          (writeString σ.ascii s.toList ++ rest).length s.toList
          (by rw [List.length_append]; omega)
        rw [write, List.cons_append, readValue_str, hs, Option.map_some, String.ofList_toList]
  | harr items ih =>
      rintro (- | n) rest hplain hn hrest
      · simp [size] at hn
      · rcases items with - | ⟨v, vs⟩
        · rfl
        · -- the items are smaller than the list, and there is fuel for each
          have hle : sizeItems (v :: vs) ≤ n := by
            rw [size] at hn
            omega
          have hlen := length_le_sizeItems (v :: vs)
          rw [List.length_cons] at hlen
          exact readValue_items rest (fun u hu r hr => ih u hu n r (plain_arr.mp hplain u hu)
            ((size_le_sizeItems u hu).trans hle) hr) (by omega)
  | hobj entries ih =>
      rintro (- | n) rest hplain hn hrest
      · simp [size] at hn
      · rcases entries with - | ⟨e, es⟩
        · rfl
        · have hle : sizeEntries (e :: es) ≤ n := by
            rw [size] at hn
            omega
          have hlen := length_le_sizeEntries (e :: es)
          rw [List.length_cons] at hlen
          exact readValue_entries rest (fun u hu r hr => ih u hu n r (plain_obj.mp hplain u hu)
            ((size_le_sizeEntries u hu).trans hle) hr) (by omega)

theorem sizeItems_lt_length (first : Bool) (vs : List Json)
    (h : ∀ v ∈ vs, size v ≤ (write σ v).length) :
    sizeItems vs < (writeItems σ first vs).length := by
  induction vs generalizing first with
  | nil => exact Nat.one_pos
  | cons v vs ih =>
      have hv := h v List.mem_cons_self
      have hvs := ih false fun u hu => h u (List.mem_cons_of_mem _ hu)
      rw [writeItems, sizeItems, List.length_append, List.length_append]
      omega

theorem sizeEntries_lt_length (first : Bool) (es : List (String × Json))
    (h : ∀ e ∈ es, size e.2 ≤ (write σ e.2).length) :
    sizeEntries es < (writeEntries σ first es).length := by
  induction es generalizing first with
  | nil => exact Nat.one_pos
  | cons e es ih =>
      have he := h e List.mem_cons_self
      have hes := ih false fun u hu => h u (List.mem_cons_of_mem _ hu)
      rw [writeEntries_cons, sizeEntries, writeEntry]
      simp only [List.length_append, List.length_cons]
      omega

/-- The length of its text is fuel enough for a value. -/
theorem size_le_length (v : Json) : size v ≤ (write σ v).length := by
  induction v using induct with
  | hnull => exact (by decide : 1 ≤ 4)
  | hbool b =>
      cases b
      · exact (by decide : 1 ≤ 5)
      · exact (by decide : 1 ≤ 4)
  | hnum d =>
      obtain ⟨c, cs, hc, -⟩ := write_head (σ := σ) (.num d)
      rw [hc]
      exact Nat.succ_pos cs.length
  | hstr s => exact Nat.succ_pos _
  | harr items ih =>
      have hitems := sizeItems_lt_length (σ := σ) true items ih
      rw [write, List.length_cons, size]
      omega
  | hobj entries ih =>
      have hentries := sizeEntries_lt_length (σ := σ) true entries ih
      rw [write, List.length_cons, size]
      omega

/-- **A value is read back from its text as it was.** -/
theorem read_write {v : Json} (h : Plain v) : read (write σ v) = some v := by
  have hread := readValue_write (σ := σ) v ((write σ v).length + 1) [] h
    ((size_le_length v).trans (Nat.le_succ _)) stops_nil
  rw [List.append_nil] at hread
  rw [read, hread]
  rfl

/-- The text of a value determines it. -/
theorem write_inj {v w : Json} (hv : Plain v) (hw : Plain w) (h : write σ v = write σ w) :
    v = w := by
  have hread := read_write (σ := σ) hv
  rw [h, read_write hw] at hread
  exact (Option.some.inj hread).symm

example : write ⟨1, true⟩ (.obj [("stops", .num ⟨false, 0, 0⟩), ("name", .str "Köln")]) =
    "\x7b\"stops\": 0, \"name\": \"K\\u00f6ln\"\x7d".toList := by decide

end Json

end Lib
