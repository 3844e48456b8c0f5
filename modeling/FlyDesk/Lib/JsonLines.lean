/-
FlyDesk/Lib/JsonLines.lean

JSON values one a line.  The text of a value has no control character, so a line end is
never part of it, whatever its strings hold: a stream of values is read back line by
line (`Json.readLines_writeLines`), and lines written later do not change those before
(`Json.writeLines_append`).
-/
import FlyDesk.Lib.JsonText

namespace Lib

namespace Json

/-- No control character. -/
def Visible (cs : List Char) : Prop := ∀ c ∈ cs, 0x20 ≤ c.toNat

instance : DecidablePred Visible :=
  fun cs => List.decidableBAll (fun c : Char => 0x20 ≤ c.toNat) cs

theorem visible_nil : Visible [] := List.forall_mem_nil _

theorem visible_append {cs ds : List Char} : Visible (cs ++ ds) ↔ Visible cs ∧ Visible ds :=
  List.forall_mem_append

theorem visible_cons {c : Char} {cs : List Char} :
    Visible (c :: cs) ↔ 0x20 ≤ c.toNat ∧ Visible cs :=
  List.forall_mem_cons

theorem visible_replicate (n : ℕ) : Visible (List.replicate n ' ') := by
  intro c hc
  rw [List.eq_of_mem_replicate hc]
  decide

/-! ### Text -/

theorem visible_writeUnit {n : ℕ} (h : n < 65536) : Visible (writeUnit n) := by
  have hdigit : ∀ n < 16, 0x20 ≤ (hexDigit n).toNat := by decide
  have ha := hdigit (n / 4096) (by omega)
  have hb := hdigit (n / 256 % 16) (by omega)
  have hc := hdigit (n / 16 % 16) (by omega)
  have hd := hdigit (n % 16) (by omega)
  simp only [Visible, writeUnit, List.forall_mem_cons]
  exact ⟨by decide, by decide, ha, hb, hc, hd, List.forall_mem_nil _⟩

theorem visible_writeChar (ascii : Bool) (c : Char) : Visible (writeChar ascii c) := by
  have hlt := toNat_lt c
  rw [writeChar]
  split
  · rename_i d hd
    have hall : ∀ e ∈ escapes, Visible ['\\', e.2] := by decide
    obtain ⟨l₁, l₂, he, -⟩ := List.lookup_eq_some_iff.mp hd
    exact hall (c, d) (by simp [he])
  · split_ifs with hctl _ hwide
    · exact visible_writeUnit (by omega)
    · exact visible_writeUnit hwide
    · exact visible_append.mpr ⟨visible_writeUnit (by omega), visible_writeUnit (by omega)⟩
    · exact List.forall_mem_singleton.mpr (not_lt.mp hctl)

theorem visible_writeString (ascii : Bool) (s : List Char) : Visible (writeString ascii s) := by
  induction s with
  | nil => exact List.forall_mem_singleton.mpr (by decide)
  | cons c cs ih => exact visible_append.mpr ⟨visible_writeChar ascii c, ih⟩

theorem visible_writeNumber (d : Decimal) : Visible (writeNumber d) := by
  intro c hc
  have hnum := isNumberChar_writeNumber d c hc
  simp only [isNumberChar, Bool.or_eq_true, beq_iff_eq] at hnum
  rcases hnum with ((((hdigit | rfl) | rfl) | rfl) | rfl) | rfl
  case inl =>
    obtain ⟨hlow, -⟩ : '0'.val ≤ c.val ∧ c.val ≤ '9'.val := by simpa [Char.isDigit] using hdigit
    exact le_trans (by decide) (UInt32.le_iff_toNat_le.mp hlow)
  all_goals decide

variable {σ : Style}

theorem visible_writeItems (first : Bool) {vs : List Json}
    (h : ∀ v ∈ vs, Visible (write σ v)) : Visible (writeItems σ first vs) := by
  induction vs generalizing first with
  | nil => exact List.forall_mem_singleton.mpr (by decide)
  | cons v vs ih =>
      obtain ⟨hv, hvs⟩ := List.forall_mem_cons.mp h
      rw [writeItems, visible_append, visible_append]
      refine ⟨?_, hv, ih false hvs⟩
      split_ifs
      · exact visible_nil
      · exact visible_cons.mpr ⟨by decide, visible_replicate _⟩

theorem visible_writeEntries (first : Bool) {es : List (String × Json)}
    (h : ∀ e ∈ es, Visible (write σ e.2)) : Visible (writeEntries σ first es) := by
  induction es generalizing first with
  | nil => exact List.forall_mem_singleton.mpr (by decide)
  | cons e es ih =>
      obtain ⟨he, hes⟩ := List.forall_mem_cons.mp h
      rw [writeEntries_cons, writeEntry, visible_append, visible_append, List.cons_append,
        visible_cons, visible_append, visible_cons, visible_append]
      refine ⟨?_, ⟨by decide, visible_writeString _ _, by decide, visible_replicate _, he⟩,
        ih false hes⟩
      split_ifs
      · exact visible_nil
      · exact visible_cons.mpr ⟨by decide, visible_replicate _⟩

/-- **The text of a value is one line.** -/
theorem visible_write (v : Json) : Visible (write σ v) := by
  induction v using induct with
  | hnull => rw [write]; decide
  | hbool b => cases b <;> rw [write] <;> decide
  | hnum d => exact visible_writeNumber d
  | hstr s => exact visible_cons.mpr ⟨by decide, visible_writeString _ _⟩
  | harr items ih => exact visible_cons.mpr ⟨by decide, visible_writeItems true ih⟩
  | hobj entries ih => exact visible_cons.mpr ⟨by decide, visible_writeEntries true ih⟩

theorem newline_not_mem_write (v : Json) : '\n' ∉ write σ v :=
  fun h => absurd (visible_write v '\n' h) (by decide)

/-! ### Lines -/

/-- One value a line. -/
def writeLines (σ : Style) (vs : List Json) : List Char := vs.flatMap fun v => write σ v ++ ['\n']

/-- The values of the lines that are not empty. -/
def readLines (text : List Char) : Option (List Json) :=
  ((text.splitOn '\n').filter fun line => line ≠ []).mapM read

theorem writeLines_append (vs ws : List Json) :
    writeLines σ (vs ++ ws) = writeLines σ vs ++ writeLines σ ws :=
  List.flatMap_append

theorem splitOn_writeLines (vs : List Json) :
    (writeLines σ vs).splitOn '\n' = vs.map (write σ) ++ [[]] := by
  induction vs with
  | nil => rfl
  | cons v vs ih =>
      have hsplit := List.splitOn_append_cons_self_of_not_mem (newline_not_mem_write (σ := σ) v)
        (writeLines σ vs)
      rw [writeLines, List.flatMap_cons, List.append_assoc, List.singleton_append]
      exact hsplit.trans (congrArg _ ih)

/-- **A stream of values is read back line by line.** -/
theorem readLines_writeLines {vs : List Json} (h : ∀ v ∈ vs, Plain v) :
    readLines (writeLines σ vs) = some vs := by
  have hne : (vs.map (write σ)).filter (fun line => line ≠ []) = vs.map (write σ) := by
    refine List.filter_eq_self.mpr fun line hline => ?_
    obtain ⟨v, -, rfl⟩ := List.mem_map.mp hline
    obtain ⟨c, cs, hc, -⟩ := write_head (σ := σ) v
    simp [hc]
  have hread : (vs.map (write σ)).map read = vs.map some := by
    rw [List.map_map]
    exact List.map_congr_left fun v hv => read_write (h v hv)
  rw [readLines, splitOn_writeLines, List.filter_append, hne]
  exact mapM_eq_some.mpr (by simpa using hread)

end Json

end Lib
