/-
FlyDesk/Lib/Firsts.lean

First occurrences.  What a receiver that records keys takes of a list of messages:
the first message under each key, unless the key was recorded before.  Repetitions
add nothing, wherever they stand.
-/
import Mathlib.Data.List.Nodup

namespace Lib

variable {α κ : Type*} [DecidableEq κ]

/-- The first element under each key that is not in `seen`. -/
def firsts (key : α → κ) (seen : List κ) : List α → List α
  | [] => []
  | x :: xs => if key x ∈ seen then firsts key seen xs else x :: firsts key (key x :: seen) xs

variable {key : α → κ} {seen : List κ} {xs : List α} {x : α}

/-- One message more. -/
theorem firsts_concat : ∀ {xs : List α} {seen : List κ}, firsts key seen (xs ++ [x]) =
    firsts key seen xs ++ if key x ∈ seen ∨ key x ∈ xs.map key then [] else [x]
  | [], seen => by
    by_cases h : key x ∈ seen <;> simp [firsts, h]
  | y :: ys, seen => by
    by_cases hy : key y ∈ seen
    · have hor : (key x ∈ seen ∨ key x ∈ (y :: ys).map key) ↔
          (key x ∈ seen ∨ key x ∈ ys.map key) := by
        rw [List.map_cons, List.mem_cons]
        constructor
        · rintro (h | h | h)
          · exact Or.inl h
          · exact Or.inl (h ▸ hy)
          · exact Or.inr h
        · rintro (h | h)
          · exact Or.inl h
          · exact Or.inr (Or.inr h)
      rw [List.cons_append, firsts, firsts, if_pos hy, if_pos hy, firsts_concat]
      simp only [hor]
    · have hor : (key x ∈ key y :: seen ∨ key x ∈ ys.map key) ↔
          (key x ∈ seen ∨ key x ∈ (y :: ys).map key) := by
        simp only [List.map_cons, List.mem_cons]
        tauto
      rw [List.cons_append, firsts, firsts, if_neg hy, if_neg hy, firsts_concat,
        List.cons_append]
      simp only [hor]

theorem mem_of_firsts : ∀ {xs : List α} {seen : List κ}, x ∈ firsts key seen xs →
    x ∈ xs ∧ key x ∉ seen
  | [], _, h => by cases h
  | y :: ys, seen, h => by
    rw [firsts] at h
    split at h
    · obtain ⟨hx, hno⟩ := mem_of_firsts h
      exact ⟨List.mem_cons_of_mem _ hx, hno⟩
    · rename_i hy
      rcases List.mem_cons.mp h with rfl | h
      · exact ⟨List.mem_cons_self, hy⟩
      · obtain ⟨hx, hno⟩ := mem_of_firsts h
        exact ⟨List.mem_cons_of_mem _ hx, fun hs => hno (List.mem_cons_of_mem _ hs)⟩

/-- One for each key. -/
theorem nodup_firsts : ∀ {xs : List α} {seen : List κ}, ((firsts key seen xs).map key).Nodup
  | [], _ => List.nodup_nil
  | y :: ys, seen => by
    rw [firsts]
    split
    · exact nodup_firsts
    · rw [List.map_cons, List.nodup_cons]
      refine ⟨fun hmem => ?_, nodup_firsts⟩
      obtain ⟨z, hz, hzy⟩ := List.mem_map.mp hmem
      exact (mem_of_firsts hz).2 (hzy ▸ List.mem_cons_self)

/-- And for each new key. -/
theorem exists_firsts : ∀ {xs : List α} {seen : List κ}, x ∈ xs → key x ∉ seen →
    ∃ y ∈ firsts key seen xs, key y = key x
  | y :: ys, seen, hx, hno => by
    rw [firsts]
    split
    · rename_i hy
      rcases List.mem_cons.mp hx with rfl | hx
      · exact absurd hy hno
      · exact exists_firsts hx hno
    · by_cases hkey : key y = key x
      · exact ⟨y, List.mem_cons_self, hkey⟩
      · rcases List.mem_cons.mp hx with rfl | hx
        · exact absurd rfl hkey
        · have hno' : key x ∉ key y :: seen := by
            rw [List.mem_cons, not_or]
            exact ⟨fun h => hkey h.symm, hno⟩
          obtain ⟨z, hz, hzx⟩ := exists_firsts hx hno'
          exact ⟨z, List.mem_cons_of_mem _ hz, hzx⟩

/-- A key is taken once, if it is new and comes at all. -/
theorem countP_firsts (k : κ) : (firsts key seen xs).countP (fun x => key x = k) =
    if k ∉ seen ∧ k ∈ xs.map key then 1 else 0 := by
  split
  · rename_i h
    obtain ⟨hno, hk⟩ := h
    obtain ⟨x, hx, rfl⟩ := List.mem_map.mp hk
    obtain ⟨y, hy, hyx⟩ : ∃ y ∈ firsts key seen xs, key y = key x := exists_firsts hx hno
    have hcount : ((firsts key seen xs).map key).count (key x) = 1 :=
      List.count_eq_one_of_mem nodup_firsts (List.mem_map.mpr ⟨y, hy, hyx⟩)
    rw [List.count, List.countP_map] at hcount
    rw [← hcount]
    exact List.countP_congr fun z _ => by simp
  · rename_i h
    refine List.countP_eq_zero.mpr fun x hx hk => h ?_
    obtain ⟨hmem, hno⟩ := mem_of_firsts hx
    obtain rfl : key x = k := by simpa using hk
    exact ⟨hno, List.mem_map_of_mem hmem⟩

end Lib
