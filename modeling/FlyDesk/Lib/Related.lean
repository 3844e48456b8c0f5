/-
FlyDesk/Lib/Related.lean

Lists related item by item.  A relation may be weakened at the items of the
list, and each item has its counterpart in the other list.  Where the relation
is a function's, the one list is the image of the other.
-/
import Mathlib.Data.List.Forall2

namespace Lib

variable {α β γ : Type*} {R S : α → β → Prop} {xs : List α} {ys : List β}

theorem forall₂_imp_of_mem (h : List.Forall₂ R xs ys)
    (hRS : ∀ x ∈ xs, ∀ y, R x y → S x y) : List.Forall₂ S xs ys := by
  obtain ⟨hlen, hzip⟩ := List.forall₂_iff_zip.mp h
  exact List.forall₂_iff_zip.mpr
    ⟨hlen, fun hxy => hRS _ (List.of_mem_zip hxy).1 _ (hzip hxy)⟩

/-- Related lists have as many items of a kind as the relation says. -/
theorem countP_eq_of_forall₂ {p : α → Bool} {q : β → Bool} (h : List.Forall₂ R xs ys)
    (hR : ∀ x y, R x y → p x = q y) : xs.countP p = ys.countP q := by
  induction h with
  | nil => rfl
  | cons hxy _ ih => rw [List.countP_cons, List.countP_cons, ih, hR _ _ hxy]

/-- The first items of related lists. -/
theorem head?_of_forall₂ (h : List.Forall₂ R xs ys) (hne : ys ≠ []) :
    ∃ x y, xs.head? = some x ∧ ys.head? = some y ∧ R x y := by
  cases h with
  | nil => exact absurd rfl hne
  | cons hxy _ => exact ⟨_, _, rfl, rfl, hxy⟩

/-- Every item of the second list has a source in the first. -/
theorem exists_of_forall₂ (h : List.Forall₂ R xs ys) {y : β} (hy : y ∈ ys) :
    ∃ x ∈ xs, R x y := by
  induction h with
  | nil => cases hy
  | cons hxy _ ih =>
      rcases List.mem_cons.mp hy with rfl | hy
      · exact ⟨_, List.mem_cons_self, hxy⟩
      · obtain ⟨x, hx, hRx⟩ := ih hy
        exact ⟨x, List.mem_cons_of_mem _ hx, hRx⟩

/-- And every item of the first an image in the second. -/
theorem exists_of_forall₂_left (h : List.Forall₂ R xs ys) {x : α} (hx : x ∈ xs) :
    ∃ y ∈ ys, R x y :=
  exists_of_forall₂ (R := fun y x => R x y) h.flip hx

/-! ### Images -/

/-- A list and its image, if each item is related to its own. -/
theorem forall₂_map_self {f : α → β} (h : ∀ x ∈ xs, R x (f x)) :
    List.Forall₂ R xs (xs.map f) :=
  List.forall₂_map_right_iff.mpr (List.forall₂_same.mpr h)

/-- Two lists have the same image. -/
theorem forall₂_map_eq_iff {f : α → γ} {g : β → γ} :
    List.Forall₂ (fun x y => f x = g y) xs ys ↔ xs.map f = ys.map g := by
  rw [← List.forall₂_eq_eq_eq, List.forall₂_map_left_iff, List.forall₂_map_right_iff]

/-- Where the relation says what the counterpart of an item is, it relates a list
to its image and to no other. -/
theorem forall₂_iff_eq_map {f : α → β} (h : ∀ x y, R x y ↔ y = f x) :
    List.Forall₂ R xs ys ↔ ys = xs.map f := by
  constructor
  · intro hR
    induction hR with
    | nil => rfl
    | cons hxy _ ih => rw [List.map_cons, ← ih, (h _ _).mp hxy]
  · rintro rfl
    exact forall₂_map_self fun x _ => (h x _).mpr rfl

end Lib
