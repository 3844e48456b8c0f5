/-
FlyDesk/Lib/Seating.lean

Seats for everybody.  People are given seats of their own, and some of them
have a seat fixed beforehand; each is content with some of the seats.

`exists_seating_iff` says when there is a seating.  A seating is *fair* when
nobody could be contented without somebody else losing that.  Where the seats
come in kinds, `Seating.fair_iff` decides that by the seats themselves, with no
search for another seating: those that would content somebody are all taken, by
people who want the same or whose seat is fixed.
-/
import Mathlib.Data.Fintype.Sum
import Mathlib.Logic.Equiv.Basic

namespace Lib

variable {ι α : Type*}

/-- `f` gives everybody a seat, and those who have one fixed that one. -/
structure Seating (seats : Finset α) (fixed : ι → Option α) (f : ι → α) : Prop where
  injective : Function.Injective f
  mem : ∀ i, f i ∈ seats
  fixed : ∀ i a, fixed i = some a → f i = a

/-- Whoever is content in some seating in which all those are who are content
here, is content here. -/
def Fair (seats : Finset α) (fixed : ι → Option α) (content : ι → α → Prop) (f : ι → α) :
    Prop :=
  ∀ i, (∃ g, Seating seats fixed g ∧ content i (g i) ∧
    ∀ j, content j (f j) → content j (g j)) → content i (f i)

variable {seats : Finset α} {fixed : ι → Option α}

/-- There is a seating iff the fixed seats are distinct seats and there is room. -/
theorem exists_seating_iff [Fintype ι] [DecidableEq α] :
    (∃ f, Seating seats fixed f) ↔
      (∀ i j a, fixed i = some a → fixed j = some a → i = j) ∧
        (∀ i a, fixed i = some a → a ∈ seats) ∧ Fintype.card ι ≤ seats.card := by
  classical
  constructor
  · rintro ⟨f, h⟩
    refine ⟨fun i j a hi hj => h.injective ((h.fixed i a hi).trans (h.fixed j a hj).symm),
      fun i a hi => h.fixed i a hi ▸ h.mem i, ?_⟩
    calc Fintype.card ι = (Finset.univ.image f).card :=
          (Finset.card_image_of_injective _ h.injective).symm
      _ ≤ seats.card := Finset.card_le_card (Finset.image_subset_iff.mpr fun i _ => h.mem i)
  · rintro ⟨hinj, hmem, hroom⟩
    rcases isEmpty_or_nonempty ι with hι | ⟨⟨i₀⟩⟩
    · exact ⟨hι.elim, Function.injective_of_subsingleton _, hι.elim, hι.elim⟩
    -- any seat will do as a value where none is fixed
    obtain ⟨a₀, -⟩ := Finset.card_pos.mp ((Fintype.card_pos_iff.mpr ⟨i₀⟩).trans_le hroom)
    set pick : ι → α := fun i => (fixed i).getD a₀ with hpick
    have hfix : ∀ i a, fixed i = some a → pick i = a := fun i a hi => by simp [hpick, hi]
    set those : Finset ι := Finset.univ.filter fun i => (fixed i).isSome with hthose
    have hthose' : ∀ i ∈ those, ∃ a, fixed i = some a := fun i hi =>
      Option.isSome_iff_exists.mp (Finset.mem_filter.mp hi).2
    have hpinj : Set.InjOn pick those := by
      intro i hi j hj h
      obtain ⟨a, ha⟩ := hthose' i hi
      obtain ⟨b, hb⟩ := hthose' j hj
      rw [hfix i a ha, hfix j b hb] at h
      exact hinj i j a ha (h ▸ hb)
    have hsub : those.image pick ⊆ seats := by
      intro a ha
      obtain ⟨i, hi, rfl⟩ := Finset.mem_image.mp ha
      obtain ⟨a, ha⟩ := hthose' i hi
      exact hfix i a ha ▸ hmem i a ha
    -- as many seats as there are people, the fixed ones among them
    obtain ⟨t, hst, ht, hcard⟩ := Finset.exists_subsuperset_card_eq hsub
      (by rw [Finset.card_image_of_injOn hpinj]; exact Finset.card_le_univ those) hroom
    obtain ⟨g, hg⟩ := Finset.exists_equiv_extend_of_card_eq hcard.symm hst hpinj
    refine ⟨fun i => g i, Subtype.val_injective.comp g.injective, fun i => ht (g i).2, ?_⟩
    intro i a hi
    exact (hg i (Finset.mem_filter.mpr ⟨Finset.mem_univ i, by simp [hi]⟩)).trans (hfix i a hi)

namespace Seating

variable {f : ι → α}

/-- The people in two seats change places; if one of the seats is free, it is
taken. -/
theorem swap [DecidableEq α] (h : Seating seats fixed f) {i : ι} {a : α} (ha : a ∈ seats)
    (hi : fixed i = none) (hfree : ∀ j, f j = a → fixed j = none) :
    Seating seats fixed fun j => Equiv.swap (f i) a (f j) where
  injective := (Equiv.injective _).comp h.injective
  mem j := by
    rcases eq_or_ne (f j) (f i) with e | e
    · rw [e, Equiv.swap_apply_left]
      exact ha
    · rcases eq_or_ne (f j) a with e' | e'
      · rw [e', Equiv.swap_apply_right]
        exact h.mem i
      · rw [Equiv.swap_apply_of_ne_of_ne e e']
        exact h.mem j
  fixed j b hj := by
    have hi' : f j ≠ f i := fun e => by
      obtain rfl := h.injective e
      cases hi.symm.trans hj
    have ha' : f j ≠ a := fun e => by cases (hfree j e).symm.trans hj
    rw [Equiv.swap_apply_of_ne_of_ne hi' ha', h.fixed j b hj]

variable [Finite ι] {content : ι → α → Prop}

/-- **A seating is fair iff** every seat that would content somebody who is not is
taken, by somebody whom it contents or whose seat is fixed.  People whom one seat
contents are content with the same seats. -/
theorem fair_iff (h : Seating seats fixed f)
    (hsame : ∀ {i j a b}, content i a → content j a → content i b → content j b) :
    Fair seats fixed content f ↔
      ∀ i, fixed i = none → ¬ content i (f i) → ∀ a ∈ seats, content i a →
        ∃ j, f j = a ∧ (content j a ∨ fixed j ≠ none) := by
  classical
  constructor
  · intro hfair i hi hmiss a ha hia
    by_contra hno
    push Not at hno
    -- a seat that is free, or whose holder has no use for it
    refine hmiss (hfair i ⟨_, h.swap ha hi fun j hj => (hno j hj).2, ?_, fun j hj => ?_⟩)
    · simpa using hia
    · have hji : f j ≠ f i := fun e => hmiss (by rw [← h.injective e]; exact hj)
      have hja : f j ≠ a := fun e => (hno j e).1 (e ▸ hj)
      rwa [Equiv.swap_apply_of_ne_of_ne hji hja]
  · rintro hfull i ⟨g, hg, hgi, hkeep⟩
    by_contra hmiss
    have hi : fixed i = none := by
      rcases hf : fixed i with - | a
      · rfl
      · rw [hg.fixed i a hf, ← h.fixed i a hf] at hgi
        exact absurd hgi hmiss
    -- the seats that would content `i` hold the same people there as here, and `i` as well
    have := Fintype.ofFinite ι
    set held : Finset ι := Finset.univ.filter fun k => content i (f k) with hheld
    have hmem : ∀ k, k ∈ held ↔ content i (f k) := fun k => by simp [hheld]
    have htaken : ∀ a ∈ seats, content i a → a ∈ held.image f := by
      intro a ha hia
      obtain ⟨l, rfl, -⟩ := hfull i hi hmiss a ha hia
      exact Finset.mem_image_of_mem f ((hmem l).mpr hia)
    have hstay : ∀ k ∈ held, g k ∈ held.image f := by
      intro k hk
      have hik := (hmem k).mp hk
      obtain ⟨j, hjk, hj⟩ := hfull i hi hmiss (f k) (h.mem k) hik
      obtain rfl := h.injective hjk
      rcases hj with hj | hj
      · exact htaken _ (hg.mem j) (hsame hj hik (hkeep j hj))
      · obtain ⟨a, ha⟩ := Option.ne_none_iff_exists'.mp hj
        rw [hg.fixed j a ha, ← h.fixed j a ha]
        exact Finset.mem_image_of_mem f hk
    have hmore : (insert i held).image g ⊆ held.image f := by
      intro a ha
      obtain ⟨k, hk, rfl⟩ := Finset.mem_image.mp ha
      rcases Finset.mem_insert.mp hk with rfl | hk
      · exact htaken _ (hg.mem k) hgi
      · exact hstay k hk
    have hcard := Finset.card_le_card hmore
    rw [Finset.card_image_of_injective _ hg.injective,
      Finset.card_image_of_injective _ h.injective,
      Finset.card_insert_of_notMem fun hin => hmiss ((hmem i).mp hin)] at hcard
    exact Nat.not_succ_le_self _ hcard

end Seating

end Lib
