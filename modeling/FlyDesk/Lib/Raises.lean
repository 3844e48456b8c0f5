/-
FlyDesk/Lib/Raises.lean

Which exceptions a computation can raise.  `Raises p x` says that if `x` fails
then with an error satisfying `p`.  Sequencing splits it exactly: a bind raises
what its first part raises and, where that returns, what its second part
raises; a comprehension raises what it raises at an item it gets to.

`Returns q x` says that if `x` returns then a value satisfying `q`.
-/
import FlyDesk.Lib.Related

namespace Lib

variable {ε α β : Type}

/-- If `x` fails, its error satisfies `p`. -/
def Raises (p : ε → Prop) (x : Except ε α) : Prop :=
  ∀ e, x = .error e → p e

variable {p : ε → Prop}

theorem Raises.ok {a : α} : Raises p (.ok a : Except ε α) :=
  fun _ h => nomatch h

@[simp] theorem raises_error {e : ε} : Raises p (.error e : Except ε α) ↔ p e :=
  ⟨fun h => h e rfl, fun h _ he => Except.error.inj he ▸ h⟩

theorem bind_eq_ok {x : Except ε α} {f : α → Except ε β} {b : β} :
    x >>= f = .ok b ↔ ∃ a, x = .ok a ∧ f a = .ok b := by
  rcases x with e | a
  · exact ⟨fun h => (nomatch h), fun ⟨_, h, _⟩ => (nomatch h)⟩
  · exact ⟨fun h => ⟨a, rfl, h⟩, fun ⟨_, ha, h⟩ => Except.ok.inj ha ▸ h⟩

/-- What a bind raises. -/
theorem Raises.bind_iff {x : Except ε α} {f : α → Except ε β} :
    Raises p (x >>= f) ↔ Raises p x ∧ ∀ a, x = .ok a → Raises p (f a) := by
  rcases x with e | a
  · constructor
    · exact fun h => ⟨raises_error.mpr (raises_error.mp h), fun _ ha => nomatch ha⟩
    · exact fun h => raises_error.mpr (raises_error.mp h.1)
  · constructor
    · exact fun h => ⟨Raises.ok, fun _ ha => Except.ok.inj ha ▸ h⟩
    · exact fun h => h.2 a rfl

theorem Raises.bind {x : Except ε α} {f : α → Except ε β} (hx : Raises p x)
    (hf : ∀ a, x = .ok a → Raises p (f a)) : Raises p (x >>= f) :=
  Raises.bind_iff.mpr ⟨hx, hf⟩

theorem Raises.map {x : Except ε α} {f : α → β} (hx : Raises p x) : Raises p (x.map f) := by
  rcases x with e | a
  · exact raises_error.mpr (raises_error.mp hx)
  · exact Raises.ok

theorem mapM_cons_eq_ok {f : α → Except ε β} {x : α} {xs : List α} {zs : List β} :
    (x :: xs).mapM f = .ok zs ↔ ∃ y ys, f x = .ok y ∧ xs.mapM f = .ok ys ∧ y :: ys = zs := by
  rw [List.mapM_cons, bind_eq_ok]
  constructor
  · rintro ⟨y, hy, h⟩
    obtain ⟨ys, hys, h⟩ := bind_eq_ok.mp h
    exact ⟨y, ys, hy, hys, Except.ok.inj h⟩
  · rintro ⟨y, ys, hy, hys, rfl⟩
    exact ⟨y, hy, bind_eq_ok.mpr ⟨ys, hys, rfl⟩⟩

/-- Every item of a comprehension is what the function returned for its
source. -/
theorem forall₂_of_mapM {f : α → Except ε β} {xs : List α} {ys : List β}
    (h : xs.mapM f = .ok ys) : List.Forall₂ (fun x y => f x = .ok y) xs ys := by
  induction xs generalizing ys with
  | nil =>
      obtain rfl := Except.ok.inj h
      exact .nil
  | cons x xs ih =>
      obtain ⟨y, ys', hy, hys, rfl⟩ := mapM_cons_eq_ok.mp h
      exact .cons hy (ih hys)

/-- A comprehension, item by item. -/
theorem mapM_eq_ok_iff {f : α → Except ε β} {xs : List α} {ys : List β} :
    xs.mapM f = .ok ys ↔ List.Forall₂ (fun x y => f x = .ok y) xs ys := by
  refine ⟨forall₂_of_mapM, fun h => ?_⟩
  induction h with
  | nil => rfl
  | cons hy _ ih => exact mapM_cons_eq_ok.mpr ⟨_, _, hy, ih, rfl⟩

theorem exists_of_mapM {f : α → Except ε β} {xs : List α} {ys : List β}
    (h : xs.mapM f = .ok ys) {y : β} (hy : y ∈ ys) : ∃ x ∈ xs, f x = .ok y :=
  exists_of_forall₂ (forall₂_of_mapM h) hy

/-- Two comprehensions over one list look alike where their items do. -/
theorem map_eq_of_mapM {γ : Type} {look : β → γ} {f f' : α → Except ε β} {xs : List α}
    {ys ys' : List β} (h : xs.mapM f = .ok ys) (h' : xs.mapM f' = .ok ys')
    (hlook : ∀ x y y', f x = .ok y → f' x = .ok y' → look y = look y') :
    ys.map look = ys'.map look := by
  induction xs generalizing ys ys' with
  | nil =>
      obtain rfl := Except.ok.inj h
      obtain rfl := Except.ok.inj h'
      rfl
  | cons x xs ih =>
      obtain ⟨y, zs, hy, hzs, rfl⟩ := mapM_cons_eq_ok.mp h
      obtain ⟨y', zs', hy', hzs', rfl⟩ := mapM_cons_eq_ok.mp h'
      rw [List.map_cons, List.map_cons, hlook x y y' hy hy', ih hzs hzs']

/-- A comprehension is empty only over nothing. -/
theorem mapM_eq_nil {f : α → Except ε β} {xs : List α} {ys : List β}
    (h : xs.mapM f = .ok ys) : ys = [] ↔ xs = [] := by
  rcases xs with - | ⟨x, xs⟩
  · obtain rfl := Except.ok.inj h
    simp
  · obtain ⟨y, ys', _, _, rfl⟩ := mapM_cons_eq_ok.mp h
    simp

/-- A comprehension returns iff it does at every item. -/
theorem mapM_ok_iff {f : α → Except ε β} {xs : List α} :
    (∃ ys, xs.mapM f = .ok ys) ↔ ∀ x ∈ xs, ∃ y, f x = .ok y := by
  induction xs with
  | nil => exact ⟨fun _ _ h => (nomatch h), fun _ => ⟨[], rfl⟩⟩
  | cons x xs ih =>
      rw [List.forall_mem_cons, ← ih]
      constructor
      · rintro ⟨zs, h⟩
        obtain ⟨y, ys, hy, hys, -⟩ := mapM_cons_eq_ok.mp h
        exact ⟨⟨y, hy⟩, ys, hys⟩
      · rintro ⟨⟨y, hy⟩, ys, hys⟩
        exact ⟨y :: ys, mapM_cons_eq_ok.mpr ⟨y, ys, hy, hys, rfl⟩⟩

/-- Reading the items in order, up to the first that does not fit, each is
safe. -/
def InOrder (fits safe : α → Prop) : List α → Prop
  | [] => True
  | x :: xs => safe x ∧ (fits x → InOrder fits safe xs)

theorem InOrder.congr {fits fits' safe safe' : α → Prop} (hfits : ∀ x, fits x ↔ fits' x)
    (hsafe : ∀ x, safe x ↔ safe' x) {xs : List α} :
    InOrder fits safe xs ↔ InOrder fits' safe' xs := by
  induction xs with
  | nil => rfl
  | cons x xs ih => rw [InOrder, InOrder, hfits, hsafe, ih]

theorem inOrder_map {fits safe : β → Prop} {g : α → β} {xs : List α} :
    InOrder fits safe (xs.map g) ↔ InOrder (fun x => fits (g x)) (fun x => safe (g x)) xs := by
  induction xs with
  | nil => rfl
  | cons x xs ih => rw [List.map_cons, InOrder, InOrder, ih]

/-- What a comprehension raises: what it raises at the items it gets to, those
behind items at which it returns. -/
theorem Raises.mapM_iff {f : α → Except ε β} {xs : List α} :
    Raises p (xs.mapM f) ↔
      InOrder (fun x => ∃ b, f x = .ok b) (fun x => Raises p (f x)) xs := by
  induction xs with
  | nil => exact ⟨fun _ => trivial, fun _ => Raises.ok⟩
  | cons x xs ih =>
      rw [List.mapM_cons, Raises.bind_iff, InOrder, ← ih]
      refine and_congr_right fun _ => ⟨?_, ?_⟩
      · rintro h ⟨b, hb⟩
        exact (Raises.bind_iff.mp (h b hb)).1
      · exact fun h b hb => Raises.bind (h ⟨b, hb⟩) fun _ _ => Raises.ok

theorem Raises.mapM {f : α → Except ε β} {xs : List α} (h : ∀ x ∈ xs, Raises p (f x)) :
    Raises p (xs.mapM f) := by
  rw [Raises.mapM_iff]
  induction xs with
  | nil => trivial
  | cons x xs ih =>
      obtain ⟨hx, hxs⟩ := List.forall_mem_cons.mp h
      exact ⟨hx, fun _ => ih hxs⟩

/-! ### What is returned -/

/-- If `x` returns, its value satisfies `q`. -/
def Returns (q : α → Prop) (x : Except ε α) : Prop :=
  ∀ a, x = .ok a → q a

variable {q : β → Prop}

theorem Returns.ok {b : β} (h : q b) : Returns q (.ok b : Except ε β) :=
  fun _ hb => Except.ok.inj hb ▸ h

theorem Returns.any {x : Except ε α} : Returns (fun _ => True) x := fun _ _ => trivial

theorem Returns.bind {r : α → Prop} {x : Except ε α} {f : α → Except ε β} (hx : Returns r x)
    (hf : ∀ a, r a → Returns q (f a)) : Returns q (x >>= f) := by
  intro b hb
  obtain ⟨a, ha, hb⟩ := bind_eq_ok.mp hb
  exact hf a (hx a ha) b hb

theorem Returns.map {r : α → Prop} {x : Except ε α} {f : α → β} (hx : Returns r x)
    (hf : ∀ a, r a → q (f a)) : Returns q (x.map f) := by
  intro b hb
  rcases x with e | a
  · cases hb
  · obtain rfl := Except.ok.inj hb
    exact hf a (hx a rfl)

/-- What a comprehension returns, item by item. -/
theorem Returns.mapM {f : α → Except ε β} {xs : List α} (h : ∀ x ∈ xs, Returns q (f x)) :
    Returns (fun ys => ∀ y ∈ ys, q y) (xs.mapM f) := by
  induction xs with
  | nil =>
      intro ys hys
      obtain rfl := Except.ok.inj hys
      simp
  | cons x xs ih =>
      obtain ⟨hx, hxs⟩ := List.forall_mem_cons.mp h
      intro ys hys
      obtain ⟨z, zs, hz, hzs, rfl⟩ := mapM_cons_eq_ok.mp hys
      exact List.forall_mem_cons.mpr ⟨hx z hz, ih hxs zs hzs⟩

end Lib
