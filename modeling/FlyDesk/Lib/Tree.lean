/-
FlyDesk/Lib/Tree.lean

Trees of dictionaries and lists with scalars at the leaves, and the redaction
of what stands under secret keys.

* `Tree.at?` follows a path of keys and positions, `Tree.top` is what a tree
  shows at its root;
* `Tree.Agree secret` relates trees that differ at most under secret keys, in
  whatever order the entries stand; with no secret keys it is equality of
  values, `Tree.Equal`;
* `Tree.redact` puts a marker in the place of every value under a secret key.

What a redaction shows does not depend on what it hides (`equal_redact`), and
it hides nothing else (`top_at?_redact`).
-/
import FlyDesk.Lib.Related
import Mathlib.Data.List.Nodup

namespace Lib

/-- A scalar, a dictionary or a list. -/
inductive Tree (κ σ : Type*)
  | scalar (s : σ)
  | dict (entries : List (κ × Tree κ σ))
  | list (items : List (Tree κ σ))

namespace Tree

variable {κ σ : Type*}

/-- Induction on a tree: what holds of all values and items holds of the whole. -/
theorem induct {P : Tree κ σ → Prop} (hscalar : ∀ s, P (.scalar s))
    (hdict : ∀ entries, (∀ e ∈ entries, P e.2) → P (.dict entries))
    (hlist : ∀ items, (∀ v ∈ items, P v) → P (.list items)) : ∀ t, P t
  | .scalar s => hscalar s
  | .dict entries => hdict entries fun e _ => induct hscalar hdict hlist e.2
  | .list items => hlist items fun v _ => induct hscalar hdict hlist v
termination_by t => sizeOf t
decreasing_by
  · have h := List.sizeOf_lt_of_mem ‹_›
    rcases e with ⟨k, v⟩
    simp only [Prod.mk.sizeOf_spec, dict.sizeOf_spec] at h ⊢
    omega
  · have h := List.sizeOf_lt_of_mem ‹_›
    simp only [list.sizeOf_spec]
    omega

/-! ### Paths -/

/-- A step into a tree. -/
inductive Step (κ : Type*)
  | key (k : κ)
  | index (i : ℕ)

section Paths

variable [DecidableEq κ]

/-- What is one step below the root. -/
def child? : Tree κ σ → Step κ → Option (Tree κ σ)
  | .dict entries, .key k => entries.lookup k
  | .list items, .index i => items[i]?
  | _, _ => none

/-- What is at the end of a path. -/
def at? (t : Tree κ σ) : List (Step κ) → Option (Tree κ σ)
  | [] => some t
  | s :: path => (t.child? s).bind fun u => u.at? path

theorem at?_append (t : Tree κ σ) (p q : List (Step κ)) :
    t.at? (p ++ q) = (t.at? p).bind fun u => u.at? q := by
  induction p generalizing t with
  | nil => rfl
  | cons s p ih =>
      show (t.child? s).bind (fun u => u.at? (p ++ q)) = ((t.child? s).bind _).bind _
      rw [Option.bind_assoc]
      exact congrArg _ (funext ih)

end Paths

/-- What a tree shows at its root. -/
inductive Top (κ σ : Type*)
  | scalar (s : σ)
  | dict (keys : List κ)
  | list (length : ℕ)

def top : Tree κ σ → Top κ σ
  | .scalar s => .scalar s
  | .dict entries => .dict (entries.map Prod.fst)
  | .list items => .list items.length

/-- The path meets no secret key. -/
def Free (secret : κ → Bool) (path : List (Step κ)) : Prop :=
  ∀ k, .key k ∈ path → secret k = false

theorem free_cons {secret : κ → Bool} {s : Step κ} {path : List (Step κ)} :
    Free secret (s :: path) ↔ (∀ k, s = .key k → secret k = false) ∧ Free secret path := by
  constructor
  · intro h
    exact ⟨fun k hk => h k (hk ▸ List.mem_cons_self), fun k hk => h k (List.mem_cons_of_mem s hk)⟩
  · rintro ⟨hs, hpath⟩ k hk
    rcases List.mem_cons.mp hk with rfl | hk
    · exact hs k rfl
    · exact hpath k hk

/-! ### Distinct keys -/

mutual
/-- No dictionary in the tree has a key twice. -/
def Distinct : Tree κ σ → Prop
  | .scalar _ => True
  | .dict entries => (entries.map Prod.fst).Nodup ∧ DistinctEntries entries
  | .list items => DistinctItems items

def DistinctEntries : List (κ × Tree κ σ) → Prop
  | [] => True
  | (_, v) :: entries => v.Distinct ∧ DistinctEntries entries

def DistinctItems : List (Tree κ σ) → Prop
  | [] => True
  | v :: items => v.Distinct ∧ DistinctItems items
end

theorem distinctEntries_iff {entries : List (κ × Tree κ σ)} :
    DistinctEntries entries ↔ ∀ e ∈ entries, e.2.Distinct := by
  induction entries with
  | nil => simp [DistinctEntries]
  | cons e entries ih => simp [DistinctEntries, ih]

theorem distinctItems_iff {items : List (Tree κ σ)} :
    DistinctItems items ↔ ∀ v ∈ items, v.Distinct := by
  induction items with
  | nil => simp [DistinctItems]
  | cons v items ih => simp [DistinctItems, ih]

/-! ### Agreement -/

section Agreement

variable [DecidableEq κ]

mutual
/-- The trees differ at most in values under secret keys.  The order of the
entries of a dictionary does not matter. -/
def Agree (secret : κ → Bool) : Tree κ σ → Tree κ σ → Prop
  | .scalar s, u => u = .scalar s
  | .dict entries, u => ∃ entries', u = .dict entries' ∧
      entries'.length = entries.length ∧ AgreeEntries secret entries entries'
  | .list items, u => ∃ items', u = .list items' ∧ AgreeItems secret items items'

/-- Every entry has a counterpart. -/
def AgreeEntries (secret : κ → Bool) : List (κ × Tree κ σ) → List (κ × Tree κ σ) → Prop
  | [], _ => True
  | (k, v) :: entries, entries' =>
      (∃ v', entries'.lookup k = some v' ∧ (secret k = true ∨ v.Agree secret v')) ∧
        AgreeEntries secret entries entries'

/-- The items agree one by one. -/
def AgreeItems (secret : κ → Bool) : List (Tree κ σ) → List (Tree κ σ) → Prop
  | [], items' => items' = []
  | v :: items, items' =>
      ∃ v' rest, items' = v' :: rest ∧ v.Agree secret v' ∧ AgreeItems secret items rest
end

/-- The trees are equal as values: dictionaries with the same keys and equal
values, lists with equal items, the same scalars. -/
def Equal (t u : Tree κ σ) : Prop := t.Agree (fun _ => false) u

variable {secret : κ → Bool}

theorem agreeEntries_iff {entries entries' : List (κ × Tree κ σ)} :
    AgreeEntries secret entries entries' ↔ ∀ e ∈ entries,
      ∃ v', entries'.lookup e.1 = some v' ∧ (secret e.1 = true ∨ e.2.Agree secret v') := by
  induction entries with
  | nil => simp [AgreeEntries]
  | cons e entries ih => simp only [AgreeEntries, ih, List.forall_mem_cons]

theorem agreeItems_iff {items items' : List (Tree κ σ)} :
    AgreeItems secret items items' ↔ List.Forall₂ (Agree secret) items items' := by
  induction items generalizing items' with
  | nil => simp [AgreeItems]
  | cons v items ih => simp only [AgreeItems, ih, List.forall₂_cons_left_iff]; grind

end Agreement

/-! ### Redaction -/

mutual
/-- The tree with the marker for every value under a secret key. -/
def redact (secret : κ → Bool) (marker : σ) : Tree κ σ → Tree κ σ
  | .scalar s => .scalar s
  | .dict entries => .dict (redactEntries secret marker entries)
  | .list items => .list (redactItems secret marker items)

def redactEntries (secret : κ → Bool) (marker : σ) : List (κ × Tree κ σ) → List (κ × Tree κ σ)
  | [] => []
  | (k, v) :: entries =>
      (k, if secret k then .scalar marker else v.redact secret marker) ::
        redactEntries secret marker entries

def redactItems (secret : κ → Bool) (marker : σ) : List (Tree κ σ) → List (Tree κ σ)
  | [] => []
  | v :: items => v.redact secret marker :: redactItems secret marker items
end

/-- What a redaction makes of the value under a key. -/
def redactValue (secret : κ → Bool) (marker : σ) (k : κ) (v : Tree κ σ) : Tree κ σ :=
  if secret k then .scalar marker else v.redact secret marker

variable {secret : κ → Bool} {marker : σ}

theorem redactEntries_eq_map (entries : List (κ × Tree κ σ)) :
    redactEntries secret marker entries
      = entries.map fun e => (e.1, redactValue secret marker e.1 e.2) := by
  induction entries with
  | nil => rfl
  | cons e entries ih =>
      rw [redactEntries, ih]
      rfl

theorem redactItems_eq_map (items : List (Tree κ σ)) :
    redactItems secret marker items = items.map (redact secret marker) := by
  induction items with
  | nil => rfl
  | cons v items ih =>
      rw [redactItems, ih]
      rfl

theorem redact_dict (entries : List (κ × Tree κ σ)) :
    (Tree.dict entries).redact secret marker
      = .dict (entries.map fun e => (e.1, redactValue secret marker e.1 e.2)) := by
  rw [redact, redactEntries_eq_map]

theorem redact_list (items : List (Tree κ σ)) :
    (Tree.list items).redact secret marker = .list (items.map (redact secret marker)) := by
  rw [redact, redactItems_eq_map]

/-- A redaction shows at the root what the tree shows. -/
theorem top_redact (t : Tree κ σ) : (t.redact secret marker).top = t.top := by
  rcases t with s | entries | items
  · rfl
  · simp [redact_dict, top, Function.comp_def]
  · simp [redact_list, top]

theorem distinct_redact {t : Tree κ σ} (h : t.Distinct) : (t.redact secret marker).Distinct := by
  induction t using induct with
  | hscalar s => exact trivial
  | hdict entries ih =>
      obtain ⟨hkeys, hvalues⟩ := h
      rw [redact_dict]
      refine ⟨by simpa [Function.comp_def] using hkeys, distinctEntries_iff.mpr ?_⟩
      intro e' he'
      obtain ⟨e, he, rfl⟩ := List.mem_map.mp he'
      by_cases hs : secret e.1
      · simp [redactValue, hs, Distinct]
      · simpa [redactValue, hs] using ih e he (distinctEntries_iff.mp hvalues e he)
  | hlist items ih =>
      rw [redact_list]
      refine distinctItems_iff.mpr ?_
      intro v' hv'
      obtain ⟨v, hv, rfl⟩ := List.mem_map.mp hv'
      exact ih v hv (distinctItems_iff.mp h v hv)

/-- **Redacting twice changes nothing.** -/
theorem redact_redact (t : Tree κ σ) :
    (t.redact secret marker).redact secret marker = t.redact secret marker := by
  induction t using induct with
  | hscalar s => rfl
  | hdict entries ih =>
      rw [redact_dict, redact_dict, List.map_map]
      refine congrArg _ (List.map_congr_left fun e he => ?_)
      refine congrArg (Prod.mk e.1) ?_
      show redactValue secret marker e.1 (redactValue secret marker e.1 e.2) = _
      by_cases hs : secret e.1
      · simp [redactValue, hs]
      · simpa [redactValue, hs] using ih e he
  | hlist items ih =>
      rw [redact_list, redact_list, List.map_map]
      exact congrArg _ (List.map_congr_left ih)

section Lookup

variable [DecidableEq κ]

theorem lookup_map (f : κ → Tree κ σ → Tree κ σ) (entries : List (κ × Tree κ σ)) (k : κ) :
    (entries.map fun e => (e.1, f e.1 e.2)).lookup k = (entries.lookup k).map (f k) := by
  induction entries with
  | nil => rfl
  | cons e entries ih =>
      rcases e with ⟨k', v⟩
      rw [List.map_cons, List.lookup_cons, List.lookup_cons, ih]
      by_cases hk : k = k'
      · rw [hk, beq_self_eq_true]
        rfl
      · rw [beq_eq_false_iff_ne.mpr hk]

/-- One step into a redaction. -/
theorem child?_redact (t : Tree κ σ) (s : Step κ) :
    (t.redact secret marker).child? s = (t.child? s).map fun v =>
      match s with
      | .key k => redactValue secret marker k v
      | .index _ => v.redact secret marker := by
  rcases t with c | entries | items <;> rcases s with k | i
  · rfl
  · rfl
  · rw [redact_dict]
    exact lookup_map (redactValue secret marker) entries k
  · rw [redact_dict]
    rfl
  · rw [redact_list]
    rfl
  · rw [redact_list]
    exact List.getElem?_map

/-- Along a path without secret keys the redaction is the redaction of what is
there. -/
theorem at?_redact {path : List (Step κ)} (h : Free secret path) (t : Tree κ σ) :
    (t.redact secret marker).at? path = (t.at? path).map (redact secret marker) := by
  induction path generalizing t with
  | nil => rfl
  | cons s path ih =>
      obtain ⟨hs, hpath⟩ := free_cons.mp h
      have hchild : (t.redact secret marker).child? s
          = (t.child? s).map (redact secret marker) := by
        rw [child?_redact]
        rcases s with k | i
        · simp [redactValue, hs k rfl]
        · rfl
      show ((t.redact secret marker).child? s).bind _ = ((t.child? s).bind _).map _
      rw [hchild, Option.bind_map, Option.map_bind]
      exact congrArg _ (funext fun u => ih hpath u)

/-- **What is not secret stays**: the same keys, lengths and scalars at the end
of every path without secret keys. -/
theorem top_at?_redact {path : List (Step κ)} (h : Free secret path) (t : Tree κ σ) :
    ((t.redact secret marker).at? path).map top = (t.at? path).map top := by
  rw [at?_redact h, Option.map_map]
  exact congrArg (fun f => Option.map f (t.at? path)) (funext top_redact)

/-- **What is secret goes**: the marker stands under every secret key that such
a path reaches. -/
theorem at?_redact_secret {path : List (Step κ)} {k : κ} {t v : Tree κ σ}
    (h : Free secret path) (hk : secret k = true) (hv : t.at? (path ++ [.key k]) = some v) :
    (t.redact secret marker).at? (path ++ [.key k]) = some (.scalar marker) := by
  rw [at?_append] at hv ⊢
  obtain ⟨u, hu, hv⟩ := Option.bind_eq_some_iff.mp hv
  rw [at?_redact h, hu]
  have hchild : (u.child? (.key k)).isSome := by
    rcases hc : u.child? (.key k) with - | w
    · simp [at?, hc] at hv
    · rfl
  obtain ⟨w, hw⟩ := Option.isSome_iff_exists.mp hchild
  simp [at?, child?_redact, hw, redactValue, hk]

/-- **What is hidden is not to be seen**: of trees that differ only under
secret keys the redactions are equal. -/
theorem equal_redact {t u : Tree κ σ} (h : t.Agree secret u) :
    (t.redact secret marker).Equal (u.redact secret marker) := by
  induction t using induct generalizing u with
  | hscalar s =>
      obtain rfl : u = .scalar s := h
      exact rfl
  | hdict entries ih =>
      obtain ⟨entries', rfl, hlen, hagree⟩ := h
      rw [redact_dict, redact_dict]
      refine ⟨_, rfl, by simpa using hlen, agreeEntries_iff.mpr ?_⟩
      intro e' he'
      obtain ⟨e, he, rfl⟩ := List.mem_map.mp he'
      obtain ⟨v', hv', hvalue⟩ := agreeEntries_iff.mp hagree e he
      refine ⟨redactValue secret marker e.1 v', ?_, Or.inr ?_⟩
      · rw [lookup_map (redactValue secret marker), hv']
        rfl
      · by_cases hs : secret e.1
        · simp only [redactValue, hs, if_true]
          exact rfl
        · simp only [redactValue, hs]
          exact ih e he (hvalue.resolve_left hs)
  | hlist items ih =>
      obtain ⟨items', rfl, hagree⟩ := h
      rw [redact_list, redact_list]
      refine ⟨_, rfl, agreeItems_iff.mpr ?_⟩
      rw [List.forall₂_map_left_iff, List.forall₂_map_right_iff]
      exact forall₂_imp_of_mem (agreeItems_iff.mp hagree) fun v hv _ => ih v hv

end Lookup

end Tree

end Lib
