/-
FlyDesk/Lib/Trace.lean

Runs of an executable step function.  A step function is a partial function
`step : σ → α → Option σ`; `none` says the action is not enabled.  A run is
recorded with every step it took, as the pair of the state before the step
and the action:

    Trace step s steps t

says the run from `s` to `t` took exactly `steps`.  Assumptions about the
environment (no crash, a reachable server, fresh names) are predicates on
these pairs, so "every run whose steps all meet `ok`" is
`Trace step s steps t` with `∀ p ∈ steps, A p.1 p.2`.

Three rules carry the run-level proofs: `Trace.invariant` (what every allowed
step preserves holds at the end of every allowed run), `Trace.history` (the
same for what relates a state to the steps that led to it) and `Trace.seen`
(what can only become true next to a state satisfying `Q` was preceded by
one).
-/
import Mathlib.Data.List.Infix
import Mathlib.Tactic.Common

namespace Lib

variable {σ α : Type*}

/-- `Trace step s steps t`: the run from `s` to `t` took `steps`, each
recorded as the state before it and the action. -/
inductive Trace (step : σ → α → Option σ) (s : σ) : List (σ × α) → σ → Prop
  | nil : Trace step s [] s
  | snoc {steps t a u} : Trace step s steps t → step t a = some u →
      Trace step s (steps ++ [(t, a)]) u

variable {step : σ → α → Option σ} {s t u : σ} {steps steps' : List (σ × α)}

/-! ### Putting runs together -/

theorem Trace.single {a : α} (h : step s a = some t) :
    Trace step s [(s, a)] t :=
  Trace.snoc .nil h

theorem Trace.append (h : Trace step s steps t) (h' : Trace step t steps' u) :
    Trace step s (steps ++ steps') u := by
  induction h' with
  | nil => simpa using h
  | snoc _ hstep ih =>
      rw [← List.append_assoc]
      exact ih.snoc hstep

/-- Every recorded state is reached by an initial part of the run. -/
theorem Trace.prefix_of_mem (h : Trace step s steps t) {p : σ × α}
    (hp : p ∈ steps) :
    ∃ before, before ++ [p] <+: steps ∧ Trace step s before p.1 := by
  induction h with
  | nil => cases hp
  | @snoc l t a u hl hstep ih =>
      rcases List.mem_append.mp hp with hp | hp
      · obtain ⟨before, hpre, htr⟩ := ih hp
        exact ⟨before, hpre.trans (List.prefix_append _ _), htr⟩
      · obtain rfl := List.mem_singleton.mp hp
        exact ⟨l, List.prefix_rfl, hl⟩

/-- What was recorded before a step is the run up to the state it was taken
in. -/
theorem Trace.upTo (h : Trace step s steps t) {before : List (σ × α)} {p : σ × α}
    (hpre : before ++ [p] <+: steps) : Trace step s before p.1 := by
  induction h with
  | nil => simp at hpre
  | @snoc l t a u hl _ ih =>
      rcases List.prefix_concat_iff.mp hpre with he | hpre
      · obtain ⟨rfl, rfl⟩ := List.append_singleton_inj.mp he
        exact hl
      · exact ih hpre

/-- Every recorded step leads to a state of the run. -/
theorem Trace.next_of_mem (h : Trace step s steps t) {p : σ × α} (hp : p ∈ steps) :
    ∃ v, step p.1 p.2 = some v ∧ (v = t ∨ ∃ q ∈ steps, q.1 = v) := by
  induction h with
  | nil => cases hp
  | @snoc l t a u _ hstep ih =>
      rcases List.mem_append.mp hp with hp | hp
      · obtain ⟨v, hv, rfl | ⟨q, hq, hqv⟩⟩ := ih hp
        · exact ⟨v, hv, Or.inr ⟨(v, a), by simp, rfl⟩⟩
        · exact ⟨v, hv, Or.inr ⟨q, List.mem_append_left _ hq, hqv⟩⟩
      · obtain rfl := List.mem_singleton.mp hp
        exact ⟨u, hstep, Or.inl rfl⟩

/-- Running a list of actions from `s`, where each is enabled. -/
def exec (step : σ → α → Option σ) (s : σ) : List α → Option σ
  | [] => some s
  | a :: as => (step s a).bind fun t => exec step t as

/-- The steps `exec` records on the way. -/
def execSteps (step : σ → α → Option σ) (s : σ) : List α → List (σ × α)
  | [] => []
  | a :: as => (s, a) ::
      match step s a with
      | some t => execSteps step t as
      | none => []

/-- The steps are those of the actions. -/
theorem mem_of_execSteps : ∀ {as : List α} {s : σ} {p : σ × α},
    p ∈ execSteps step s as → p.2 ∈ as
  | [], _, _, hp => by cases hp
  | a :: as, s, p, hp => by
    rcases List.mem_cons.mp hp with rfl | hp
    · exact List.mem_cons_self
    · rcases e : step s a with - | v
      · simp [e] at hp
      · rw [e] at hp
        exact List.mem_cons_of_mem _ (mem_of_execSteps hp)

/-- One action more. -/
theorem execSteps_concat {a : α} : ∀ {as : List α} {s : σ}, exec step s as = some t →
    execSteps step s (as ++ [a]) = execSteps step s as ++ [(t, a)]
  | [], s, h => by
    obtain rfl : s = t := by simpa [exec] using h
    rw [List.nil_append, execSteps, execSteps]
    rcases step s a with - | v <;> rfl
  | b :: as, s, h => by
    rcases e : step s b with - | v
    · simp [exec, e] at h
    · have h' : exec step v as = some t := by simpa [exec, e] using h
      simp [execSteps, e, execSteps_concat h']

/-- A list of actions that can be executed is a run. -/
theorem Trace.of_exec : ∀ {as : List α} {s : σ}, exec step s as = some t →
    Trace step s (execSteps step s as) t
  | [], s, h => by
    obtain rfl : s = t := by simpa [exec] using h
    exact .nil
  | a :: as, s, h => by
    rcases e : step s a with - | v
    · simp [exec, e] at h
    · have h' : exec step v as = some t := by simpa [exec, e] using h
      have := (Trace.single e).append (Trace.of_exec h')
      simpa [execSteps, e] using this

theorem exec_append {as bs : List α} (h : exec step s as = some t) (h' : exec step t bs = some u) :
    exec step s (as ++ bs) = some u := by
  induction as generalizing s with
  | nil =>
      obtain rfl := Option.some.inj h
      exact h'
  | cons a as ih =>
      obtain ⟨v, hv, hrest⟩ := Option.bind_eq_some_iff.mp h
      exact Option.bind_eq_some_iff.mpr ⟨v, hv, ih hrest⟩

/-- The recorded steps are the actions, in their order. -/
theorem map_snd_execSteps : ∀ {as : List α} {s : σ}, exec step s as = some t →
    (execSteps step s as).map Prod.snd = as
  | [], _, _ => rfl
  | a :: as, s, h => by
    obtain ⟨v, hv, hrest⟩ := Option.bind_eq_some_iff.mp h
    rw [execSteps, hv, List.map_cons, map_snd_execSteps hrest]

/-- Executing a list of actions and testing where it ends. -/
theorem exec_any {P : σ → Prop} [DecidablePred P] {as : List α}
    (h : (exec step s as).any (fun t => decide (P t)) = true) :
    ∃ t, exec step s as = some t ∧ P t := by
  obtain ⟨t, ht, hp⟩ := (Option.any_eq_true _ _).mp h
  exact ⟨t, ht, of_decide_eq_true hp⟩

/-- What holds of the initial parts of a list holds of every entry and those before it. -/
theorem forall_prefix_of_inits {A : List α → α → Prop} {l : List α}
    (h : ∀ l' ∈ l.inits, ∀ a ∈ l'.getLast?, A l'.dropLast a) :
    ∀ before a, before ++ [a] <+: l → A before a := by
  intro before a hpre
  have ha := h _ ((List.mem_inits _ _).mpr hpre) a (by simp)
  rwa [List.dropLast_concat] at ha

/-! ### The invariant rule -/

/-- **History rule.**  A relation between the steps of a run and the state it
ends in, true of the empty run and kept by every allowed step. -/
theorem Trace.history {I : List (σ × α) → σ → Prop} {A : σ → α → Prop}
    (h : Trace step s steps t) (hok : ∀ p ∈ steps, A p.1 p.2) (h₀ : I [] s)
    (hstep : ∀ {l t a u}, I l t → A t a → step t a = some u → I (l ++ [(t, a)]) u) :
    I steps t := by
  induction h with
  | nil => exact h₀
  | @snoc l t a u _ hs ih =>
      have hI := ih fun p hp => hok p (List.mem_append_left _ hp)
      exact hstep hI (hok (t, a) (by simp)) hs

/-- The history rule where the steps before a step decide whether it is allowed. -/
theorem Trace.history_upTo {I : List (σ × α) → σ → Prop} {A : List (σ × α) → σ × α → Prop}
    (h : Trace step s steps t) (hok : ∀ before p, before ++ [p] <+: steps → A before p)
    (h₀ : I [] s)
    (hstep : ∀ {l t a u}, I l t → A l (t, a) → step t a = some u → I (l ++ [(t, a)]) u) :
    I steps t := by
  induction h with
  | nil => exact h₀
  | @snoc l t a u _ hs ih =>
      have hI := ih fun before p hpre => hok before p (hpre.trans (List.prefix_append l _))
      exact hstep hI (hok l (t, a) List.prefix_rfl) hs

/-- **Invariant rule.**  What holds at the start and is preserved by every
allowed step holds at the end of every allowed run. -/
theorem Trace.invariant {I : σ → Prop} {A : σ → α → Prop}
    (h : Trace step s steps t) (hok : ∀ p ∈ steps, A p.1 p.2) (h₀ : I s)
    (hstep : ∀ {t a u}, I t → A t a → step t a = some u → I u) : I t :=
  h.history (I := fun _ t => I t) hok h₀ hstep

/-- The invariant rule where every step is allowed. -/
theorem Trace.preserved {I : σ → Prop} (h : Trace step s steps t) (h₀ : I s)
    (hstep : ∀ {t a u}, I t → step t a = some u → I u) : I t :=
  h.invariant (A := fun _ _ => True) (fun _ _ => trivial) h₀ fun hI _ hs => hstep hI hs

/-- The allowed part of a run up to a recorded state. -/
theorem Trace.allowed_prefix {A : σ → α → Prop} {before : List (σ × α)}
    {p : σ × α} (hok : ∀ q ∈ steps, A q.1 q.2) (hpre : before ++ [p] <+: steps) :
    ∀ q ∈ before, A q.1 q.2 :=
  fun q hq => hok q (hpre.subset (List.mem_append_left _ hq))

/-- The invariant rule at every state of the run, not only its last. -/
theorem Trace.invariant_mem {I : σ → Prop} {A : σ → α → Prop}
    (h : Trace step s steps t) (hok : ∀ p ∈ steps, A p.1 p.2) (h₀ : I s)
    (hstep : ∀ {t a u}, I t → A t a → step t a = some u → I u) :
    ∀ p ∈ steps, I p.1 := by
  intro p hp
  obtain ⟨before, hpre, htr⟩ := h.prefix_of_mem hp
  exact htr.invariant (Trace.allowed_prefix hok hpre) h₀ hstep

/-- The invariant rule from a recorded state on. -/
theorem Trace.since {I : σ → Prop} {A : σ → α → Prop} (h : Trace step s steps t)
    (hok : ∀ p ∈ steps, A p.1 p.2) {p : σ × α} (hp : p ∈ steps) (h₀ : I p.1)
    (hstep : ∀ {t a u}, I t → A t a → step t a = some u → I u) : I t := by
  induction h with
  | nil => cases hp
  | @snoc l t a u _ hs ih =>
      have hlast : I t → I u := fun ht => hstep ht (hok (t, a) (by simp)) hs
      rcases List.mem_append.mp hp with hp | hp
      · exact hlast (ih (fun q hq => hok q (List.mem_append_left _ hq)) hp)
      · obtain rfl := List.mem_singleton.mp hp
        exact hlast h₀

/-- **Monotonicity rule.**  A transitive relation that every step of the run
respects relates each of its states to the last. -/
theorem Trace.relates {R : σ → σ → Prop}
    (htrans : ∀ {u v x}, R u v → R v x → R u x) (h : Trace step s steps t)
    (hstep : ∀ p ∈ steps, ∀ v, step p.1 p.2 = some v → R p.1 v) :
    ∀ p ∈ steps, R p.1 t := by
  induction h with
  | nil => simp
  | @snoc l t a u _ hs ih =>
      have hlast : R t u := hstep (t, a) (by simp) u hs
      intro p hp
      rcases List.mem_append.mp hp with hp | hp
      · exact htrans (ih (fun q hq => hstep q (List.mem_append_left _ hq)) p hp) hlast
      · obtain rfl := List.mem_singleton.mp hp
        exact hlast

/-! ### What the run has seen -/

/-- `Q` held at some state of the run that took `steps` and ended in `t`. -/
def Seen (steps : List (σ × α)) (t : σ) (Q : σ → Prop) : Prop :=
  (∃ p ∈ steps, Q p.1) ∨ Q t

theorem Seen.now {Q : σ → Prop} (h : Q t) : Seen steps t Q := Or.inr h

theorem Seen.snoc {Q : σ → Prop} {a : α} (h : Seen steps t Q) :
    Seen (steps ++ [(t, a)]) u Q := by
  rcases h with ⟨p, hp, hq⟩ | hq
  · exact Or.inl ⟨p, List.mem_append_left _ hp, hq⟩
  · exact Or.inl ⟨(t, a), by simp, hq⟩

/-- **Past rule.**  If `P` is false at the start and no allowed step makes
it true unless `Q` holds before or after that step, then wherever `P` holds
the run has seen `Q`. -/
theorem Trace.seen {P Q : σ → Prop} {A : σ → α → Prop}
    (h : Trace step s steps t) (hok : ∀ p ∈ steps, A p.1 p.2) (h₀ : ¬ P s)
    (hstep : ∀ {t a u}, A t a → step t a = some u → P u → P t ∨ Q t ∨ Q u)
    (hP : P t) : Seen steps t Q := by
  induction h with
  | nil => exact absurd hP h₀
  | @snoc l t a u _ hs ih =>
      have hok' := fun p hp => hok p (List.mem_append_left _ hp)
      rcases hstep (hok (t, a) (by simp)) hs hP with hp | hq | hq
      · exact (ih hok' hp).snoc
      · exact (Seen.now hq).snoc
      · exact Seen.now hq

/-- What is false at the start and true at the end became true in some step. -/
theorem Trace.turn {P : σ → Prop} (h : Trace step s steps t) (h₀ : ¬ P s) (hP : P t) :
    ∃ p ∈ steps, ¬ P p.1 ∧ ∃ v, step p.1 p.2 = some v ∧ P v := by
  induction h with
  | nil => exact absurd hP h₀
  | @snoc l t a u _ hs ih =>
      by_cases ht : P t
      · obtain ⟨p, hp, hrest⟩ := ih ht
        exact ⟨p, List.mem_append_left _ hp, hrest⟩
      · exact ⟨(t, a), by simp, ht, u, hs, hP⟩

end Lib
