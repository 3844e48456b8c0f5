/-
FlyDesk/Lib/Linearize.lean

Linearizability of interleaved processes.  Every process carries out one operation, in as
many steps as it takes; `done` says what has been done for it, once something has.  The
step at which that comes about is its point, and `linearized` lists what was done in the
order of the points.

Two things make this list an account of the run.  It is in the order of time
(`Operations.before`): where one process is done and another has not begun, the first comes
before the second.  And it is a run of the sequential specification, where `Trace.legal`
finds it to be one step by step.
-/
import FlyDesk.Lib.Interleave
import Mathlib.Data.List.Nodup

namespace Lib

variable {ι σ π α ε ρ δ : Type*} [DecidableEq ι]

/-! ### Points -/

section Points

variable (f : σ → π → α → Option (σ × π)) (g : σ → ε → Option σ) (done : π → Option ρ)

/-- What is done at a step: a process had nothing done, and now it has. -/
def System.point : System ι σ π × Move ι α ε → Option (ι × ρ)
  | (s, .proc i a) =>
    match done (s.procs i) with
    | none => ((s.step f g (.proc i a)).bind fun t => done (t.procs i)).map fun r => (i, r)
    | some _ => none
  | (_, .env _) => none

/-- What a run has done, in the order of the points. -/
def System.linearized (steps : List (System ι σ π × Move ι α ε)) : List (ι × ρ) :=
  steps.filterMap (System.point f g done)

end Points

variable {f : σ → π → α → Option (σ × π)} {g : σ → ε → Option σ} {done : π → Option ρ}
variable {s t : System ι σ π} {m : Move ι α ε} {steps : List (System ι σ π × Move ι α ε)}
variable {i j : ι} {r : ρ}

theorem System.point_eq_some (h : s.step f g m = some t) :
    System.point f g done (s, m) = some (i, r) ↔
      (∃ a, m = .proc i a) ∧ done (s.procs i) = none ∧ done (t.procs i) = some r := by
  cases m with
  | env e => simp [System.point]
  | proc k a =>
      rcases hk : done (s.procs k) with - | r'
      · simp only [System.point, hk, h, Option.bind_some, Option.map_eq_some_iff,
          Prod.mk.injEq]
        constructor
        · rintro ⟨_, hr, rfl, rfl⟩
          exact ⟨⟨a, rfl⟩, hk, hr⟩
        · rintro ⟨⟨a', ha⟩, -, hr⟩
          obtain ⟨rfl, rfl⟩ := Move.proc.inj ha
          exact ⟨r, hr, rfl, rfl⟩
      · refine iff_of_false (by simp [System.point, hk]) ?_
        rintro ⟨⟨a', ha⟩, hnone, -⟩
        obtain ⟨rfl, rfl⟩ := Move.proc.inj ha
        cases hk.symm.trans hnone

theorem System.linearized_snoc (p : System ι σ π × Move ι α ε) :
    System.linearized f g done (steps ++ [p]) =
      System.linearized f g done steps ++ (System.point f g done p).toList := by
  rw [System.linearized, List.filterMap_append]
  cases hp : System.point f g done p <;> simp [System.linearized, hp]

variable (f g done) in
theorem System.linearized_prefix {before : List (System ι σ π × Move ι α ε)}
    (h : before <+: steps) :
    System.linearized f g done before <+: System.linearized f g done steps :=
  h.filterMap _

/-! ### The order of time -/

/-- A process has one operation: `pending` says that it may still take effect. -/
structure Operations (f : σ → π → α → Option (σ × π)) (pending : π → Prop)
    (done : π → Option ρ) : Prop where
  pending_done : ∀ {p}, pending p → done p = none
  pending_step : ∀ {w p a w' p'}, f w p a = some (w', p') → pending p' → pending p
  done_step : ∀ {w p a w' p' r}, f w p a = some (w', p') → done p' = some r →
    done p = some r ∨ pending p

variable {pending : π → Prop}

/-- What has been done is what is done for the processes that are not pending. -/
structure Accounted (pending : π → Prop) (done : π → Option ρ) (hist : List (ι × ρ))
    (s : System ι σ π) : Prop where
  nodup : (hist.map Prod.fst).Nodup
  pending : ∀ i, pending (s.procs i) → i ∉ hist.map Prod.fst
  done : ∀ i r, done (s.procs i) = some r → (i, r) ∈ hist

theorem Operations.accounted_step (hO : Operations f pending done) {hist : List (ι × ρ)}
    (h : Accounted pending done hist s) (hs : s.step f g m = some t) :
    Accounted pending done (hist ++ (System.point f g done (s, m)).toList) t := by
  rcases hp : System.point f g done (s, m) with - | ⟨k, r⟩
  · rw [Option.toList_none, List.append_nil]
    refine ⟨h.nodup, fun i hi => ?_, fun i r hi => ?_⟩
    · rcases System.procs_of_step hs i with he | ⟨a, -, hf⟩
      · exact h.pending i (he ▸ hi)
      · exact h.pending i (hO.pending_step hf hi)
    · rcases System.procs_of_step hs i with he | ⟨a, rfl, hf⟩
      · exact h.done i r (he ▸ hi)
      · rcases hO.done_step hf hi with hdone | hpending
        · exact h.done i r hdone
        · -- then this step would be its point
          have hpoint := (System.point_eq_some hs).mpr ⟨⟨a, rfl⟩, hO.pending_done hpending, hi⟩
          cases hp.symm.trans hpoint
  · obtain ⟨⟨a, rfl⟩, hnone, hsome⟩ := (System.point_eq_some hs).mp hp
    have hpending : pending (s.procs k) := by
      rcases System.procs_of_step hs k with he | ⟨b, -, hf⟩
      · cases hnone.symm.trans (he ▸ hsome)
      · exact (hO.done_step hf hsome).resolve_left fun hd => by cases hnone.symm.trans hd
    rw [Option.toList_some]
    refine ⟨?_, fun i hi => ?_, fun i r' hi => ?_⟩
    · rw [List.map_append]
      exact List.nodup_append_comm.mpr (List.nodup_cons.mpr ⟨h.pending k hpending, h.nodup⟩)
    · rw [List.map_append, List.mem_append, not_or]
      rcases System.still_or_moved hs i with ⟨hne, he⟩ | ⟨b, hb, -⟩
      · have hik : i ≠ k := fun hik => hne a (by rw [hik])
        exact ⟨h.pending i (he ▸ hi), by simpa using hik⟩
      · obtain ⟨rfl, -⟩ := Move.proc.inj hb
        cases (hO.pending_done hi).symm.trans hsome
    · rcases System.still_or_moved hs i with ⟨-, he⟩ | ⟨b, hb, -⟩
      · exact List.mem_append_left _ (h.done i r' (he ▸ hi))
      · obtain ⟨rfl, -⟩ := Move.proc.inj hb
        obtain rfl := Option.some.inj (hsome.symm.trans hi)
        exact List.mem_append_right _ (List.mem_singleton.mpr rfl)

/-- **What is done is on the list, once.** -/
theorem Operations.accounted (hO : Operations f pending done)
    (h : Trace (System.step f g) s steps t) (hs : ∀ i, pending (s.procs i)) :
    Accounted pending done (System.linearized f g done steps) t := by
  refine h.history (A := fun _ _ => True)
    (I := fun l u => Accounted pending done (System.linearized f g done l) u)
    (fun _ _ => trivial) ⟨List.nodup_nil, fun _ _ => List.not_mem_nil, fun i r hi => ?_⟩ ?_
  · cases (hO.pending_done (hs i)).symm.trans hi
  · intro l u m v hI _ hv
    rw [System.linearized_snoc]
    exact hO.accounted_step hI hv

/-- **The list is in the order of time.**  Where `i` is done and `j` is still pending, `i`
comes before `j`. -/
theorem Operations.before (hO : Operations f pending done)
    (h : Trace (System.step f g) s steps t) (hs : ∀ i, pending (s.procs i))
    {p : System ι σ π × Move ι α ε} (hp : p ∈ steps) (hi : done (p.1.procs i) = some r)
    (hj : pending (p.1.procs j)) :
    ∃ l l', System.linearized f g done steps = l ++ l' ∧ (i, r) ∈ l ∧ j ∉ l.map Prod.fst := by
  obtain ⟨before, hpre, hbefore⟩ := h.prefix_of_mem hp
  have haccounted := hO.accounted hbefore hs
  obtain ⟨l', hl'⟩ := System.linearized_prefix f g done
    ((List.prefix_append before [p]).trans hpre)
  exact ⟨_, l', hl'.symm, haccounted.done i r hi, haccounted.pending j hj⟩

/-! ### The sequential specification -/

/-- `Legal spec d hist d'`: one operation after the other leads from `d` to `d'`. -/
inductive Legal {ω : Type*} (spec : δ → ω → δ → Prop) (d : δ) : List ω → δ → Prop
  | nil : Legal spec d [] d
  | snoc {hist d' e d''} : Legal spec d hist d' → spec d' e d'' →
      Legal spec d (hist ++ [e]) d''

/-- **Step by step.**  If what a step does is an operation of the specification, and a step
that does nothing leaves the relation to its state, the list is a run of it. -/
theorem Trace.legal {spec : δ → ι × ρ → δ → Prop} {d₀ : δ} {R : δ → System ι σ π → Prop}
    {A : System ι σ π → Move ι α ε → Prop} (h : Trace (System.step f g) s steps t)
    (hok : ∀ p ∈ steps, A p.1 p.2) (h₀ : R d₀ s)
    (hpoint : ∀ {d u m v e}, R d u → A u m → u.step f g m = some v →
      System.point f g done (u, m) = some e → ∃ d', spec d e d' ∧ R d' v)
    (hno : ∀ {d u m v}, R d u → A u m → u.step f g m = some v →
      System.point f g done (u, m) = none → R d v) :
    ∃ d, Legal spec d₀ (System.linearized f g done steps) d ∧ R d t := by
  refine h.history
    (I := fun l u => ∃ d, Legal spec d₀ (System.linearized f g done l) d ∧ R d u)
    hok ⟨d₀, .nil, h₀⟩ ?_
  rintro l u m v ⟨d, hd, hR⟩ hA hv
  rw [System.linearized_snoc]
  cases hp : System.point f g done (u, m) with
  | none =>
      rw [Option.toList_none, List.append_nil]
      exact ⟨d, hd, hno hR hA hv hp⟩
  | some e =>
      obtain ⟨d', hspec, hR'⟩ := hpoint hR hA hv hp
      exact ⟨d', hd.snoc hspec, hR'⟩

end Lib
