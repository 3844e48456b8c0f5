/-
FlyDesk/Search/Degrade.lean

No provider should be able to sink a search.  `gather` hands over whatever a
task raised, and the loop over the results names a provider as degraded if
that is an `Exception`.  A task that ended in `CancelledError` did not raise
one, and there the loop itself raises.

`search_all_survives_iff` says that this is all that can go wrong: a search
makes at most five steps a provider, it cannot get stuck before all tasks are
done, and then it returns the pair it should just if no provider that was
called ended in `CancelledError`.  What the pair should be is said by how the
calls of the providers' `search` end, whatever the tasks make of it.
`not_search_all_survives_cancelledProvider` is a search that fails this.
-/
import FlyDesk.Lib.Totals
import FlyDesk.Search.MergeLaw
import Mathlib.Data.Fintype.Card

namespace FlyDesk

open Lib

variable {n : ℕ} {providers : Fin n → AsyncFlightProvider} {maxConcurrency : ℕ}
  {breakers : BreakerRegistry} {clock : ℚ} {s t : SearchAll n}
  {steps : List (SearchAll n × SearchMove n)}

/-- The search returns a pair: what a provider delivers that is not in `away`
is in its first component, and a provider that is in `away` or delivers
nothing is named in its second. -/
def SearchAll.Survives (providers : Fin n → AsyncFlightProvider) (away : Fin n → Prop)
    (s : SearchAll n) : Prop :=
  ∃ offers degraded, s.ends = some (.ok (offers, degraded)) ∧
    ∀ i, (∀ found, ¬ away i → (providers i).Delivers found → found.Subperm offers) ∧
      ((away i ∨ ∀ found, ¬ (providers i).Delivers found) → (providers i).name ∈ degraded)

/-! ### Permits -/

/-- The permits a task holds. -/
def SearchPc.held : SearchPc → ℕ
  | .attempt _ | .sleeping _ => 1
  | _ => 0

theorem SearchPc.Over.done {pc : SearchPc} (h : pc.Over) : ∃ r, pc = .done r := by
  cases pc with
  | done r => exact ⟨r, rfl⟩
  | created | queued | attempt i | sleeping i => cases h

theorem SearchPc.Over.held {pc : SearchPc} (h : pc.Over) : pc.held = 0 := by
  obtain ⟨r, rfl⟩ := h.done
  rfl

/-- A task takes its permit out of the semaphore and puts it back. -/
theorem SearchFrame.Steps.permits_add_held {w w' : Fanout} {p : AsyncFlightProvider}
    {pc pc' : SearchPc} (h : SearchFrame.Steps w p pc w' pc') :
    w'.permits + pc'.held = w.permits + pc.held := by
  cases h with
  | turn hpermits _ =>
      show w.permits - 1 + 1 = w.permits
      omega
  | enter | away _ _ | ends _ | again _ | wake => rfl

/-- No permit is lost. -/
def SearchAll.Permitted (maxConcurrency : ℕ) (s : SearchAll n) : Prop :=
  s.shared.permits + s.total (fun f => f.pc.held) = maxConcurrency

theorem SearchAll.Permitted.step {m : SearchMove n} (h : s.Permitted maxConcurrency)
    (hs : s.step m = some t) : t.Permitted maxConcurrency := by
  rw [SearchAll.Permitted] at h ⊢
  cases m with
  | proc i a =>
      obtain ⟨f, hf, htotal⟩ := System.total_proc (fun f => f.pc.held) hs
      have hheld := (SearchFrame.steps_of_step hf).2.permits_add_held
      omega
  | env e =>
      rw [System.total_env _ hs]
      obtain ⟨w, hw, rfl⟩ := System.step_env hs
      have hpermits : w.permits = s.shared.permits := by
        cases e with
        | tick d =>
            obtain ⟨-, hw⟩ := Option.ite_none_right_eq_some.mp hw
            obtain rfl := Option.some.inj hw
            rfl
        | elsewhere name b =>
            obtain rfl := Option.some.inj hw
            rfl
      show w.permits + _ = _
      rw [hpermits, h]

theorem SearchAll.permitted_run
    (h : Trace SearchAll.step (SearchAll.start providers maxConcurrency breakers clock) steps t) :
    t.Permitted maxConcurrency := by
  refine h.preserved (I := fun u => SearchAll.Permitted maxConcurrency u) ?_
    fun hI hs => hI.step hs
  show maxConcurrency + ∑ _i : Fin n, 0 = maxConcurrency
  rw [Finset.sum_const_zero, Nat.add_zero]

/-! ### Progress -/

/-- A task that is not over can move, or it waits for a permit. -/
theorem SearchFrame.queued_of_stuck {w : Fanout} {f : SearchFrame} (h : f.step w () = none) :
    f.pc.Over ∨ f.pc = .queued ∧ w.permits = 0 := by
  obtain ⟨p, pc⟩ := f
  cases pc with
  | created => cases h
  | queued =>
      refine Or.inr ⟨rfl, ?_⟩
      by_contra hpermits
      simp only [SearchFrame.step, if_neg hpermits] at h
      split at h <;> cases h
  | attempt i =>
      simp only [SearchFrame.step] at h
      split at h <;> cases h
  | sleeping i => cases h
  | done r => exact Or.inl trivial

/-- **A search does not get stuck.**  Where no task can move, all are over. -/
theorem SearchAll.over_of_stuck (hK : 1 ≤ maxConcurrency) (h : t.Permitted maxConcurrency)
    (hstuck : ∀ i, t.step (.proc i ()) = none) (i : Fin n) : (t.procs i).pc.Over := by
  have hnone : ∀ j, (t.procs j).step t.shared () = none := fun j =>
    Option.map_eq_none_iff.mp (hstuck j)
  rcases SearchFrame.queued_of_stuck (hnone i) with hover | ⟨-, hpermits⟩
  · exact hover
  · -- all permits are held, and whoever holds one can move
    rw [SearchAll.Permitted, hpermits] at h
    obtain ⟨j, hj⟩ := System.exists_of_total_pos (s := t) (w := fun f => f.pc.held) (by omega)
    rcases SearchFrame.queued_of_stuck (hnone j) with hover | ⟨hq, -⟩
    · rw [hover.held] at hj
      cases hj
    · rw [hq] at hj
      cases hj

/-- The steps the tasks have made. -/
def taskSteps (steps : List (SearchAll n × SearchMove n)) : ℕ :=
  steps.countP fun p => match p.2 with
    | .proc _ _ => true
    | .env _ => false

/-- The steps a task has left, at most. -/
def SearchPc.left : SearchPc → ℕ
  | .created => 5
  | .queued => 4
  | .attempt i => 3 - 2 * i
  | .sleeping _ => 2
  | .done _ => 0

theorem SearchFrame.Steps.left_lt {w w' : Fanout} {p : AsyncFlightProvider} {away : Prop}
    {pc pc' : SearchPc} (h : SearchFrame.Steps w p pc w' pc') (htold : pc.Told p away) :
    pc'.left < pc.left := by
  cases h with
  | enter | away _ _ | turn _ _ => decide
  | @ends i r _ =>
      obtain ⟨-, rfl | ⟨rfl, -⟩⟩ := htold <;> simp [SearchPc.left]
  | @again i hr =>
      obtain ⟨-, rfl | ⟨rfl, -⟩⟩ := htold
      · decide
      · exact absurd rfl (retryStep_eq_again.mp hr).2
  | wake =>
      obtain ⟨-, rfl, -⟩ := htold
      decide

/-- **The tasks make at most five steps each.** -/
theorem SearchAll.taskSteps_le
    (h : Trace SearchAll.step (SearchAll.start providers maxConcurrency breakers clock) steps t) :
    taskSteps steps ≤ 5 * n := by
  have hleft : t.Tells providers steps ∧
      taskSteps steps + t.total (fun f => f.pc.left) ≤ 5 * n := by
    refine h.history (A := fun _ _ => True)
      (I := fun l u => SearchAll.Tells providers l u ∧
        taskSteps l + u.total (fun f => f.pc.left) ≤ 5 * n)
      (fun _ _ => trivial) ⟨SearchAll.tells_run .nil, ?_⟩ ?_
    · show 0 + ∑ _i : Fin n, 5 ≤ 5 * n
      simp [Nat.mul_comm]
    · rintro l u m v ⟨htells, hle⟩ - hs
      refine ⟨htells.step hs, ?_⟩
      cases m with
      | proc i a =>
          obtain ⟨f, hf, htotal⟩ := System.total_proc (fun f => f.pc.left) hs
          obtain ⟨hp, htold⟩ := htells i
          have hlt := (SearchFrame.steps_of_step hf).2.left_lt (hp ▸ htold)
          have hone : taskSteps (l ++ [(u, .proc i a)]) = taskSteps l + 1 := by
            simp [taskSteps]
          omega
      | env e =>
          rw [System.total_env _ hs]
          simpa [taskSteps] using hle
  omega

/-! ### Survival -/

theorem Exn.isException_iff {e : Exn} : e.isException = true ↔ e ≠ .cancelledError := by
  cases e <;> simp [Exn.isException]

/-- What a search returns names every provider without a contribution. -/
theorem Merged.name_mem {away : Fin n → Prop} {contribution : Fin n → Option (List Offer)}
    {offers : List Offer} {degraded : List String}
    (h : Merged providers away contribution offers degraded) {i : Fin n}
    (hi : contribution i = none) : (providers i).name ∈ degraded := by
  rw [h.degraded]
  exact List.mem_map.mpr ⟨i, by simp [hi], rfl⟩

/-- What a search returns has every contribution in it. -/
theorem Merged.found_subperm {away : Fin n → Prop} {contribution : Fin n → Option (List Offer)}
    {offers found : List Offer} {degraded : List String}
    (h : Merged providers away contribution offers degraded) {i : Fin n}
    (hi : contribution i = some found) : found.Subperm offers := by
  have hsub : found.Sublist ((List.finRange n).flatMap fun i => (contribution i).getD []) := by
    refine List.sublist_flatten_of_mem (List.mem_map.mpr ⟨i, List.mem_finRange i, ?_⟩)
    rw [hi]
    rfl
  exact hsub.subperm.trans h.offers.perm.symm.subperm

/-- Once all tasks are over, the search survives just if none was cancelled. -/
theorem SearchAll.Tells.survives_iff (h : t.Tells providers steps)
    (hover : ∀ i, (t.procs i).pc.Over) :
    t.Survives providers (FoundOpen steps) ↔
      ∀ i, (t.procs i).pc ≠ .done (.error .cancelledError) := by
  choose r hr using fun i => (hover i).done
  have hgather := SearchAll.gather_eq_some.mpr ⟨r, hr, rfl⟩
  constructor
  · -- the loop has raised at the first result that is no `Exception`
    rintro ⟨offers, degraded, hret, -⟩ i hi
    rw [SearchAll.ends, hgather] at hret
    obtain ⟨hexc, -, -⟩ := merge_eq_ok.mp (Option.some.inj hret)
    have hcancel := hexc _ (List.mem_map_of_mem (List.mem_finRange i)) .cancelledError
      (SearchPc.done.inj ((hr i).symm.trans hi))
    cases hcancel
  · intro hnone
    -- every result is a list or an `Exception`: the loop comes to its end
    have hexc : ∀ p ∈ (List.finRange n).map fun i => ((t.procs i).provider.name, r i),
        ∀ e, p.2 = .error e → e.isException = true := by
      intro p hp e he
      obtain ⟨i, -, rfl⟩ := List.mem_map.mp hp
      rw [Exn.isException_iff]
      rintro rfl
      exact hnone i ((hr i).trans (congrArg _ he))
    obtain ⟨offers, degraded, hret⟩ : ∃ offers degraded,
        t.ends = some (.ok (offers, degraded)) := by
      rw [SearchAll.ends, hgather, Option.map_some]
      exact ⟨_, _, congrArg some (merge_eq_ok.mpr ⟨hexc, rfl, rfl⟩)⟩
    have hmerged := h.merged hret
    refine ⟨offers, degraded, hret, fun i => ⟨fun found haway hfound => ?_, fun hno => ?_⟩⟩
    · exact hmerged.found_subperm ((hmerged.delivers i found).mpr ⟨haway, hfound⟩)
    · refine hmerged.name_mem (Option.eq_none_iff_forall_ne_some.mpr fun found hi => ?_)
      obtain ⟨haway, hfound⟩ := (hmerged.delivers i found).mp hi
      rcases hno with ha | hnone
      · exact haway ha
      · exact hnone found hfound

/-- A task was cancelled just if its provider was called and ended so. -/
theorem SearchPc.Told.cancelled_iff {p : AsyncFlightProvider} {away : Prop} {pc : SearchPc}
    (h : pc.Told p away) (hover : pc.Over) :
    pc = .done (.error .cancelledError) ↔ ¬ away ∧ p.Cancels := by
  rw [← AsyncFlightProvider.answers_cancelled]
  obtain ⟨r, rfl⟩ := hover.done
  rcases h with ⟨ha, rfl⟩ | ⟨ha, hr⟩
  · exact iff_of_false nofun fun hn => hn.1 ha
  · constructor
    · intro he
      exact ⟨ha, SearchPc.done.inj he ▸ hr⟩
    · rintro ⟨-, hc⟩
      rw [hr.unique hc]

/-- **No provider sinks the search, unless a call of it ends in
`CancelledError`.**  The tasks of a search make at most five steps each; when
none can move the search has survived just if every provider whose calls end
so was turned away. -/
theorem search_all_survives_iff (hK : 1 ≤ maxConcurrency)
    (hrun : Trace SearchAll.step
      (SearchAll.start providers maxConcurrency breakers clock) steps t) :
    taskSteps steps ≤ 5 * n ∧
      ((∀ i, t.step (.proc i ()) = none) →
        (t.Survives providers (FoundOpen steps) ↔
          ∀ i, (providers i).Cancels → FoundOpen steps i)) := by
  refine ⟨SearchAll.taskSteps_le hrun, fun hstuck => ?_⟩
  have htells := SearchAll.tells_run hrun
  have hover := SearchAll.over_of_stuck hK (SearchAll.permitted_run hrun) hstuck
  rw [htells.survives_iff hover]
  refine forall_congr' fun i => ?_
  rw [Ne, (htells i).2.cancelled_iff (hover i), and_comm, not_and, not_not]

/-- A search over a healthy and a broken provider survives: it returns a pair
that has the flight, and that names the broken one. -/
theorem search_all_survives_brokenProvider :
    let start := SearchAll.start Sample.mocks 10 (fun _ => none) 0
    ∃ t, exec SearchAll.step start Sample.turns = some t ∧
      t.Survives Sample.mocks (FoundOpen (execSteps SearchAll.step start Sample.turns)) ∧
      (Sample.mocks 0).Delivers [Sample.flight] ∧
      ∀ found, ¬ (Sample.mocks 1).Delivers found := by
  obtain ⟨t, ht, hstuck⟩ : ∃ t, exec SearchAll.step
      (SearchAll.start Sample.mocks 10 (fun _ => none) 0) Sample.turns = some t ∧
      ∀ i, t.step (.proc i ()) = none :=
    ⟨_, rfl, Fin.forall_fin_two.mpr ⟨rfl, rfl⟩⟩
  have hnone : ∀ i, ¬ (Sample.mocks i).Cancels := by
    refine Fin.forall_fin_two.mpr ⟨?_, ?_⟩ <;> rintro (h | ⟨-, h⟩) <;> cases h
  refine ⟨t, ht, ?_, Or.inl rfl, ?_⟩
  · exact ((search_all_survives_iff (by decide) (Trace.of_exec ht)).2 hstuck).mpr
      fun i hi => absurd hi (hnone i)
  · rintro found (h | ⟨-, h⟩) <;> cases h

namespace Sample

/-- A healthy provider, and one whose `search` ends in `CancelledError`. -/
def cancelling : Fin 2 → AsyncFlightProvider
  | 0 => { name := "healthy", search := fun _ => .returns [flight] }
  | 1 => { name := "cancelled", search := fun _ => .raises .cancelledError }

end Sample

/-- The cancelled provider sinks the search: `search_all` raises a `TypeError`,
and the healthy provider's offers are lost. -/
theorem not_search_all_survives_cancelledProvider :
    let start := SearchAll.start Sample.cancelling 10 (fun _ => none) 0
    let moves : List (SearchMove 2) :=
      [.proc 0 (), .proc 1 (), .proc 0 (), .proc 1 (), .proc 0 (), .proc 1 ()]
    ∃ t, exec SearchAll.step start moves = some t ∧
      (∀ i, t.step (.proc i ()) = none) ∧ t.ends = some (.error .typeError) ∧
      ¬ t.Survives Sample.cancelling (FoundOpen (execSteps SearchAll.step start moves)) := by
  refine ⟨_, rfl, Fin.forall_fin_two.mpr ⟨rfl, rfl⟩, rfl, ?_⟩
  rintro ⟨offers, degraded, hret, -⟩
  cases hret

end FlyDesk
