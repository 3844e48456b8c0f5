/-
FlyDesk/Events/DrainLaw.lean

The relay drains the outbox.  `Drain.Accounted` counts, for a run without
aborted passes, what `Drain.Relayed` says is there: the log is exact, every
pass handles as many orders as the limit of the query allows, and the steps
are those of the passes and of the turns.  So no more passes can have ended
than the pending orders fill batches, and one that returns 0.

With aborted passes the log may have messages more than once; that a pass
returns 0 still means that nothing waits (`Relayed.of_over`).
-/
import FlyDesk.Events.Drain
import Mathlib.Algebra.Order.BigOperators.Group.List
import Mathlib.Algebra.Order.Ring.Nat

namespace FlyDesk

open Lib

namespace RelayPc

/-- A pass is being made. -/
def running : RelayPc → ℕ
  | .idle _ => 0
  | _ => 1

/-- The events the pass has published. -/
def counted : RelayPc → ℕ
  | .idle _ => 0
  | .orders _ n => n
  | .events _ _ _ _ _ n => n

/-- The steps of the pass that belong to no turn that is over: the loading, and
those of the turn at hand. -/
def spent : RelayPc → ℕ
  | .idle _ => 0
  | .orders _ _ => 1
  | .events _ done _ _ _ _ => 2 + done.length

/-- How a step into an idle relay ends a pass: it returns, it raises, or it is
stopped. -/
theorem ended_cases {w w' : World} {pc : RelayPc} {last : Option (Except Exn ℕ)}
    {choice : RelayChoice} (h : pc.step w choice = some (w', .idle last)) :
    (∃ n, pc = .orders [] n ∧ last = some (.ok n)) ∨
      (∃ last' ids e, pc = .idle last' ∧ last = some (.error e) ∧
        OrderRepository.UnpublishedBatch w.orders ids ∧
        OrderRepository.findWithUnpublishedOutbox w.orders ids = .error e) ∨
      (∃ order done rest n, pc = .events order done [] true rest n ∧
        last = some (.error .duplicateKeyError) ∧
        OrderRepository.save w.orders { order with outbox := done } = none) ∨
      ∃ how, choice = .stop how ∧ last = how.raised.map .error := by
  unfold RelayPc.step at h
  split at h
  · -- a pass begins
    split at h
    · rename_i hbatch
      split at h
      · cases h
      · rename_i e hfind
        obtain ⟨-, hlast⟩ := Prod.mk.inj (Option.some.inj h)
        exact Or.inr (Or.inl ⟨_, _, e, rfl, (RelayPc.idle.inj hlast).symm, hbatch, hfind⟩)
    · cases h
  · -- a pass returns
    obtain ⟨-, hlast⟩ := Prod.mk.inj (Option.some.inj h)
    exact Or.inl ⟨_, rfl, (RelayPc.idle.inj hlast).symm⟩
  · cases h
  · split at h <;> cases h
  · -- the end of the outbox
    rename_i changed _ _ _
    cases changed with
    | false => cases h
    | true =>
        rw [if_pos rfl] at h
        split at h
        · cases h
        · rename_i hsave
          obtain ⟨-, hlast⟩ := Prod.mk.inj (Option.some.inj h)
          exact Or.inr (Or.inr (Or.inl
            ⟨_, _, _, _, rfl, (RelayPc.idle.inj hlast).symm, hsave⟩))
  · obtain ⟨-, hlast⟩ := Prod.mk.inj (Option.some.inj h)
    exact Or.inr (Or.inr (Or.inr ⟨_, rfl, (RelayPc.idle.inj hlast).symm⟩))
  · obtain ⟨-, hlast⟩ := Prod.mk.inj (Option.some.inj h)
    exact Or.inr (Or.inr (Or.inr ⟨_, rfl, (RelayPc.idle.inj hlast).symm⟩))
  · cases h

/-- A pass that returns has come to the end of its orders. -/
theorem returned_cases {w w' : World} {pc : RelayPc} {n : ℕ} {choice : RelayChoice}
    (h : pc.step w choice = some (w', .idle (some (.ok n)))) : pc = .orders [] n := by
  obtain ⟨m, hpc, hlast⟩ | ⟨_, _, _, _, hlast, _⟩ | ⟨_, _, _, _, _, hlast, _⟩ | ⟨how, _, hlast⟩ :=
    ended_cases h
  · obtain rfl := Except.ok.inj (Option.some.inj hlast)
    exact hpc
  · cases hlast
  · cases hlast
  · cases how <;> cases hlast

end RelayPc

namespace Drain

/-- The choice is no stop. -/
def NoStop (choice : RelayChoice) : Prop := ∀ how, choice ≠ .stop how

/-- What the passes of a run have returned or raised, in order. -/
def passResults (steps : List (Drain × RelayChoice)) : List (Except Exn ℕ) :=
  steps.filterMap fun p =>
    match p.1.step p.2 with
    | some (_, .idle last) => last
    | _ => none

/-- The account of a run without aborted passes, after `count` steps and
passes that have returned `ns`. -/
structure Accounted (w₀ : World) (handled : List OrderDoc) (count : ℕ) (ns : List ℕ)
    (s : Drain) : Prop where
  log : s.1.published =
    w₀.published ++ (handled.flatMap OrderDoc.pendingMessages ++ s.2.sent)
  total : ns.sum + s.2.counted =
    (handled.flatMap OrderDoc.pendingMessages ++ s.2.sent).length
  steps : count =
    2 * ns.length + (handled.map fun d => d.outbox.length + 2).sum + s.2.spent
  batch : handled.length + s.2.held.length =
    min (pendingOrders w₀) (100 * (ns.length + s.2.running))
  fresh : s.2.counted = 0 ↔
    handled.length = min (pendingOrders w₀) (100 * ns.length) ∧ s.2.sent = []
  grown : min (pendingOrders w₀) (100 * ns.length) ≤ handled.length
  passes : 100 * ns.length < pendingOrders w₀ + 100 ∨
    s.Over ∧ 100 * ns.length < pendingOrders w₀ + 200
  at_end : s.Over → handled.length = pendingOrders w₀

variable {w₀ w : World} {handled : List OrderDoc} {last : Option (Except Exn ℕ)} {pc : RelayPc}
  {order : Order} {done todo : List OutboxEvent} {event : OutboxEvent} {changed : Bool}
  {rest batch : List Order} {n count : ℕ} {ns : List ℕ}

theorem not_over_of_running (h : pc.running = 1) : ¬ Over (w, pc) := by
  intro ho
  obtain rfl : pc = .idle (some (.ok 0)) := ho
  cases h

/-- A pass that is being made has begun because none before it returned 0. -/
theorem Accounted.passes_of_not_over {s : Drain} (h : Accounted w₀ handled count ns s)
    (hno : ¬ s.Over) : 100 * ns.length < pendingOrders w₀ + 100 :=
  h.passes.resolve_right fun ho => hno ho.1

theorem accounted_start : Accounted w₀ [] 0 [] (w₀, .idle none) where
  log := (List.append_nil _).symm
  total := rfl
  steps := rfl
  batch := by simp [RelayPc.held, RelayPc.running]
  fresh := by simp [RelayPc.counted, RelayPc.sent]
  grown := by simp
  passes := Or.inl (by simp)
  at_end := nofun

theorem Accounted.loaded {ids : List String} (hwritten : ∀ d ∈ w₀.orders.docs, d.Written)
    (hr : Relayed w₀ handled (w, .idle last)) (h : Accounted w₀ handled count ns (w, .idle last))
    (hno : ¬ Over (w, .idle last)) (hids : OrderRepository.UnpublishedBatch w.orders ids)
    (hfind : OrderRepository.findWithUnpublishedOutbox w.orders ids = .ok batch) :
    Accounted w₀ handled (count + 1) ns (w, .orders batch 0) := by
  have hlen : batch.length = min 100 (pendingOrders w) := batch_length hwritten hr hids hfind
  have hleft := hr.pending_left
  have hbatch : handled.length + 0 = min (pendingOrders w₀) (100 * (ns.length + 0)) := h.batch
  exact
    { log := h.log
      total := h.total
      steps := congrArg (· + 1) h.steps
      batch := by
        show handled.length + batch.length = min _ (100 * (ns.length + 1))
        omega
      fresh := h.fresh
      grown := h.grown
      passes := Or.inl (h.passes_of_not_over hno)
      at_end := nofun }

theorem Accounted.picked (h : Accounted w₀ handled count ns (w, .orders (order :: rest) n)) :
    Accounted w₀ handled (count + 1) ns (w, .events order [] order.outbox false rest n) where
  log := h.log
  total := h.total
  steps := congrArg (· + 1) h.steps
  batch := h.batch
  fresh := h.fresh
  grown := h.grown
  passes := Or.inl (h.passes_of_not_over (not_over_of_running rfl))
  at_end := nofun

theorem Accounted.skipped (hpub : event.publishedAt ≠ none)
    (hr : Relayed w₀ handled (w, .events order done (event :: todo) changed rest n))
    (h : Accounted w₀ handled count ns (w, .events order done (event :: todo) changed rest n)) :
    Accounted w₀ handled (count + 1) ns
      (w, .events order (done ++ [event]) todo changed rest n) := by
  have hsent := (hr.skipped hpub).2
  exact
    { log := hsent ▸ h.log
      total := hsent ▸ h.total
      steps := by
        rw [h.steps, RelayPc.spent, RelayPc.spent, List.length_append, List.length_singleton]
        omega
      batch := h.batch
      fresh := hsent ▸ h.fresh
      grown := h.grown
      passes := Or.inl (h.passes_of_not_over (not_over_of_running rfl))
      at_end := nofun }

theorem Accounted.published (now : DateTime) (hpub : event.publishedAt = none)
    (hr : Relayed w₀ handled (w, .events order done (event :: todo) changed rest n))
    (h : Accounted w₀ handled count ns (w, .events order done (event :: todo) changed rest n)) :
    Accounted w₀ handled (count + 1) ns (w.publish (event.message order.id),
      .events order (done ++ [event.stamp now]) todo true rest (n + 1)) := by
  have hsent := (hr.published now hpub).2
  have hlog : w.published = _ := h.log
  have htotal : ns.sum + n = _ := h.total
  exact
    { log := by
        show w.published ++ [event.message order.id] = _
        rw [hsent, hlog, List.append_assoc, List.append_assoc]
      total := by
        show ns.sum + (n + 1) = _
        rw [hsent, ← List.append_assoc, List.length_append, ← htotal]
        rfl
      steps := by
        rw [h.steps, RelayPc.spent, RelayPc.spent, List.length_append, List.length_singleton]
        omega
      batch := h.batch
      fresh := by
        refine iff_of_false (Nat.succ_ne_zero n) fun hf => ?_
        rw [hsent] at hf
        exact List.append_ne_nil_of_right_ne_nil _ (List.cons_ne_nil _ _) hf.2
      grown := h.grown
      passes := Or.inl (h.passes_of_not_over (not_over_of_running rfl))
      at_end := nofun }

/-- The turn that ends has published something. -/
theorem Relayed.sent_ne_nil (h : Relayed w₀ handled (w, .events order done [] changed rest n)) :
    (RelayPc.events order done [] changed rest n).sent = order.modelDump.pendingMessages ∧
      order.modelDump.pendingMessages ≠ [] := by
  obtain ⟨-, hdone⟩ := h.all_stamped
  obtain ⟨-, -, hwait⟩ := h.at_hand
  refine ⟨?_, ?_⟩
  · rw [RelayPc.sent_events (List.append_nil _).symm hdone, Order.pendingMessages_modelDump]
  · rw [Order.waits_modelDump] at hwait
    obtain ⟨e, he, hew⟩ := List.any_eq_true.mp hwait
    rw [Order.pendingMessages_modelDump]
    exact List.ne_nil_of_mem (List.mem_map.mpr ⟨e, List.mem_filter.mpr ⟨he, hew⟩, rfl⟩)

theorem Accounted.saved {col : Collection OrderDoc}
    (hr : Relayed w₀ handled (w, .events order done [] changed rest n))
    (h : Accounted w₀ handled count ns (w, .events order done [] changed rest n)) :
    Accounted w₀ (handled ++ [order.modelDump]) (count + 1) ns
      ({ w with orders := col }, .orders rest n) := by
  obtain ⟨hsent, hne⟩ := hr.sent_ne_nil
  have hflat : (handled ++ [order.modelDump]).flatMap OrderDoc.pendingMessages ++ [] =
      handled.flatMap OrderDoc.pendingMessages ++
        (RelayPc.events order done [] changed rest n).sent := by
    rw [List.append_nil, List.flatMap_append, hsent]
    simp
  have hlen : done.length = order.modelDump.outbox.length := by
    obtain ⟨-, hdone⟩ := hr.all_stamped
    rw [← hdone.length_eq]
    exact (List.length_map _).symm
  have hbatch : handled.length + (rest.length + 1) =
    min (pendingOrders w₀) (100 * (ns.length + 1)) := h.batch
  have hgrown := h.grown
  exact
    { log := hflat ▸ h.log
      total := hflat ▸ h.total
      steps := by
        rw [h.steps, List.map_append, List.sum_append, RelayPc.spent, RelayPc.spent, hlen]
        simp only [List.map_cons, List.map_nil, List.sum_cons, List.sum_nil]
        omega
      batch := by
        show (handled ++ [order.modelDump]).length + rest.length = _
        rw [List.length_append, List.length_singleton, Nat.add_assoc, Nat.add_comm 1]
        exact hbatch
      fresh := by
        refine iff_of_false (fun hn => ?_) (fun hf => ?_)
        · have := (h.fresh.mp hn).2
          exact hne (hsent ▸ this)
        · have := hf.1
          rw [List.length_append, List.length_singleton] at this
          omega
      grown := by
        rw [List.length_append]
        exact hgrown.trans (Nat.le_add_right _ _)
      passes := Or.inl (h.passes_of_not_over (not_over_of_running rfl))
      at_end := nofun }

/-- A pass returns. -/
theorem Accounted.returned (h : Accounted w₀ handled count ns (w, .orders [] n)) :
    Accounted w₀ handled (count + 1) (ns ++ [n]) (w, .idle (some (.ok n))) := by
  have htotal : ns.sum + n = _ := h.total
  have hbatch : handled.length + 0 = min (pendingOrders w₀) (100 * (ns.length + 1)) := h.batch
  have hfresh : n = 0 ↔ handled.length = min (pendingOrders w₀) (100 * ns.length) ∧ [] = [] :=
    h.fresh
  have hgrown := h.grown
  have hpasses := h.passes_of_not_over (not_over_of_running rfl)
  have hlength : (ns ++ [n]).length = ns.length + 1 := List.length_append
  exact
    { log := h.log
      total := by
        rw [List.sum_append, List.sum_singleton, htotal]
        rfl
      steps := by
        rw [h.steps, hlength, RelayPc.spent, RelayPc.spent]
        omega
      batch := by
        show handled.length + 0 = min _ (100 * ((ns ++ [n]).length + 0))
        rw [hlength]
        exact hbatch
      fresh := by
        rw [hlength]
        exact iff_of_true rfl ⟨hbatch, rfl⟩
      grown := by
        rw [hlength]
        exact hbatch.ge
      passes := by
        rw [hlength]
        rcases Nat.eq_zero_or_pos n with rfl | hn
        · exact Or.inr ⟨rfl, by omega⟩
        · -- it has handled an order, so there were some left
          refine Or.inl ?_
          have hne : handled.length ≠ min (pendingOrders w₀) (100 * ns.length) := fun he =>
            hn.ne' (hfresh.mpr ⟨he, rfl⟩)
          omega
      at_end := by
        intro ho
        obtain rfl : n = 0 := by
          have := Option.some.inj (RelayPc.idle.inj ho)
          exact Except.ok.inj this
        have := (hfresh.mp rfl).1
        omega }

/-! ### Runs -/

/-- The query of a pass returns orders that can be read. -/
theorem Relayed.find_ok {ids : List String} (hwritten : ∀ d ∈ w₀.orders.docs, d.Written)
    (h : Relayed w₀ handled (w, pc)) (hids : OrderRepository.UnpublishedBatch w.orders ids) :
    ∃ batch, OrderRepository.findWithUnpublishedOutbox w.orders ids = .ok batch := by
  refine mapM_ok_iff.mpr fun d hd => ?_
  obtain ⟨hdocs, hp⟩ := hids.mem_getAll hd
  exact (hwritten d (h.unhandled hdocs hp).1).toOrder_ok

/-- **One step of a run without aborted passes**: it keeps the account, and a
pass that ends has returned. -/
theorem Accounted.step {s t : Drain} {choice : RelayChoice}
    (hwritten : ∀ d ∈ w₀.orders.docs, d.Written) (hr : Relayed w₀ handled s)
    (h : Accounted w₀ handled count ns s) (hs : s.step choice = some t) (hstop : NoStop choice) :
    ∃ more ms, Relayed w₀ (handled ++ more) t ∧
      Accounted w₀ (handled ++ more) (count + 1) (ns ++ ms) t ∧
      passResults [(s, choice)] = ms.map .ok := by
  obtain ⟨hno, hstep⟩ := step_eq hs
  obtain ⟨w, pc⟩ := s
  obtain ⟨w', pc'⟩ := t
  have hreturned : ∀ {last}, pc' = .idle last → passResults [((w, pc), choice)] = last.toList := by
    rintro last rfl
    rcases last with - | r <;> simp [passResults, hs]
  have hnone : (∀ last, pc' ≠ .idle last) → passResults [((w, pc), choice)] = [] := by
    intro hpc
    rcases pc' with last | _ | _
    · exact absurd rfl (hpc last)
    · simp [passResults, hs]
    · simp [passResults, hs]
  -- within a pass no turn ends except by a save
  have hwithin : Relayed w₀ handled (w', pc') → Accounted w₀ handled (count + 1) ns (w', pc') →
      (∀ last, pc' ≠ .idle last) → ∃ more ms, Relayed w₀ (handled ++ more) (w', pc') ∧
        Accounted w₀ (handled ++ more) (count + 1) (ns ++ ms) (w', pc') ∧
        passResults [((w, pc), choice)] = ms.map .ok := by
    intro hr' h' hpc
    refine ⟨[], [], ?_, ?_, hnone hpc⟩
    · rwa [List.append_nil]
    · rwa [List.append_nil, List.append_nil]
  cases RelayPc.steps_of_step hstep with
  | loaded hids hfind =>
      exact hwithin (hr.loaded hwritten hids hfind) (h.loaded hwritten hr hno hids hfind) nofun
  | picked => exact hwithin hr.picked h.picked nofun
  | skipped hpub => exact hwithin (hr.skipped hpub).1 (h.skipped hpub hr) nofun
  | @published _ _ _ _ _ _ _ now hpub =>
      exact hwithin (hr.published now hpub).1 (h.published now hpub hr) nofun
  | saved hsave =>
      refine ⟨_, [], hr.saved hsave, ?_, hnone nofun⟩
      simpa using h.saved hr
  | unchanged => cases hr.all_stamped.1
  | ended =>
      obtain ⟨n, rfl, rfl⟩ | ⟨_, ids, e, rfl, -, hids, hfind⟩ |
        ⟨order, done, rest, n, rfl, -, hsave⟩ | ⟨how, hchoice, -⟩ := RelayPc.ended_cases hstep
      · refine ⟨[], [n], ?_, ?_, hreturned rfl⟩
        · simpa using hr.ended
        · simpa using h.returned
      · -- what the query returns can be read
        obtain ⟨batch, hok⟩ := hr.find_ok hwritten hids
        cases hfind.symm.trans hok
      · exact absurd hsave hr.save_ne_none
      · exact absurd hchoice (hstop how)

/-! ### When a run is over -/

/-- A pass that has counted nothing has all of its batch before it, and one
that has returned 0 has found nothing. -/
structure Honest (s : Drain) : Prop where
  fresh : s.2.running = 1 → s.2.counted = 0 →
    s.2.held.length = min 100 (pendingOrders s.1) ∧ s.2.sent = []
  at_end : s.Over → pendingOrders s.1 = 0

theorem honest_start : Honest (w₀, .idle none) where
  fresh := nofun
  at_end := nofun

theorem Honest.step {s t : Drain} {choice : RelayChoice}
    (hwritten : ∀ d ∈ w₀.orders.docs, d.Written) (hr : Relayed w₀ handled s) (h : Honest s)
    (hs : s.step choice = some t) : Honest t := by
  obtain ⟨-, hstep⟩ := step_eq hs
  obtain ⟨w, pc⟩ := s
  obtain ⟨w', pc'⟩ := t
  cases RelayPc.steps_of_step hstep with
  | loaded hids hfind => exact ⟨fun _ _ => ⟨batch_length hwritten hr hids hfind, rfl⟩, nofun⟩
  | picked => exact ⟨fun _ hn => ⟨(h.fresh rfl hn).1, rfl⟩, nofun⟩
  | skipped hpub =>
      refine ⟨fun _ hn => ?_, nofun⟩
      obtain ⟨hheld, hsent⟩ := h.fresh rfl hn
      exact ⟨hheld, (hr.skipped hpub).2.trans hsent⟩
  | published hpub => exact ⟨fun _ hn => absurd hn (Nat.succ_ne_zero _), nofun⟩
  | saved hsave =>
      refine ⟨fun _ hn => ?_, nofun⟩
      obtain ⟨hsent, hne⟩ := hr.sent_ne_nil
      exact absurd (hsent.symm.trans (h.fresh rfl hn).2) hne
  | unchanged => cases hr.all_stamped.1
  | @ended _ last =>
      refine ⟨nofun, fun ho => ?_⟩
      obtain rfl : last = some (.ok 0) := RelayPc.idle.inj ho
      obtain rfl := RelayPc.returned_cases hstep
      have hheld : 0 = min 100 (pendingOrders w) := (h.fresh rfl rfl).1
      show pendingOrders w = 0
      omega

/-- Aborted passes included, a pass that returns 0 has nothing left to find. -/
theorem Relayed.of_over {steps : List (Drain × RelayChoice)} {t : Drain}
    (hwritten : ∀ d ∈ w₀.orders.docs, d.Written)
    (hrun : Trace Drain.step (w₀, .idle none) steps t) (ho : t.Over) :
    ∃ handled, Relayed w₀ handled t ∧ handled.length = pendingOrders w₀ := by
  have hrun' : (∃ handled, Relayed w₀ handled t) ∧ Honest t := by
    refine hrun.preserved (I := fun u : Drain => (∃ handled, Relayed w₀ handled u) ∧ Honest u)
      ⟨⟨[], relayed_start⟩, honest_start⟩ ?_
    rintro u choice v ⟨⟨handled, hr⟩, hh⟩ hs
    obtain ⟨more, hr'⟩ := hr.steps hwritten (RelayPc.steps_of_step (step_eq hs).2)
    exact ⟨⟨_, hr'⟩, hh.step hwritten hr hs⟩
  obtain ⟨⟨handled, hr⟩, hh⟩ := hrun'
  have hleft := hr.pending_left
  rw [hh.at_end ho, Nat.add_zero] at hleft
  exact ⟨handled, hr, hleft⟩

/-! ### Runs without aborted passes -/

theorem Accounted.run {steps : List (Drain × RelayChoice)} {t : Drain}
    (hwritten : ∀ d ∈ w₀.orders.docs, d.Written)
    (hrun : Trace Drain.step (w₀, .idle none) steps t) (hstop : ∀ p ∈ steps, NoStop p.2) :
    ∃ handled ns, passResults steps = ns.map .ok ∧ Relayed w₀ handled t ∧
      Accounted w₀ handled steps.length ns t := by
  refine hrun.history (I := fun l u => ∃ handled ns, passResults l = ns.map .ok ∧
    Relayed w₀ handled u ∧ Accounted w₀ handled l.length ns u)
    (A := fun _ choice => NoStop choice) hstop ⟨[], [], rfl, relayed_start, accounted_start⟩ ?_
  rintro l u choice v ⟨handled, ns, hns, hr, hacc⟩ hno hs
  obtain ⟨more, ms, hr', hacc', hms⟩ := hacc.step hwritten hr hs hno
  have hlength : (l ++ [(u, choice)]).length = l.length + 1 := List.length_append
  refine ⟨_, _, ?_, hr', hlength.symm ▸ hacc'⟩
  show (l ++ [(u, choice)]).filterMap _ = _
  rw [List.filterMap_append, List.map_append]
  exact congrArg₂ (· ++ ·) hns hms

/-- A relay whose last pass has not returned 0 has a next step. -/
theorem progress (s : Drain) (hno : ¬ s.Over) :
    ∃ choice t, NoStop choice ∧ s.step choice = some t := by
  have hstep : ∀ choice, NoStop choice → (s.2.step s.1 choice).isSome →
      ∃ choice t, NoStop choice ∧ s.step choice = some t := by
    intro choice hstop hsome
    obtain ⟨t, ht⟩ := Option.isSome_iff_exists.mp hsome
    refine ⟨choice, t, hstop, ?_⟩
    unfold Drain.step
    split
    · exact absurd ‹_› hno
    · exact ht
  let now : DateTime := ⟨0, none⟩
  obtain ⟨w, pc⟩ := s
  rcases pc with last | ⟨_ | ⟨order, rest⟩, n⟩ | ⟨order, done, _ | ⟨event, todo⟩, changed, rest, n⟩
  · -- the query has an answer
    obtain ⟨ids, hids⟩ := Collection.exists_findResult w.orders OrderRepository.hasUnpublished 100
    refine hstep (.load ids) nofun ?_
    show (if OrderRepository.UnpublishedBatch w.orders ids then _ else _ : Option _).isSome
    rw [if_pos (show OrderRepository.UnpublishedBatch w.orders ids from hids)]
    split <;> rfl
  · exact hstep (.go now) nofun rfl
  · exact hstep (.go now) nofun rfl
  · refine hstep (.go now) nofun ?_
    show (if changed = true then _ else _ : Option _).isSome
    split
    · split <;> rfl
    · rfl
  · refine hstep (.go now) nofun ?_
    unfold RelayPc.step
    dsimp only
    split <;> rfl

/-! ### The law -/

/-- The events that wait. -/
def pendingEvents (w : World) : ℕ :=
  (w.orders.docs.map fun d => d.outbox.countP OutboxDoc.waiting).sum

/-- Enough passes to load all orders that wait, and one that finds none. -/
def mostPasses (w : World) : ℕ := (pendingOrders w + 99) / 100 + 1

/-- The steps of so many passes and of one turn for every document. -/
def mostSteps (w : World) : ℕ :=
  2 * mostPasses w + (w.orders.docs.map fun d => d.outbox.length + 2).sum + 1

/-- What is to be published has been stamped, and nothing but publication times
has changed. -/
structure Drained (w₀ w : World) : Prop where
  frame : w = { w₀ with orders := w.orders, published := w.published }
  stamped : List.Forall₂ OrderDoc.StampedTo w₀.orders.docs w.orders.docs
  nothing_waits : ∀ d ∈ w.orders.docs, d.waits = false

theorem Relayed.work_le {s : Drain} (h : Relayed w₀ handled s) (f : OrderDoc → ℕ) :
    (handled.map f).sum + ((s.2.held.map Order.modelDump).map f).sum ≤
      (w₀.orders.docs.map f).sum := by
  obtain ⟨l, hperm, hsub⟩ := h.nodup.subperm fun d hd => (h.mem d hd).1
  calc (handled.map f).sum + ((s.2.held.map Order.modelDump).map f).sum
      = ((handled ++ s.2.held.map Order.modelDump).map f).sum := by
        rw [List.map_append, List.sum_append]
    _ = (l.map f).sum := ((hperm.map f).sum_eq).symm
    _ ≤ (w₀.orders.docs.map f).sum := (hsub.map f).sum_le_sum fun _ _ => Nat.zero_le _

/-- The turn at hand is not longer than its outbox. -/
theorem Relayed.spent_le {s : Drain} (h : Relayed w₀ handled s) :
    s.2.spent ≤ ((s.2.held.map Order.modelDump).map fun d => d.outbox.length + 2).sum + 1 := by
  obtain ⟨w, last | ⟨rest, n⟩ | ⟨order, done, todo, changed, rest, n⟩⟩ := s
  · exact Nat.zero_le _
  · exact Nat.le_add_left _ _
  · obtain ⟨before, hout, hdone, -⟩ := h.atWork
    have hlen : order.modelDump.outbox.length = before.length + todo.length := by
      rw [← List.length_append, ← hout]
      exact List.length_map _
    show 2 + done.length ≤ (order.modelDump.outbox.length + 2 + _) + 1
    rw [hlen, hdone.length_eq]
    omega

theorem Accounted.bounds {s : Drain} (hr : Relayed w₀ handled s)
    (h : Accounted w₀ handled count ns s) :
    ns.length ≤ mostPasses w₀ ∧ count ≤ mostSteps w₀ := by
  have hpasses : ns.length ≤ mostPasses w₀ := by
    have := h.passes
    unfold mostPasses
    omega
  refine ⟨hpasses, ?_⟩
  have hwork := hr.work_le fun d => d.outbox.length + 2
  have hspent := hr.spent_le
  rw [h.steps, mostSteps]
  omega

/-- The messages of the documents in which something waits are as many as the
events that wait. -/
theorem length_pendingMessages {ds : List OrderDoc}
    (h : ds.Perm (w.orders.docs.filter OrderDoc.waits)) :
    (ds.flatMap OrderDoc.pendingMessages).length = pendingEvents w := by
  rw [(h.flatMap_right _).length_eq, pendingEvents]
  induction w.orders.docs with
  | nil => rfl
  | cons d docs ih =>
      have hlen : d.pendingMessages.length = d.outbox.countP OutboxDoc.waiting := by
        rw [OrderDoc.pendingMessages, List.length_map, List.countP_eq_length_filter]
      rw [List.map_cons, List.sum_cons, ← ih, List.filter_cons]
      split
      · rw [List.flatMap_cons, List.length_append, hlen]
      · rename_i hno
        have hzero : d.outbox.countP OutboxDoc.waiting = 0 :=
          List.countP_eq_zero.mpr fun e he hw => hno (List.any_eq_true.mpr ⟨e, he, hw⟩)
        rw [hzero, Nat.zero_add]

/-- A run that is over, with the orders whose turn is over. -/
theorem Relayed.drained_over {s : Drain} (h : Relayed w₀ handled s)
    (hlen : handled.length = pendingOrders w₀) :
    Drained w₀ s.1 ∧ handled.Perm (w₀.orders.docs.filter OrderDoc.waits) := by
  obtain ⟨hperm, hwait, hstamped⟩ := h.drained hlen
  exact ⟨⟨h.frame, hstamped, hwait⟩, hperm⟩

/-- Messages about the waiting events of these documents, document by document and
in outbox order. -/
def Announce (ds : List OrderDoc) (messages : List Message) : Prop :=
  ∃ each : List (List Message), messages = each.flatten ∧
    List.Forall₂ (fun d ms => List.Forall₂ (OutboxDoc.Announced d.id)
      (d.outbox.filter OutboxDoc.waiting) ms) ds each

theorem announce_pendingMessages (ds : List OrderDoc) :
    Announce ds (ds.flatMap OrderDoc.pendingMessages) := by
  refine ⟨ds.map OrderDoc.pendingMessages, List.flatMap_def, ?_⟩
  exact forall₂_map_self fun d _ => d.announced_pendingMessages

/-- **The relay drains the outbox.**  Of a relay alone with the store, which
makes passes until one returns 0: without aborted passes it cannot go on for
ever, nor stop before, and what it has published when it is over are the events
that waited, order by order.  With aborted passes that is a part of what it has
published. -/
theorem relay_drains (hwritten : ∀ d ∈ w₀.orders.docs, d.Written)
    {steps : List (Drain × RelayChoice)} {t : Drain}
    (hrun : Trace Drain.step (w₀, .idle none) steps t) :
    ((∀ p ∈ steps, NoStop p.2) →
      (steps.length ≤ mostSteps w₀ ∧ (passResults steps).length ≤ mostPasses w₀ ∧
        (t.Over ∨ ∃ choice u, NoStop choice ∧ t.step choice = some u)) ∧
      (t.Over → Drained w₀ t.1 ∧ ∃ (ds : List OrderDoc) (messages : List Message) (ns : List ℕ),
        ds.Perm (w₀.orders.docs.filter OrderDoc.waits) ∧ Announce ds messages ∧
        t.1.published = w₀.published ++ messages ∧
        passResults steps = ns.map .ok ∧ ns.sum = pendingEvents w₀)) ∧
    (t.Over → Drained w₀ t.1 ∧ ∃ (ds : List OrderDoc) (messages sent : List Message),
      ds.Perm (w₀.orders.docs.filter OrderDoc.waits) ∧ Announce ds messages ∧
      t.1.published = w₀.published ++ sent ∧ messages.Sublist sent) := by
  refine ⟨fun hstop => ?_, fun ho => ?_⟩
  · obtain ⟨handled, ns, hns, hr, hacc⟩ := Accounted.run hwritten hrun hstop
    obtain ⟨hpasses, hsteps⟩ := hacc.bounds hr
    refine ⟨⟨hsteps, ?_, or_iff_not_imp_left.mpr (progress t)⟩, fun ho => ?_⟩
    · rw [hns, List.length_map]
      exact hpasses
    · obtain ⟨hdrained, hperm⟩ := hr.drained_over (hacc.at_end ho)
      obtain ⟨w, pc⟩ := t
      obtain rfl : pc = .idle (some (.ok 0)) := ho
      have hlog : w.published = w₀.published ++ (_ ++ []) := hacc.log
      have htotal : ns.sum + 0 = (_ ++ []).length := hacc.total
      rw [List.append_nil] at hlog htotal
      exact ⟨hdrained, handled, _, ns, hperm, announce_pendingMessages handled, hlog, hns,
        htotal.trans (length_pendingMessages hperm)⟩
  · obtain ⟨handled, hr, hlen⟩ := Relayed.of_over hwritten hrun ho
    obtain ⟨hdrained, hperm⟩ := hr.drained_over hlen
    obtain ⟨sent, hlog, hsub⟩ := hr.log
    exact ⟨hdrained, handled, _, sent, hperm, announce_pendingMessages handled, hlog,
      (List.sublist_append_left _ _).trans hsub⟩

instance : DecidablePred Over
  | (_, .idle (some (.ok 0))) => .isTrue rfl
  | (_, .idle (some (.ok (_ + 1)))) | (_, .idle (some (.error _))) | (_, .idle none)
  | (_, .orders _ _) | (_, .events _ _ _ _ _ _) => .isFalse nofun

end Drain

namespace Sample

/-- An order of two events, of which the second waits. -/
def ticketed (id : String) : Order where
  id := id
  provider := .duffel
  providerOrderId := id
  bookingReference := none
  status := .ticketed
  total := { amount := { sign := false, coefficient := 12550, exponent := -2 }, currency := "EUR" }
  slices := []
  passengers := []
  idempotencyKey := some id
  createdAt := ⟨0, some 0⟩
  events := []
  outbox :=
    [{ id := "e1", type := "BookingConfirmed", payload := [("order_id", .str id)],
       createdAt := ⟨0, some 0⟩, publishedAt := some ⟨1, some 0⟩ },
     { id := "e2", type := "TicketIssued", payload := [], createdAt := ⟨2, some 0⟩,
       publishedAt := none }]

/-- Two of them. -/
def ticketDesk : World :=
  { World.fresh with
    orders := {
      docs := [(ticketed "ord_1").modelDump, (ticketed "ord_2").modelDump]
      nodup_ids := by decide
      unique := by decide } }

/-- A pass over both, and one that finds none. -/
def twoPasses : List RelayChoice :=
  .load ["ord_2", "ord_1"] :: List.replicate 9 (.go ⟨3, some 0⟩) ++ [.load [], .go ⟨4, some 0⟩]

end Sample

namespace Drain

theorem relay_drains_ticketDesk :
    ∃ t, exec Drain.step (Sample.ticketDesk, .idle none) Sample.twoPasses = some t ∧
      t.1.published.map (fun m => (m.topic, m.key, m.value.id)) =
        [("tickets.issued", some "ord_2", "e2"), ("tickets.issued", some "ord_1", "e2")] ∧
      Drained Sample.ticketDesk t.1 ∧
      (∃ ds messages, ds.Perm (Sample.ticketDesk.orders.docs.filter OrderDoc.waits) ∧
        Announce ds messages ∧ t.1.published = messages) ∧
      (execSteps Drain.step (Sample.ticketDesk, .idle none) Sample.twoPasses).length ≤
        mostSteps Sample.ticketDesk := by
  obtain ⟨t, ht, ho, hmessages⟩ := exec_any (P := fun t : Drain => t.Over ∧
      t.1.published.map (fun m => (m.topic, m.key, m.value.id)) =
        [("tickets.issued", some "ord_2", "e2"), ("tickets.issued", some "ord_1", "e2")])
    (by decide : (exec Drain.step (Sample.ticketDesk, .idle none) Sample.twoPasses).any _ = true)
  have hwritten : ∀ d ∈ Sample.ticketDesk.orders.docs, d.Written :=
    List.forall_mem_cons.mpr ⟨Order.written_modelDump _,
      List.forall_mem_singleton.mpr (Order.written_modelDump _)⟩
  have hstop : ∀ choice ∈ Sample.twoPasses, NoStop choice := by
    simp [Sample.twoPasses, NoStop]
  have hdrains := relay_drains hwritten (Trace.of_exec ht)
  obtain ⟨⟨hsteps, -⟩, hover⟩ := hdrains.1 fun p hp => hstop _ (mem_of_execSteps hp)
  obtain ⟨hdrained, ds, messages, -, hperm, hannounce, hlog, -⟩ := hover ho
  exact ⟨t, ht, hmessages, hdrained, ⟨ds, messages, hperm, hannounce, hlog⟩, hsteps⟩

end Drain

end FlyDesk
