/-
FlyDesk/Events/EventIds.lean

Which event is meant by an id.  The record of processed events goes by event
id, so a consumer that finds an id recorded takes the event for done.  That is
right only if no two orders share an event id, and if no two workers handle
one event at the same time.

The first rests on `uuid.uuid4` giving new ids (`FreshUuids`), the second on
what Kafka promises of a worker group (`Assigned`).
-/
import FlyDesk.Events.AtMostOnce

namespace FlyDesk

open Lib

/-! ### Event ids -/

/-- The id given to the event of an order is new. -/
def ProcChoice.FreshUuid (w : World) : ProcChoice → Prop
  | .booking (.orderReply _ _ uuid _) => uuid ∉ w.eventIds
  | _ => True

/-- The events of stored orders have known ids, orders do not share them, and
only such events are recorded as processed. -/
structure World.Distinct (w : World) : Prop where
  known : ∀ d ∈ w.orders.docs, ∀ e ∈ d.outbox, e.id ∈ w.eventIds
  distinct : ∀ d ∈ w.orders.docs, ∀ d' ∈ w.orders.docs, ∀ e ∈ d.outbox, ∀ e' ∈ d'.outbox,
    e.id = e'.id → d.id = d'.id
  recorded : ∀ r ∈ w.processed, ∃ d ∈ w.orders.docs, ∃ e ∈ d.outbox, e.id = r.2

/-- The event of an order in flight has a known id, and no stored order has
it. -/
def Proc.NewEvents (w : World) (p : Proc) : Prop :=
  ∀ call st, p = .booking call → call.pc = .save st → ∀ e ∈ st.outbox,
    e.id ∈ w.eventIds ∧ ∀ d ∈ w.orders.docs, ∀ e' ∈ d.outbox, e'.id ≠ e.id

/-- Two orders in flight do not share an event id. -/
def Proc.ApartEvents (p q : Proc) : Prop :=
  ∀ f g st st', p = .booking f → q = .booking g → f.pc = .save st → g.pc = .save st' →
    ∀ e ∈ st.outbox, ∀ e' ∈ st'.outbox, e.id ≠ e'.id

/-- The event a worker handles. -/
def Proc.handled : Proc → Option EventValue
  | .worker (.run _ event _) => some event
  | _ => none

theorem Proc.Initial.handled {p : Proc} (h : p.Initial) : p.handled = none := by
  rcases p with call | pc | pc
  · rfl
  · rfl
  · obtain rfl : pc = .idle none := h
    rfl

/-- Two workers do not handle one event. -/
def Proc.Exclusive (p q : Proc) : Prop :=
  ∀ event ∈ p.handled, ∀ event' ∈ q.handled, event.id ≠ event'.id

variable {w w' : World} {p p' q : Proc} {choice : ProcChoice}

theorem OutboxDoc.id_eq_of_core {e e' : OutboxDoc} (h : e'.core = e.core) : e'.id = e.id :=
  congrArg EventValue.id (OutboxDoc.value_eq_of_core h)

/-- Entries with one id are one entry of one order. -/
theorem World.Distinct.eq_of_id (hw : w.Distinct) (hf : w.Faithful) {d d' : OrderDoc}
    (hd : d ∈ w.orders.docs) (hd' : d' ∈ w.orders.docs) {e e' : OutboxDoc}
    (he : e ∈ d.outbox) (he' : e' ∈ d'.outbox) (heq : e.id = e'.id) : d = d' ∧ e = e' := by
  obtain rfl := Collection.eq_of_docId hd hd' (hw.distinct d hd d' hd' e he e' he' heq)
  exact ⟨rfl, (hf.booked d hd).eq_of_mem he he'⟩

/-- An entry of an old document is found again, under its id. -/
theorem World.Grows.entry (h : w.Grows w') {d : OrderDoc} (hd : d ∈ w.orders.docs)
    {e : OutboxDoc} (he : e ∈ d.outbox) :
    ∃ d' ∈ w'.orders.docs, d'.id = d.id ∧ ∃ e' ∈ d'.outbox, e'.id = e.id := by
  obtain ⟨d', hd', hcore⟩ := h.docs d hd
  obtain ⟨e', he', hecore⟩ := OrderDoc.mem_outbox_of_core hcore he
  exact ⟨d', hd', OrderDoc.id_eq_of_core hcore, e', he', OutboxDoc.id_eq_of_core hecore⟩

/-- An outbox entry after a step: one with its id was there before, or a call
has just stored it. -/
theorem Proc.Steps.entry_cases (h : Proc.Steps w p choice w' p') (hp : p.Faithful w)
    {d : OrderDoc} (hd : d ∈ w'.orders.docs) {e : OutboxDoc} (he : e ∈ d.outbox) :
    (∃ d₀ ∈ w.orders.docs, d₀.id = d.id ∧ ∃ e₀ ∈ d₀.outbox, e₀.id = e.id) ∨
    ∃ call st, p = .booking call ∧ call.pc = .save st ∧ d = st.modelDump ∧
      ∃ e₁ ∈ st.outbox, e₁.id = e.id := by
  rcases h.docs_cases hp hd with hold | ⟨call, st, hcall, hpc, rfl⟩ | ⟨d₀, hd₀, hcore, _⟩
  · exact Or.inl ⟨d, hold, rfl, e, he, rfl⟩
  · obtain ⟨e₁, he₁, rfl⟩ := List.mem_map.mp he
    exact Or.inr ⟨call, st, hcall, hpc, rfl, e₁, he₁, rfl⟩
  · obtain ⟨e₀, he₀, hecore⟩ := OrderDoc.mem_outbox_of_core hcore.symm he
    exact Or.inl ⟨d₀, hd₀, (OrderDoc.id_eq_of_core hcore).symm, e₀, he₀,
      OutboxDoc.id_eq_of_core hecore⟩

theorem Proc.Steps.eventIds (h : Proc.Steps w p choice w' p') : w.eventIds ⊆ w'.eventIds := by
  cases h with
  | booking h =>
      cases h with
      | booked => exact fun _ hx => List.mem_append_left _ hx
      | _ => exact fun _ hx => hx
  | relay h => cases h <;> exact fun _ hx => hx
  | worker h => cases h <;> exact fun _ hx => hx

theorem Proc.Steps.distinct (h : Proc.Steps w p choice w' p') (hp : p.Faithful w)
    (hdel : p.Delivered w) (hw : w.Distinct) (hnew : p.NewEvents w) : w'.Distinct where
  known := by
    intro d hd e he
    rcases h.entry_cases hp hd he with
      ⟨d₀, hd₀, _, e₀, he₀, hid⟩ | ⟨call, st, hcall, hpc, _, e₁, he₁, hid⟩
    · exact hid ▸ h.eventIds (hw.known d₀ hd₀ e₀ he₀)
    · exact hid ▸ h.eventIds (hnew call st hcall hpc e₁ he₁).1
  distinct := by
    intro d hd d' hd' e he e' he' heq
    rcases h.entry_cases hp hd he with
      ⟨d₀, hd₀, hdid, e₀, he₀, hid⟩ | ⟨call, st, hcall, hpc, hst, e₁, he₁, hid⟩ <;>
    rcases h.entry_cases hp hd' he' with
      ⟨d₀', hd₀', hdid', e₀', he₀', hid'⟩ | ⟨call', st', hcall', hpc', hst', e₁', he₁', hid'⟩
    · rw [← hdid, ← hdid']
      exact hw.distinct d₀ hd₀ d₀' hd₀' e₀ he₀ e₀' he₀' (by rw [hid, hid', heq])
    · -- a staged event has an id that no stored one has
      exact absurd (by rw [hid, hid', heq])
        ((hnew call' st' hcall' hpc' e₁' he₁').2 d₀ hd₀ e₀ he₀)
    · exact absurd (by rw [hid, hid', heq])
        ((hnew call st hcall hpc e₁ he₁).2 d₀' hd₀' e₀' he₀')
    · -- the document a call has just stored
      obtain rfl := Proc.booking.inj (hcall.symm.trans hcall')
      obtain rfl := BookingPc.save.inj (hpc.symm.trans hpc')
      rw [hst, hst']
  recorded := by
    intro r hr
    have hstored : ∃ d ∈ w.orders.docs, ∃ e ∈ d.outbox, e.id = r.2 := by
      rcases h.processed with heq | ⟨offset, event, c, hrun, _, _, rfl⟩
      · exact hw.recorded r (heq ▸ hr)
      · rcases List.mem_append.mp hr with hr | hr
        · exact hw.recorded r hr
        · -- the event just recorded was delivered
          obtain rfl := List.mem_singleton.mp hr
          obtain ⟨d, hd, e, he, rfl, _⟩ := hdel offset event _ hrun
          exact ⟨d, hd, e, he, rfl⟩
    obtain ⟨d, hd, e, he, hid⟩ := hstored
    obtain ⟨d', hd', _, e', he', hid'⟩ := (h.grows hp).entry hd he
    exact ⟨d', hd', e', he', hid'.trans hid⟩

/-- What a call has just been given to save carries the new id. -/
theorem Proc.Steps.newEvents (h : Proc.Steps w p choice w' p') (hw : w.Distinct)
    (hfresh : choice.FreshUuid w) : p'.NewEvents w' := by
  rintro call st rfl hpc e he
  cases h with
  | booking h =>
      obtain ⟨ps, data, created, reply, uuid, now, _, rfl, _, rfl, rfl⟩ := h.to_save hpc
      obtain rfl := List.mem_singleton.mp he
      refine ⟨List.mem_append_right _ (List.mem_singleton.mpr rfl), fun d hd e' he' heq => ?_⟩
      have hknown := hw.known d hd e' he'
      rw [heq] at hknown
      exact hfresh hknown

theorem Proc.Steps.newEvents_other (h : Proc.Steps w p choice w' p') (hp : p.Faithful w)
    (hq : q.NewEvents w) (hpq : p.ApartEvents q) : q.NewEvents w' := by
  intro call st hcall hpc e he
  obtain ⟨hid, hdocs⟩ := hq call st hcall hpc e he
  refine ⟨h.eventIds hid, fun d hd e' he' heq => ?_⟩
  rcases h.entry_cases hp hd he' with
    ⟨d₀, hd₀, _, e₀, he₀, hid₀⟩ | ⟨call', st', hcall', hpc', _, e₁, he₁, hid₁⟩
  · exact hdocs d₀ hd₀ e₀ he₀ (hid₀.trans heq)
  · exact hpq call' call st' st hcall' hcall hpc' hpc e₁ he₁ e he (hid₁.trans heq)

theorem Proc.Steps.apartEvents (h : Proc.Steps w p choice w' p') (hq : q.NewEvents w)
    (hfresh : choice.FreshUuid w) : p'.ApartEvents q := by
  rintro f g st st' rfl hg hpc hpc' e he e' he' heq
  cases h with
  | booking h =>
      obtain ⟨ps, data, created, reply, uuid, now, _, rfl, _, rfl, rfl⟩ := h.to_save hpc
      obtain rfl := List.mem_singleton.mp he
      have hknown := (hq g st' hg hpc' e' he').1
      rw [← heq] at hknown
      exact hfresh hknown

/-- A delivery is the only way for a worker to come to an event. -/
theorem Proc.Steps.handled (h : Proc.Steps w p choice w' p') {event : EventValue}
    (hev : event ∈ p'.handled) : event ∈ p.handled ∨
      ∃ offset m, choice = .worker (.deliver offset) ∧ w.published[offset]? = some m ∧
        m.value = event := by
  cases h with
  | booking => cases hev
  | relay => cases hev
  | worker h =>
      cases h with
      | @delivered _ offset m hm _ => exact Or.inr ⟨offset, m, rfl, hm, Option.some.inj hev⟩
      | orderUnreadable | unsaved | committed | stopped => cases hev
      | _ => exact Or.inl hev

/-! ### Runs -/

namespace FlyDeskSystem

variable {ι : Type*}

/-- The ids of new events are fresh at a step of the run. -/
def FreshUuids (s : FlyDeskSystem ι) : FlyDeskMove ι → Prop
  | .proc _ choice => choice.FreshUuid s.shared
  | .env _ => True

/-- The messages about an order are in one partition, which one member of the
worker group reads: a message is not delivered to a worker while another
handles its event. -/
def Assigned (s : FlyDeskSystem ι) : FlyDeskMove ι → Prop
  | .proc i (.worker (.deliver offset)) =>
    ∀ j, j ≠ i → ∀ m ∈ s.shared.published[offset]?, ∀ event ∈ (s.procs j).handled,
      event.id ≠ m.value.id
  | _ => True

/-- The assertions about event ids. -/
def separate : Assertions World Proc where
  shared w := w.Distinct
  each w p := p.NewEvents w
  pair p q := p.ApartEvents q ∧ p.Exclusive q

theorem separate_stable : separate.Stable Proc.step World.tick
    (fun (s : FlyDeskSystem ι) m => Live s ∧ FreshUuids s m ∧ Assigned s m) where
  symm := by
    rintro p q ⟨hapart, hexcl⟩
    refine ⟨fun f g st st' hf hg hpc hpc' e he e' he' heq => ?_, fun x hx y hy heq => ?_⟩
    · exact hapart g f st' st hg hf hpc' hpc e' he' e he heq.symm
    · exact hexcl y hy x hx heq.symm
  own := by
    rintro s i c w' p' hA ⟨hlive, huuid, _⟩ hf
    have h := Proc.steps_of_step hf
    exact ⟨h.distinct (hlive.outbox.each i) (hlive.delivered i) hA.shared (hA.each i),
      h.newEvents hA.shared huuid⟩
  other := by
    rintro s i j c w' p' hA ⟨hlive, huuid, hassigned⟩ hf hij
    have h := Proc.steps_of_step hf
    obtain ⟨hapart, hexcl⟩ := hA.pair i j hij
    refine ⟨h.newEvents_other (hlive.outbox.each i) (hA.each j) hapart,
      h.apartEvents (hA.each j) huuid, fun event hev event' hev' => ?_⟩
    rcases h.handled hev with hold | ⟨offset, m, rfl, hm, rfl⟩
    · exact hexcl event hold event' hev'
    · exact (hassigned j (Ne.symm hij) m hm event' hev').symm
  env := by
    rintro s seconds w' hA _ hg
    obtain rfl := Option.some.inj hg
    exact ⟨⟨hA.shared.known, hA.shared.distinct, hA.shared.recorded⟩, hA.each⟩

theorem separate_initial {s : FlyDeskSystem ι} (hs : s.Fresh) : separate.Hold s := by
  refine ⟨?_, fun i call st hi hpc => ?_, fun i j _ => ⟨fun f g st st' hi _ hpc _ => ?_, ?_⟩⟩
  · show s.shared.Distinct
    rw [hs.shared]
    refine ⟨?_, ?_, ?_⟩ <;> simp [World.fresh]
  · exact absurd hpc (hs.not_saving hi st)
  · exact absurd hpc (hs.not_saving hi st)
  · intro event hev
    rw [(hs.initial i).handled] at hev
    cases hev

/-- A process that is not a worker never becomes one. -/
theorem not_worker_step [DecidableEq ι] {s t : FlyDeskSystem ι} {m : FlyDeskMove ι}
    (h : FlyDeskSystem.step s m = some t) {j : ι} (hj : ∀ pc, s.procs j ≠ .worker pc) :
    ∀ pc, t.procs j ≠ .worker pc := by
  intro pc ht
  rcases System.procs_of_step h j with he | ⟨c, _, hf⟩
  · exact hj pc (he.symm.trans ht)
  · rw [ht] at hf
    cases hp : s.procs j with
    | worker pc' => exact hj pc' hp
    | _ =>
        rw [hp] at hf
        cases Proc.steps_of_step hf

/-- **One worker loop has every message to itself.** -/
theorem assigned_of_alone [DecidableEq ι] {s t : FlyDeskSystem ι}
    {steps : List (FlyDeskSystem ι × FlyDeskMove ι)}
    (h : Trace FlyDeskSystem.step s steps t) {i : ι}
    (halone : ∀ j, j ≠ i → ∀ pc, s.procs j ≠ .worker pc) :
    ∀ p ∈ steps, Assigned p.1 p.2 := by
  have hmem : ∀ p ∈ steps, ∀ j, j ≠ i → ∀ pc, p.1.procs j ≠ .worker pc :=
    h.invariant_mem (I := fun u => ∀ j, j ≠ i → ∀ pc, u.procs j ≠ .worker pc)
      (A := fun _ _ => True) (fun _ _ => trivial) halone
      fun hu _ hstep j hj => not_worker_step hstep (hu j hj)
  rintro ⟨u, m⟩ hp
  obtain ⟨v, hv, _⟩ := h.next_of_mem hp
  match m with
  | .proc k (.worker (.deliver offset)) =>
    intro j hj m _ event hev
    obtain ⟨w, p', hf, _⟩ := System.step_proc hv
    -- the message goes to the one worker
    have hk : k = i := by
      by_contra hk
      cases hpk : u.procs k with
      | worker pc => exact hmem _ hp k hk pc hpk
      | _ =>
          rw [hpk] at hf
          cases Proc.steps_of_step hf
    subst hk
    -- and nobody else handles anything
    cases hpj : u.procs j with
    | worker pc => exact absurd hpj (hmem _ hp j hj pc)
    | _ =>
        rw [hpj] at hev
        cases hev
  | .proc _ (.booking _) | .proc _ (.relay _) | .proc _ (.worker (.go _ _))
  | .proc _ (.worker (.stop _)) | .env _ => trivial

instance (w : World) : DecidablePred (ProcChoice.FreshUuid w)
  | .booking (.orderReply _ _ uuid _) => inferInstanceAs (Decidable (uuid ∉ w.eventIds))
  | .booking .go | .booking (.redisError _) | .booking (.offerReply _) | .booking (.stop _)
  | .relay _ | .worker _ => .isTrue trivial

instance (s : FlyDeskSystem ι) : DecidablePred (FreshUuids s)
  | .proc _ choice => inferInstanceAs (Decidable (choice.FreshUuid s.shared))
  | .env _ => .isTrue trivial

end FlyDeskSystem

end FlyDesk
