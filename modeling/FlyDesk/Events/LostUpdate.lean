/-
FlyDesk/Events/LostUpdate.lean

Relays and workers on one collection.  Each loads whole orders, works, and
writes whole documents back, so a write can undo what another process has
written in between.  What has to survive is a ticket (the status TICKETED
with its entry in the history) and the publication time of an event.

`updates_kept` says which schedules are safe: at every save of a relay no
worker has saved the order since the relay loaded it, and at every save of a
worker nobody has.  Then what a process has loaded is what is stored, as far
as its save depends on it (`UpToDate`).  `relay_undoes_ticket` is a run that
fails this.
-/
import FlyDesk.Events.System
import Mathlib.Data.List.Forall2

namespace FlyDesk

open Lib

/-! ### What must survive -/

/-- The same event, published if it was. -/
def OutboxDoc.Keeps (e e' : OutboxDoc) : Prop :=
  e'.core = e.core ∧ (e.Published → e'.Published)

/-- A later document of an order keeps what an earlier one had: a ticket, and
the publication of its events. -/
structure OrderDoc.Keeps (d d' : OrderDoc) : Prop where
  id : d'.id = d.id
  ticket : d.status = .ticketed → ∀ ev ∈ d.events, ev.type = "ticket.issued" →
    d'.status = .ticketed ∧ ev ∈ d'.events
  outbox : List.Forall₂ OutboxDoc.Keeps d.outbox d'.outbox

theorem OrderDoc.Keeps.refl (d : OrderDoc) : d.Keeps d where
  id := rfl
  ticket := fun hst _ hev _ => ⟨hst, hev⟩
  outbox := List.forall₂_same.mpr fun _ _ => ⟨rfl, fun hp => hp⟩

theorem OutboxDoc.keeps_trans : ∀ {l l' l'' : List OutboxDoc},
    List.Forall₂ OutboxDoc.Keeps l l' → List.Forall₂ OutboxDoc.Keeps l' l'' →
      List.Forall₂ OutboxDoc.Keeps l l''
  | _, _, _, .nil, .nil => .nil
  | _, _, _, .cons h hl, .cons h' hl' =>
    .cons ⟨h'.1.trans h.1, fun hp => h'.2 (h.2 hp)⟩ (OutboxDoc.keeps_trans hl hl')

theorem OrderDoc.Keeps.trans {d d' d'' : OrderDoc} (h : d.Keeps d') (h' : d'.Keeps d'') :
    d.Keeps d'' where
  id := h'.id.trans h.id
  ticket := by
    intro hst ev hev htype
    obtain ⟨hst', hev'⟩ := h.ticket hst ev hev htype
    exact h'.ticket hst' ev hev' htype
  outbox := OutboxDoc.keeps_trans h.outbox h'.outbox

/-- An outbox with the same events, in which everything published still is. -/
theorem OutboxDoc.keeps_of_core {l : List OutboxDoc} {done : List OutboxEvent}
    (hcore : l.map OutboxDoc.core = done.map OutboxEvent.core)
    (hpub : List.Forall₂ (fun e e' => e.Published → e'.publishedAt ≠ none) l done) :
    List.Forall₂ OutboxDoc.Keeps l (done.map OutboxEvent.modelDump) := by
  induction hpub with
  | nil => exact .nil
  | @cons e e' l done hhead _ ih =>
      obtain ⟨hcore₁, hcore₂⟩ := List.cons.inj hcore
      refine .cons ⟨hcore₁.symm, fun hp => ?_⟩ (ih hcore₂)
      show (DocField.ofOption e'.publishedAt).toOption ≠ none
      rw [DocField.toOption_ofOption]
      exact hhead hp

/-- A later list of events with everything published. -/
theorem published_of_all : ∀ {l : List OutboxDoc} {done : List OutboxEvent},
    l.length = done.length → (∀ e ∈ done, e.publishedAt ≠ none) →
      List.Forall₂ (fun e e' => e.Published → e'.publishedAt ≠ none) l done
  | [], [], _, _ => .nil
  | _ :: _, _ :: _, hlen, hall =>
    .cons (fun _ => hall _ List.mem_cons_self)
      (published_of_all (Nat.succ.inj hlen) fun e he => hall e (List.mem_cons_of_mem _ he))

/-! ### What a process has loaded -/

/-- The store has the order under its id, with the same events in its
outbox. -/
def AsStored (w : World) (o : Order) : Prop :=
  ∃ d ∈ w.orders.docs, d.id = o.id ∧
    d.outbox.map OutboxDoc.core = o.outbox.map OutboxEvent.core

theorem asStored_of_read {w : World} {d : OrderDoc} {o : Order} (hd : d ∈ w.orders.docs)
    (ho : d.toOrder = .ok o) : AsStored w o := by
  obtain ⟨total, _, rfl⟩ := OrderDoc.toOrder_eq_ok.mp ho
  refine ⟨d, hd, rfl, ?_⟩
  rw [OrderDoc.withTotal, List.map_map]
  rfl

/-! ### Loads and saves -/

/-- The process reads the store: the query of a pass, or the read of a
handler. -/
def Proc.loads : Proc → ProcChoice → Bool
  | .relay (.idle _), .relay (.load _) => true
  | .worker (.run _ _ .getOrder), .worker (.go _ _) => true
  | _, _ => false

/-- The id of the order that `relay_once` saves at this step. -/
def Proc.relaySaves? : Proc → ProcChoice → Option String
  | .relay (.events order _ [] true _ _), .relay (.go _) => some order.id
  | _, _ => none

/-- The id of the order that `handle_ticketing` saves at this step. -/
def Proc.ticketingSaves? : Proc → ProcChoice → Option String
  | .worker (.run _ _ (.saveOrder _ order _)), .worker (.go _ _) => some order.id
  | _, _ => none

/-- The document under the id of a loaded order has its events. -/
theorem AsStored.outbox_core {w : World} {o : Order} (h : AsStored w o) {d : OrderDoc}
    (hd : d ∈ w.orders.docs) (hid : d.id = o.id) :
    d.outbox.map OutboxDoc.core = o.outbox.map OutboxEvent.core := by
  obtain ⟨d', hd', hid', hcore⟩ := h
  obtain rfl := Collection.eq_of_docId hd hd' (hid.trans hid'.symm)
  exact hcore

theorem AsStored.mono {w w' : World} {o : Order}
    (h : ∀ d ∈ w.orders.docs, ∃ d' ∈ w'.orders.docs, d'.id = d.id ∧
      d'.outbox.map OutboxDoc.core = d.outbox.map OutboxDoc.core)
    (ho : AsStored w o) : AsStored w' o := by
  obtain ⟨d, hd, hid, hcore⟩ := ho
  obtain ⟨d', hd', hid', hcore'⟩ := h d hd
  exact ⟨d', hd', hid'.trans hid, hcore'.trans hcore⟩

variable {w w' : World} {p p' : Proc} {choice : ProcChoice}

/-- A step of a relay or a worker keeps the ids and the events of all
documents. -/
theorem Proc.Steps.outbox_core (h : Proc.Steps w p choice w' p')
    (hp : ∀ call, p ≠ .booking call) (hin : p.InOrder)
    (hst : ∀ o ∈ p.loaded, AsStored w o) :
    ∀ d ∈ w.orders.docs, ∃ d' ∈ w'.orders.docs, d'.id = d.id ∧
      d'.outbox.map OutboxDoc.core = d.outbox.map OutboxDoc.core := by
  rcases h.orders with ⟨heq, _⟩ | ⟨_, _, ⟨call, _, rfl, _⟩ | hrelay | hworker⟩
  · rw [heq]
    exact fun d hd => ⟨d, hd, rfl, rfl⟩
  · exact absurd rfl (hp call)
  · obtain ⟨order, done, rest, n, rfl, hsave⟩ := hrelay
    refine OrderRepository.save_relates
      (R := fun d d' => d'.id = d.id ∧
        d'.outbox.map OutboxDoc.core = d.outbox.map OutboxDoc.core)
      (fun _ => ⟨rfl, rfl⟩) hsave fun d hd hid => ⟨hid.symm, ?_⟩
    rw [(hst order List.mem_cons_self).outbox_core hd hid, ← hin.1, List.append_nil]
    exact List.map_map
  · obtain ⟨offset, event, id, order, now, rfl, hsave⟩ := hworker
    refine OrderRepository.save_relates
      (R := fun d d' => d'.id = d.id ∧
        d'.outbox.map OutboxDoc.core = d.outbox.map OutboxDoc.core)
      (fun _ => ⟨rfl, rfl⟩) hsave fun d hd hid => ⟨hid.symm, ?_⟩
    rw [(hst order List.mem_cons_self).outbox_core hd hid]
    exact List.map_map

/-- A process that reads the store holds nothing. -/
theorem Proc.loaded_of_loads (h : p.loads choice = true) : p.loaded = [] := by
  unfold Proc.loads at h
  split at h
  · rfl
  · rfl
  · cases h

/-- What a step of a relay or a worker does to the orders: nothing, or the
save it is at. -/
theorem Proc.saves_of_step (h : p.step w choice = some (w', p'))
    (hp : ∀ call, p ≠ .booking call) :
    w'.orders = w.orders ∨
    (∃ order done rest n, p = .relay (.events order done [] true rest n) ∧
      p.relaySaves? choice = some order.id ∧
      OrderRepository.save w.orders { order with outbox := done } = some w'.orders) ∨
    ∃ offset event id order now, p = .worker (.run offset event (.saveOrder id order now)) ∧
      p.ticketingSaves? choice = some order.id ∧
      OrderRepository.save w.orders (order.ticketed now) = some w'.orders := by
  cases Proc.steps_of_step h with
  | booking hs => exact absurd rfl (hp _)
  | @relay pc pc' c _ hs =>
      cases hs with
      | saved hsave =>
          cases c with
          | go now => exact Or.inr (Or.inl ⟨_, _, _, _, rfl, rfl, hsave⟩)
          | load ids => cases h
          | stop how =>
              -- a pass that stops here saves nothing
              obtain ⟨hw, -⟩ := Prod.mk.inj (Option.some.inj h)
              exact Or.inl (congrArg World.orders hw.symm)
      | _ => exact Or.inl rfl
  | worker hs =>
      cases hs with
      | saved hsave => exact Or.inr (Or.inr ⟨_, _, _, _, _, rfl, rfl, hsave⟩)
      | _ => exact Or.inl rfl

/-! ### A save that loses nothing -/

/-- What a process has loaded of an order has the status and the history that
are stored. -/
def OrderDoc.AsLoaded (d : OrderDoc) (o : Order) : Prop :=
  d.status = o.status ∧ d.events = o.events

/-- What is published in the store is published in the loaded order. -/
def OrderDoc.PublishedIn (d : OrderDoc) (o : Order) : Prop :=
  List.Forall₂ (fun e e' => e.Published → e'.publishedAt ≠ none) d.outbox o.outbox

theorem OrderDoc.asLoaded_of_read {d : OrderDoc} {o : Order} (h : d.toOrder = .ok o) :
    d.AsLoaded o ∧ d.PublishedIn o := by
  obtain ⟨total, _, rfl⟩ := OrderDoc.toOrder_eq_ok.mp h
  refine ⟨⟨rfl, rfl⟩, ?_⟩
  show List.Forall₂ _ d.outbox (d.outbox.map OutboxDoc.validate)
  exact forall₂_map_self fun _ _ hp => hp

/-- **One step loses no update** where a relay has loaded the status and the
history its save writes back, and a worker also what is published. -/
theorem Proc.keeps_of_step (h : p.step w choice = some (w', p'))
    (hp : ∀ call, p ≠ .booking call) (hin : p.InOrder)
    (hst : ∀ o ∈ p.loaded, AsStored w o)
    (hrelay : ∀ id ∈ p.relaySaves? choice, ∀ o ∈ p.loaded, o.id = id →
      ∀ d ∈ w.orders.docs, d.id = o.id → d.AsLoaded o)
    (hworker : ∀ id ∈ p.ticketingSaves? choice, ∀ o ∈ p.loaded, o.id = id →
      ∀ d ∈ w.orders.docs, d.id = o.id → d.AsLoaded o ∧ d.PublishedIn o) :
    ∀ d ∈ w.orders.docs, ∃ d' ∈ w'.orders.docs, d.Keeps d' := by
  rcases Proc.saves_of_step h hp with heq | ⟨order, done, rest, n, rfl, hsaves, hsave⟩ |
    ⟨offset, event, id, order, now, rfl, hsaves, hsave⟩
  · rw [heq]
    exact fun d hd => ⟨d, hd, .refl d⟩
  · -- a relay writes back the status and the history it loaded
    refine OrderRepository.save_relates OrderDoc.Keeps.refl hsave fun d hd hid => ?_
    obtain ⟨hstatus, hevents⟩ := hrelay _ hsaves order List.mem_cons_self rfl d hd hid
    have hcore : d.outbox.map OutboxDoc.core = done.map OutboxEvent.core := by
      rw [(hst order List.mem_cons_self).outbox_core hd hid, ← hin.1, List.append_nil]
    have hlen : d.outbox.length = done.length := by
      simpa using congrArg List.length hcore
    refine ⟨hid.symm, fun ht ev hev _ => ⟨hstatus ▸ ht, hevents ▸ hev⟩, ?_⟩
    exact OutboxDoc.keeps_of_core hcore (published_of_all hlen hin.2)
  · -- a worker writes back the history and the outbox it loaded
    refine OrderRepository.save_relates OrderDoc.Keeps.refl hsave fun d hd hid => ?_
    obtain ⟨⟨-, hevents⟩, hpub⟩ := hworker _ hsaves order List.mem_cons_self rfl d hd hid
    have hcore := (hst order List.mem_cons_self).outbox_core hd hid
    refine ⟨hid.symm, fun _ ev hev _ => ⟨rfl, ?_⟩, OutboxDoc.keeps_of_core hcore hpub⟩
    exact List.mem_append_left _ (hevents ▸ hev)

namespace FlyDeskSystem

variable {ι : Type*}

/-- Relays and workers about to start, on any collection. -/
def Eventing (s : FlyDeskSystem ι) : Prop :=
  ∀ i, s.procs i = .relay (.idle none) ∨ s.procs i = .worker (.idle none)

/-- Relays and workers, each holding orders with the stored events. -/
structure Holding (s : FlyDeskSystem ι) : Prop where
  eventing : ∀ i call, s.procs i ≠ .booking call
  inOrder : ∀ i, (s.procs i).InOrder
  asStored : ∀ i, ∀ o ∈ (s.procs i).loaded, AsStored s.shared o

theorem Holding.outbox_core [DecidableEq ι] {s t : FlyDeskSystem ι} {m : FlyDeskMove ι}
    (hs : Holding s) (h : FlyDeskSystem.step s m = some t) :
    ∀ d ∈ s.shared.orders.docs, ∃ d' ∈ t.shared.orders.docs, d'.id = d.id ∧
      d'.outbox.map OutboxDoc.core = d.outbox.map OutboxDoc.core := by
  cases m with
  | env seconds =>
      obtain ⟨w, hw, rfl⟩ := System.step_env h
      obtain rfl := Option.some.inj hw
      exact fun d hd => ⟨d, hd, rfl, rfl⟩
  | proc i c =>
      obtain ⟨w, p, hp, rfl⟩ := System.step_proc h
      exact (Proc.steps_of_step hp).outbox_core (hs.eventing i) (hs.inOrder i) (hs.asStored i)

theorem Holding.step [DecidableEq ι] {s t : FlyDeskSystem ι} {m : FlyDeskMove ι}
    (hs : Holding s) (h : FlyDeskSystem.step s m = some t) : Holding t := by
  have hdocs := hs.outbox_core h
  refine ⟨fun j call hcall => ?_, fun j => ?_, fun j o ho => ?_⟩
  · rcases System.procs_of_step h j with he | ⟨c, _, hstep⟩
    · exact hs.eventing j call (he ▸ hcall)
    · rw [hcall] at hstep
      cases hp : s.procs j with
      | booking call' => exact hs.eventing j call' hp
      | relay => rw [hp] at hstep; cases Proc.steps_of_step hstep
      | worker => rw [hp] at hstep; cases Proc.steps_of_step hstep
  · rcases System.procs_of_step h j with he | ⟨c, _, hstep⟩
    · rw [he]
      exact hs.inOrder j
    · exact (Proc.steps_of_step hstep).inOrder (hs.inOrder j)
  · rcases System.procs_of_step h j with he | ⟨c, _, hstep⟩
    · rw [he] at ho
      exact (hs.asStored j o ho).mono hdocs
    · rcases (Proc.steps_of_step hstep).loaded ho with hold | ⟨heq, d, hd, hread⟩
      · exact (hs.asStored j o hold).mono hdocs
      · rw [heq]
        exact asStored_of_read hd hread

theorem Eventing.holding {s : FlyDeskSystem ι} (hs : Eventing s) : Holding s := by
  refine ⟨fun i call => ?_, fun i => ?_, fun i o ho => ?_⟩
  all_goals rcases hs i with h | h
  · simp [h]
  · simp [h]
  · simp [h, Proc.InOrder, RelayPc.InOrder]
  · simp [h, Proc.InOrder]
  · simp [h, Proc.loaded] at ho
  · simp [h, Proc.loaded] at ho

variable [DecidableEq ι] {s t : FlyDeskSystem ι} {m : FlyDeskMove ι}
  {steps : List (FlyDeskSystem ι × FlyDeskMove ι)}

/-! ### Schedules -/

/-- Process `i` reads the store at this step. -/
def loadsAt (i : ι) (p : FlyDeskSystem ι × FlyDeskMove ι) : Bool :=
  match p.2 with
  | .proc j c => decide (j = i) && (p.1.procs j).loads c
  | .env _ => false

/-- The steps since process `i` last read the store, the latest first. -/
def sinceLoad (i : ι) (steps : List (FlyDeskSystem ι × FlyDeskMove ι)) :
    List (FlyDeskSystem ι × FlyDeskMove ι) :=
  steps.reverse.takeWhile fun p => !loadsAt i p

/-- Some `relay_once` saves the order with this id at this step. -/
def RelaySaves (id : String) (p : FlyDeskSystem ι × FlyDeskMove ι) : Prop :=
  match p.2 with
  | .proc i c => (p.1.procs i).relaySaves? c = some id
  | .env _ => False

/-- Some `handle_ticketing` saves the order with this id at this step. -/
def TicketingSaves (id : String) (p : FlyDeskSystem ι × FlyDeskMove ι) : Prop :=
  match p.2 with
  | .proc i c => (p.1.procs i).ticketingSaves? c = some id
  | .env _ => False

/-- The condition at a step that comes after `before`.  Where a relay saves an
order, no worker has saved it since the relay last read the store; where a
worker saves one, no worker has and no relay. -/
def InTurn (before : List (FlyDeskSystem ι × FlyDeskMove ι))
    (p : FlyDeskSystem ι × FlyDeskMove ι) : Prop :=
  match p.2 with
  | .proc i c =>
    (∀ id ∈ (p.1.procs i).relaySaves? c,
      ∀ q ∈ sinceLoad i before, ¬ TicketingSaves id q) ∧
    ∀ id ∈ (p.1.procs i).ticketingSaves? c,
      ∀ q ∈ sinceLoad i before, ¬ TicketingSaves id q ∧ ¬ RelaySaves id q
  | .env _ => True

instance (id : String) : DecidablePred (RelaySaves (ι := ι) id)
  | (_, .proc _ _) => inferInstanceAs (Decidable (_ = _))
  | (_, .env _) => .isFalse fun h => h

instance (id : String) : DecidablePred (TicketingSaves (ι := ι) id)
  | (_, .proc _ _) => inferInstanceAs (Decidable (_ = _))
  | (_, .env _) => .isFalse fun h => h

instance (before : List (FlyDeskSystem ι × FlyDeskMove ι)) : DecidablePred (InTurn before)
  | (_, .proc _ _) => inferInstanceAs (Decidable (_ ∧ _))
  | (_, .env _) => .isTrue trivial

/-! ### What is loaded is what is stored -/

/-- As long as no worker saves an order, what a process has loaded of it has
the stored status and history; as long as nobody does, it has what is
published. -/
def UpToDate (steps : List (FlyDeskSystem ι × FlyDeskMove ι)) (s : FlyDeskSystem ι) : Prop :=
  ∀ i, ∀ o ∈ (s.procs i).loaded, ∀ d ∈ s.shared.orders.docs, d.id = o.id →
    (∀ q ∈ sinceLoad i steps, ¬ TicketingSaves o.id q) →
      d.AsLoaded o ∧
        ((∀ q ∈ sinceLoad i steps, ¬ RelaySaves o.id q) → d.PublishedIn o)

/-- A step of a process that holds an order is one more since it has loaded. -/
theorem sinceLoad_snoc {i : ι} {o : Order} (ho : o ∈ (s.procs i).loaded) :
    sinceLoad i (steps ++ [(s, m)]) = (s, m) :: sinceLoad i steps := by
  have hno : loadsAt i (s, m) = false := by
    cases m with
    | env seconds => rfl
    | proc j c =>
        by_contra h
        rw [Bool.not_eq_false, loadsAt, Bool.and_eq_true, decide_eq_true_iff] at h
        obtain ⟨rfl, hl⟩ := h
        rw [Proc.loaded_of_loads hl] at ho
        cases ho
  simp [sinceLoad, hno]

/-- What a step does to the document of an order that no worker saves: either
it is not touched, or a relay writes back what it has loaded of it. -/
theorem Holding.doc_of_step (hs : Holding s) (h : FlyDeskSystem.step s m = some t)
    {d' : OrderDoc} (hd' : d' ∈ t.shared.orders.docs)
    (hno : ¬ TicketingSaves d'.id (s, m)) :
    d' ∈ s.shared.orders.docs ∨
    RelaySaves d'.id (s, m) ∧ ∃ i c, m = .proc i c ∧
      (s.procs i).relaySaves? c = some d'.id ∧ ∃ o ∈ (s.procs i).loaded, o.id = d'.id ∧
        d'.status = o.status ∧ d'.events = o.events := by
  cases m with
  | env seconds =>
      obtain ⟨w, hw, rfl⟩ := System.step_env h
      obtain rfl := Option.some.inj hw
      exact Or.inl hd'
  | proc i c =>
      obtain ⟨w, p, hstep, rfl⟩ := System.step_proc h
      rcases Proc.saves_of_step hstep (hs.eventing i) with heq |
        ⟨order, done, rest, n, hp, hsaves, hsave⟩ |
        ⟨offset, event, id, order, now, hp, hsaves, hsave⟩
      · exact Or.inl (heq ▸ hd' : d' ∈ s.shared.orders.docs)
      · rcases (Collection.mem_replaceOne hsave).mp hd' with rfl | ⟨hd, -⟩
        · refine Or.inr ⟨hsaves, i, c, rfl, hsaves, order, ?_, rfl, rfl, rfl⟩
          rw [hp]
          exact List.mem_cons_self
        · exact Or.inl hd
      · rcases (Collection.mem_replaceOne hsave).mp hd' with rfl | ⟨hd, -⟩
        · exact absurd hsaves hno
        · exact Or.inl hd

/-- The step lemma of `UpToDate`. -/
theorem UpToDate.step (hf : UpToDate steps s) (hs : Holding s) (hturn : InTurn steps (s, m))
    (h : FlyDeskSystem.step s m = some t) : UpToDate (steps ++ [(s, m)]) t := by
  intro i o ho d' hd' hid hno
  -- either the order was held before the step, or it is read in it
  have hloaded : o ∈ (s.procs i).loaded ∨ t.shared = s.shared ∧
      ∃ d ∈ s.shared.orders.docs, d.toOrder = .ok o := by
    rcases System.procs_of_step h i with he | ⟨c, rfl, hstep⟩
    · exact Or.inl (he ▸ ho)
    · exact (Proc.steps_of_step hstep).loaded ho
  rcases hloaded with hold | ⟨hshared, d, hd, hread⟩
  · rw [sinceLoad_snoc hold] at hno ⊢
    obtain ⟨hnow, hbefore⟩ := List.forall_mem_cons.mp hno
    rw [← hid] at hnow
    rcases hs.doc_of_step h hd' hnow with hd |
      ⟨hsaves, j, c, rfl, hj, order, horder, hoid, hst, hev⟩
    · obtain ⟨has, hpub⟩ := hf i o hold d' hd hid hbefore
      exact ⟨has, fun hrelay => hpub fun q hq => hrelay q (List.mem_cons_of_mem _ hq)⟩
    · -- a relay has written the order: it had loaded what is stored
      obtain ⟨d, hd, hdid, -⟩ := hs.asStored i o hold
      obtain ⟨⟨hst₁, hev₁⟩, -⟩ := hf i o hold d hd hdid hbefore
      obtain ⟨⟨hst₂, hev₂⟩, -⟩ := hf j order horder d hd
        (by rw [hdid, hoid, hid]) (hoid ▸ hturn.1 _ hj)
      refine ⟨⟨?_, ?_⟩, fun hrelay => ?_⟩
      · rw [hst, ← hst₂, hst₁]
      · rw [hev, ← hev₂, hev₁]
      · exact absurd (hid ▸ hsaves) (hrelay _ List.mem_cons_self)
  · rw [hshared] at hd'
    obtain ⟨total, _, rfl⟩ := OrderDoc.toOrder_eq_ok.mp hread
    obtain rfl := Collection.eq_of_docId hd' hd hid
    obtain ⟨has, hpub⟩ := OrderDoc.asLoaded_of_read hread
    exact ⟨has, fun _ => hpub⟩

theorem Eventing.upToDate (hs : Eventing s) : UpToDate [] s := by
  intro i o ho
  rcases hs i with h | h
  all_goals
    rw [h] at ho
    cases ho

/-- What a process saves in its turn is what is stored. -/
theorem holding_upToDate (h : Trace FlyDeskSystem.step s steps t) (hs : Eventing s)
    (hturn : ∀ before p, before ++ [p] <+: steps → InTurn before p) :
    Holding t ∧ UpToDate steps t :=
  h.history_upTo (I := fun l u => Holding u ∧ UpToDate l u) hturn ⟨hs.holding, hs.upToDate⟩
    fun hI hA hstep => ⟨hI.1.step hstep, hI.2.step hI.1 hA hstep⟩

/-- **When no update is lost.**  Relays and workers run interleaved on any
collection.  If every save is in turn, that is no other save of the order has
come between the load and the save (one by another relay may, where a relay
saves), then every document of the run is kept: tickets stay, and published
events stay published. -/
theorem updates_kept (h : Trace FlyDeskSystem.step s steps t) (hs : Eventing s)
    (hturn : ∀ before p, before ++ [p] <+: steps → InTurn before p) :
    ∀ p ∈ steps, ∀ d ∈ p.1.shared.orders.docs, ∃ d' ∈ t.shared.orders.docs, d.Keeps d' := by
  refine h.relates (R := fun u v => ∀ d ∈ u.shared.orders.docs,
    ∃ d' ∈ v.shared.orders.docs, d.Keeps d') ?_ ?_
  · intro u v x huv hvx d hd
    obtain ⟨d', hd', hk⟩ := huv d hd
    obtain ⟨d'', hd'', hk'⟩ := hvx d' hd'
    exact ⟨d'', hd'', hk.trans hk'⟩
  · rintro ⟨u, m⟩ hp v hv
    obtain ⟨before, hpre, hbefore⟩ := h.prefix_of_mem hp
    obtain ⟨hu, hfresh⟩ := holding_upToDate hbefore hs fun l q hq =>
      hturn l q (hq.trans ((List.prefix_append before _).trans hpre))
    cases m with
    | env seconds =>
        obtain ⟨w, hw, rfl⟩ := System.step_env hv
        obtain rfl := Option.some.inj hw
        exact fun d hd => ⟨d, hd, .refl d⟩
    | proc i c =>
        obtain ⟨w, p', hstep, rfl⟩ := System.step_proc hv
        obtain ⟨hrelay, hticketing⟩ := hturn before _ hpre
        refine Proc.keeps_of_step hstep (hu.eventing i) (hu.inOrder i) (hu.asStored i) ?_ ?_
        · rintro id hid o ho rfl d hd hdo
          exact (hfresh i o ho d hd hdo (hrelay _ hid)).1
        · rintro id hid o ho rfl d hd hdo
          obtain ⟨has, hpub⟩ := hfresh i o ho d hd hdo fun q hq => (hticketing _ hid q hq).1
          exact ⟨has, hpub fun q hq => (hticketing _ hid q hq).2⟩

end FlyDeskSystem

/-! ### A relay and a worker -/

namespace Sample

/-- An order as a call without a key stages it. -/
def order (id uuid : String) : Order :=
  (DuffelProvider.mapOrder (orderData id) [] clock).staged none uuid now

/-- A collection with one order in it. -/
def stored (id uuid : String) : Collection OrderDoc where
  docs := [(order id uuid).modelDump]
  nodup_ids := by simp
  unique := by simp

/-- Two processes. -/
inductive Peer
  | relay
  | worker
deriving DecidableEq

/-- A relay and a worker on one stored order. -/
def relayAndWorker : FlyDeskSystem Peer where
  shared := { World.fresh with orders := stored "ord_1" "e1" }
  procs
    | .relay => .relay (.idle none)
    | .worker => .worker (.idle none)

theorem eventing_relayAndWorker : FlyDeskSystem.Eventing relayAndWorker
  | .relay => Or.inl rfl
  | .worker => Or.inr rfl

end Sample

namespace FlyDeskSystem

open Sample

/-- The relay publishes; before it saves, the worker handles the message and
saves the ticket. -/
def overtaken : List (FlyDeskMove Peer) :=
  [relayLoad .relay ["ord_1"], relayGo .relay, relayGo .relay, deliver .worker 0] ++
    List.replicate 3 (workerGo .worker)

/-- The save of the relay then takes the ticket back. -/
theorem relay_undoes_ticket :
    ∃ u t, exec FlyDeskSystem.step relayAndWorker overtaken = some u ∧
      FlyDeskSystem.step u (relayGo .relay) = some t ∧
      (∃ d ∈ u.shared.orders.docs, d.id = "ord_1" ∧ d.status = .ticketed ∧
        ∃ ev ∈ d.events, ev.type = "ticket.issued") ∧
      ∀ d ∈ t.shared.orders.docs, d.id = "ord_1" → d.status = .confirmed ∧
        ∀ ev ∈ d.events, ev.type ≠ "ticket.issued" := by
  obtain ⟨u, hu, hticket, hsome⟩ := exec_any (P := fun u : FlyDeskSystem Peer =>
    (∃ d ∈ u.shared.orders.docs, d.id = "ord_1" ∧ d.status = .ticketed ∧
      ∃ ev ∈ d.events, ev.type = "ticket.issued") ∧
    (FlyDeskSystem.step u (relayGo .relay)).any (fun t => decide
      (∀ d ∈ t.shared.orders.docs, d.id = "ord_1" → d.status = .confirmed ∧
        ∀ ev ∈ d.events, ev.type ≠ "ticket.issued")) = true)
    (by decide : (exec FlyDeskSystem.step relayAndWorker overtaken).any _ = true)
  obtain ⟨t, ht, hback⟩ := (Option.any_eq_true _ _).mp hsome
  exact ⟨u, t, hu, ht, hticket, of_decide_eq_true hback⟩

/-- A worker that loads after the relay has saved keeps both: the order is
ticketed at the end, and its event is published. -/
theorem updates_kept_inTurn :
    let run := relayLoad .relay ["ord_1"] :: List.replicate 3 (relayGo .relay) ++
      deliver .worker 0 :: List.replicate 3 (workerGo .worker)
    ∃ t, exec FlyDeskSystem.step relayAndWorker run = some t ∧
      (∀ p ∈ execSteps FlyDeskSystem.step relayAndWorker run,
        ∀ d ∈ p.1.shared.orders.docs, ∃ d' ∈ t.shared.orders.docs, d.Keeps d') ∧
      ∃ d ∈ t.shared.orders.docs, d.id = "ord_1" ∧ d.status = .ticketed ∧
        ∀ e ∈ d.outbox, e.Published := by
  intro run
  obtain ⟨t, ht, hend⟩ := exec_any (P := fun t : FlyDeskSystem Peer =>
    ∃ d ∈ t.shared.orders.docs, d.id = "ord_1" ∧ d.status = .ticketed ∧
      ∀ e ∈ d.outbox, e.Published)
    (by decide : (exec FlyDeskSystem.step relayAndWorker run).any _ = true)
  exact ⟨t, ht, updates_kept (Trace.of_exec ht) eventing_relayAndWorker
    (forall_prefix_of_inits (by decide)), hend⟩

end FlyDeskSystem

end FlyDesk
