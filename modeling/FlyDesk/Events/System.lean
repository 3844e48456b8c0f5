/-
FlyDesk/Events/System.lean

The whole system: any number of `create_booking` calls, relay processes and
worker processes over one world, in any interleaving.  `Proc.Steps` is its
inversion; what a step does to the stored orders is said once, in
`Proc.Steps.orders`, and what it publishes in `Proc.Steps.published`.
-/
import FlyDesk.Bookings.Agreement
import FlyDesk.Events.Consumers

namespace FlyDesk

open Lib

/-- A process of the system. -/
inductive Proc
  | booking (call : BookingFrame)
  | relay (pc : RelayPc)
  | worker (pc : WorkerPc)

/-- What the environment decides at a step of a process. -/
inductive ProcChoice
  | booking (choice : BookingChoice)
  | relay (choice : RelayChoice)
  | worker (choice : WorkerChoice)

/-- One atomic step of a process. -/
def Proc.step (w : World) (p : Proc) (choice : ProcChoice) : Option (World × Proc) :=
  match p, choice with
  | .booking call, .booking choice => (call.step w choice).map fun r => (r.1, .booking r.2)
  | .relay pc, .relay choice => (pc.step w choice).map fun r => (r.1, .relay r.2)
  | .worker pc, .worker choice => (pc.step w choice).map fun r => (r.1, .worker r.2)
  | _, _ => none

/-- A process that has not started. -/
def Proc.Initial : Proc → Prop
  | .booking call => ∃ c, call = BookingFrame.init c
  | .relay pc => pc = .idle none
  | .worker pc => pc = .idle none

/-- The system, and its moves. -/
abbrev FlyDeskSystem (ι : Type*) := System ι World Proc

abbrev FlyDeskMove (ι : Type*) := Move ι ProcChoice ℕ

/-- One step of the system. -/
def FlyDeskSystem.step {ι : Type*} [DecidableEq ι] (s : FlyDeskSystem ι)
    (m : FlyDeskMove ι) : Option (FlyDeskSystem ι) :=
  System.step Proc.step World.tick s m

/-- A step of a process, by the kind of the process. -/
inductive Proc.Steps (w : World) : Proc → ProcChoice → World → Proc → Prop
  | booking {call call' choice w'} : call.Steps w choice w' call' →
      Steps w (.booking call) (.booking choice) w' (.booking call')
  | relay {pc pc' choice w'} : RelayPc.Steps w pc w' pc' →
      Steps w (.relay pc) (.relay choice) w' (.relay pc')
  | worker {pc pc' choice w'} : WorkerPc.Steps w pc choice w' pc' →
      Steps w (.worker pc) (.worker choice) w' (.worker pc')

theorem Proc.steps_of_step {w w' : World} {p p' : Proc} {choice : ProcChoice}
    (h : p.step w choice = some (w', p')) : Proc.Steps w p choice w' p' := by
  unfold Proc.step at h
  split at h
  · obtain ⟨⟨w₁, call'⟩, hstep, hr⟩ := Option.map_eq_some_iff.mp h
    obtain ⟨rfl, rfl⟩ := Prod.mk.inj hr
    exact .booking (BookingFrame.steps_of_step hstep)
  · obtain ⟨⟨w₁, pc'⟩, hstep, hr⟩ := Option.map_eq_some_iff.mp h
    obtain ⟨rfl, rfl⟩ := Prod.mk.inj hr
    exact .relay (RelayPc.steps_of_step hstep)
  · obtain ⟨⟨w₁, pc'⟩, hstep, hr⟩ := Option.map_eq_some_iff.mp h
    obtain ⟨rfl, rfl⟩ := Prod.mk.inj hr
    exact .worker (WorkerPc.steps_of_step hstep)
  · cases h

variable {w w' : World} {p p' : Proc} {choice : ProcChoice}

/-- What a step does to the stored orders: nothing, or one of the three saves
of the system. -/
theorem Proc.Steps.orders (h : Proc.Steps w p choice w' p') :
    (w'.orders = w.orders ∧ w.orderIds ⊆ w'.orderIds) ∨
    w'.orderIds = w.orderIds ∧ w'.published = w.published ∧ (
      (∃ call order, p = .booking call ∧ call.pc = .save order ∧
        OrderRepository.save w.orders order = some w'.orders) ∨
      (∃ order done rest n, p = .relay (.events order done [] true rest n) ∧
        OrderRepository.save w.orders { order with outbox := done } = some w'.orders) ∨
      (∃ offset event id order now, p = .worker (.run offset event (.saveOrder id order now)) ∧
        OrderRepository.save w.orders (order.ticketed now) = some w'.orders)) := by
  cases h with
  | booking h =>
      cases h with
      | stored hpc hsave => exact Or.inr ⟨rfl, rfl, Or.inl ⟨_, _, rfl, hpc, hsave⟩⟩
      | booked => exact Or.inl ⟨rfl, fun _ hx => List.mem_append_left _ hx⟩
      | _ => exact Or.inl ⟨rfl, fun _ hx => hx⟩
  | relay h =>
      cases h with
      | saved hsave =>
          exact Or.inr ⟨rfl, rfl, Or.inr (Or.inl ⟨_, _, _, _, rfl, hsave⟩)⟩
      | _ => exact Or.inl ⟨rfl, fun _ hx => hx⟩
  | worker h =>
      cases h with
      | saved hsave =>
          exact Or.inr ⟨rfl, rfl, Or.inr (Or.inr ⟨_, _, _, _, _, rfl, hsave⟩)⟩
      | _ => exact Or.inl ⟨rfl, fun _ hx => hx⟩

/-- What a step publishes: nothing, the message of an unpublished event, or a
ticket. -/
theorem Proc.Steps.published (h : Proc.Steps w p choice w' p') :
    w'.published = w.published ∨ w'.orders = w.orders ∧ (
      (∃ order done event todo changed rest n,
        p = .relay (.events order done (event :: todo) changed rest n) ∧
          w'.published = w.published ++ [event.message order.id]) ∨
      (∃ offset event id order uuid,
        p = .worker (.run offset event (.publishTicket id order)) ∧
          p' = .worker (.run offset event (.mark .notifications)) ∧
          w'.published = w.published ++ [ticketIssued id order.bookingReference uuid])) := by
  cases h with
  | booking h => cases h <;> exact Or.inl rfl
  | relay h =>
      cases h with
      | published => exact Or.inr ⟨rfl, Or.inl ⟨_, _, _, _, _, _, _, rfl, rfl⟩⟩
      | _ => exact Or.inl rfl
  | worker h =>
      cases h with
      | published => exact Or.inr ⟨rfl, Or.inr ⟨_, _, _, _, _, rfl, rfl, rfl⟩⟩
      | _ => exact Or.inl rfl

/-! ### What a process holds in memory -/

/-- The orders a process holds as it loaded them. -/
def Proc.loaded : Proc → List Order
  | .relay (.orders rest _) => rest
  | .relay (.events order _ _ _ rest _) => order :: rest
  | .worker (.run _ _ (.saveOrder _ order _)) => [order]
  | _ => []

/-- A pass keeps the events of the order it works on, and has published those
behind it. -/
def RelayPc.InOrder : RelayPc → Prop
  | .events order done todo _ _ _ =>
    (done ++ todo).map OutboxEvent.core = order.outbox.map OutboxEvent.core ∧
      ∀ e ∈ done, e.publishedAt ≠ none
  | _ => True

/-- `RelayPc.InOrder` for a process. -/
def Proc.InOrder : Proc → Prop
  | .relay pc => pc.InOrder
  | _ => True

/-! A process that has not started holds nothing. -/

theorem Proc.Initial.loaded {p : Proc} (h : p.Initial) : p.loaded = [] := by
  rcases p with call | pc | pc
  · rfl
  · obtain rfl : pc = .idle none := h
    rfl
  · obtain rfl : pc = .idle none := h
    rfl

theorem Proc.Initial.inOrder {p : Proc} (h : p.Initial) : p.InOrder := by
  rcases p with call | pc | pc
  · trivial
  · obtain rfl : pc = .idle none := h
    trivial
  · trivial

theorem RelayPc.Steps.inOrder {w w' : World} {pc pc' : RelayPc}
    (h : RelayPc.Steps w pc w' pc') (hpc : pc.InOrder) : pc'.InOrder := by
  cases h with
  | picked => exact ⟨rfl, by simp⟩
  | @skipped order done event todo changed rest n hpub =>
      obtain ⟨hcore, hdone⟩ := hpc
      refine ⟨by simpa using hcore, fun e he => ?_⟩
      rcases List.mem_append.mp he with he | he
      · exact hdone e he
      · obtain rfl := List.mem_singleton.mp he
        exact hpub
  | @published order done event todo changed rest n now hpub =>
      obtain ⟨hcore, hdone⟩ := hpc
      have hstamp : (event.stamp now).core = event.core := rfl
      refine ⟨by simpa [hstamp] using hcore, fun e he => ?_⟩
      rcases List.mem_append.mp he with he | he
      · exact hdone e he
      · obtain rfl := List.mem_singleton.mp he
        simp [OutboxEvent.stamp]
  | _ => trivial

theorem Proc.Steps.inOrder {w w' : World} {p p' : Proc} {choice : ProcChoice}
    (h : Proc.Steps w p choice w' p') (hp : p.InOrder) : p'.InOrder := by
  cases h with
  | booking => trivial
  | relay h => exact RelayPc.Steps.inOrder h hp
  | worker => trivial

/-- What a process holds after a step it held before, or it has just read it
from the store. -/
theorem Proc.Steps.loaded {w w' : World} {p p' : Proc} {choice : ProcChoice}
    (h : Proc.Steps w p choice w' p') {o : Order} (ho : o ∈ p'.loaded) :
    o ∈ p.loaded ∨ w' = w ∧ ∃ d ∈ w.orders.docs, d.toOrder = .ok o := by
  cases h with
  | booking => cases ho
  | relay h =>
      cases h with
      | @loaded _ ids batch _ hfind =>
          obtain ⟨d, hd, hdo⟩ := OrderRepository.mem_batch hfind ho
          exact Or.inr ⟨rfl, d, hd, hdo⟩
      | saved => exact Or.inl (List.mem_cons_of_mem _ ho)
      | unchanged => exact Or.inl (List.mem_cons_of_mem _ ho)
      | ended => cases ho
      | _ => exact Or.inl ho
  | worker h =>
      cases h with
      | @found _ _ _ _ _ order d _ hd _ hread _ =>
          obtain rfl := List.mem_singleton.mp ho
          exact Or.inr ⟨rfl, d, hd, hread⟩
      | marked => rename_i c _ _ _; cases c <;> cases ho
      | skipped => rename_i c _ _ _; cases c <;> cases ho
      | _ => cases ho

/-! ### Moves of small runs -/

namespace Sample

variable {ι : Type*}

/-- A call books from its first step to its return. -/
def books (i : ι) (id uuid : String) : List (FlyDeskMove ι) :=
  [.go, .go, offer, created id uuid, .go, .go].map fun c => .proc i (.booking c)

def relayLoad (i : ι) (ids : List String) : FlyDeskMove ι :=
  .proc i (.relay (.load ids))

def relayGo (i : ι) : FlyDeskMove ι :=
  .proc i (.relay (.go now))

def deliver (i : ι) (offset : ℕ) : FlyDeskMove ι :=
  .proc i (.worker (.deliver offset))

def workerGo (i : ι) : FlyDeskMove ι :=
  .proc i (.worker (.go now "t1"))

def workerDies (i : ι) : FlyDeskMove ι :=
  .proc i (.worker (.stop .die))

/-- Three processes. -/
inductive Role
  | caller
  | relay
  | worker
deriving DecidableEq

/-- A call without a key, a relay and a worker about to start. -/
def desk : FlyDeskSystem Role where
  shared := World.fresh
  procs
    | .caller => .booking (.init (call none))
    | .relay => .relay (.idle none)
    | .worker => .worker (.idle none)

theorem initial_desk : ∀ i, (desk.procs i).Initial
  | .caller => ⟨_, rfl⟩
  | .relay => rfl
  | .worker => rfl

/-- The call books and the relay makes a pass. -/
def booked : List (FlyDeskMove Role) :=
  books .caller "ord_1" "e1" ++ relayLoad .relay ["ord_1"] ::
    List.replicate 4 (relayGo .relay)

/-- The call books, and a relay that has published dies before its save and
starts again. -/
def publishedTwice : List (FlyDeskMove Role) :=
  books .caller "ord_1" "e1" ++
    [relayLoad .relay ["ord_1"], relayGo .relay, relayGo .relay,
      .proc .relay (.relay (.stop .die)), relayLoad .relay ["ord_1"]] ++
    List.replicate 3 (relayGo .relay)

end Sample

end FlyDesk
