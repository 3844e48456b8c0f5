/-
FlyDesk/Bookings/Retry.lean

Retrying a booking.  Attempts with one key are made one after another, each
may stop anywhere, and any time may pass.  An attempt can create an order at
the provider and leave no document: the answer may be lost, or the process
may die before the save.  From then on only the reservation keeps the next
attempt from booking again, and it lasts `reservationTtl` seconds.

`ordersCreated_le_one` is the condition: an attempt that comes to reserve
after an order has been created finds the reservation held.
`timeout_retry_books_twice` is a run that waits for it to expire.
-/
import FlyDesk.Bookings.Reservation
import Mathlib.Data.Fintype.Basic

namespace FlyDesk

open Lib

/-- The points from the reservation to the answer of the provider. -/
def BookingPc.Asking : BookingPc → Prop
  | .prepare | .createOrder _ _ | .postOrder _ => True
  | _ => False

theorem BookingPc.Asking.running {pc : BookingPc} (h : pc.Asking) : pc.Running := by
  cases pc <;> trivial

instance : DecidablePred BookingPc.Running
  | .start | .returned _ | .raised _ | .died => .isFalse id
  | .reserve | .findReserved | .prepare | .createOrder _ _ | .postOrder _ | .save _
  | .findWinner | .saved _ => .isTrue trivial

/-- The call is at its reservation. -/
def BookingPc.Reserving : BookingPc → Prop
  | .reserve => True
  | _ => False

instance : DecidablePred BookingPc.Reserving
  | .reserve => .isTrue trivial
  | .start | .findReserved | .prepare | .createOrder _ _ | .postOrder _ | .save _
  | .findWinner | .saved _ | .returned _ | .raised _ | .died => .isFalse id

namespace Bookings

variable {ι : Type*}

/-- The attempts with key `k` are made one after another. -/
def Sequential (k : IdempotencyKey) (s : Bookings ι) : BookingMove ι → Prop
  | .proc i _ => (s.procs i).call.key = some k →
      ∀ j, j ≠ i → (s.procs j).call.key = some k → ¬ (s.procs j).pc.Running
  | .env _ => True

/-- The condition at a step: an attempt that comes to reserve `k` after an
order has been created for it gets an answer from Redis, and the reservation
is held. -/
def StillReserved (k : IdempotencyKey) (s : Bookings ι) : BookingMove ι → Prop
  | .proc i choice => (s.procs i).call.key = some k → (s.procs i).pc.Reserving →
      some k ∈ s.shared.ordersCreated → match choice with
        | .go => s.shared.redis.Held k.redisKey
        | .redisError _ => False
        | _ => True
  | .env _ => True

variable {k : IdempotencyKey} {w w' : World} {f f' : BookingFrame} {choice : BookingChoice}

/-- What a step does to the orders created for `k`: only a call with that key
that is asking the provider adds one. -/
theorem ordersCreated_step (h : f.Steps w choice w' f') :
    w'.ordersCreated.count (some k) = w.ordersCreated.count (some k) ∨
      (f.call.key = some k ∧ f.pc.Asking ∧ ¬ f'.pc.Asking ∧
        w'.ordersCreated.count (some k) = w.ordersCreated.count (some k) + 1) := by
  have hcount : ∀ key : Option IdempotencyKey,
      (w.ordersCreated ++ [key]).count (some k) = w.ordersCreated.count (some k) ∨
      key = some k ∧ (w.ordersCreated ++ [key]).count (some k) =
        w.ordersCreated.count (some k) + 1 := by
    intro key
    by_cases hk : key = some k
    · subst hk
      exact Or.inr ⟨rfl, by simp⟩
    · exact Or.inl (by simp [List.count_append, hk])
  cases h with
  | booked hpc =>
      rcases hcount f.call.key with hc | ⟨hk, hc⟩
      · exact Or.inl hc
      · exact Or.inr ⟨hk, by simp [BookingPc.Asking, hpc], id, hc⟩
  | unbooked hpc _ hcreated =>
      rcases hcreated with rfl | rfl
      · exact Or.inl rfl
      · rcases hcount f.call.key with hc | ⟨hk, hc⟩
        · exact Or.inl hc
        · exact Or.inr ⟨hk, by simp [BookingPc.Asking, hpc], id, hc⟩
  | _ => exact Or.inl rfl

/-- How a call with key `k` comes to ask the provider: it was asking before,
or it got past the reservation. -/
theorem asking_step (h : f.Steps w choice w' f') (hk : f.call.key = some k)
    (ha : f'.pc.Asking) : f.pc.Asking ∨ (f.pc.Reserving ∧ (
      (choice = .go ∧ ¬ w.redis.Held k.redisKey) ∨ ∃ executed, choice = .redisError executed)) := by
  cases h with
  | startUnkeyed _ hkey => simp [hkey] at hk
  | @reserved key hpc hkey hfree =>
      obtain rfl := Option.some.inj (hkey.symm.trans hk)
      exact Or.inr ⟨by simp [BookingPc.Reserving, hpc], Or.inl ⟨rfl, hfree⟩⟩
  | redisDown hpc => exact Or.inr ⟨by simp [BookingPc.Reserving, hpc], Or.inr ⟨_, rfl⟩⟩
  | prepared hpc | offered hpc => exact Or.inl (by simp [BookingPc.Asking, hpc])
  | find _ _ hf | findReserved _ _ hf | findWinner _ _ hf => cases hf <;> cases ha
  | @stopped how => cases how <;> cases ha
  | _ => cases ha

/-- At most one order is created for `k`, and while a call with that key asks
the provider there is none. -/
def booksOnce (k : IdempotencyKey) : Assertions World BookingFrame where
  shared w := w.ordersCreated.count (some k) ≤ 1
  each w f := f.call.key = some k → f.pc.Asking → w.ordersCreated.count (some k) = 0
  pair _ _ := True

theorem booksOnce_stable (k : IdempotencyKey) :
    (booksOnce k).Stable BookingFrame.step World.tick
      (fun (s : Bookings ι) m => Sequential k s m ∧ StillReserved k s m) where
  symm := fun _ => trivial
  own := by
    intro s i c w' f' hA hok hf
    have h := BookingFrame.steps_of_step hf
    have hle : s.shared.ordersCreated.count (some k) ≤ 1 := hA.shared
    have hi : (s.procs i).call.key = some k → (s.procs i).pc.Asking →
        s.shared.ordersCreated.count (some k) = 0 := hA.each i
    refine ⟨?_, fun hk ha => ?_⟩
    · show w'.ordersCreated.count (some k) ≤ 1
      rcases ordersCreated_step (k := k) h with hc | ⟨hk, ha, _, hc⟩
      · omega
      · have := hi hk ha
        omega
    · rw [h.call_eq] at hk
      have hc : w'.ordersCreated.count (some k) = s.shared.ordersCreated.count (some k) := by
        rcases ordersCreated_step (k := k) h with hc | ⟨_, _, hna, _⟩
        · exact hc
        · exact absurd ha hna
      rw [hc]
      rcases asking_step h hk ha with ha | ⟨hres, hgo⟩
      · exact hi hk ha
      · -- past the reservation: no order has been created yet
        by_contra hne
        have hmem : some k ∈ s.shared.ordersCreated :=
          List.count_pos_iff.mp (Nat.pos_of_ne_zero hne)
        have hstill := hok.2 hk hres hmem
        rcases hgo with ⟨rfl, hfree⟩ | ⟨executed, rfl⟩
        · exact hfree hstill
        · exact hstill
  other := by
    intro s i j c w' f' hA hok hf hij
    refine ⟨fun hk ha => ?_, trivial⟩
    have h := BookingFrame.steps_of_step hf
    rcases ordersCreated_step (k := k) h with hc | ⟨hk', _, _, _⟩
    · rw [hc]
      exact hA.each j hk ha
    · -- attempts with `k` do not overlap
      exact absurd ha.running (hok.1 hk' j (Ne.symm hij) hk)
  env := by
    intro s seconds w' hA _ hg
    obtain rfl := Option.some.inj hg
    exact ⟨hA.shared, hA.each⟩

/-- **When a retry never books twice.**  Attempts are made one after another;
if every attempt that comes to reserve after an order has been created finds
the reservation held, then at most one order is created for the key. -/
theorem ordersCreated_le_one [DecidableEq ι] (k : IdempotencyKey) {s t : Bookings ι}
    {steps : List (Bookings ι × BookingMove ι)} (h : Trace Bookings.step s steps t)
    (hs : s.Initial) (hseq : ∀ p ∈ steps, Sequential k p.1 p.2)
    (hstill : ∀ p ∈ steps, StillReserved k p.1 p.2) :
    t.shared.ordersCreated.count (some k) ≤ 1 := by
  refine ((booksOnce_stable k).run h (fun p hp => ⟨hseq p hp, hstill p hp⟩) ?_).shared
  refine ⟨?_, fun i _ ha => ?_, fun _ _ _ => trivial⟩
  · show s.shared.ordersCreated.count (some k) ≤ 1
    simp [hs.ordersCreated]
  · obtain ⟨call, hcall⟩ := hs.init i
    rw [hcall] at ha
    cases ha

/-! ### Two attempts -/

instance [DecidableEq ι] [Fintype ι] (k : IdempotencyKey) (s : Bookings ι) :
    DecidablePred (Sequential k s)
  | .proc i _ => inferInstanceAs (Decidable ((s.procs i).call.key = some k →
      ∀ j, j ≠ i → (s.procs j).call.key = some k → ¬ (s.procs j).pc.Running))
  | .env _ => .isTrue trivial

instance (k : IdempotencyKey) (s : Bookings ι) : DecidablePred (StillReserved k s)
  | .proc _ .go => inferInstanceAs (Decidable (_ → _ → _ → Redis.Held _ _))
  | .proc _ (.redisError _) => inferInstanceAs (Decidable (_ → _ → _ → False))
  | .proc _ (.offerReply _) | .proc _ (.orderReply ..) | .proc _ (.stop _) =>
    .isTrue fun _ _ _ => trivial
  | .env _ => .isTrue trivial

instance : Fintype Sample.Caller where
  elems := {.first, .second}
  complete := fun i => by cases i <;> decide

/-- The first attempt creates an order and does not hear of it; after
`seconds` the second attempt runs up to where `rest` takes it. -/
def retry (seconds : ℕ) (rest : List (BookingMove Sample.Caller)) :
    List (BookingMove Sample.Caller) :=
  [.proc .first .go, .proc .first .go, .proc .first .go, .proc .first Sample.offer,
    .proc .first (.orderReply true .timeout "e1" Sample.clock), .env seconds,
    .proc .second .go, .proc .second .go] ++ rest

/-- A retry after the reservation has expired creates a second order. -/
theorem timeout_retry_books_twice :
    let s := Sample.bookings fun _ : Sample.Caller => Sample.call (some "k1")
    let run := retry 120 [.proc .second .go, .proc .second Sample.offer,
      .proc .second (Sample.created "ord_2" "e2"), .proc .second .go, .proc .second .go]
    ∃ t, exec Bookings.step s run = some t ∧
      (∀ p ∈ execSteps Bookings.step s run, Sequential Sample.key p.1 p.2) ∧
      t.shared.ordersCreated.count (some Sample.key) = 2 := by
  intro s run
  obtain ⟨t, ht, htwo⟩ := exec_any (P := fun t : Bookings Sample.Caller =>
    t.shared.ordersCreated.count (some Sample.key) = 2)
    (by decide : (exec Bookings.step s run).any _ = true)
  exact ⟨t, ht, by decide, htwo⟩

/-- A retry in time is told that the booking is in progress. -/
theorem ordersCreated_le_one_retry :
    let s := Sample.bookings fun _ : Sample.Caller => Sample.call (some "k1")
    let run := retry 60 [.proc .second .go]
    ∃ t, exec Bookings.step s run = some t ∧
      (t.procs .second).pc.raised? = some .bookingInProgressError ∧
      t.shared.ordersCreated.count (some Sample.key) ≤ 1 := by
  intro s run
  obtain ⟨t, ht, hraised⟩ := exec_any (P := fun t : Bookings Sample.Caller =>
    (t.procs .second).pc.raised? = some .bookingInProgressError)
    (by decide : (exec Bookings.step s run).any _ = true)
  exact ⟨t, ht, hraised, ordersCreated_le_one Sample.key (Trace.of_exec ht)
    (Sample.initial_bookings _) (by decide) (by decide)⟩

end Bookings

end FlyDesk
