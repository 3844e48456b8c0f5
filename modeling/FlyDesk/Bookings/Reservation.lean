/-
FlyDesk/Bookings/Reservation.lean

The Redis reservation as a guard.  While Redis answers and the reservation of
a key does not run out, the reservation is a one-shot record: only the call
that set it goes on to the provider.  `reservation k` is the guard of a key
and `reservation_moves` its discipline, one case for each thing a step of a
call can do; the counting is done by `Lib.Guard`.

A call that never reaches the provider ends in one of the ways listed by
`Rejected`: with the order stored under its key, or with an exception that
says why.
-/
import FlyDesk.Lib.Guard
import FlyDesk.Bookings.Services

namespace FlyDesk

open Lib

/-- Any number of calls of `create_booking` over one world. -/
abbrev Bookings (ι : Type*) := System ι World BookingFrame

/-- A step of a call, or some seconds pass. -/
abbrev BookingMove (ι : Type*) := Move ι BookingChoice ℕ

variable {ι : Type*} [DecidableEq ι]

/-- One step of the bookings. -/
def Bookings.step (s : Bookings ι) (m : BookingMove ι) : Option (Bookings ι) :=
  System.step BookingFrame.step World.tick s m

omit [DecidableEq ι] in
/-- No call has started, and nothing has been asked of the provider. -/
structure Bookings.Initial (s : Bookings ι) : Prop where
  init : ∀ i, ∃ call, s.procs i = BookingFrame.init call
  createOrderCalls : s.shared.createOrderCalls = []
  ordersCreated : s.shared.ordersCreated = []

namespace Bookings

/-! ### The guard -/

/-- The guard of a key: the reservation, the invocations of `create_order`
for the key, and the calls between reserving and that invocation. -/
def reservation (k : IdempotencyKey) : Guard World BookingFrame where
  claimed w := w.redis.Held k.redisKey
  used w := w.createOrderCalls.count (some k)
  holding f := f.call.key = some k ∧
    (f.pc = .prepare ∨ ∃ provider passengers, f.pc = .createOrder provider passengers)

/-- Redis answers the calls for `k`, and the reservation of `k` does not run
out at this step. -/
def RedisReachable (k : IdempotencyKey) (s : Bookings ι) : BookingMove ι → Prop
  | .proc i (.redisError _) => (s.procs i).call.key ≠ some k
  | .proc _ _ => True
  | .env seconds =>
    s.shared.redis.Held k.redisKey → (s.shared.redis.wait seconds).Held k.redisKey

/-- A step that leaves Redis and the invocations alone, and does not make the
call a holder. -/
theorem quiet_of {k : IdempotencyKey} {w w' : World} {f f' : BookingFrame}
    (hredis : w'.redis = w.redis) (hcalls : w'.createOrderCalls = w.createOrderCalls)
    (hheld : (reservation k).holding f' → (reservation k).holding f) :
    (reservation k).Moves w f w' f' := by
  refine .quiet ?_ ?_ hheld
  · intro h
    show w'.redis.Held k.redisKey
    rw [hredis]
    exact h
  · show w'.createOrderCalls.count (some k) = _
    rw [hcalls]
    rfl

/-- A step to a point where nothing is held. -/
theorem quiet_of_pc {k : IdempotencyKey} {w w' : World} {f f' : BookingFrame}
    (hredis : w'.redis = w.redis) (hcalls : w'.createOrderCalls = w.createOrderCalls)
    (hprepare : f'.pc ≠ .prepare) (hcreate : ∀ p ps, f'.pc ≠ .createOrder p ps) :
    (reservation k).Moves w f w' f' := by
  refine quiet_of hredis hcalls ?_
  rintro ⟨_, hp | ⟨p, ps, hp⟩⟩
  · exact absurd hp hprepare
  · exact absurd hp (hcreate p ps)

/-- A call of `create_order` uses the reservation of its key. -/
theorem use_of {k : IdempotencyKey} {w : World} {f f' : BookingFrame}
    {provider : Provider} {passengers : List BookingPassenger}
    (hpc : f.pc = .createOrder provider passengers) (hprepare : f'.pc ≠ .prepare)
    (hcreate : ∀ p ps, f'.pc ≠ .createOrder p ps) :
    (reservation k).Moves w f
      { w with createOrderCalls := w.createOrderCalls ++ [f.call.key] } f' := by
  have hfree : ¬ (reservation k).holding f' := by
    rintro ⟨_, hp | ⟨p, ps, hp⟩⟩
    · exact hprepare hp
    · exact hcreate p ps hp
  by_cases hk : f.call.key = some k
  · refine .use ⟨hk, Or.inr ⟨provider, passengers, hpc⟩⟩ hfree id ?_
    show (w.createOrderCalls ++ [f.call.key]).count (some k) = _
    rw [hk, List.count_append]
    simp [reservation]
  · refine .quiet id ?_ fun hh => absurd hh hfree
    show (w.createOrderCalls ++ [f.call.key]).count (some k) = _
    rw [List.count_append, List.count_singleton, if_neg (by simpa using hk)]
    rfl

theorem findsTo_pc_ne {w : World} {key : IdempotencyKey} {otherwise pc : BookingPc}
    (h : FindsTo w key otherwise pc) (hprepare : otherwise ≠ .prepare)
    (hcreate : ∀ p ps, otherwise ≠ .createOrder p ps) :
    pc ≠ .prepare ∧ ∀ p ps, pc ≠ .createOrder p ps := by
  cases h with
  | found => exact ⟨by simp, by simp⟩
  | absent => exact ⟨hprepare, hcreate⟩
  | unreadable => exact ⟨by simp, by simp⟩

/-- **Every step of a call keeps to the reservation**: one case for each
thing a step can do. -/
theorem reservation_moves {k : IdempotencyKey} {w w' : World} {f f' : BookingFrame}
    {choice : BookingChoice} (h : f.Steps w choice w' f')
    (hup : ∀ executed, choice = .redisError executed → f.call.key ≠ some k) :
    (reservation k).Moves w f w' f' := by
  cases h with
  | startUnkeyed hpc hkey =>
      refine quiet_of rfl rfl ?_
      rintro ⟨hk, _⟩
      simp [hkey] at hk
  | find _ _ hf | findReserved _ _ hf | findWinner _ _ hf =>
      obtain ⟨h₁, h₂⟩ := findsTo_pc_ne hf (by simp) (by simp)
      exact quiet_of_pc rfl rfl h₁ h₂
  | @reserved key hpc hkey hfree =>
      by_cases hk : key = k
      · -- the call sets the reservation of `k`
        subst hk
        exact .claim hfree (Redis.held_write (by decide)) rfl
      · refine .quiet ?_ rfl ?_
        · intro hheld
          exact Redis.Held.write hheld fun he => hk (IdempotencyKey.redisKey_inj.mp he).symm
        · rintro ⟨hk', _⟩
          exact absurd (Option.some.inj (hkey.symm.trans hk')) hk
  | @redisDown key redis executed hpc hkey hredis =>
      -- some other key: the failing command writes that key at most
      have hne : key ≠ k := fun he => hup executed rfl (he ▸ hkey)
      refine .quiet ?_ rfl ?_
      · intro hheld
        rcases hredis with rfl | rfl
        · exact hheld
        · exact Redis.Held.write hheld fun he => hne (IdempotencyKey.redisKey_inj.mp he).symm
      · rintro ⟨hk, _⟩
        exact absurd (Option.some.inj (hkey.symm.trans hk)) hne
  | prepared hpc _ => exact quiet_of rfl rfl fun hh => ⟨hh.1, Or.inl hpc⟩
  | offered hpc _ | unoffered hpc _ => exact use_of hpc (by simp) (by simp)
  | refused | unprepared | booked | unbooked | stored | lost | orphaned | finished =>
      exact quiet_of_pc rfl rfl (by simp) (by simp)
  | @stopped how =>
      cases how <;> exact quiet_of_pc rfl rfl (by simp [Stop.pc]) (by simp [Stop.pc])

/-- The counting: at most one call reaches the provider. -/
theorem createOrderCalls_le_one {k : IdempotencyKey} {s t : Bookings ι}
    {steps : List (Bookings ι × BookingMove ι)} (h : Trace Bookings.step s steps t)
    (hs : s.Initial) (hup : ∀ p ∈ steps, RedisReachable k p.1 p.2) :
    t.shared.createOrderCalls.count (some k) ≤ 1 := by
  refine Guard.atMostOnce (reservation k) ?_ ?_ h hup ?_ ?_
  · -- a process step
    intro s i c w' f' hok hf
    refine reservation_moves (BookingFrame.steps_of_step hf) ?_
    rintro executed rfl
    exact hok
  · -- time passes
    intro s seconds w' hok hg
    obtain rfl := Option.some.inj hg
    exact ⟨hok, rfl⟩
  · show s.shared.createOrderCalls.count (some k) = 0
    rw [hs.createOrderCalls]
    rfl
  · intro i hi
    obtain ⟨call, hcall⟩ := hs.init i
    rw [hcall] at hi
    rcases hi.2 with hp | ⟨p, ps, hp⟩ <;> cases hp

/-! ### Calls that do not reach the provider -/

/-- How a call with key `k` ends without having invoked `create_order`, in
the world `w`: it replays the order stored under its key, finds the key
reserved, cannot prepare its arguments, finds a document it cannot read, or
is stopped. -/
inductive Rejected (k : IdempotencyKey) (call : BookingCall) (w : World) :
    BookingPc → Prop
  | replayed {d order} : d ∈ w.orders.docs → d.idempotencyKey = .val k.val →
      d.toOrder = .ok order → Rejected k call w (.returned order)
  | inProgress : Rejected k call w (.raised .bookingInProgressError)
  | unprepared {e} : preparePc call = .raised e → Rejected k call w (.raised e)
  | unreadable {d} : d ∈ w.orders.docs → d.toOrder = .error .validationError →
      Rejected k call w (.raised .validationError)
  | stopped (how : Stop) : Rejected k call w how.pc

/-- The points behind the invocation of `create_order`. -/
def Behind : BookingPc → Prop
  | .postOrder _ | .save _ | .findWinner | .saved _ => True
  | _ => False

/-- A call knows that it has invoked `create_order`. -/
def KnowsReached (f : BookingFrame) : Prop :=
  Behind f.pc → f.reachedProvider = true

theorem findsTo_rejected {k : IdempotencyKey} {call : BookingCall} {w : World}
    {otherwise pc : BookingPc} (h : FindsTo w k otherwise pc) (hend : pc.Ended)
    (hother : otherwise.Ended → Rejected k call w otherwise) : Rejected k call w pc := by
  cases h with
  | found hd hk ho => exact .replayed hd hk ho
  | absent => exact hother hend
  | unreadable hd he => exact .unreadable hd he

theorem knowsReached_step {w w' : World} {f f' : BookingFrame} {choice : BookingChoice}
    (h : f.Steps w choice w' f') (hf : KnowsReached f) : KnowsReached f' := by
  intro hb
  cases h with
  | find _ _ hfind | findReserved _ _ hfind | findWinner _ _ hfind => cases hfind <;> cases hb
  | offered | unoffered => rfl
  | booked hpc | stored hpc | lost hpc => exact hf (by simp [Behind, hpc])
  | @stopped how => cases how <;> cases hb
  | _ => cases hb

/-- A step that ends a call which has not invoked `create_order`. -/
theorem rejected_of_step {k : IdempotencyKey} {w w' : World} {f f' : BookingFrame}
    {choice : BookingChoice} (h : f.Steps w choice w' f') (hf : KnowsReached f)
    (hk : f.call.key = some k) (hend : f'.pc.Ended) (hno : f'.reachedProvider = false) :
    Rejected k f.call w f'.pc := by
  -- behind the invocation the call would know
  have hbehind : f'.reachedProvider = f.reachedProvider → ¬ Behind f.pc := by
    intro he hb
    rw [hno, hf hb] at he
    cases he
  cases h with
  | @find key _ _ hkey hfind =>
      obtain rfl := Option.some.inj (hkey.symm.trans hk)
      exact findsTo_rejected hfind hend False.elim
  | @findReserved key _ _ hkey hfind =>
      obtain rfl := Option.some.inj (hkey.symm.trans hk)
      exact findsTo_rejected hfind hend fun _ => .inProgress
  | unprepared _ he => exact .unprepared he
  | stopped => exact .stopped _
  | unoffered => cases hno
  | unbooked hpc | orphaned hpc | findWinner hpc | finished hpc =>
      exact absurd (by simp [Behind, hpc]) (hbehind rfl)
  | _ => cases hend

theorem knowsReached_run {s t : Bookings ι} {steps : List (Bookings ι × BookingMove ι)}
    (h : Trace Bookings.step s steps t) (hs : s.Initial) :
    ∀ i, KnowsReached (t.procs i) := by
  refine System.each_of_run h ?_ fun hf => knowsReached_step (BookingFrame.steps_of_step hf)
  intro i hb
  obtain ⟨call, hcall⟩ := hs.init i
  rw [hcall] at hb
  cases hb

/-- A call with key `k` that has ended without invoking `create_order` was
rejected in some world of the run. -/
theorem seen_rejected {k : IdempotencyKey} {s t : Bookings ι}
    {steps : List (Bookings ι × BookingMove ι)} (h : Trace Bookings.step s steps t)
    (hs : s.Initial) {i : ι} (hk : (t.procs i).call.key = some k)
    (hend : (t.procs i).pc.Ended) (hno : (t.procs i).reachedProvider = false) :
    Seen steps t fun u => Rejected k (t.procs i).call u.shared (t.procs i).pc := by
  set f := t.procs i with hf
  have hknows : ∀ p ∈ steps, ∀ j, KnowsReached (p.1.procs j) := by
    intro p hp
    obtain ⟨before, _, hbefore⟩ := h.prefix_of_mem hp
    exact knowsReached_run hbefore hs
  refine h.seen (P := fun u => u.procs i = f)
    (A := fun u _ => ∀ j, KnowsReached (u.procs j)) hknows ?_ ?_ hf.symm
  · -- no call has ended at the start
    intro h₀
    obtain ⟨call, hcall⟩ := hs.init i
    rw [h₀] at hcall
    rw [hcall] at hend
    cases hend
  · intro u m v hok hstep hv
    rcases System.procs_of_step hstep i with he | ⟨c, rfl, hc⟩
    · exact Or.inl (he.symm.trans hv)
    · rw [hv] at hc
      have hsteps := BookingFrame.steps_of_step hc
      have hcall := hsteps.call_eq
      right; left
      rw [hcall]
      rw [hcall] at hk
      exact rejected_of_step hsteps (hok i) hk hend hno

/-- **One provider call per key.**  While Redis answers and the reservation
of `k` does not run out, `create_order` is invoked at most once for `k`,
however many calls are made with it and wherever they stop; and a call with
key `k` that ends without having invoked it was rejected. -/
theorem createOrder_atMostOnce (k : IdempotencyKey) {s t : Bookings ι}
    {steps : List (Bookings ι × BookingMove ι)} (h : Trace Bookings.step s steps t)
    (hs : s.Initial) (hup : ∀ p ∈ steps, RedisReachable k p.1 p.2) :
    t.shared.createOrderCalls.count (some k) ≤ 1 ∧
      ∀ i, (t.procs i).call.key = some k → (t.procs i).pc.Ended →
        (t.procs i).reachedProvider = false →
          Seen steps t fun u => Rejected k (t.procs i).call u.shared (t.procs i).pc :=
  ⟨createOrderCalls_le_one h hs hup, fun _ hk hend hno => seen_rejected h hs hk hend hno⟩

instance (k : IdempotencyKey) (s : Bookings ι) :
    DecidablePred (RedisReachable k s)
  | .proc i (.redisError _) => inferInstanceAs (Decidable ((s.procs i).call.key ≠ some k))
  | .proc _ .go | .proc _ (.offerReply _) | .proc _ (.orderReply ..) | .proc _ (.stop _) =>
    .isTrue trivial
  | .env seconds => inferInstanceAs (Decidable
      (s.shared.redis.Held k.redisKey → (s.shared.redis.wait seconds).Held k.redisKey))

end Bookings

/-! ### A small run -/

namespace Sample

def key : IdempotencyKey := ⟨"k1", by decide⟩

/-- A call with nobody on board, for the default provider. -/
def call (idempotencyKey : Option String) : BookingCall where
  offerId := "off_1"
  passengersData := []
  idempotencyKey := idempotencyKey
  providerName := none
  settingsProvider := "duffel"

/-- Two processes. -/
inductive Caller
  | first
  | second
deriving DecidableEq

def now : DateTime := { micros := 0, utcOffset := some 0 }

/-- The clock stands still. -/
def clock : DuffelProvider.OrderClock where
  occurredAt := now
  createdAt := now
  stagedAt := now

def orderData (id : String) : DuffelProvider.OrderData where
  id := id
  bookingReference := some "PNR1"
  total := { amount := { sign := false, coefficient := 1000, exponent := -1 }, currency := "EUR" }
  slices := []

/-- The provider has the offer. -/
def offer : BookingChoice := .offerReply (.response 200 (.ok ()))

/-- The provider creates an order and says so. -/
def created (id uuid : String) : BookingChoice :=
  .orderReply true (.response 200 (.ok (orderData id))) uuid clock

/-- The world is fresh, and every process is about to make one call. -/
def bookings {ι : Type*} (calls : ι → BookingCall) : Bookings ι where
  shared := World.fresh
  procs i := .init (calls i)

theorem initial_bookings {ι : Type*} (calls : ι → BookingCall) :
    (bookings calls).Initial where
  init i := ⟨calls i, rfl⟩
  createOrderCalls := rfl
  ordersCreated := rfl

/-- Two calls with one key: both miss, one reserves and books, the other is
told that the booking is in progress. -/
def race : List (BookingMove Caller) :=
  [.proc .first .go, .proc .second .go, .proc .first .go, .proc .second .go,
    .proc .second .go, .proc .first .go, .proc .first offer,
    .proc .first (created "ord_1" "e1"), .proc .first .go, .proc .first .go]

end Sample

namespace Bookings

theorem createOrder_atMostOnce_race :
    let s := Sample.bookings fun _ : Sample.Caller => Sample.call (some "k1")
    ∃ t, exec Bookings.step s Sample.race = some t ∧
      t.shared.createOrderCalls.count (some Sample.key) ≤ 1 := by
  intro s
  obtain ⟨t, ht, -⟩ := exec_any (P := fun t : Bookings Sample.Caller => (t.procs .first).pc.Ended)
    (by decide : (exec Bookings.step s Sample.race).any _ = true)
  refine ⟨t, ht, ?_⟩
  exact (createOrder_atMostOnce Sample.key (Trace.of_exec ht)
    (Sample.initial_bookings _) (by decide)).1

end Bookings

end FlyDesk
