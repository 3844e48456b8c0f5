/-
FlyDesk/Bookings/Lease.lean

The reservation as a lease.  `_reserve` lets a call through when it sets the key,
and when Redis fails; the reservation runs out after `reservationTtl` seconds, no
call gives it back, and none looks at it again before it goes to the provider.  So
without the assumptions of `createOrder_atMostOnce` a key can be booked twice.

`createOrder_rate` says how often: over any stretch of any run.  `refused_iff` is the
other side, what the clients see: a call is sent away exactly where the reservation
was set in the last `reservationTtl` seconds, so a key whose call was lost is free
again after that, and never before.
-/
import FlyDesk.Lib.Lease
import FlyDesk.Bookings.Reservation

namespace FlyDesk

open Lib

/-! ### The clock of a reservation -/

/-- When the reservation ends; 0 if it was never set. -/
def Redis.ends (r : Redis) (key : String) : ℕ := (r.expiry key).getD 0

theorem Redis.held_iff {r : Redis} {key : String} : r.Held key ↔ r.now < r.ends key := by
  rw [Redis.Held, Redis.ends]
  cases r.expiry key with
  | none => simp
  | some e => simp

theorem Redis.ends_write {r : Redis} {key key' : String} {ttl : ℕ} :
    (r.write key ttl).ends key' = if key' = key then r.now + ttl else r.ends key' := by
  by_cases h : key' = key
  · subst h
    simp [Redis.ends, Redis.write]
  · simp [Redis.ends, Redis.write, h]

variable {w w' : World} {f f' : BookingFrame} {choice : BookingChoice} {k : IdempotencyKey}

/-- The step sets the reservation of `k`: its command is executed, whether or not its
reply arrives, and the key is free. -/
def BookingFrame.Sets (k : IdempotencyKey) (w : World) (f : BookingFrame) :
    BookingChoice → Prop
  | .go | .redisError true =>
    f.pc = .reserve ∧ f.call.key = some k ∧ ¬ w.redis.Held k.redisKey
  | _ => False

theorem BookingFrame.Sets.ready (h : f.Sets k w choice) :
    f.pc = .reserve ∧ f.call.key = some k ∧ ¬ w.redis.Held k.redisKey := by
  cases choice with
  | go => exact h
  | redisError executed =>
      cases executed with
      | true => exact h
      | false => exact h.elim
  | _ => exact h.elim

/-- A command that is executed sets the reservation of its own key and of no other. -/
theorem BookingFrame.Sets.ends_write {key : IdempotencyKey} (h : f.Sets key w choice) :
    f.Sets k w choice ∧ (w.redis.write key.redisKey reservationTtl).ends k.redisKey =
        w.redis.now + reservationTtl ∨
      ¬ f.Sets k w choice ∧ (w.redis.write key.redisKey reservationTtl).ends k.redisKey =
        w.redis.ends k.redisKey := by
  by_cases hk : k = key
  · subst hk
    exact Or.inl ⟨h, by simp [Redis.ends_write]⟩
  · have hredis : k.redisKey ≠ key.redisKey := fun he => hk (IdempotencyKey.redisKey_inj.mp he)
    refine Or.inr ⟨fun hsets => ?_, by simp [Redis.ends_write, hredis]⟩
    exact hk (Option.some.inj (hsets.ready.2.1.symm.trans h.ready.2.1))

/-- What a step of a call does to the reservation of a key. -/
theorem BookingFrame.ends_of_step (h : f.step w choice = some (w', f')) (k : IdempotencyKey) :
    w'.redis.now = w.redis.now ∧
      (f.Sets k w choice ∧ w'.redis.ends k.redisKey = w.redis.now + reservationTtl ∨
        ¬ f.Sets k w choice ∧ w'.redis.ends k.redisKey = w.redis.ends k.redisKey) := by
  cases BookingFrame.steps_of_step h with
  | reserved hpc hkey hfree =>
      exact ⟨rfl, BookingFrame.Sets.ends_write ⟨hpc, hkey, hfree⟩⟩
  | @refused key hpc hkey hheld =>
      refine ⟨rfl, Or.inr ⟨fun hsets => ?_, rfl⟩⟩
      obtain rfl := Option.some.inj (hsets.2.1.symm.trans hkey)
      exact hsets.2.2 hheld
  | @redisDown key redis executed hpc hkey _ =>
      have hstep : f.step w (.redisError executed) = some
          ({ w with redis := if executed ∧ ¬ w.redis.Held key.redisKey
            then w.redis.write key.redisKey reservationTtl else w.redis },
            f.goto .prepare) := by
        unfold BookingFrame.step
        rw [hpc, hkey]
      obtain ⟨hw, -⟩ := Prod.mk.inj (Option.some.inj (h.symm.trans hstep))
      rw [hw]
      by_cases hset : executed ∧ ¬ w.redis.Held key.redisKey
      · obtain ⟨rfl, hfree⟩ := hset
        rw [if_pos ⟨rfl, hfree⟩]
        exact ⟨rfl, BookingFrame.Sets.ends_write ⟨hpc, hkey, hfree⟩⟩
      · rw [if_neg hset]
        refine ⟨rfl, Or.inr ⟨fun hsets => ?_, rfl⟩⟩
        cases executed with
        | false => exact hsets
        | true =>
            obtain rfl := Option.some.inj (hsets.2.1.symm.trans hkey)
            exact hset ⟨rfl, hsets.2.2⟩
  | startUnkeyed hpc | find hpc | findReserved hpc | prepared hpc | unprepared hpc
  | offered hpc | unoffered hpc | booked hpc | unbooked hpc | stored hpc | lost hpc
  | orphaned hpc | findWinner hpc | finished hpc =>
      refine ⟨rfl, Or.inr ⟨fun hsets => ?_, rfl⟩⟩
      cases hpc.symm.trans hsets.ready.1
  | stopped => exact ⟨rfl, Or.inr ⟨fun hsets => hsets, rfl⟩⟩

variable {ι : Type*} [DecidableEq ι]

namespace Bookings

variable {s t u : Bookings ι} {steps : List (Bookings ι × BookingMove ι)}

/-! ### The rate -/

/-- The reservation of a key as a lease of the provider. -/
def lease (k : IdempotencyKey) : Lease World BookingFrame where
  now w := w.redis.now
  ends w := w.redis.ends k.redisKey
  used := (reservation k).used
  holding := (reservation k).holding

/-- Redis fails while a call reserves `k`. -/
def bypasses (k : IdempotencyKey) : Bookings ι × BookingMove ι → Bool
  | (s, .proc i (.redisError _)) => (s.procs i).call.key = some k
  | _ => false

omit [DecidableEq ι] in
/-- A step of a call keeps to the lease. -/
theorem lease_moves {i : ι} (h : (s.procs i).step s.shared choice = some (w', f')) :
    (lease k).Moves reservationTtl (bypasses k (s, .proc i choice) = true) s.shared (s.procs i)
      w' f' := by
  obtain ⟨hnow, hends⟩ := BookingFrame.ends_of_step h k
  have hle : s.shared.redis.ends k.redisKey ≤ w'.redis.ends k.redisKey := by
    rcases hends with ⟨hsets, he⟩ | ⟨-, he⟩
    · have hfree := hsets.ready.2.2
      rw [Redis.held_iff] at hfree
      omega
    · exact he.ge
  by_cases hby : ∃ executed, choice = .redisError executed ∧ (s.procs i).call.key = some k
  · obtain ⟨executed, rfl, hk⟩ := hby
    have hused : w'.createOrderCalls = s.shared.createOrderCalls := by
      cases BookingFrame.steps_of_step h
      rfl
    exact .bypass (decide_eq_true hk) hle hnow (congrArg (List.count (some k)) hused)
  · have hmoves := reservation_moves (k := k) (BookingFrame.steps_of_step h)
      fun executed he hk => hby ⟨executed, he, hk⟩
    cases hmoves with
    | use hheld hfree _ hused => exact .use hheld hfree hle hnow hused
    | quiet _ hused hheld => exact .quiet hheld hle hnow hused
    | claim hfree hheld hused =>
        -- the key was free and is held: the step has set it
        rcases hends with ⟨-, he⟩ | ⟨-, he⟩
        · exact .take (Nat.le_of_not_lt fun hlt => hfree (Redis.held_iff.mpr hlt)) he hnow hused
        · refine absurd (Redis.held_iff.mpr ?_) hfree
          have hlt := Redis.held_iff.mp hheld
          omega

/-- **The rate at which a key goes to the provider.**  Over any stretch of any run,
`create_order` is invoked for `k` at most once for every call that was past its
reservation before, once for every failure of Redis while a call reserves `k`, once,
and once more for every `reservationTtl` seconds. -/
theorem createOrder_rate (k : IdempotencyKey) (h : Trace Bookings.step s steps t)
    (H : Finset ι) (hH : ∀ i, (reservation k).holding (s.procs i) → i ∈ H) :
    t.shared.createOrderCalls.count (some k) ≤
      s.shared.createOrderCalls.count (some k) + H.card + steps.countP (bypasses k) + 1 +
        (t.shared.redis.now - s.shared.redis.now) / reservationTtl := by
  refine Lease.rate (lease k) (by decide) (bypasses k) lease_moves ?_ h H hH
  intro w seconds w' hg
  obtain rfl := Option.some.inj hg
  exact ⟨Nat.le_add_right _ _, le_rfl, rfl⟩

/-! ### Refusals -/

/-- A step of the bookings that sets the reservation of `k`. -/
def Sets (k : IdempotencyKey) (s : Bookings ι) : BookingMove ι → Prop
  | .proc i choice => (s.procs i).Sets k s.shared choice
  | .env _ => False

/-- The reservation ends `reservationTtl` seconds after it was last set. -/
structure Lasting (k : IdempotencyKey) (steps : List (Bookings ι × BookingMove ι))
    (t : Bookings ι) : Prop where
  set : ∀ p ∈ steps, Sets k p.1 p.2 →
    p.1.shared.redis.now + reservationTtl ≤ t.shared.redis.ends k.redisKey
  held : t.shared.redis.Held k.redisKey → ∃ p ∈ steps, Sets k p.1 p.2 ∧
    t.shared.redis.ends k.redisKey = p.1.shared.redis.now + reservationTtl

theorem lasting_run (h : Trace Bookings.step s steps t)
    (hfree : ¬ s.shared.redis.Held k.redisKey) : Lasting k steps t := by
  refine h.history (I := Lasting k) (A := fun _ _ => True) (fun _ _ => trivial)
    ⟨by simp, fun hheld => absurd hheld hfree⟩ ?_
  intro l u m v hl _ hstep
  -- a step that does not set the reservation
  have hsame : ¬ Sets k u m → u.shared.redis.now ≤ v.shared.redis.now →
      v.shared.redis.ends k.redisKey = u.shared.redis.ends k.redisKey →
      Lasting k (l ++ [(u, m)]) v := by
    intro hno hnow hends
    constructor
    · intro p hp hsets
      rcases List.mem_append.mp hp with hp | hp
      · exact hends ▸ hl.set p hp hsets
      · obtain rfl := List.mem_singleton.mp hp
        exact absurd hsets hno
    · intro hheld
      rw [Redis.held_iff, hends] at hheld
      obtain ⟨p, hp, hsets, he⟩ := hl.held (Redis.held_iff.mpr (by omega))
      exact ⟨p, List.mem_append_left _ hp, hsets, hends.trans he⟩
  cases m with
  | env seconds =>
      obtain ⟨w, hg, rfl⟩ := System.step_env hstep
      obtain rfl := Option.some.inj hg
      exact hsame id (Nat.le_add_right _ _) rfl
  | proc i choice =>
      obtain ⟨w, f, hf, rfl⟩ := System.step_proc hstep
      obtain ⟨hnow, ⟨hsets, hends⟩ | ⟨hno, hends⟩⟩ := BookingFrame.ends_of_step hf k
      · constructor
        · intro p hp hset
          show _ ≤ w.redis.ends k.redisKey
          rcases List.mem_append.mp hp with hp | hp
          · have hle := hl.set p hp hset
            have hover := hsets.ready.2.2
            rw [Redis.held_iff] at hover
            omega
          · obtain rfl := List.mem_singleton.mp hp
            exact hends.ge
        · intro _
          exact ⟨(u, .proc i choice), by simp, hsets, hends⟩
      · exact hsame hno hnow.ge hends

/-- **When a call is refused.**  In every run that begins with the key free: two
settings of its reservation are at least `reservationTtl` seconds apart; and a call
that reserves is sent away exactly where it was set in the last `reservationTtl`
seconds, and goes on otherwise. -/
theorem refused_iff (k : IdempotencyKey) (h : Trace Bookings.step s steps t)
    (hfree : ¬ s.shared.redis.Held k.redisKey) :
    (∀ before p, before ++ [p] <+: steps → Sets k p.1 p.2 → ∀ q ∈ before, Sets k q.1 q.2 →
      q.1.shared.redis.now + reservationTtl ≤ p.1.shared.redis.now) ∧
    ∀ i u, (t.procs i).pc = .reserve → (t.procs i).call.key = some k →
      Bookings.step t (.proc i .go) = some u →
      ((u.procs i).pc = .findReserved ↔ ∃ p ∈ steps, Sets k p.1 p.2 ∧
        t.shared.redis.now < p.1.shared.redis.now + reservationTtl) ∧
      ((u.procs i).pc = .findReserved ∨ (u.procs i).pc = .prepare) := by
  constructor
  · intro before p hpre hsets q hq hset
    have hle := (lasting_run (h.upTo hpre) hfree).set q hq hset
    have hover : ¬ p.1.shared.redis.Held k.redisKey := by
      obtain ⟨u, m⟩ := p
      cases m with
      | env => exact hsets.elim
      | proc i choice => exact (BookingFrame.Sets.ready hsets).2.2
    rw [Redis.held_iff] at hover
    omega
  · intro i u hpc hk hu
    have hl := lasting_run h hfree
    have hheld : t.shared.redis.Held k.redisKey ↔ ∃ p ∈ steps, Sets k p.1 p.2 ∧
        t.shared.redis.now < p.1.shared.redis.now + reservationTtl := by
      constructor
      · intro hheld
        obtain ⟨p, hp, hsets, he⟩ := hl.held hheld
        exact ⟨p, hp, hsets, he ▸ Redis.held_iff.mp hheld⟩
      · rintro ⟨p, hp, hsets, hlt⟩
        exact Redis.held_iff.mpr (hlt.trans_le (hl.set p hp hsets))
    rw [← hheld]
    obtain ⟨w, f, hf, rfl⟩ := System.step_proc hu
    simp only [Function.update_self]
    cases BookingFrame.steps_of_step hf with
    | @reserved key _ hkey hno =>
        obtain rfl := Option.some.inj (hkey.symm.trans hk)
        exact ⟨by simp [BookingFrame.goto, hno], Or.inr rfl⟩
    | @refused key _ hkey hyes =>
        obtain rfl := Option.some.inj (hkey.symm.trans hk)
        exact ⟨by simp [BookingFrame.goto, hyes], Or.inl rfl⟩
    | startUnkeyed hpc' | find hpc' | findReserved hpc' | prepared hpc' | unprepared hpc'
    | stored hpc' | lost hpc' | orphaned hpc' | findWinner hpc' | finished hpc' =>
        cases hpc'.symm.trans hpc

/-! ### Small runs -/

/-- Redis fails for the second call, and the key goes to the provider twice. -/
theorem createOrder_rate_redisError :
    let s := Sample.bookings fun _ : Sample.Caller => Sample.call (some "k1")
    let run : List (BookingMove Sample.Caller) :=
      [.proc .first .go, .proc .second .go, .proc .first .go,
        .proc .second (.redisError false), .proc .first .go, .proc .second .go,
        .proc .first Sample.offer, .proc .second Sample.offer]
    ∃ t, exec Bookings.step s run = some t ∧
      1 < t.shared.createOrderCalls.count (some Sample.key) ∧
      t.shared.createOrderCalls.count (some Sample.key) ≤ 2 := by
  intro s run
  obtain ⟨t, ht, hcount, hnow⟩ := exec_any (P := fun t : Bookings Sample.Caller =>
    1 < t.shared.createOrderCalls.count (some Sample.key) ∧ t.shared.redis.now = 0)
    (by decide : (exec Bookings.step s run).any _ = true)
  refine ⟨t, ht, hcount, ?_⟩
  have hrate := createOrder_rate Sample.key (Trace.of_exec ht) ∅ (by
    rintro i ⟨-, hpc | ⟨p, ps, hpc⟩⟩ <;> cases hpc)
  have hbypass : (execSteps Bookings.step s run).countP (bypasses Sample.key) = 1 := by decide
  rw [hbypass, hnow] at hrate
  exact hrate.trans (by decide)

instance (k : IdempotencyKey) (w : World) (f : BookingFrame) :
    DecidablePred (f.Sets k w)
  | .go | .redisError true => match hpc : f.pc with
    | .reserve => decidable_of_iff (f.call.key = some k ∧ ¬ w.redis.Held k.redisKey)
        (by simp [BookingFrame.Sets, hpc])
    | .start | .findReserved | .prepare | .createOrder .. | .postOrder _ | .save _
    | .findWinner | .saved _ | .returned _ | .raised _ | .died =>
      .isFalse (by simp [BookingFrame.Sets, hpc])
  | .redisError false | .offerReply _ | .orderReply .. | .stop _ => .isFalse id

instance (k : IdempotencyKey) (s : Bookings ι) : DecidablePred (Sets k s)
  | .proc i choice => inferInstanceAs (Decidable ((s.procs i).Sets k s.shared choice))
  | .env _ => .isFalse id

/-- The first call reserves and dies; the second one, 119 seconds later, is refused. -/
theorem refused_iff_dead :
    let s := Sample.bookings fun _ : Sample.Caller => Sample.call (some "k1")
    let run : List (BookingMove Sample.Caller) :=
      [.proc .first .go, .proc .second .go, .proc .first .go, .proc .first (.stop .die), .env 119]
    ∃ t u, exec Bookings.step s run = some t ∧
      Bookings.step t (.proc .second .go) = some u ∧ (u.procs .second).pc = .findReserved := by
  intro s run
  obtain ⟨t, ht⟩ : ∃ t, exec Bookings.step s run = some t := ⟨_, rfl⟩
  have hrefused := (refused_iff Sample.key (Trace.of_exec ht) (by decide)).2 .second
  obtain rfl := Option.some.inj ht
  exact ⟨_, _, rfl, rfl, (hrefused _ rfl rfl rfl).1.mpr (by decide)⟩

end Bookings

end FlyDesk
