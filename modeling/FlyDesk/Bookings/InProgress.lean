/-
FlyDesk/Bookings/InProgress.lean

What "in progress" says.  A call that finds its key reserved, and no order
under it, tells its client that a booking with this key is being processed.
Nothing ever takes a reservation back, though: the call that set it may have
raised in the meantime, and then the key stays reserved with nobody at work.

`Bookings.honest_of_goesOn` says that this is all that can go wrong.  In a run
in which no call raises between its reservation and its save, a refusal
always has a call at work behind it.  `Bookings.not_honest_unknownProvider` is
a run of two calls that fails the condition.
-/
import FlyDesk.Bookings.Orphans

namespace FlyDesk

open Lib

/-! ### The condition -/

/-- The arguments of a call can be prepared: its passengers have valid
details, and its provider is known. -/
def BookingCall.Bookable (c : BookingCall) : Prop :=
  (∀ p ∈ c.passengersData, ∃ passenger, p = .ok passenger) ∧
    ∃ provider, getProvider c.settingsProvider c.providerName = .ok provider

/-- What happens at a step does not make the call raise between its
reservation and its save: the arguments are good, the provider books live and
answers both requests, and no driver raises. -/
def BookingFrame.GoesOn (f : BookingFrame) : BookingChoice → Prop
  | .go => f.pc = .prepare → f.call.Bookable
  | .offerReply reply => (∀ passengers, f.pc ≠ .createOrder .amadeus passengers) ∧
    ∃ offer, DuffelProvider.request reply = .ok offer
  | .orderReply _ reply _ _ => ∃ data, DuffelProvider.request reply = .ok data
  | .stop (.raise _) => ¬ f.pc.Owning
  | .stop .die | .redisError _ => True

/-- The exceptions that come with the passengers' details and with a reply are
those of the libraries that read them, not the service's own. -/
def BookingFrame.Foreign (f : BookingFrame) : BookingChoice → Prop
  | .go => .error .bookingInProgressError ∉ f.call.passengersData
  | .offerReply reply => DuffelProvider.request reply ≠ .error .bookingInProgressError
  | .orderReply _ reply _ _ => DuffelProvider.request reply ≠ .error .bookingInProgressError
  | .redisError _ | .stop _ => True

/-- The call has returned or raised. -/
def BookingPc.Answered : BookingPc → Prop
  | .returned _ | .raised _ => True
  | _ => False

/-- The points before the reservation is decided. -/
def BookingPc.Unreserved : BookingPc → Prop
  | .start | .reserve | .findReserved => True
  | _ => False

/-- The points at which the provider has returned an order. -/
def BookingPc.Holding : BookingPc → Prop
  | .save _ | .saved _ | .findWinner => True
  | _ => False

/-- A document is stored under the key. -/
def StoredKey (k : IdempotencyKey) (w : World) : Prop :=
  ∃ d ∈ w.orders.docs, d.idempotencyKey = .val k.val

/-! ### One step of a call -/

variable {w w' : World} {f f' : BookingFrame} {choice : BookingChoice} {k : IdempotencyKey}

/-- An order saved under the key leaves one stored under it. -/
theorem BookingFrame.Steps.storedKey (h : f.Steps w choice w' f') (hform : f.Formed)
    (hk : f.call.key = some k) (hs : StoredKey k w) : StoredKey k w' := by
  obtain ⟨d, hd, hdk⟩ := hs
  rcases h.orders with ⟨heq, _⟩ | ⟨o, hpc, _, hsave, _⟩
  · exact ⟨d, heq ▸ hd, hdk⟩
  · refine ⟨o.modelDump, (Collection.mem_replaceOne hsave).mpr (Or.inl rfl), ?_⟩
    rw [(hform.saving o hpc).2, hk]
    rfl

/-- Where the save has been tried, an order is stored under the key: this one
or the one it clashed with. -/
theorem BookingFrame.Steps.storedKey_of_saved (h : f.Steps w choice w' f') (hform : f.Formed)
    (hk : f.call.key = some k)
    (hpc : (∃ o, f'.pc = .saved o) ∨ f'.pc = .findWinner) : StoredKey k w' := by
  cases h with
  | @stored o orders hsv hsave =>
      refine ⟨o.modelDump, (Collection.mem_replaceOne hsave).mpr (Or.inl rfl), ?_⟩
      rw [(hform.saving o hsv).2, hk]
      rfl
  | @lost o key hsv hsave _ =>
      obtain ⟨d, hd, _, _, hdk⟩ := OrderRepository.save_eq_none.mp hsave
      rw [(hform.saving o hsv).2, hk] at hdk
      exact ⟨d, hd, hdk⟩
  | find _ _ hf | findReserved _ _ hf | findWinner _ _ hf => cases hf <;> simp at hpc
  | @stopped how => cases how <;> simp [Stop.pc] at hpc
  | _ => simp at hpc

/-- A step of a call with the key leaves Redis alone, or sets the free
reservation of the key. -/
theorem BookingFrame.redis_of_step (h : f.step w choice = some (w', f'))
    (hk : f.call.key = some k) : w'.redis = w.redis ∨
      f.pc = .reserve ∧ f'.pc = .prepare ∧ ¬ w.redis.Held k.redisKey ∧
        w'.redis.Held k.redisKey := by
  cases BookingFrame.steps_of_step h with
  | @reserved key hpc hkey hfree =>
      obtain rfl := Option.some.inj (hkey.symm.trans hk)
      exact Or.inr ⟨hpc, rfl, hfree, Redis.held_write (by decide)⟩
  | @redisDown key redis executed hpc hkey hredis =>
      obtain rfl := Option.some.inj (hkey.symm.trans hk)
      have hstep : f.step w (.redisError executed) = some
          ({ w with redis := if executed ∧ ¬ w.redis.Held key.redisKey
            then w.redis.write key.redisKey reservationTtl else w.redis },
            f.goto .prepare) := by
        unfold BookingFrame.step
        rw [hpc, hk]
      obtain ⟨hw, -⟩ := Prod.mk.inj (Option.some.inj (h.symm.trans hstep))
      rw [hw]
      by_cases hset : executed ∧ ¬ w.redis.Held key.redisKey
      · right
        refine ⟨hpc, rfl, hset.2, ?_⟩
        rw [if_pos hset]
        exact Redis.held_write (by decide)
      · left
        rw [if_neg hset]
  | _ => exact Or.inl rfl

/-- A call is refused where the key is held. -/
theorem BookingFrame.Steps.to_findReserved (h : f.Steps w choice w' f')
    (hk : f.call.key = some k) (hpc : f'.pc = .findReserved) : w.redis.Held k.redisKey := by
  cases h with
  | @refused key _ hkey hheld =>
      obtain rfl := Option.some.inj (hkey.symm.trans hk)
      exact hheld
  | find _ _ hf | findReserved _ _ hf | findWinner _ _ hf => cases hf <;> cases hpc
  | @stopped how => cases how <;> cases hpc
  | _ => cases hpc

/-- A call does not come back to its reservation. -/
theorem BookingFrame.Steps.unreserved (h : f.Steps w choice w' f')
    (hpc : f'.pc.Unreserved) : f.pc.Unreserved := by
  cases h with
  | startUnkeyed hp | find hp | reserved hp | refused hp | redisDown hp | findReserved hp =>
      simp [BookingPc.Unreserved, hp]
  | findWinner _ _ hf => cases hf <;> cases hpc
  | @stopped how => cases how <;> cases hpc
  | _ => cases hpc

theorem mapM_id_eq_ok {α ε : Type*} : ∀ {xs : List (Except ε α)},
    (∀ x ∈ xs, ∃ y, x = .ok y) → ∃ ys, xs.mapM id = .ok ys
  | [], _ => ⟨[], rfl⟩
  | x :: xs, h => by
    obtain ⟨y, rfl⟩ := h x List.mem_cons_self
    obtain ⟨ys, hys⟩ := mapM_id_eq_ok fun z hz => h z (List.mem_cons_of_mem _ hz)
    refine ⟨y :: ys, ?_⟩
    rw [List.mapM_cons, hys]
    rfl

theorem BookingCall.Bookable.preparePc {c : BookingCall} (h : c.Bookable) :
    ∃ provider passengers, preparePc c = .createOrder provider passengers := by
  obtain ⟨hpass, provider, hprov⟩ := h
  obtain ⟨passengers, hps⟩ := mapM_id_eq_ok hpass
  refine ⟨provider, passengers, ?_⟩
  unfold FlyDesk.preparePc
  rw [hps, hprov]

/-- A call that is past its reservation and goes on answers only once it has
tried to save. -/
theorem BookingFrame.Steps.answered (h : f.Steps w choice w' f') (hk : f.call.key = some k)
    (hpast : ¬ f.pc.Unreserved) (hgo : f.GoesOn choice)
    (hend : f'.pc.Answered) : (∃ o, f.pc = .saved o) ∨ f.pc = .findWinner := by
  cases h with
  | startUnkeyed hp | find hp | reserved hp | refused hp | redisDown hp | findReserved hp =>
      simp [BookingPc.Unreserved, hp] at hpast
  | unprepared hp he =>
      obtain ⟨provider, passengers, hok⟩ := (hgo hp).preparePc
      simp [hok] at he
  | @unoffered provider passengers reply e hp he =>
      obtain ⟨hprov, offer, hreply⟩ := hgo
      cases provider with
      | amadeus => exact absurd hp (hprov passengers)
      | duffel => simp [offerPc, hreply] at he
  | unbooked hp he =>
      obtain ⟨data, hdata⟩ := hgo
      simp [hdata] at he
  | orphaned _ _ hkey => simp [hkey] at hk
  | findWinner hp => exact Or.inr hp
  | finished hp => exact Or.inl ⟨_, hp⟩
  | @stopped how hrun =>
      cases how with
      | die => cases hend
      | raise name =>
          cases hp : f.pc with
          | saved o => exact Or.inl ⟨o, rfl⟩
          | findWinner => exact Or.inr rfl
          | start | reserve | findReserved => simp [BookingPc.Unreserved, hp] at hpast
          | returned | raised | died => simp [BookingPc.Ended, hp] at hrun
          | prepare | createOrder | postOrder | save =>
              exact absurd (by simp [BookingPc.Owning, hp]) hgo
  | prepared | offered | booked | stored | lost => cases hend

/-- A call comes to hold an order when the provider creates one. -/
theorem BookingFrame.Steps.to_holding (h : f.Steps w choice w' f') (hpc : f'.pc.Holding) :
    f.pc.Holding ∨ w'.ordersCreated ≠ w.ordersCreated := by
  cases h with
  | booked => exact Or.inr (by simp)
  | stored hp | lost hp => exact Or.inl (by simp [BookingPc.Holding, hp])
  | find _ _ hf | findReserved _ _ hf | findWinner _ _ hf => cases hf <;> cases hpc
  | @stopped how => cases how <;> cases hpc
  | _ => cases hpc

/-- What a comprehension over the passengers raises, one of them raises. -/
theorem mem_of_mapM_id_eq_error {α ε : Type*} {e : ε} : ∀ {xs : List (Except ε α)},
    xs.mapM id = .error e → .error e ∈ xs
  | [], h => by cases h
  | x :: xs, h => by
    rw [List.mapM_cons] at h
    rcases x with e' | y
    · obtain rfl := Except.error.inj h
      exact List.mem_cons_self
    · rcases hxs : xs.mapM id with e' | ys
      · rw [hxs] at h
        obtain rfl := Except.error.inj h
        exact List.mem_cons_of_mem _ (mem_of_mapM_id_eq_error hxs)
      · rw [hxs] at h
        cases h

theorem preparePc_ne_inProgress {c : BookingCall}
    (hvalid : .error .bookingInProgressError ∉ c.passengersData) :
    preparePc c ≠ .raised .bookingInProgressError := by
  intro h
  unfold preparePc at h
  split at h
  · rename_i e he
    obtain rfl := BookingPc.raised.inj h
    exact hvalid (mem_of_mapM_id_eq_error he)
  · unfold getProvider at h
    dsimp only at h
    split_ifs at h
    cases h

/-- Where the exception comes from. -/
theorem BookingFrame.Steps.to_inProgress (h : f.Steps w choice w' f')
    (hk : f.call.key = some k) (hforeign : f.Foreign choice)
    (hpc : f'.pc = .raised .bookingInProgressError) :
    f.pc = .findReserved ∧ ¬ StoredKey k w := by
  cases h with
  | @findReserved key pc hp hkey hfind =>
      obtain rfl := Option.some.inj (hkey.symm.trans hk)
      cases hfind with
      | absent hno => exact ⟨hp, fun ⟨d, hd, hdk⟩ => hno d hd hdk⟩
      | found => cases hpc
      | unreadable => cases hpc
  | unprepared _ he =>
      obtain rfl := BookingPc.raised.inj hpc
      exact absurd he (preparePc_ne_inProgress hforeign)
  | @unoffered provider passengers reply e _ he =>
      obtain rfl := BookingPc.raised.inj hpc
      unfold offerPc at he
      split at he
      · cases he
      · split at he
        · obtain rfl := BookingPc.raised.inj he
          exact absurd ‹_› hforeign
        · cases he
  | unbooked _ he =>
      obtain rfl := BookingPc.raised.inj hpc
      exact absurd he hforeign
  | find _ _ hf | findWinner _ _ hf => cases hf <;> cases hpc
  | @stopped how => cases how <;> cases hpc
  | _ => cases hpc

/-! ### Runs -/

namespace Bookings

variable {ι : Type*} [DecidableEq ι]

/-- Call `i` sets the reservation of the key at this step. -/
def Reserves (k : IdempotencyKey) (i : ι) (q : Bookings ι × BookingMove ι) : Prop :=
  (∃ choice, q.2 = .proc i choice) ∧ ¬ q.1.shared.redis.Held k.redisKey ∧
    ∃ u, q.1.step q.2 = some u ∧ u.shared.redis.Held k.redisKey

/-- An order is created upstream for call `i` at this step. -/
def Creates (i : ι) (q : Bookings ι × BookingMove ι) : Prop :=
  (∃ choice, q.2 = .proc i choice) ∧
    ∃ u, q.1.step q.2 = some u ∧ u.shared.ordersCreated ≠ q.1.shared.ordersCreated

/-- The step leaves Redis and the stored orders as they are. -/
def Untouched (q : Bookings ι × BookingMove ι) : Prop :=
  ∀ u, q.1.step q.2 = some u →
    u.shared.redis = q.1.shared.redis ∧ u.shared.orders = q.1.shared.orders

/-- "In progress" is only said when it is true: behind every such answer is
another call that has set the reservation and neither returned nor raised.
And a call that raises before an order was created for it upstream has changed
nothing. -/
structure Honest (k : IdempotencyKey) (steps : List (Bookings ι × BookingMove ι)) : Prop where
  inProgress : ∀ before p, before ++ [p] <+: steps → ∀ i choice u, p.2 = .proc i choice →
    p.1.step p.2 = some u → (u.procs i).pc = .raised .bookingInProgressError →
    ∃ j, j ≠ i ∧ (∃ q ∈ before, Reserves k j q) ∧ ¬ (p.1.procs j).pc.Answered
  untouched : ∀ before p, before ++ [p] <+: steps → ∀ i choice u e, p.2 = .proc i choice →
    p.1.step p.2 = some u → (u.procs i).pc = .raised e →
    (∀ q ∈ before ++ [p], ¬ Creates i q) →
    ∀ q ∈ before ++ [p], (∃ choice, q.2 = .proc i choice) → Untouched q

/-- The condition: a call that has set the reservation goes on until it has
tried to save its order. -/
def HoldersGoOn (k : IdempotencyKey) (steps : List (Bookings ι × BookingMove ι)) : Prop :=
  ∀ before p, before ++ [p] <+: steps → ∀ i choice, p.2 = .proc i choice →
    (∃ q ∈ before, Reserves k i q) → (p.1.procs i).GoesOn choice

theorem HoldersGoOn.upTo {steps steps' : List (Bookings ι × BookingMove ι)}
    (h : HoldersGoOn k steps) (hpre : steps' <+: steps) : HoldersGoOn k steps' :=
  fun before p hp => h before p (hp.trans hpre)

/-- What a run of calls with one key keeps.  The last field carries the proof:
while the key is held or a call has been refused, an order is stored under the
key or a call that has set the reservation is at work. -/
structure Tracked (k : IdempotencyKey) (l : List (Bookings ι × BookingMove ι))
    (u : Bookings ι) : Prop where
  keyed : ∀ i, (u.procs i).call.key = some k
  formed : ∀ i, (u.procs i).Formed
  past : ∀ i, (∃ q ∈ l, Reserves k i q) → ¬ (u.procs i).pc.Unreserved
  created : ∀ i, (u.procs i).pc.Holding → ∃ q ∈ l, Creates i q
  tried : ∀ i, (∃ o, (u.procs i).pc = .saved o) ∨ (u.procs i).pc = .findWinner →
    StoredKey k u.shared
  progress : HoldersGoOn k l →
    u.shared.redis.Held k.redisKey ∨ (∃ i, (u.procs i).pc = .findReserved) →
    StoredKey k u.shared ∨ ∃ j, (∃ q ∈ l, Reserves k j q) ∧ ¬ (u.procs j).pc.Answered

variable {s t u v : Bookings ι} {steps l : List (Bookings ι × BookingMove ι)}

theorem Tracked.initial (hs : ∀ i, ∃ call, s.procs i = BookingFrame.init call ∧
    call.key = some k) (hfree : ¬ s.shared.redis.Held k.redisKey) : Tracked k [] s where
  keyed i := by
    obtain ⟨call, hi, hk⟩ := hs i
    rw [hi]
    exact hk
  formed i := by
    obtain ⟨call, hi, -⟩ := hs i
    rw [hi]
    exact ⟨fun _ => rfl, fun _ h => by cases h⟩
  past i := by simp
  created i := by
    obtain ⟨call, hi, -⟩ := hs i
    rw [hi]
    exact False.elim
  tried i := by
    obtain ⟨call, hi, -⟩ := hs i
    rw [hi]
    rintro (⟨o, ho⟩ | ho) <;> cases ho
  progress _ := by
    rintro (hheld | ⟨i, hpc⟩)
    · exact absurd hheld hfree
    · obtain ⟨call, hi, -⟩ := hs i
      rw [hi] at hpc
      cases hpc

/-- Time passes. -/
theorem Tracked.tick (hu : Tracked k l u) {seconds : ℕ}
    (hstep : u.step (.env seconds) = some v) : Tracked k (l ++ [(u, .env seconds)]) v := by
  obtain ⟨w, hg, rfl⟩ := System.step_env hstep
  obtain rfl := Option.some.inj hg
  have hmem : ∀ i, (∃ q ∈ l ++ [(u, .env seconds)], Reserves k i q) → ∃ q ∈ l, Reserves k i q := by
    rintro i ⟨q, hq, hres⟩
    rcases List.mem_append.mp hq with hq | hq
    · exact ⟨q, hq, hres⟩
    · obtain rfl := List.mem_singleton.mp hq
      obtain ⟨⟨_, h⟩, -⟩ := hres
      cases h
  refine ⟨hu.keyed, hu.formed, fun i hi => hu.past i (hmem i hi), fun i hi => ?_, hu.tried, ?_⟩
  · obtain ⟨q, hq, hc⟩ := hu.created i hi
    exact ⟨q, List.mem_append_left _ hq, hc⟩
  · intro hgo hheld
    have hbefore : u.shared.redis.Held k.redisKey ∨ ∃ i, (u.procs i).pc = .findReserved := by
      refine hheld.imp_left ?_
      rintro ⟨e, he, hlt⟩
      exact ⟨e, he, Nat.lt_of_le_of_lt (Nat.le_add_right _ _) hlt⟩
    refine (hu.progress (hgo.upTo (List.prefix_append _ _)) hbefore).imp_right ?_
    rintro ⟨j, ⟨q, hq, hres⟩, hlive⟩
    exact ⟨j, ⟨q, List.mem_append_left _ hq, hres⟩, hlive⟩

/-- Who sets the reservation at a step, and where it goes then. -/
theorem Reserves.proc {i j : ι} {choice : BookingChoice} {f' : BookingFrame}
    (hf : (u.procs i).step u.shared choice = some (w', f')) (hk : (u.procs i).call.key = some k)
    (h : Reserves k j (u, .proc i choice)) : j = i ∧ f'.pc = .prepare := by
  obtain ⟨⟨_, he⟩, hfree, v, hstep, hheld⟩ := h
  cases he
  refine ⟨rfl, ?_⟩
  obtain ⟨w, f, hf', rfl⟩ := System.step_proc hstep
  obtain ⟨rfl, rfl⟩ := Prod.mk.inj (Option.some.inj (hf'.symm.trans hf))
  rcases BookingFrame.redis_of_step hf hk with heq | ⟨_, hpc, _⟩
  · rw [show ({ shared := w, procs := _ } : Bookings ι).shared.redis = w.redis from rfl,
      heq] at hheld
    exact absurd hheld hfree
  · exact hpc

/-- The step that sets the reservation does not raise. -/
theorem Reserves.not_raised {p : Bookings ι × BookingMove ι} {i : ι} {choice : BookingChoice}
    {e : Exn} (h : Reserves k i p) (hp : p.2 = .proc i choice)
    (hk : (p.1.procs i).call.key = some k) (hstep : p.1.step p.2 = some v) :
    (v.procs i).pc ≠ .raised e := by
  obtain ⟨u, m⟩ := p
  obtain rfl : m = .proc i choice := hp
  obtain ⟨w, f', hf, rfl⟩ := System.step_proc hstep
  have hpc := (h.proc hf hk).2
  simp [hpc]

/-- A call that does not set the reservation and has no order yet changes
nothing. -/
theorem untouched_of_not_reserves {p : Bookings ι × BookingMove ι} {i : ι}
    {choice : BookingChoice} (hk : (p.1.procs i).call.key = some k) (hp : p.2 = .proc i choice)
    (hempty : ¬ (p.1.procs i).pc.Holding) (hno : ¬ Reserves k i p) : Untouched p := by
  intro v hstep
  obtain ⟨u, m⟩ := p
  obtain rfl : m = .proc i choice := hp
  obtain ⟨w, f', hf, rfl⟩ := System.step_proc hstep
  refine ⟨?_, ?_⟩
  · rcases BookingFrame.redis_of_step hf hk with heq | ⟨_, _, hfree, hnow⟩
    · exact heq
    · exact absurd ⟨⟨choice, rfl⟩, hfree, _, hstep, hnow⟩ hno
  · rcases (BookingFrame.steps_of_step hf).orders with ⟨heq, _⟩ | ⟨o, hpc, _⟩
    · exact heq
    · exact absurd (by rw [hpc]; trivial) hempty

/-- The last field of `Tracked`, after a step of a call. -/
theorem Tracked.progress_proc (hu : Tracked k l u) {i : ι} {choice : BookingChoice}
    (hstep : u.step (.proc i choice) = some v) (hgo : HoldersGoOn k (l ++ [(u, .proc i choice)]))
    (hheld : v.shared.redis.Held k.redisKey ∨ ∃ j, (v.procs j).pc = .findReserved) :
    StoredKey k v.shared ∨ ∃ j, (∃ q ∈ l ++ [(u, .proc i choice)], Reserves k j q) ∧
      ¬ (v.procs j).pc.Answered := by
  obtain ⟨w, f', hf, rfl⟩ := System.step_proc hstep
  have h := BookingFrame.steps_of_step hf
  have hk := hu.keyed i
  have hmono : StoredKey k u.shared → StoredKey k w := h.storedKey (hu.formed i) hk
  have hlift : ∀ j, (∃ q ∈ l, Reserves k j q) →
      ∃ q ∈ l ++ [(u, .proc i choice)], Reserves k j q :=
    fun j ⟨q, hq, hres⟩ => ⟨q, List.mem_append_left _ hq, hres⟩
  by_cases hbefore : u.shared.redis.Held k.redisKey ∨ ∃ j, (u.procs j).pc = .findReserved
  · rcases hu.progress (hgo.upTo (List.prefix_append _ _)) hbefore with
      hst | ⟨j, hres, hlive⟩
    · exact Or.inl (hmono hst)
    · by_cases hji : j = i
      · subst hji
        by_cases hans : f'.pc.Answered
        · -- the call at work answers, having tried to save
          have hgoes := hgo l _ List.prefix_rfl j choice rfl hres
          exact Or.inl (hmono (hu.tried j (h.answered hk (hu.past j hres) hgoes hans)))
        · exact Or.inr ⟨j, hlift j hres, by simpa using hans⟩
      · exact Or.inr ⟨j, hlift j hres, by simpa [hji] using hlive⟩
  · rw [not_or] at hbefore
    obtain ⟨hfree, hnone⟩ := hbefore
    rcases BookingFrame.redis_of_step hf hk with heq | ⟨_, hpc, _, hnow⟩
    · -- nothing has been reserved, so nobody has been refused
      exfalso
      rcases hheld with hheld | ⟨j, hj⟩
      · rw [show ({ shared := w, procs := _ } : Bookings ι).shared.redis = w.redis from rfl,
          heq] at hheld
        exact hfree hheld
      · by_cases hji : j = i
        · subst hji
          exact hfree (h.to_findReserved hk (by simpa using hj))
        · exact hnone ⟨j, by simpa [hji] using hj⟩
    · refine Or.inr ⟨i, ⟨_, List.mem_append_right _ (List.mem_singleton.mpr rfl), ⟨_, rfl⟩,
        hfree, _, hstep, hnow⟩, ?_⟩
      simp [hpc, BookingPc.Answered]

/-- A step of a call. -/
theorem Tracked.proc (hu : Tracked k l u) {i : ι} {choice : BookingChoice}
    (hstep : u.step (.proc i choice) = some v) :
    Tracked k (l ++ [(u, .proc i choice)]) v := by
  obtain ⟨w, f', hf, rfl⟩ := System.step_proc hstep
  have h := BookingFrame.steps_of_step hf
  have hk := hu.keyed i
  have hform := hu.formed i
  -- a reservation is older, or call `i` has just set it and goes on
  have hmem : ∀ j, (∃ q ∈ l ++ [(u, .proc i choice)], Reserves k j q) →
      (∃ q ∈ l, Reserves k j q) ∨ j = i ∧ f'.pc = .prepare := by
    rintro j ⟨q, hq, hres⟩
    rcases List.mem_append.mp hq with hq | hq
    · exact Or.inl ⟨q, hq, hres⟩
    · obtain rfl := List.mem_singleton.mp hq
      exact Or.inr (hres.proc hf hk)
  refine ⟨?_, ?_, fun j hj => ?_, fun j hj => ?_, fun j hj => ?_, ?_⟩
  · -- keyed
    exact (Function.forall_update_iff _ fun _ (g : BookingFrame) => g.call.key = some k).mpr
      ⟨h.call_eq ▸ hk, fun j _ => hu.keyed j⟩
  · -- formed
    exact (Function.forall_update_iff _ fun _ (g : BookingFrame) => g.Formed).mpr
      ⟨h.formed hform, fun j _ => hu.formed j⟩
  · -- past
    by_cases hji : j = i
    · subst hji
      replace hj := hmem j hj
      intro hun
      replace hun : f'.pc.Unreserved := by simpa using hun
      rcases hj with hj | ⟨_, hpc⟩
      · exact hu.past j hj (h.unreserved hun)
      · simp [hpc, BookingPc.Unreserved] at hun
    · rcases hmem j hj with hj | ⟨he, _⟩
      · simpa [hji] using hu.past j hj
      · exact absurd he hji
  · -- created
    by_cases hji : j = i
    · subst hji
      replace hj : f'.pc.Holding := by simpa using hj
      rcases h.to_holding hj with hold | hnew
      · obtain ⟨q, hq, hc⟩ := hu.created j hold
        exact ⟨q, List.mem_append_left _ hq, hc⟩
      · exact ⟨_, List.mem_append_right _ (List.mem_singleton.mpr rfl), ⟨_, rfl⟩, _, hstep, hnew⟩
    · obtain ⟨q, hq, hc⟩ := hu.created j (by simpa [hji] using hj)
      exact ⟨q, List.mem_append_left _ hq, hc⟩
  · -- tried
    by_cases hji : j = i
    · subst hji
      exact h.storedKey_of_saved hform hk (by simpa using hj)
    · exact h.storedKey hform hk (hu.tried j (by simpa [hji] using hj))
  · exact hu.progress_proc hstep

theorem Tracked.run (h₀ : Tracked k [] s) (h : Trace Bookings.step s steps t) :
    Tracked k steps t := by
  refine h.history (A := fun _ _ => True) (fun _ _ => trivial) h₀ ?_
  intro l u m v hu _ hstep
  cases m with
  | env => exact hu.tick hstep
  | proc => exact hu.proc hstep

/-- **"In progress" is true in every run in which no call raises between its
reservation and its save.** -/
theorem honest_of_goesOn (hs : ∀ i, ∃ call, s.procs i = BookingFrame.init call ∧
      call.key = some k) (hfree : ¬ s.shared.redis.Held k.redisKey)
    (h : Trace Bookings.step s steps t)
    (hforeign : ∀ p ∈ steps, ∀ i choice, p.2 = .proc i choice → (p.1.procs i).Foreign choice)
    (hgo : HoldersGoOn k steps) : Honest k steps := by
  have hrun : ∀ before p, before ++ [p] <+: steps → Tracked k before p.1 :=
    fun before p hpre => (Tracked.initial hs hfree).run (h.upTo hpre)
  refine ⟨?_, ?_⟩
  · rintro before ⟨u, m⟩ hpre i choice v rfl hstep hraised
    have hu := hrun before _ hpre
    obtain ⟨w, f', hf, rfl⟩ := System.step_proc hstep
    obtain ⟨hpc, hno⟩ := (BookingFrame.steps_of_step hf).to_inProgress (hu.keyed i)
      (hforeign _ (hpre.subset (by simp)) i choice rfl) (by simpa using hraised)
    have hgo' := hgo.upTo ((List.prefix_append before _).trans hpre)
    rcases hu.progress hgo' (Or.inr ⟨i, hpc⟩) with hst | ⟨j, hres, hlive⟩
    · exact absurd hst hno
    · refine ⟨j, ?_, hres, hlive⟩
      rintro rfl
      exact hu.past j hres (by rw [hpc]; trivial)
  · rintro before p hpre i choice v e hp hstep hraised hnone q hq ⟨c, hqi⟩
    obtain ⟨before', after, heq⟩ := List.append_of_mem hq
    have hpre' : before' ++ [q] <+: before ++ [p] :=
      ⟨after, by rw [heq, List.append_assoc, List.singleton_append]⟩
    -- no order has been created for the call before this step or any other
    have hempty : ∀ b r, b ++ [r] <+: before ++ [p] → ¬ (r.1.procs i).pc.Holding := by
      intro b r hbr hhold
      obtain ⟨r', hr', hc⟩ := (hrun b r (hbr.trans hpre)).created i hhold
      exact hnone r' (hbr.subset (List.mem_append_left _ hr')) hc
    refine untouched_of_not_reserves ((hrun before' q (hpre'.trans hpre)).keyed i) hqi
      (hempty before' q hpre') fun hres => ?_
    rcases List.prefix_concat_iff.mp hpre' with hlast | hearlier
    · -- the step that raises does not reserve
      obtain ⟨-, rfl⟩ := List.append_singleton_inj.mp hlast
      exact hres.not_raised hp ((hrun before q hpre).keyed i) hstep hraised
    · -- a call that has reserved and then raises has tried to save
      have hu := hrun before p hpre
      have hres' : ∃ r ∈ before, Reserves k i r :=
        ⟨q, hearlier.subset (List.mem_append_right _ (List.mem_singleton.mpr rfl)), hres⟩
      have hgoes := hgo before p hpre i choice hp hres'
      refine hempty before p List.prefix_rfl ?_
      obtain ⟨u, m⟩ := p
      obtain rfl : m = .proc i choice := hp
      obtain ⟨w, f', hf, rfl⟩ := System.step_proc hstep
      replace hraised : f'.pc = .raised e := by simpa using hraised
      rcases (BookingFrame.steps_of_step hf).answered (hu.keyed i) (hu.past i hres') hgoes
        (by rw [hraised]; trivial) with ⟨o, hpc⟩ | hpc
      · rw [hpc]
        trivial
      · rw [hpc]
        trivial

end Bookings

/-! ### Two runs -/

namespace Sample

/-- Two calls with one key; the provider of the first is unknown. -/
def unknownProvider : Caller → BookingCall
  | .first => { call (some "k1") with providerName := some "sabre" }
  | .second => call (some "k1")

/-- The first call reserves and raises; the second is refused. -/
def refused : List (BookingMove Caller) :=
  [.proc .first .go, .proc .first .go, .proc .first .go, .proc .second .go,
    .proc .second .go]

/-- The first call reserves and is about to book; the second is refused. -/
def inProgress : List (BookingMove Caller) :=
  [.proc .first .go, .proc .second .go, .proc .first .go, .proc .second .go,
    .proc .second .go]

end Sample

namespace Bookings

/-- The second call is told that a booking is in progress when the first has
already raised. -/
theorem not_honest_unknownProvider :
    let s := Sample.bookings Sample.unknownProvider
    ∃ t u, exec Bookings.step s Sample.refused = some t ∧
      (t.procs .first).pc.raised? = some .valueError ∧
      t.step (.proc .second .go) = some u ∧
      (u.procs .second).pc.raised? = some .bookingInProgressError ∧
      ¬ Honest Sample.key
        (execSteps Bookings.step s (Sample.refused ++ [.proc .second .go])) := by
  intro s
  obtain ⟨t, ht, hfirst, hsecond⟩ := exec_any (P := fun t : Bookings Sample.Caller =>
      (t.procs .first).pc.raised? = some .valueError ∧
      (t.step (.proc .second .go)).any fun u =>
        decide ((u.procs .second).pc.raised? = some .bookingInProgressError))
    (by decide : (exec Bookings.step s Sample.refused).any _ = true)
  obtain ⟨u, hu, hraised⟩ := (Option.any_eq_true _ _).mp hsecond
  replace hraised := of_decide_eq_true hraised
  refine ⟨t, u, ht, hfirst, hu, hraised, fun h => ?_⟩
  have hpc : (u.procs .second).pc = .raised .bookingInProgressError := by
    unfold BookingPc.raised? at hraised
    split at hraised
    · rename_i e he
      rw [he, Option.some.inj hraised]
    · cases hraised
  rw [execSteps_concat ht] at h
  obtain ⟨j, hj, -, hlive⟩ := h.inProgress _ _ List.prefix_rfl .second .go u rfl hu hpc
  cases j with
  | first =>
      refine hlive ?_
      unfold BookingPc.raised? at hfirst
      split at hfirst
      · rename_i e he
        rw [he]
        trivial
      · cases hfirst
  | second => exact hj rfl

theorem honest_inProgress :
    let s := Sample.bookings fun _ : Sample.Caller => Sample.call (some "k1")
    ∃ t, exec Bookings.step s Sample.inProgress = some t ∧
      (t.procs .second).pc.raised? = some .bookingInProgressError ∧
      Honest Sample.key (execSteps Bookings.step s Sample.inProgress) := by
  intro s
  obtain ⟨t, ht, hsecond⟩ := exec_any (P := fun t : Bookings Sample.Caller =>
      (t.procs .second).pc.raised? = some .bookingInProgressError)
    (by decide : (exec Bookings.step s Sample.inProgress).any _ = true)
  have hrun := Trace.of_exec ht
  have hcall : ∀ p ∈ execSteps Bookings.step s Sample.inProgress, ∀ i,
      (p.1.procs i).call = Sample.call (some "k1") := by
    intro p hp
    obtain ⟨before, -, hbefore⟩ := hrun.prefix_of_mem hp
    exact System.each_of_run hbefore (fun _ => rfl) fun hf he =>
      (BookingFrame.steps_of_step hf).call_eq.trans he
  have hmove : ∀ p ∈ execSteps Bookings.step s Sample.inProgress, ∀ i choice,
      p.2 = .proc i choice → choice = .go := by
    intro p hp i choice he
    have hm := mem_of_execSteps hp
    rw [he] at hm
    simp [Sample.inProgress] at hm
    tauto
  refine ⟨t, ht, hsecond, honest_of_goesOn (fun i => ⟨_, rfl, rfl⟩) (by decide) hrun ?_ ?_⟩
  · intro p hp i choice he
    obtain rfl := hmove p hp i choice he
    rw [BookingFrame.Foreign, hcall p hp i]
    simp [Sample.call]
  · intro before p hpre i choice he _
    have hp := hpre.subset (List.mem_append_right before (List.mem_singleton.mpr rfl))
    obtain rfl := hmove p hp i choice he
    intro _
    rw [hcall p hp i]
    exact ⟨by simp [Sample.call], .duffel, by decide⟩

end Bookings

end FlyDesk
