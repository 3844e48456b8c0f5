/-
FlyDesk/Events/Progress.lean

Nobody waits for anybody.  A call of `create_booking` ends within seven of its
own moves, a pass of the relay within 302 and the handling of a message within
ten, whatever the other processes do in between (`Lib.System.piece_le`); and a
process in the middle of its work always has its next move.  The relay and the
workers can read and save every document they come across and raise nothing; what
a call raises comes from its arguments, from the provider, or from another booking
(`BookingFrame.MayRaise`), and one that has lost the race for its key finds the
winner.
-/
import FlyDesk.Events.Causality
import FlyDesk.Events.DrainLaw
import FlyDesk.Lib.Budget

namespace FlyDesk

open Lib

variable {w w' : World} {p p' : Proc} {choice : ProcChoice}

/-! ### Budgets -/

/-- The moves a call has left, at most. -/
def BookingPc.left : BookingPc → ℕ
  | .start => 7
  | .reserve => 6
  | .prepare => 5
  | .createOrder _ _ => 4
  | .postOrder _ => 3
  | .save _ => 2
  | .findReserved | .findWinner | .saved _ => 1
  | .returned _ | .raised _ | .died => 0

/-- The moves a pass has left for so many orders, with one event each. -/
def turnsLeft (orders : List Order) : ℕ :=
  1 + (orders.map fun o => o.outbox.length + 2).sum

/-- The moves a pass has left. -/
def RelayPc.left : RelayPc → ℕ
  | .idle _ => 0
  | .orders rest _ => turnsLeft rest
  | .events _ _ todo _ rest _ => todo.length + 1 + turnsLeft rest

/-- The moves a worker has left for its message, at most. -/
def HandlerPc.left : HandlerPc → ℕ
  | .mark .ticketing => 9
  | .getOrder => 8
  | .saveOrder _ _ _ => 7
  | .publishTicket _ _ => 6
  | .mark .notifications => 5
  | .notify => 4
  | .mark .audit => 3
  | .insertAudit => 2
  | .commit => 1

/-- The moves a process has left in what it is doing, at most. -/
def Proc.left : Proc → ℕ
  | .booking call => call.pc.left
  | .relay pc => pc.left
  | .worker (.idle _) => 0
  | .worker (.run _ _ pc) => pc.left

/-- The moves a move allows for what it begins, itself counted: 302 for a pass of
the relay, ten for a message. -/
def ProcChoice.grant : ProcChoice → ℕ
  | .relay (.load _) => 302
  | .worker (.deliver _) => 10
  | _ => 0

/-- The moves a call, a pass of the relay or the handling of a message takes, at
most. -/
def Proc.most : Proc → ℕ
  | .booking _ => 7
  | .relay _ => 302
  | .worker _ => 10

/-- The move begins a pass or takes up a message. -/
def ProcChoice.Begins : ProcChoice → Prop
  | .relay (.load _) | .worker (.deliver _) => True
  | _ => False

theorem ProcChoice.grant_eq_zero {c : ProcChoice} (h : ¬ c.Begins) : c.grant = 0 := by
  unfold ProcChoice.grant
  split
  · exact absurd trivial h
  · exact absurd trivial h
  · rfl

theorem FindsTo.left_le {key : IdempotencyKey} {otherwise pc : BookingPc}
    (h : FindsTo w key otherwise pc) : pc.left ≤ otherwise.left := by
  cases h with
  | absent => exact le_rfl
  | found | unreadable => exact Nat.zero_le _

theorem BookingPc.left_pos {pc : BookingPc} (h : ¬ pc.Ended) : 0 < pc.left := by
  cases pc with
  | returned | raised | died => exact absurd trivial h
  | _ => exact Nat.succ_pos _

theorem BookingFrame.Steps.left_lt {f f' : BookingFrame} {choice : BookingChoice}
    (h : f.Steps w choice w' f') : f'.pc.left < f.pc.left := by
  cases h with
  | find hpc _ hfind | findReserved hpc _ hfind | findWinner hpc _ hfind =>
      rw [hpc]
      exact Nat.lt_succ_of_le hfind.left_le
  | @stopped how hend =>
      refine Nat.lt_of_le_of_lt ?_ (BookingPc.left_pos hend)
      cases how <;> exact le_rfl
  | startUnkeyed hpc | reserved hpc | refused hpc | redisDown hpc | prepared hpc
  | unprepared hpc | offered hpc | unoffered hpc | booked hpc | unbooked hpc | stored hpc
  | lost hpc | orphaned hpc | finished hpc =>
      simp [hpc, BookingPc.left]

/-- A booked document is read as an order with one event. -/
theorem OrderDoc.Booked.outbox_length {d : OrderDoc} (h : d.Booked) {o : Order}
    (ho : d.toOrder = .ok o) : o.outbox.length = 1 := by
  obtain ⟨e, hout, -, -⟩ := h
  obtain ⟨total, -, rfl⟩ := OrderDoc.toOrder_eq_ok.mp ho
  show (d.outbox.map OutboxDoc.validate).length = 1
  rw [hout]
  rfl

theorem turnsLeft_batch {batch : List Order} (h : ∀ o ∈ batch, o.outbox.length = 1) :
    turnsLeft batch = 1 + 3 * batch.length := by
  unfold turnsLeft
  induction batch with
  | nil => rfl
  | cons o rest ih =>
      have hone := h o List.mem_cons_self
      have hrest := ih fun o ho => h o (List.mem_cons_of_mem _ ho)
      rw [List.map_cons, List.sum_cons, List.length_cons]
      omega

/-- The query returns at most a hundred orders, all with one event. -/
theorem batch_left_le {ids : List String} {batch : List Order} (hw : w.Faithful)
    (hids : OrderRepository.UnpublishedBatch w.orders ids)
    (hfind : OrderRepository.findWithUnpublishedOutbox w.orders ids = .ok batch) :
    turnsLeft batch ≤ 301 := by
  have hone : ∀ o ∈ batch, o.outbox.length = 1 := by
    intro o ho
    obtain ⟨d, hd, hdo⟩ := OrderRepository.mem_batch hfind ho
    exact (hw.booked d hd).outbox_length hdo
  have hlength : batch.length ≤ 100 := by
    have hread := (forall₂_of_mapM hfind).length_eq
    have hids' := congrArg List.length hids.map_docId_getAll
    rw [List.length_map] at hids'
    rw [← hread, hids', hids.2.2]
    exact min_le_left _ _
  rw [turnsLeft_batch hone]
  omega

theorem RelayPc.left_pos {w w' : World} {pc pc' : RelayPc} {choice : RelayChoice}
    (h : pc.step w choice = some (w', pc')) (hload : ∀ ids, choice ≠ .load ids) :
    0 < pc.left := by
  rcases pc with last | ⟨rest, n⟩ | ⟨order, done, todo, changed, rest, n⟩
  · cases choice with
    | load ids => exact absurd rfl (hload ids)
    | go | stop => cases h
  · exact Nat.lt_of_lt_of_le Nat.zero_lt_one (Nat.le_add_right 1 _)
  · show 0 < todo.length + 1 + turnsLeft rest
    omega

/-- A move of a relay. -/
theorem RelayPc.left_step {pc pc' : RelayPc} {choice : RelayChoice} (hw : w.Faithful)
    (h : pc.step w choice = some (w', pc')) :
    pc'.left + 1 ≤ pc.left + (ProcChoice.relay choice).grant := by
  have hcost : (∀ ids, choice ≠ .load ids) → RelayPc.left pc' + 1 ≤ pc.left →
      pc'.left + 1 ≤ pc.left + (ProcChoice.relay choice).grant :=
    fun _ hle => hle.trans (Nat.le_add_right _ _)
  cases RelayPc.steps_of_step h with
  | loaded hids hfind =>
      -- only a load leaves the idle point for a batch
      cases choice with
      | load ids =>
          have hle := batch_left_le hw hids hfind
          show turnsLeft _ + 1 ≤ 0 + 302
          omega
      | go | stop => cases h
  | ended =>
      by_cases hload : ∀ ids, choice ≠ .load ids
      · exact hcost hload (RelayPc.left_pos h hload)
      · push Not at hload
        obtain ⟨ids, rfl⟩ := hload
        show 0 + 1 ≤ _ + 302
        omega
  | picked =>
      refine Nat.le_trans ?_ (Nat.le_add_right _ _)
      simp only [RelayPc.left, turnsLeft, List.map_cons, List.sum_cons]
      omega
  | skipped | published | saved | unchanged =>
      refine Nat.le_trans ?_ (Nat.le_add_right _ _)
      simp only [RelayPc.left, List.length_cons, List.length_nil]
      omega

/-- A move of a worker. -/
theorem WorkerPc.Steps.left_step {pc pc' : WorkerPc} {choice : WorkerChoice}
    (h : WorkerPc.Steps w pc choice w' pc') :
    (Proc.worker pc').left + 1 ≤ (Proc.worker pc).left + (ProcChoice.worker choice).grant := by
  cases h with
  | @marked _ _ c | @skipped _ _ c =>
      cases c <;> simp [Proc.left, Consumer.work, Consumer.next, HandlerPc.left,
        ProcChoice.grant]
  | @stopped _ _ pc =>
      refine Nat.le_trans ?_ (Nat.le_add_right _ _)
      show 0 + 1 ≤ pc.left
      cases pc with
      | mark c => cases c <;> decide
      | _ => simp [HandlerPc.left]
  | delivered | found | foundTicketed | orderMissing | orderUnreadable | saved | unsaved
  | published | notified | audited | committed =>
      simp [Proc.left, HandlerPc.left, ProcChoice.grant]

/-- **Every move of a process costs it one of those it has left**, but for what it
grants. -/
theorem Proc.left_step (hw : w.Faithful) (h : p.step w choice = some (w', p')) :
    p'.left + 1 ≤ p.left + choice.grant := by
  unfold Proc.step at h
  split at h
  · obtain ⟨⟨w₁, call'⟩, hstep, hr⟩ := Option.map_eq_some_iff.mp h
    obtain ⟨rfl, rfl⟩ := Prod.mk.inj hr
    exact (BookingFrame.steps_of_step hstep).left_lt
  · obtain ⟨⟨w₁, pc'⟩, hstep, hr⟩ := Option.map_eq_some_iff.mp h
    obtain ⟨rfl, rfl⟩ := Prod.mk.inj hr
    exact RelayPc.left_step hw hstep
  · obtain ⟨⟨w₁, pc'⟩, hstep, hr⟩ := Option.map_eq_some_iff.mp h
    obtain ⟨rfl, rfl⟩ := Prod.mk.inj hr
    exact (WorkerPc.steps_of_step hstep).left_step
  · cases h

/-- No move gives a process more than its work takes. -/
theorem Proc.left_grant_le (hp : p.left ≤ p.most) (h : p.step w choice = some (w', p')) :
    p.left + choice.grant ≤ p.most := by
  by_cases hbegins : choice.Begins
  · -- a pass or a message is begun by a process that has nothing to do
    unfold ProcChoice.Begins at hbegins
    split at hbegins
    · rcases p with f | pc | pc
      · cases h
      · rcases pc with last | ⟨_ | _, _⟩ | ⟨_, _, _ | _, _, _, _⟩
        · exact le_rfl
        all_goals cases h
      · cases h
    · rcases p with f | pc | pc
      · cases h
      · cases h
      · rcases pc with last | ⟨_, _, pc⟩
        · exact le_rfl
        · cases pc <;> cases h
    · cases hbegins
  · rw [ProcChoice.grant_eq_zero hbegins]
    exact hp

theorem Proc.most_step (h : p.step w choice = some (w', p')) : p'.most = p.most := by
  cases Proc.steps_of_step h with
  | booking | relay | worker => rfl

/-! ### Losers find the winner -/

/-- The points of a call that look up its key. -/
def BookingPc.LooksUp : BookingPc → Prop
  | .reserve | .findReserved | .findWinner => True
  | _ => False

/-- A call that looks up its key has one, what it stages carries its key or none, and
where it looks for the winner there is one. -/
structure Proc.KnowsKey (w : World) (p : Proc) : Prop where
  keyed : ∀ call, p = .booking call → call.pc.LooksUp → ∃ k, call.call.key = some k
  staged : ∀ call st k, p = .booking call → call.pc = .save st → call.call.key = some k →
    st.modelDump.idempotencyKey = .val k.val
  unkeyed : ∀ call st, p = .booking call → call.pc = .save st → call.call.key = none →
    st.modelDump.idempotencyKey = .null
  winner : ∀ call k, p = .booking call → call.pc = .findWinner → call.call.key = some k →
    ∃ d ∈ w.orders.docs, d.idempotencyKey = .val k.val

@[simp] theorem OrderDoc.idempotencyKey_core (d : OrderDoc) :
    d.core.idempotencyKey = d.idempotencyKey := rfl

theorem OrderDoc.idempotencyKey_eq_of_core {d d' : OrderDoc} (h : d'.core = d.core) :
    d'.idempotencyKey = d.idempotencyKey := by
  rw [← d'.idempotencyKey_core, h, d.idempotencyKey_core]

theorem Proc.KnowsKey.mono (h : w.Grows w') (hp : p.KnowsKey w) : p.KnowsKey w' where
  keyed := hp.keyed
  staged := hp.staged
  unkeyed := hp.unkeyed
  winner := by
    intro call k hcall hpc hk
    obtain ⟨d, hd, hkey⟩ := hp.winner call k hcall hpc hk
    obtain ⟨d', hd', hcore⟩ := h.docs d hd
    exact ⟨d', hd', (OrderDoc.idempotencyKey_eq_of_core hcore).trans hkey⟩

theorem Proc.Initial.knowsKey (h : p.Initial) : p.KnowsKey w := by
  refine ⟨?_, ?_, ?_, ?_⟩
  · rintro call rfl hpc
    obtain ⟨c, rfl⟩ := h
    cases hpc
  · rintro call st k rfl hpc
    obtain ⟨c, rfl⟩ := h
    cases hpc
  · rintro call st rfl hpc
    obtain ⟨c, rfl⟩ := h
    cases hpc
  · rintro call k rfl hpc
    obtain ⟨c, rfl⟩ := h
    cases hpc

theorem Proc.Steps.knowsKey (h : Proc.Steps w p choice w' p') (hp : p.KnowsKey w) :
    p'.KnowsKey w' where
  keyed := by
    rintro call rfl hlooks
    cases h with
    | booking h =>
        rw [h.call_eq]
        cases h with
        | find _ hk | refused _ hk | lost _ _ hk => exact ⟨_, hk⟩
        | findReserved _ hk | findWinner _ hk => exact ⟨_, hk⟩
        | @stopped how => cases how <;> cases hlooks
        | _ => cases hlooks
  staged := by
    rintro call st k rfl hpc hk
    cases h with
    | booking h =>
        obtain ⟨ps, data, _, _, uuid, now, _, _, _, rfl, _⟩ := h.to_save hpc
        rw [h.call_eq] at hk
        rw [hk]
        exact Order.indexed_staged _ k uuid now.stagedAt
  unkeyed := by
    rintro call st rfl hpc hk
    cases h with
    | booking h =>
        obtain ⟨ps, data, _, _, uuid, now, _, _, _, rfl, _⟩ := h.to_save hpc
        rw [h.call_eq] at hk
        rw [hk]
        rfl
  winner := by
    rintro call k rfl hpc hk
    cases h with
    | @booking call₀ _ _ _ h =>
        rw [h.call_eq] at hk
        cases h with
        | @lost order key hpc₀ hsave hk₀ =>
            -- the document in the way of the save carries the key
            obtain ⟨d, hd, -, hconflict⟩ := Collection.replaceOne_eq_none.mp hsave
            have hkey := hp.staged call₀ order k rfl hpc₀ hk
            exact ⟨d, hd, hconflict.2.trans hkey⟩
        | find _ _ hf | findReserved _ _ hf | findWinner _ _ hf => cases hf <;> cases hpc
        | @stopped how => cases how <;> cases hpc
        | _ => cases hpc

/-! ### Going on -/

/-- The process is in the middle of something. -/
def Proc.Busy : Proc → Prop
  | .booking f => ¬ f.pc.Ended
  | .relay pc => ∀ last, pc ≠ .idle last
  | .worker pc => ∀ last, pc ≠ .idle last

/-- What a process waits for: the move is its next one, and no stop. -/
def Proc.Awaits (w : World) : Proc → ProcChoice → Prop
  | .booking call, .booking .go => ¬ call.pc.Ended ∧
      (∀ provider passengers, call.pc ≠ .createOrder provider passengers) ∧
      ∀ passengers, call.pc ≠ .postOrder passengers
  | .booking call, .booking (.redisError _) => call.pc = .reserve
  | .booking call, .booking (.offerReply _) =>
    ∃ provider passengers, call.pc = .createOrder provider passengers
  | .booking call, .booking (.orderReply ..) => ∃ passengers, call.pc = .postOrder passengers
  | .relay (.idle _), .relay (.load ids) => OrderRepository.UnpublishedBatch w.orders ids
  | .relay (.orders ..), .relay (.go _) | .relay (.events ..), .relay (.go _) => True
  | .worker (.idle _), .worker (.deliver offset) =>
    ∃ m, w.published[offset]? = some m ∧ m.topic = Topic.bookingsConfirmed
  | .worker (.run ..), .worker (.go ..) => True
  | _, _ => False

/-- What a call may raise at a move: what its arguments raise, that Amadeus is not
live, what the provider's answer raises, that a booking under its key is in progress,
or, without a key, that another order without one is stored. -/
inductive BookingFrame.MayRaise (w : World) (f : BookingFrame) : BookingChoice → Exn → Prop
  | passenger {e} : f.pc = .prepare → .error e ∈ f.call.passengersData → MayRaise w f .go e
  | provider {e} : f.pc = .prepare →
      getProvider f.call.settingsProvider f.call.providerName = .error e → MayRaise w f .go e
  | notLive {passengers reply} : f.pc = .createOrder .amadeus passengers →
      MayRaise w f (.offerReply reply) .notImplementedError
  | offer {passengers reply e} : f.pc = .createOrder .duffel passengers →
      DuffelProvider.request reply = .error e → MayRaise w f (.offerReply reply) e
  | order {passengers created reply uuid now e} : f.pc = .postOrder passengers →
      DuffelProvider.request reply = .error e →
      MayRaise w f (.orderReply created reply uuid now) e
  | inProgress {k} : f.pc = .findReserved → f.call.key = some k →
      (∀ d ∈ w.orders.docs, d.idempotencyKey ≠ .val k.val) →
      MayRaise w f .go .bookingInProgressError
  | clash {o d} : f.pc = .save o → f.call.key = none → d ∈ w.orders.docs → d.id ≠ o.id →
      d.idempotencyKey = .null → MayRaise w f .go .duplicateKeyError

/-- What comes of the move: a call goes on, returns or raises one of these, a pass is
not aborted, and no worker raises. -/
def Proc.GoesOn (w : World) : Proc → ProcChoice → Proc → Prop
  | .booking f, .booking choice, .booking f' =>
    f'.pc ≠ .died ∧ ∀ e, f'.pc = .raised e → f.MayRaise w choice e
  | .relay _, .relay _, .relay pc => ∀ last, pc = .idle last → ∃ n, last = some (.ok n)
  | .worker _, .worker _, .worker pc => ∀ e, pc ≠ .idle (some e)
  | _, _, _ => False

theorem FindsTo.goesOn {key : IdempotencyKey} {otherwise pc : BookingPc} (hw : w.Faithful)
    (h : FindsTo w key otherwise pc) : (∃ order, pc = .returned order) ∨
      pc = otherwise ∧ ∀ d ∈ w.orders.docs, d.idempotencyKey ≠ .val key.val := by
  cases h with
  | found => exact Or.inl ⟨_, rfl⟩
  | absent hno => exact Or.inr ⟨rfl, hno⟩
  | unreadable hd he =>
      -- every stored document can be read
      obtain ⟨o, ho⟩ := (hw.written _ hd).toOrder_ok
      rw [ho] at he
      cases he

/-- A call has the move it waits for. -/
theorem BookingFrame.step_of_awaits {f : BookingFrame} {choice : BookingChoice}
    (hknows : (Proc.booking f).KnowsKey w)
    (h : (Proc.booking f).Awaits w (.booking choice)) : ∃ r, f.step w choice = some r := by
  rw [← Option.isSome_iff_exists]
  have hkey := hknows.keyed f rfl
  cases choice with
  | go =>
      obtain ⟨hend, hcreate, hpost⟩ := h
      unfold BookingFrame.step
      rcases hpc : f.pc with - | - | - | - | ⟨p, ps⟩ | ps | order | - | order | o | e | -
      · rcases hk : f.call.key with - | k <;> rfl
      · obtain ⟨k, hk⟩ := hkey (by rw [hpc]; trivial)
        rw [hk]
        dsimp only
        split <;> rfl
      · obtain ⟨k, hk⟩ := hkey (by rw [hpc]; trivial)
        rw [hk]
        rfl
      · rcases hk : f.call.key with - | k <;> rfl
      · exact absurd hpc (hcreate p ps)
      · exact absurd hpc (hpost ps)
      · dsimp only
        split
        · rfl
        · split <;> rfl
      · obtain ⟨k, hk⟩ := hkey (by rw [hpc]; trivial)
        rw [hk]
        rfl
      · rfl
      · exact absurd (by rw [hpc]; trivial) hend
      · exact absurd (by rw [hpc]; trivial) hend
      · exact absurd (by rw [hpc]; trivial) hend
  | redisError executed =>
      have hpc : f.pc = .reserve := h
      obtain ⟨k, hk⟩ := hkey (by rw [hpc]; trivial)
      unfold BookingFrame.step
      rw [hpc, hk]
      rfl
  | offerReply reply =>
      obtain ⟨p, ps, hpc⟩ := h
      unfold BookingFrame.step
      rw [hpc]
      rfl
  | orderReply created reply uuid now =>
      obtain ⟨ps, hpc⟩ := h
      unfold BookingFrame.step
      rw [hpc]
      dsimp only
      split <;> rfl
  | stop how => cases h

theorem preparePc_eq_raised {c : BookingCall} {e : Exn} (h : preparePc c = .raised e) :
    .error e ∈ c.passengersData ∨ getProvider c.settingsProvider c.providerName = .error e := by
  unfold preparePc at h
  split at h
  · rename_i e' hmapM
    obtain rfl := BookingPc.raised.inj h
    have hraises : Raises (fun e => .error e ∈ c.passengersData) (c.passengersData.mapM id) :=
      Raises.mapM fun x hx e he => by
        obtain rfl : x = .error e := he
        exact hx
    exact Or.inl (hraises e' hmapM)
  · split at h
    · rename_i e' hprovider
      obtain rfl := BookingPc.raised.inj h
      exact Or.inr hprovider
    · cases h

theorem BookingFrame.Steps.goesOn {f f' : BookingFrame} {choice : BookingChoice}
    (h : f.Steps w choice w' f') (hw : w.Faithful) (hknows : (Proc.booking f).KnowsKey w)
    (hstop : ∀ how, choice ≠ .stop how) :
    (Proc.booking f).GoesOn w (.booking choice) (.booking f') := by
  have hraises : ∀ {pc e}, pc = BookingPc.raised e → f.MayRaise w choice e →
      pc ≠ .died ∧ ∀ e, pc = .raised e → f.MayRaise w choice e := by
    rintro _ e rfl hmay
    refine ⟨by simp, fun e' he => ?_⟩
    obtain rfl := BookingPc.raised.inj he
    exact hmay
  cases h with
  | startUnkeyed | reserved | refused | redisDown | prepared | offered | booked | stored
  | lost | finished => exact ⟨by simp, by simp⟩
  | find _ _ hfind =>
      obtain ⟨order, rfl⟩ | ⟨rfl, -⟩ := hfind.goesOn hw
      · exact ⟨by simp, by simp⟩
      · exact ⟨by simp, by simp⟩
  | findReserved hpc hk hfind =>
      obtain ⟨order, rfl⟩ | ⟨rfl, hno⟩ := hfind.goesOn hw
      · exact ⟨by simp, by simp⟩
      · exact hraises rfl (.inProgress hpc hk hno)
  | unprepared hpc hprepare =>
      rcases preparePc_eq_raised hprepare with hpassenger | hprovider
      · exact hraises rfl (.passenger hpc hpassenger)
      · exact hraises rfl (.provider hpc hprovider)
  | @unoffered provider passengers reply e' hpc hoffer =>
      cases provider with
      | amadeus =>
          obtain rfl := BookingPc.raised.inj hoffer
          exact hraises rfl (.notLive hpc)
      | duffel =>
          unfold offerPc at hoffer
          dsimp only at hoffer
          split at hoffer
          · rename_i hrequest
            obtain rfl := BookingPc.raised.inj hoffer
            exact hraises rfl (.offer hpc hrequest)
          · cases hoffer
  | unbooked hpc hrequest => exact hraises rfl (.order hpc hrequest)
  | @orphaned order hpc hsave hk =>
      -- the document in the way has no key either
      obtain ⟨d, hd, hid, hconflict⟩ := Collection.replaceOne_eq_none.mp hsave
      exact hraises rfl
        (.clash hpc hk hd hid (hconflict.2.trans (hknows.unkeyed f order rfl hpc hk)))
  | @findWinner key pc hpc hk hfind =>
      obtain ⟨order, rfl⟩ | ⟨-, hno⟩ := hfind.goesOn hw
      · exact ⟨by simp, by simp⟩
      · obtain ⟨d, hd, hkey⟩ := hknows.winner f key rfl hpc hk
        exact absurd hkey (hno d hd)
  | @stopped how => exact absurd rfl (hstop how)

/-- A pass has the move it waits for, and does not raise. -/
theorem RelayPc.step_of_awaits {pc : RelayPc} {choice : RelayChoice} (hw : w.Faithful)
    (hp : (Proc.relay pc).Faithful w) (h : (Proc.relay pc).Awaits w (.relay choice)) :
    ∃ w' pc', pc.step w choice = some (w', pc') ∧
      ∀ last, pc' = .idle last → ∃ n, last = some (.ok n) := by
  rcases pc with last | ⟨_ | ⟨order, rest⟩, n⟩ | ⟨order, done, _ | ⟨event, todo⟩, changed, rest, n⟩
  · cases choice with
    | load ids =>
        have hids : OrderRepository.UnpublishedBatch w.orders ids := h
        obtain ⟨batch, hfind⟩ : ∃ batch,
            OrderRepository.findWithUnpublishedOutbox w.orders ids = .ok batch :=
          mapM_ok_iff.mpr fun d hd => (hw.written d (hids.mem_getAll hd).1).toOrder_ok
        refine ⟨w, .orders batch 0, ?_, by simp⟩
        show (if OrderRepository.UnpublishedBatch w.orders ids then _ else none) = _
        rw [if_pos hids, hfind]
    | go | stop => cases h
  · cases choice with
    | go => exact ⟨_, _, rfl, fun last hlast => ⟨n, (RelayPc.idle.inj hlast).symm⟩⟩
    | load | stop => cases h
  · cases choice with
    | go => exact ⟨_, _, rfl, by simp⟩
    | load | stop => cases h
  · cases choice with
    | go now =>
        cases changed with
        | false => exact ⟨_, _, rfl, by simp⟩
        | true =>
            have hcore : ({ order with outbox := done } : Order).modelDump.core =
                order.modelDump.core :=
              order.core_modelDump_update order.status order.events (by simpa using hp.inOrder.1)
            obtain ⟨col, hsave⟩ := Option.ne_none_iff_exists'.mp
              ((hp.loaded order List.mem_cons_self).save_ne_none hcore)
            refine ⟨{ w with orders := col }, .orders rest n, ?_, by simp⟩
            unfold RelayPc.step
            dsimp only
            rw [if_pos rfl, hsave]
    | load | stop => cases h
  · cases choice with
    | go now =>
        unfold RelayPc.step
        dsimp only
        split
        · exact ⟨_, _, rfl, by simp⟩
        · exact ⟨_, _, rfl, by simp⟩
    | load | stop => cases h

/-- A worker has the move it waits for, and does not raise. -/
theorem WorkerPc.step_of_awaits {pc : WorkerPc} {choice : WorkerChoice} (hw : w.Faithful)
    (hp : (Proc.worker pc).Faithful w) (hdel : (Proc.worker pc).Delivered w)
    (h : (Proc.worker pc).Awaits w (.worker choice)) :
    ∃ w' pc', pc.step w choice = some (w', pc') ∧ ∀ e, pc' ≠ .idle (some e) := by
  rcases pc with last | ⟨offset, event, pc⟩
  · cases choice with
    | deliver offset =>
        obtain ⟨m, hm, htopic⟩ := h
        refine ⟨w, .run offset m.value (.mark .ticketing), ?_, nofun⟩
        unfold WorkerPc.step
        dsimp only
        rw [hm]
        exact if_pos htopic
    | go | stop => cases h
  · cases choice with
    | go now uuid =>
        cases pc with
        | mark c =>
            unfold WorkerPc.step
            dsimp only
            split
            · exact ⟨_, _, rfl, nofun⟩
            · exact ⟨_, _, rfl, nofun⟩
        | getOrder =>
            -- the order of a delivered event is in the store, and can be read
            refine ⟨w, getOrderPc w offset event now, rfl, fun e he => ?_⟩
            have hsteps := steps_getOrder w offset event now uuid
            rw [he] at hsteps
            cases hsteps with
            | orderUnreadable hbad =>
                obtain ⟨d, hd, horder⟩ := hdel.order hw rfl
                rcases hbad with hbad | ⟨d', hd', hbad⟩
                · rw [horder] at hbad
                  cases hbad
                · obtain ⟨o, ho⟩ := (hw.written d' hd').toOrder_ok
                  rw [ho] at hbad
                  cases hbad
        | saveOrder id order now' =>
            have hcore : (order.ticketed now').modelDump.core = order.modelDump.core :=
              order.core_modelDump_update .ticketed _ rfl
            obtain ⟨col, hsave⟩ := Option.ne_none_iff_exists'.mp
              ((hp.loaded order List.mem_cons_self).save_ne_none hcore)
            refine ⟨{ w with orders := col },
              .run offset event (.publishTicket id (order.ticketed now')), ?_, nofun⟩
            unfold WorkerPc.step
            dsimp only
            rw [hsave]
        | publishTicket | notify | insertAudit | commit => exact ⟨_, _, rfl, nofun⟩
    | deliver | stop => cases h

/-- **A process has the move it waits for, and goes on.** -/
theorem Proc.step_of_awaits (hw : w.Faithful) (hp : p.Faithful w) (hdel : p.Delivered w)
    (hknows : p.KnowsKey w) (h : p.Awaits w choice) :
    ∃ w' p', p.step w choice = some (w', p') ∧ p.GoesOn w choice p' := by
  rcases p with f | pc | pc <;> rcases choice with choice | choice | choice
  · obtain ⟨⟨w', f'⟩, hstep⟩ := BookingFrame.step_of_awaits hknows h
    refine ⟨w', .booking f', ?_, ?_⟩
    · show (f.step w choice).map _ = _
      rw [hstep]
      rfl
    · refine (BookingFrame.steps_of_step hstep).goesOn hw hknows ?_
      rintro how rfl
      cases h
  · cases h
  · cases h
  · rcases pc <;> cases h
  · obtain ⟨w', pc', hstep, hgoes⟩ := RelayPc.step_of_awaits hw hp h
    refine ⟨w', .relay pc', ?_, hgoes⟩
    show (pc.step w choice).map _ = _
    rw [hstep]
    rfl
  · rcases pc <;> cases h
  · rcases pc <;> cases h
  · rcases pc <;> cases h
  · obtain ⟨w', pc', hstep, hgoes⟩ := WorkerPc.step_of_awaits hw hp hdel h
    refine ⟨w', .worker pc', ?_, hgoes⟩
    show (pc.step w choice).map _ = _
    rw [hstep]
    rfl

/-- A process in the middle of something waits for a move. -/
theorem Proc.exists_awaits (h : p.Busy) : ∃ choice, p.Awaits w choice := by
  let now : DateTime := ⟨0, none⟩
  rcases p with f | pc | pc
  · by_cases hcreate : ∃ provider passengers, f.pc = .createOrder provider passengers
    · exact ⟨.booking (.offerReply .timeout), hcreate⟩
    by_cases hpost : ∃ passengers, f.pc = .postOrder passengers
    · exact ⟨.booking (.orderReply false .timeout "" Sample.clock), hpost⟩
    push Not at hcreate hpost
    exact ⟨.booking .go, h, hcreate, hpost⟩
  · cases pc with
    | idle last => exact absurd rfl (h last)
    | orders | events => exact ⟨.relay (.go now), trivial⟩
  · cases pc with
    | idle last => exact absurd rfl (h last)
    | run => exact ⟨.worker (.go now ""), trivial⟩

/-! ### Runs -/

namespace FlyDeskSystem

variable {ι : Type*} [DecidableEq ι] {s t : FlyDeskSystem ι}
  {steps : List (FlyDeskSystem ι × FlyDeskMove ι)}

theorem knowsKey_run (h : Trace FlyDeskSystem.step s steps t) (hs : s.Fresh)
    (hfresh : ∀ p ∈ steps, FreshIds p.1 p.2) (i : ι) : (t.procs i).KnowsKey t.shared := by
  refine h.invariant (A := fun u m => Live u ∧ FreshIds u m)
    (I := fun u => ∀ i, (u.procs i).KnowsKey u.shared)
    (fun p hp => ⟨live_mem h hs hfresh p hp, hfresh p hp⟩)
    (fun i => (hs.initial i).knowsKey) ?_ i
  rintro u m v hI ⟨hlive, -⟩ hstep j
  rcases System.procs_of_step hstep j with he | ⟨c, -, hf⟩
  · rw [he]
    exact (hI j).mono (grows_of_step hlive.outbox hstep)
  · exact (Proc.steps_of_step hf).knowsKey (hI j)

theorem knowsKey_mem (h : Trace FlyDeskSystem.step s steps t) (hs : s.Fresh)
    (hfresh : ∀ p ∈ steps, FreshIds p.1 p.2) :
    ∀ p ∈ steps, ∀ i, (p.1.procs i).KnowsKey p.1.shared := by
  intro p hp
  obtain ⟨before, hpre, hbefore⟩ := h.prefix_of_mem hp
  exact knowsKey_run hbefore hs (Trace.allowed_prefix hfresh hpre)

omit [DecidableEq ι] in
/-- A call of a fresh system is about to start. -/
theorem Fresh.exists_init (hs : s.Fresh) {i : ι} {f : BookingFrame}
    (hi : s.procs i = .booking f) : ∃ call, f = .init call := by
  have h := hs.initial i
  rwa [hi] at h

/-- No process has more moves left than its work takes. -/
theorem left_le_run (h : Trace FlyDeskSystem.step s steps t) (hs : s.Fresh)
    (hfresh : ∀ p ∈ steps, FreshIds p.1 p.2) (i : ι) : (t.procs i).left ≤ (t.procs i).most := by
  refine h.invariant (A := fun u _ => Live u)
    (I := fun u => ∀ i, (u.procs i).left ≤ (u.procs i).most) (live_mem h hs hfresh) ?_ ?_ i
  · intro j
    have hinit := hs.initial j
    generalize s.procs j = p at hinit
    rcases p with f | pc | pc
    · obtain ⟨c, rfl⟩ := hinit
      exact le_rfl
    · obtain rfl : pc = .idle none := hinit
      exact Nat.zero_le _
    · obtain rfl : pc = .idle none := hinit
      exact Nat.zero_le _
  · intro u m v hI hlive hstep j
    rcases System.procs_of_step hstep j with he | ⟨c, -, hf⟩
    · rw [he]
      exact hI j
    · have hcost := Proc.left_step hlive.outbox.shared hf
      have hgrant := Proc.left_grant_le (hI j) hf
      rw [Proc.most_step hf]
      omega

/-- **Nobody waits for anybody.**  From every state that a run of the system in which
order ids are fresh reaches, whatever the others do: a process makes at most seven
moves of a call, 302 of a pass and ten for a message, the one that begins it
included; in the middle of something it waits for a move; and when a move comes that
it waits for, it can be made, and the process goes on. -/
theorem wait_free (h : Trace FlyDeskSystem.step s steps t) (hs : s.Fresh)
    (hfresh : ∀ p ∈ steps, FreshIds p.1 p.2) (i : ι) :
    (∀ more u, Trace FlyDeskSystem.step t more u → (∀ p ∈ more, FreshIds p.1 p.2) →
      (∀ c ∈ (actionsOf i more).tail, ¬ c.Begins) →
      (actionsOf i more).length ≤ (t.procs i).most) ∧
    ((t.procs i).Busy → ∃ c, (t.procs i).Awaits t.shared c) ∧
    ∀ c, (t.procs i).Awaits t.shared c → ∃ u, FlyDeskSystem.step t (.proc i c) = some u ∧
      (t.procs i).GoesOn t.shared c (u.procs i) := by
  have hlive := live_run h hs hfresh
  refine ⟨fun more u hmore hfresh' hone => ?_, Proc.exists_awaits, fun c hc => ?_⟩
  · have hall : ∀ p ∈ steps ++ more, FreshIds p.1 p.2 := fun p hp =>
      (List.mem_append.mp hp).elim (hfresh p) (hfresh' p)
    refine System.piece_le Proc.left Proc.most ProcChoice.grant
      (A := fun (u : FlyDeskSystem ι) (_ : FlyDeskMove ι) => Live u ∧
        (u.procs i).left ≤ (u.procs i).most) hmore (fun p hp => ⟨?_, ?_⟩) i
      (fun hu hf => Proc.left_step hu.1.outbox.shared hf)
      (fun hu hf => Proc.left_grant_le hu.2 hf)
      fun c hc => ProcChoice.grant_eq_zero (hone c hc)
    · exact live_mem (h.append hmore) hs hall p (List.mem_append_right _ hp)
    · obtain ⟨before, hpre, hbefore⟩ := hmore.prefix_of_mem hp
      refine left_le_run (h.append hbefore) hs (fun q hq => ?_) i
      rcases List.mem_append.mp hq with hq | hq
      · exact hfresh q hq
      · exact hfresh' q (hpre.subset (List.mem_append_left _ hq))
  · obtain ⟨w', p', hstep, hgoes⟩ := Proc.step_of_awaits hlive.outbox.shared
      (hlive.outbox.each i) (hlive.delivered i) (knowsKey_run h hs hfresh i) hc
    refine ⟨{ shared := w', procs := Function.update t.procs i p' }, ?_, by simpa using hgoes⟩
    show (Proc.step t.shared (t.procs i) c).map _ = _
    rw [hstep]
    rfl

/-- The call books, and the relay has begun a pass and published: it waits for the move
that ends its loop over the outbox. -/
theorem wait_free_desk :
    ∃ t u, exec FlyDeskSystem.step Sample.desk (Sample.books .caller "ord_1" "e1") = some t ∧
      exec FlyDeskSystem.step t [Sample.relayLoad .relay ["ord_1"], Sample.relayGo .relay,
        Sample.relayGo .relay] = some u ∧
      (actionsOf Sample.Role.relay (execSteps FlyDeskSystem.step t
        [Sample.relayLoad .relay ["ord_1"], Sample.relayGo .relay,
          Sample.relayGo .relay])).length ≤ (t.procs .relay).most ∧
      (t.procs .relay).most = 302 ∧ (u.procs .relay).Busy ∧
      ∃ c v, (u.procs .relay).Awaits u.shared c ∧
        FlyDeskSystem.step u (.proc .relay c) = some v ∧
        (u.procs .relay).GoesOn u.shared c (v.procs .relay) := by
  obtain ⟨t, ht, hidle, u, hu, order, done, todo, changed, rest, n, hpc⟩ :
      ∃ t, exec FlyDeskSystem.step Sample.desk (Sample.books .caller "ord_1" "e1") = some t ∧
        t.procs .relay = .relay (.idle none) ∧
        ∃ u, exec FlyDeskSystem.step t [Sample.relayLoad .relay ["ord_1"],
            Sample.relayGo .relay, Sample.relayGo .relay] = some u ∧
          ∃ order done todo changed rest n,
            u.procs .relay = .relay (.events order done todo changed rest n) :=
    ⟨_, rfl, rfl, _, rfl, _, _, _, _, _, _, rfl⟩
  have hbusy : (u.procs .relay).Busy := by
    rw [hpc]
    exact fun last => by simp
  have hmore := Trace.of_exec hu
  have hbooks : ∀ p ∈ execSteps FlyDeskSystem.step Sample.desk
      (Sample.books Sample.Role.caller "ord_1" "e1"), FreshIds p.1 p.2 := by decide
  have hrelay : ∀ p ∈ execSteps FlyDeskSystem.step t [Sample.relayLoad .relay ["ord_1"],
      Sample.relayGo .relay, Sample.relayGo .relay], FreshIds p.1 p.2 := by
    intro p hp
    have hm := mem_of_execSteps hp
    simp only [List.mem_cons, List.not_mem_nil, or_false] at hm
    rcases hm with hm | hm | hm <;> rw [hm] <;> trivial
  obtain ⟨hmoves, -, -⟩ := wait_free (Trace.of_exec ht) fresh_desk hbooks .relay
  obtain ⟨-, hwaits, hgoes⟩ := wait_free ((Trace.of_exec ht).append hmore) fresh_desk
    (fun p hp => (List.mem_append.mp hp).elim (hbooks p) (hrelay p)) .relay
  obtain ⟨c, hc⟩ := hwaits hbusy
  obtain ⟨v, hv, hon⟩ := hgoes c hc
  refine ⟨t, u, ht, hu, hmoves _ u hmore hrelay ?_, by rw [hidle]; rfl, hbusy, c, v, hc, hv, hon⟩
  -- only the first of these moves begins a pass
  rw [actionsOf_eq, map_snd_execSteps hu]
  intro c hc
  have hgo : c = .relay (.go Sample.now) := by simpa [Move.actionOf, Sample.relayLoad,
    Sample.relayGo] using hc
  rw [hgo]
  exact id

end FlyDeskSystem

end FlyDesk
