/-
FlyDesk/Bookings/Orphans.lean

An order the provider has returned, and what becomes of it.  While Redis
answers and reservations last, a call owns its key from the reservation to
the save: nobody else can be there, and no document is under the key.  So the
save of a keyed call goes through.

A call without a key writes a null key, and the unique sparse index holds
null keys too.  Its save goes through only while no stored document has one;
otherwise the order is lost: it is booked, the call raises, and no document
names it.  `noOrphan_iff` is the exact condition for a run, and
`second_unkeyed_orphaned` a run of two bookings that fails it.
-/
import FlyDesk.Bookings.Agreement

namespace FlyDesk

open Lib

/-! ### What a call saves -/

/-- The field an order is stored with: null where the call has no key. -/
def keyField (key : Option IdempotencyKey) : DocField String :=
  DocField.ofOption (key.map Subtype.val)

theorem Order.keyField_staged {o : Order} (ho : o.idempotencyKey = none)
    (key : Option IdempotencyKey) (uuid : String) (now : DateTime) :
    (o.staged key uuid now).modelDump.idempotencyKey = keyField key := by
  cases key with
  | none =>
      show DocField.ofOption o.idempotencyKey = _
      rw [ho]
      rfl
  | some k => rfl

/-- The call has not been given an order yet. -/
def BookingPc.Early : BookingPc → Prop
  | .start | .reserve | .findReserved | .prepare | .createOrder _ _ | .postOrder _ => True
  | _ => False

/-- The local variable `order` is set when the provider returns, and the order
a call saves carries the key of the call. -/
structure BookingFrame.Formed (f : BookingFrame) : Prop where
  early : f.pc.Early → f.order = none
  saving : ∀ st, f.pc = .save st →
    (∃ o, f.order = some o) ∧ st.modelDump.idempotencyKey = keyField f.call.key

variable {w w' : World} {f f' g : BookingFrame} {choice : BookingChoice}

/-- A step to an early point comes from an early point. -/
theorem BookingFrame.Steps.early (h : f.Steps w choice w' f') (he : f'.pc.Early) :
    f.pc.Early ∧ f'.order = f.order := by
  cases h with
  | startUnkeyed hpc | find hpc | reserved hpc | refused hpc | redisDown hpc
  | findReserved hpc | prepared hpc | offered hpc =>
      exact ⟨by simp [BookingPc.Early, hpc], rfl⟩
  | findWinner _ _ hf => cases hf <;> cases he
  | @stopped how => cases how <;> cases he
  | _ => cases he

theorem BookingFrame.Steps.formed (h : f.Steps w choice w' f') (hf : f.Formed) :
    f'.Formed where
  early := by
    intro he
    obtain ⟨he', ho⟩ := h.early he
    rw [ho]
    exact hf.early he'
  saving := by
    intro st hst
    cases h with
    | @booked ps data created reply uuid now _ _ =>
        obtain rfl := BookingPc.save.inj hst
        exact ⟨⟨_, rfl⟩, Order.keyField_staged rfl f.call.key uuid now.stagedAt⟩
    | find _ _ hf | findReserved _ _ hf | findWinner _ _ hf => cases hf <;> cases hst
    | @stopped how => cases how <;> cases hst
    | _ => cases hst

/-! ### Owning a key -/

/-- The points between the reservation and the save. -/
def BookingPc.Owning : BookingPc → Prop
  | .prepare | .createOrder _ _ | .postOrder _ | .save _ => True
  | _ => False

/-- The call owns the key `k`. -/
def BookingFrame.Owns (k : IdempotencyKey) (f : BookingFrame) : Prop :=
  f.call.key = some k ∧ f.pc.Owning

/-- A call comes to own a key by setting its reservation, while Redis
answers. -/
theorem BookingFrame.Steps.owns {k : IdempotencyKey} (h : f.Steps w choice w' f')
    (hup : ∀ executed, choice ≠ .redisError executed) (ho : f'.Owns k) :
    f.Owns k ∨ (f.pc = .reserve ∧ ¬ w.redis.Held k.redisKey ∧
      w' = { w with redis := w.redis.write k.redisKey reservationTtl }) := by
  obtain ⟨hk, how⟩ := ho
  rw [h.call_eq] at hk
  cases h with
  | startUnkeyed _ hkey => simp [hkey] at hk
  | @reserved key hpc hkey hfree =>
      obtain rfl := Option.some.inj (hkey.symm.trans hk)
      exact Or.inr ⟨hpc, hfree, rfl⟩
  | redisDown => exact absurd rfl (hup _)
  | prepared hpc | offered hpc | booked hpc =>
      exact Or.inl ⟨hk, by simp [BookingPc.Owning, hpc]⟩
  | find _ _ hf | findReserved _ _ hf | findWinner _ _ hf => cases hf <;> cases how
  | @stopped how' => cases how' <;> cases how
  | _ => cases how

/-- A reservation, once set, stays while a call takes a step. -/
theorem BookingFrame.Steps.held {k : IdempotencyKey} (h : f.Steps w choice w' f')
    (hup : ∀ executed, choice ≠ .redisError executed) (hheld : w.redis.Held k.redisKey) :
    w'.redis.Held k.redisKey := by
  cases h with
  | @reserved key _ _ hfree =>
      by_cases hk : k = key
      · subst hk
        exact absurd hheld hfree
      · exact Redis.Held.write hheld fun he => hk (IdempotencyKey.redisKey_inj.mp he)
  | redisDown => exact absurd rfl (hup _)
  | _ => exact hheld

/-! ### No orphans -/

/-- Whenever the provider has returned an order to the call, the call saves or
returns this order, and once it has saved it, the order is stored under its
id with one event, a `BookingConfirmed` that names it. -/
def BookingFrame.NoOrphan (w : World) (f : BookingFrame) : Prop :=
  ∀ o, f.order = some o → ∃ uuid now,
    f.pc = .save (o.staged f.call.key uuid now) ∨
    (f.pc = .saved (o.staged f.call.key uuid now) ∨
        f.pc = .returned (o.staged f.call.key uuid now)) ∧
      ∃ d ∈ w.orders.docs, d = (o.staged f.call.key uuid now).modelDump ∧ d.id = o.id ∧
        d.Booked

/-- The call is about to save. -/
def BookingPc.Saving : BookingPc → Prop
  | .save _ => True
  | _ => False

instance : DecidablePred BookingPc.Saving
  | .save _ => .isTrue trivial
  | .start | .reserve | .findReserved | .prepare | .createOrder _ _ | .postOrder _
  | .findWinner | .saved _ | .returned _ | .raised _ | .died => .isFalse id

/-- The condition at a step: a call without a key saves only while no stored
document has a null key. -/
def BookingFrame.Storable (w : World) (f : BookingFrame) : Prop :=
  f.pc.Saving → f.call.key = none → ∀ d ∈ w.orders.docs, d.idempotencyKey ≠ .null

instance (w : World) (f : BookingFrame) : Decidable (f.Storable w) :=
  inferInstanceAs (Decidable (_ → _ → _))

theorem BookingFrame.not_storable (h : ¬ f.Storable w) : ∃ st, f.pc = .save st ∧
    f.call.key = none ∧ ∃ d ∈ w.orders.docs, d.idempotencyKey = .null := by
  unfold BookingFrame.Storable at h
  push Not at h
  obtain ⟨hpc, hk, hnull⟩ := h
  cases hst : f.pc with
  | save st => exact ⟨st, rfl, hk, hnull⟩
  | _ =>
      rw [hst] at hpc
      cases hpc

theorem BookingFrame.NoOrphan.mono (hsub : w.orders.docs ⊆ w'.orders.docs)
    (h : f.NoOrphan w) : f.NoOrphan w' := by
  intro o ho
  obtain ⟨uuid, now, hpc | ⟨hpc, d, hd, hrest⟩⟩ := h o ho
  · exact ⟨uuid, now, Or.inl hpc⟩
  · exact ⟨uuid, now, Or.inr ⟨hpc, d, hsub hd, hrest⟩⟩

/-- A save fails exactly on a document with the same field under another
id. -/
theorem OrderRepository.save_eq_none {col : Collection OrderDoc} {o : Order} :
    OrderRepository.save col o = none ↔
      ∃ d ∈ col.docs, d.id ≠ o.id ∧ d.idempotencyKey ≠ .missing ∧
        d.idempotencyKey = o.modelDump.idempotencyKey :=
  Collection.replaceOne_eq_none

/-- The save of a call succeeds if the call owns its key alone, or has none
and finds no null key. -/
theorem BookingFrame.save_ne_none {st : Order} (hform : f.Formed) (hpc : f.pc = .save st)
    (howns : ∀ k, f.Owns k → ∀ d ∈ w.orders.docs, d.idempotencyKey ≠ .val k.val)
    (hstorable : f.Storable w) : OrderRepository.save w.orders st ≠ none := by
  intro hnone
  obtain ⟨d, hd, _, _, hkey⟩ := OrderRepository.save_eq_none.mp hnone
  rw [(hform.saving st hpc).2] at hkey
  rcases hk : f.call.key with - | k
  · -- no key: the other document has a null key
    rw [hk] at hkey
    exact hstorable (by simp [BookingPc.Saving, hpc]) hk d hd hkey
  · rw [hk] at hkey
    exact howns k ⟨hk, by simp [BookingPc.Owning, hpc]⟩ d hd hkey

/-- One step keeps the order of the call, if its save cannot fail and it is
not stopped. -/
theorem BookingFrame.Steps.noOrphan (h : f.Steps w choice w' f') (hform : f.Formed)
    (hflight : f.InFlight w) (hno : f.NoOrphan w)
    (hsave : ∀ st, f.pc = .save st → OrderRepository.save w.orders st ≠ none)
    (hstop : ∀ how, choice = .stop how → f.order = none) : f'.NoOrphan w' := by
  -- a call that had no order before and has none now
  have hnone : f.order = none → f'.order = f.order → f'.NoOrphan w' := by
    intro h₀ he o ho
    rw [he, h₀] at ho
    cases ho
  have hearly : f.pc.Early → f'.order = f.order → f'.NoOrphan w' :=
    fun he => hnone (hform.early he)
  cases h with
  | startUnkeyed hpc | find hpc | reserved hpc | refused hpc | redisDown hpc
  | findReserved hpc | prepared hpc | unprepared hpc | offered hpc | unoffered hpc
  | unbooked hpc => exact hearly (by simp [BookingPc.Early, hpc]) rfl
  | @booked ps data created reply uuid now hpc _ =>
      intro o ho
      obtain rfl := Option.some.inj ho
      exact ⟨uuid, now.stagedAt, Or.inl rfl⟩
  | @stored st orders hpc hst =>
      intro o ho
      obtain ⟨uuid, now, hsv | ⟨hsv | hsv, _⟩⟩ := hno o ho
      · obtain rfl := BookingPc.save.inj (hpc.symm.trans hsv)
        refine ⟨uuid, now, Or.inr ⟨Or.inl rfl, _, ?_, rfl, rfl, Order.staged_booked⟩⟩
        exact (OrderRepository.mem_save_fresh hst (hflight _ hpc).2).mpr (Or.inl rfl)
      · simp [hpc] at hsv
      · simp [hpc] at hsv
  | lost hpc hst => exact absurd hst (hsave _ hpc)
  | orphaned hpc hst => exact absurd hst (hsave _ hpc)
  | findWinner hpc =>
      refine hnone (Option.eq_none_iff_forall_ne_some.mpr fun o ho => ?_) rfl
      obtain ⟨uuid, now, hsv | ⟨hsv | hsv, _⟩⟩ := hno o ho <;> simp [hpc] at hsv
  | @finished st hpc =>
      intro o ho
      obtain ⟨uuid, now, hsv | ⟨hsv | hsv, hdoc⟩⟩ := hno o ho
      · simp [hpc] at hsv
      · obtain rfl := BookingPc.saved.inj (hpc.symm.trans hsv)
        exact ⟨uuid, now, Or.inr ⟨Or.inr rfl, hdoc⟩⟩
      · simp [hpc] at hsv
  | @stopped how => exact hnone (hstop how rfl) rfl

/-! ### The invariant -/

/-- What a call knows while Redis answers and reservations last. -/
structure BookingFrame.Settled (w : World) (f : BookingFrame) : Prop where
  formed : f.Formed
  inFlight : f.InFlight w
  noOrphan : f.NoOrphan w
  reserving : ∀ k, f.call.key = some k → f.pc = .reserve →
    (∃ d ∈ w.orders.docs, d.idempotencyKey = .val k.val) → w.redis.Held k.redisKey
  owning : ∀ k, f.Owns k → w.redis.Held k.redisKey ∧
    ∀ d ∈ w.orders.docs, d.idempotencyKey ≠ .val k.val

/-- Two calls save different orders and own different keys. -/
def BookingFrame.Disjoint (f g : BookingFrame) : Prop :=
  f.Apart g ∧ ∀ k, ¬ (f.Owns k ∧ g.Owns k)

/-- A call comes to the reservation by not finding its key. -/
theorem BookingFrame.Steps.to_reserve {k : IdempotencyKey} (h : f.Steps w choice w' f')
    (hpc : f'.pc = .reserve) (hk : f.call.key = some k) :
    w' = w ∧ ∀ d ∈ w.orders.docs, d.idempotencyKey ≠ .val k.val := by
  cases h with
  | @find key _ _ hkey hf =>
      obtain rfl := Option.some.inj (hkey.symm.trans hk)
      cases hf with
      | absent hno => exact ⟨rfl, hno⟩
      | found => cases hpc
      | unreadable => cases hpc
  | findReserved _ _ hf | findWinner _ _ hf => cases hf <;> cases hpc
  | @stopped how => cases how <;> cases hpc
  | _ => cases hpc

/-- A document a step adds under a key is saved by the owner of the key. -/
theorem BookingFrame.Steps.owns_of_new {k : IdempotencyKey} (h : f.Steps w choice w' f')
    (hform : f.Formed) (hflight : f.InFlight w) {d : OrderDoc} (hd : d ∈ w'.orders.docs)
    (hk : d.idempotencyKey = .val k.val) : d ∈ w.orders.docs ∨ f.Owns k := by
  rcases h.orders with ⟨heq, _⟩ | ⟨o, hpc, _, hsave, _⟩
  · exact Or.inl (heq ▸ hd)
  · rcases (OrderRepository.mem_save_fresh hsave (hflight o hpc).2).mp hd with rfl | hd
    · right
      rw [(hform.saving o hpc).2] at hk
      refine ⟨?_, by simp [BookingPc.Owning, hpc]⟩
      rcases hkey : f.call.key with - | k'
      · rw [hkey] at hk
        cases hk
      · rw [hkey] at hk
        exact congrArg some (Subtype.ext (DocField.val.inj hk))
    · exact Or.inl hd

theorem BookingFrame.Settled.own (h : f.Steps w choice w' f') (hS : f.Settled w)
    (hfresh : FreshOrder w choice) (hup : ∀ executed, choice ≠ .redisError executed)
    (hstop : ∀ how, choice = .stop how → f.order = none) (hstorable : f.Storable w) :
    f'.Settled w' where
  formed := h.formed hS.formed
  inFlight := h.inFlight hfresh
  noOrphan := by
    refine h.noOrphan hS.formed hS.inFlight hS.noOrphan (fun st hpc => ?_) hstop
    exact BookingFrame.save_ne_none hS.formed hpc (fun k ho => (hS.owning k ho).2) hstorable
  reserving := by
    intro k hk hpc hdoc
    rw [h.call_eq] at hk
    obtain ⟨rfl, hno⟩ := h.to_reserve hpc hk
    obtain ⟨d, hd, hdk⟩ := hdoc
    exact absurd hdk (hno d hd)
  owning := by
    intro k ho
    rcases h.owns hup ho with hown | ⟨hpc, hfree, rfl⟩
    · obtain ⟨hheld, hno⟩ := hS.owning k hown
      refine ⟨h.held hup hheld, ?_⟩
      rcases h.orders with ⟨heq, _⟩ | ⟨o, _, hsaved, _⟩
      · rwa [heq]
      · -- after a save the key is no longer owned
        have := ho.2
        simp [hsaved, BookingPc.Owning] at this
    · refine ⟨Redis.held_write (by decide), fun d hd hdk => hfree ?_⟩
      have hk : f.call.key = some k := h.call_eq ▸ ho.1
      exact hS.reserving k hk hpc ⟨d, hd, hdk⟩

theorem BookingFrame.Settled.other (h : f.Steps w choice w' f') (hS : f.Settled w)
    (hT : g.Settled w) (hfg : f.Disjoint g)
    (hup : ∀ executed, choice ≠ .redisError executed) : g.Settled w' where
  formed := hT.formed
  inFlight := h.inFlight_other hS.inFlight hT.inFlight hfg.1
  noOrphan := hT.noOrphan.mono (h.docs_subset hS.inFlight)
  reserving := by
    rintro k hk hpc ⟨d, hd, hdk⟩
    rcases h.owns_of_new hS.formed hS.inFlight hd hdk with hold | hown
    · exact h.held hup (hT.reserving k hk hpc ⟨d, hold, hdk⟩)
    · exact h.held hup (hS.owning k hown).1
  owning := by
    intro k ho
    obtain ⟨hheld, hno⟩ := hT.owning k ho
    refine ⟨h.held hup hheld, fun d hd hdk => ?_⟩
    rcases h.owns_of_new hS.formed hS.inFlight hd hdk with hold | hown
    · exact hno d hold hdk
    · exact hfg.2 k ⟨hown, ho⟩

theorem BookingFrame.Disjoint.step (h : f.Steps w choice w' f') (hT : g.Settled w)
    (hfg : f.Disjoint g) (hfresh : FreshOrder w choice)
    (hup : ∀ executed, choice ≠ .redisError executed) : f'.Disjoint g := by
  refine ⟨h.apart hfresh hT.inFlight, fun k hboth => ?_⟩
  rcases h.owns hup hboth.1 with hown | ⟨_, hfree, _⟩
  · exact hfg.2 k ⟨hown, hboth.2⟩
  · exact hfree (hT.owning k hboth.2).1

namespace Bookings

variable {ι : Type*}

/-- Nothing goes wrong but in the database: Redis answers, no reservation runs
out, the ids of new orders are fresh, and no call stops once the provider
has returned an order to it. -/
def Undisturbed (s : Bookings ι) : BookingMove ι → Prop
  | .proc _ (.redisError _) => False
  | .proc i (.stop _) => (s.procs i).order = none
  | .proc _ choice => FreshOrder s.shared choice
  | .env seconds => ∀ k : IdempotencyKey,
      s.shared.redis.Held k.redisKey → (s.shared.redis.wait seconds).Held k.redisKey

/-- The condition at a step of the run. -/
def Storable (s : Bookings ι) : BookingMove ι → Prop
  | .proc i _ => (s.procs i).Storable s.shared
  | .env _ => True

/-- No order the provider has returned is lost in this state. -/
def NoOrphan (s : Bookings ι) : Prop :=
  ∀ i, (s.procs i).NoOrphan s.shared

theorem Undisturbed.of_proc {s : Bookings ι} {i : ι} {c : BookingChoice}
    (h : Undisturbed s (.proc i c)) : FreshOrder s.shared c ∧
      (∀ executed, c ≠ .redisError executed) ∧
        ∀ how, c = .stop how → (s.procs i).order = none := by
  cases c with
  | redisError => cases h
  | stop how => exact ⟨trivial, by simp, fun _ _ => h⟩
  | go => exact ⟨h, by simp, by simp⟩
  | offerReply => exact ⟨h, by simp, by simp⟩
  | orderReply => exact ⟨h, by simp, by simp⟩

theorem Undisturbed.freshIds {s : Bookings ι} {m : BookingMove ι} (h : Undisturbed s m) :
    FreshIds s m := by
  cases m with
  | proc i c => exact (Undisturbed.of_proc h).1
  | env => trivial

/-- The assertions behind `noOrphan_iff`. -/
def settled : Assertions World BookingFrame where
  shared _ := True
  each w f := f.Settled w
  pair := BookingFrame.Disjoint

theorem settled_stable [DecidableEq ι] :
    settled.Stable BookingFrame.step World.tick
      (fun (s : Bookings ι) m => Undisturbed s m ∧ Storable s m) where
  symm := by
    rintro f g ⟨hapart, howns⟩
    exact ⟨fun o o' ho ho' he => hapart o' o ho' ho he.symm,
      fun k hk => howns k ⟨hk.2, hk.1⟩⟩
  own := by
    intro s i c w' f' hA hok hf
    obtain ⟨hfresh, hup, hstop⟩ := Undisturbed.of_proc hok.1
    have h := BookingFrame.steps_of_step hf
    exact ⟨trivial, (hA.each i).own h hfresh hup hstop hok.2⟩
  other := by
    intro s i j c w' f' hA hok hf hij
    obtain ⟨hfresh, hup, _⟩ := Undisturbed.of_proc hok.1
    have h := BookingFrame.steps_of_step hf
    have hdis := hA.pair i j hij
    exact ⟨(hA.each i).other h (hA.each j) hdis hup, hdis.step h (hA.each j) hfresh hup⟩
  env := by
    intro s seconds w' hA hok hg
    obtain rfl := Option.some.inj hg
    refine ⟨trivial, fun i => ?_⟩
    obtain ⟨hform, hflight, hno, hres, howns⟩ := hA.each i
    refine ⟨hform, hflight, hno, fun k hk hpc hd => hok.1 k (hres k hk hpc hd), ?_⟩
    exact fun k ho => ⟨hok.1 k (howns k ho).1, (howns k ho).2⟩

theorem settled_initial {s : Bookings ι} (hs : s.Initial) : settled.Hold s := by
  have hinit : ∀ i, (s.procs i).pc = .start ∧ (s.procs i).order = none := by
    intro i
    obtain ⟨call, hcall⟩ := hs.init i
    rw [hcall]
    exact ⟨rfl, rfl⟩
  have hnot : ∀ i k, ¬ (s.procs i).Owns k := by
    rintro i k ⟨_, ho⟩
    rw [(hinit i).1] at ho
    cases ho
  refine ⟨trivial, fun i => ⟨⟨fun _ => (hinit i).2, ?_⟩, ?_, ?_, ?_, ?_⟩, ?_⟩
  · intro st hst
    simp [(hinit i).1] at hst
  · intro o ho
    simp [(hinit i).1] at ho
  · intro o ho
    simp [(hinit i).2] at ho
  · intro k _ hpc
    simp [(hinit i).1] at hpc
  · exact fun k ho => absurd ho (hnot i k)
  · refine fun i j _ => ⟨fun o o' ho => ?_, fun k hk => hnot i k hk.1⟩
    simp [(hinit i).1] at ho

variable [DecidableEq ι] {s t : Bookings ι} {steps : List (Bookings ι × BookingMove ι)}

/-- A step of an unkeyed call that finds a null key at its save orphans its
order. -/
theorem orphaned_of_not_storable (hw : f.Steps w choice w' f') (hform : f.Formed)
    (hflight : f.InFlight w) (hstop : ∀ how, choice = .stop how → f.order = none)
    (hnot : ¬ f.Storable w) : ¬ f'.NoOrphan w' := by
  obtain ⟨st, hpc, hk, d, hd, hnull⟩ := BookingFrame.not_storable hnot
  obtain ⟨⟨o, ho⟩, hkey⟩ := hform.saving st hpc
  have hnone : OrderRepository.save w.orders st = none := by
    refine OrderRepository.save_eq_none.mpr ⟨d, hd, (hflight st hpc).2 d hd, ?_, ?_⟩
    · simp [hnull]
    · rw [hkey, hk, hnull]
      rfl
  intro hno
  have hstep : f'.order = f.order ∧ f'.pc = .raised .duplicateKeyError := by
    cases hw with
    | orphaned => exact ⟨rfl, rfl⟩
    | stopped => simp [hstop _ rfl] at ho
    | lost _ _ hkey => simp [hk] at hkey
    | stored hpc' hsave =>
        obtain rfl := BookingPc.save.inj (hpc.symm.trans hpc')
        simp [hnone] at hsave
    | _ => simp_all
  obtain ⟨uuid, now, hpc' | ⟨hpc' | hpc', _⟩⟩ := hno o (hstep.1.trans ho) <;>
    simp [hstep.2] at hpc'

/-- **When no order is lost.**  In an undisturbed run of any mixture of keyed
and unkeyed calls, every order the provider returns is kept in every state
exactly if no call without a key comes to save while a stored document has a
null key. -/
theorem noOrphan_iff (h : Trace Bookings.step s steps t) (hs : s.Initial)
    (hok : ∀ p ∈ steps, Undisturbed p.1 p.2) :
    ((∀ p ∈ steps, NoOrphan p.1) ∧ NoOrphan t) ↔ ∀ p ∈ steps, Storable p.1 p.2 := by
  constructor
  · rintro ⟨hall, hlast⟩ ⟨u, m⟩ hp
    obtain ⟨before, hpre, hbefore⟩ := h.prefix_of_mem hp
    cases m with
    | env => trivial
    | proc i c =>
      by_contra hnot
      obtain ⟨v, hv, hin⟩ := h.next_of_mem hp
      -- the next state is a state of the run too
      have hnext : NoOrphan v := by
        rcases hin with rfl | ⟨q, hq, rfl⟩
        · exact hlast
        · exact hall q hq
      have hformed : (u.procs i).Formed := by
        refine System.each_of_run hbefore (fun j => ?_)
          (fun hf => (BookingFrame.steps_of_step hf).formed) i
        exact ((settled_initial hs).each j).formed
      have hfresh : ∀ q ∈ steps, FreshIds q.1 q.2 := fun q hq => (hok q hq).freshIds
      have hagree := agreement_stable.run_mem h hfresh (agreement_initial hs) _ hp
      obtain ⟨w', f', hf, rfl⟩ := System.step_proc hv
      refine orphaned_of_not_storable (BookingFrame.steps_of_step hf) hformed
        (hagree.each i).inFlight (Undisturbed.of_proc (hok _ hp)).2.2 hnot ?_
      have := hnext i
      simpa using this
  · intro hst
    have hboth : ∀ p ∈ steps, Undisturbed p.1 p.2 ∧ Storable p.1 p.2 :=
      fun p hp => ⟨hok p hp, hst p hp⟩
    have h₀ := settled_initial hs
    refine ⟨fun p hp i => ?_, fun i => ?_⟩
    · exact ((settled_stable.run_mem h hboth h₀ p hp).each i).noOrphan
    · exact ((settled_stable.run h hboth h₀).each i).noOrphan

/-! ### Two bookings without a key -/

/-- An undisturbed step of a call, which can be decided. -/
def UndisturbedCall (s : Bookings ι) : BookingMove ι → Prop
  | .proc _ (.redisError _) => False
  | .proc i (.stop _) => (s.procs i).order = none
  | .proc _ choice => FreshOrder s.shared choice
  | .env _ => False

omit [DecidableEq ι] in
theorem UndisturbedCall.undisturbed {m : BookingMove ι} (h : UndisturbedCall s m) :
    Undisturbed s m := by
  cases m with
  | proc i c => cases c <;> exact h
  | env => cases h

instance (s : Bookings ι) : DecidablePred (UndisturbedCall s)
  | .proc _ (.redisError _) | .env _ => .isFalse id
  | .proc i (.stop _) => inferInstanceAs (Decidable ((s.procs i).order = none))
  | .proc _ .go | .proc _ (.offerReply _) => .isTrue trivial
  | .proc _ (.orderReply created reply uuid now) =>
    inferInstanceAs (Decidable (FreshOrder s.shared (.orderReply created reply uuid now)))

instance (s : Bookings ι) : DecidablePred (Storable s)
  | .proc i _ => inferInstanceAs (Decidable ((s.procs i).Storable s.shared))
  | .env _ => .isTrue trivial

/-- One process books from its first step to its last. -/
def book (i : ι) (id uuid : String) : List (BookingMove ι) :=
  [.proc i .go, .proc i .go, .proc i Sample.offer, .proc i (Sample.created id uuid),
    .proc i .go]

/-- The second of two bookings without a key raises `DuplicateKeyError` with
its order booked and not stored. -/
theorem second_unkeyed_orphaned :
    let s := Sample.bookings fun _ : Sample.Caller => Sample.call none
    let run := book .first "ord_1" "e1" ++ book .second "ord_2" "e2"
    ∃ t, exec Bookings.step s run = some t ∧
      (∀ p ∈ execSteps Bookings.step s run, Undisturbed p.1 p.2) ∧
      (t.procs .second).order.map Order.id = some "ord_2" ∧
      (t.procs .second).pc.raised? = some .duplicateKeyError ∧
      (∀ d ∈ t.shared.orders.docs, d.id ≠ "ord_2") ∧ ¬ NoOrphan t := by
  intro s run
  obtain ⟨t, ht, hid, hraised, hdocs⟩ := exec_any (P := fun t : Bookings Sample.Caller =>
    (t.procs .second).order.map Order.id = some "ord_2" ∧
      (t.procs .second).pc.raised? = some .duplicateKeyError ∧
      ∀ d ∈ t.shared.orders.docs, d.id ≠ "ord_2")
    (by decide : (exec Bookings.step s run).any _ = true)
  have hok : ∀ p ∈ execSteps Bookings.step s run, UndisturbedCall p.1 p.2 := by decide
  refine ⟨t, ht, fun p hp => (hok p hp).undisturbed, hid, hraised, hdocs, fun hno => ?_⟩
  obtain ⟨o, ho, hoid⟩ := Option.map_eq_some_iff.mp hid
  obtain ⟨uuid, now, hpc | ⟨_, d, hd, _, hdid, _⟩⟩ := hno .second o ho
  · simp [hpc, BookingPc.raised?] at hraised
  · exact hdocs d hd (hdid.trans hoid)

/-- A keyed and an unkeyed booking side by side. -/
theorem noOrphan_iff_mixed :
    let s := Sample.bookings fun i : Sample.Caller =>
      Sample.call (if i = .first then none else some "k1")
    let run := book .first "ord_1" "e1" ++ [.proc .second .go] ++ book .second "ord_2" "e2"
    ∃ t, exec Bookings.step s run = some t ∧ NoOrphan t := by
  intro s run
  obtain ⟨t, ht, -⟩ := exec_any
    (P := fun t : Bookings Sample.Caller => (t.procs .second).order.isSome)
    (by decide : (exec Bookings.step s run).any _ = true)
  have hok : ∀ p ∈ execSteps Bookings.step s run, UndisturbedCall p.1 p.2 := by decide
  refine ⟨t, ht, ?_⟩
  exact ((noOrphan_iff (Trace.of_exec ht) (Sample.initial_bookings _)
    fun p hp => (hok p hp).undisturbed).mpr (by decide)).2

end Bookings

end FlyDesk
