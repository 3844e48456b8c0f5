/-
FlyDesk/Common/Backoff.lean

`retry_async`: bounded retries with exponential backoff and jitter.

What the awaited function does and what the random generator draws are
streams; the loop consumes one outcome an invocation and one draw a sleep, and
keeps in order what it did (`RetryAct`).  Its four exits are one statement,
`RetryOptions.loop_spec`, by induction over the rest of the range:

* `EndsAt` — the invocation that ends the loop: the first whose outcome is not
  to be retried, or the last there can be;
* `spaced` — an invocation, and after every sleep another.

Exceptions are of any type here; `RetryOptions.loop_eq_retryStep` says that a
turn of the loop is `retryStep` where they are `Exn`.
-/
import FlyDesk.Common.Resilience
import Mathlib.Algebra.Order.BigOperators.Group.List
import Mathlib.Data.Stream.Init
import Mathlib.Tactic.Linarith
import Mathlib.Tactic.Ring

namespace FlyDesk

variable {E T : Type}

/-! ### The loop -/

/-- The keyword arguments of `retry_async`; delays are seconds. -/
structure RetryOptions (E : Type) where
  attempts : ℕ
  baseDelay : ℚ
  maxDelay : ℚ
  retryOn : E → Bool

/-- The defaults; `retry_on=(Exception,)`. -/
def RetryOptions.default : RetryOptions Exn where
  attempts := 2
  baseDelay := 1 / 10
  maxDelay := 2
  retryOn := Exn.isException

/-- What `retry_async` does to the world. -/
inductive RetryAct
  | invoke
  | sleep (delay : ℚ)
deriving DecidableEq

/-- How `retry_async` ends. -/
inductive RetryResult (E T : Type)
  | returns (x : T)
  | raises (e : E)
  /-- `assert last_exc is not None`: the loop had no turn. -/
  | assertionError

def RetryResult.ofOutcome : Except E T → RetryResult E T
  | .ok x => .returns x
  | .error e => .raises e

theorem RetryResult.ofOutcome_injective {r r' : Except E T} (h : ofOutcome r = ofOutcome r') :
    r = r' := by
  cases r <;> cases r' <;> cases h <;> rfl

/-- A run of `retry_async`: its acts in order, and its end. -/
structure RetryRun (E T : Type) where
  acts : List RetryAct
  result : RetryResult E T

/-- The same run after these acts. -/
def RetryRun.after (acts : List RetryAct) (run : RetryRun E T) : RetryRun E T :=
  { run with acts := acts ++ run.acts }

/-- `min(max_delay, base_delay * (2**i))`. -/
def RetryOptions.cap (o : RetryOptions E) (i : ℕ) : ℚ := min o.maxDelay (o.baseDelay * 2 ^ i)

/-- The loop over what is left of `range(attempts)`, and the two lines after it. -/
def RetryOptions.loop (o : RetryOptions E) : List ℕ → Option E → Stream' (Except E T) →
    Stream' ℚ → RetryRun E T
  | [], none, _, _ => ⟨[], .assertionError⟩
  | [], some lastExc, _, _ => ⟨[], .raises lastExc⟩
  | i :: rest, _, outcomes, random =>
    match outcomes.head with
    | .ok x => ⟨[.invoke], .returns x⟩
    | .error e =>
      if o.retryOn e then
        if i + 1 = o.attempts then ⟨[.invoke], .raises e⟩
        else
          let delay := o.cap i * (1 / 2 + random.head)
          (o.loop rest (some e) outcomes.tail random.tail).after [.invoke, .sleep delay]
      else ⟨[.invoke], .raises e⟩

/-- `retry_async`. -/
def RetryOptions.retryAsync (o : RetryOptions E) (outcomes : Stream' (Except E T))
    (random : Stream' ℚ) : RetryRun E T :=
  o.loop (List.range o.attempts) none outcomes random

variable {o : RetryOptions E} {outcomes : Stream' (Except E T)} {random : Stream' ℚ} {i n k : ℕ}

/-- A turn of the loop is `retryStep`. -/
theorem RetryOptions.loop_eq_retryStep {o : RetryOptions Exn} (rest : List ℕ) (last : Option Exn)
    (outcomes : Stream' (Except Exn T)) (random : Stream' ℚ) :
    o.loop (i :: rest) last outcomes random
      = match retryStep o.attempts o.retryOn i outcomes.head with
        | .ends r => ⟨[.invoke], .ofOutcome r⟩
        | .again =>
          match outcomes.head with
          | .ok x => ⟨[.invoke], .returns x⟩
          | .error e => (o.loop rest (some e) outcomes.tail random.tail).after
              [.invoke, .sleep (o.cap i * (1 / 2 + random.head))] := by
  rcases ho : outcomes.head with e | x
  · by_cases he : o.retryOn e <;> by_cases hi : i + 1 = o.attempts <;>
      simp [loop, retryStep, ho, he, hi, RetryResult.ofOutcome]
  · simp [loop, retryStep, ho, RetryResult.ofOutcome]

/-! ### Where it ends -/

/-- The loop goes on after this outcome, the bound apart. -/
def RetryOptions.Retried (o : RetryOptions E) (r : Except E T) : Prop :=
  ∃ e, r = .error e ∧ o.retryOn e = true

@[simp] theorem RetryOptions.retried_error {e : E} :
    o.Retried (.error e : Except E T) ↔ o.retryOn e = true := by
  simp [Retried]

@[simp] theorem RetryOptions.not_retried_ok {x : T} : ¬ o.Retried (.ok x : Except E T) := by
  simp [Retried]

/-- Of at most `n` invocations, the `k`-th is the last: the first with an
outcome that is not retried, or the `n`-th where there is none before it. -/
structure RetryOptions.EndsAt (o : RetryOptions E) (outcomes : Stream' (Except E T))
    (n k : ℕ) : Prop where
  pos : 1 ≤ k
  le : k ≤ n
  before : ∀ j, j + 1 < k → o.Retried (outcomes.get j)
  here : k = n ∨ ¬ o.Retried (outcomes.get (k - 1))

theorem RetryOptions.EndsAt.first (hn : 1 ≤ n) (h : n = 1 ∨ ¬ o.Retried outcomes.head) :
    o.EndsAt outcomes n 1 where
  pos := le_rfl
  le := hn
  before j hj := absurd hj (by omega)
  here := h.imp Eq.symm id

theorem RetryOptions.EndsAt.next (h0 : o.Retried outcomes.head)
    (h : o.EndsAt outcomes.tail n k) : o.EndsAt outcomes (n + 1) (k + 1) where
  pos := by omega
  le := Nat.succ_le_succ h.le
  before j hj := by
    rcases j with - | j
    · exact h0
    · exact h.before j (by omega)
  here := by
    obtain ⟨k, rfl⟩ : ∃ k', k = k' + 1 := ⟨k - 1, by have := h.pos; omega⟩
    exact h.here.imp (congrArg (· + 1)) id

/-- There is one such invocation. -/
theorem RetryOptions.EndsAt.unique {k' : ℕ} (h : o.EndsAt outcomes n k)
    (h' : o.EndsAt outcomes n k') : k = k' := by
  have key : ∀ {a b : ℕ}, o.EndsAt outcomes n a → o.EndsAt outcomes n b → b ≤ a := by
    intro a b ha hb
    by_contra hab
    rcases ha.here with rfl | hstop
    · exact hab hb.le
    · exact hstop (hb.before (a - 1) (by have := ha.pos; omega))
  exact le_antisymm (key h' h) (key h h')

/-- An invocation, and after every sleep another. -/
def spaced : List ℚ → List RetryAct
  | [] => [.invoke]
  | d :: ds => [.invoke, .sleep d] ++ spaced ds

/-- The invocations of a run. -/
def RetryRun.calls (run : RetryRun E T) : ℕ := run.acts.countP (· matches .invoke)

/-- Its sleeps, in order. -/
def RetryRun.sleeps (run : RetryRun E T) : List ℚ :=
  run.acts.filterMap fun
    | .invoke => none
    | .sleep d => some d

theorem count_invoke_spaced (ds : List ℚ) :
    (spaced ds).countP (· matches .invoke) = ds.length + 1 := by
  induction ds with
  | nil => rfl
  | cons d ds ih => simp [spaced, ih]

theorem sleeps_spaced (ds : List ℚ) (r : RetryResult E T) :
    (RetryRun.mk (spaced ds) r).sleeps = ds := by
  induction ds with
  | nil => rfl
  | cons d ds ih =>
      show d :: (RetryRun.mk (spaced ds) r).sleeps = d :: ds
      rw [ih]

/-- The delays of a loop from turn `i` on, `m` of them. -/
def RetryOptions.delays (o : RetryOptions E) (i m : ℕ) (random : Stream' ℚ) : List ℚ :=
  (List.range m).map fun j => o.cap (i + j) * (1 / 2 + random.get j)

theorem RetryOptions.delays_succ (m : ℕ) :
    o.delays i (m + 1) random
      = o.cap i * (1 / 2 + random.head) :: o.delays (i + 1) m random.tail := by
  simp only [delays, List.range_succ_eq_map, List.map_cons, List.map_map]
  refine congrArg₂ List.cons rfl (List.map_congr_left fun j _ => ?_)
  show o.cap (i + (j + 1)) * _ = o.cap (i + 1 + j) * _
  rw [Nat.add_assoc i 1 j, Nat.add_comm 1 j]
  rfl

/-- **The four exits of the loop**, with `n` turns left. -/
theorem RetryOptions.loop_spec (hn : 1 ≤ n) (hi : i + n = o.attempts) (last : Option E)
    (outcomes : Stream' (Except E T)) (random : Stream' ℚ) :
    ∃ k, o.EndsAt outcomes n k ∧
      o.loop (List.range' i n) last outcomes random
        = ⟨spaced (o.delays i (k - 1) random), .ofOutcome (outcomes.get (k - 1))⟩ := by
  induction n generalizing i last outcomes random with
  | zero => exact absurd hn (by omega)
  | succ m ih =>
      rw [List.range'_succ]
      rcases ho : outcomes.head with e | x
      · by_cases he : o.retryOn e
        · have h0 : o.Retried outcomes.head := by simpa [ho] using he
          by_cases hlast : i + 1 = o.attempts
          · -- the bound: no sleep after the last invocation
            refine ⟨1, .first hn (Or.inl (by omega)), ?_⟩
            show _ = RetryRun.mk [.invoke] (.ofOutcome outcomes.head)
            simp [loop, ho, he, hlast, RetryResult.ofOutcome]
          · obtain ⟨k, hk, hloop⟩ :=
              ih (i := i + 1) (by omega) (by omega) (some e) outcomes.tail random.tail
            refine ⟨k + 1, .next h0 hk, ?_⟩
            obtain ⟨k, rfl⟩ : ∃ k', k = k' + 1 := ⟨k - 1, by have := hk.pos; omega⟩
            simp only [loop, ho, he, if_true, if_neg hlast, hloop, RetryRun.after,
              Nat.add_sub_cancel, delays_succ, spaced]
            rfl
        · -- an exception outside `retry_on`
          have h0 : ¬ o.Retried outcomes.head := by simpa [ho] using he
          refine ⟨1, .first hn (Or.inr h0), ?_⟩
          show _ = RetryRun.mk [.invoke] (.ofOutcome outcomes.head)
          simp [loop, ho, he, RetryResult.ofOutcome]
      · -- a success
        have h0 : ¬ o.Retried outcomes.head := by simp [ho]
        refine ⟨1, .first hn (Or.inr h0), ?_⟩
        show _ = RetryRun.mk [.invoke] (.ofOutcome outcomes.head)
        simp [loop, ho, RetryResult.ofOutcome]

/-! ### How long it waits -/

theorem RetryOptions.cap_nonneg (hb : 0 ≤ o.baseDelay) (hm : 0 ≤ o.maxDelay) (i : ℕ) :
    0 ≤ o.cap i :=
  le_min hm (mul_nonneg hb (by positivity))

theorem RetryOptions.cap_le (o : RetryOptions E) (i : ℕ) : o.cap i ≤ o.maxDelay := min_le_left _ _

/-- A sleep: the draw is in `[0, 1)`. -/
theorem RetryOptions.delay_bounds {c r : ℚ} (hc : 0 ≤ c) (hr : 0 ≤ r ∧ r < 1) :
    1 / 2 * c ≤ c * (1 / 2 + r) ∧ c * (1 / 2 + r) ≤ 3 / 2 * c := by
  have hlow : 0 ≤ c * r := mul_nonneg hc hr.1
  have hhigh : c * r ≤ c * 1 := mul_le_mul_of_nonneg_left hr.2.le hc
  constructor <;> linarith

/-- Below the largest delay and a half. -/
theorem RetryOptions.delay_lt {c m r : ℚ} (hcm : c ≤ m) (hm : 0 < m)
    (hr : 0 ≤ r ∧ r < 1) : c * (1 / 2 + r) < 3 / 2 * m :=
  calc c * (1 / 2 + r) ≤ m * (1 / 2 + r) :=
        mul_le_mul_of_nonneg_right hcm (by linarith [hr.1])
    _ < m * (3 / 2) := mul_lt_mul_of_pos_left (by linarith [hr.2]) hm
    _ = 3 / 2 * m := mul_comm _ _

theorem sum_lt_length_mul {c : ℚ} {ds : List ℚ} (hne : ds ≠ []) (h : ∀ d ∈ ds, d < c) :
    ds.sum < ds.length * c := by
  have hsum := List.sum_lt_sum_of_ne_nil hne id (fun _ => c) h
  rwa [List.map_id, List.map_const', List.sum_replicate, nsmul_eq_mul] at hsum

/-- The time a run waits, `m` sleeps at most. -/
theorem RetryOptions.sum_delays_lt {m : ℕ} (hmax : 0 < o.maxDelay)
    (hr : ∀ j, 0 ≤ random.get j ∧ random.get j < 1) (hk : k ≤ m) (hpos : 0 < m) :
    (o.delays 0 k random).sum < 3 / 2 * m * o.maxDelay := by
  have hlt : ∀ d ∈ o.delays 0 k random, d < 3 / 2 * o.maxDelay := by
    intro d hd
    obtain ⟨j, -, rfl⟩ := List.mem_map.mp hd
    exact delay_lt (o.cap_le _) hmax (hr j)
  have hlen : (o.delays 0 k random).length = k := by simp [delays]
  rcases eq_or_ne (o.delays 0 k random) [] with hnil | hne
  · have hm : (0 : ℚ) < m := Nat.cast_pos.mpr hpos
    rw [hnil, List.sum_nil]
    positivity
  · have hkm : (k : ℚ) ≤ m := Nat.cast_le.mpr hk
    calc (o.delays 0 k random).sum
        < (o.delays 0 k random).length * (3 / 2 * o.maxDelay) := sum_lt_length_mul hne hlt
      _ = k * (3 / 2 * o.maxDelay) := by rw [hlen]
      _ ≤ m * (3 / 2 * o.maxDelay) := mul_le_mul_of_nonneg_right hkm (by positivity)
      _ = 3 / 2 * m * o.maxDelay := by ring

/-! ### The law -/

/-- **The law of the bounded retry.**  With at least one attempt there is one
last invocation, the `k`-th; its outcome is what the caller gets; between two
invocations there is one sleep, and none after the last; each sleep is within
half of its cap, and all of them together below the largest delay and a half
for every attempt but one. -/
theorem RetryOptions.retryAsync_law (o : RetryOptions E) (outcomes : Stream' (Except E T))
    (random : Stream' ℚ) (hn : 1 ≤ o.attempts) (hb : 0 ≤ o.baseDelay) (hm : 0 ≤ o.maxDelay)
    (hr : ∀ j, 0 ≤ random.get j ∧ random.get j < 1) :
    ∃ k, o.EndsAt outcomes o.attempts k ∧
      (o.retryAsync outcomes random).calls = k ∧
      (o.retryAsync outcomes random).result = .ofOutcome (outcomes.get (k - 1)) ∧
      (o.retryAsync outcomes random).acts = spaced (o.retryAsync outcomes random).sleeps ∧
      (o.retryAsync outcomes random).sleeps.length = k - 1 ∧
      (∀ i d, (o.retryAsync outcomes random).sleeps[i]? = some d →
        1 / 2 * min o.maxDelay (o.baseDelay * 2 ^ i) ≤ d ∧
          d ≤ 3 / 2 * min o.maxDelay (o.baseDelay * 2 ^ i)) ∧
      (1 < o.attempts → 0 < o.maxDelay →
        (o.retryAsync outcomes random).sleeps.sum < 3 / 2 * (o.attempts - 1) * o.maxDelay) := by
  obtain ⟨k, hk, hrun⟩ := loop_spec hn (Nat.zero_add _) none outcomes random
  rw [← List.range_eq_range'] at hrun
  have hsleeps : (o.retryAsync outcomes random).sleeps = o.delays 0 (k - 1) random := by
    rw [retryAsync, hrun, sleeps_spaced]
  have hlen : (o.delays 0 (k - 1) random).length = k - 1 := by simp [delays]
  refine ⟨k, hk, ?_, ?_, ?_, ?_, ?_, ?_⟩
  · rw [retryAsync, hrun, RetryRun.calls, count_invoke_spaced, hlen]
    exact Nat.sub_add_cancel hk.pos
  · rw [retryAsync, hrun]
  · rw [hsleeps, retryAsync, hrun]
  · rw [hsleeps, hlen]
  · intro i d hd
    rw [hsleeps, delays, List.getElem?_map, Option.map_eq_some_iff] at hd
    obtain ⟨j, hj, rfl⟩ := hd
    obtain ⟨-, rfl⟩ := List.getElem?_eq_some_iff.mp hj
    simp only [List.getElem_range, Nat.zero_add]
    exact delay_bounds (cap_nonneg hb hm i) (hr i)
  · intro h1 hmax
    have hcast : ((o.attempts - 1 : ℕ) : ℚ) = o.attempts - 1 := by
      rw [Nat.cast_sub hn, Nat.cast_one]
    rw [hsleeps, ← hcast]
    exact sum_delays_lt hmax hr (Nat.sub_le_sub_right hk.le 1) (by omega)

/-- Five attempts, retrying timeouts. -/
def Sample.patient : RetryOptions Exn where
  attempts := 5
  baseDelay := 1 / 1000
  maxDelay := 2
  retryOn := fun e => e == .timeoutError

/-- Two timeouts, then an answer. -/
def Sample.flaky : Stream' (Except Exn String) := fun i =>
  if i < 2 then .error .timeoutError else .ok "ok"

theorem retryAsync_flaky :
    (Sample.patient.retryAsync Sample.flaky (Stream'.const (1 / 4))).calls = 3 ∧
      (Sample.patient.retryAsync Sample.flaky (Stream'.const (1 / 4))).sleeps.length = 2 ∧
      (Sample.patient.retryAsync Sample.flaky (Stream'.const (1 / 4))).sleeps.sum < 12 := by
  obtain ⟨k, hk, hcalls, -, -, hlen, -, hsum⟩ :=
    RetryOptions.retryAsync_law Sample.patient Sample.flaky (Stream'.const (1 / 4)) (by decide)
      (by norm_num [Sample.patient]) (by norm_num [Sample.patient])
      (fun j => by rw [Stream'.get_const]; norm_num)
  have h3 : Sample.patient.EndsAt Sample.flaky Sample.patient.attempts 3 :=
    { pos := by decide
      le := by decide
      before := fun j hj => ⟨.timeoutError, if_pos (by omega), rfl⟩
      here := Or.inr (by rintro ⟨e, he, -⟩; cases he) }
  obtain rfl := hk.unique h3
  have hlt := hsum (by decide) (by norm_num [Sample.patient])
  refine ⟨hcalls, hlen, lt_of_lt_of_eq hlt ?_⟩
  norm_num [Sample.patient]

end FlyDesk
