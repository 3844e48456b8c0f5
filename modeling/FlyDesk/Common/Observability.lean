/-
FlyDesk/Common/Observability.lean

The `before_send` hook: what leaves the process for the error tracker.  An
event is a tree of dicts and lists; `scrub_pii` puts a marker in the place of
whatever stands under a key of `_PII_KEYS`.  It is `Tree.redact`, and the law of the
scrubbing is the library's, read at these keys and this marker.
-/
import FlyDesk.Lib.Tree

namespace FlyDesk

open Lib

/-- A key or a leaf of an event: a string, or a value that is no string and no
container. -/
inductive Scalar (ω : Type)
  | str (s : String)
  | other (v : ω)
deriving DecidableEq

/-- An event, or a part of one. -/
abbrev SentryEvent (ω : Type) := Tree (Scalar ω) (Scalar ω)

/-- `_PII_KEYS`. -/
def piiKeys : List String :=
  ["given_name", "family_name", "firstName", "lastName", "name", "email", "emailAddress",
    "phone_number", "phones", "born_on", "dateOfBirth", "documents", "passengers", "travelers"]

/-- `_REDACTED`. -/
def redacted : String := "[scrubbed]"

variable {ω : Type}

/-- `k in _PII_KEYS`. -/
def Scalar.isPii : Scalar ω → Bool
  | .str s => piiKeys.contains s
  | .other _ => false

/-- `scrub_pii`; its three branches are `scrubPii_dict`, `scrubPii_list` and
`scrubPii_scalar`. -/
def scrubPii (obj : SentryEvent ω) : SentryEvent ω := obj.redact Scalar.isPii (.str redacted)

theorem scrubPii_dict (items : List (Scalar ω × SentryEvent ω)) :
    scrubPii (.dict items) = .dict (items.map fun (k, v) =>
      (k, if k.isPii then .scalar (.str redacted) else scrubPii v)) :=
  Tree.redact_dict items

theorem scrubPii_list (items : List (SentryEvent ω)) :
    scrubPii (.list items) = .list (items.map scrubPii) :=
  Tree.redact_list items

theorem scrubPii_scalar (s : Scalar ω) : scrubPii (.scalar s) = .scalar s := rfl

/-- `before_send_scrub`, which has no use for its second argument. -/
def beforeSendScrub (event _hint : SentryEvent ω) : SentryEvent ω := scrubPii event

/-- What is sent is an event again. -/
theorem distinct_beforeSendScrub {event : SentryEvent ω} (h : event.Distinct)
    (hint : SentryEvent ω) : (beforeSendScrub event hint).Distinct :=
  Tree.distinct_redact h

/-- **Scrubbing leaks nothing and damages nothing.**  Events that differ only
under keys of `_PII_KEYS` are sent as equal ones; a path without such keys
ends, after the scrubbing, at the same keys, the same length or the same
scalar; under every such key it reaches there is the marker; and a scrubbed
event is scrubbed. -/
theorem beforeSendScrub_law [DecidableEq ω] (event hint : SentryEvent ω) :
    (∀ event' hint' : SentryEvent ω, event.Agree Scalar.isPii event' →
      (beforeSendScrub event hint).Equal (beforeSendScrub event' hint')) ∧
    (∀ path, Tree.Free Scalar.isPii path →
      ((beforeSendScrub event hint).at? path).map Tree.top = (event.at? path).map Tree.top) ∧
    (∀ path k v, Tree.Free Scalar.isPii path → k.isPii = true →
      event.at? (path ++ [.key k]) = some v →
      (beforeSendScrub event hint).at? (path ++ [.key k]) = some (.scalar (.str redacted))) ∧
    ∀ hint', beforeSendScrub (beforeSendScrub event hint) hint' = beforeSendScrub event hint := by
  refine ⟨?_, ?_, ?_, ?_⟩
  · intro event' _ h
    exact Tree.equal_redact h
  · intro path h
    exact Tree.top_at?_redact h event
  · intro path k v h hk hv
    exact Tree.at?_redact_secret h hk hv
  · intro _
    exact Tree.redact_redact event

/-- A list of passengers goes as a whole. -/
example : scrubPii (ω := ℕ) (.dict [(.str "level", .scalar (.str "error")),
      (.str "extra", .dict
        [(.str "passengers", .list [.dict [(.str "given_name", .scalar (.str "Tony"))]]),
          (.str "order_id", .scalar (.str "ord_123"))])])
    = .dict [(.str "level", .scalar (.str "error")),
      (.str "extra", .dict
        [(.str "passengers", .scalar (.str "[scrubbed]")),
          (.str "order_id", .scalar (.str "ord_123"))])] := rfl

end FlyDesk
