/-
FlyDesk/Common/Tracing.lean

Correlation ids from the header of a request to the log stream.  The middleware puts the
id of a request into a ContextVar for as long as it is handled, the filter copies it onto
every record, and the formatter writes one JSON object a line.

Any number of threads handle requests at once and write to one stream.  A ContextVar
belongs to its thread; a task that a request starts has a copy of the context, which
nobody changes, so a record of a task is one of the thread here.

`Threads.greppable` is what the stream is for: read line by line, whatever the messages
hold, the entries with an id are the records of the requests with that id.

The header of the response is set by Django, which is a parameter here: what
`response[header] = value` sends, or that it raises.
-/
import FlyDesk.Domain.Serialization
import FlyDesk.Lib.Interleave
import FlyDesk.Lib.JsonLines
import FlyDesk.Lib.Related

namespace FlyDesk

open Lib

/-! ### Records -/

/-- `value or other`. -/
def pyOr (value : Option String) (other : String) : String :=
  match value with
  | none => other
  | some s => if s = "" then other else s

/-- A log record: the time as text, the message with its arguments in place, the
traceback if there is one, and what the filter sets. -/
structure LogRecord where
  ts : String
  levelname : String
  name : String
  message : String
  excInfo : Option String
  correlationId : Option String

/-- `CorrelationIdFilter.filter`. -/
def CorrelationIdFilter.filter (correlationId : Option String) (record : LogRecord) : LogRecord :=
  { record with correlationId := some (pyOr correlationId "-") }

/-- The payload of a line. -/
def JsonFormatter.payload (record : LogRecord) : Json := .obj
  ([("ts", .str record.ts), ("level", .str record.levelname), ("logger", .str record.name),
    ("message", .str record.message),
    ("correlation_id", .str (record.correlationId.getD "-"))] ++
    record.excInfo.toList.map fun text => ("exc_info", .str text))

/-- `JsonFormatter.format`. -/
def JsonFormatter.format (record : LogRecord) : List Char :=
  jsonDumps (JsonFormatter.payload record)

/-- The id of an entry of the stream. -/
def idOf : Json → Option String
  | .obj entries =>
    match Dict.get? entries "correlation_id" with
    | some (.str id) => some id
    | _ => none
  | _ => none

theorem JsonFormatter.plain_payload (record : LogRecord) :
    (JsonFormatter.payload record).Plain := by
  refine Json.plain_obj.mpr fun e he => ?_
  rcases List.mem_append.mp he with he | he
  · simp only [List.mem_cons, List.not_mem_nil, or_false] at he
    rcases he with rfl | rfl | rfl | rfl | rfl <;> exact Json.plain_str _
  · obtain ⟨text, -, rfl⟩ := List.mem_map.mp he
    exact Json.plain_str text

theorem JsonFormatter.idOf_payload (record : LogRecord) :
    idOf (JsonFormatter.payload record) = some (record.correlationId.getD "-") := rfl

/-! ### Requests -/

/-- A request: its `X-Correlation-ID` header, and what `uuid4().hex` gives when it comes
in, which is not empty. -/
structure HttpRequest where
  header : Option String
  minted : String
  minted_ne : minted ≠ ""

/-- `request.headers.get(CORRELATION_HEADER) or uuid.uuid4().hex`. -/
def HttpRequest.cid (request : HttpRequest) : String := pyOr request.header request.minted

/-- The id of a request: the one it is sent with, or the minted one where it is sent
with none or with an empty one. -/
structure HttpRequest.Named (request : HttpRequest) (id : String) : Prop where
  sent : ∀ s, request.header = some s → s ≠ "" → id = s
  minted : request.header = none ∨ request.header = some "" → id = request.minted

theorem HttpRequest.named_cid (request : HttpRequest) : request.Named request.cid where
  sent s hs hne := by
    rw [cid, hs]
    exact if_neg hne
  minted h := by
    rcases h with h | h
    · rw [cid, h]
      rfl
    · rw [cid, h, pyOr, if_pos rfl]

theorem HttpRequest.cid_ne (request : HttpRequest) : request.cid ≠ "" := by
  unfold cid pyOr
  split
  · exact request.minted_ne
  · split_ifs with hs
    · exact request.minted_ne
    · exact hs

/-- A value that `response[header] = value` sends as it is: it is Latin-1 and has no
line break.  One with a line break raises `BadHeaderError`, and what is not Latin-1 is
MIME-encoded. -/
def HeaderSafe (value : String) : Prop :=
  ∀ c ∈ value.toList, c.toNat < 256 ∧ c ≠ '\n' ∧ c ≠ '\r'

/-- Where a thread is: between requests, or inside `get_response`, with the token that
`correlation_id.set` has returned. -/
inductive ThreadPc
  | idle
  | serving (request : HttpRequest) (token : Option String)

/-- A thread: what `correlation_id` is in its context, and where it is. -/
structure ThreadFrame where
  correlationId : Option String
  pc : ThreadPc

/-- What a thread does next: a request comes in, a record is logged, `get_response`
returns or raises. -/
inductive ThreadAct
  | call (request : HttpRequest)
  | log (record : LogRecord)
  | returns
  | raises

/-- What the threads share: the stream, and the header of each response; an exception
has no response, one that setting the header raises neither. -/
structure Console where
  out : List Char
  answered : List (HttpRequest × Option String)

/-- One step of a thread through `CorrelationIdMiddleware.__call__`; the handler writes a
record with its line end. -/
def ThreadFrame.step (setHeader : String → Option String) (w : Console) (f : ThreadFrame)
    (a : ThreadAct) : Option (Console × ThreadFrame) :=
  match f.pc, a with
  | .idle, .call request =>
    some (w, { correlationId := some request.cid, pc := .serving request f.correlationId })
  | _, .log record =>
    let line := JsonFormatter.format (CorrelationIdFilter.filter f.correlationId record)
    some ({ w with out := w.out ++ (line ++ ['\n']) }, f)
  | .serving request token, .returns =>
    -- the ContextVar has been reset when the header is set
    some ({ w with answered := w.answered ++ [(request, setHeader request.cid)] },
      { correlationId := token, pc := .idle })
  | .serving request token, .raises =>
    some ({ w with answered := w.answered ++ [(request, none)] },
      { correlationId := token, pc := .idle })
  | _, _ => none

/-- Threads over one stream. -/
abbrev Threads (ι : Type*) := System ι Console ThreadFrame

abbrev ThreadMove (ι : Type*) := Move ι ThreadAct Empty

variable {ι : Type*} (setHeader : String → Option String)

def Threads.step [DecidableEq ι] (s : Threads ι) (m : ThreadMove ι) : Option (Threads ι) :=
  System.step (ThreadFrame.step setHeader) (fun _ => Empty.elim) s m

/-- Nothing is logged, and no request is there. -/
def Threads.start : Threads ι where
  shared := { out := [], answered := [] }
  procs _ := { correlationId := none, pc := .idle }

/-! ### The stream -/

/-- The id of the request that a thread handles, `-` if there is none. -/
def ThreadPc.servedId : ThreadPc → String
  | .idle => "-"
  | .serving request _ => request.cid

/-- The record that is logged at this step, with the id it is logged under. -/
def loggedAt : Threads ι × ThreadMove ι → Option (String × LogRecord)
  | (s, .proc i (.log record)) => some ((s.procs i).pc.servedId, record)
  | _ => none

/-- The request that leaves at this step, with the header of its response. -/
def answeredAt : Threads ι × ThreadMove ι → Option (HttpRequest × Option String)
  | (s, .proc i a) =>
    match (s.procs i).pc, a with
    | .serving request _, .returns => some (request, setHeader request.cid)
    | .serving request _, .raises => some (request, none)
    | _, _ => none
  | _ => none

/-- The entry of a record that is logged under an id. -/
def entryOf (p : String × LogRecord) : Json :=
  JsonFormatter.payload { p.2 with correlationId := some p.1 }

/-- An entry of the stream has what a record that is logged under an id has. -/
def Recorded (p : String × LogRecord) : Json → Prop
  | .obj d =>
    Dict.get? d "ts" = some (.str p.2.ts) ∧ Dict.get? d "level" = some (.str p.2.levelname) ∧
    Dict.get? d "logger" = some (.str p.2.name) ∧
    Dict.get? d "message" = some (.str p.2.message) ∧
    Dict.get? d "correlation_id" = some (.str p.1) ∧
    Dict.get? d "exc_info" = p.2.excInfo.map .str
  | _ => False

theorem recorded_entryOf (p : String × LogRecord) : Recorded p (entryOf p) := by
  obtain ⟨id, ts, level, name, message, excInfo, correlationId⟩ := p
  cases excInfo with
  | none => exact ⟨rfl, rfl, rfl, rfl, rfl, rfl⟩
  | some text => exact ⟨rfl, rfl, rfl, rfl, rfl, rfl⟩

/-- The ContextVar of a thread says which request it handles. -/
def ThreadFrame.Tracks (f : ThreadFrame) : Prop :=
  match f.pc with
  | .idle => f.correlationId = none
  | .serving request token => f.correlationId = some request.cid ∧ token = none

/-- What the threads have written and answered, told from the run. -/
structure Threads.Traced (steps : List (Threads ι × ThreadMove ι)) (s : Threads ι) : Prop where
  tracks : ∀ i, (s.procs i).Tracks
  out : s.shared.out =
    Json.writeLines { gap := 1, ascii := true } ((steps.filterMap loggedAt).map entryOf)
  answered : s.shared.answered = steps.filterMap (answeredAt setHeader)

variable {setHeader}

/-- A request that gets its response. -/
theorem answeredAt_eq_some {q : Threads ι × ThreadMove ι} {request : HttpRequest} {cid : String}
    (h : answeredAt setHeader q = some (request, some cid)) : setHeader request.cid = some cid := by
  obtain ⟨s, ⟨i, a⟩ | e⟩ := q
  · simp only [answeredAt] at h
    split at h
    · obtain ⟨rfl, hcid⟩ := Prod.mk.inj (Option.some.inj h)
      exact hcid
    · cases (Prod.mk.inj (Option.some.inj h)).2
    · cases h
  · cases e

/-- The filter sets the id of the request. -/
theorem ThreadFrame.Tracks.filter {f : ThreadFrame} (h : f.Tracks) (record : LogRecord) :
    CorrelationIdFilter.filter f.correlationId record =
      { record with correlationId := some f.pc.servedId } := by
  rw [CorrelationIdFilter.filter]
  rw [ThreadFrame.Tracks] at h
  split at h
  · rename_i hpc
    rw [h, hpc]
    rfl
  · rename_i request token hpc
    rw [h.1, hpc, pyOr, if_neg request.cid_ne]
    rfl

/-- What one step of a thread does, one case for each thing it can be. -/
inductive ThreadFrame.Steps (setHeader : String → Option String) (w : Console)
    (f : ThreadFrame) :
    ThreadAct → Console → ThreadFrame → Prop
  | call {request} : f.pc = .idle → Steps setHeader w f (.call request) w
      { correlationId := some request.cid, pc := .serving request f.correlationId }
  | log {record} : Steps setHeader w f (.log record)
      { w with out := w.out ++
        (JsonFormatter.format (CorrelationIdFilter.filter f.correlationId record) ++ ['\n']) } f
  | returns {request token} : f.pc = .serving request token → Steps setHeader w f .returns
      { w with answered := w.answered ++ [(request, setHeader request.cid)] }
      { correlationId := token, pc := .idle }
  | raises {request token} : f.pc = .serving request token → Steps setHeader w f .raises
      { w with answered := w.answered ++ [(request, none)] }
      { correlationId := token, pc := .idle }

theorem ThreadFrame.steps_of_step {w w' : Console} {f f' : ThreadFrame} {a : ThreadAct}
    (h : f.step setHeader w a = some (w', f')) : ThreadFrame.Steps setHeader w f a w' f' := by
  unfold ThreadFrame.step at h
  split at h
  · rename_i hpc
    obtain ⟨rfl, rfl⟩ := Prod.mk.inj (Option.some.inj h)
    exact .call hpc
  · obtain ⟨rfl, rfl⟩ := Prod.mk.inj (Option.some.inj h)
    exact .log
  · rename_i hpc
    obtain ⟨rfl, rfl⟩ := Prod.mk.inj (Option.some.inj h)
    exact .returns hpc
  · rename_i hpc
    obtain ⟨rfl, rfl⟩ := Prod.mk.inj (Option.some.inj h)
    exact .raises hpc
  · cases h

variable [DecidableEq ι] {s t : Threads ι} {steps : List (Threads ι × ThreadMove ι)}

/-- **One step of the threads.** -/
theorem Threads.Traced.step {m : ThreadMove ι} (h : s.Traced setHeader steps)
    (hs : s.step setHeader m = some t) : t.Traced setHeader (steps ++ [(s, m)]) := by
  cases m with
  | env e => cases e
  | proc i a =>
      obtain ⟨w, f, hf, rfl⟩ := System.step_proc hs
      have htracks := h.tracks i
      have hupdate : f.Tracks → ∀ j, (Function.update s.procs i f j).Tracks := fun hown =>
        (Function.forall_update_iff _ fun _ (g : ThreadFrame) => g.Tracks).mpr
          ⟨hown, fun j _ => h.tracks j⟩
      rw [ThreadFrame.Tracks] at htracks
      cases ThreadFrame.steps_of_step hf with
      | @call request hpc =>
          rw [hpc] at htracks
          refine ⟨hupdate ⟨rfl, htracks⟩, ?_, ?_⟩
          · have hnone : loggedAt (s, .proc i (.call request)) = none := rfl
            simpa [hnone] using h.out
          · simpa [answeredAt, hpc] using h.answered
      | @log record =>
          refine ⟨hupdate (h.tracks i), ?_, ?_⟩
          · have hlogged : loggedAt (s, .proc i (.log record)) =
                some ((s.procs i).pc.servedId, record) := rfl
            rw [List.filterMap_append, List.map_append, Json.writeLines_append, ← h.out,
              (h.tracks i).filter]
            simp [hlogged, Json.writeLines, entryOf, JsonFormatter.format, jsonDumps]
          · have hnone : answeredAt setHeader (s, .proc i (.log record)) = none := by
              cases hpc : (s.procs i).pc <;> simp [answeredAt, hpc]
            simpa [hnone] using h.answered
      | returns hpc =>
          rw [hpc] at htracks
          refine ⟨hupdate htracks.2, ?_, ?_⟩
          · have hnone : loggedAt (s, .proc i .returns) = none := rfl
            simpa [hnone] using h.out
          · simp [answeredAt, hpc, h.answered]
      | raises hpc =>
          rw [hpc] at htracks
          refine ⟨hupdate htracks.2, ?_, ?_⟩
          · have hnone : loggedAt (s, .proc i .raises) = none := rfl
            simpa [hnone] using h.out
          · simp [answeredAt, hpc, h.answered]

theorem Threads.traced_run
    (h : Trace (Threads.step setHeader) (Threads.start : Threads ι) steps t) :
    t.Traced setHeader steps :=
  h.history (A := fun _ _ => True) (I := fun l u => Threads.Traced setHeader l u)
    (fun _ _ => trivial) ⟨fun _ => rfl, rfl, rfl⟩ fun hI _ hs => hI.step hs

/-- **Requests are greppable.**  However the threads are interleaved and whatever is in
the messages, the stream is one JSON object a line: the records that were logged, in
order, with all they hold.  Those with an id are the ones that were logged while a request
with this id was handled.  A request whose id can stand in a header and whose view returns
is answered with its id, and a response to it carries no other. -/
theorem Threads.greppable (hset : ∀ value, HeaderSafe value → setHeader value = some value)
    (h : Trace (Threads.step setHeader) (Threads.start : Threads ι) steps t) :
    ∃ entries, Json.readLines t.shared.out = some entries ∧
      entries = (steps.filterMap loggedAt).map entryOf ∧
      List.Forall₂ Recorded (steps.filterMap loggedAt) entries ∧
      (∀ id, (entries.filter fun v => idOf v = some id) =
        ((steps.filterMap loggedAt).filter fun p => p.1 = id).map entryOf) ∧
      (∀ request : HttpRequest, request.Named request.cid) ∧
      t.shared.answered = steps.filterMap (answeredAt setHeader) ∧
      (∀ s i request token, (s, .proc i .returns) ∈ steps →
        (s.procs i).pc = .serving request token → HeaderSafe request.cid →
        (request, some request.cid) ∈ t.shared.answered) ∧
      ∀ request cid, (request, some cid) ∈ t.shared.answered → HeaderSafe request.cid →
        cid = request.cid := by
  have htraced := Threads.traced_run h
  refine ⟨_, ?_, rfl, forall₂_map_self fun p _ => recorded_entryOf p, fun id => ?_,
    HttpRequest.named_cid, htraced.answered, ?_, ?_⟩
  · rw [htraced.out]
    refine Json.readLines_writeLines fun v hv => ?_
    obtain ⟨p, -, rfl⟩ := List.mem_map.mp hv
    exact JsonFormatter.plain_payload _
  · rw [List.filter_map]
    refine congrArg _ (List.filter_congr fun p _ => ?_)
    simp [entryOf, JsonFormatter.idOf_payload]
  · intro s i request token hp hpc hsafe
    rw [htraced.answered]
    refine List.mem_filterMap.mpr ⟨_, hp, ?_⟩
    simp only [answeredAt, hpc, hset _ hsafe]
  · intro request cid hp hsafe
    rw [htraced.answered] at hp
    obtain ⟨q, -, hq⟩ := List.mem_filterMap.mp hp
    exact Option.some.inj ((answeredAt_eq_some hq).symm.trans (hset _ hsafe))

namespace Sample

/-- Django, on values in Latin-1. -/
def latin1Header (value : String) : Option String :=
  if '\n' ∈ value.toList ∨ '\r' ∈ value.toList then none else some value

/-- A request with an id of its own, one without, and one whose id has a line break. -/
def named : HttpRequest where
  header := some "trace-xyz"
  minted := "9f2c"
  minted_ne := by decide

def unnamed : HttpRequest where
  header := none
  minted := "41d0"
  minted_ne := by decide

def broken : HttpRequest where
  header := some "trace\nxyz"
  minted := "77aa"
  minted_ne := by decide

/-- A message that looks like the end of a line and an entry of another request. -/
def forged : LogRecord where
  ts := "2026-08-15T08:00:00+0000"
  levelname := "INFO"
  name := "flydesk.search"
  message := "LHR\n\x7b\"correlation_id\": \"41d0\"\x7d"
  excInfo := none
  correlationId := none

/-- Two requests at once, and a third. -/
def threeRequests : List (ThreadMove ℕ) :=
  [.proc 0 (.call named), .proc 1 (.call unnamed), .proc 0 (.log forged), .proc 1 .raises,
    .proc 0 .returns, .proc 1 (.call broken), .proc 1 .returns]

end Sample

/-- The forged line is part of a message, and no entry; an id with a line break is not
sent. -/
theorem Threads.greppable_forged :
    ∃ t entries, exec (Threads.step Sample.latin1Header) (Threads.start : Threads ℕ)
        Sample.threeRequests = some t ∧
      Json.readLines t.shared.out = some entries ∧
      List.Forall₂ Recorded [("trace-xyz", Sample.forged)] entries ∧
      (entries.filter fun v => idOf v = some "trace-xyz") =
        [entryOf ("trace-xyz", Sample.forged)] ∧
      (entries.filter fun v => idOf v = some "41d0") = [] ∧
      t.shared.answered = [(Sample.unnamed, none), (Sample.named, some "trace-xyz"),
        (Sample.broken, none)] := by
  obtain ⟨t, ht⟩ : ∃ t, exec (Threads.step Sample.latin1Header) (Threads.start : Threads ℕ)
      Sample.threeRequests = some t := ⟨_, rfl⟩
  have hset : ∀ value, HeaderSafe value → Sample.latin1Header value = some value := by
    intro value hsafe
    refine if_neg ?_
    rintro (h | h)
    · exact (hsafe _ h).2.1 rfl
    · exact (hsafe _ h).2.2 rfl
  obtain ⟨entries, hread, -, hrecorded, hgrep, -, hanswered, -⟩ :=
    Threads.greppable hset (Trace.of_exec ht)
  have hlogged : (execSteps (Threads.step Sample.latin1Header) (Threads.start : Threads ℕ)
      Sample.threeRequests).filterMap loggedAt = [("trace-xyz", Sample.forged)] := rfl
  refine ⟨t, entries, ht, hread, hlogged ▸ hrecorded, ?_, ?_, hanswered⟩
  · rw [hgrep, hlogged]
    rfl
  · rw [hgrep, hlogged]
    rfl

end FlyDesk
