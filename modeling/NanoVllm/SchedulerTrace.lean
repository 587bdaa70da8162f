import NanoVllm.Basic
import NanoVllm.Library.JsonText

/-!
# The flight recorder of the scheduler

`SchedulerTrace` writes the events around incidents to a file, one JSON document a line. It
remembers the last events; a triggering event writes those which the file does not hold yet, and
the events after it are written as they arrive.
-/

namespace NanoVllm

/-- `collections.deque(maxlen=maxlen)`. -/
structure Deque (α : Type) (maxlen : ℕ) where
  items : List α
  bounded : items.length ≤ maxlen

/-- `deque.append`. -/
def Deque.append {α : Type} {maxlen : ℕ} (deque : Deque α maxlen) (item : α) : Deque α maxlen where
  items := (deque.items ++ [item]).drop (deque.items.length + 1 - maxlen)
  bounded := by
    simp only [List.length_drop, List.length_append, List.length_singleton]
    omega

/-- The arguments of the constructor, with the text of floating-point numbers. -/
structure TraceConfig (F : Type) where
  floats : FloatTexts F
  metadata : List (String × Json F)
  history : ℕ
  following : ℕ
  maxTriggers : ℤ
  maxBytes : ℤ

/-- `{**event, "event_id": event_id}`. -/
structure TraceRow (F : Type) where
  event : List (String × Json F)
  eventId : ℕ

/-- What happens to a write: an exception may have let the beginning of the text through. -/
inductive WriteOutcome where
  | written
  | raised (reached : ℕ)

/-- A call of `record`, with the fate of what it writes. -/
structure RecordCall (F : Type) where
  event : List (String × Json F)
  trigger : Bool
  outcome : WriteOutcome

/--
The attributes of the recorder, and the text in its file. The engine runs on POSIX systems, where
text mode writes a line feed as it is.
-/
structure SchedulerTrace (F : Type) (cfg : TraceConfig F) where
  history : Deque (TraceRow F) cfg.history
  remaining : ℤ
  triggers : ℤ
  bytesWritten : ℤ
  eventId : ℕ
  lastWritten : ℤ
  enabled : Bool
  file : String

variable {F : Type} {cfg : TraceConfig F}

/-- The fields of the document of a row. -/
def TraceRow.fields (row : TraceRow F) : List (String × Json F) :=
  Json.setField row.event "event_id" (.number (.int row.eventId))

/-- `json.dumps(item, allow_nan=False)`, unless it raises. -/
def TraceRow.text? (cfg : TraceConfig F) (row : TraceRow F) : Option String :=
  Json.dumps? cfg.floats false (.object row.fields)

/-- The text of a batch, one line for each row. -/
def TraceRow.payload? (cfg : TraceConfig F) (rows : List (TraceRow F)) : Option String := do
  some (String.join ((← rows.mapM (TraceRow.text? cfg)).map (· ++ "\n")))

/-- The document of the first line. -/
def TraceConfig.header? (cfg : TraceConfig F) : Option String :=
  let number (n : ℤ) : Json F := .number (.int n)
  let fields := Json.update [("event", .string "header"), ("schema_version", number 1),
    ("history_events", number cfg.history), ("following_events", number cfg.following),
    ("max_triggers", number cfg.maxTriggers), ("max_bytes", number cfg.maxBytes)] cfg.metadata
  Json.dumps? cfg.floats true (.object fields)

namespace SchedulerTrace

/-- `len(text.encode("utf-8"))`. -/
def size (text : String) : ℤ := text.utf8ByteSize

/-- The constructor, for a path at which `existing` is stored. -/
def new (cfg : TraceConfig F) (existing : Option String) : Except PyException (SchedulerTrace F cfg) :=
  match existing, cfg.header? with
  | some _, _ => .error ⟨"FileExistsError", "[Errno 17] File exists"⟩
  | none, none => .error ⟨"ValueError", "Out of range float values are not JSON compliant"⟩
  | none, some header => .ok {
      history := ⟨[], Nat.zero_le _⟩
      remaining := 0
      triggers := 0
      bytesWritten := size (header ++ "\n")
      eventId := 0
      lastWritten := -1
      enabled := true
      file := header ++ "\n" }

/-- The body of the `try` statement of `record`, with its `except` clause. -/
def write (trace : SchedulerTrace F cfg) (rows : List (TraceRow F)) (outcome : WriteOutcome) :
    Except PyException (SchedulerTrace F cfg) :=
  match TraceRow.payload? cfg rows with
  | none => .ok { trace with enabled := false }
  | some payload =>
    if cfg.maxBytes < trace.bytesWritten + size payload then .ok { trace with enabled := false }
    else
      match outcome, rows.getLast? with
      | .raised reached, _ => .ok { trace with
          file := trace.file ++ String.ofList (payload.toList.take reached)
          enabled := false }
      | .written, none => .error ⟨"IndexError", "list index out of range"⟩
      | .written, some last => .ok { trace with
          file := trace.file ++ payload
          bytesWritten := trace.bytesWritten + size payload
          lastWritten := last.eventId
          remaining := trace.remaining - 1
          enabled := trace.enabled &&
            !(cfg.maxTriggers ≤ trace.triggers && trace.remaining - 1 = 0) }

/-- `record`. -/
def record (trace : SchedulerTrace F cfg) (call : RecordCall F) :
    Except PyException (SchedulerTrace F cfg) :=
  if !trace.enabled then .ok trace
  else
    let row : TraceRow F := ⟨call.event, trace.eventId⟩
    let trace := { trace with
      eventId := trace.eventId + 1
      history := trace.history.append row }
    if call.trigger && trace.triggers < cfg.maxTriggers then
      let trace := { trace with
        triggers := trace.triggers + 1
        remaining := cfg.following + 1 }
      trace.write (trace.history.items.filter fun item => trace.lastWritten < item.eventId)
        call.outcome
    else if trace.remaining ≠ 0 then trace.write [row] call.outcome
    else .ok trace

/-- The recorder after the first calls of a run. -/
def run (cfg : TraceConfig F) (calls : ℕ → RecordCall F) :
    ℕ → Except PyException (SchedulerTrace F cfg)
  | 0 => new cfg none
  | n + 1 => do (← run cfg calls n).record (calls n)

end SchedulerTrace

end NanoVllm
