import NanoVllm.Library.TriggerWindows
import NanoVllm.SchedulerTrace

/-!
# The windows in the trace file

The file of the flight recorder holds the windows around the first triggering events, each event
once and in order, up to the first batch which would exceed the byte limit.
-/

namespace NanoVllm.SchedulerTrace

open TriggerWindows

variable {F : Type} {cfg : TraceConfig F} {calls : ℕ → RecordCall F} {n : ℕ}
  {trace : SchedulerTrace F cfg}

/-- The rows of the calls. -/
def row (calls : ℕ → RecordCall F) (e : ℕ) : TraceRow F := ⟨(calls e).event, e⟩

/-- The call which records an event has the trigger flag. -/
def Triggers (calls : ℕ → RecordCall F) (t : ℕ) : Prop := (calls t).trigger = true

instance : DecidablePred (Triggers calls) := fun t =>
  inferInstanceAs (Decidable ((calls t).trigger = true))

/-- One of the first `max_triggers` triggering events. -/
abbrev Opens (cfg : TraceConfig F) (calls : ℕ → RecordCall F) (t : ℕ) : Prop :=
  First (Triggers calls) cfg.maxTriggers t

/-- The events in the windows when `n` events have arrived. -/
abbrev windows (cfg : TraceConfig F) (calls : ℕ → RecordCall F) (n : ℕ) : List ℕ :=
  captured (Opens cfg calls) cfg.history cfg.following n

/-- The text of a file which holds the rows of these events. -/
def fileText? (cfg : TraceConfig F) (calls : ℕ → RecordCall F) (ids : List ℕ) : Option String := do
  some ((← cfg.header?) ++ "\n" ++ (← TraceRow.payload? cfg (ids.map (row calls))))

/-- The batch of the next event would push a file with all the windows past the byte limit. -/
def Overflows (cfg : TraceConfig F) (calls : ℕ → RecordCall F) (n : ℕ) : Prop :=
  windows cfg calls (n + 1) ≠ windows cfg calls n ∧
    ∃ text, fileText? cfg calls (windows cfg calls (n + 1)) = some text ∧ cfg.maxBytes < size text

/-- The row of a call can be serialized and is written. -/
structure Flawless (cfg : TraceConfig F) (calls : ℕ → RecordCall F) (e : ℕ) : Prop where
  serialized : (TraceRow.text? cfg (row calls e)).isSome
  written : (calls e).outcome = .written

/-- The file holds the windows of the first `k` events, which fit into the byte limit. -/
structure Content (cfg : TraceConfig F) (calls : ℕ → RecordCall F) (k : ℕ)
    (trace : SchedulerTrace F cfg) : Prop where
  text : fileText? cfg calls (windows cfg calls k) = some trace.file
  bounded : ∃ header, cfg.header? = some header ∧
    size trace.file ≤ max cfg.maxBytes (size (header ++ "\n"))
  fits : ∀ j < k, ¬Overflows cfg calls j

/-- The attributes of a recorder which has seen `n` events and is still enabled. -/
structure Recording (cfg : TraceConfig F) (calls : ℕ → RecordCall F) (n : ℕ)
    (trace : SchedulerTrace F cfg) : Prop where
  content : Content cfg calls n trace
  enabled : trace.enabled = true
  eventId : trace.eventId = n
  history : trace.history.items = (recent cfg.history n).map (row calls)
  triggers : trace.triggers = min (Nat.count (Triggers calls) n : ℤ) (max 0 cfg.maxTriggers)
  countdown : Countdown (Opens cfg calls) cfg.following n trace.remaining
  lastWritten : trace.lastWritten = watermark (windows cfg calls n)
  bytesWritten : trace.bytesWritten = size trace.file
  incomplete : ¬Complete (Triggers calls) cfg.maxTriggers cfg.following n

/-- The recorder after `n` events. -/
inductive Follows (cfg : TraceConfig F) (calls : ℕ → RecordCall F) (n : ℕ)
    (trace : SchedulerTrace F cfg) : Prop
  | recording (state : Recording cfg calls n trace)
  | complete (disabled : trace.enabled = false) (content : Content cfg calls n trace)
      (complete : Complete (Triggers calls) cfg.maxTriggers cfg.following n)
  | truncated (disabled : trace.enabled = false) {k : ℕ} (content : Content cfg calls k trace)
      (early : k < n) (overflows : Overflows cfg calls k)

/-! ## Texts -/

theorem size_append (left right : String) : size (left ++ right) = size left + size right := by
  simp [size]

theorem exists_header (cfg : TraceConfig F) : ∃ header, cfg.header? = some header :=
  Json.dumps?_allowNan cfg.floats _

theorem payload?_append {rows rows' : List (TraceRow F)} {text text' : String}
    (first : TraceRow.payload? cfg rows = some text)
    (second : TraceRow.payload? cfg rows' = some text') :
    TraceRow.payload? cfg (rows ++ rows') = some (text ++ text') := by
  rcases Option.bind_eq_some_iff.mp first with ⟨texts, written, same⟩
  rcases Option.bind_eq_some_iff.mp second with ⟨texts', written', same'⟩
  cases same
  cases same'
  simp [TraceRow.payload?, written, written']

theorem exists_payload {ids : List ℕ} (flawless : ∀ e ∈ ids, Flawless cfg calls e) :
    ∃ text, TraceRow.payload? cfg (ids.map (row calls)) = some text := by
  induction ids with
  | nil => exact ⟨"", rfl⟩
  | cons e ids ih =>
    rw [List.forall_mem_cons] at flawless
    rcases Option.isSome_iff_exists.mp flawless.1.serialized with ⟨line, serialized⟩
    rcases ih flawless.2 with ⟨text, written⟩
    have first : TraceRow.payload? cfg [row calls e] = some (line ++ "\n") := by
      simp [TraceRow.payload?, serialized]
    exact ⟨_, payload?_append first written⟩

theorem fileText?_append {ids batch : List ℕ} {text payload : String}
    (file : fileText? cfg calls ids = some text)
    (written : TraceRow.payload? cfg (batch.map (row calls)) = some payload) :
    fileText? cfg calls (ids ++ batch) = some (text ++ payload) := by
  rcases Option.bind_eq_some_iff.mp file with ⟨header, found, inner⟩
  rcases Option.bind_eq_some_iff.mp inner with ⟨before, earlier, same⟩
  cases same
  have both := payload?_append earlier written
  simp [fileText?, found, both, String.append_assoc]

theorem printable_text {row : TraceRow F} {text : String} (written : row.text? cfg = some text) :
    text.Printable :=
  Json.printable_dumps? written

theorem printable_texts {rows : List (TraceRow F)} {texts : List String}
    (written : rows.mapM (TraceRow.text? cfg) = some texts) : ∀ text ∈ texts, text.Printable := by
  induction rows generalizing texts with
  | nil =>
    cases written
    simp
  | cons row rows ih =>
    rw [List.mapM_cons] at written
    rcases Option.bind_eq_some_iff.mp written with ⟨text, first, written⟩
    rcases Option.bind_eq_some_iff.mp written with ⟨rest, later, same⟩
    cases same
    rw [List.forall_mem_cons]
    exact ⟨printable_text first, ih later⟩

/-- The lines of the file are the documents of its rows, after that of the header. -/
theorem lines_fileText? {ids : List ℕ} {text : String} (file : fileText? cfg calls ids = some text) :
    ∃ header texts, cfg.header? = some header ∧
      (ids.map (row calls)).mapM (TraceRow.text? cfg) = some texts ∧
      text.jsonLines = header :: texts := by
  rcases Option.bind_eq_some_iff.mp file with ⟨header, found, inner⟩
  rcases Option.bind_eq_some_iff.mp inner with ⟨payload, written, same⟩
  rcases Option.bind_eq_some_iff.mp written with ⟨texts, documents, joined⟩
  cases same
  cases joined
  have printable : header.Printable := Json.printable_dumps? found
  refine ⟨header, texts, found, documents, ?_⟩
  rw [printable.jsonLines, String.jsonLines_join (printable_texts documents)]

theorem Content.congr {trace' : SchedulerTrace F cfg} {k : ℕ} (content : Content cfg calls k trace)
    (same : trace'.file = trace.file) : Content cfg calls k trace' where
  text := same ▸ content.text
  bounded := same ▸ content.bounded
  fits := content.fits

/-! ## One call -/

/-- The recorder has taken note of event `n`, and is about to write a batch. -/
structure Noted (cfg : TraceConfig F) (calls : ℕ → RecordCall F) (n : ℕ)
    (trace : SchedulerTrace F cfg) : Prop where
  content : Content cfg calls n trace
  enabled : trace.enabled = true
  eventId : trace.eventId = n + 1
  history : trace.history.items = (recent cfg.history (n + 1)).map (row calls)
  triggers : trace.triggers =
    min (Nat.count (Triggers calls) (n + 1) : ℤ) (max 0 cfg.maxTriggers)
  countdown : Countdown (Opens cfg calls) cfg.following (n + 1) (trace.remaining - 1)
  bytesWritten : trace.bytesWritten = size trace.file

/-- The recorder after a batch has been written. -/
def wrote (trace : SchedulerTrace F cfg) (payload : String) (last : ℕ) : SchedulerTrace F cfg :=
  { trace with
    file := trace.file ++ payload
    bytesWritten := trace.bytesWritten + size payload
    lastWritten := last
    remaining := trace.remaining - 1
    enabled := trace.enabled && !(cfg.maxTriggers ≤ trace.triggers && trace.remaining - 1 = 0) }

theorem write_overflows {rows : List (TraceRow F)} {payload : String}
    (written : TraceRow.payload? cfg rows = some payload)
    (overflows : cfg.maxBytes < trace.bytesWritten + size payload) (outcome : WriteOutcome) :
    trace.write rows outcome = .ok { trace with enabled := false } := by
  simp [SchedulerTrace.write, written, overflows]

theorem write_fits {rows : List (TraceRow F)} {payload : String} {last : TraceRow F}
    (written : TraceRow.payload? cfg rows = some payload)
    (fits : ¬cfg.maxBytes < trace.bytesWritten + size payload)
    (ends : rows.getLast? = some last) :
    trace.write rows .written = .ok (trace.wrote payload last.eventId) := by
  simp only [SchedulerTrace.write, written, fits, if_false, ends]
  rfl

/-- A batch which fits extends the file, and the recorder stops after the last window. -/
theorem Noted.write {batch : List ℕ} (noted : Noted cfg calls n trace) (nonempty : batch ≠ [])
    (grows : windows cfg calls (n + 1) = windows cfg calls n ++ batch)
    (flawless : ∀ e ∈ batch, Flawless cfg calls e) (quota : 0 < cfg.maxTriggers) :
    ∃ trace', trace.write (batch.map (row calls)) .written = .ok trace' ∧
      Follows cfg calls (n + 1) trace' := by
  rcases exists_payload flawless with ⟨payload, written⟩
  have file := fileText?_append noted.content.text written
  rw [← grows] at file
  by_cases overflows : cfg.maxBytes < trace.bytesWritten + size payload
  · refine ⟨_, write_overflows written overflows _, ?_⟩
    refine .truncated rfl (noted.content.congr rfl) (Nat.lt_succ_self n) ⟨?_, _, file, ?_⟩
    · simp [grows, nonempty]
    · rwa [size_append, ← noted.bytesWritten]
  · have last : (batch.map (row calls)).getLast? = some (row calls (batch.getLast nonempty)) := by
      simp [List.getLast?_eq_some_getLast nonempty]
    have small : size (trace.file ++ payload) ≤ cfg.maxBytes := by
      rw [size_append, ← noted.bytesWritten]
      exact not_lt.mp overflows
    have content : Content cfg calls (n + 1) (trace.wrote payload (batch.getLast nonempty)) := by
      refine ⟨file, ?_, ?_⟩
      · rcases noted.content.bounded with ⟨header, found, -⟩
        exact ⟨header, found, small.trans (le_max_left ..)⟩
      · intro j early
        rcases Nat.lt_succ_iff_lt_or_eq.mp early with earlier | rfl
        · exact noted.content.fits j earlier
        · rintro ⟨-, text, same, large⟩
          cases file.symm.trans same
          exact absurd large (not_lt.mpr small)
    refine ⟨_, write_fits written overflows last, ?_⟩
    by_cases complete : cfg.maxTriggers ≤ trace.triggers ∧ trace.remaining - 1 = 0
    · apply Follows.complete _ content
      · exact (complete_iff noted.triggers noted.countdown).mpr ⟨quota, complete⟩
      · simp [wrote, complete]
    · apply Follows.recording
      constructor
      case content => exact content
      case enabled =>
        simpa [wrote, noted.enabled] using not_and_or.mp complete
      case eventId => exact noted.eventId
      case history => exact noted.history
      case triggers => exact noted.triggers
      case countdown => exact noted.countdown
      case lastWritten =>
        have ends : (windows cfg calls (n + 1)).getLast? = some (batch.getLast nonempty) := by
          simp [grows, List.getLast?_append, List.getLast?_eq_some_getLast nonempty]
        exact (watermark_of_last ends).symm
      case bytesWritten =>
        change trace.bytesWritten + size payload = size (trace.file ++ payload)
        rw [size_append, noted.bytesWritten]
      case incomplete =>
        intro ended
        exact complete ((complete_iff noted.triggers noted.countdown).mp ended).2

/-- The recorder after it has taken note of an event. -/
def noted (trace : SchedulerTrace F cfg) (event : TraceRow F) : SchedulerTrace F cfg :=
  { trace with
    eventId := trace.eventId + 1
    history := trace.history.append event }

/-- The recorder after it has opened the window of an event. -/
def opened (trace : SchedulerTrace F cfg) (event : TraceRow F) : SchedulerTrace F cfg :=
  { trace.noted event with
    triggers := trace.triggers + 1
    remaining := cfg.following + 1 }

theorem record_disabled (disabled : trace.enabled = false) (call : RecordCall F) :
    trace.record call = .ok trace := by
  simp [record, disabled]

/-- A triggering event is written with the events before it which the file does not hold. -/
theorem record_opens {call : RecordCall F} (enabled : trace.enabled = true)
    (opens : call.trigger = true ∧ trace.triggers < cfg.maxTriggers) :
    trace.record call = (trace.opened ⟨call.event, trace.eventId⟩).write
      ((trace.history.append ⟨call.event, trace.eventId⟩).items.filter
        fun item => trace.lastWritten < item.eventId) call.outcome := by
  simp [record, enabled, opens, opened, noted]

/-- Another event is written if a window expects it. -/
theorem record_other {call : RecordCall F} (enabled : trace.enabled = true)
    (other : ¬(call.trigger = true ∧ trace.triggers < cfg.maxTriggers)) :
    trace.record call =
      if trace.remaining ≠ 0 then
        (trace.noted ⟨call.event, trace.eventId⟩).write [⟨call.event, trace.eventId⟩] call.outcome
      else .ok (trace.noted ⟨call.event, trace.eventId⟩) := by
  have condition : (call.trigger && decide (trace.triggers < cfg.maxTriggers)) = false := by
    simpa using other
  simp [record, enabled, condition, noted]

theorem Recording.history_noted (state : Recording cfg calls n trace) :
    (trace.history.append (row calls n)).items = (recent cfg.history (n + 1)).map (row calls) := by
  simp [Deque.append, state.history, recent_succ, List.map_drop]

/-- The quota is positive as long as a window opens. -/
theorem quota_pos {t : ℕ} (opens : Opens cfg calls t) : 0 < cfg.maxTriggers :=
  lt_of_le_of_lt (Int.natCast_nonneg _) opens.2

theorem Recording.record_opens (state : Recording cfg calls n trace) (positive : 0 < cfg.history)
    (flawless : ∀ e < n + 1, Flawless cfg calls e) (opens : Opens cfg calls n) :
    ∃ trace', trace.record (calls n) = .ok trace' ∧ Follows cfg calls (n + 1) trace' := by
  have event : (⟨(calls n).event, trace.eventId⟩ : TraceRow F) = row calls n := by
    simp [row, state.eventId]
  have recorder : Noted cfg calls n (trace.opened (row calls n)) := by
    constructor
    case content => exact state.content.congr rfl
    case enabled => exact state.enabled
    case eventId => simp [opened, noted, state.eventId]
    case history => exact state.history_noted
    case triggers => exact counter_first state.triggers opens
    case countdown => simpa [opened] using Countdown.of_trigger opens
    case bytesWritten => exact state.bytesWritten
  have batch : ((trace.history.append (row calls n)).items.filter
      fun item => trace.lastWritten < item.eventId) =
      ((recent cfg.history (n + 1)).filter fun e => e ∉ windows cfg calls n).map (row calls) := by
    rw [state.history_noted, List.filter_map, state.lastWritten]
    congr 1
    apply List.filter_congr
    intro e mem
    have beyond : watermark (windows cfg calls n) < e ↔ e ∉ windows cfg calls n :=
      watermark_lt_iff (mem_recent.mp mem).1
    simp [row, beyond]
  have nonempty : ((recent cfg.history (n + 1)).filter fun e => e ∉ windows cfg calls n) ≠ [] := by
    apply List.ne_nil_of_mem
    apply List.mem_filter.mpr
    refine ⟨mem_recent.mpr ⟨by omega, Nat.lt_succ_self n⟩, ?_⟩
    simp [windows, mem_captured]
  rw [SchedulerTrace.record_opens state.enabled ((first_iff state.triggers).mp opens), event, batch,
    (flawless n (Nat.lt_succ_self n)).written]
  apply recorder.write nonempty (captured_trigger positive opens) _ (quota_pos opens)
  intro e mem
  exact flawless e (mem_recent.mp (List.mem_filter.mp mem).1).2

theorem Recording.record_other (state : Recording cfg calls n trace)
    (flawless : Flawless cfg calls n) (other : ¬Opens cfg calls n) :
    ∃ trace', trace.record (calls n) = .ok trace' ∧ Follows cfg calls (n + 1) trace' := by
  have event : (⟨(calls n).event, trace.eventId⟩ : TraceRow F) = row calls n := by
    simp [row, state.eventId]
  have triggers := counter_other state.triggers other
  rw [SchedulerTrace.record_other state.enabled fun opens =>
    other ((first_iff state.triggers).mpr opens), event, flawless.written]
  by_cases left : trace.remaining ≠ 0
  case pos =>
    have inside : Covered (Opens cfg calls) cfg.history cfg.following n n :=
      state.countdown.ne_zero_iff.mp left
    have recorder : Noted cfg calls n (trace.noted (row calls n)) := by
      constructor
      case content => exact state.content.congr rfl
      case enabled => exact state.enabled
      case eventId => simp [noted, state.eventId]
      case history => exact state.history_noted
      case triggers => exact triggers
      case countdown => exact state.countdown.follow other left
      case bytesWritten => exact state.bytesWritten
    rcases inside with ⟨t, early, opens, window⟩
    rw [if_pos left]
    change ∃ trace', (trace.noted (row calls n)).write ([n].map (row calls)) .written = _ ∧ _
    apply recorder.write (List.cons_ne_nil n [])
      (captured_inside other ⟨t, early, opens, window⟩) _ (quota_pos opens)
    simpa using flawless
  case neg =>
    have none : trace.remaining = 0 := not_not.mp left
    have same : windows cfg calls (n + 1) = windows cfg calls n :=
      captured_outside other fun covered => left (state.countdown.ne_zero_iff.mpr covered)
    have countdown : Countdown (Opens cfg calls) cfg.following (n + 1) trace.remaining := by
      rw [none]
      exact Countdown.idle (none ▸ state.countdown) other
    refine ⟨_, if_neg left, .recording ?_⟩
    constructor
    case content =>
      refine ⟨?_, state.content.bounded, ?_⟩
      · rw [same]
        exact state.content.text
      · intro j early
        rcases Nat.lt_succ_iff_lt_or_eq.mp early with earlier | rfl
        · exact state.content.fits j earlier
        · exact fun overflows => overflows.1 same
    case enabled => exact state.enabled
    case eventId => simp [noted, state.eventId]
    case history => exact state.history_noted
    case triggers => exact triggers
    case countdown => exact countdown
    case lastWritten =>
      rw [same]
      exact state.lastWritten
    case bytesWritten => exact state.bytesWritten
    case incomplete =>
      rw [complete_iff triggers countdown, ← complete_iff state.triggers state.countdown]
      exact state.incomplete

/-! ## Runs -/

theorem follows_new (cfg : TraceConfig F) (calls : ℕ → RecordCall F) :
    ∃ trace, new cfg none = .ok trace ∧ Follows cfg calls 0 trace := by
  rcases exists_header cfg with ⟨header, found⟩
  refine ⟨_, by simp only [new, found]; rfl, .recording ?_⟩
  constructor
  case content =>
    refine ⟨?_, ⟨header, found, le_max_right ..⟩, ?_⟩
    · simp [fileText?, found, captured_zero, TraceRow.payload?]
    · intro j early
      exact absurd early (Nat.not_lt_zero j)
  case enabled => rfl
  case eventId => rfl
  case history => simp [recent]
  case triggers => simp
  case countdown => exact .zero
  case lastWritten => rfl
  case bytesWritten => rfl
  case incomplete =>
    intro complete
    have positive := complete.positive
    have used := complete.used
    simp only [Nat.count_zero, Nat.cast_zero] at used
    omega

/-- What a call does, whatever has happened before. -/
theorem Follows.record (state : Follows cfg calls n trace) (positive : 0 < cfg.history)
    (flawless : ∀ e < n + 1, Flawless cfg calls e) :
    ∃ trace', trace.record (calls n) = .ok trace' ∧ Follows cfg calls (n + 1) trace' := by
  cases state with
  | recording state =>
    by_cases opens : Opens cfg calls n
    · exact state.record_opens positive flawless opens
    · exact state.record_other (flawless n (Nat.lt_succ_self n)) opens
  | complete disabled content complete =>
    have same : windows cfg calls (n + 1) = windows cfg calls n := complete.captured_succ
    refine ⟨trace, record_disabled disabled _, .complete disabled ?_ complete.succ⟩
    refine ⟨same ▸ content.text, content.bounded, ?_⟩
    intro j early
    rcases Nat.lt_succ_iff_lt_or_eq.mp early with earlier | rfl
    · exact content.fits j earlier
    · exact fun overflows => overflows.1 same
  | truncated disabled content early overflows =>
    exact ⟨trace, record_disabled disabled _,
      .truncated disabled content (Nat.lt_succ_of_lt early) overflows⟩

theorem run_follows (positive : 0 < cfg.history) (flawless : ∀ e < n, Flawless cfg calls e) :
    ∃ trace, run cfg calls n = .ok trace ∧ Follows cfg calls n trace := by
  induction n with
  | zero => exact follows_new cfg calls
  | succ n ih =>
    rcases ih fun e early => flawless e (Nat.lt_succ_of_lt early) with ⟨trace, ran, state⟩
    rcases state.record positive flawless with ⟨trace', recorded, state'⟩
    refine ⟨trace', ?_, state'⟩
    rw [run, ran]
    exact recorded

/-- What the file holds after `n` events, if the windows of the first `k` fit. -/
structure Captures (cfg : TraceConfig F) (calls : ℕ → RecordCall F) (n k : ℕ) (ids : List ℕ)
    (trace : SchedulerTrace F cfg) : Prop where
  increasing : ids.Pairwise (· < ·)
  exactly : ∀ e, e ∈ ids ↔ e < k ∧
    ∃ t < k, Opens cfg calls t ∧ (t : ℤ) - cfg.history < e ∧ e ≤ t + cfg.following
  earliest : ids <+: captured (Opens cfg calls) cfg.history cfg.following n
  file : fileText? cfg calls ids = some trace.file
  numbered : ∀ e ∈ ids, Json.field? (row calls e).fields "event_id" = some (.number (.int e))
  lines : ∃ header texts, cfg.header? = some header ∧
    (ids.map (row calls)).mapM (TraceRow.text? cfg) = some texts ∧
    trace.file.jsonLines = header :: texts
  bounded : ∃ header, cfg.header? = some header ∧
    size trace.file ≤ max cfg.maxBytes (size (header ++ "\n"))
  fits : ∀ j < k, ¬Overflows cfg calls j
  truncated : k = n ∨ k < n ∧ Overflows cfg calls k
  disabled : trace.enabled = false ↔
    k < n ∨ Complete (Triggers calls) cfg.maxTriggers cfg.following n

theorem Content.captures {k : ℕ} (content : Content cfg calls k trace) (positive : 0 < cfg.history)
    (truncated : k = n ∨ k < n ∧ Overflows cfg calls k)
    (disabled : trace.enabled = false ↔
      k < n ∨ Complete (Triggers calls) cfg.maxTriggers cfg.following n) :
    Captures cfg calls n k (windows cfg calls k) trace where
  increasing := sortedLT_captured.pairwise
  exactly e := by
    rw [mem_captured]
    apply and_congr_right
    intro early
    apply exists_congr
    intro t
    apply and_congr_right
    intro before
    apply and_congr_right
    intro opens
    apply and_congr_left
    intro inside
    omega
  earliest := by
    apply captured_prefix positive
    rcases truncated with same | early
    · exact same.le
    · exact early.1.le
  file := content.text
  numbered e _ := Json.field?_setField ..
  lines := lines_fileText? content.text
  bounded := content.bounded
  fits := content.fits
  truncated := truncated
  disabled := disabled

/-- The file holds exactly the windows around the first triggers, up to the byte limit. -/
theorem captures_windows (positive : 0 < cfg.history) (flawless : ∀ e < n, Flawless cfg calls e) :
    ∃ trace k ids, run cfg calls n = .ok trace ∧ Captures cfg calls n k ids trace := by
  rcases run_follows positive flawless with ⟨trace, ran, state⟩
  cases state with
  | recording state =>
    refine ⟨trace, n, _, ran, state.content.captures positive (.inl rfl) ?_⟩
    simp [state.enabled, state.incomplete]
  | complete disabled content complete =>
    refine ⟨trace, n, _, ran, content.captures positive (.inl rfl) ?_⟩
    simp [disabled, complete]
  | @truncated disabled k content early overflows =>
    refine ⟨trace, k, _, ran, content.captures positive (.inr ⟨early, overflows⟩) ?_⟩
    simp [disabled, early]

/-- A recorder whose two windows overlap. -/
def overlappingConfig : TraceConfig Empty where
  floats := ⟨fun _ => false, fun _ => "", fun x => nomatch x⟩
  metadata := []
  history := 3
  following := 2
  maxTriggers := 2
  maxBytes := 16 * 1024 * 1024

/-- Events five and six are incidents. -/
def overlappingCalls (e : ℕ) : RecordCall Empty where
  event := [("event", .string "step"), ("value", .number (.int e))]
  trigger := e = 5 || e = 6
  outcome := .written

theorem captures_windows_overlapping : 0 < overlappingConfig.history ∧
    (∀ e < 20, Flawless overlappingConfig overlappingCalls e) ∧
    ∃ trace k ids, run overlappingConfig overlappingCalls 20 = .ok trace ∧
      Captures overlappingConfig overlappingCalls 20 k ids trace := by
  have positive : 0 < overlappingConfig.history := by decide
  have flawless : ∀ e < 20, Flawless overlappingConfig overlappingCalls e :=
    fun e _ => ⟨rfl, rfl⟩
  exact ⟨positive, flawless, captures_windows positive flawless⟩

example : windows overlappingConfig overlappingCalls 20 = [3, 4, 5, 6, 7, 8] := by decide

end NanoVllm.SchedulerTrace
