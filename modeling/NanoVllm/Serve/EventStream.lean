import NanoVllm.Library.Frames
import NanoVllm.Library.JsonParse
import NanoVllm.Serve.EngineWorker

/-!
# The event stream of a response

The application sends the events of a request as frames, each with one JSON document, and the page
reads them from the pieces in which the network delivers the body. Whatever these pieces are, the
page sees the events, and the text which it shows is the text of the completion.
-/

namespace NanoVllm.Serve

open Json

variable {F M : Type} {numbers : NumberTexts F}

/-! ## The application -/

/-- What the chunks of a response have in common. -/
structure ResponseInfo where
  requestId : String
  created : ℤ
  servedModel : String
  includeUsage : Bool

/-- `_usage(event)`. -/
def usagePayload (promptTokens completionTokens : ℕ) : Json F :=
  .object [("prompt_tokens", .number (.int promptTokens)),
    ("completion_tokens", .number (.int completionTokens)),
    ("total_tokens", .number (.int (promptTokens + completionTokens : ℕ)))]

/-- The choice of a chunk. -/
def choice (delta : List (String × Json F)) (finishReason : Json F) : Json F :=
  .object [("index", .number (.int 0)), ("delta", .object delta), ("finish_reason", finishReason)]

/-- A chunk of a response. -/
def chunk (info : ResponseInfo) (choices : List (Json F)) (more : List (String × Json F)) :
    Json F :=
  .object ([("id", .string info.requestId), ("object", .string "chat.completion.chunk"),
    ("created", .number (.int info.created)), ("model", .string info.servedModel),
    ("choices", .array choices)] ++ more)

/-- What `_sse` makes a frame of. -/
inductive Payload (F : Type) where
  | json (value : Json F)
  | done

/-- `data:`. -/
def dataField : List Char := ['d', 'a', 't', 'a', ':']

/-- `[DONE]`. -/
def doneText : List Char := ['[', 'D', 'O', 'N', 'E', ']']

/-- The text after `data: `. -/
def Payload.text (numbers : NumberTexts F) : Payload F → List Char
  | .json value => write numbers value
  | .done => doneText

/-- `_sse(payload)` without its final empty line. -/
def Payload.frame (numbers : NumberTexts F) (payload : Payload F) : List Char :=
  dataField ++ ' ' :: payload.text numbers

/-- Why `streamCompletion` throws. -/
inductive PageError (F : Type) where
  | syntaxError
  | typeError
  | server (message : Option (Json F))

/-- What the page knows about a response. -/
structure Page (F : Type) where
  text : String
  serverMetrics : Json F
  usage : Json F
  done : Bool

/-- The page before the response. -/
def Page.initial : Page F where
  text := ""
  serverMetrics := .object []
  usage := .object []
  done := false

/-- A property of a value, which may be undefined. -/
def member? (name : String) : Json F → Option (Json F)
  | .object fields => field? fields name
  | _ => none

/-- The first item of an array. -/
def firstItem? : Json F → Option (Json F)
  | .array items => items.head?
  | _ => none

/-- Whether a value which may be undefined counts as true. -/
def truthy (numbers : NumberTexts F) : Option (Json F) → Bool
  | none => false
  | some .null => false
  | some (.number (.bool b)) => b
  | some (.number (.int n)) => n ≠ 0
  | some (.number (.float x)) => !numbers.zero x
  | some (.string s) => s ≠ ""
  | some (.array _) => true
  | some (.object _) => true

/-- The text of `chunk.choices?.[0]?.delta?.content`. -/
def deltaText (value : Json F) : String :=
  match (((member? "choices" value).bind firstItem?).bind (member? "delta")).bind
      (member? "content") with
  | some (.string s) => s
  | _ => ""

/-- What `consume` does with a chunk. -/
def Page.apply (numbers : NumberTexts F) (page : Page F) (value : Json F) :
    Except (PageError F) (Page F) :=
  let error := member? "error" value
  if truthy numbers error then .error (.server (error.bind (member? "message")))
  else
    let metrics := member? "x_nanovllm_metrics" value
    let usage := member? "usage" value
    .ok { page with
      text := page.text ++ deltaText value
      serverMetrics := if truthy numbers metrics then metrics.getD .null else page.serverMetrics
      usage := if truthy numbers usage then usage.getD .null else page.usage }

end NanoVllm.Serve
