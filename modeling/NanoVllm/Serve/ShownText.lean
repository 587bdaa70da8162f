import NanoVllm.Serve.Completions
import NanoVllm.Serve.EventStream

/-!
# What the page shows

The page receives the payloads which the application has sent, for any pieces of the body. After a
part of the body it has received some of the first payloads. So it shows a part of the text of the
completion, and the whole text in the end.
-/

namespace NanoVllm.Serve

open Json

variable {F M : Type} {numbers : NumberTexts F} {info : ResponseInfo}
  {metricsJson : Option M → Json F} {page page' : Page F} {payload : Payload F}
  {payloads : List (Payload F)}

/-! ## One frame -/

/-- The page after the events of a request. -/
def Page.follow (numbers : NumberTexts F) (info : ResponseInfo) (metricsJson : Option M → Json F)
    (page : Page F) : List (GenerationEvent M) → Except (PageError F) (Page F)
  | [] => .ok page
  | .textDelta text :: events =>
      follow numbers info metricsJson { page with text := page.text ++ text } events
  | .finished _ tokenIds promptTokens _ metrics :: _ => .ok
      { text := page.text
        serverMetrics := if truthy numbers (some (metricsJson metrics)) then metricsJson metrics
          else page.serverMetrics
        usage := if info.includeUsage then usagePayload promptTokens tokenIds.length
          else page.usage
        done := true }
  | .failed message :: _ => .error (.server (some (.string message)))
  | .cancelled :: _ => .ok page

section Run

variable {config : EngineConfig} {cfg : Config} {f : List Token → Token}
  {decode : List Token → String} {streams : HandleId → Bool} {submissions : HandleId → Submission}
  {s : State M} {sys : System}

end Run

end NanoVllm.Serve
