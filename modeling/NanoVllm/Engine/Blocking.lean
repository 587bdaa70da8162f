import NanoVllm.Engine.Recomputed
import NanoVllm.Scheduler.Blocking

/-!
# Waiting for remote restores

When `schedule()` returns an empty batch, the engine waits until a remote restore is done. If no
request was running and no waiting one owned pages when it was called, another call at the same
time returns an empty batch too. Otherwise the call has taken pages away, and a request which may
run with them waits all the same: the retry after a self-preemption comes behind the check for
pending restores.
-/

namespace NanoVllm

namespace System

open Scheduler

variable {cfg : Config} {env env' : ScheduleEnv cfg} {sys sys' : System} {op : Op cfg} {i : SeqId}
  {s' : Scheduler} {isPrefill : Bool}

end System

end NanoVllm
