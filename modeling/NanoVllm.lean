import NanoVllm.Basic
import NanoVllm.Sequence
import NanoVllm.Library.StableDecoding
import NanoVllm.Library.PathIndex
import NanoVllm.Library.References
import NanoVllm.Library.Paging
import NanoVllm.Radix.Basic
import NanoVllm.Radix.Lookup
import NanoVllm.Radix.Insert
import NanoVllm.Radix.Remove
import NanoVllm.Radix.Cache
import NanoVllm.Radix.Refinement
import NanoVllm.Radix.Validate
import NanoVllm.HierarchicalCache
import NanoVllm.Qos
import NanoVllm.BlockManager.Basic
import NanoVllm.BlockManager.Index
import NanoVllm.BlockManager.Pool
import NanoVllm.Scheduler.Basic
import NanoVllm.ModelRunner
import NanoVllm.Engine
import NanoVllm.Memory.Basic
import NanoVllm.Memory.Release
import NanoVllm.Memory.Growth
import NanoVllm.Memory.Admission
import NanoVllm.Memory.Publication
import NanoVllm.Memory.Execution
import NanoVllm.Memory.Restore
import NanoVllm.ModelRunner.Slots
import NanoVllm.Memory.Run
import NanoVllm.Scheduler.Invariant
import NanoVllm.Scheduler.Reclaim
import NanoVllm.Scheduler.Capacity
import NanoVllm.Scheduler.Admission
import NanoVllm.Scheduler.Prefill
import NanoVllm.Scheduler.PrefillLoop
import NanoVllm.Scheduler.Decode
import NanoVllm.Library.SortBy
import NanoVllm.Scheduler.Urgency
import NanoVllm.Scheduler.Schedule
import NanoVllm.Scheduler.Residents
import NanoVllm.Scheduler.BatchShape
import NanoVllm.Scheduler.Postprocess
import NanoVllm.Scheduler.Operations
import NanoVllm.Engine.Invariant
import NanoVllm.Engine.Runs
import NanoVllm.Engine.Phases
import NanoVllm.Engine.DecodeOrder
import NanoVllm.Engine.ResidentCap
import NanoVllm.ModelRunner.Batches
import NanoVllm.ModelRunner.Ranks
import NanoVllm.ModelRunner.Graphs
import NanoVllm.Library.Bytes
import NanoVllm.Library.Json
import NanoVllm.KvPage
import NanoVllm.KvPage.RoundTrip
import NanoVllm.KvPage.Errors
import NanoVllm.Library.PathLeaves
import NanoVllm.Radix.Leaves
import NanoVllm.RemoteCatalog
import NanoVllm.RemoteCatalog.Codec
import NanoVllm.RemoteCatalog.PrefixCatalog
import NanoVllm.RemoteCatalog.Map
import NanoVllm.RemoteCatalog.RoundTrip
import NanoVllm.Serve.EngineWorker
import NanoVllm.Serve.EventQueue
import NanoVllm.Serve.Wakeups
import NanoVllm.Serve.TerminalEvents
import NanoVllm.Serve.ServingStack
import NanoVllm.Serve.TextDeltas
import NanoVllm.Serve.StreamedText
import NanoVllm.Transfer
import NanoVllm.Transfer.Steps
import NanoVllm.Transfer.Invariant
import NanoVllm.Transfer.Coherence
import NanoVllm.Library.Windows
import NanoVllm.Transfer.Run
import NanoVllm.Transfer.Callers
import NanoVllm.Transfer.Linearizability
import NanoVllm.Transfer.Persistence
import NanoVllm.RemoteCatalog.Pages
import NanoVllm.RemoteRestore
import NanoVllm.RemoteRestore.Invariant
import NanoVllm.RemoteRestore.Methods
import NanoVllm.RemoteRestore.Durability
import NanoVllm.Compression.Alignment
import NanoVllm.Compression.QueryAware
import NanoVllm.Engine.Capacity
import NanoVllm.Reclaim.Plans
import NanoVllm.Reclaim.Target
import NanoVllm.Reclaim.Forced
import NanoVllm.Library.HighWater
import NanoVllm.Reclaim.Accounting
import NanoVllm.Reclaim.Log
import NanoVllm.Engine.Recomputed
import NanoVllm.Engine.Reserve
import NanoVllm.Library.Recency
import NanoVllm.Radix.Visits
import NanoVllm.Radix.Recency
import NanoVllm.PrefixCache.Entries
import NanoVllm.PrefixCache.Calls
import NanoVllm.PrefixCache.Operations
import NanoVllm.PrefixCache.Backends
import NanoVllm.Library.Delimited
import NanoVllm.StorageBackend
import NanoVllm.StorageBackend.PageKey
import NanoVllm.StorageBackend.PrefixKeys
import NanoVllm.RemoteRestore.Coalescing
import NanoVllm.RemoteRestore.Planning
import NanoVllm.Engine.Aging
import NanoVllm.Engine.TokenEvents
import NanoVllm.Qos.Aging
import NanoVllm.Engine.BatchShape
import NanoVllm.Engine.Ownership
import NanoVllm.Engine.Conservation
import NanoVllm.ModelRunner.WriteIsolation
import NanoVllm.Engine.Writebacks
import NanoVllm.Engine.KvContent
import NanoVllm.Engine.Containment
import NanoVllm.Library.TriggerWindows
import NanoVllm.Library.JsonText
import NanoVllm.SchedulerTrace
import NanoVllm.SchedulerTrace.Windows
import NanoVllm.Scheduler.Progress
import NanoVllm.Engine.Progress
import NanoVllm.Scheduler.Blocking
import NanoVllm.Engine.Blocking
import NanoVllm.Scheduler.Work
import NanoVllm.Engine.Termination
import NanoVllm.Scheduler.Restores
import NanoVllm.Engine.RestoreAtomic
import NanoVllm.Library.Autoregression
import NanoVllm.Engine.Uncompressed
import NanoVllm.Engine.Refinement
import NanoVllm.Library.Quantile
import NanoVllm.Metrics
import NanoVllm.Metrics.History
import NanoVllm.Metrics.Summary
import NanoVllm.LlmEngine
import NanoVllm.LlmEngine.Generate
import NanoVllm.Serve.Actions
import NanoVllm.Serve.Completions
import NanoVllm.Library.Frames
import NanoVllm.Library.JsonParse
import NanoVllm.Serve.EventStream
import NanoVllm.Serve.ShownText
import NanoVllm.ModelRunner.Calls
import NanoVllm.ModelRunner.CallOrder
import NanoVllm.ModelRunner.PageIo
import NanoVllm.RemoteRestore.Provenance
import NanoVllm.Library.CachedModel
import NanoVllm.Engine.KvEntries
import NanoVllm.Engine.KvBytes
import NanoVllm.RemoteRestore.Candidates
import NanoVllm.Fleet
import NanoVllm.Fleet.Pages
import NanoVllm.Fleet.Engines
import NanoVllm.RemoteCatalog.Documents
import NanoVllm.Fleet.Refinement
import NanoVllm.Library.CausalStack
import NanoVllm.Library.Sharding
import NanoVllm.Layers.Linear
import NanoVllm.Layers.EmbedHead
import NanoVllm.Models.Qwen3
import NanoVllm.Models.TensorParallel
import NanoVllm.Models.Loading
import NanoVllm.Engine.CachedServing
import NanoVllm.Models.Serving
import NanoVllm.Radix.Tiers
