import GodotStream.Lib.Table
import GodotStream.Lib.Worklist
import GodotStream.Lib.IntegerGrid
import GodotStream.Geometry
import GodotStream.FixedSizedCache
import GodotStream.ObjectTable
import GodotStream.Basic
import GodotStream.Chunk
import GodotStream.ChunkIndex
import GodotStream.StreamSqliteDB
import GodotStream.SpatialQuery
import GodotStream.FlushTask
import GodotStream.AncestorChunks
import GodotStream.AsyncDbWorker
import GodotStream.Lib.Run
import GodotStream.ObjectSceneCache
import GodotStream.StreamManager
import GodotStream.World
import GodotStream.Events
import GodotStream.Identity
import GodotStream.Handlers
import GodotStream.Unloading
import GodotStream.NeverLost
import GodotStream.ChildrenIndex
import GodotStream.UnloadEffect
import GodotStream.ThreadLoop
import GodotStream.BoxCache
import GodotStream.SubtreeRemoval
import GodotStream.QueryFailure
import GodotStream.SaveOrder
import GodotStream.ParentChange
import GodotStream.FlushFailure
import GodotStream.LastReport
import GodotStream.Deletion
import GodotStream.Presence
import GodotStream.StoredScenes
import GodotStream.Bijection
import GodotStream.Reloading
import GodotStream.Streaming
import GodotStream.Binding
import GodotStream.OutOfRange
import GodotStream.LoadQueues
import GodotStream.Commit
import GodotStream.StreamWorldProbe
import GodotStream.Lifecycle
import GodotStream.Departure
import GodotStream.NodeLedger
import GodotStream.Revival
import GodotStream.Switching
import GodotStream.OneByOne
import GodotStream.StoredBoxes
import GodotStream.Tiles
import GodotStream.Lib.LinearForm
import GodotStream.WorldBox
import GodotStream.FlushOrder
import GodotStream.UnsetBoxes
import GodotStream.ChunkNames
import GodotStream.QueryUnion
import GodotStream.DescendantRemoval
import GodotStream.Lib.RecencyList
import GodotStream.CacheRefinement
import GodotStream.CacheIterators
import GodotStream.SceneCacheRefinement
import GodotStream.DroppedScenes
import GodotStream.ProbePolling
import GodotStream.RemovalAssertion
import GodotStream.Lib.Loop
import GodotStream.Lib.Ring
import GodotStream.Lib.RobinHood
import GodotStream.UnorderedDense
import GodotStream.DenseBuckets
import GodotStream.DenseProbes
import GodotStream.DenseInsertion
import GodotStream.DenseLookup
import GodotStream.DenseErasure
import GodotStream.DenseRefinement
import GodotStream.DenseRuns
import GodotStream.Lib.Radix
import GodotStream.UuidText
import GodotStream.StoredIdentity
import GodotStream.Lib.WeakIndex
import GodotStream.WorkerPool
import GodotStream.PooledTasks
import GodotStream.DenseCache
import GodotStream.Lib.Transaction
import GodotStream.DatabaseFile
import GodotStream.Openings
import GodotStream.Lib.Mutex
import GodotStream.ThreadLocks
import GodotStream.Lib.Progress
import GodotStream.LockedRefinement
import GodotStream.LockProgress
