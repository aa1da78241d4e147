import CoOS.Lib.Word
import CoOS.Lib.Mask
import CoOS.Lib.Ring
import CoOS.Lib.Line
import CoOS.Lib.KeyOrder
import CoOS.Lib.DList
import CoOS.Lib.Delta
import CoOS.Lib.Wrap
import CoOS.Lib.Blocks
import CoOS.Lib.Ensures
import CoOS.Heap.Code
import CoOS.Heap.Rep
import CoOS.Heap.Malloc
import CoOS.Heap.Free
import CoOS.Heap.Run
import CoOS.Heap.Fit
import CoOS.Heap.Reject
import CoOS.Kernel.State
import CoOS.Kernel.PrioTable
import CoOS.Ready.Search
import CoOS.Ready.Table
import CoOS.Ready.Loops
import CoOS.Ready.Order
import CoOS.Kernel.Sched
import CoOS.Kernel.Wait
import CoOS.Kernel.Mutex
import CoOS.Kernel.Task
import CoOS.Kernel.Event
import CoOS.Kernel.Flag
import CoOS.Kernel.Service
import CoOS.Kernel.Frame
import CoOS.Kernel.System
import CoOS.Kernel.Delete
import CoOS.Ready.Agree
import CoOS.Kernel.Utility
import CoOS.Kernel.Timer
import CoOS.Timer.Dispose
import CoOS.Timer.Run
import CoOS.Timer.Linked
import CoOS.Timer.Undisturbed
import CoOS.Timer.Count
import CoOS.Coh.Base
import CoOS.Coh.Moves
import CoOS.Coh.Sched
import CoOS.Coh.Tick
import CoOS.Coh.Pending
import CoOS.Coh.Calls
import CoOS.Coh.Events
import CoOS.Coh.Flags
import CoOS.Coh.FlagCalls
import CoOS.Coh.FlagKeep
import CoOS.Coh.Drain
import CoOS.Coh.Lifecycle
import CoOS.Run.Abs
import CoOS.Run.Effects
import CoOS.Run.Sim
import CoOS.Run.Inv
import CoOS.Run.Start
import CoOS.Run.Boot
import CoOS.Run.Coherent
import CoOS.Run.Pool
import CoOS.Run.Delayed
import CoOS.Run.Slice
import CoOS.Run.SliceCalls
import CoOS.Run.Robin
import CoOS.Run.Reads
import CoOS.Run.Null
import CoOS.Kernel.Unlock
import CoOS.Run.Unlock
import CoOS.Run.Release
import CoOS.Run.LockedTicks
import CoOS.Mem.Code
import CoOS.Mem.Run
import CoOS.Mem.Conserve
import CoOS.Mem.Inside
import CoOS.Mem.Create
import CoOS.Run.Requests
import CoOS.Event.Buffer
import CoOS.Event.Turn
import CoOS.Event.Flow
import CoOS.Event.Served
import CoOS.Event.Tokens
import CoOS.Event.Queue
import CoOS.Event.Race
import CoOS.Event.Delivery
import CoOS.Event.Order
import CoOS.Event.Pool
import CoOS.Event.PoolRun
import CoOS.Event.PoolSplit
import CoOS.Event.QcbHeld
import CoOS.Event.Qcb
import CoOS.Run.Expiry
import CoOS.Event.Clean
import CoOS.Event.Status
import CoOS.Event.Deferred
import CoOS.Event.Found
import CoOS.Mutex.Index
import CoOS.Mutex.Nested
import CoOS.Mutex.Waiters
import CoOS.Mutex.Inherit
import CoOS.Mutex.Lists
import CoOS.Mutex.Sections
import CoOS.Mutex.Locks
import CoOS.Mutex.Frame
import CoOS.Delay.Wrap
import CoOS.Delay.Deadlines
import CoOS.Flag.Wake
import CoOS.Flag.Turn
import CoOS.Flag.Mark
import CoOS.Flag.Masks
import CoOS.Flag.Result
import CoOS.Static.Code
import CoOS.Static.Lists
import CoOS.Static.Run
import CoOS.Mutex.Steps
import CoOS.Mutex.Run
import CoOS.Mutex.Boot
import CoOS.Mutex.History
import CoOS.Mutex.Restore
import CoOS.Lib.Thumb
import CoOS.Port.Bytes
import CoOS.Port.Machine
import CoOS.Port.Handover
import CoOS.Port.Contexts
