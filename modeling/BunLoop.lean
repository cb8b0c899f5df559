import BunLoop.Links
import BunLoop.Loop
import BunLoop.ContextLists
import BunLoop.LoopContexts
import BunLoop.Sweep
import BunLoop.Sweep.Refinement
import BunLoop.Sweep.Reentrancy
import BunLoop.Sweep.Contexts
import BunLoop.Sweep.Ticks
import BunLoop.SweepTimer
import BunLoop.LowPriority
import BunLoop.Dispatch
import BunLoop.Dispatch.Frame
import BunLoop.Dispatch.Receive
import BunLoop.Dispatch.Closes
import BunLoop.Dispatch.Udp
import BunLoop.Iteration
import BunLoop.Placement
import BunLoop.Placement.Runs
import BunLoop.Placement.Closed
import BunLoop.ClosedContexts
import BunLoop.ScriptExecutionContext.Registry
import BunLoop.ScriptExecutionContext.Routing
import BunLoop.ScriptExecutionContext.MessagePorts
import BunLoop.ScriptExecutionContext.MessagePortSet
import BunLoop.ScriptExecutionContext.DestructionObservers
import BunLoop.ScriptExecutionContext.WebSocketContexts
import BunLoop.Dns
