import MessagePump.Kernel.Transfer
import MessagePump.Scenario.Play
import MessagePump.Proofs.Histories
import MessagePump.Proofs.Steps
import MessagePump.Proofs.Execution
import MessagePump.Proofs.Nesting
import MessagePump.Proofs.OwnContexts
import MessagePump.Proofs.PrivateContexts
import MessagePump.Proofs.LoopDiscipline
import MessagePump.Proofs.WakeUps
import MessagePump.Proofs.Deadlines
import MessagePump.Proofs.OwnDeadlines
import MessagePump.Proofs.Quitting
import MessagePump.Proofs.WakeSlot
import MessagePump.Proofs.ForwardedWakes
import MessagePump.Proofs.ContextSteps
import MessagePump.Proofs.SystemCalls
import MessagePump.Proofs.Sessions
import MessagePump.Proofs.Pollers
import MessagePump.Proofs.Latching
import MessagePump.Proofs.Coalescing
import MessagePump.Proofs.InterestLists
import MessagePump.Proofs.InterestAgreement
import MessagePump.Proofs.WatchOperations
import MessagePump.Proofs.WatchAgreement
import MessagePump.Proofs.ContextHistories
import MessagePump.Proofs.Callbacks
import MessagePump.Proofs.Unwatching
import MessagePump.Proofs.PollCycles
import MessagePump.Proofs.Dispatching
import MessagePump.Proofs.HookSteps
import MessagePump.Proofs.HookClearing
import MessagePump.Proofs.HookSuccession
import MessagePump.Proofs.RunOutcomes
import MessagePump.Proofs.DeadlineExpiry
import MessagePump.Proofs.Reentrancy
import MessagePump.Proofs.RefusedOperations
import MessagePump.Proofs.HookPanics
import MessagePump.Proofs.ReportedReadiness
import MessagePump.Proofs.WaitTimes
import MessagePump.Proofs.Capacities
import MessagePump.Proofs.SignalConservation
