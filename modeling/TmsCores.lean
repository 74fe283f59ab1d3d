import TmsCores.Arithmetic.Flags
import TmsCores.Arithmetic.PackedDecimal
import TmsCores.Bus.Flat
import TmsCores.Bus.Recorded
import TmsCores.Bus.Timed
import TmsCores.Clock
import TmsCores.Host
import TmsCores.Interrupt.Controller
import TmsCores.MessagePack.Schema
import TmsCores.MessagePack.Wire
import TmsCores.Observation
import TmsCores.OpcodeTable
import TmsCores.Proofs.Arithmetic.Mask
import TmsCores.Proofs.Arithmetic.Parity
import TmsCores.Proofs.Bus.Access
import TmsCores.Proofs.Bus.Confinement
import TmsCores.Proofs.Bus.IdleNews
import TmsCores.Proofs.Bus.Memory
import TmsCores.Proofs.Bus.Ram
import TmsCores.Proofs.Bus.Signals
import TmsCores.Proofs.Clock
import TmsCores.Proofs.Correspondence
import TmsCores.Proofs.CycleAccounts
import TmsCores.Proofs.History
import TmsCores.Proofs.Interrupt.Controller
import TmsCores.Proofs.Interrupt.History
import TmsCores.Proofs.Interrupt.Latch
import TmsCores.Proofs.Interrupt.Priority
import TmsCores.Proofs.Interrupt.State
import TmsCores.Proofs.Ledger
import TmsCores.Proofs.MessagePack.Extension
import TmsCores.Proofs.MessagePack.Record
import TmsCores.Proofs.MessagePack.RoundTrip
import TmsCores.Proofs.Progress
import TmsCores.Proofs.RunLoop
import TmsCores.Proofs.Snapshot.Parts
import TmsCores.Proofs.Snapshot.Restoration
import TmsCores.Proofs.TimeSlicing
import TmsCores.Proofs.Tms7000.AddressSpace
import TmsCores.Proofs.Tms7000.Bounds
import TmsCores.Proofs.Tms7000.Confinement
import TmsCores.Proofs.Tms7000.Consistency
import TmsCores.Proofs.Tms7000.Contents
import TmsCores.Proofs.Tms7000.Course
import TmsCores.Proofs.Tms7000.Eligibility
import TmsCores.Proofs.Tms7000.History
import TmsCores.Proofs.Tms7000.HostSimulation
import TmsCores.Proofs.Tms7000.InterruptDiscipline
import TmsCores.Proofs.Tms7000.Latch
import TmsCores.Proofs.Tms7000.Ledger
import TmsCores.Proofs.Tms7000.Reachability
import TmsCores.Proofs.Tms7000.Restoration
import TmsCores.Proofs.Tms7000.Signals
import TmsCores.Proofs.Tms7000.Simulation
import TmsCores.Proofs.Tms7000.Snapshot
import TmsCores.Proofs.Tms7000.Stability
import TmsCores.Proofs.Tms7000.Stack
import TmsCores.Proofs.Tms7000.StackDiscipline
import TmsCores.Proofs.Tms7000.StackFrame
import TmsCores.Proofs.Tms7000.StackReturn
import TmsCores.Proofs.Tms7000.Status
import TmsCores.Proofs.Tms7000.Store
import TmsCores.Proofs.Tms7000.TimeSlicing
import TmsCores.Proofs.Tms9900.AddressSpace
import TmsCores.Proofs.Tms9900.Bounds
import TmsCores.Proofs.Tms9900.BusAccess
import TmsCores.Proofs.Tms9900.BusWidth
import TmsCores.Proofs.Tms9900.Confinement
import TmsCores.Proofs.Tms9900.Consistency
import TmsCores.Proofs.Tms9900.Contents
import TmsCores.Proofs.Tms9900.ContextSwitch
import TmsCores.Proofs.Tms9900.Core
import TmsCores.Proofs.Tms9900.Course
import TmsCores.Proofs.Tms9900.Eligibility
import TmsCores.Proofs.Tms9900.ExecuteChain
import TmsCores.Proofs.Tms9900.History
import TmsCores.Proofs.Tms9900.HostSimulation
import TmsCores.Proofs.Tms9900.IdleExclusion
import TmsCores.Proofs.Tms9900.IllegalTrap
import TmsCores.Proofs.Tms9900.InterruptDiscipline
import TmsCores.Proofs.Tms9900.InterruptMask
import TmsCores.Proofs.Tms9900.Ledger
import TmsCores.Proofs.Tms9900.LineStates
import TmsCores.Proofs.Tms9900.Reachability
import TmsCores.Proofs.Tms9900.Restoration
import TmsCores.Proofs.Tms9900.Signals
import TmsCores.Proofs.Tms9900.Simulation
import TmsCores.Proofs.Tms9900.Snapshot
import TmsCores.Proofs.Tms9900.Stability
import TmsCores.Proofs.Tms9900.Status
import TmsCores.Proofs.Tms9900.Suppression
import TmsCores.Proofs.Tms9900.TimeSlicing
import TmsCores.Proofs.Tms9900.Workspace
import TmsCores.RunLoop
import TmsCores.Text.NaturalNumber
import TmsCores.Tms7000.AddressSpace
import TmsCores.Tms7000.Arithmetic
import TmsCores.Tms7000.Cpu
import TmsCores.Tms7000.Execution
import TmsCores.Tms7000.Host
import TmsCores.Tms7000.Inspection
import TmsCores.Tms7000.InstructionText
import TmsCores.Tms7000.Iteration
import TmsCores.Tms7000.Machine
import TmsCores.Tms7000.Snapshot
import TmsCores.Tms9900.Arithmetic
import TmsCores.Tms9900.Config
import TmsCores.Tms9900.Cpu
import TmsCores.Tms9900.Execution
import TmsCores.Tms9900.Host
import TmsCores.Tms9900.Inspection
import TmsCores.Tms9900.InstructionText
import TmsCores.Tms9900.Iteration
import TmsCores.Tms9900.Machine
import TmsCores.Tms9900.OnChip
import TmsCores.Tms9900.Operand
import TmsCores.Tms9900.Register
import TmsCores.Tms9900.Snapshot
import TmsCores.Tms9900.Status
import TmsCores.Proofs.Tms9900.IdleNews
import TmsCores.Proofs.Tms7000.IdleNews
import TmsCores.Proofs.Bus.Waits
import TmsCores.Proofs.IdleState
import TmsCores.Proofs.Tms7000.WaitStates
import TmsCores.Proofs.Tms9900.WaitStates
import TmsCores.Proofs.WaitStates
import TmsCores.Proofs.Tms9900.Cost
import TmsCores.Proofs.Tms7000.Cost
import TmsCores.Proofs.Overshoot
import TmsCores.Proofs.Tms9900.StatusFrame
import TmsCores.Proofs.Arithmetic.Overflow
import TmsCores.Proofs.Tms9900.Overflow
import TmsCores.Proofs.Tms9900.Division
import TmsCores.Proofs.Tms9900.RegisterPair
import TmsCores.Proofs.Tms7000.Result
import TmsCores.Proofs.Tms7000.StatusFrame
import TmsCores.Proofs.Tms7000.DecimalChain
import TmsCores.Proofs.Tms9900.Branch
import TmsCores.Proofs.Tms9900.Shift
import TmsCores.Proofs.Tms7000.TimerPeriod
import TmsCores.Proofs.Tms9900.ByteAddressing
import TmsCores.Proofs.Tms9900.IoBits
import TmsCores.Proofs.Tms9900.IoTransfer
import TmsCores.Proofs.Tms9900.AccessSequence
import TmsCores.Proofs.Interrupt.Draining
import TmsCores.Proofs.Stepping
import TmsCores.Proofs.StepAgreement
import TmsCores.Proofs.Countdown
import TmsCores.Proofs.Tms7000.IdleTimer
import TmsCores.Proofs.Tms9900.Decrementer
import TmsCores.Proofs.Tms9900.IdleDecrementer
import TmsCores.Proofs.IdleTime
import TmsCores.Proofs.Tms9900.DecrementerCount
import TmsCores.Proofs.InstructionStream
import TmsCores.Proofs.Inspection
import TmsCores.Proofs.Reset
import TmsCores.Proofs.TickDivision
import TmsCores.Proofs.OpcodeTable
