import TmsCores.RunLoop
import TmsCores.Tms7000.Execution

namespace TmsCores.Tms7000

namespace Exec

variable {β : Type} [Bus β]

/-- Where the lines have the addresses of their handlers. -/
def interruptVectors : Array UInt16 :=
  #[0xFFFC, 0xFFFA, 0xFFF8]

def interruptVector (line : UInt8) : Exec β UInt16 :=
  require interruptVectors[line.toNat]? 0

/-- What taking an interrupt costs.  Waking from idle saves the end of an instruction. -/
def serviceCycles (idle : Bool) : Nat :=
  if idle then 17 else 19

def wake : Exec β Unit := do
  if (← cpu).idle then
    setIdle false

def acknowledge (line : UInt8) : Exec β Unit :=
  modify fun machine =>
    { machine with
      cpu.interrupts := machine.cpu.interrupts.acknowledge line
      bus := (Bus.acknowledge machine.bus line).2 }

/-- Takes the interrupt that is due, if there is one.  Returns the cycles that this took. -/
def serviceInterrupt : Exec β Nat := do
  let before ← cpu
  match before.pending with
  | none => return 0
  | some ⟨line, _⟩ =>
      push before.st
      pushPc
      modifySt fun _ => 0
      setPc (← readWord (← interruptVector line))
      acknowledge line
      wake
      return serviceCycles before.idle

/-- A tick of the peripheral clock for the devices on the bus, one of which may drive a line. -/
def tickBus : Exec β Unit :=
  modify fun machine =>
    match Bus.tick machine.bus with
    | (none, bus) => { machine with bus := bus }
    | (some (line, state), bus) =>
        { machine with bus := bus, cpu := machine.cpu.drive line state }

/-- A tick of the peripheral clock: timer 1 first, then the devices on the bus. -/
def tick : Exec β Unit := do
  modifyCpu Cpu.clockTimer
  tickBus

def ticks : Nat → Exec β Unit
  | 0 => return
  | count + 1 => do
      tick
      ticks count

/-- Charges cycles.  Returns the number of ticks that they complete. -/
def charge (cycles : Nat) : Exec β Nat := do
  expect ((← cpu).divider.divide? cycles).isSome
  modifyGet fun machine =>
    let (count, cpu) := machine.cpu.advance cycles
    (count, { machine with cpu := cpu })

/-- Charges cycles, and passes on the ticks that they complete. -/
def account (cycles : Nat) : Exec β Unit := do
  ticks (← charge cycles)

/-- Forgets what earlier operations left behind. -/
def clearLeftovers : Exec β Unit :=
  modify ({ · with wait := 0 })

/-- Lets cycles pass until the next tick, but no more than `limit`.  Returns their number. -/
def rest (limit : Nat) : Exec β Nat := do
  let cycles := max 1 (min (← cpu).divider.untilNext limit)
  account cycles
  return cycles

/-- Executes an instruction and accounts for it, and for the cycles of the service before it. -/
def work (service : Nat) : Exec β Nat := do
  let cost ← execute
  let cycles := service + cost + (← get).wait
  account cycles
  return cycles

/-- One iteration: an interrupt if one is due, then an instruction, for which an idle processor rests
instead.  Returns the cycles consumed. -/
def iterate (limit : Nat) : Exec β Nat := do
  clearLeftovers
  let service ← serviceInterrupt
  if (← cpu).idle then rest limit else work service

def step : Exec β Nat :=
  iterate RunLoop.cycleCap

/-- Loads the program counter from the reset vector, with interrupts and timer as after power-up.
The register file keeps its contents. -/
def reset : Exec β Unit := do
  clearLeftovers
  modifyCpu Cpu.powerUp
  wake
  setPc (← readWord 0xFFFE)

end Exec

namespace Machine

variable {β : Type} [Bus β]

def run (budget : UInt32) (machine : Machine β) : Option (Nat × Machine β) :=
  RunLoop.run Exec.iterate budget machine

end Machine

end TmsCores.Tms7000
