import TmsCores.RunLoop
import TmsCores.Tms9900.Execution

namespace TmsCores.Tms9900

namespace Exec

variable {β : Type} [Bus β]

def wake : Exec β Unit := do
  if (← cpu).idle then
    setIdle false

def interruptVector (config : Config) (pending : PendingLine) : UInt16 :=
  if pending.line = config.loadLine then 0xFFFC else 4 * pending.level.toUInt16

/-- The status register in an interrupt handler: only lower levels may interrupt it.  LOAD leaves
the mask alone, and at level 0 it stays 0. -/
def serviceStatus (config : Config) (pending : PendingLine) (st : UInt16) : UInt16 :=
  if pending.line = config.loadLine then st
  else Status.withMask st (UInt16.ofNat (pending.level.toNat - 1))

def acknowledge (line : UInt8) : Exec β Unit :=
  modify fun machine =>
    { machine with
      cpu.interrupts := machine.cpu.interrupts.acknowledge line
      bus := (Bus.acknowledge machine.bus line).2 }

/-- Takes the interrupt that is due, if there is one.  Returns the cycles that this took. -/
def serviceInterrupt : Exec β Nat := do
  let before ← cpu
  match before.pending with
  | none => return 0
  | some pending =>
      contextSwitch (interruptVector before.config pending)
      modifySt (serviceStatus before.config pending)
      acknowledge pending.line
      wake
      return before.timing.interrupt.toNat

/-- A tick of the peripheral clock for the devices on the bus, one of which may drive a line. -/
def tickBus : Exec β Unit :=
  modify fun machine =>
    match Bus.tick machine.bus with
    | (none, bus) => { machine with bus := bus }
    | (some (line, state), bus) =>
        { machine with bus := bus, cpu := machine.cpu.drive line state }

/-- A tick of the peripheral clock: the decrementer first, then the devices on the bus. -/
def tick : Exec β Unit := do
  modifyCpu Cpu.tick
  tickBus

def ticks : Nat → Exec β Unit
  | 0 => return
  | count + 1 => do
      tick
      ticks count

/-- Charges cycles.  Returns the number of ticks that they complete. -/
def charge (cycles : Nat) : Exec β Nat := do
  expect ((← cpu).divider.divide? cycles).isSome
  modifyGet fun machine =>
    let (count, cpu) := machine.cpu.advance cycles
    (count, { machine with cpu := cpu })

/-- Charges cycles, and passes on the ticks that they complete. -/
def account (cycles : Nat) : Exec β Unit := do
  ticks (← charge cycles)

/-- Lets interrupts be taken again. -/
def releaseInterrupts : Exec β Unit :=
  modifyCpu ({ · with suppress := false })

/-- Takes the interrupt that is due, unless the previous instruction held interrupts off. -/
def serviceUnlessSuppressed : Exec β Nat := do
  let suppressed := (← cpu).suppress
  releaseInterrupts
  if suppressed then return 0 else serviceInterrupt

/-- Forgets what earlier operations left behind. -/
def clearLeftovers : Exec β Unit :=
  modify ({ · with wait := 0, operandWord := none })

/-- Lets cycles pass until the next tick, but no more than `limit`.  Returns their number. -/
def rest (limit : Nat) : Exec β Nat := do
  let cycles := max 1 (min (← cpu).divider.untilNext limit)
  account cycles
  return cycles

/-- Executes an instruction and accounts for it, and for the cycles of the service before it. -/
def work (service : Nat) : Exec β Nat := do
  let cost ← execute
  let cycles := service + cost + (← get).wait
  account cycles
  return cycles

/-- One iteration: an interrupt if one is due, then an instruction, for which an idle processor rests
instead.  Returns the cycles consumed. -/
def iterate (limit : Nat) : Exec β Nat := do
  clearLeftovers
  let service ← serviceUnlessSuppressed
  if (← cpu).idle then rest limit else work service

def step : Exec β Nat :=
  iterate RunLoop.cycleCap

/-- A context switch through the vector at 0, with interrupts and the chip's own devices as after
power-up. -/
def reset : Exec β Unit := do
  clearLeftovers
  modifyCpu Cpu.powerUp
  wake
  contextSwitch 0x0000
  let wait := (← get).wait
  modifyCpu (·.endReset wait)

/-- The value of a register.  A register of the workspace is read over the bus. -/
def read? : Register → Exec β (Except MissingRegister UInt16)
  | .pc => return .ok (← cpu).pc
  | .wp => return .ok (← cpu).wp
  | .st => return .ok (← cpu).st
  | .r number => do
      if number < 16 then
        return .ok (← readRegister number.toUInt16)
      else
        return .error ⟨.r number⟩

/-- Replaces a register.  A register of the workspace is written over the bus. -/
def write? (register : Register) (value : UInt16) : Exec β (Except MissingRegister Unit) := do
  match register with
  | .pc => do
      modifyCpu (·.setPc value)
      return .ok ()
  | .wp => do
      modifyCpu (·.setWp value)
      return .ok ()
  | .st => do
      modifyCpu (·.setSt value)
      return .ok ()
  | .r number => do
      if number < 16 then
        writeRegister number.toUInt16 value
        return .ok ()
      else
        return .error ⟨.r number⟩

end Exec

namespace Machine

variable {β : Type} [Bus β]

def run (budget : UInt32) (machine : Machine β) : Option (Nat × Machine β) :=
  RunLoop.run Exec.iterate budget machine

end Machine

end TmsCores.Tms9900
