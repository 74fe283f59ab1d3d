import TmsCores.Clock
import TmsCores.Interrupt.Controller
import TmsCores.Tms9900.Config
import TmsCores.Tms9900.OnChip
import TmsCores.Tms9900.Register
import TmsCores.Tms9900.Status

namespace TmsCores.Tms9900

/-- A processor between two iterations: all of its state that lasts.  The registers of the
workspace are words of memory, and not part of it. -/
structure Cpu where
  config : Config
  pc : UInt16 := 0
  wp : UInt16 := 0
  st : UInt16 := 0
  interrupts : InterruptController
  /-- Unused on chips that have nothing of their own. -/
  chip : OnChip := {}
  divider : TickDivider
  idle : Bool := false
  /-- No interrupt is taken before the next instruction. -/
  suppress : Bool := false
  cycles : CycleCount := {}
  deriving DecidableEq

namespace Cpu

/-- The interrupt inputs: a line for each level, and LOAD. -/
def lineConfigs (config : Config) : List LineConfig :=
  (List.range config.levels.toNat).map (fun level => ⟨UInt8.ofNat level, true, config.latch⟩) ++
    [⟨0, false, config.latch⟩]

/-- A new processor.  It has to be reset before it runs a program. -/
def ofConfig (config : Config) : Cpu where
  config := config
  interrupts := .ofLines (lineConfigs config) .atOrBelow
  divider := .ofDivisor config.tickDivider

def ofVariant (variant : Variant) : Cpu :=
  ofConfig variant.config

def timing (cpu : Cpu) : Timing :=
  cpu.config.instructionSet.timing

/-- The program counter moved, as a host does to start a program without a reset vector. -/
def setPc (cpu : Cpu) (pc : UInt16) : Cpu :=
  { cpu with pc := Word.even pc }

def skip (cpu : Cpu) (words : UInt16) : Cpu :=
  { cpu with pc := cpu.pc + 2 * words }

def setWp (cpu : Cpu) (wp : UInt16) : Cpu :=
  { cpu with wp := Word.even wp }

/-- The status register replaced, as far as it can be written. -/
def setSt (cpu : Cpu) (st : UInt16) : Cpu :=
  { cpu with st := st &&& cpu.config.statusMask }

/-- The address of a register of the workspace.  Number 16 is the second word of a pair that starts
at R15. -/
def registerAddress (cpu : Cpu) (number : UInt16) : UInt16 :=
  cpu.wp + number * 2

def region (cpu : Cpu) (address : UInt16) : Region :=
  if cpu.config.onChip then .ofAddress address else .external

def setLatch (cpu : Cpu) (line : UInt8) (latched : Bool) : Cpu :=
  { cpu with interrupts := cpu.interrupts.setLatch line latched }

/-- One count of the decrementer.  It requests service when it reaches zero. -/
def clockDecrementer (cpu : Cpu) : Cpu :=
  let (expired, decrementer) := cpu.chip.decrementer.clock
  let cpu := { cpu with chip.decrementer := decrementer }
  if expired then cpu.setLatch decrementerLine true else cpu

/-- A tick of the peripheral clock, which the decrementer counts unless it counts events. -/
def tick (cpu : Cpu) : Cpu :=
  if cpu.config.onChip && cpu.chip.countsTime then cpu.clockDecrementer else cpu

/-- Cycles charged, and the ticks of the peripheral clock that they complete. -/
def advance (cpu : Cpu) (cycles : Nat) : Nat × Cpu :=
  let (count, divider) := cpu.divider.advance cycles
  (count, { cpu with cycles := cpu.cycles.advance cycles, divider := divider })

/-- Interrupts and the chip's own devices as after power-up. -/
def powerUp (cpu : Cpu) : Cpu :=
  { cpu with
    interrupts := cpu.interrupts.reset
    chip := cpu.chip.reset
    divider := cpu.divider.reset
    suppress := false }

/-- The end of a reset, whose context switch has met some wait states. -/
def endReset (cpu : Cpu) (wait : Nat) : Cpu :=
  { cpu with
    st := 0
    cycles := cpu.cycles.advance (cpu.timing.reset.toNat + wait) }

/-- Drives an interrupt input.  On a chip that counts events an edge on INT4 goes to the
decrementer, and no request is made. -/
def drive (cpu : Cpu) (line : UInt8) (state : LineState) : Cpu :=
  if cpu.config.onChip && line == int4 then
    let rising := state.isActive && !cpu.chip.int4Level
    let cpu := { cpu with chip.int4Level := state.isActive }
    if cpu.chip.countsEvents then
      if rising && cpu.chip.isEnabled then cpu.clockDecrementer else cpu
    else
      { cpu with interrupts := (cpu.interrupts.drive line state).2 }
  else
    { cpu with interrupts := (cpu.interrupts.drive line state).2 }

/-- Requests the internal interrupt for an overflow, if overflows are to interrupt. -/
def overflowTrap (cpu : Cpu) : Cpu :=
  if cpu.config.onChip && Status.has cpu.st Status.overflowInterrupt then
    cpu.setLatch internalLine true
  else
    cpu

/-- Notes an illegal opcode, and requests the internal interrupt. -/
def illegalTrap (cpu : Cpu) : Cpu :=
  { cpu with chip.mid := true }.setLatch internalLine true

/-- A bit of the I/O space that the chip answers itself. -/
def internalBit? (cpu : Cpu) (bit : UInt16) : Option Bool :=
  if !cpu.config.onChip then none
  else if bit = midBit then some cpu.chip.mid
  else
    (flagNumber? bit).map fun number =>
      match latchLine? number with
      | some line => cpu.interrupts.isLatched line
      | none => cpu.chip.flags &&& (1 <<< number) != 0

/-- The processor after a write to a bit of the I/O space that the chip keeps itself. -/
def setInternalBit? (cpu : Cpu) (bit : UInt16) (value : Bool) : Option Cpu :=
  if !cpu.config.onChip then none
  else if bit = midBit then some { cpu with chip.mid := value }
  else
    (flagNumber? bit).map fun number =>
      match latchLine? number with
      | some line => cpu.setLatch line value
      | none => { cpu with chip.flags := Word.withBit cpu.chip.flags (1 <<< number) value }

def flagRegister (cpu : Cpu) : UInt16 :=
  cpu.chip.flags |||
    (if cpu.interrupts.isLatched int1 then 0x0004 else 0) |||
    (if cpu.interrupts.isLatched decrementerLine then 0x0008 else 0) |||
    (if cpu.interrupts.isLatched int4 then 0x0010 else 0)

def pending (cpu : Cpu) : Option PendingLine :=
  cpu.interrupts.pending (cpu.st &&& Status.mask).toUInt8

end Cpu

end TmsCores.Tms9900
