import TmsCores.Observation
import TmsCores.Text.StatePath
import TmsCores.Tms9900.Cpu

namespace TmsCores.Tms9900

/-- Something that a debugger can ask about a processor without disturbing it. -/
inductive Path
  | pc
  | wp
  | st
  | mask
  | statusBit (bit : UInt16)
  | idle
  | cycles
  /-- Only chips with devices of their own answer this and the paths down to the decrementer. -/
  | overflowInterrupt
  | mid
  | flagRegister
  | decrementerStart
  | decrementerCount
  | register (number : Nat)
  | latched (line : UInt8)
  | state (line : UInt8)
  deriving DecidableEq

namespace Path

def named : List (String × Path) :=
  [("pc", .pc), ("wp", .wp), ("st", .st), ("mask", .mask),
    ("flags.lgt", .statusBit Status.logicalGreater),
    ("flags.agt", .statusBit Status.arithmeticGreater), ("flags.eq", .statusBit Status.equal),
    ("flags.c", .statusBit Status.carry), ("flags.ov", .statusBit Status.overflow),
    ("flags.op", .statusBit Status.parity), ("flags.x", .statusBit Status.extended),
    ("idle", .idle), ("cycles", .cycles), ("flags.ovie", .overflowInterrupt), ("mid", .mid),
    ("flag_register", .flagRegister), ("decrementer.start", .decrementerStart),
    ("decrementer.count", .decrementerCount)]

def numbered? (text : List Char) : Option Path :=
  match StatePath.register? text, StatePath.interruptLine? text with
  | some number, _ => some (.register number)
  | none, some (line, "latched") => some (.latched line)
  | none, some (line, "state") => some (.state line)
  | none, _ => none

def parse? (text : String) : Option Path :=
  (named.lookup text).or (numbered? text.toList)

end Path

namespace Cpu

/-- An answer that only a chip with devices of its own has. -/
def ifOnChip (cpu : Cpu) (answer : Observation) : Option Observation :=
  if cpu.config.onChip then some answer else none

/-- A register of the workspace, if it lies in the memory of the chip. -/
def observeRegister (cpu : Cpu) (number : Nat) : Option Observation :=
  if number < 16 then
    match cpu.region (cpu.registerAddress (UInt16.ofNat number)) with
    | .ram offset => if offset % 2 = 0 then (cpu.chip.word? offset).map .word else none
    | .decrementer _ | .external => none
  else
    none

def observe (cpu : Cpu) : Path → Option Observation
  | .pc => some (.word cpu.pc)
  | .wp => some (.word cpu.wp)
  | .st => some (.word cpu.st)
  | .mask => some (.byte (cpu.st &&& Status.mask).toUInt8)
  | .statusBit bit => some (.flag (Status.has cpu.st bit))
  | .idle => some (.flag cpu.idle)
  | .cycles => some (.count cpu.cycles.value)
  | .overflowInterrupt => cpu.ifOnChip (.flag (Status.has cpu.st Status.overflowInterrupt))
  | .mid => cpu.ifOnChip (.flag cpu.chip.mid)
  | .flagRegister => cpu.ifOnChip (.word cpu.flagRegister)
  | .decrementerStart => cpu.ifOnChip (.word cpu.chip.decrementer.start)
  | .decrementerCount => cpu.ifOnChip (.word cpu.chip.decrementer.count)
  | .register number => cpu.observeRegister number
  | .latched line => (cpu.interrupts.line? line).map fun line => .flag line.latched
  | .state line => (cpu.interrupts.line? line).map fun line => .name line.state.name

def query (cpu : Cpu) (path : String) : Option Observation :=
  (Path.parse? path).bind cpu.observe

/-- The questions that every member of the family answers.  Of lines only the first is listed. -/
def queryPaths : List String :=
  ["pc", "wp", "st", "mask", "flags.lgt", "flags.agt", "flags.eq", "flags.c", "flags.ov",
    "flags.op", "flags.x", "idle", "cycles", "irq.0.latched"]

end Cpu

end TmsCores.Tms9900
