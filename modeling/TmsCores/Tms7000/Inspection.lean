import TmsCores.Observation
import TmsCores.Text.StatePath
import TmsCores.Tms7000.Cpu

namespace TmsCores.Tms7000

/-- Something that a debugger can ask about a processor without disturbing it. -/
inductive Path
  | pc
  | sp
  | st
  | a
  | b
  | statusBit (bit : UInt8)
  | idle
  | cycles
  | interruptControl
  | timerReload
  | timerControl
  | timerPrescaler
  | timerDecrementer
  | timerCapture
  | register (number : Nat)
  | latched (line : UInt8)
  | enabled (line : UInt8)
  deriving DecidableEq

namespace Path

def named : List (String × Path) :=
  [("pc", .pc), ("sp", .sp), ("st", .st), ("a", .a), ("b", .b),
    ("flags.c", .statusBit Status.carry), ("flags.n", .statusBit Status.negative),
    ("flags.z", .statusBit Status.zero), ("flags.i", .statusBit Status.interruptEnable),
    ("idle", .idle), ("cycles", .cycles), ("iocnt0", .interruptControl),
    ("timer1.reload", .timerReload), ("timer1.control", .timerControl),
    ("timer1.prescaler", .timerPrescaler), ("timer1.decrementer", .timerDecrementer),
    ("timer1.capture", .timerCapture)]

def numbered? (text : List Char) : Option Path :=
  match StatePath.register? text, StatePath.interruptLine? text with
  | some number, _ => some (.register number)
  | none, some (line, "latched") => some (.latched line)
  | none, some (line, "enabled") => some (.enabled line)
  | none, _ => none

def parse? (text : String) : Option Path :=
  (named.lookup text).or (numbered? text.toList)

end Path

namespace Cpu

def observe (cpu : Cpu) : Path → Option Observation
  | .pc => some (.word cpu.pc)
  | .sp => some (.byte cpu.sp)
  | .st => some (.byte cpu.st)
  | .a => (cpu.register? 0).map .byte
  | .b => (cpu.register? 1).map .byte
  | .statusBit bit => some (.flag (Status.has cpu.st bit))
  | .idle => some (.flag cpu.idle)
  | .cycles => some (.count cpu.cycles.value)
  | .interruptControl => some (.byte cpu.interruptControl)
  | .timerReload => some (.byte cpu.peripherals.timer.reload)
  | .timerControl => some (.byte cpu.peripherals.timer.control)
  | .timerPrescaler => some (.byte cpu.peripherals.timer.prescaler)
  | .timerDecrementer => some (.byte cpu.peripherals.timer.decrementer)
  | .timerCapture => some (.byte cpu.peripherals.timer.capture)
  | .register number => (cpu.register? number).map .byte
  | .latched line => (cpu.interrupts.line? line).map fun line => .flag line.latched
  | .enabled line => (cpu.interrupts.line? line).map fun line => .flag line.enabled

def query (cpu : Cpu) (path : String) : Option Observation :=
  (Path.parse? path).bind cpu.observe

/-- The questions that can be asked.  Of registers and lines only the first is listed. -/
def queryPaths : List String :=
  ["pc", "sp", "st", "a", "b", "r0", "flags.c", "flags.n", "flags.z", "flags.i", "idle", "cycles",
    "iocnt0", "timer1.reload", "timer1.control", "timer1.prescaler", "timer1.decrementer",
    "timer1.capture", "irq.0.latched"]

end Cpu

end TmsCores.Tms7000
