import TmsCores.MessagePack.Wire
import TmsCores.Snapshot.Parts
import TmsCores.Tms7000.Cpu

namespace TmsCores.Tms7000

open MessagePack

namespace Config

def fieldNames : List String :=
  ["rf_size", "illegal", "tick_divider"]

def toValue (config : Config) : Value :=
  .record [("rf_size", .unsigned config.registerCount.toNat), ("illegal", config.illegal.toValue),
    ("tick_divider", .unsigned config.tickDivider.toNat)]

def ofValue? (level : Nat) (value : Value) : Option Config := do
  match ← value.fields? level fieldNames with
  | [registerCount, illegal, tickDivider] =>
      return {
        registerCount := ← registerCount.toUInt16?
        illegal := ← IllegalOpcode.ofValue? (level + 1) illegal
        tickDivider := ← tickDivider.toUInt32? }
  | _ => none

end Config

namespace Timer

def fieldNames : List String :=
  ["reload", "control", "prescaler", "decrementer", "capture"]

def toValue (timer : Timer) : Value :=
  .record [("reload", .unsigned timer.reload.toNat), ("control", .unsigned timer.control.toNat),
    ("prescaler", .unsigned timer.prescaler.toNat),
    ("decrementer", .unsigned timer.decrementer.toNat),
    ("capture", .unsigned timer.capture.toNat)]

def ofValue? (level : Nat) (value : Value) : Option Timer := do
  match ← value.fields? level fieldNames with
  | [reload, control, prescaler, decrementer, capture] =>
      return {
        reload := ← reload.toUInt8?
        control := ← control.toUInt8?
        prescaler := ← prescaler.toUInt8?
        decrementer := ← decrementer.toUInt8?
        capture := ← capture.toUInt8? }
  | _ => none

end Timer

namespace PeripheralFile

def fieldNames : List String :=
  ["iocnt0", "timer1"]

def toValue (file : PeripheralFile) : Value :=
  .record [("iocnt0", .unsigned file.control.toNat), ("timer1", file.timer.toValue)]

def ofValue? (level : Nat) (value : Value) : Option PeripheralFile := do
  match ← value.fields? level fieldNames with
  | [control, timer] =>
      return { control := ← control.toUInt8?, timer := ← Timer.ofValue? (level + 1) timer }
  | _ => none

end PeripheralFile

namespace Cpu

def fieldNames : List String :=
  ["config", "pc", "sp", "st", "rf", "periph", "irq", "divider", "idle", "total_cycles"]

def toValue (cpu : Cpu) : Value :=
  .record [("config", cpu.config.toValue), ("pc", .unsigned cpu.pc.toNat),
    ("sp", .unsigned cpu.sp.toNat), ("st", .unsigned cpu.st.toNat),
    ("rf", .ofBytes cpu.file.toList), ("periph", cpu.peripherals.toValue),
    ("irq", cpu.interrupts.toValue), ("divider", cpu.divider.toValue), ("idle", .bool cpu.idle),
    ("total_cycles", cpu.cycles.toValue)]

def ofValue? (value : Value) : Option Cpu := do
  match ← value.fields? 1 fieldNames with
  | [config, pc, sp, st, file, peripherals, interrupts, divider, idle, cycles] =>
      return {
        config := ← Config.ofValue? 2 config
        pc := ← pc.toUInt16?
        sp := ← sp.toUInt8?
        st := ← st.toUInt8?
        file := (← file.toListOf? Value.toUInt8?).toArray
        peripherals := ← PeripheralFile.ofValue? 2 peripherals
        interrupts := ← InterruptController.ofValue? 2 interrupts
        divider := ← TickDivider.ofValue? 2 divider
        idle := ← idle.toBool?
        cycles := ← CycleCount.ofValue? cycles }
  | _ => none

def save (cpu : Cpu) : List UInt8 :=
  cpu.toValue.write

/-- The state that some bytes hold, if it fits the processor: the configurations have to agree, and
so do the sizes of the register files. -/
def restore (cpu : Cpu) (bytes : List UInt8) : Except (RestoreError Config) Cpu :=
  match (Value.read? bytes).bind ofValue? with
  | none => .error .unreadable
  | some saved =>
      if saved.config = cpu.config ∧ saved.file.size = cpu.file.size then
        .ok saved
      else
        .error (.mismatch saved.config cpu.config)

end Cpu

end TmsCores.Tms7000
