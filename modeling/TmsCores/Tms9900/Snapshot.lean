import TmsCores.MessagePack.Wire
import TmsCores.Snapshot.Parts
import TmsCores.Tms9900.Cpu

namespace TmsCores.Tms9900

open MessagePack

namespace InstructionSet

def options : List (String × InstructionSet) :=
  [("Tms9900", .tms9900), ("Tms9995", .tms9995)]

end InstructionSet

namespace DataBus

def options : List (String × DataBus) :=
  [("Word", .word), ("Byte", .byte)]

end DataBus

namespace Config

def fieldNames : List String :=
  ["instruction_set", "data_bus", "address_mask", "st_mask", "levels", "latch", "illegal",
    "dummy_dest_read", "byte_access_cycles", "on_chip", "tick_divider"]

def toValue (config : Config) : Value :=
  .record [("instruction_set", .name config.instructionSet.name),
    ("data_bus", .name config.dataBus.name),
    ("address_mask", .unsigned config.addressMask.toNat),
    ("st_mask", .unsigned config.statusMask.toNat), ("levels", .unsigned config.levels.toNat),
    ("latch", .name config.latch.name), ("illegal", config.illegal.toValue),
    ("dummy_dest_read", .bool config.dummyDestinationRead),
    ("byte_access_cycles", .unsigned config.byteAccessCycles.toNat),
    ("on_chip", .bool config.onChip), ("tick_divider", .unsigned config.tickDivider.toNat)]

def ofValue? (level : Nat) (value : Value) : Option Config := do
  match ← value.fields? level fieldNames with
  | [instructionSet, dataBus, addressMask, statusMask, levels, latch, illegal,
      dummyDestinationRead, byteAccessCycles, onChip, tickDivider] =>
      return {
        instructionSet := ← instructionSet.choice? InstructionSet.options
        dataBus := ← dataBus.choice? DataBus.options
        addressMask := ← addressMask.toUInt16?
        statusMask := ← statusMask.toUInt16?
        levels := ← levels.toUInt8?
        latch := ← latch.choice? LatchPolicy.options
        illegal := ← IllegalOpcode.ofValue? (level + 1) illegal
        dummyDestinationRead := ← dummyDestinationRead.toBool?
        byteAccessCycles := ← byteAccessCycles.toUInt8?
        onChip := ← onChip.toBool?
        tickDivider := ← tickDivider.toUInt32? }
  | _ => none

end Config

namespace Decrementer

def fieldNames : List String :=
  ["start", "count"]

def toValue (decrementer : Decrementer) : Value :=
  .record [("start", .unsigned decrementer.start.toNat),
    ("count", .unsigned decrementer.count.toNat)]

def ofValue? (level : Nat) (value : Value) : Option Decrementer := do
  match ← value.fields? level fieldNames with
  | [start, count] => return { start := ← start.toUInt16?, count := ← count.toUInt16? }
  | _ => none

end Decrementer

namespace OnChip

def fieldNames : List String :=
  ["ram", "decrementer", "flags", "mid", "int4"]

def toValue (chip : OnChip) : Value :=
  .record [("ram", .ofBytes chip.ram.toList), ("decrementer", chip.decrementer.toValue),
    ("flags", .unsigned chip.flags.toNat), ("mid", .bool chip.mid),
    ("int4", .bool chip.int4Level)]

def ofValue? (level : Nat) (value : Value) : Option OnChip := do
  match ← value.fields? level fieldNames with
  | [ram, decrementer, flags, mid, int4Level] =>
      return {
        ram := (← ram.toListOf? Value.toUInt8?).toArray
        decrementer := ← Decrementer.ofValue? (level + 1) decrementer
        flags := ← flags.toUInt16?
        mid := ← mid.toBool?
        int4Level := ← int4Level.toBool? }
  | _ => none

end OnChip

namespace Cpu

def fieldNames : List String :=
  ["config", "pc", "wp", "st", "irq", "onchip", "divider", "idle", "suppress", "total_cycles"]

def toValue (cpu : Cpu) : Value :=
  .record [("config", cpu.config.toValue), ("pc", .unsigned cpu.pc.toNat),
    ("wp", .unsigned cpu.wp.toNat), ("st", .unsigned cpu.st.toNat),
    ("irq", cpu.interrupts.toValue), ("onchip", cpu.chip.toValue),
    ("divider", cpu.divider.toValue), ("idle", .bool cpu.idle),
    ("suppress", .bool cpu.suppress), ("total_cycles", cpu.cycles.toValue)]

def ofValue? (value : Value) : Option Cpu := do
  match ← value.fields? 1 fieldNames with
  | [config, pc, wp, st, interrupts, chip, divider, idle, suppress, cycles] =>
      return {
        config := ← Config.ofValue? 2 config
        pc := ← pc.toUInt16?
        wp := ← wp.toUInt16?
        st := ← st.toUInt16?
        interrupts := ← InterruptController.ofValue? 2 interrupts
        chip := ← OnChip.ofValue? 2 chip
        divider := ← TickDivider.ofValue? 2 divider
        idle := ← idle.toBool?
        suppress := ← suppress.toBool?
        cycles := ← CycleCount.ofValue? cycles }
  | _ => none

def save (cpu : Cpu) : List UInt8 :=
  cpu.toValue.write

/-- The state that some bytes hold, if it fits the processor: the configurations have to agree, and
so do the numbers of interrupt lines. -/
def restore (cpu : Cpu) (bytes : List UInt8) : Except (RestoreError Config) Cpu :=
  match (Value.read? bytes).bind ofValue? with
  | none => .error .unreadable
  | some saved =>
      if saved.config = cpu.config ∧ saved.interrupts.size = cpu.interrupts.size then
        .ok saved
      else
        .error (.mismatch saved.config cpu.config)

end Cpu

end TmsCores.Tms9900
