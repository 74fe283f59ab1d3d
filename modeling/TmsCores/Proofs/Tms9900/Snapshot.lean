import TmsCores.Proofs.MessagePack.Extension
import TmsCores.Proofs.Snapshot.Parts
import TmsCores.Tms9900.Snapshot

namespace TmsCores.Tms9900

open MessagePack

@[simp] theorem InstructionSet.choice?_name (set : InstructionSet) :
    (Value.name set.name).choice? InstructionSet.options = some set := by
  cases set <;> rfl

@[simp] theorem InstructionSet.fits_name (depth : Nat) (set : InstructionSet) :
    (Value.name set.name).Fits depth :=
  .name depth (by cases set <;> decide)

@[simp] theorem DataBus.choice?_name (bus : DataBus) :
    (Value.name bus.name).choice? DataBus.options = some bus := by
  cases bus <;> rfl

@[simp] theorem DataBus.fits_name (depth : Nat) (bus : DataBus) :
    (Value.name bus.name).Fits depth :=
  .name depth (by cases bus <;> decide)

namespace Config

@[simp] theorem ofValue?_toValue (level : Nat) (config : Config) :
    ofValue? level config.toValue = some config := by
  rw [ofValue?, toValue, Value.fields?_record]
  · simp
  · rfl
  · decide

theorem fits_toValue (depth : Nat) (config : Config) : config.toValue.Fits (depth + 3) := by
  refine .record _ fieldNames rfl (by decide) (by decide) ?_
  simp [IllegalOpcode.fits_toValue]

end Config

namespace Decrementer

@[simp] theorem ofValue?_toValue (level : Nat) (decrementer : Decrementer) :
    ofValue? level decrementer.toValue = some decrementer := by
  rw [ofValue?, toValue, Value.fields?_record]
  · simp
  · rfl
  · decide

theorem fits_toValue (depth : Nat) (decrementer : Decrementer) :
    decrementer.toValue.Fits (depth + 1) := by
  refine .record _ fieldNames rfl (by decide) (by decide) ?_
  simp

end Decrementer

namespace OnChip

@[simp] theorem ofValue?_toValue (level : Nat) (chip : OnChip) :
    ofValue? level chip.toValue = some chip := by
  rw [ofValue?, toValue, Value.fields?_record]
  · simp
  · rfl
  · decide

theorem fits_toValue (depth : Nat) {chip : OnChip} (hsize : chip.ram.size < 2 ^ 32) :
    chip.toValue.Fits (depth + 2) := by
  have hram : (Value.ofBytes chip.ram.toList).Fits (depth + 1) := .ofBytes (by simpa using hsize)
  refine .record _ fieldNames rfl (by decide) (by decide) ?_
  simp [hram, Decrementer.fits_toValue]

end OnChip

namespace Cpu

theorem ofValue?_toValue (cpu : Cpu) : ofValue? cpu.toValue = some cpu := by
  rw [ofValue?, toValue, Value.fields?_record]
  · simp
  · rfl
  · decide

/-- The lists of a processor are short enough to be saved. -/
def IsStorable (cpu : Cpu) : Prop :=
  cpu.chip.ram.size < 2 ^ 32 ∧ cpu.interrupts.size < 2 ^ 32

theorem fits_toValue (depth : Nat) {cpu : Cpu} (h : cpu.IsStorable) :
    cpu.toValue.Fits (depth + 4) := by
  have hchip : cpu.chip.toValue.Fits (depth + 3) := cpu.chip.fits_toValue (depth + 1) h.1
  have hinterrupts : cpu.interrupts.toValue.Fits (depth + 3) :=
    cpu.interrupts.fits_toValue depth h.2
  refine .record _ fieldNames rfl (by decide) (by decide) ?_
  simp [hchip, hinterrupts, Config.fits_toValue, TickDivider.fits_toValue]

theorem read?_save {cpu : Cpu} (h : cpu.IsStorable) : Value.read? cpu.save = some cpu.toValue :=
  Value.read?_write (cpu.fits_toValue 1020 h)

theorem restore_save (cpu : Cpu) {saved : Cpu} (h : saved.IsStorable) :
    cpu.restore saved.save =
      if saved.config = cpu.config ∧ saved.interrupts.size = cpu.interrupts.size then .ok saved
      else .error (.mismatch saved.config cpu.config) := by
  rw [restore, read?_save h, Option.bind_some, ofValue?_toValue]

theorem restore_of_prefix (cpu : Cpu) {saved : Cpu} (h : saved.IsStorable)
    {bytes more : List UInt8} (hsplit : bytes ++ more = saved.save) (hmore : more ≠ []) :
    cpu.restore bytes = .error .unreadable := by
  have hread : Value.read? bytes = none :=
    Value.read?_eq_none_of_prefix (saved.fits_toValue 1020 h) hsplit hmore
  rw [restore, hread, Option.bind_none]

end Cpu

end TmsCores.Tms9900
