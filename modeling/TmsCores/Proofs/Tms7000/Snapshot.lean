import TmsCores.Proofs.MessagePack.Extension
import TmsCores.Proofs.Snapshot.Parts
import TmsCores.Tms7000.Snapshot

namespace TmsCores.Tms7000

open MessagePack

namespace Config

@[simp] theorem ofValue?_toValue (level : Nat) (config : Config) :
    ofValue? level config.toValue = some config := by
  rw [ofValue?, toValue, Value.fields?_record]
  · simp
  · rfl
  · decide

theorem fits_toValue (depth : Nat) (config : Config) : config.toValue.Fits (depth + 3) := by
  refine .record _ fieldNames rfl (by decide) (by decide) ?_
  simp [IllegalOpcode.fits_toValue]

end Config

namespace Timer

@[simp] theorem ofValue?_toValue (level : Nat) (timer : Timer) :
    ofValue? level timer.toValue = some timer := by
  rw [ofValue?, toValue, Value.fields?_record]
  · simp
  · rfl
  · decide

theorem fits_toValue (depth : Nat) (timer : Timer) : timer.toValue.Fits (depth + 1) := by
  refine .record _ fieldNames rfl (by decide) (by decide) ?_
  simp

end Timer

namespace PeripheralFile

@[simp] theorem ofValue?_toValue (level : Nat) (file : PeripheralFile) :
    ofValue? level file.toValue = some file := by
  rw [ofValue?, toValue, Value.fields?_record]
  · simp
  · rfl
  · decide

theorem fits_toValue (depth : Nat) (file : PeripheralFile) : file.toValue.Fits (depth + 2) := by
  refine .record _ fieldNames rfl (by decide) (by decide) ?_
  simp [Timer.fits_toValue]

end PeripheralFile

namespace Cpu

theorem ofValue?_toValue (cpu : Cpu) : ofValue? cpu.toValue = some cpu := by
  rw [ofValue?, toValue, Value.fields?_record]
  · simp
  · rfl
  · decide

/-- The lists of a processor are short enough to be saved. -/
def IsStorable (cpu : Cpu) : Prop :=
  cpu.file.size < 2 ^ 32 ∧ cpu.interrupts.size < 2 ^ 32

theorem fits_toValue (depth : Nat) {cpu : Cpu} (h : cpu.IsStorable) :
    cpu.toValue.Fits (depth + 4) := by
  have hfile : (Value.ofBytes cpu.file.toList).Fits (depth + 3) :=
    .ofBytes (by simpa using h.1)
  have hinterrupts : cpu.interrupts.toValue.Fits (depth + 3) :=
    cpu.interrupts.fits_toValue depth h.2
  refine .record _ fieldNames rfl (by decide) (by decide) ?_
  simp [hfile, hinterrupts, Config.fits_toValue, PeripheralFile.fits_toValue,
    TickDivider.fits_toValue]

theorem read?_save {cpu : Cpu} (h : cpu.IsStorable) : Value.read? cpu.save = some cpu.toValue :=
  Value.read?_write (cpu.fits_toValue 1020 h)

theorem restore_save (cpu : Cpu) {saved : Cpu} (h : saved.IsStorable) :
    cpu.restore saved.save =
      if saved.config = cpu.config ∧ saved.file.size = cpu.file.size then .ok saved
      else .error (.mismatch saved.config cpu.config) := by
  rw [restore, read?_save h, Option.bind_some, ofValue?_toValue]

theorem restore_of_prefix (cpu : Cpu) {saved : Cpu} (h : saved.IsStorable)
    {bytes more : List UInt8} (hsplit : bytes ++ more = saved.save) (hmore : more ≠ []) :
    cpu.restore bytes = .error .unreadable := by
  have hread : Value.read? bytes = none :=
    Value.read?_eq_none_of_prefix (saved.fits_toValue 1020 h) hsplit hmore
  rw [restore, hread, Option.bind_none]

end Cpu

end TmsCores.Tms7000
