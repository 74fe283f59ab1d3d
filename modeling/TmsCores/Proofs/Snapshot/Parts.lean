import TmsCores.Proofs.MessagePack.Record
import TmsCores.Snapshot.Parts

namespace TmsCores

open MessagePack

@[simp] theorem CycleCount.ofValue?_toValue (count : CycleCount) :
    CycleCount.ofValue? count.toValue = some count := by
  simp [CycleCount.ofValue?, CycleCount.toValue]

@[simp] theorem CycleCount.fits_toValue (depth : Nat) (count : CycleCount) :
    count.toValue.Fits depth :=
  Value.Fits.unsigned64 depth count.value

namespace TickDivider

@[simp] theorem ofValue?_toValue (level : Nat) (divider : TickDivider) :
    ofValue? level divider.toValue = some divider := by
  rw [ofValue?, toValue, Value.fields?_record]
  · simp
  · rfl
  · decide

theorem fits_toValue (depth : Nat) (divider : TickDivider) :
    divider.toValue.Fits (depth + 1) := by
  refine .record _ fieldNames rfl (by decide) (by decide) ?_
  simp

end TickDivider

@[simp] theorem LineState.choice?_name (state : LineState) :
    (Value.name state.name).choice? LineState.options = some state := by
  cases state <;> rfl

@[simp] theorem LatchPolicy.choice?_name (policy : LatchPolicy) :
    (Value.name policy.name).choice? LatchPolicy.options = some policy := by
  cases policy <;> rfl

@[simp] theorem MaskCompare.choice?_name (compare : MaskCompare) :
    (Value.name compare.name).choice? MaskCompare.options = some compare := by
  cases compare <;> rfl

@[simp] theorem LineState.fits_name (depth : Nat) (state : LineState) :
    (Value.name state.name).Fits depth :=
  .name depth (by cases state <;> decide)

@[simp] theorem LatchPolicy.fits_name (depth : Nat) (policy : LatchPolicy) :
    (Value.name policy.name).Fits depth :=
  .name depth (by cases policy <;> decide)

@[simp] theorem MaskCompare.fits_name (depth : Nat) (compare : MaskCompare) :
    (Value.name compare.name).Fits depth :=
  .name depth (by cases compare <;> decide)

namespace InterruptLine

@[simp] theorem ofValue?_toValue (level : Nat) (line : InterruptLine) :
    ofValue? level line.toValue = some line := by
  rw [ofValue?, toValue, Value.fields?_record]
  · simp
  · rfl
  · decide

theorem fits_toValue (depth : Nat) (line : InterruptLine) : line.toValue.Fits (depth + 1) := by
  refine .record _ fieldNames rfl (by decide) (by decide) ?_
  simp

end InterruptLine

namespace InterruptController

@[simp] theorem ofValue?_toValue (level : Nat) (controller : InterruptController) :
    ofValue? level controller.toValue = some controller := by
  have hlines := Value.toListOf?_array (InterruptLine.ofValue?_toValue (level + 2))
    controller.lines
  rw [ofValue?, toValue, Value.fields?_record]
  · simp [hlines]
  · rfl
  · decide

theorem fits_toValue (depth : Nat) {controller : InterruptController}
    (hsize : controller.size < 2 ^ 32) : controller.toValue.Fits (depth + 3) := by
  have hlines : (Value.array (controller.lines.map InterruptLine.toValue)).Fits (depth + 2) := by
    refine .array (by simpa [size] using hsize) ?_
    intro item hitem
    obtain ⟨line, _, rfl⟩ := List.mem_map.mp hitem
    exact line.fits_toValue depth
  refine .record _ fieldNames rfl (by decide) (by decide) ?_
  simp [hlines]

end InterruptController

namespace IllegalOpcode

@[simp] theorem ofValue?_toValue (level : Nat) (policy : IllegalOpcode) :
    ofValue? level policy.toValue = some policy := by
  cases policy with
  | ignore cycles =>
      have hcontent : (Value.record [("cycles", .unsigned cycles.toNat)]).fields? level ["cycles"] =
          some [.unsigned cycles.toNat] :=
        Value.fields?_record level [("cycles", .unsigned cycles.toNat)] rfl (by decide)
      have halternative : Value.alternative? optionNames (toValue (.ignore cycles)) =
          some (0, some (.record [("cycles", .unsigned cycles.toNat)])) := rfl
      rw [ofValue?, halternative]
      simp [hcontent]
  | trap => rfl

theorem fits_toValue (depth : Nat) (policy : IllegalOpcode) :
    policy.toValue.Fits (depth + 2) := by
  cases policy with
  | ignore cycles =>
      have hcontent : (Value.record [("cycles", .unsigned cycles.toNat)]).Fits (depth + 1) := by
        refine .record _ ["cycles"] rfl (by decide) (by decide) ?_
        simp
      refine .record _ ["Ignore"] rfl (by decide) (by decide) ?_
      simp [hcontent]
  | trap => exact .name _ (by decide)

end IllegalOpcode

end TmsCores
