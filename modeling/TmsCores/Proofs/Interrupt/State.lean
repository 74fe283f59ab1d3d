import TmsCores.Proofs.Interrupt.Controller
import TmsCores.Proofs.Interrupt.Latch

namespace TmsCores.InterruptController

theorem state_modifyLine (controller : InterruptController) (line other : UInt8)
    (change : InterruptLine → InterruptLine) :
    (controller.modifyLine line change).state other =
      if line = other then ((controller.line? other).map fun input => (change input).state).getD .clear
      else controller.state other := by
  rw [state, line?_modifyLine, state]
  split
  · rw [Option.map_map]
    rfl
  · rfl

theorem state_acknowledge (controller : InterruptController) (line other : UInt8) :
    (controller.acknowledge line).state other =
      if line = other ∧ controller.state other = .held then .clear else controller.state other := by
  rw [acknowledge, state_modifyLine, state]
  by_cases hline : line = other
  · cases controller.line? other with
    | none => simp
    | some input => simp [hline, InterruptLine.acknowledge]
  · simp [hline]

theorem state_drive {controller : InterruptController} {line : UInt8}
    (hline : line.toNat < controller.size) (driven : UInt8) (state : LineState) :
    (controller.drive driven state).2.state line =
      if driven = line then state else controller.state line := by
  rw [drive, state_modifyLine, line?, List.getElem?_eq_getElem hline]
  rfl

/-- The inputs belong to whoever drives them. -/
theorem state_reset (controller : InterruptController) (line : UInt8) :
    controller.reset.state line = controller.state line := by
  rw [state, line?, reset, List.getElem?_map, Option.map_map]
  rfl

theorem state_ofLines (lines : List LineConfig) (compare : MaskCompare) (line : UInt8) :
    (ofLines lines compare).state line = .clear := by
  rw [state, line?, ofLines, List.getElem?_map, Option.map_map]
  cases lines[line.toNat]? with
  | none => rfl
  | some config => rfl

variable {controller other : InterruptController}

theorem isLatched_reset (controller : InterruptController) (line : UInt8) :
    controller.reset.isLatched line = false := by
  rw [isLatched, line?, reset, List.getElem?_map, Option.any_map]
  cases controller.lines[line.toNat]? with
  | none => rfl
  | some input => rfl

theorem isLatched_setEnabled_eq (controller : InterruptController) (line number : UInt8)
    (enabled : Bool) :
    (controller.setEnabled line enabled).isLatched number = controller.isLatched number := by
  rw [setEnabled, isLatched_modifyLine, isLatched]
  split
  · rfl
  · rfl

theorem state_congr (h : controller.lines.map (·.state) = other.lines.map (·.state))
    (line : UInt8) : controller.state line = other.state line := by
  rw [state, line?, ← List.getElem?_map, h, List.getElem?_map]
  rfl

theorem getElem?_lines_of_lt (hsize : controller.size ≤ 256) {number : Nat}
    (hnumber : number < controller.size) :
    ∃ input, controller.lines[number]? = some input ∧
      controller.configs[number]? = some input.toLineConfig ∧
      controller.state (UInt8.ofNat number) = input.state := by
  have hsame : (UInt8.ofNat number).toNat = number :=
    UInt8.toNat_ofNat_of_lt' (Nat.lt_of_lt_of_le hnumber hsize)
  have hinput : controller.lines[number]? = some controller.lines[number] :=
    List.getElem?_eq_getElem hnumber
  refine ⟨_, hinput, ?_, ?_⟩
  · rw [configs, List.getElem?_map, hinput]
    rfl
  · rw [state, line?, hsame, hinput]
    rfl

theorem reset_eq (hsize : controller.size ≤ 256) (hconfigs : controller.configs = other.configs)
    (hcompare : controller.compare = other.compare)
    (hstate : ∀ line, controller.state line = other.state line) :
    controller.reset = other.reset := by
  have hsame : controller.size = other.size := by
    rw [← length_configs, hconfigs, length_configs]
  rw [reset, reset, InterruptController.mk.injEq]
  refine ⟨List.ext_getElem? fun number => ?_, hcompare⟩
  rw [List.getElem?_map, List.getElem?_map]
  by_cases hnumber : number < controller.size
  · obtain ⟨input, hinput, hconfig, hdriven⟩ := getElem?_lines_of_lt hsize hnumber
    obtain ⟨input', hinput', hconfig', hdriven'⟩ :=
      getElem?_lines_of_lt (hsame ▸ hsize) (hsame ▸ hnumber)
    rw [hconfigs, hconfig'] at hconfig
    rw [hstate, hdriven'] at hdriven
    have hfixed : input'.toLineConfig = input.toLineConfig := Option.some.inj hconfig
    simp only [hinput, hinput', Option.map_some, InterruptLine.reset, hfixed, hdriven]
  · have hnone : controller.lines[number]? = none :=
      List.getElem?_eq_none (Nat.le_of_not_lt hnumber)
    have hnone' : other.lines[number]? = none :=
      List.getElem?_eq_none (Nat.le_of_not_lt fun hless => hnumber (hsame ▸ hless))
    rw [hnone, hnone']

end TmsCores.InterruptController
