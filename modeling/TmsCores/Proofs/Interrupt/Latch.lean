import TmsCores.Interrupt.Controller

namespace TmsCores.InterruptController

variable {controller : InterruptController} {line other : UInt8}

theorem isLatched_modifyLine (controller : InterruptController) (line other : UInt8)
    (change : InterruptLine → InterruptLine) :
    (controller.modifyLine line change).isLatched other =
      if line = other then (controller.line? other).any fun input => (change input).latched
      else controller.isLatched other := by
  rw [isLatched, line?_modifyLine, isLatched]
  split
  · rw [Option.any_map]
  · rfl

/-- A change of a line that keeps its latch, if it is set, keeps all latches that are set. -/
theorem isLatched_modifyLine_of_keeps {change : InterruptLine → InterruptLine}
    (hchange : ∀ input, input.latched = true → (change input).latched = true)
    (h : controller.isLatched other = true) :
    (controller.modifyLine line change).isLatched other = true := by
  rw [isLatched_modifyLine]
  split
  · rw [isLatched, Option.any_eq_true] at h
    obtain ⟨input, hinput, hlatched⟩ := h
    rw [Option.any_eq_true]
    exact ⟨input, hinput, hchange input hlatched⟩
  · exact h

theorem isLatched_drive (h : controller.isLatched other = true) (line : UInt8)
    (state : LineState) : (controller.drive line state).2.isLatched other = true :=
  isLatched_modifyLine_of_keeps (fun input hlatched => by simp [InterruptLine.drive, hlatched]) h

theorem isLatched_setEnabled (h : controller.isLatched other = true) (line : UInt8)
    (enabled : Bool) : (controller.setEnabled line enabled).isLatched other = true :=
  isLatched_modifyLine_of_keeps (fun _ hlatched => hlatched) h

theorem isLatched_setLatch (h : controller.isLatched other = true) (line : UInt8) :
    (controller.setLatch line true).isLatched other = true :=
  isLatched_modifyLine_of_keeps (fun _ _ => rfl) h

theorem isLatched_setLatch_of_ne (h : controller.isLatched other = true) (hne : line ≠ other)
    (latched : Bool) : (controller.setLatch line latched).isLatched other = true := by
  rw [setLatch, isLatched_modifyLine, if_neg hne]
  exact h

theorem isLatched_acknowledge_of_ne (h : controller.isLatched other = true) (hne : line ≠ other) :
    (controller.acknowledge line).isLatched other = true := by
  rw [acknowledge, isLatched_modifyLine, if_neg hne]
  exact h

theorem isLatched_setLatch_self {input : InterruptLine}
    (hline : controller.line? line = some input) :
    (controller.setLatch line true).isLatched line = true := by
  rw [setLatch, isLatched_modifyLine, if_pos rfl, hline]
  rfl

theorem isLatched_setLatch_of_lt (h : line.toNat < controller.size) (latched : Bool)
    (other : UInt8) : (controller.setLatch line latched).isLatched other =
      if line = other then latched else controller.isLatched other := by
  rw [setLatch, isLatched_modifyLine]
  split
  · next hsame =>
      have hline : controller.line? line = some controller.lines[line.toNat] :=
        List.getElem?_eq_getElem h
      rw [← hsame, hline]
      rfl
  · rfl

theorem isLatched_drive_self {input : InterruptLine} (hline : controller.line? line = some input)
    (hpolicy : input.policy = .edgeLatched) (hclear : controller.state line = .clear)
    {state : LineState} (hactive : state.isActive = true) :
    (controller.drive line state).2.isLatched line = true := by
  have hstate : input.state = .clear := by
    rw [InterruptController.state, hline] at hclear
    exact hclear
  have hrises : input.rises state = true := by
    rw [InterruptLine.rises, hstate, hactive]
    rfl
  rw [drive, isLatched_modifyLine, if_pos rfl, hline]
  simp [InterruptLine.drive, hpolicy, hrises]

theorem state_setLatch (controller : InterruptController) (line other : UInt8) (latched : Bool) :
    (controller.setLatch line latched).state other = controller.state other := by
  rw [state, setLatch, line?_modifyLine, state]
  split
  · rw [Option.map_map]
    rfl
  · rfl

theorem not_requested_of_lines (controller : InterruptController)
    (h : ∀ input ∈ controller.lines, input.isActive = false ∧ input.latched = false)
    (line : UInt8) :
    ¬(controller.isLatched line = true ∨ controller.state line = .asserted) := by
  rw [isLatched, state]
  cases hline : controller.line? line with
  | none => exact fun hrequest => hrequest.elim nofun nofun
  | some input =>
      obtain ⟨hinactive, hunlatched⟩ := h input (List.mem_of_getElem? hline)
      rintro (hlatched | hasserted)
      · exact absurd (hlatched.symm.trans hunlatched) nofun
      · have hstate : input.state = .asserted := hasserted
        rw [InterruptLine.isActive, hstate] at hinactive
        cases hpolicy : input.policy with
        | edgeLatched => simp [hpolicy] at hinactive
        | combinatorial => simp [hpolicy, LineState.isActive] at hinactive

end TmsCores.InterruptController
