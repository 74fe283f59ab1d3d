import TmsCores.Interrupt.Controller

namespace TmsCores.InterruptController

variable {controller : InterruptController} {mask : UInt8} {pending : PendingLine}

theorem foldl_preferred_mem (candidates : List PendingLine) (best : Option PendingLine)
    (h : candidates.foldl preferred best = some pending) :
    best = some pending ∨ pending ∈ candidates := by
  induction candidates generalizing best with
  | nil => exact .inl h
  | cons next rest ih =>
      rcases ih _ h with hbest | hrest
      · cases best with
        | none => exact .inr (Option.some.inj hbest ▸ List.mem_cons_self)
        | some best =>
            rw [preferred] at hbest
            split at hbest
            · exact .inr (Option.some.inj hbest ▸ List.mem_cons_self)
            · exact .inl hbest
      · exact .inr (List.mem_cons_of_mem _ hrest)

theorem exists_of_pending (h : controller.pending mask = some pending) :
    ∃ number line, controller.lines[number]? = some line ∧
      line.isEligible controller.compare mask = true ∧
      pending = ⟨UInt8.ofNat number, line.level⟩ := by
  rcases foldl_preferred_mem _ _ h with hnone | hmem
  · exact absurd hnone nofun
  · rw [eligible, List.mem_filterMap] at hmem
    obtain ⟨⟨line, number⟩, hline, hpending⟩ := hmem
    rw [List.mk_mem_zipIdx_iff_getElem?] at hline
    dsimp only at hpending
    split at hpending
    · exact ⟨number, line, hline, ‹_›, (Option.some.inj hpending).symm⟩
    · exact absurd hpending nofun

/-- Only lines of level 0 escape the mask. -/
theorem pending_level_le (hcompare : controller.compare = .atOrBelow)
    (hlines : ∀ line ∈ controller.lines, line.maskable = false → line.level = 0)
    (h : controller.pending mask = some pending) : pending.level ≤ mask := by
  obtain ⟨number, line, hline, heligible, rfl⟩ := exists_of_pending h
  cases hmaskable : line.maskable with
  | false =>
      rw [hlines line (List.mem_of_getElem? hline) hmaskable]
      exact UInt8.zero_le
  | true =>
      simp [InterruptLine.isEligible, hcompare, hmaskable, MaskCompare.admits] at heligible
      exact heligible.2

def configs (controller : InterruptController) : List LineConfig :=
  controller.lines.map (·.toLineConfig)

@[simp] theorem configs_ofLines (lines : List LineConfig) (compare : MaskCompare) :
    (ofLines lines compare).configs = lines := by
  simp [configs, ofLines, Function.comp_def]

theorem configs_modifyLine (controller : InterruptController) (line : UInt8)
    {change : InterruptLine → InterruptLine}
    (hchange : ∀ line, (change line).toLineConfig = line.toLineConfig) :
    (controller.modifyLine line change).configs = controller.configs := by
  apply List.ext_getElem?
  intro number
  simp only [configs, modifyLine, List.getElem?_map, List.getElem?_modify]
  split
  · cases controller.lines[number]? with
    | none => rfl
    | some line => exact congrArg some (hchange line)
  · simp

@[simp] theorem configs_drive (controller : InterruptController) (line : UInt8)
    (state : LineState) : (controller.drive line state).2.configs = controller.configs :=
  configs_modifyLine controller line fun _ => rfl

@[simp] theorem configs_acknowledge (controller : InterruptController) (line : UInt8) :
    (controller.acknowledge line).configs = controller.configs :=
  configs_modifyLine controller line fun _ => rfl

@[simp] theorem configs_setLatch (controller : InterruptController) (line : UInt8)
    (latched : Bool) : (controller.setLatch line latched).configs = controller.configs :=
  configs_modifyLine controller line fun _ => rfl

@[simp] theorem configs_setEnabled (controller : InterruptController) (line : UInt8)
    (enabled : Bool) : (controller.setEnabled line enabled).configs = controller.configs :=
  configs_modifyLine controller line fun _ => rfl

@[simp] theorem configs_reset (controller : InterruptController) :
    controller.reset.configs = controller.configs := by
  simp [configs, reset, InterruptLine.reset, Function.comp_def]

@[simp] theorem length_configs (controller : InterruptController) :
    controller.configs.length = controller.size :=
  List.length_map _

theorem isEnabled_modifyLine (controller : InterruptController) (line other : UInt8)
    {change : InterruptLine → InterruptLine}
    (hchange : ∀ line, (change line).enabled = line.enabled) :
    (controller.modifyLine line change).isEnabled other = controller.isEnabled other := by
  rw [isEnabled, isEnabled, line?_modifyLine]
  split
  · cases controller.line? other with
    | none => rfl
    | some line => exact hchange line
  · rfl

@[simp] theorem isEnabled_drive (controller : InterruptController) (line other : UInt8)
    (state : LineState) :
    (controller.drive line state).2.isEnabled other = controller.isEnabled other :=
  controller.isEnabled_modifyLine line other fun _ => rfl

@[simp] theorem isEnabled_acknowledge (controller : InterruptController) (line other : UInt8) :
    (controller.acknowledge line).isEnabled other = controller.isEnabled other :=
  controller.isEnabled_modifyLine line other fun _ => rfl

@[simp] theorem isEnabled_setLatch (controller : InterruptController) (line other : UInt8)
    (latched : Bool) :
    (controller.setLatch line latched).isEnabled other = controller.isEnabled other :=
  controller.isEnabled_modifyLine line other fun _ => rfl

theorem isEnabled_setEnabled (controller : InterruptController) (line other : UInt8)
    (enabled : Bool) :
    (controller.setEnabled line enabled).isEnabled other =
      if line = other then decide (line.toNat < controller.size) && enabled
      else controller.isEnabled other := by
  rw [isEnabled, isEnabled, setEnabled, line?_modifyLine]
  split
  · next heq =>
      subst heq
      by_cases hline : line.toNat < controller.lines.length
      · simp [line?, size, hline]
      · simp [line?, size, hline]
  · rfl

@[simp] theorem size_setEnabled (controller : InterruptController) (line : UInt8)
    (enabled : Bool) : (controller.setEnabled line enabled).size = controller.size :=
  size_modifyLine controller line _

def AllEnabled (controller : InterruptController) : Prop :=
  ∀ line ∈ controller.lines, line.enabled = true

theorem ofLines_allEnabled (lines : List LineConfig) (compare : MaskCompare) :
    (ofLines lines compare).AllEnabled := by
  intro line hline
  obtain ⟨config, _, rfl⟩ := List.mem_map.mp hline
  rfl

namespace AllEnabled

theorem modifyLine (h : controller.AllEnabled) (line : UInt8)
    {change : InterruptLine → InterruptLine}
    (hchange : ∀ line, (change line).enabled = line.enabled) :
    (controller.modifyLine line change).AllEnabled := by
  intro other hother
  obtain ⟨number, hnumber⟩ := List.mem_iff_getElem?.mp hother
  simp only [InterruptController.modifyLine, List.getElem?_modify] at hnumber
  split at hnumber
  · obtain ⟨before, hbefore, rfl⟩ := Option.map_eq_some_iff.mp hnumber
    rw [hchange]
    exact h before (List.mem_of_getElem? hbefore)
  · rw [id_map'] at hnumber
    exact h other (List.mem_of_getElem? hnumber)

theorem drive (h : controller.AllEnabled) (line : UInt8) (state : LineState) :
    (controller.drive line state).2.AllEnabled :=
  h.modifyLine line fun _ => rfl

theorem acknowledge (h : controller.AllEnabled) (line : UInt8) :
    (controller.acknowledge line).AllEnabled :=
  h.modifyLine line fun _ => rfl

theorem setLatch (h : controller.AllEnabled) (line : UInt8) (latched : Bool) :
    (controller.setLatch line latched).AllEnabled :=
  h.modifyLine line fun _ => rfl

end AllEnabled

theorem reset_allEnabled (controller : InterruptController) : controller.reset.AllEnabled := by
  intro line hline
  obtain ⟨before, _, rfl⟩ := List.mem_map.mp hline
  rfl

end TmsCores.InterruptController
