import Mathlib.Data.List.Induction
import TmsCores.Proofs.Interrupt.Latch
import TmsCores.Proofs.Interrupt.Priority
import TmsCores.Proofs.Interrupt.State

namespace TmsCores

/-- What can be asked of an interrupt controller. -/
inductive ControllerCall
  | drive (line : UInt8) (state : LineState)
  | acknowledge (line : UInt8)
  | setLatch (line : UInt8)
  | clearLatch (line : UInt8)
  | setEnabled (line : UInt8) (enabled : Bool)
  | reset
  deriving DecidableEq

namespace ControllerCall

/-- The number that a call is about.  A reset is about all lines. -/
def target? : ControllerCall → Option UInt8
  | .drive line _ | .acknowledge line | .setLatch line | .clearLatch line | .setEnabled line _ =>
      some line
  | .reset => none

/-- Whether a line is enabled by a call, if the call says anything about that. -/
def enables? (line : UInt8) : ControllerCall → Option Bool
  | .setEnabled other enabled => if other = line then some enabled else none
  | .reset => some true
  | _ => none

theorem enables?_setEnabled (line other : UInt8) (enabled : Bool) :
    (setEnabled other enabled).enables? line = if other = line then some enabled else none :=
  rfl

theorem enables?_reset (line : UInt8) : reset.enables? line = some true := rfl

/-- A call drops the latch of a line. -/
def ClearsLatch (line : UInt8) (call : ControllerCall) : Prop :=
  call = .acknowledge line ∨ call = .clearLatch line ∨ call = .reset

end ControllerCall

namespace InterruptLine

theorem rises_iff (line : InterruptLine) (state : LineState) :
    line.rises state = true ↔ line.state = .clear ∧ state.isActive = true := by
  rw [rises]
  cases line.state <;> simp [LineState.isActive]

theorem isActive_iff (line : InterruptLine) :
    line.isActive = true ↔
      match line.policy with
      | .edgeLatched => line.latched = true ∨ line.state = .asserted
      | .combinatorial => line.state ≠ .clear := by
  rw [isActive]
  cases line.policy with
  | edgeLatched => simp
  | combinatorial => cases line.state <;> simp [LineState.isActive]

end InterruptLine

namespace InterruptController

def answer (controller : InterruptController) : ControllerCall → InterruptController
  | .drive line state => (controller.drive line state).2
  | .acknowledge line => controller.acknowledge line
  | .setLatch line => controller.setLatch line true
  | .clearLatch line => controller.setLatch line false
  | .setEnabled line enabled => controller.setEnabled line enabled
  | .reset => controller.reset

def after (controller : InterruptController) (calls : List ControllerCall) : InterruptController :=
  calls.foldl answer controller

/-- A call sets the latch of a line, directly or by a rising edge on a line that latches them. -/
def SetsLatch (controller : InterruptController) (line : UInt8) (call : ControllerCall) : Prop :=
  call = .setLatch line ∨
    ∃ state config, call = .drive line state ∧ controller.configs[line.toNat]? = some config ∧
      config.policy = .edgeLatched ∧ controller.state line = .clear ∧ state.isActive = true

/-- The request of a line that is enabled and active and that the mask lets through. -/
def Requests (controller : InterruptController) (mask : UInt8) (pending : PendingLine) : Prop :=
  ∃ config, controller.configs[pending.line.toNat]? = some config ∧
    pending.level = config.level ∧
    controller.isEnabled pending.line = true ∧
    (match config.policy with
      | .edgeLatched =>
          controller.isLatched pending.line = true ∨ controller.state pending.line = .asserted
      | .combinatorial => controller.state pending.line ≠ .clear) ∧
    (config.maskable = false ∨
      match controller.compare with
      | .atOrBelow => config.level ≤ mask
      | .below => config.level < mask)

variable {controller : InterruptController} {line other : UInt8} {call : ControllerCall}

theorem after_append_singleton (controller : InterruptController) (calls : List ControllerCall)
    (call : ControllerCall) :
    controller.after (calls ++ [call]) = (controller.after calls).answer call :=
  List.foldl_append

theorem configs_answer (controller : InterruptController) (call : ControllerCall) :
    (controller.answer call).configs = controller.configs := by
  cases call with
  | drive line state => exact controller.configs_drive line state
  | acknowledge line => exact controller.configs_acknowledge line
  | setLatch line => exact controller.configs_setLatch line true
  | clearLatch line => exact controller.configs_setLatch line false
  | setEnabled line enabled => exact controller.configs_setEnabled line enabled
  | reset => exact controller.configs_reset

theorem configs_after (controller : InterruptController) (calls : List ControllerCall) :
    (controller.after calls).configs = controller.configs := by
  induction calls generalizing controller with
  | nil => rfl
  | cons call rest ih => exact (ih _).trans (controller.configs_answer call)

theorem size_after (controller : InterruptController) (calls : List ControllerCall) :
    (controller.after calls).size = controller.size := by
  rw [← length_configs, ← length_configs, configs_after]

theorem compare_answer (controller : InterruptController) (call : ControllerCall) :
    (controller.answer call).compare = controller.compare := by
  cases call <;> rfl

theorem compare_after (controller : InterruptController) (calls : List ControllerCall) :
    (controller.after calls).compare = controller.compare := by
  induction calls generalizing controller with
  | nil => rfl
  | cons call rest ih => exact (ih _).trans (controller.compare_answer call)

theorem line?_ofLines (lines : List LineConfig) (compare : MaskCompare) (line : UInt8) :
    (ofLines lines compare).line? line =
      lines[line.toNat]?.map fun config => { toLineConfig := config } := by
  rw [line?, ofLines, List.getElem?_map]

theorem size_ofLines (lines : List LineConfig) (compare : MaskCompare) :
    (ofLines lines compare).size = lines.length := by
  rw [← length_configs, configs_ofLines]

theorem isLatched_ofLines (lines : List LineConfig) (compare : MaskCompare) (line : UInt8) :
    (ofLines lines compare).isLatched line = false := by
  rw [isLatched, line?_ofLines, Option.any_map]
  cases lines[line.toNat]? with
  | none => rfl
  | some config => rfl

theorem isEnabled_ofLines (lines : List LineConfig) (compare : MaskCompare) {line : UInt8}
    (hline : line.toNat < lines.length) : (ofLines lines compare).isEnabled line = true := by
  rw [isEnabled, line?_ofLines, List.getElem?_eq_getElem hline]
  rfl

theorem line?_eq_none (h : controller.size ≤ line.toNat) : controller.line? line = none :=
  List.getElem?_eq_none h

theorem quiet_of_missing (h : controller.size ≤ line.toNat) :
    controller.state line = .clear ∧ controller.isLatched line = false ∧
      controller.isEnabled line = false := by
  rw [InterruptController.state, isLatched, isEnabled, line?_eq_none h]
  exact ⟨rfl, rfl, rfl⟩

theorem exists_answer_eq_modifyLine (h : call.target? = some other) :
    ∃ change, ∀ controller : InterruptController,
      controller.answer call = controller.modifyLine other change := by
  cases call with
  | reset => exact absurd h nofun
  | drive | acknowledge | setLatch | clearLatch | setEnabled =>
      obtain rfl := Option.some.inj h
      exact ⟨_, fun _ => rfl⟩

theorem line?_answer_of_ne (h : call.target? = some other) (hne : other ≠ line) :
    (controller.answer call).line? line = controller.line? line := by
  obtain ⟨change, hchange⟩ := exists_answer_eq_modifyLine h
  rw [hchange, line?_modifyLine, if_neg hne]

theorem answer_of_missing (h : call.target? = some other)
    (hmissing : controller.size ≤ other.toNat) : controller.answer call = controller := by
  obtain ⟨change, hchange⟩ := exists_answer_eq_modifyLine h
  rw [hchange, modifyLine, List.modify_eq_self hmissing]

theorem drive_fst_iff (controller : InterruptController) (line : UInt8) (state : LineState) :
    (controller.drive line state).1 = true ↔
      line.toNat < controller.size ∧ controller.state line = .clear ∧ state.isActive = true := by
  by_cases hline : line.toNat < controller.lines.length
  · simp [drive, InterruptController.state, line?, size, hline, InterruptLine.rises_iff]
  · simp [drive, line?, size, hline]

theorem state_setEnabled (controller : InterruptController) (line other : UInt8)
    (enabled : Bool) : (controller.setEnabled other enabled).state line = controller.state line := by
  rw [setEnabled, state_modifyLine, state]
  exact ite_self _

theorem state_answer (h : ∀ state, call ≠ .drive line state) (controller : InterruptController) :
    (controller.answer call).state line =
      if call = .acknowledge line ∧ controller.state line = .held then .clear
      else controller.state line := by
  cases call with
  | drive other state =>
      have hne : other ≠ line := fun heq => h state (heq ▸ rfl)
      simp [answer, drive, state_modifyLine, hne]
  | acknowledge other => simp [answer, state_acknowledge]
  | setLatch other => simp [answer, state_setLatch]
  | clearLatch other => simp [answer, state_setLatch]
  | setEnabled other enabled => simp [answer, state_setEnabled]
  | reset => simp [answer, state_reset]

theorem state_after_of_not_driven {calls : List ControllerCall}
    (h : ∀ state, .drive line state ∉ calls) (controller : InterruptController) :
    (controller.after calls).state line =
      if controller.state line = .held ∧ .acknowledge line ∈ calls then .clear
      else controller.state line := by
  induction calls generalizing controller with
  | nil => simp [after]
  | cons call rest ih =>
      have hcall : ∀ state, call ≠ .drive line state :=
        fun state heq => h state (heq ▸ List.mem_cons_self)
      have hrest : ∀ state, .drive line state ∉ rest :=
        fun state hstate => h state (List.mem_cons_of_mem call hstate)
      have hstep : (controller.after (call :: rest)).state line = _ := ih hrest _
      simp only [hstep, state_answer hcall]
      by_cases hheld : controller.state line = .held
      · by_cases hacknowledge : call = .acknowledge line
        · simp [hheld, hacknowledge]
        · simp [hheld, hacknowledge, Ne.symm hacknowledge]
      · simp [hheld]

/-- A line is in the state that it was driven to last, less an edge request that has been
acknowledged. -/
theorem state_after_of_driven (hline : line.toNat < controller.size)
    (earlier : List ControllerCall) (state : LineState) {later : List ControllerCall}
    (h : ∀ other, .drive line other ∉ later) :
    (controller.after (earlier ++ .drive line state :: later)).state line =
      if state = .held ∧ .acknowledge line ∈ later then .clear else state := by
  have hsplit : controller.after (earlier ++ .drive line state :: later) =
      ((controller.after earlier).answer (.drive line state)).after later :=
    List.foldl_append
  have hdriven : ((controller.after earlier).answer (.drive line state)).state line = state := by
    refine (state_drive ?_ line state).trans (if_pos rfl)
    rw [size_after]
    exact hline
  rw [hsplit, state_after_of_not_driven h, hdriven]

theorem isLatched_answer_iff_of_ne (h : call.target? = some other) (hne : other ≠ line) :
    (controller.answer call).isLatched line = true ↔
      controller.SetsLatch line call ∨
        controller.isLatched line = true ∧ ¬call.ClearsLatch line := by
  have hcall : call.target? ≠ some line := by
    rw [h]
    exact fun heq => hne (Option.some.inj heq)
  have hsets : ¬controller.SetsLatch line call := by
    rintro (rfl | ⟨state, config, rfl, -⟩)
    · exact hcall rfl
    · exact hcall rfl
  have hclears : ¬call.ClearsLatch line := by
    rintro (rfl | rfl | rfl)
    · exact hcall rfl
    · exact hcall rfl
    · exact absurd h nofun
  rw [isLatched, line?_answer_of_ne h hne, ← isLatched]
  simp [hsets, hclears]

theorem isLatched_answer_iff (hline : line.toNat < controller.size) :
    (controller.answer call).isLatched line = true ↔
      controller.SetsLatch line call ∨
        controller.isLatched line = true ∧ ¬call.ClearsLatch line := by
  by_cases hfar : ∃ other, call.target? = some other ∧ other ≠ line
  · obtain ⟨other, htarget, hne⟩ := hfar
    exact isLatched_answer_iff_of_ne htarget hne
  have hself {other : UInt8} (htarget : call.target? = some other) : other = line :=
    Decidable.byContradiction fun hne => hfar ⟨other, htarget, hne⟩
  obtain ⟨input, hinput⟩ : ∃ input, controller.line? line = some input :=
    ⟨_, List.getElem?_eq_getElem hline⟩
  have hconfig : controller.configs[line.toNat]? = some input.toLineConfig := by
    rw [configs, List.getElem?_map]
    exact congrArg (Option.map _) hinput
  cases call with
  | drive other state =>
      obtain rfl := hself rfl
      have hstate : controller.state other = input.state := by
        rw [InterruptController.state, hinput]
        rfl
      rw [answer, drive, isLatched_modifyLine, isLatched, hinput]
      simp [SetsLatch, ControllerCall.ClearsLatch, hconfig, hstate, InterruptLine.drive,
        InterruptLine.rises_iff, or_comm, and_comm]
  | acknowledge other =>
      obtain rfl := hself rfl
      rw [answer, acknowledge, isLatched_modifyLine]
      simp [SetsLatch, ControllerCall.ClearsLatch, InterruptLine.acknowledge]
  | setLatch other =>
      obtain rfl := hself rfl
      rw [answer, setLatch, isLatched_modifyLine]
      simp [SetsLatch, hinput]
  | clearLatch other =>
      obtain rfl := hself rfl
      rw [answer, setLatch, isLatched_modifyLine]
      simp [SetsLatch, ControllerCall.ClearsLatch]
  | setEnabled other enabled =>
      obtain rfl := hself rfl
      rw [answer, setEnabled, isLatched_modifyLine]
      simp [SetsLatch, ControllerCall.ClearsLatch, isLatched]
  | reset =>
      rw [answer, reset, isLatched, line?, List.getElem?_map, Option.any_map]
      simp [SetsLatch, ControllerCall.ClearsLatch, InterruptLine.reset]

/-- With one more call at the end, either that call is the one or it lets what an earlier one did
stand. -/
theorem exists_split_append_singleton_iff {P : List ControllerCall → ControllerCall → Prop}
    {kept : ControllerCall → Prop} {calls : List ControllerCall} {last : ControllerCall} :
    (∃ earlier call later, calls ++ [last] = earlier ++ call :: later ∧ P earlier call ∧
        ∀ other ∈ later, kept other) ↔
      P calls last ∨
        (∃ earlier call later, calls = earlier ++ call :: later ∧ P earlier call ∧
          ∀ other ∈ later, kept other) ∧ kept last := by
  constructor
  · rintro ⟨earlier, call, later, hsplit, hcall, hkept⟩
    cases later using List.reverseRecOn with
    | nil =>
        obtain ⟨rfl, hlast⟩ := List.append_inj' hsplit rfl
        obtain rfl := List.singleton_inj.mp hlast
        exact .inl hcall
    | append_singleton later final =>
        rw [← List.cons_append, ← List.append_assoc] at hsplit
        obtain ⟨rfl, hfinal⟩ := List.append_inj' hsplit rfl
        obtain rfl := List.singleton_inj.mp hfinal
        rw [List.forall_mem_append, List.forall_mem_singleton] at hkept
        exact .inr ⟨⟨earlier, call, later, rfl, hcall, hkept.1⟩, hkept.2⟩
  · rintro (hlast | ⟨⟨earlier, call, later, rfl, hcall, hkept⟩, hlast⟩)
    · exact ⟨calls, last, [], rfl, hlast, nofun⟩
    · refine ⟨earlier, call, later ++ [last], by simp, hcall, ?_⟩
      rw [List.forall_mem_append, List.forall_mem_singleton]
      exact ⟨hkept, hlast⟩

/-- A latch is set if it was set by some call and has not been cleared since. -/
theorem isLatched_after_iff (hline : line.toNat < controller.size)
    (hstart : controller.isLatched line = false) (calls : List ControllerCall) :
    (controller.after calls).isLatched line = true ↔
      ∃ earlier call later, calls = earlier ++ call :: later ∧
        (controller.after earlier).SetsLatch line call ∧
        ∀ cleared ∈ later, ¬cleared.ClearsLatch line := by
  -- By the latest call, which either decides or leaves it to the calls before.
  induction calls using List.reverseRecOn with
  | nil => simp [after, hstart]
  | append_singleton calls last ih =>
      have hsize : line.toNat < (controller.after calls).size := by
        rw [size_after]
        exact hline
      rw [after_append_singleton, isLatched_answer_iff hsize, ih, exists_split_append_singleton_iff]

theorem isEnabled_answer (hline : line.toNat < controller.size) :
    (controller.answer call).isEnabled line =
      (call.enables? line).getD (controller.isEnabled line) := by
  cases call with
  | drive other state => exact controller.isEnabled_drive other line state
  | acknowledge other => exact controller.isEnabled_acknowledge other line
  | setLatch other => exact controller.isEnabled_setLatch other line true
  | clearLatch other => exact controller.isEnabled_setLatch other line false
  | setEnabled other enabled =>
      rw [answer, isEnabled_setEnabled, ControllerCall.enables?_setEnabled]
      by_cases hother : other = line
      · subst hother
        simp [hline]
      · simp [hother]
  | reset =>
      have hinput : line.toNat < controller.lines.length := hline
      simp [answer, reset, isEnabled, line?, hinput, ControllerCall.enables?_reset,
        InterruptLine.reset]

theorem isEnabled_after (hline : line.toNat < controller.size) (calls : List ControllerCall) :
    (controller.after calls).isEnabled line =
      (calls.filterMap (·.enables? line)).getLast?.getD (controller.isEnabled line) := by
  induction calls using List.reverseRecOn with
  | nil => rfl
  | append_singleton calls last ih =>
      have hsize : line.toNat < (controller.after calls).size := by
        rw [size_after]
        exact hline
      rw [after_append_singleton, isEnabled_answer hsize, ih, List.filterMap_append]
      cases hlast : last.enables? line with
      | none => simp [hlast]
      | some enabled => simp [hlast]

theorem mem_eligible_iff_requests (hsize : controller.size ≤ 256) {mask : UInt8}
    {pending : PendingLine} :
    pending ∈ controller.eligible mask ↔ controller.Requests mask pending := by
  rw [mem_eligible_iff hsize, Requests, configs, List.getElem?_map]
  change (∃ line, controller.line? pending.line = some line ∧ _) ↔
    ∃ config, (controller.line? pending.line).map _ = some config ∧ _
  rw [isEnabled, isLatched, InterruptController.state]
  cases controller.line? pending.line with
  | none => simp
  | some input =>
      simp [InterruptLine.isEligible, InterruptLine.isActive_iff, MaskCompare.admits_iff, and_assoc]
      tauto

end InterruptController

/-- A controller goes by what has been asked of it. -/
theorem interrupts_refine_history (lines : List LineConfig) (hsize : lines.length ≤ 256)
    (compare : MaskCompare) (calls : List ControllerCall) :
    let start := InterruptController.ofLines lines compare
    let controller := start.after calls
    (controller.configs = lines ∧ controller.compare = compare) ∧
      (∀ line : UInt8, line.toNat < lines.length →
        ((∀ state, .drive line state ∉ calls) → controller.state line = .clear) ∧
        (∀ earlier state later, calls = earlier ++ .drive line state :: later →
          (∀ other, .drive line other ∉ later) →
          controller.state line =
            if state = .held ∧ .acknowledge line ∈ later then .clear else state) ∧
        (controller.isLatched line = true ↔
          ∃ earlier call later, calls = earlier ++ call :: later ∧
            (start.after earlier).SetsLatch line call ∧
            ∀ cleared ∈ later, ¬cleared.ClearsLatch line) ∧
        controller.isEnabled line = (calls.filterMap (·.enables? line)).getLast?.getD true) ∧
      (∀ line : UInt8, lines.length ≤ line.toNat →
        controller.state line = .clear ∧ controller.isLatched line = false ∧
          controller.isEnabled line = false) ∧
      (∀ call line, call.target? = some line →
        (∀ other, line ≠ other → (controller.answer call).line? other = controller.line? other) ∧
        (lines.length ≤ line.toNat → controller.answer call = controller)) ∧
      (∀ line state, (controller.drive line state).1 = true ↔
        line.toNat < lines.length ∧ controller.state line = .clear ∧ state.isActive = true) ∧
      (∀ mask pending, controller.pending mask = some pending ↔
        controller.Requests mask pending ∧
          ∀ other, controller.Requests mask other → pending.Precedes other) ∧
      ∀ mask, controller.pending mask = none ↔ ∀ pending, ¬controller.Requests mask pending := by
  intro start controller
  have hlines : start.size = lines.length := InterruptController.size_ofLines lines compare
  have hcount : controller.size = lines.length := by
    rw [InterruptController.size_after, hlines]
  have hsmall : controller.size ≤ 256 := hcount ▸ hsize
  refine ⟨⟨?_, ?_⟩, fun line hline => ?_, fun line hline => ?_, fun call line htarget => ?_,
    fun line state => ?_, fun mask pending => ?_, fun mask => ?_⟩
  · exact (start.configs_after calls).trans (InterruptController.configs_ofLines lines compare)
  · exact start.compare_after calls
  · have hstart : line.toNat < start.size := hlines ▸ hline
    have hclear : start.state line = .clear := InterruptController.state_ofLines lines compare line
    refine ⟨fun hnever => ?_, fun earlier state later hsplit hlast => ?_,
      InterruptController.isLatched_after_iff hstart
        (InterruptController.isLatched_ofLines lines compare line) calls, ?_⟩
    · change (start.after calls).state line = .clear
      rw [InterruptController.state_after_of_not_driven hnever, hclear]
      exact ite_self _
    · change (start.after calls).state line = _
      rw [hsplit, InterruptController.state_after_of_driven hstart earlier state hlast]
    · change (start.after calls).isEnabled line = _
      rw [InterruptController.isEnabled_after hstart,
        InterruptController.isEnabled_ofLines lines compare hline]
  · exact InterruptController.quiet_of_missing (hcount ▸ hline)
  · refine ⟨fun other hne => InterruptController.line?_answer_of_ne htarget hne, fun hline => ?_⟩
    exact InterruptController.answer_of_missing htarget (hcount ▸ hline)
  · rw [controller.drive_fst_iff, hcount]
  · simp only [InterruptController.pending_eq_some_iff hsmall,
      InterruptController.mem_eligible_iff_requests hsmall]
  · simp only [InterruptController.pending_eq_none_iff,
      InterruptController.mem_eligible_iff_requests hsmall]

/-- A pulse on a line that latches edges, beside a line that is acknowledged while it is held.  The
request that the pulse leaves is due under a mask of 1, and not under a mask of 0. -/
theorem interrupts_refine_history_of_pulse :
    let lines : List LineConfig := [⟨1, true, .edgeLatched⟩, ⟨0, false, .combinatorial⟩]
    let controller := (InterruptController.ofLines lines .atOrBelow).after
      [.drive 0 .held, .drive 1 .held, .drive 0 .clear, .acknowledge 1]
    lines.length ≤ 256 ∧ controller.state 1 = .clear ∧ controller.isLatched 0 = true ∧
      controller.isEnabled 0 = true ∧ controller.pending 1 = some ⟨0, 1⟩ ∧
      controller.pending 0 = none := by
  intro lines controller
  have hsize : lines.length ≤ 256 := by decide
  obtain ⟨-, hline, -, -, -, hpending, hnone⟩ := interrupts_refine_history lines hsize .atOrBelow
    [.drive 0 .held, .drive 1 .held, .drive 0 .clear, .acknowledge 1]
  obtain ⟨-, -, hlatched, henabled⟩ := hline 0 (by decide)
  obtain ⟨-, hheld, -⟩ := hline 1 (by decide)
  have hstate : controller.state 1 = .clear :=
    hheld [.drive 0 .held] .held [.drive 0 .clear, .acknowledge 1] rfl (by simp)
  have hkept : controller.isLatched 0 = true := by
    refine hlatched.mpr ⟨[], .drive 0 .held,
      [.drive 1 .held, .drive 0 .clear, .acknowledge 1], rfl, ?_, ?_⟩
    · exact .inr ⟨.held, ⟨1, true, .edgeLatched⟩, rfl, rfl, rfl, rfl, rfl⟩
    · simp [ControllerCall.ClearsLatch]
  have hcount : controller.size ≤ 256 := by decide
  refine ⟨hsize, hstate, hkept, henabled, (hpending 1 ⟨0, 1⟩).mpr ⟨?_, fun other hother => ?_⟩,
    (hnone 0).mpr fun other hother => ?_⟩
  · exact ⟨⟨1, true, .edgeLatched⟩, rfl, rfl, henabled, .inl hkept, .inr (UInt8.le_refl 1)⟩
  · rw [← InterruptController.mem_eligible_iff_requests hcount] at hother
    obtain rfl := List.mem_singleton.mp hother
    exact .refl _
  · rw [← InterruptController.mem_eligible_iff_requests hcount] at hother
    exact List.not_mem_nil hother

end TmsCores
