import TmsCores.Proofs.RunLoop
import TmsCores.Proofs.Tms7000.Course
import TmsCores.Proofs.Tms7000.Reachability

namespace TmsCores.Tms7000

theorem Instruction.cycles_pos {opcode : UInt8} {entry : Entry}
    (h : ofOpcode? opcode = some entry) : 0 < entry.cycles.toNat := by
  have hall : ∀ opcode : Fin 256, ∀ entry ∈ ofOpcode? (UInt8.ofFin opcode),
      0 < entry.cycles.toNat := by
    decide +kernel
  exact hall opcode.toFin entry h

namespace Cpu

variable {cpu : Cpu}

/-- Idle, with no interrupt to wake the processor. -/
def Resting (cpu : Cpu) : Prop :=
  cpu.idle = true ∧ cpu.pending = none

theorem advance_advance (h : cpu.divider.InPhase) {first : Nat}
    (hfirst : first < cpu.divider.untilNext) (second : Nat) :
    (cpu.advance first).2.advance second = cpu.advance (first + second) := by
  simp only [advance, h.advance_advance hfirst, CycleCount.advance_advance]

end Cpu

namespace Exec

open Cpu

variable {β : Type} {machine : Machine β}

variable [Bus β]

/-- What a machine that rests for some cycles turns into. -/
def pass (cycles : Nat) (machine : Machine β) : Machine β :=
  (account cycles (clearLeftovers machine).2).2

theorem pass_eq (h : machine.cpu.divider.InPhase) (cycles : Nat) :
    pass cycles machine =
      (ticks (machine.cpu.advance cycles).1
        { (clearLeftovers machine).2 with cpu := (machine.cpu.advance cycles).2 }).2 := by
  change (ticks (machine.cpu.advance cycles).1
    { (clearLeftovers machine).2 with
      cpu := (machine.cpu.advance cycles).2
      fault := !(machine.cpu.divider.divide? cycles).isSome || machine.fault }).2 = _
  rw [TickDivider.isSome_divide? h.divisor_ne_zero]
  rfl

theorem pass_of_lt (h : machine.cpu.divider.InPhase) {cycles : Nat}
    (hcycles : cycles < machine.cpu.divider.untilNext) :
    pass cycles machine =
      { (clearLeftovers machine).2 with cpu := (machine.cpu.advance cycles).2 } := by
  have hticks : (machine.cpu.advance cycles).1 = 0 := by
    simp only [advance, h.advance_of_lt hcycles]
  rw [pass_eq h, hticks]
  rfl

theorem pass_pass (h : machine.cpu.divider.InPhase) {first : Nat}
    (hfirst : first < machine.cpu.divider.untilNext) (second : Nat) :
    pass second (pass first machine) = pass (first + second) machine := by
  let passed : Machine β :=
    { (clearLeftovers machine).2 with cpu := (machine.cpu.advance first).2 }
  have hpassed : passed.cpu.divider.InPhase := h.advance first
  have hsum : passed.cpu.advance second = machine.cpu.advance (first + second) :=
    advance_advance h hfirst second
  rw [pass_of_lt h hfirst, pass_eq hpassed, pass_eq h, hsum]
  rfl

theorem wake_leads (P : Machine β → Prop) :
    Leads P (Machine.Has (·.idle = false)) (wake (β := β)) := by
  intro machine _
  rw [wake, cpu_bind]
  split
  · rfl
  · exact Bool.eq_false_iff.mpr ‹_›

theorem serviceInterrupt_leads (pending : PendingLine) :
    Leads (fun machine => machine.cpu.pending = some pending) (Machine.Has (·.idle = false))
      (serviceInterrupt (β := β)) := by
  intro machine h
  rw [serviceInterrupt_snd h]
  exact wake_leads (fun _ => True) _ trivial

theorem idle_serviceInterrupt_of_not_resting (h : ¬machine.cpu.Resting) :
    (serviceInterrupt machine).2.cpu.idle = false := by
  cases hpending : machine.cpu.pending with
  | some pending => exact serviceInterrupt_leads pending _ hpending
  | none =>
      rw [serviceInterrupt_of_none hpending]
      exact Bool.eq_false_iff.mpr fun hidle => h ⟨hidle, hpending⟩

theorem iterate_eq (limit : Nat) :
    iterate limit machine =
      (if (serviceInterrupt (clearLeftovers machine).2).2.cpu.idle then rest limit
        else work (serviceInterrupt (clearLeftovers machine).2).1 : Exec β Nat)
      (serviceInterrupt (clearLeftovers machine).2).2 :=
  rfl

theorem iterate_of_resting (h : machine.cpu.Resting) (limit : Nat) :
    iterate limit machine =
      (max 1 (min machine.cpu.divider.untilNext limit),
        pass (max 1 (min machine.cpu.divider.untilNext limit)) machine) := by
  have hcleared : (clearLeftovers machine).2.cpu.Resting := h
  rw [iterate_eq, serviceInterrupt_of_none hcleared.2]
  dsimp only
  rw [if_pos hcleared.1]
  rfl

theorem iterate_of_not_resting (h : ¬machine.cpu.Resting) (limit : Nat) :
    iterate limit machine =
      work (serviceInterrupt (clearLeftovers machine).2).1
        (serviceInterrupt (clearLeftovers machine).2).2 := by
  have hawake : (serviceInterrupt (clearLeftovers machine).2).2.cpu.idle = false :=
    idle_serviceInterrupt_of_not_resting h
  rw [iterate_eq, hawake]
  rfl

theorem illegal_pos {config : Config} (hcost : config.illegal ≠ .ignore 0) :
    Yields (Machine.Has (·.IsConsistent config)) (0 < ·) (illegal (β := β)) := by
  intro machine hmachine
  have hclamp : machine.cpu.config.illegal = config.illegal := by
    rw [hmachine.config_eq, Config.clamp]
  rw [illegal, cpu_bind]
  rw [hclamp]
  cases hillegal : config.illegal with
  | trap => exact (by decide : 0 < trapCycles)
  | ignore cycles => exact IllegalOpcode.ignore_pos hcost hillegal

theorem execute_pos {config : Config} (hcost : config.illegal ≠ .ignore 0) :
    Yields (Machine.Has (·.IsConsistent config)) (0 < ·) (execute (β := β)) := by
  have hfetch := corresponds_self_iff.mp
    ((isConsistent_stable config).hostSimulation (β := β)).toSimulation.fetch
  refine Yields.bind hfetch fun opcode => ?_
  split
  · exact illegal_pos hcost
  · next hdecode =>
      refine Yields.after _ fun extra => ?_
      exact .pure (Nat.add_pos_left (Instruction.cycles_pos hdecode) _)

theorem work_pos {config : Config} (hcost : config.illegal ≠ .ignore 0) (service : Nat) :
    Yields (Machine.Has (·.IsConsistent config)) (0 < ·) (work (β := β) service) := by
  intro machine hmachine
  have hexecute := execute_pos hcost machine hmachine
  exact Nat.add_pos_left (Nat.add_pos_right service hexecute) _

/-- A processor lets time pass while it rests, and otherwise takes no notice of the limit. -/
theorem iterate_quantised {config : Config} (hcost : config.illegal ≠ .ignore 0) :
    RunLoop.Quantised (iterate (β := β)) (Machine.Has (·.IsConsistent config))
      (·.cpu.Resting) (·.cpu.divider.untilNext) pass where
  keeps limit := (isConsistent_stable config).iterate_keeps limit
  rest limit machine _ hresting := iterate_of_resting hresting limit
  resume first machine hmachine hresting hfirst := by
    have hphase := hmachine.inPhase
    rw [pass_of_lt hphase hfirst]
    refine ⟨hresting, hphase.untilNext_advance hfirst, fun second => ?_⟩
    rw [← pass_of_lt hphase hfirst]
    exact pass_pass hphase hfirst second
  work limit machine hmachine hresting := by
    rw [iterate_of_not_resting hresting]
    have hservice := corresponds_self_iff.mp
      ((isConsistent_stable config).hostSimulation (β := β)).serviceInterrupt
    exact work_pos hcost _ _ (hservice _ hmachine)
  unlimited limit other machine _ hresting := by
    rw [iterate_of_not_resting hresting, iterate_of_not_resting hresting]

end Exec

end TmsCores.Tms7000
