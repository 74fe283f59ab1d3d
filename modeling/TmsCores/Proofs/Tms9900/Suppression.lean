import TmsCores.Proofs.Tms9900.Course
import TmsCores.Proofs.Tms9900.IdleExclusion

namespace TmsCores.Tms9900

variable {β : Type} [Bus β] {machine : Machine β}

namespace Cpu

theorem released_clockStable : ClockStable (·.suppress = false) :=
  released_hostStable.toClockStable

theorem held_clockStable : ClockStable (·.suppress = true) where
  tick {cpu} h := (eq_of_core (·.suppress) (fun _ => rfl) cpu.core_tick).trans h
  advance h _ := h
  drive {cpu} h line state :=
    (eq_of_core (·.suppress) (fun _ => rfl) (cpu.core_drive line state)).trans h

end Cpu

theorem Exec.perform_leads_held {instruction : Instruction} (h : instruction.HoldsInterrupts)
    (opcode : UInt16) :
    Leads (fun _ => True) (Machine.Has (·.suppress = true))
      (perform (β := β) opcode instruction) := by
  have hhold : Leads (fun _ => True) (Machine.Has (·.suppress = true)) (holdInterrupts (β := β)) :=
    fun _ _ => rfl
  rcases h with rfl | rfl
  · refine Leads.after _ fun source => ?_
    refine Leads.after _ fun _ => ?_
    refine Leads.after _ fun _ => ?_
    refine Leads.after _ fun _ => ?_
    exact hhold.bind fun _ => Keeps.pure _
  · refine Leads.after _ fun source => ?_
    have hblwp : Leads (fun _ => True) (Machine.Has (·.suppress = true))
        (singleAt (β := β) .blwp source.1) := by
      refine Leads.after _ fun _ => ?_
      exact hhold.bind fun _ => Keeps.pure _
    exact hblwp.bind fun _ => Keeps.pure _

namespace Machine

theorem suppress_checked : machine.checked.cpu.suppress = false :=
  Exec.serviceUnlessSuppressed_leads (fun _ => True) _ trivial

theorem suppress_worked_of_holds {instruction : Instruction}
    (hexecutes : machine.executes = some instruction) (hholds : instruction.HoldsInterrupts) :
    machine.worked.cpu.suppress = true := by
  have hawake := awake_of_executes hexecutes
  rw [executes_of_awake hawake] at hexecutes
  rw [worked_of_awake hawake]
  have hconclude : Leads (fun _ => True) (Machine.Has (·.suppress = true))
      (Exec.conclude (β := β) machine.found.1) := by
    refine Leads.after _ fun cpu => ?_
    rw [hexecutes]
    rcases hholds with rfl | rfl
    · exact (Exec.perform_leads_held (.inl rfl) _).bind fun _ => Keeps.pure _
    · exact (Exec.perform_leads_held (.inr rfl) _).bind fun _ => Keeps.pure _
  exact hconclude machine.found.2 trivial

theorem suppress_worked_of_not_holds
    (h : ∀ instruction ∈ machine.executes, ¬instruction.HoldsInterrupts) :
    machine.worked.cpu.suppress = false := by
  have hstable := Cpu.released_hostStable.toStable
  exact hstable.toFlagStable.machine.worked
    (fun instruction hexecutes hholds => absurd hholds (h instruction hexecutes))
    (fun _ _ hstate => hstate) (fun _ _ _ => hstable.simulation) suppress_checked

/-- After an iteration interrupts are held off if it has executed BLWP or XOP, and only then. -/
theorem suppress_iterate_iff (limit : Nat) :
    (Exec.iterate limit machine).2.cpu.suppress = true ↔
      ∃ instruction ∈ machine.executes, instruction.HoldsInterrupts := by
  rw [iterate_snd]
  constructor
  · intro hsuppress
    refine Classical.byContradiction fun hnone => ?_
    -- The check has released the interrupts, and nothing since then has held them off.
    have hreleased := suppress_worked_of_not_holds fun instruction hexecutes hholds =>
      hnone ⟨instruction, hexecutes, hholds⟩
    have hkept := corresponds_self_iff.mp (Cpu.released_clockStable.simulation.account
      (Exec.iterate limit machine).1) machine.worked hreleased
    exact absurd (hsuppress.symm.trans hkept) nofun
  · rintro ⟨instruction, hexecutes, hholds⟩
    have hheld := suppress_worked_of_holds hexecutes hholds
    exact corresponds_self_iff.mp (Cpu.held_clockStable.simulation.account _) machine.worked hheld

end Machine

end TmsCores.Tms9900
