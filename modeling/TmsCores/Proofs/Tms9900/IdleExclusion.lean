import TmsCores.Proofs.Tms9900.Core
import TmsCores.Proofs.Tms9900.Stability

namespace TmsCores.Tms9900

namespace Cpu

/-- An idle processor does not hold interrupts off. -/
def Wakeable (cpu : Cpu) : Prop :=
  ¬(cpu.idle = true ∧ cpu.suppress = true)

/-- Between the end of an interrupt check and the end of an instruction. -/
def Ready (cpu : Cpu) : Prop :=
  cpu.idle = false ∧ cpu.suppress = false

theorem stable_of_bookkeeping (Q : Bool → Bool → TickDivider → CycleCount → Prop) :
    Stable fun cpu => Q cpu.idle cpu.suppress cpu.divider cpu.cycles where
  setByte h _ _ := h
  setDecrementer h _ := h
  setInternalBit {cpu changed bit value} h hchanged := by
    have hcore := core_of_setInternalBit? hchanged
    change Q changed.core.idle changed.core.suppress changed.core.divider changed.core.cycles
    rw [hcore]
    exact h
  skip h _ := h
  setPc h _ := h
  setWp h _ := h
  setSt h _ := h
  modifySt _ h := h
  overflowTrap {cpu} h := by
    have hcore := cpu.core_overflowTrap
    change Q cpu.overflowTrap.core.idle cpu.overflowTrap.core.suppress
      cpu.overflowTrap.core.divider cpu.overflowTrap.core.cycles
    rw [hcore]
    exact h
  illegalTrap h := h

theorem stable_of_idle_suppress (Q : Bool → Bool → Prop) :
    Stable fun cpu => Q cpu.idle cpu.suppress :=
  stable_of_bookkeeping fun idle suppress _ _ => Q idle suppress

theorem hostStable_of_idle_suppress {Q : Bool → Bool → Prop}
    (hrelease : ∀ {idle suppress}, Q idle suppress → Q idle false)
    (hleave : ∀ {idle suppress}, Q idle suppress → Q false suppress) :
    HostStable fun cpu => Q cpu.idle cpu.suppress where
  toStable := stable_of_idle_suppress Q
  release h := hrelease h
  leaveIdle h := hleave h
  serviceStatus _ _ h := h
  acknowledge h _ := h
  tick {cpu} h := by
    change Q cpu.tick.core.idle cpu.tick.core.suppress
    rw [cpu.core_tick]
    exact h
  advance h _ := h
  drive {cpu} h line state := by
    change Q (cpu.drive line state).core.idle (cpu.drive line state).core.suppress
    rw [cpu.core_drive]
    exact h
  powerUp h := hrelease h
  endReset h _ := h

theorem wakeable_hostStable : HostStable Wakeable :=
  hostStable_of_idle_suppress (Q := fun idle suppress => ¬(idle = true ∧ suppress = true))
    (fun _ => nofun) (fun _ => nofun)

theorem released_hostStable : HostStable (·.suppress = false) :=
  hostStable_of_idle_suppress (Q := fun _ suppress => suppress = false) (fun _ => rfl) (fun h => h)

end Cpu

namespace Exec

open Cpu

variable {β : Type} [Bus β]

/-- An instruction makes the processor idle, or holds interrupts off, or does neither. -/
theorem perform_leads (opcode : UInt16) (instruction : Instruction) :
    Leads (Machine.Has Ready) (Machine.Has Wakeable) (perform (β := β) opcode instruction) := by
  by_cases hidle : instruction = .idle
  · have hnothold : ¬instruction.HoldsInterrupts := by
      simp [hidle, Instruction.HoldsInterrupts]
    have hkeeps : Keeps (Machine.Has (·.suppress = false)) (perform (β := β) opcode instruction) :=
      corresponds_self_iff.mp
        ((stable_of_idle_suppress fun _ suppress => suppress = false).simulation.perform
          (fun h => absurd h hnothold)
          (fun _ => corresponds_self_iff.mpr fun _ hmachine => hmachine) opcode)
    intro machine hmachine hboth
    exact absurd (hboth.2.symm.trans (hkeeps machine hmachine.2)) nofun
  · have hkeeps : Keeps (Machine.Has (·.idle = false)) (perform (β := β) opcode instruction) :=
      corresponds_self_iff.mp
        ((stable_of_idle_suppress fun idle _ => idle = false).simulation.perform
          (fun _ => corresponds_self_iff.mpr (modifyCpu_keeps fun hcpu => hcpu))
          (fun h => absurd h hidle) opcode)
    intro machine hmachine hboth
    exact absurd (hboth.1.symm.trans (hkeeps machine hmachine.1)) nofun

theorem illegal_leads :
    Leads (Machine.Has Ready) (Machine.Has Wakeable) (illegal (β := β)) := by
  have hsimulation := (stable_of_idle_suppress fun idle _ => idle = false).simulation (β := β)
  intro machine hmachine hboth
  have hawake := corresponds_self_iff.mp hsimulation.illegal machine hmachine.1
  exact absurd (hboth.1.symm.trans hawake) nofun

theorem Ready.wakeable {cpu : Cpu} (h : cpu.Ready) : cpu.Wakeable :=
  fun hboth => absurd (hboth.1.symm.trans h.1) nofun

theorem conclude_leads (last : ChainEnd) :
    Leads (Machine.Has Ready) (Machine.Has Wakeable) (conclude (β := β) last) := by
  refine Leads.bind cpu_keeps fun cpu => ?_
  dsimp only
  split
  · exact illegal_leads
  · exact fun machine hmachine => Ready.wakeable hmachine
  · exact Leads.bind (perform_leads last.opcode _) fun _ => Keeps.pure _

theorem executeOpcode_leads (depth : Nat) (opcode : UInt16) :
    Leads (Machine.Has Ready) (Machine.Has Wakeable)
      (executeOpcode (β := β) depth opcode) := by
  have hsimulation := (stable_of_idle_suppress fun idle suppress =>
    idle = false ∧ suppress = false).simulation (β := β)
  rw [executeOpcode_eq]
  refine Leads.bind (corresponds_self_iff.mp (hsimulation.chase depth opcode)) fun last => ?_
  exact Leads.bind (conclude_leads last) fun _ => Keeps.pure _

theorem execute_leads :
    Leads (Machine.Has Ready) (Machine.Has Wakeable) (execute (β := β)) := by
  have hsimulation := (stable_of_idle_suppress fun idle suppress =>
    idle = false ∧ suppress = false).simulation (β := β)
  exact Leads.bind (corresponds_self_iff.mp hsimulation.fetch) (executeOpcode_leads _)

theorem serviceUnlessSuppressed_leads (P : Machine β → Prop) :
    Leads P (Machine.Has (·.suppress = false)) serviceUnlessSuppressed := by
  intro machine _
  have hservice := corresponds_self_iff.mp
    (released_hostStable.hostSimulation (β := β)).serviceInterrupt
  change (Machine.Has (·.suppress = false) (((if machine.cpu.suppress then pure 0
    else serviceInterrupt) : Exec β Nat)
      { machine with cpu := { machine.cpu with suppress := false } }).2)
  split
  · rfl
  · exact hservice _ rfl

theorem work_leads (service : Nat) :
    Leads (Machine.Has Ready) (Machine.Has Wakeable) (work (β := β) service) := by
  have hsimulation := wakeable_hostStable.hostSimulation (β := β)
  refine execute_leads.bind fun cost => ?_
  exact Keeps.inspect fun machine hmachine =>
    corresponds_self_iff.mp (hsimulation.account _) machine hmachine

theorem iterate_keeps_wakeable (limit : Nat) :
    Keeps (Machine.Has Wakeable) (iterate (β := β) limit) := by
  have hsimulation := wakeable_hostStable.hostSimulation (β := β)
  have hclear : Keeps (Machine.Has Wakeable) (clearLeftovers (β := β)) :=
    fun _ hmachine => hmachine
  refine hclear.seq ?_
  refine (serviceUnlessSuppressed_leads _).bind fun service => ?_
  intro machine hreleased
  change Machine.Has Wakeable
    (((if machine.cpu.idle then rest limit else work service) : Exec β Nat) machine).2
  split
  · refine corresponds_self_iff.mp (hsimulation.rest limit) machine ?_
    exact fun hboth => absurd (hboth.2.symm.trans hreleased) nofun
  · next hidle =>
      exact work_leads service machine ⟨Bool.eq_false_iff.mpr hidle, hreleased⟩

end Exec

end TmsCores.Tms9900
