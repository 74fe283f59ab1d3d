import TmsCores.Proofs.Interrupt.Latch
import TmsCores.Proofs.Tms9900.InterruptDiscipline

namespace TmsCores.Tms9900

namespace Cpu

/-- An illegal opcode has been noted, and the interrupt requested. -/
def Trapped (cpu : Cpu) : Prop :=
  cpu.chip.mid = true ∧ cpu.interrupts.isLatched internalLine = true

variable {cpu : Cpu}

theorem Trapped.clockDecrementer (h : cpu.Trapped) : cpu.clockDecrementer.Trapped := by
  unfold Cpu.clockDecrementer
  dsimp only
  split
  · exact ⟨h.1, InterruptController.isLatched_setLatch h.2 decrementerLine⟩
  · exact h

theorem trapped_clockStable : ClockStable Trapped where
  tick {cpu} h := by
    unfold Cpu.tick
    split
    · exact h.clockDecrementer
    · exact h
  drive {cpu} h line state := by
    have hdriven := InterruptController.isLatched_drive h.2 line state
    unfold Cpu.drive
    split
    · dsimp only
      split
      · split
        · exact Trapped.clockDecrementer h
        · exact h
      · exact ⟨h.1, hdriven⟩
    · exact ⟨h.1, hdriven⟩
  advance h _ := h

theorem IsConsistent.trapped_illegalTrap {config : Config} (h : cpu.IsConsistent config)
    (hlevels : 2 < config.levels) : cpu.illegalTrap.Trapped := by
  have hline : internalLine.toNat ≤ config.levels.toNat :=
    Nat.le_of_lt (UInt8.lt_iff_toNat_lt.mp hlevels)
  obtain ⟨line, hline⟩ := h.exists_line? hline
  exact ⟨rfl, InterruptController.isLatched_setLatch_self hline⟩

end Cpu

variable {β : Type} [Bus β] {config : Config}

namespace Machine

/-- An iteration executes an opcode that stands for no instruction: the one it fetches, or the one
that a chain of X leads to. -/
def MeetsIllegal (machine : Machine β) : Prop :=
  machine.checked.cpu.idle = false ∧ machine.found.1.instruction = none

variable {machine : Machine β}

theorem MeetsIllegal.executes_eq (h : machine.MeetsIllegal) : machine.executes = none := by
  rw [executes_of_awake h.1, h.2]

theorem MeetsIllegal.worked_eq (h : machine.MeetsIllegal) :
    machine.worked = (Exec.illegal machine.found.2).2 := by
  rw [worked_of_awake h.1, Exec.conclude, Exec.cpu_bind, h.2]

theorem MeetsIllegal.trapped_worked (h : machine.MeetsIllegal)
    (hconsistent : machine.cpu.IsConsistent config) (htrap : config.illegal = .trap)
    (hlevels : 2 < config.levels) : machine.worked.cpu.Trapped := by
  have hstable := Cpu.isConsistent_hostStable config
  have hfound : machine.found.2.cpu.IsConsistent config :=
    hstable.toFlagStable.machine.found (hstable.toServiceStable.checked hconsistent)
  rw [h.worked_eq, Exec.illegal, Exec.cpu_bind, hfound.config_eq, htrap]
  exact hfound.trapped_illegalTrap hlevels

theorem MeetsIllegal.trapped_iterate (h : machine.MeetsIllegal)
    (hconsistent : machine.cpu.IsConsistent config) (htrap : config.illegal = .trap)
    (hlevels : 2 < config.levels) (limit : Nat) :
    (Exec.iterate limit machine).2.cpu.Trapped := by
  have haccount := Cpu.trapped_clockStable.simulation (β := β) |>.account
  rw [iterate_snd]
  exact corresponds_self_iff.mp (haccount _) machine.worked
    (h.trapped_worked hconsistent htrap hlevels)

theorem MeetsIllegal.suppress_iterate (h : machine.MeetsIllegal) (limit : Nat) :
    (Exec.iterate limit machine).2.cpu.suppress = false := by
  rw [Bool.eq_false_iff]
  intro hsuppress
  obtain ⟨instruction, hexecutes, _⟩ := (suppress_iterate_iff limit).mp hsuppress
  rw [h.executes_eq] at hexecutes
  exact absurd hexecutes nofun

end Machine

theorem Config.request_precedes_request {number : UInt8} (hnumber : number ≠ config.loadLine)
    {other : UInt8} (hlevel : number ≤ config.level other) :
    (config.request number).Precedes (config.request other) := by
  have hown : config.level number = number := if_neg hnumber
  simp only [request, PendingLine.Precedes, hown]
  rcases UInt8.lt_or_eq_of_le hlevel with hless | heq
  · exact .inl hless
  · refine .inr ⟨heq, ?_⟩
    rw [level] at heq
    split at heq
    · rw [heq]
      exact UInt8.zero_le
    · rw [heq]
      exact UInt8.le_refl _

/-- The internal interrupt is due once it is latched, unless the mask or a line of a lower level
stands before it. -/
theorem Cpu.IsConsistent.pending_of_latched {cpu : Cpu} (h : cpu.IsConsistent config)
    (hlatch : config.latch = .edgeLatched) (hlevels : 2 < config.levels)
    (hlatched : cpu.interrupts.isLatched internalLine = true) (hmask : 2 ≤ cpu.mask)
    (hfirst : ∀ other, cpu.Eligible other → 2 ≤ config.level other) :
    cpu.pending = some ⟨2, 2⟩ := by
  have hload : 2 ≠ config.loadLine := (UInt8.lt_iff_le_and_ne.mp hlevels).2
  have hlevel : config.level 2 = 2 := if_neg hload
  have hrequest : config.request 2 = ⟨2, 2⟩ := congrArg (PendingLine.mk 2) hlevel
  have hnumber : (2 : UInt8).toNat ≤ config.levels.toNat :=
    Nat.le_of_lt (UInt8.lt_iff_toNat_lt.mp hlevels)
  obtain ⟨line, hline⟩ := h.exists_line? hnumber
  have heligible : cpu.Eligible 2 := by
    refine ⟨line, hline, (h.isActive_iff hlatch hline).mpr (.inl hlatched), .inr ?_⟩
    rw [h.config_eq, hlevel]
    exact hmask
  rw [← hrequest, h.pending_eq_some_iff]
  refine ⟨⟨heligible, fun other hother => ?_⟩, rfl⟩
  rw [h.config_eq]
  exact Config.request_precedes_request hload (hfirst other hother)

/-- A trap for illegal opcodes is noted, and on a chip that latches edges it is taken as soon as the
mask lets it through and no line of a lower level asks. -/
theorem illegal_opcode_traps (htrap : config.illegal = .trap) (hlevels : 2 < config.levels)
    {machine : Machine (RecordedBus β)} (hmachine : machine.Reachable config)
    (hmeets : machine.MeetsIllegal) (limit : Nat) :
    let next := (Exec.iterate limit machine).2
    next.cpu.chip.mid = true ∧
      (config.latch = .edgeLatched → 2 ≤ next.cpu.mask →
        (∀ other, next.cpu.Eligible other → 2 ≤ config.level other) →
        (∀ limit', next.Acknowledges limit' [2]) ∧
        next.checked = ((do
          Exec.contextSwitch 8
          Exec.modifySt (Status.withMask · 1)
          Exec.acknowledge 2
          Exec.wake : Exec (RecordedBus β) Unit) next.released).2) := by
  intro next
  have hconsistent := hmachine.isConsistent
  have hnext : next.cpu.IsConsistent config :=
    Machine.isConsistent_after hconsistent [.iterate limit]
  obtain ⟨hmid, hlatched⟩ := hmeets.trapped_iterate hconsistent htrap hlevels limit
  refine ⟨hmid, fun hlatch hmask hfirst => ?_⟩
  have hload : 2 ≠ config.loadLine := (UInt8.lt_iff_le_and_ne.mp hlevels).2
  have hsuppress : next.cpu.suppress = false := hmeets.suppress_iterate limit
  have hpending := hnext.pending_of_latched hlatch hlevels hlatched hmask hfirst
  constructor
  · intro limit'
    rw [Machine.acknowledges_iff, Machine.acknowledged_eq_singleton_iff]
    exact ⟨hsuppress, _, hpending, rfl⟩
  · have hreleased : next.released.cpu.pending = some ⟨2, 2⟩ := hpending
    have hvector : Exec.interruptVector config ⟨2, 2⟩ = 8 := if_neg hload
    have hstatus : Exec.serviceStatus config ⟨2, 2⟩ = (Status.withMask · 1) :=
      funext fun _ => if_neg hload
    rw [Machine.checked_eq, hsuppress, if_neg Bool.false_ne_true,
      Exec.serviceInterrupt_snd hreleased]
    change (Exec.wake (Exec.acknowledge 2 (Exec.modifySt
      (Exec.serviceStatus next.cpu.config ⟨2, 2⟩) (Exec.contextSwitch
        (Exec.interruptVector next.cpu.config ⟨2, 2⟩) next.released).2).2).2).2 = _
    rw [hnext.config_eq, hvector, hstatus]
    rfl

/-- A reset processor under mask 2, before an X whose operand stands for no instruction. -/
def Machine.beforeExecutedIllegal (config : Config) : Machine (RecordedBus FlatBus) :=
  let memory := (Memory.zero.pokeWord 0x0002 0x0100).pokeWord 0x0100 0x0480
  let new : Machine (RecordedBus FlatBus) := ⟨.ofConfig config, { memory := memory }, []⟩
  new.through [.reset, .turn (.write .st 2)]

theorem Machine.beforeExecutedIllegal_reachable :
    (beforeExecutedIllegal config).Reachable config := by
  let memory := (Memory.zero.pokeWord 0x0002 0x0100).pokeWord 0x0100 0x0480
  let new : Machine (RecordedBus FlatBus) := ⟨.ofConfig config, { memory := memory }, []⟩
  have hnew : new.Reachable config := .create
  have hreset : new.perform .reset = some (.done, (Exec.reset new).2) := rfl
  have hfresh : (Exec.reset new).2.Reachable config := hnew.perform (by nofun) hreset
  have hwrite : (Exec.reset new).2.perform (.write .st 2) =
      some (.written (.ok ()), beforeExecutedIllegal config) := rfl
  exact hfresh.perform (by nofun) hwrite

/-- The interrupt follows an illegal opcode that X comes to. -/
theorem illegal_opcode_traps_through_x :
    let config := Variant.tms9995.config
    let machine := Machine.beforeExecutedIllegal config
    let next := (Exec.iterate 100 machine).2
    config.illegal = .trap ∧ 2 < config.levels ∧ machine.MeetsIllegal ∧
      next.cpu.chip.mid = true ∧ next.Acknowledges 100 [2] := by
  intro config machine next
  have htrap : config.illegal = .trap := rfl
  have hlevels : 2 < config.levels := by decide
  have hmeets : machine.MeetsIllegal := ⟨by decide +kernel, by decide +kernel⟩
  obtain ⟨hmid, hserviced⟩ := illegal_opcode_traps htrap hlevels
    Machine.beforeExecutedIllegal_reachable hmeets 100
  refine ⟨htrap, hlevels, hmeets, hmid, ?_⟩
  have hmask : 2 ≤ next.cpu.mask := by decide +kernel
  have hfirst : ∀ other, next.cpu.Eligible other → 2 ≤ config.level other := by
    intro other hother
    have hreachable : machine.Reachable config := Machine.beforeExecutedIllegal_reachable
    have hnext : next.cpu.IsConsistent config :=
      Machine.isConsistent_after hreachable.isConsistent [.iterate 100]
    have hmem : config.request other ∈ next.cpu.interrupts.eligible next.cpu.mask :=
      hnext.mem_eligible_iff.mpr ⟨hother, rfl⟩
    have heligible : next.cpu.interrupts.eligible next.cpu.mask = [⟨2, 2⟩] := by decide +kernel
    rw [heligible, List.mem_singleton] at hmem
    have hlevel : config.level other = 2 := congrArg PendingLine.level hmem
    exact hlevel ▸ UInt8.le_refl 2
  exact (hserviced rfl hmask hfirst).1 100

/-- On a chip that samples its lines the interrupt is noted, but never taken: nothing but the levels
of the lines counts there. -/
theorem illegal_opcode_not_serviced :
    let config := { Variant.tms9900.config with illegal := .trap }
    let machine := Machine.beforeExecutedIllegal config
    let next := (Exec.iterate 100 machine).2
    machine.Reachable config ∧ machine.MeetsIllegal ∧ next.cpu.chip.mid = true ∧
      next.cpu.mask = 2 ∧ next.cpu.interrupts.isLatched internalLine = true ∧
      (∀ other, ¬next.cpu.Eligible other) ∧ next.Acknowledges 100 [] := by
  intro config machine next
  have hreachable : machine.Reachable config := Machine.beforeExecutedIllegal_reachable
  have hnext : next.cpu.IsConsistent config :=
    Machine.isConsistent_after hreachable.isConsistent [.iterate 100]
  have hnone : next.cpu.pending = none := by decide +kernel
  have hmeets : machine.MeetsIllegal := ⟨by decide +kernel, by decide +kernel⟩
  refine ⟨hreachable, hmeets, by decide +kernel, by decide +kernel, by decide +kernel,
    hnext.pending_eq_none_iff.mp hnone, ?_⟩
  exact Machine.acknowledges_iff.mpr (by decide +kernel)

end TmsCores.Tms9900
