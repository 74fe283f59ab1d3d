import TmsCores.Proofs.Ledger
import TmsCores.Proofs.Tms9900.History

namespace TmsCores.Tms9900

namespace Cpu

/-- The books of a processor: what has been charged to its count and to its divider. -/
def HasBooks (divider : TickDivider) (cycles : CycleCount) (cpu : Cpu) : Prop :=
  cpu.divider = divider ∧ cpu.cycles = cycles

theorem serviceStable_of_books (Q : TickDivider → CycleCount → Prop) :
    ServiceStable fun cpu => Q cpu.divider cpu.cycles where
  toStable := stable_of_bookkeeping fun _ _ divider cycles => Q divider cycles
  release h := h
  leaveIdle h := h
  serviceStatus _ _ h := h
  acknowledge h _ := h

variable (divider : TickDivider) (cycles : CycleCount)

theorem hasBooks_serviceStable : ServiceStable (HasBooks divider cycles) :=
  serviceStable_of_books fun divider' cycles' => divider' = divider ∧ cycles' = cycles

theorem hasBooks_of_core {cpu changed : Cpu} (hcore : changed.core = cpu.core)
    (h : cpu.HasBooks divider cycles) : changed.HasBooks divider cycles :=
  ⟨(eq_of_core (·.divider) (fun _ => rfl) hcore).trans h.1,
    (eq_of_core (·.cycles) (fun _ => rfl) hcore).trans h.2⟩

theorem hasBooks_tickStable : TickStable (HasBooks divider cycles) where
  tick {cpu} := hasBooks_of_core divider cycles cpu.core_tick
  drive {cpu} h line state := hasBooks_of_core divider cycles (cpu.core_drive line state) h

end Cpu

variable {β : Type} [Bus β]

namespace Machine

theorem hasBooks_worked (machine : Machine β) :
    machine.worked.cpu.HasBooks machine.cpu.divider machine.cpu.cycles := by
  have hstable := Cpu.hasBooks_serviceStable machine.cpu.divider machine.cpu.cycles
  refine hstable.toFlagStable.machine.worked ?_ ?_ (fun _ _ _ => hstable.toStable.simulation)
    (hstable.checked ⟨rfl, rfl⟩)
  · exact fun _ _ _ => Exec.modifyCpu_keeps fun hcpu => hcpu
  · exact fun _ _ hstate => hstate

/-- An iteration charges its cycles once to the count and once to the divider. -/
theorem hasBooks_iterate (machine : Machine β) (limit : Nat) :
    (Exec.iterate limit machine).2.cpu.HasBooks
      (machine.cpu.divider.advance (Exec.iterate limit machine).1).2
      (machine.cpu.cycles.advance (Exec.iterate limit machine).1) := by
  obtain ⟨hdivider, hcycles⟩ := machine.hasBooks_worked
  have hcharged : (Exec.charge (Exec.iterate limit machine).1 machine.worked).2.cpu.HasBooks
      (machine.cpu.divider.advance (Exec.iterate limit machine).1).2
      (machine.cpu.cycles.advance (Exec.iterate limit machine).1) := by
    rw [← hdivider, ← hcycles]
    exact ⟨rfl, rfl⟩
  rw [iterate_snd]
  exact (Cpu.hasBooks_tickStable _ _).ticks_keeps _ _ hcharged

variable {machine : Machine (RecordedBus β)}

theorem hasBooks_intervene {turn : Turn Register β} (hturn : turn.IsIntervention) :
    (take turn machine).2.cpu.HasBooks machine.cpu.divider machine.cpu.cycles := by
  have hstable := (Cpu.hasBooks_serviceStable machine.cpu.divider machine.cpu.cycles).toStable
  refine hstable.toFlagStable.machine.intervene
    (fun hstate => (Cpu.hasBooks_tickStable _ _).drive hstate) (fun hstate _ => hstate) hturn
    (fun value _ => ?_) ⟨rfl, rfl⟩
  exact Exec.modifyCpu_keeps fun hcpu => hstable.setSt hcpu value

theorem tickCount_iterate (machine : Machine (RecordedBus β)) (limit : Nat) :
    (Exec.iterate limit machine).2.bus.tickCount =
      machine.bus.tickCount +
        (machine.cpu.divider.advance (Exec.iterate limit machine).1).1 := by
  rw [(machine.heard_iterate limit).tickCount_eq, machine.hasBooks_worked.1]

theorem tickCount_intervene {turn : Turn Register β} (hturn : turn.IsIntervention) :
    (take turn machine).2.bus.tickCount = machine.bus.tickCount := by
  have hstable := Signalled.flagStable (β := β) machine.bus.signals
  have hkept : (take turn machine).2.Signalled machine.bus.signals := by
    refine hstable.intervene (fun hstate _ _ => hstate) (fun hstate _ => hstate) hturn ?_ rfl
    exact fun value _ => Signalled.modifyCpu_keeps _ _
  rw [RecordedBus.tickCount_eq, RecordedBus.tickCount_eq, hkept]

/-- The accounts of a machine are those of its turns. -/
theorem ledger (config : Config) :
    History.Ledger (take (β := β)) (·.cpu.cycles) (·.cpu.divider) (·.bus.tickCount)
      (·.cpu.IsConsistent config) where
  keeps turn machine hmachine := isConsistent_after hmachine [turn]
  cycles_eq turn machine hmachine := by
    rcases turn.eq_iterate_or_isIntervention with ⟨limit, rfl⟩ | hturn
    · exact (machine.hasBooks_iterate limit).2
    · rw [take_fst_of_isIntervention hturn, CycleCount.advance_zero]
      exact (hasBooks_intervene hturn).2
  divider_eq turn machine hmachine := by
    rcases turn.eq_iterate_or_isIntervention with ⟨limit, rfl⟩ | hturn
    · exact (machine.hasBooks_iterate limit).1
    · rw [take_fst_of_isIntervention hturn, hmachine.inPhase.advance_zero]
      exact (hasBooks_intervene hturn).1
  ticks_eq turn machine hmachine := by
    rcases turn.eq_iterate_or_isIntervention with ⟨limit, rfl⟩ | hturn
    · exact machine.tickCount_iterate limit
    · rw [take_fst_of_isIntervention hturn, hmachine.inPhase.advance_zero]
      exact tickCount_intervene hturn

theorem IsFresh.isConsistent {config : Config} {machine : Machine β} (h : machine.IsFresh config) :
    machine.cpu.IsConsistent config := by
  rcases h with hnew | ⟨before, hbefore, rfl⟩
  · rw [hnew]
    exact Cpu.ofConfig_isConsistent config
  · have hreset : before.perform .reset = some (.done, (Exec.reset before).2) := rfl
    exact (hbefore.perform (by nofun) hreset).isConsistent

theorem IsFresh.accumulated_eq {config : Config} {machine : Machine β}
    (h : machine.IsFresh config) : machine.cpu.divider.accumulated = 0 := by
  rcases h with hnew | ⟨before, _, rfl⟩
  · rw [hnew]
    rfl
  · have hstable := Cpu.serviceStable_of_books fun divider _ => divider.accumulated = 0
    exact hstable.reset (fun hcpu _ => hcpu) rfl

end Machine

end TmsCores.Tms9900
