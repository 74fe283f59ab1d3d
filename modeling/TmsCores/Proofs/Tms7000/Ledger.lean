import TmsCores.Proofs.Ledger
import TmsCores.Proofs.Tms7000.History

namespace TmsCores.Tms7000

/-- The peripheral file after a store of the program. -/
def PeripheralFile.stored (file : PeripheralFile) : Location → UInt8 → PeripheralFile
  | .interruptControl, value => file.writeControl value
  | .timerData, value => { file with timer.reload := value }
  | .timerControl, value => { file with timer := file.timer.writeControl value }
  | _, _ => file

namespace Cpu

/-- The books of a processor: what has been charged to its count and to its divider. -/
def HasBooks (divider : TickDivider) (cycles : CycleCount) (cpu : Cpu) : Prop :=
  cpu.divider = divider ∧ cpu.cycles = cycles

theorem storeStable_of_books (Q : TickDivider → CycleCount → Prop) :
    StoreStable fun cpu => Q cpu.divider cpu.cycles where
  setRegister h _ _ := h
  setPc h _ := h
  setSp h _ := h
  setFlags _ h := h
  clearSt h := h
  writeInterruptControl h _ := h
  setReload h _ := h
  writeTimerControl h _ := h

theorem serviceStable_of_books (Q : TickDivider → CycleCount → Prop) :
    ServiceStable fun cpu => Q cpu.divider cpu.cycles where
  toRegisterStable := (storeStable_of_books Q).toRegisterStable
  leaveIdle h := h
  acknowledge h _ := h

section Books

variable (divider : TickDivider) (cycles : CycleCount)

theorem hasBooks_storeStable : StoreStable (HasBooks divider cycles) :=
  storeStable_of_books fun divider' cycles' => divider' = divider ∧ cycles' = cycles

theorem hasBooks_serviceStable : ServiceStable (HasBooks divider cycles) :=
  serviceStable_of_books fun divider' cycles' => divider' = divider ∧ cycles' = cycles

theorem hasBooks_tickStable : TickStable (HasBooks divider cycles) where
  clockTimer h := h
  drive {cpu} h line state := by
    unfold Cpu.drive
    dsimp only
    split
    · exact h
    · exact h

end Books

theorem registerStable_of_peripherals (file : PeripheralFile) :
    RegisterStable (·.peripherals = file) where
  setRegister h _ _ := h
  setPc h _ := h
  setSp h _ := h
  setFlags _ h := h
  clearSt h := h

theorem serviceStable_of_peripherals (file : PeripheralFile) :
    ServiceStable (·.peripherals = file) where
  toRegisterStable := registerStable_of_peripherals file
  leaveIdle h := h
  acknowledge h _ := h

end Cpu

variable {β : Type} [Bus β]

theorem Exec.peripherals_writeAt (location : Location) (value : UInt8) (machine : Machine β) :
    (writeAt location value machine).2.cpu.peripherals =
      machine.cpu.peripherals.stored location value := by
  cases location <;> rfl

namespace Machine

/-- The peripheral file once the program has stored what an iteration stores. -/
def storedPeripherals (machine : Machine β) : PeripheralFile :=
  match machine.stores with
  | some (location, value) => machine.cpu.peripherals.stored location value
  | none => machine.cpu.peripherals

theorem peripherals_worked (machine : Machine β) :
    machine.worked.cpu.peripherals = machine.storedPeripherals := by
  have hstable := (Cpu.registerStable_of_peripherals machine.cpu.peripherals).machine (β := β)
  have hchecked : machine.checked.cpu.peripherals = machine.cpu.peripherals :=
    (Cpu.serviceStable_of_peripherals machine.cpu.peripherals).checked rfl
  rw [storedPeripherals]
  cases hstores : machine.stores with
  | none =>
      refine hstable.worked (fun _ _ hstate => hstate) (fun _ _ _ _ _ hstate => hstate) ?_ hchecked
      rw [hstores]
      exact nofun
  | some operands =>
      obtain ⟨location, value⟩ := operands
      have hnext := (Cpu.registerStable_of_peripherals
        (machine.cpu.peripherals.stored location value)).machine (β := β)
      refine hstable.worked_of_stores hnext hstores (fun state hstate => ?_) hchecked
      have hkept : state.cpu.peripherals = machine.cpu.peripherals := hstate
      exact (Exec.peripherals_writeAt location value state).trans (by rw [hkept])

theorem hasBooks_worked (machine : Machine β) :
    machine.worked.cpu.HasBooks machine.cpu.divider machine.cpu.cycles := by
  have hstable := Cpu.hasBooks_storeStable machine.cpu.divider machine.cpu.cycles
  have hservice := Cpu.hasBooks_serviceStable machine.cpu.divider machine.cpu.cycles
  refine hstable.toRegisterStable.machine.worked (fun _ _ hstate => hstate)
    (fun _ _ _ _ _ hstate => hstate) ?_ (hservice.checked ⟨rfl, rfl⟩)
  exact fun operands _ => hstable.writeAt_keeps operands.1 operands.2

/-- An iteration charges its cycles once to the count and once to the divider. -/
theorem hasBooks_iterate (machine : Machine β) (limit : Nat) :
    (Exec.iterate limit machine).2.cpu.HasBooks
      (machine.cpu.divider.advance (Exec.iterate limit machine).1).2
      (machine.cpu.cycles.advance (Exec.iterate limit machine).1) := by
  obtain ⟨hdivider, hcycles⟩ := machine.hasBooks_worked
  have hcharged : (Exec.charge (Exec.iterate limit machine).1 machine.worked).2.cpu.HasBooks
      (machine.cpu.divider.advance (Exec.iterate limit machine).1).2
      (machine.cpu.cycles.advance (Exec.iterate limit machine).1) := by
    rw [← hdivider, ← hcycles]
    exact ⟨rfl, rfl⟩
  rw [iterate_snd]
  exact (Cpu.hasBooks_tickStable _ _).ticks_keeps _ _ hcharged

variable {machine : Machine (RecordedBus β)}

theorem hasBooks_intervene {turn : Turn Register β} (hturn : turn.IsIntervention) :
    (take turn machine).2.cpu.HasBooks machine.cpu.divider machine.cpu.cycles := by
  have hstable := Cpu.hasBooks_storeStable machine.cpu.divider machine.cpu.cycles
  exact hstable.toRegisterStable.intervene (Cpu.hasBooks_tickStable _ _).drive hturn
    (fun _ _ _ hcpu => hcpu) ⟨rfl, rfl⟩

theorem tickCount_iterate (machine : Machine (RecordedBus β)) (limit : Nat) :
    (Exec.iterate limit machine).2.bus.tickCount =
      machine.bus.tickCount + machine.tickTotal limit :=
  (machine.heard_iterate limit).tickCount_eq

theorem tickCount_intervene {turn : Turn Register β} (hturn : turn.IsIntervention) :
    (take turn machine).2.bus.tickCount = machine.bus.tickCount := by
  rw [RecordedBus.tickCount, RecordedBus.events, record_intervene hturn]
  rfl

/-- The accounts of a machine are those of its turns. -/
theorem ledger (config : Config) :
    History.Ledger (take (β := β)) (·.cpu.cycles) (·.cpu.divider) (·.bus.tickCount)
      (·.cpu.IsConsistent config) where
  keeps turn machine hmachine := isConsistent_after hmachine [turn]
  cycles_eq turn machine hmachine := by
    rcases turn.eq_iterate_or_isIntervention with ⟨limit, rfl⟩ | hturn
    · exact (machine.hasBooks_iterate limit).2
    · rw [take_fst_of_isIntervention hturn, CycleCount.advance_zero]
      exact (hasBooks_intervene hturn).2
  divider_eq turn machine hmachine := by
    rcases turn.eq_iterate_or_isIntervention with ⟨limit, rfl⟩ | hturn
    · exact (machine.hasBooks_iterate limit).1
    · rw [take_fst_of_isIntervention hturn, hmachine.inPhase.advance_zero]
      exact (hasBooks_intervene hturn).1
  ticks_eq turn machine hmachine := by
    rcases turn.eq_iterate_or_isIntervention with ⟨limit, rfl⟩ | hturn
    · rw [← machine.hasBooks_worked.1]
      exact machine.tickCount_iterate limit
    · rw [take_fst_of_isIntervention hturn, hmachine.inPhase.advance_zero]
      exact tickCount_intervene hturn

theorem IsFresh.isConsistent {config : Config} {machine : Machine β} (h : machine.IsFresh config) :
    machine.cpu.IsConsistent config := by
  rcases h with hnew | ⟨before, hbefore, rfl⟩
  · rw [hnew]
    exact Cpu.ofConfig_isConsistent config
  · have hreset : before.perform .reset = some (.done, (Exec.reset before).2) := rfl
    exact (hbefore.perform (by nofun) hreset).isConsistent

theorem IsFresh.accumulated_eq {config : Config} {machine : Machine β}
    (h : machine.IsFresh config) : machine.cpu.divider.accumulated = 0 := by
  rcases h with hnew | ⟨before, _, rfl⟩
  · rw [hnew]
    rfl
  · exact (Cpu.serviceStable_of_books fun divider _ => divider.accumulated = 0).reset rfl

end Machine

end TmsCores.Tms7000
