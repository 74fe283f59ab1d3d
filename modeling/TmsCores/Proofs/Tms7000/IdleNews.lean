import TmsCores.Proofs.Bus.IdleNews
import TmsCores.Proofs.Tms7000.InterruptDiscipline

namespace TmsCores.Tms7000

variable {β : Type} [Bus β]

namespace Cpu

theorem storeStable_of_idle (idle : Bool) : StoreStable (·.idle = idle) where
  setRegister h _ _ := h
  setPc h _ := h
  setSp h _ := h
  setFlags _ h := h
  clearSt h := h
  writeInterruptControl h _ := h
  setReload h _ := h
  writeTimerControl h _ := h

end Cpu

namespace Machine

/-- The news on the bus agrees with the processor. -/
def IsInformed (machine : Machine (RecordedBus β)) : Prop :=
  machine.bus.IsInformed machine.cpu.idle

/-- Between two moments the bus has heard nothing but ticks, and the program is where it was, with
the same registers. -/
def Passive (before after : Machine (RecordedBus β)) : Prop :=
  (∃ calls, before.bus.Called after.bus calls ∧ ∀ call ∈ calls, call.isTick = true) ∧
    after.cpu.pc = before.cpu.pc ∧ after.cpu.sp = before.cpu.sp ∧
    after.cpu.st = before.cpu.st ∧ after.cpu.file = before.cpu.file

open Exec

theorem isInformed_registerStable : RegisterStable (IsInformed (β := β)) where
  access h haccess _ := h.access haccess
  evolve {machine cpu} h hevolves := by
    have hstable := Cpu.storeStable_of_idle machine.cpu.idle
    have hidle := hevolves (·.idle = machine.cpu.idle) hstable.toRegisterStable rfl
    change machine.bus.IsInformed cpu.idle
    rw [hidle]
    exact h
  expect h _ := h

theorem setIdle_informs (idle : Bool) :
    Leads (fun machine : Machine (RecordedBus β) =>
      machine.IsInformed ∧ machine.cpu.idle = !idle) IsInformed (setIdle idle) :=
  fun _ ⟨h, hidle⟩ => RecordedBus.IsInformed.idleChanged (hidle ▸ h)

theorem wake_informs : Keeps (IsInformed (β := β)) wake := by
  refine inspect_keeps fun machine h => ?_
  split
  · next hidle => exact setIdle_informs false machine ⟨h, hidle⟩
  · exact h

theorem writeAt_informs (location : Location) (value : UInt8) :
    Keeps (IsInformed (β := β)) (writeAt location value) := by
  cases location with
  | register | interruptControl | timerData | timerControl => exact fun _ h => h
  | port | memory => exact fun _ h => RecordedBus.IsInformed.cons h _ rfl

theorem acknowledge_informs (line : UInt8) : Keeps (IsInformed (β := β)) (acknowledge line) :=
  fun _ h => RecordedBus.IsInformed.acknowledge h line

variable {machine : Machine (RecordedBus β)}

theorem isInformed_checked (h : machine.IsInformed) : machine.checked.IsInformed := by
  cases hpending : machine.cpu.pending with
  | none =>
      rw [checked_of_none hpending]
      exact h
  | some pending =>
      have hvector : Keeps (IsInformed (β := β)) (interruptVector pending.line) := fun _ h => h
      have henter := enterHandler_keeps isInformed_registerStable hvector
        (clearLeftovers machine).2 h
      rw [checked_of_some hpending]
      exact wake_informs _ (acknowledge_informs pending.line _ henter)

theorem isInformed_worked (h : machine.IsInformed) : machine.worked.IsInformed := by
  have hchecked := isInformed_checked h
  by_cases hidle : machine.executes = some .idle
  · have hawake : machine.fetched.2.cpu.idle = false :=
      (Cpu.storeStable_of_idle false).toRegisterStable.machine.fetched (awake_of_executes hidle)
    rw [worked_of_executes hidle]
    exact setIdle_informs true machine.fetched.2
      ⟨isInformed_registerStable.fetched hchecked, hawake⟩
  · exact isInformed_registerStable.worked (fun hexecutes => absurd hexecutes hidle)
      (fun _ _ _ _ _ hstate => hstate) (fun _ _ => writeAt_informs _ _) hchecked

theorem isInformed_account (cycles : Nat) : Keeps (IsInformed (β := β)) (account cycles) := by
  intro machine h
  have hclock := (Cpu.clockStable_of_registers fun idle _ _ _ _ =>
    idle = machine.cpu.idle).simulation_and
      (B := RecordedBus.IsInformed (β := β) machine.cpu.idle) (fun hbus => hbus.tick)
  obtain ⟨hidle, hbus⟩ := corresponds_self_iff.mp (hclock.account cycles) machine ⟨rfl, h⟩
  rw [IsInformed, hidle]
  exact hbus

theorem idle_intervene {turn : Turn Register β} (hturn : turn.IsIntervention) :
    (take turn machine).2.cpu.idle = machine.cpu.idle := by
  have hstable := (Cpu.storeStable_of_idle machine.cpu.idle).toRegisterStable
  have hclock := Cpu.clockStable_of_registers fun idle _ _ _ _ => idle = machine.cpu.idle
  exact hstable.intervene hclock.drive hturn (fun _ _ _ hcpu => hcpu) rfl

theorem isInformed_pass (h : machine.IsInformed) (stage : Stage Register β) :
    (pass stage machine).2.IsInformed := by
  cases stage with
  | turn turn =>
      rcases turn.eq_iterate_or_isIntervention with ⟨limit, rfl⟩ | hturn
      · change (iterate limit machine).2.IsInformed
        rw [iterate_snd]
        exact isInformed_account _ _ (isInformed_worked h)
      · change (take turn machine).2.IsInformed
        rw [IsInformed, idle_intervene hturn]
        exact RecordedBus.IsInformed.congr h (record_intervene hturn)
  | reset => exact isInformed_registerStable.reset wake_informs h

theorem isInformed_through (h : machine.IsInformed) (stages : List (Stage Register β)) :
    (machine.through stages).IsInformed :=
  History.play_keeps (I := IsInformed) (fun stage _ hstate => isInformed_pass hstate stage) h stages

/-- A processor that stays idle lets time pass, and that is all. -/
theorem passive_iterate (hidle : machine.cpu.idle = true) (h : machine.acknowledged = [])
    (limit : Nat) :
    machine.Passive (iterate limit machine).2 ∧ (iterate limit machine).2.cpu.idle = true := by
  rw [acknowledged, List.map_eq_nil_iff, Option.toList_eq_nil_iff] at h
  have hchecked := checked_of_none h
  have hworked : machine.worked = (clearLeftovers machine).2 := by
    rw [worked_of_idle (hchecked ▸ hidle), hchecked]
  have hnext : (iterate limit machine).2 =
      (account (iterate limit machine).1 (clearLeftovers machine).2).2 := by
    rw [iterate_snd, hworked]
  obtain ⟨driven, _, hcalled⟩ := machine.called_account limit
  rw [hworked] at hcalled
  have haccount := (Cpu.clockStable_of_registers fun idle pc sp st file =>
    idle = true ∧ pc = machine.cpu.pc ∧ sp = machine.cpu.sp ∧ st = machine.cpu.st ∧
      file = machine.cpu.file).simulation (β := RecordedBus β)
  have hregisters := corresponds_self_iff.mp (haccount.account (iterate limit machine).1)
    (clearLeftovers machine).2 ⟨hidle, rfl, rfl, rfl, rfl⟩
  rw [← hnext] at hregisters
  obtain ⟨hstays, hsame⟩ := hregisters
  exact ⟨⟨⟨_, hcalled, by simp [BusEvent.isTick]⟩, hsame⟩, hstays⟩

/-- Only an interrupt or a reset ends the idle state. -/
theorem wakes_pass (hidle : machine.cpu.idle = true) {stage : Stage Register β}
    (hawake : (pass stage machine).2.cpu.idle = false) :
    stage = .reset ∨
      ∃ limit line, stage = .turn (.iterate limit) ∧ machine.Acknowledges limit [line] := by
  cases stage with
  | reset => exact .inl rfl
  | turn turn =>
      right
      rcases turn.eq_iterate_or_isIntervention with ⟨limit, rfl⟩ | hturn
      · rcases machine.acknowledged_eq_nil_or_singleton with hnone | ⟨line, hline⟩
        · have hstays := (passive_iterate hidle hnone limit).2
          exact absurd (hstays.symm.trans hawake) nofun
        · exact ⟨limit, line, rfl, acknowledges_iff.mpr hline⟩
      · have hstays : (take turn machine).2.cpu.idle = true :=
          (idle_intervene hturn).trans hidle
        exact absurd (hstays.symm.trans hawake) nofun

end Machine

end TmsCores.Tms7000
