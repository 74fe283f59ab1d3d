import TmsCores.Proofs.Bus.IdleNews
import TmsCores.Proofs.Tms9900.ContextSwitch
import TmsCores.Proofs.Tms9900.InterruptDiscipline

namespace TmsCores.Tms9900

variable {β : Type} [Bus β]

theorem Cpu.idle_clockStable (idle : Bool) : ClockStable (·.idle = idle) where
  tick {cpu} h := (eq_of_core (·.idle) (fun _ => rfl) cpu.core_tick).trans h
  advance h _ := h
  drive {cpu} h line state :=
    (eq_of_core (·.idle) (fun _ => rfl) (cpu.core_drive line state)).trans h

namespace Machine

/-- The news on the bus agrees with the processor. -/
def IsInformed (machine : Machine (RecordedBus β)) : Prop :=
  machine.bus.IsInformed machine.cpu.idle

/-- Between two moments the bus has heard nothing but ticks, and the program is where it was, with
the same registers. -/
def Passive (before after : Machine (RecordedBus β)) : Prop :=
  (∃ calls, before.bus.Called after.bus calls ∧ ∀ call ∈ calls, call.isTick = true) ∧
    after.cpu.pc = before.cpu.pc ∧ after.cpu.wp = before.cpu.wp ∧
    after.cpu.st = before.cpu.st ∧ after.cpu.chip.ram = before.cpu.chip.ram

open Exec

theorem isInformed_flagStable : FlagStable (IsInformed (β := β)) where
  access h haccess _ := h.access haccess
  expect h _ := h
  remember h _ := h
  evolve {machine cpu} h hevolves := by
    have hstable := Cpu.stable_of_idle_suppress fun idle _ => idle = machine.cpu.idle
    have hidle := hevolves (·.idle = machine.cpu.idle) hstable.toFlagStable rfl
    change machine.bus.IsInformed cpu.idle
    rw [hidle]
    exact h

theorem setIdle_informs (idle : Bool) :
    Leads (fun machine : Machine (RecordedBus β) =>
      machine.IsInformed ∧ machine.cpu.idle = !idle) IsInformed (setIdle idle) :=
  fun _ ⟨h, hidle⟩ => RecordedBus.IsInformed.idleChanged (hidle ▸ h)

theorem wake_informs : Keeps (IsInformed (β := β)) wake := by
  refine inspect_keeps fun machine h => ?_
  split
  · next hidle => exact setIdle_informs false machine ⟨h, hidle⟩
  · exact h

theorem acknowledge_informs (line : UInt8) : Keeps (IsInformed (β := β)) (acknowledge line) :=
  fun _ h => RecordedBus.IsInformed.acknowledge h line

theorem checked_of_acknowledged {machine : Machine β} (h : machine.acknowledged = []) :
    machine.checked = machine.released := by
  rw [checked_eq]
  rw [acknowledged] at h
  split
  · rfl
  · next hsuppress =>
      rw [if_neg hsuppress, List.map_eq_nil_iff, Option.toList_eq_nil_iff] at h
      have hreleased : machine.released.cpu.pending = none := h
      rw [serviceInterrupt_of_none hreleased]

variable {machine : Machine (RecordedBus β)}

theorem isInformed_checked (h : machine.IsInformed) : machine.checked.IsInformed := by
  have hreleased : machine.released.IsInformed := h
  rw [checked_eq]
  split
  · exact hreleased
  · cases hpending : machine.released.cpu.pending with
    | none =>
        rw [serviceInterrupt_of_none hpending]
        exact hreleased
    | some pending =>
        have hswitch := corresponds_self_iff.mp (isInformed_flagStable.simulation.contextSwitch
          (interruptVector machine.released.cpu.config pending)) machine.released hreleased
        rw [serviceInterrupt_snd hpending]
        exact wake_informs _ (acknowledge_informs pending.line _ hswitch)

theorem isInformed_worked (h : machine.IsInformed) : machine.worked.IsInformed := by
  have hchecked := isInformed_checked h
  by_cases hidle : machine.executes = some .idle
  · have hstable := Cpu.stable_of_idle_suppress fun idle _ => idle = false
    have hfound := isInformed_flagStable.found hchecked
    have hawake : machine.found.2.cpu.idle = false :=
      hstable.toFlagStable.machine.found (awake_of_executes hidle)
    rw [worked_of_executes hidle nofun]
    exact setIdle_informs true machine.found.2 ⟨hfound, hawake⟩
  · exact isInformed_flagStable.worked (fun _ _ _ _ hstate => hstate)
      (fun hexecutes => absurd hexecutes hidle)
      (fun _ _ _ => {
        toFlagSimulation := isInformed_flagStable.simulation
        setSt := fun _ => corresponds_self_iff.mpr fun _ hstate => hstate
        modifySt := fun _ => corresponds_self_iff.mpr fun _ hstate => hstate }) hchecked

theorem isInformed_account (cycles : Nat) : Keeps (IsInformed (β := β)) (account cycles) := by
  intro machine h
  have hclock := (Cpu.idle_clockStable machine.cpu.idle).simulation_and
    (B := RecordedBus.IsInformed (β := β) machine.cpu.idle) (fun hbus => hbus.tick)
  obtain ⟨hidle, hbus⟩ := corresponds_self_iff.mp (hclock.account cycles) machine ⟨rfl, h⟩
  rw [IsInformed, hidle]
  exact hbus

theorem isInformed_pass (h : machine.IsInformed) (stage : Stage Register β) :
    (pass stage machine).2.IsInformed := by
  cases stage with
  | turn turn =>
      rcases turn.eq_iterate_or_isIntervention with ⟨limit, rfl⟩ | hturn
      · change (iterate limit machine).2.IsInformed
        rw [iterate_snd]
        exact isInformed_account _ _ (isInformed_worked h)
      · refine isInformed_flagStable.intervene (fun {state} hstate line level => ?_)
          (fun hstate _ => hstate) hturn (fun _ _ _ hstate => hstate) h
        have hidle := Cpu.eq_of_core (·.idle) (fun _ => rfl) (state.cpu.core_drive line level)
        change state.bus.IsInformed (state.cpu.drive line level).idle
        rw [hidle]
        exact hstate
  | reset =>
      exact isInformed_flagStable.reset wake_informs (fun _ _ hstate => hstate) h

theorem isInformed_through (h : machine.IsInformed) (stages : List (Stage Register β)) :
    (machine.through stages).IsInformed :=
  History.play_keeps (I := IsInformed) (fun stage _ hstate => isInformed_pass hstate stage) h stages

/-- A processor that stays idle lets time pass, and that is all. -/
theorem passive_iterate (hidle : machine.cpu.idle = true) (h : machine.acknowledged = [])
    (limit : Nat) :
    machine.Passive (iterate limit machine).2 ∧ (iterate limit machine).2.cpu.idle = true := by
  have hchecked := checked_of_acknowledged h
  have hworked : machine.worked = machine.released := by
    rw [worked_of_idle (hchecked ▸ hidle), hchecked]
  have hnext : (iterate limit machine).2 =
      (account (iterate limit machine).1 machine.released).2 := by
    rw [iterate_snd, hworked]
  obtain ⟨driven, _, hcalled⟩ := machine.called_account limit
  rw [hworked] at hcalled
  have haccount := (Cpu.still_clockStable machine.released.cpu).simulation (β := RecordedBus β)
  have hstill := corresponds_self_iff.mp (haccount.account (iterate limit machine).1)
    machine.released rfl
  rw [← hnext] at hstill
  have hsame {α : Type} (view : Cpu → α) (hview : ∀ cpu, view cpu.still = view cpu) :
      view (iterate limit machine).2.cpu = view machine.released.cpu :=
    Cpu.eq_of_still view hview hstill
  refine ⟨⟨⟨_, hcalled, by simp [BusEvent.isTick]⟩, ?_, ?_, ?_, ?_⟩, ?_⟩
  · exact hsame (·.pc) fun _ => rfl
  · exact hsame (·.wp) fun _ => rfl
  · exact hsame (·.st) fun _ => rfl
  · exact hsame (·.chip.ram) fun _ => rfl
  · exact (hsame (·.idle) fun _ => rfl).trans hidle

/-- Only an interrupt or a reset ends the idle state. -/
theorem wakes_pass (hidle : machine.cpu.idle = true) {stage : Stage Register β}
    (hawake : (pass stage machine).2.cpu.idle = false) :
    stage = .reset ∨
      ∃ limit line, stage = .turn (.iterate limit) ∧ machine.Acknowledges limit [line] := by
  cases stage with
  | reset => exact .inl rfl
  | turn turn =>
      right
      rcases turn.eq_iterate_or_isIntervention with ⟨limit, rfl⟩ | hturn
      · rcases machine.acknowledged_eq_nil_or_singleton with hnone | ⟨line, hline⟩
        · have hstays := (passive_iterate hidle hnone limit).2
          exact absurd (hstays.symm.trans hawake) nofun
        · exact ⟨limit, line, rfl, acknowledges_iff.mpr hline⟩
      · have hstays : (take turn machine).2.cpu.idle = true :=
          (idle_suppress_intervene hturn).1.trans hidle
        exact absurd (hstays.symm.trans hawake) nofun

end Machine

end TmsCores.Tms9900
