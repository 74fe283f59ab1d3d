import TmsCores.Bus.Flat
import TmsCores.Proofs.Tms9900.BusAccess
import TmsCores.Proofs.Tms9900.History

namespace TmsCores.Tms9900

variable {β : Type} [Bus β]

namespace Cpu.HostStable

variable {P : Cpu → Prop} {bounds : Bus.Bounds} {B : β → Prop}

theorem flagStable_and (h : FlagStable P) (hB : Bus.Lasting bounds B)
    (hbounds : ∀ {cpu}, P cpu → cpu.config.bounds = bounds) :
    Machine.FlagStable fun machine : Machine β => P machine.cpu ∧ B machine.bus where
  access hmachine haccess _ := ⟨hmachine.1, hB.access hmachine.2 (hbounds hmachine.1 ▸ haccess)⟩
  expect hmachine _ := hmachine
  remember hmachine _ := hmachine
  evolve hmachine hevolves := ⟨hevolves P h hmachine.1, hmachine.2⟩

omit [Bus β] in
theorem modifyCpu_keeps_and {change : Cpu → Cpu} (h : ∀ {cpu}, P cpu → P (change cpu)) :
    Keeps (fun machine : Machine β => P machine.cpu ∧ B machine.bus) (Exec.modifyCpu change) :=
  fun _ hmachine => ⟨h hmachine.1, hmachine.2⟩

theorem hostSimulation_and (h : HostStable P) (hB : Bus.Lasting bounds B)
    (hbounds : ∀ {cpu}, P cpu → cpu.config.bounds = bounds) :
    HostSimulation (SameWith fun machine : Machine β => P machine.cpu ∧ B machine.bus) where
  toClockSimulation := h.toClockStable.simulation_and hB.tick
  toFlagSimulation := (flagStable_and h.toFlagStable hB hbounds).simulation
  setSt st := corresponds_self_iff.mpr (modifyCpu_keeps_and fun hcpu => h.setSt hcpu st)
  modifySt hchange := corresponds_self_iff.mpr (modifyCpu_keeps_and (h.modifySt hchange))
  clearLeftovers := corresponds_self_iff.mpr fun _ hmachine => hmachine
  releaseInterrupts := corresponds_self_iff.mpr (modifyCpu_keeps_and h.release)
  leaveIdle := corresponds_self_iff.mpr fun _ hmachine =>
    ⟨h.leaveIdle hmachine.1, hB.idleChanged hmachine.2 false⟩
  serviceStatus := by
    rintro m _ pending ⟨rfl, hmachine⟩ hpending
    exact corresponds_self_iff.mpr (modifyCpu_keeps_and (h.serviceStatus hmachine.1 hpending))
  acknowledge line := corresponds_self_iff.mpr fun _ hmachine =>
    ⟨h.acknowledge hmachine.1 line, hB.acknowledge hmachine.2 line⟩
  sameWait := by
    rintro m _ ⟨rfl, _⟩
    rfl
  drive line state :=
    corresponds_self_iff.mpr (modifyCpu_keeps_and fun hcpu => h.drive hcpu line state)
  powerUp := corresponds_self_iff.mpr (modifyCpu_keeps_and h.powerUp)
  endReset wait := corresponds_self_iff.mpr (modifyCpu_keeps_and fun hcpu => h.endReset hcpu wait)

end Cpu.HostStable

/-- What lasts on the bus of a processor made for a configuration is kept by iterations. -/
theorem Exec.iterate_keeps_and {config : Config} {B : β → Prop}
    (hB : Bus.Lasting config.bounds B) (limit : Nat) :
    Keeps (fun machine : Machine β => machine.cpu.IsConsistent config ∧ B machine.bus)
      (iterate limit) := by
  have hsimulation := (Cpu.isConsistent_hostStable config).hostSimulation_and hB
    fun hcpu => congrArg Config.bounds hcpu.config_eq
  refine corresponds_self_iff.mp (hsimulation.iterate ?_ ?_ limit)
  · exact corresponds_self_iff.mpr fun _ hmachine => ⟨{ hmachine.1 with }, hmachine.2⟩
  · exact corresponds_self_iff.mpr fun _ hmachine =>
      ⟨{ hmachine.1 with }, hB.idleChanged hmachine.2 true⟩

/-- Since some moment, no call of a processor made for a configuration has left its bounds. -/
def Machine.Confined (config : Config) (before : RecordedBus β)
    (machine : Machine (RecordedBus β)) : Prop :=
  machine.cpu.IsConsistent config ∧ before.CalledWithin config.bounds machine.bus

namespace Machine.Confined

variable (config : Config) (before : RecordedBus β)

theorem hostSimulation : HostSimulation (SameWith (Confined config before)) :=
  (Cpu.isConsistent_hostStable config).hostSimulation_and
    (RecordedBus.calledWithin_lasting config.bounds before)
    fun hcpu => congrArg Config.bounds hcpu.config_eq

theorem iterate_keeps (limit : Nat) : Keeps (Confined config before) (Exec.iterate limit) :=
  Exec.iterate_keeps_and (RecordedBus.calledWithin_lasting config.bounds before) limit

theorem pass_keeps (stage : Stage Register β) : Keeps (Confined config before) (pass stage) := by
  have h := hostSimulation config before
  have hkeeps {α : Type} {x : Exec (RecordedBus β) α}
      (hx : Corresponds (SameWith (Confined config before)) x x) :=
    corresponds_self_iff.mp hx
  intro machine hmachine
  cases stage with
  | reset => exact hkeeps h.reset machine hmachine
  | turn turn =>
      cases turn with
      | iterate limit => exact iterate_keeps config before limit machine hmachine
      | drive line state => exact hkeeps (h.drive line state) machine hmachine
      | setPc pc => exact hkeeps (h.setPc pc) machine hmachine
      | read register => exact hkeeps (h.read? register) machine hmachine
      | write register value =>
          have hwrite : Corresponds _ (Exec.write? register value) (Exec.write? register value) :=
            h.write? fun _ => h.setSt value
          exact hkeeps hwrite machine hmachine
      | touch change => exact hmachine

end Machine.Confined

namespace Machine

variable {config : Config} {machine : Machine (RecordedBus β)}

theorem calledWithin_through (h : machine.cpu.IsConsistent config)
    (stages : List (Stage Register β)) :
    machine.bus.CalledWithin config.bounds (machine.through stages).bus := by
  have hconfined : (machine.through stages).Confined config machine.bus :=
    History.play_keeps (fun stage => Confined.pass_keeps config machine.bus stage)
      ⟨h, machine.bus.calledWithin_refl⟩ stages
  exact hconfined.2

theorem calledWithin_perform (h : machine.cpu.IsConsistent config)
    {operation : Operation Register} {answer : Answer MissingRegister Config}
    {next : Machine (RecordedBus β)} (hperform : machine.perform operation = some (answer, next)) :
    machine.bus.CalledWithin config.bounds next.bus := by
  by_cases hrestore : ∃ bytes, operation = .restore bytes
  · obtain ⟨bytes, rfl⟩ := hrestore
    rw [bus_of_perform_restore hperform]
    exact machine.bus.calledWithin_refl
  · have hrestore : ∀ bytes, operation ≠ .restore bytes := fun bytes h => hrestore ⟨bytes, h⟩
    have hsession : session perform [operation] machine = some ([answer], next) := by
      simp [session, hperform]
    obtain ⟨stages, rfl⟩ := exists_through_of_session (by simpa using hrestore) hsession
    exact calledWithin_through h stages

end Machine

/-- A processor calls its bus at addresses that it has lines for, and never for what it has on the
chip.  Without anything there, it calls the bus for every address. -/
theorem bus_calls_within_bounds (variant : Variant) {machine : Machine (RecordedBus β)}
    (h : machine.Reachable variant.config) :
    (∀ {operation answer next}, machine.perform operation = some (answer, next) →
      machine.bus.CalledWithin variant.bounds next.bus) ∧
    (∀ stages, machine.bus.CalledWithin variant.bounds (machine.through stages).bus) ∧
    (variant = .tms9995 → machine.AnswersOnChip) ∧
    (variant ≠ .tms9995 → machine.PassesAllOn) := by
  have hwithin {bus : RecordedBus β} (hbus : machine.bus.CalledWithin variant.config.bounds bus) :
      machine.bus.CalledWithin variant.bounds bus :=
    hbus.mono (fun _ => variant.bounds_memory) fun _ => variant.bounds_io
  have hconfig := h.isConsistent.config_eq
  refine ⟨?_, ?_, ?_, ?_⟩
  · exact fun hperform => hwithin (Machine.calledWithin_perform h.isConsistent hperform)
  · exact fun stages => hwithin (Machine.calledWithin_through h.isConsistent stages)
  · rintro rfl
    exact Machine.answersOnChip (congrArg Config.onChip hconfig)
  · intro hvariant
    refine Machine.passesAllOn ((congrArg Config.onChip hconfig).trans ?_)
    cases variant with
    | tms9900 | tms9980A => rfl
    | tms9995 => exact absurd rfl hvariant

/-- A reset fetches its vector over the bus, and a workspace on the chip is written without it. -/
theorem bus_calls_within_bounds_of_reset :
    let memory := Memory.zero.pokeWord 0x0000 0xF000
    let machine : Machine (RecordedBus FlatBus) :=
      ⟨.ofConfig Variant.tms9995.config, { memory := memory }, []⟩
    let next := (Exec.reset machine).2
    machine.Reachable Variant.tms9995.config ∧
      machine.perform .reset = some (.done, next) ∧
      next.bus.events = [.read 0 ⟨0xF0, 0⟩, .read 1 ⟨0, 0⟩, .read 2 ⟨0, 0⟩, .read 3 ⟨0, 0⟩] ∧
      machine.bus.CalledWithin Variant.tms9995.bounds next.bus := by
  intro memory machine next
  have hmachine : machine.Reachable Variant.tms9995.config := .create
  obtain ⟨hperform, _⟩ := bus_calls_within_bounds .tms9995 hmachine
  have hreset : machine.perform .reset = some (.done, next) := rfl
  exact ⟨hmachine, hreset, by decide +kernel, hperform hreset⟩

end TmsCores.Tms9900
