import TmsCores.Proofs.Tms9900.AccessSimulation
import TmsCores.Proofs.Tms9900.HostSimulation

namespace TmsCores.Tms9900

namespace Cpu

/-- A property of processors that no part of an instruction destroys, except for what IDLE, BLWP and
XOP do at their end. -/
structure Stable (P : Cpu → Prop) : Prop extends FlagStable P where
  setSt : ∀ {cpu}, P cpu → ∀ st, P (cpu.setSt st)
  modifySt : ∀ {cpu change}, Status.KeepsReserved change → P cpu →
    P { cpu with st := change cpu.st }
  setFlags hchange hcpu := modifySt hchange.keepsReserved hcpu
  clearMask hcpu := modifySt (.withMask (by decide)) hcpu

/-- A property of processors that the interrupt check does not destroy either. -/
structure ServiceStable (P : Cpu → Prop) : Prop extends Stable P where
  release : ∀ {cpu}, P cpu → P { cpu with suppress := false }
  leaveIdle : ∀ {cpu}, P cpu → P { cpu with idle := false }
  serviceStatus : ∀ {before cpu pending}, P before → before.pending = some pending → P cpu →
    P { cpu with st := Exec.serviceStatus before.config pending cpu.st }
  acknowledge : ∀ {cpu}, P cpu → ∀ line,
    P { cpu with interrupts := cpu.interrupts.acknowledge line }

/-- A property of processors that ticks of the peripheral clock do not destroy. -/
structure TickStable (P : Cpu → Prop) : Prop where
  tick : ∀ {cpu}, P cpu → P cpu.tick
  drive : ∀ {cpu}, P cpu → ∀ line state, P (cpu.drive line state)

/-- A property of processors that the accounts at the end of an iteration do not destroy. -/
structure ClockStable (P : Cpu → Prop) : Prop extends TickStable P where
  advance : ∀ {cpu}, P cpu → ∀ cycles, P (cpu.advance cycles).2

/-- A property of processors that is not destroyed by anything that happens around the
instructions. -/
structure HostStable (P : Cpu → Prop) : Prop extends ServiceStable P, ClockStable P where
  powerUp : ∀ {cpu}, P cpu → P cpu.powerUp
  endReset : ∀ {cpu}, P cpu → ∀ wait, P (cpu.endReset wait)

end Cpu

variable {α β : Type} {P : Cpu → Prop}

namespace Machine

def Has (P : Cpu → Prop) (machine : Machine β) : Prop :=
  P machine.cpu

/-- A property of machines that the accesses of instructions do not destroy. -/
structure AccessStable [Bus β] (I : Machine β → Prop) : Prop where
  access : ∀ {machine bus}, I machine →
    Bus.Accessed machine.cpu.config.bounds machine.bus bus → ∀ wait,
      I { machine with bus := bus, wait := wait }
  /-- An access to the chip can only miss where its memory is not complete. -/
  expect : ∀ {machine possible}, I machine → (machine.cpu.HasRam → possible = true) →
    I { machine with fault := !possible || machine.fault }
  remember : ∀ {machine}, I machine → ∀ operandWord,
    I { machine with operandWord := operandWord }
  move : ∀ {machine cpu}, I machine → machine.cpu.Moves cpu → I { machine with cpu := cpu }

/-- A property of machines that no part of an instruction destroys, with the same exceptions as for
processors. -/
structure FlagStable [Bus β] (I : Machine β → Prop) : Prop extends AccessStable I where
  evolve : ∀ {machine cpu}, I machine → machine.cpu.Evolves cpu → I { machine with cpu := cpu }
  move hmachine hmoves := evolve hmachine hmoves.evolves

end Machine

theorem Cpu.AccessStable.machine [Bus β] (h : AccessStable P) :
    Machine.AccessStable (Machine.Has P : Machine β → Prop) where
  access hmachine _ _ := hmachine
  expect hmachine _ := hmachine
  remember hmachine _ := hmachine
  move hmachine hmoves := hmoves P h hmachine

theorem Cpu.FlagStable.machine [Bus β] (h : FlagStable P) :
    Machine.FlagStable (Machine.Has P : Machine β → Prop) where
  access hmachine _ _ := hmachine
  expect hmachine _ := hmachine
  remember hmachine _ := hmachine
  evolve hmachine hevolves := hevolves P h hmachine

namespace Exec

theorem modifyCpu_keeps {change : Cpu → Cpu} (h : ∀ {cpu}, P cpu → P (change cpu)) :
    Keeps (Machine.Has P : Machine β → Prop) (modifyCpu change) :=
  fun _ hmachine => h hmachine

theorem cpu_keeps {I : Machine β → Prop} : Keeps I cpu :=
  fun _ hmachine => hmachine

theorem inspect_keeps {I : Machine β → Prop} {f : Cpu → Exec β α}
    (hf : ∀ machine, I machine → I (f machine.cpu machine).2) : Keeps I (cpu >>= f) :=
  hf

theorem tickBus_of_quiet [Bus β] {machine : Machine β} {bus : β}
    (htick : Bus.tick machine.bus = (none, bus)) :
    tickBus machine = ((), { machine with bus := bus }) := by
  rw [tickBus, modify_apply, htick]

theorem tickBus_of_driven [Bus β] {machine : Machine β} {bus : β} {line : UInt8}
    {state : LineState} (htick : Bus.tick machine.bus = (some (line, state), bus)) :
    tickBus machine =
      ((), { machine with bus := bus, cpu := machine.cpu.drive line state }) := by
  rw [tickBus, modify_apply, htick]

end Exec

namespace Machine

open Exec

variable [Bus β] {I : Machine β → Prop}

theorem AccessStable.transfers (h : AccessStable I) : TransferSimulation (SameWith I) where
  sameCpu := by
    rintro m _ ⟨rfl, _⟩
    rfl
  sameOperandWord := by
    rintro m _ ⟨rfl, _⟩
    rfl
  busRead := by
    rintro m _ address ⟨rfl, hmachine⟩ hexternal
    exact ⟨rfl, rfl, h.access hmachine (.read _ (Cpu.memory_bounds_of_region hexternal)) _⟩
  busWrite := by
    rintro m _ address ⟨rfl, hmachine⟩ hexternal value
    exact ⟨rfl, h.access hmachine (.write _ value (Cpu.memory_bounds_of_region hexternal)) _⟩
  cruRead := by
    rintro m _ bit ⟨rfl, hmachine⟩ hbit
    have hread : I (Exec.cruRead bit m).2 := by
      rw [Exec.cruRead, get_bind, hbit]
      exact h.access hmachine (.ioRead _ (Cpu.io_bounds_of_internalBit? hbit)) _
    exact ⟨rfl, rfl, hread⟩
  cruWrite := by
    rintro m _ bit value ⟨rfl, hmachine⟩ hbit
    have hbounds := Cpu.io_bounds_of_internalBit? (Cpu.setInternalBit?_eq_none_iff.mp hbit)
    have hwrite : I (Exec.cruWrite bit value m).2 := by
      rw [Exec.cruWrite, get_bind, hbit]
      exact h.access hmachine (.ioWrite _ _ hbounds) _
    exact ⟨rfl, hwrite⟩
  expect := by
    rintro m _ possible ⟨rfl, hmachine⟩ hpossible
    exact ⟨rfl, h.expect hmachine hpossible⟩
  remember := by
    rintro m _ ⟨rfl, hmachine⟩ operandWord
    exact ⟨rfl, h.remember hmachine operandWord⟩
  move := by
    rintro m _ cpu ⟨rfl, hmachine⟩ hmoves
    exact ⟨rfl, h.move hmachine hmoves⟩

theorem FlagStable.accessSimulation (h : FlagStable I) : AccessSimulation (SameWith I) where
  toTransferSimulation := h.transfers
  evolve := by
    rintro m _ cpu ⟨rfl, hmachine⟩ hevolves
    exact ⟨rfl, h.evolve hmachine hevolves⟩

theorem FlagStable.simulation (h : FlagStable I) : FlagSimulation (SameWith I) :=
  h.accessSimulation.simulation

end Machine

namespace Cpu

open Exec

variable [Bus β]

theorem Stable.simulation (h : Stable P) :
    Simulation (SameWith (Machine.Has P : Machine β → Prop)) where
  toFlagSimulation := h.toFlagStable.machine.simulation
  setSt st := corresponds_self_iff.mpr (modifyCpu_keeps fun hcpu => h.setSt hcpu st)
  modifySt hchange := corresponds_self_iff.mpr (modifyCpu_keeps (h.modifySt hchange))

theorem ServiceStable.simulation (h : ServiceStable P) :
    ServiceSimulation (SameWith (Machine.Has P : Machine β → Prop)) where
  toSimulation := h.toStable.simulation
  clearLeftovers := corresponds_self_iff.mpr fun _ hmachine => hmachine
  releaseInterrupts := corresponds_self_iff.mpr (modifyCpu_keeps h.release)
  leaveIdle := corresponds_self_iff.mpr fun _ hmachine => h.leaveIdle hmachine
  serviceStatus := by
    rintro m _ pending ⟨rfl, hmachine⟩ hpending
    exact corresponds_self_iff.mpr (modifyCpu_keeps (h.serviceStatus hmachine hpending))
  acknowledge line := corresponds_self_iff.mpr fun _ hmachine => h.acknowledge hmachine line

theorem ServiceStable.reset (h : ServiceStable P)
    (hend : ∀ {cpu}, P cpu → ∀ wait, P (cpu.endReset wait)) {machine : Machine β}
    (hmachine : P machine.cpu.powerUp) : P (Exec.reset machine).2.cpu := by
  have hwake := corresponds_self_iff.mp (h.simulation (β := β)).wake
  have hswitch := corresponds_self_iff.mp ((h.simulation (β := β)).contextSwitch 0)
  have hrest : Keeps (Machine.Has P : Machine β → Prop) (do
      wake
      contextSwitch 0
      let wait := (← get).wait
      modifyCpu (·.endReset wait)) := by
    refine hwake.seq (hswitch.seq ?_)
    exact Keeps.inspect fun state hstate => hend hstate state.wait
  exact hrest { machine with cpu := machine.cpu.powerUp, wait := 0, operandWord := none } hmachine

theorem TickStable.tickBus_keeps (h : TickStable P) :
    Keeps (Machine.Has P : Machine β → Prop) tickBus := by
  intro machine hmachine
  rcases htick : Bus.tick machine.bus with ⟨_ | ⟨line, state⟩, bus⟩
  · rw [tickBus_of_quiet htick]
    exact hmachine
  · rw [tickBus_of_driven htick]
    exact h.drive hmachine line state

theorem TickStable.ticks_keeps (h : TickStable P) (count : Nat) :
    Keeps (Machine.Has P : Machine β → Prop) (ticks count) := by
  induction count with
  | zero => exact .pure ()
  | succ count ih =>
      have hcpu : Keeps (Machine.Has P : Machine β → Prop) (modifyCpu Cpu.tick) :=
        modifyCpu_keeps h.tick
      exact (hcpu.seq h.tickBus_keeps).seq ih

theorem ClockStable.simulation (h : ClockStable P) :
    ClockSimulation (SameWith (Machine.Has P : Machine β → Prop)) where
  tickCpu := corresponds_self_iff.mpr (modifyCpu_keeps h.tick)
  tickBus := corresponds_self_iff.mpr h.toTickStable.tickBus_keeps
  charge cycles := corresponds_self_iff.mpr fun _ hmachine => h.advance hmachine cycles

/-- The accounts also keep what ticks do not destroy on the bus. -/
theorem ClockStable.simulation_and (h : ClockStable P) {B : β → Prop}
    (htick : ∀ {bus}, B bus → B (Bus.tick bus).2) :
    ClockSimulation (SameWith fun machine : Machine β => P machine.cpu ∧ B machine.bus) where
  tickCpu := corresponds_self_iff.mpr fun _ hmachine => ⟨h.tick hmachine.1, hmachine.2⟩
  tickBus := corresponds_self_iff.mpr fun machine hmachine => by
    have hbus := htick hmachine.2
    rcases hnext : Bus.tick machine.bus with ⟨_ | ⟨line, state⟩, bus⟩
    · rw [hnext] at hbus
      rw [tickBus_of_quiet hnext]
      exact ⟨hmachine.1, hbus⟩
    · rw [hnext] at hbus
      rw [tickBus_of_driven hnext]
      exact ⟨h.drive hmachine.1 line state, hbus⟩
  charge cycles := corresponds_self_iff.mpr fun _ hmachine =>
    ⟨h.advance hmachine.1 cycles, hmachine.2⟩

end Cpu

namespace Cpu.HostStable

open Exec

variable [Bus β] (h : HostStable P)

include h

theorem hostSimulation : HostSimulation (SameWith (Machine.Has P : Machine β → Prop)) where
  toServiceSimulation := h.toServiceStable.simulation
  toClockSimulation := h.toClockStable.simulation
  sameWait := by
    rintro m _ ⟨rfl, _⟩
    rfl
  drive line state := corresponds_self_iff.mpr (modifyCpu_keeps fun hcpu => h.drive hcpu line state)
  powerUp := corresponds_self_iff.mpr (modifyCpu_keeps h.powerUp)
  endReset wait := corresponds_self_iff.mpr (modifyCpu_keeps fun hcpu => h.endReset hcpu wait)

theorem iterate_keeps (hhold : ∀ {cpu}, P cpu → P { cpu with suppress := true })
    (hidle : ∀ {cpu}, P cpu → P { cpu with idle := true }) (limit : Nat) :
    Keeps (Machine.Has P : Machine β → Prop) (iterate limit) := by
  have hhold : Keeps (Machine.Has P : Machine β → Prop) holdInterrupts := modifyCpu_keeps hhold
  have hidle : Keeps (Machine.Has P : Machine β → Prop) (setIdle true) :=
    fun _ hmachine => hidle hmachine
  exact corresponds_self_iff.mp (h.hostSimulation.iterate (corresponds_self_iff.mpr hhold)
    (corresponds_self_iff.mpr hidle) limit)

theorem perform (hiterate : ∀ limit, Keeps (Machine.Has P : Machine β → Prop) (iterate limit))
    {operation : Operation Register} (hrestore : ∀ bytes, operation ≠ .restore bytes)
    {machine : Machine β} (hmachine : P machine.cpu) {answer : Answer MissingRegister Config}
    {next : Machine β} (hperform : machine.perform operation = some (answer, next)) :
    P next.cpu := by
  by_cases hsave : operation = .save
  · subst hsave
    obtain ⟨_, rfl⟩ := Prod.mk.inj (Option.some.inj hperform)
    exact hmachine
  · have hsame := h.hostSimulation.perform (fun limit => corresponds_self_iff.mpr (hiterate limit))
      hsave hrestore ⟨rfl, hmachine⟩
    rw [hperform] at hsame
    cases hsame with
    | some hresult => exact hresult.2.2

end Cpu.HostStable

end TmsCores.Tms9900
