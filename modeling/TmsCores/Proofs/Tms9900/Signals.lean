import TmsCores.Proofs.Bus.Signals
import TmsCores.Proofs.Tms9900.Course

namespace TmsCores.Tms9900

variable {β : Type} [Bus β]

theorem Machine.flagStable_of_bus {B : β → Prop}
    (hB : ∀ {bounds bus changed}, B bus → Bus.Accessed bounds bus changed → B changed) :
    Machine.FlagStable fun machine : Machine β => B machine.bus where
  access hmachine haccess _ := hB hmachine haccess
  remember hmachine _ := hmachine
  expect hmachine _ := hmachine
  evolve hmachine _ := hmachine

def Machine.Signalled (signals : List BusEvent) (machine : Machine (RecordedBus β)) : Prop :=
  machine.bus.signals = signals

namespace Machine.Signalled

open Exec

variable (signals : List BusEvent)

theorem flagStable : Machine.FlagStable (Signalled (β := β) signals) :=
  flagStable_of_bus fun hbus haccess => (RecordedBus.signals_of_accessed haccess).trans hbus

omit [Bus β] in
theorem modifyCpu_keeps (change : Cpu → Cpu) :
    Keeps (Signalled (β := β) signals) (modifyCpu change) :=
  fun _ hmachine => hmachine

theorem setIdle_keeps (idle : Bool) : Keeps (Signalled (β := β) signals) (setIdle idle) :=
  fun machine hmachine => (RecordedBus.signals_idleChanged machine.bus idle).trans hmachine

theorem simulation : Simulation (SameWith (Signalled (β := β) signals)) where
  toFlagSimulation := (flagStable signals).simulation
  setSt _ := corresponds_self_iff.mpr (modifyCpu_keeps signals _)
  modifySt _ := corresponds_self_iff.mpr (modifyCpu_keeps signals _)

theorem acknowledge_leads (line : UInt8) :
    Leads (Signalled (β := β) signals) (Signalled (signals ++ [.acknowledge line]))
      (acknowledge line) := by
  intro machine hmachine
  have hsignals := RecordedBus.signals_acknowledge machine.bus line
  rw [hmachine] at hsignals
  exact hsignals

theorem serviceInterrupt_leads (pending : PendingLine) (machine : Machine (RecordedBus β))
    (hpending : machine.cpu.pending = some pending) (hmachine : machine.Signalled signals) :
    (serviceInterrupt machine).2.Signalled (signals ++ [.acknowledge pending.line]) := by
  have hswitch := corresponds_self_iff.mp ((flagStable (β := β) signals).simulation.contextSwitch
    (interruptVector machine.cpu.config pending)) machine hmachine
  have hstatus := modifyCpu_keeps signals (fun cpu => { cpu with
    st := serviceStatus machine.cpu.config pending cpu.st }) _ hswitch
  rw [serviceInterrupt_snd hpending]
  exact wake_keeps (setIdle_keeps _ false) _ (acknowledge_leads signals pending.line _ hstatus)

end Machine.Signalled

namespace Machine

variable (machine : Machine (RecordedBus β))

/-- The lines that an iteration acknowledges. -/
def acknowledged (machine : Machine β) : List UInt8 :=
  if machine.cpu.suppress then [] else machine.cpu.pending.toList.map (·.line)

omit [Bus β] in
theorem acknowledged_eq_nil_or_singleton (machine : Machine β) :
    machine.acknowledged = [] ∨ ∃ line, machine.acknowledged = [line] := by
  rw [acknowledged]
  cases machine.cpu.suppress with
  | true => exact .inl rfl
  | false =>
      cases machine.cpu.pending with
      | none => exact .inl rfl
      | some pending => exact .inr ⟨pending.line, rfl⟩

theorem signals_checked :
    machine.checked.bus.signals =
      machine.bus.signals ++ machine.acknowledged.map BusEvent.acknowledge := by
  rw [checked_eq, acknowledged]
  split
  · exact (List.append_nil _).symm
  · cases hpending : machine.cpu.pending with
    | none =>
        have hnone : machine.released.cpu.pending = none := hpending
        rw [Exec.serviceInterrupt_of_none hnone]
        exact (List.append_nil _).symm
    | some pending => exact Signalled.serviceInterrupt_leads _ pending _ hpending rfl

theorem signals_worked : machine.worked.bus.signals = machine.checked.bus.signals := by
  have hstable := Signalled.flagStable (β := β) machine.checked.bus.signals
  exact hstable.worked (fun _ _ _ => Signalled.modifyCpu_keeps _ _)
    (fun _ => Signalled.setIdle_keeps _ true) (fun _ _ _ => Signalled.simulation _) rfl

theorem bus_tick (machine : Machine β) :
    (Exec.tick machine).2.bus = (Bus.tick machine.bus).2 := by
  let clocked : Machine β := { machine with cpu := machine.cpu.tick }
  change (Exec.tickBus clocked).2.bus = (Bus.tick clocked.bus).2
  rcases htick : Bus.tick clocked.bus with ⟨_ | ⟨line, state⟩, bus⟩
  · rw [Exec.tickBus_of_quiet htick]
  · rw [Exec.tickBus_of_driven htick]

theorem called_ticks (count : Nat) :
    ∃ driven : List (Option (UInt8 × LineState)), driven.length = count ∧
      machine.bus.Called (Exec.ticks count machine).2.bus (driven.map BusEvent.tick) :=
  RecordedBus.called_ticks (·.bus) (fun state => (Exec.tick state).2)
    (fun count state => (Exec.ticks count state).2) (fun _ => rfl) (fun _ _ => rfl) bus_tick
    count machine

theorem called_account (limit : Nat) :
    ∃ driven : List (Option (UInt8 × LineState)),
      driven.length = (machine.worked.cpu.divider.advance (Exec.iterate limit machine).1).1 ∧
      machine.worked.bus.Called (Exec.iterate limit machine).2.bus
        (driven.map BusEvent.tick) := by
  rw [iterate_snd]
  exact (Exec.charge (Exec.iterate limit machine).1 machine.worked).2.called_ticks
    (machine.worked.cpu.advance (Exec.iterate limit machine).1).1

/-- On the bus an iteration first acknowledges what it services, and ends with the ticks that its
cycles complete. -/
theorem heard_iterate (limit : Nat) :
    machine.bus.Heard (Exec.iterate limit machine).2.bus machine.acknowledged
      (machine.worked.cpu.divider.advance (Exec.iterate limit machine).1).1 := by
  obtain ⟨driven, hlength, hcalled⟩ := machine.called_account limit
  refine ⟨driven, hlength, ?_⟩
  rw [← machine.signals_checked, ← machine.signals_worked]
  exact hcalled.signals_eq_of_ticks

end Machine

end TmsCores.Tms9900
