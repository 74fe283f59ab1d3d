import TmsCores.Proofs.Bus.Signals
import TmsCores.Proofs.Tms7000.Course

namespace TmsCores.Tms7000

variable {β : Type} [Bus β]

theorem Machine.registerStable_of_bus {B : β → Prop}
    (hB : ∀ {bounds bus changed}, B bus → Bus.Accessed bounds bus changed → B changed) :
    Machine.RegisterStable fun machine : Machine β => B machine.bus where
  access hmachine haccess _ := hB hmachine haccess
  evolve hmachine _ := hmachine
  expect hmachine _ := hmachine

def Machine.Signalled (signals : List BusEvent) (machine : Machine (RecordedBus β)) : Prop :=
  machine.bus.signals = signals

namespace Machine.Signalled

open Exec

variable (signals : List BusEvent)

theorem registerStable : Machine.RegisterStable (Signalled (β := β) signals) :=
  registerStable_of_bus fun hbus haccess => (RecordedBus.signals_of_accessed haccess).trans hbus

omit [Bus β] in
theorem modifyCpu_keeps (change : Cpu → Cpu) :
    Keeps (Signalled (β := β) signals) (modifyCpu change) :=
  fun _ hmachine => hmachine

theorem setIdle_keeps (idle : Bool) : Keeps (Signalled (β := β) signals) (setIdle idle) :=
  fun machine hmachine => (RecordedBus.signals_idleChanged machine.bus idle).trans hmachine

theorem writeAt_keeps (location : Location) (value : UInt8) :
    Keeps (Signalled (β := β) signals) (writeAt location value) := by
  cases location with
  | register => exact fun _ hmachine => hmachine
  | interruptControl | timerData | timerControl => exact modifyCpu_keeps signals _
  | port | memory =>
      intro machine hmachine
      refine Eq.trans (RecordedBus.signals_cons _ _ machine.bus) ?_
      exact (List.append_nil _).trans hmachine

theorem acknowledge_leads (line : UInt8) :
    Leads (Signalled (β := β) signals) (Signalled (signals ++ [.acknowledge line]))
      (acknowledge line) := by
  intro machine hmachine
  have hsignals := RecordedBus.signals_acknowledge machine.bus line
  rw [hmachine] at hsignals
  exact hsignals

theorem checked {pending : PendingLine} {machine : Machine (RecordedBus β)}
    (hpending : machine.cpu.pending = some pending) (hmachine : machine.Signalled signals) :
    machine.checked.Signalled (signals ++ [.acknowledge pending.line]) := by
  have hvector : Keeps (Signalled signals) (interruptVector (β := RecordedBus β) pending.line) :=
    fun _ hstate => hstate
  have henter := enterHandler_keeps (registerStable signals) hvector
    (clearLeftovers machine).2 hmachine
  rw [checked_of_some hpending]
  exact wake_keeps (setIdle_keeps _ false) _ (acknowledge_leads signals pending.line _ henter)

end Machine.Signalled

namespace Machine

variable (machine : Machine (RecordedBus β))

/-- The lines that an iteration acknowledges. -/
def acknowledged (machine : Machine β) : List UInt8 :=
  machine.cpu.pending.toList.map (·.line)

omit [Bus β] in
theorem acknowledged_eq_nil_or_singleton (machine : Machine β) :
    machine.acknowledged = [] ∨ ∃ line, machine.acknowledged = [line] := by
  rw [acknowledged]
  cases machine.cpu.pending with
  | none => exact .inl rfl
  | some pending => exact .inr ⟨pending.line, rfl⟩

theorem signals_checked :
    machine.checked.bus.signals =
      machine.bus.signals ++ machine.acknowledged.map BusEvent.acknowledge := by
  rw [acknowledged]
  cases hpending : machine.cpu.pending with
  | none =>
      rw [checked_of_none hpending]
      exact (List.append_nil _).symm
  | some pending => exact Signalled.checked _ hpending rfl

theorem signals_worked : machine.worked.bus.signals = machine.checked.bus.signals := by
  have hstable := Signalled.registerStable (β := β) machine.checked.bus.signals
  exact hstable.worked (fun _ => Signalled.setIdle_keeps _ true)
    (fun _ _ _ _ => Signalled.modifyCpu_keeps _ _) (fun _ _ => Signalled.writeAt_keeps _ _ _) rfl

theorem bus_tick (machine : Machine β) :
    (Exec.tick machine).2.bus = (Bus.tick machine.bus).2 := by
  let clocked : Machine β := { machine with cpu := machine.cpu.clockTimer }
  change (Exec.tickBus clocked).2.bus = (Bus.tick clocked.bus).2
  rcases htick : Bus.tick clocked.bus with ⟨_ | ⟨line, state⟩, bus⟩
  · rw [Exec.tickBus_of_quiet htick]
  · rw [Exec.tickBus_of_driven htick]

theorem called_ticks (count : Nat) :
    ∃ driven : List (Option (UInt8 × LineState)), driven.length = count ∧
      machine.bus.Called (Exec.ticks count machine).2.bus (driven.map BusEvent.tick) :=
  RecordedBus.called_ticks (·.bus) (fun state => (Exec.tick state).2)
    (fun count state => (Exec.ticks count state).2) (fun _ => rfl) (fun _ _ => rfl) bus_tick
    count machine

theorem called_account (limit : Nat) :
    ∃ driven : List (Option (UInt8 × LineState)), driven.length = machine.tickTotal limit ∧
      machine.worked.bus.Called (Exec.iterate limit machine).2.bus
        (driven.map BusEvent.tick) := by
  rw [iterate_snd]
  exact (Exec.charge (Exec.iterate limit machine).1 machine.worked).2.called_ticks
    (machine.tickTotal limit)

/-- On the bus an iteration first acknowledges what it services, and ends with the ticks that its
cycles complete. -/
theorem heard_iterate (limit : Nat) :
    machine.bus.Heard (Exec.iterate limit machine).2.bus machine.acknowledged
      (machine.tickTotal limit) := by
  obtain ⟨driven, hlength, hcalled⟩ := machine.called_account limit
  refine ⟨driven, hlength, ?_⟩
  rw [← machine.signals_checked, ← machine.signals_worked]
  exact hcalled.signals_eq_of_ticks

end Machine

end TmsCores.Tms7000
