import TmsCores.Proofs.History
import TmsCores.Proofs.Tms7000.Reachability
import TmsCores.Proofs.Tms7000.Signals

namespace TmsCores.Tms7000

variable {β : Type} [Bus β]

namespace Machine

/-- Takes a turn, and returns the cycles of an iteration.  What the host does takes none. -/
def take : Turn Register β → Machine (RecordedBus β) → Nat × Machine (RecordedBus β)
  | .iterate limit, machine => Exec.iterate limit machine
  | .drive line state, machine => (0, { machine with cpu := machine.cpu.drive line state })
  | .setPc pc, machine => (0, { machine with cpu := machine.cpu.setPc pc })
  | .read _, machine => (0, machine)
  | .write register value, machine => (0, (machine.write? register value).2)
  | .touch change, machine => (0, { machine with bus.inner := change machine.bus.inner })

def after (machine : Machine (RecordedBus β)) (turns : List (Turn Register β)) :
    Machine (RecordedBus β) :=
  (History.play take turns machine).2

def pass : Stage Register β → Machine (RecordedBus β) → Nat × Machine (RecordedBus β)
  | .turn turn, machine => take turn machine
  | .reset, machine => (0, (Exec.reset machine).2)

def through (machine : Machine (RecordedBus β)) (stages : List (Stage Register β)) :
    Machine (RecordedBus β) :=
  (History.play pass stages machine).2

/-- Freshly made, or right after a reset. -/
def IsFresh (config : Config) (machine : Machine β) : Prop :=
  machine.toProcessor = .ofConfig config ∨
    ∃ before : Machine β, before.toProcessor.Reachable config ∧ machine = (Exec.reset before).2

end Machine

/-- What the host does between two iterations keeps what it does not destroy by driving a line or by
loading the status register. -/
theorem Cpu.RegisterStable.intervene {P : Cpu → Prop} (h : RegisterStable P)
    (hdrive : ∀ {cpu}, P cpu → ∀ line state, P (cpu.drive line state))
    {turn : Turn Register β} (hturn : turn.IsIntervention)
    (hload : ∀ value, turn = .write .st value → ∀ {cpu}, P cpu →
      P { cpu with st := value.toUInt8 &&& Status.mask })
    {machine : Machine (RecordedBus β)} (hmachine : P machine.cpu) :
    P (Machine.take turn machine).2.cpu := by
  cases turn with
  | iterate limit => exact absurd hturn id
  | drive line state => exact hdrive hmachine line state
  | setPc pc => exact h.setPc hmachine pc
  | read register => exact hmachine
  | touch change => exact hmachine
  | write register value =>
      exact h.write?_keeps (fun hst => hload value (hst ▸ rfl)) machine hmachine

namespace Machine

variable {machine : Machine (RecordedBus β)}

theorem has_after {P : Cpu → Prop} (h : Cpu.Stable P) (hmachine : P machine.cpu)
    (turns : List (Turn Register β)) : P (machine.after turns).cpu := by
  refine History.play_keeps (I := Machine.Has P) (fun turn machine hmachine => ?_) hmachine turns
  rcases turn.eq_iterate_or_isIntervention with ⟨limit, rfl⟩ | hturn
  · exact h.iterate_keeps limit machine hmachine
  · exact h.toRegisterStable.intervene h.drive hturn (fun _ _ _ hcpu => h.setSt hcpu (.mask _))
      hmachine

theorem isConsistent_after {config : Config} (h : machine.cpu.IsConsistent config)
    (turns : List (Turn Register β)) : (machine.after turns).cpu.IsConsistent config :=
  has_after (Cpu.isConsistent_stable config) h turns

theorem take_fst_of_isIntervention {turn : Turn Register β} (hturn : turn.IsIntervention) :
    (take turn machine).1 = 0 := by
  cases turn with
  | iterate limit => exact absurd hturn id
  | drive | setPc | read | write | touch => rfl

theorem record_intervene {turn : Turn Register β} (hturn : turn.IsIntervention) :
    (take turn machine).2.bus.record = machine.bus.record := by
  cases turn with
  | iterate limit => exact absurd hturn id
  | drive | setPc | read | touch => rfl
  | write register value =>
      rw [take, write?]
      cases machine.cpu.write? register value with
      | ok cpu => rfl
      | error error => rfl

theorem run_unrolls {budget : UInt32} {count : Nat} {next : Machine (RecordedBus β)}
    (h : machine.run budget = some (count, next)) :
    ∃ limits, RunLoop.Unrolls Exec.iterate budget.toNat 0 machine limits ∧
      count = min (History.play take (limits.map .iterate) machine).1 RunLoop.cycleCap ∧
      next = machine.after (limits.map .iterate) := by
  have htake : (fun limit => take (β := β) (.iterate limit)) = Exec.iterate := rfl
  exact RunLoop.run_unrolls htake h

theorem exists_after_of_perform {operation : Operation Register} (hreset : operation ≠ .reset)
    (hrestore : ∀ bytes, operation ≠ .restore bytes) {answer : Answer MissingRegister Config}
    {next : Machine (RecordedBus β)} (h : machine.perform operation = some (answer, next)) :
    ∃ turns, next = machine.after turns := by
  cases operation with
  | reset => exact absurd rfl hreset
  | restore bytes => exact absurd rfl (hrestore bytes)
  | step =>
      obtain ⟨_, rfl⟩ := Prod.mk.inj (Option.some.inj h)
      exact ⟨[.iterate RunLoop.cycleCap], rfl⟩
  | run budget =>
      obtain ⟨⟨count, final⟩, hrun, hfinal⟩ := Option.bind_eq_some_iff.mp h
      obtain ⟨_, rfl⟩ := Prod.mk.inj (Option.some.inj hfinal)
      obtain ⟨limits, _, _, hnext⟩ := run_unrolls hrun
      exact ⟨limits.map .iterate, hnext⟩
  | drive line state =>
      obtain ⟨_, rfl⟩ := Prod.mk.inj (Option.some.inj h)
      exact ⟨[.drive line state], rfl⟩
  | setPc pc =>
      obtain ⟨_, rfl⟩ := Prod.mk.inj (Option.some.inj h)
      exact ⟨[.setPc pc], rfl⟩
  | read register =>
      obtain ⟨_, rfl⟩ := Prod.mk.inj (Option.some.inj h)
      exact ⟨[.read register], rfl⟩
  | write register value =>
      obtain ⟨_, rfl⟩ := Prod.mk.inj (Option.some.inj h)
      exact ⟨[.write register value], rfl⟩
  | query | save =>
      obtain ⟨_, rfl⟩ := Prod.mk.inj (Option.some.inj h)
      exact ⟨[], rfl⟩

/-- A session without resets and restores is a history. -/
theorem exists_after_of_session {operations : List (Operation Register)}
    (hoperations : ∀ operation ∈ operations,
      operation ≠ .reset ∧ ∀ bytes, operation ≠ .restore bytes)
    {answers : List (Answer MissingRegister Config)} {final : Machine (RecordedBus β)}
    (h : session perform operations machine = some (answers, final)) :
    ∃ turns, final = machine.after turns := by
  refine History.exists_play_of_session (fun operation hoperation state answer next => ?_) h
  obtain ⟨hreset, hrestore⟩ := hoperations operation hoperation
  exact exists_after_of_perform hreset hrestore

theorem through_map_turn (turns : List (Turn Register β)) :
    machine.through (turns.map .turn) = machine.after turns := by
  rw [through, History.play_map]
  rfl

theorem exists_through_of_session {operations : List (Operation Register)}
    (hoperations : ∀ operation ∈ operations, ∀ bytes, operation ≠ .restore bytes)
    {answers : List (Answer MissingRegister Config)} {final : Machine (RecordedBus β)}
    (h : session perform operations machine = some (answers, final)) :
    ∃ stages, final = machine.through stages := by
  refine History.exists_play_of_session (fun operation hoperation state answer next hnext => ?_) h
  by_cases hreset : operation = .reset
  · subst hreset
    obtain ⟨_, rfl⟩ := Prod.mk.inj (Option.some.inj hnext)
    exact ⟨[.reset], rfl⟩
  · obtain ⟨turns, rfl⟩ :=
      exists_after_of_perform hreset (hoperations operation hoperation) hnext
    exact ⟨turns.map .turn, (through_map_turn turns).symm⟩

theorem isConsistent_pass {config : Config} (h : machine.cpu.IsConsistent config)
    (stage : Stage Register β) : (pass stage machine).2.cpu.IsConsistent config := by
  cases stage with
  | turn turn => exact isConsistent_after h [turn]
  | reset => exact (Cpu.isConsistent_stable config).toServiceStable.reset h.powerUp

theorem isConsistent_through {config : Config} (h : machine.cpu.IsConsistent config)
    (stages : List (Stage Register β)) : (machine.through stages).cpu.IsConsistent config :=
  History.play_keeps (I := Machine.Has (Cpu.IsConsistent config))
    (fun stage _ hstate => isConsistent_pass hstate stage) h stages

end Machine

end TmsCores.Tms7000
