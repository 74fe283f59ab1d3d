import TmsCores.Proofs.Text.StatePath
import TmsCores.Proofs.Tms7000.Consistency
import TmsCores.Proofs.Tms7000.InstructionLength
import TmsCores.Tms7000.Inspection

namespace TmsCores.Tms7000

theorem Path.parse?_of_register? {path : String} {number : Nat}
    (h : StatePath.register? path.toList = some number) :
    parse? path = some (.register number) := by
  have hnamed : named.lookup path = none := StatePath.lookup_of_register? (by decide) h
  rw [parse?, hnamed, Option.none_or, numbered?, h]

theorem Cpu.query_register (number : Nat) (cpu : Cpu) :
    cpu.query ("r" ++ toString number) = (cpu.register? number).map .byte := by
  rw [query, Path.parse?_of_register? (StatePath.register?_toString number)]
  rfl

variable {β : Type} [Bus β] {machine : Machine β}

namespace Exec

theorem execute_of_ahead {instruction : Instruction} (h : machine.ahead = some instruction) :
    (execute machine).2 = (perform instruction (fetch machine).2).2 := by
  rw [Machine.ahead, Option.map_eq_some_iff] at h
  obtain ⟨entry, hentry, rfl⟩ := h
  rw [execute, bind_snd, hentry]
  rfl

theorem register_perform_movp {destination : Accumulator} (hfile : 2 ≤ machine.cpu.file.size) :
    (perform (.movp destination) machine).2.cpu.register destination.number.toNat =
      (readPeripheral (fetch machine).1 (fetch machine).2).1 := by
  generalize hread : readPeripheral (fetch machine).1 (fetch machine).2 = loaded
  have hcpu : loaded.2.cpu.file = machine.cpu.file := by
    rw [← hread, readPeripheral, cpu_readAt, cpu_fetch]
    rfl
  have hnumber : destination.number.toNat < loaded.2.cpu.file.size := by
    rw [hcpu]
    cases destination with
    | a | b => exact Nat.lt_of_lt_of_le (by decide) hfile
  rw [perform, bind_snd, bind_of_eq hread]
  exact (loaded.2.cpu.register_setRegister hnumber loaded.1 _).trans (if_pos rfl)

end Exec

namespace Machine

/-- What a debugger is shown is what the program sees. -/
structure ShowsTruly (machine : Machine β) : Prop where
  /-- MOVP loads IOCNT0 as it is shown. -/
  interruptControl : ∃ value, machine.cpu.query "iocnt0" = some (.byte value) ∧
    Exec.readPeripheral 0 machine = (value, machine) ∧
    ∀ destination, machine.ahead = some (.movp destination) →
      (Exec.fetch (Exec.fetch machine).2).1 = 0 →
      (Exec.execute machine).2.cpu.register destination.number.toNat = value
  /-- A register is shown as it is read, and not shown if it does not exist. -/
  registers : ∀ number : UInt16,
    (∃ value, machine.cpu.query ("r" ++ toString number.toNat) = some (.byte value) ∧
      machine.cpu.read? (.r number) = .ok value.toUInt16) ∨
    machine.cpu.query ("r" ++ toString number.toNat) = none ∧
      machine.cpu.read? (.r number) = .error ⟨.r number⟩

theorem showsTruly {config : Config} (h : machine.cpu.IsConsistent config) :
    machine.ShowsTruly := by
  constructor
  case interruptControl =>
    refine ⟨machine.cpu.interruptControl, rfl, rfl, fun destination hahead hnumber => ?_⟩
    have hfile : 2 ≤ (Exec.fetch machine).2.cpu.file.size := by
      rw [Exec.cpu_fetch]
      exact h.file_size ▸ config.registerCount_clamp.1
    rw [Exec.execute_of_ahead hahead, Exec.register_perform_movp hfile, hnumber]
    change (Exec.fetch (Exec.fetch machine).2).2.cpu.interruptControl = _
    rw [Exec.cpu_fetch, Exec.cpu_fetch]
    rfl
  case registers =>
    intro number
    rw [Cpu.query_register, Cpu.read?, Cpu.readByte?]
    cases machine.cpu.register? number.toNat with
    | some value => exact .inl ⟨value, rfl, rfl⟩
    | none => exact .inr ⟨rfl, rfl⟩

end Machine

end TmsCores.Tms7000
