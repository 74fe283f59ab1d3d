import TmsCores.Proofs.Tms9900.Consistency
import TmsCores.Proofs.Tms9900.IdleExclusion
import TmsCores.Proofs.Tms9900.Snapshot

namespace TmsCores.Tms9900

namespace Machine

variable {β : Type} [Bus β] {machine : Machine β} {bytes : List UInt8}

theorem perform_restore_ok {saved : Cpu} (h : machine.cpu.restore bytes = .ok saved) :
    machine.perform (.restore bytes) =
      some (.restored (.ok ()), { machine with cpu := saved }) := by
  rw [perform, restore, h]

theorem perform_restore_error {error : RestoreError Config}
    (h : machine.cpu.restore bytes = .error error) :
    machine.perform (.restore bytes) = some (.restored (.error error), machine) := by
  rw [perform, restore, h]

theorem bus_of_perform_restore {answer : Answer MissingRegister Config} {next : Machine β}
    (h : machine.perform (.restore bytes) = some (answer, next)) : next.bus = machine.bus := by
  cases hrestore : machine.cpu.restore bytes with
  | ok saved =>
      rw [perform_restore_ok hrestore] at h
      obtain ⟨_, rfl⟩ := Prod.mk.inj (Option.some.inj h)
      rfl
  | error error =>
      rw [perform_restore_error hrestore] at h
      obtain ⟨_, rfl⟩ := Prod.mk.inj (Option.some.inj h)
      rfl

/-- A restore of a saved state either brings that state back or changes nothing. -/
theorem cpu_of_perform_restore {saved : Cpu} (hsaved : saved.IsStorable)
    {answer : Answer MissingRegister Config} {next : Machine β}
    (h : machine.perform (.restore saved.save) = some (answer, next)) :
    next.cpu = saved ∨ next.cpu = machine.cpu := by
  have hrestore := machine.cpu.restore_save hsaved
  split at hrestore
  · rw [perform_restore_ok hrestore] at h
    obtain ⟨_, rfl⟩ := Prod.mk.inj (Option.some.inj h)
    exact .inl rfl
  · rw [perform_restore_error hrestore] at h
    obtain ⟨_, rfl⟩ := Prod.mk.inj (Option.some.inj h)
    exact .inr rfl

end Machine

namespace Processor

/-- The states in which a host can find a processor made for a configuration: whatever buses it has
been on, whatever it was asked to do there, and whatever states saved from such processors it was
put into. -/
inductive Reachable (config : Config) : Processor → Prop
  | create : Reachable config (.ofConfig config)
  | perform {β : Type} [Bus β] {machine next : Machine β} {operation : Operation Register}
      {answer : Answer MissingRegister Config} (hmachine : Reachable config machine.toProcessor)
      (hoperation : ∀ bytes, operation ≠ .restore bytes)
      (hperform : machine.perform operation = some (answer, next)) :
      Reachable config next.toProcessor
  | restore {β : Type} [Bus β] {machine next : Machine β} {saved : Processor}
      {answer : Answer MissingRegister Config} (hmachine : Reachable config machine.toProcessor)
      (hsaved : Reachable config saved)
      (hperform : machine.perform (.restore saved.cpu.save) = some (answer, next)) :
      Reachable config next.toProcessor

end Processor

namespace Cpu

variable {config : Config} {cpu : Cpu}

theorem IsConsistent.size_interrupts (h : cpu.IsConsistent config) :
    cpu.interrupts.size = config.levels.toNat + 1 := by
  rw [← InterruptController.length_configs, h.configs_eq]
  simp [lineConfigs]

theorem IsConsistent.size_interrupts_le (h : cpu.IsConsistent config) :
    cpu.interrupts.size ≤ 256 := by
  rw [h.size_interrupts]
  exact config.levels.toNat_lt

theorem IsConsistent.isStorable (h : cpu.IsConsistent config) : cpu.IsStorable := by
  constructor
  · rw [h.ram_size]
    decide
  · exact Nat.lt_of_le_of_lt h.size_interrupts_le (by decide)

end Cpu

namespace Processor.Reachable

variable {config : Config} {processor : Processor}

theorem induct {P : Cpu → Prop} (hcreate : P (.ofConfig config)) (hstable : Cpu.HostStable P)
    (hiterate : ∀ {β : Type} [Bus β] limit,
      Keeps (Machine.Has P : Machine β → Prop) (Exec.iterate limit))
    (h : Reachable config processor) : processor.cpu.IsConsistent config ∧ P processor.cpu := by
  induction h with
  | create => exact ⟨Cpu.ofConfig_isConsistent config, hcreate⟩
  | perform _ hoperation hperform ih =>
      have hconsistent := Cpu.isConsistent_hostStable config
      constructor
      · refine hconsistent.perform ?_ hoperation ih.1 hperform
        exact hconsistent.iterate_keeps (fun h => { h with }) (fun h => { h with })
      · exact hstable.perform hiterate hoperation ih.2 hperform
  | restore _ _ hperform ih ihSaved =>
      rcases Machine.cpu_of_perform_restore ihSaved.1.isStorable hperform with hcpu | hcpu
      · rw [hcpu]
        exact ihSaved
      · rw [hcpu]
        exact ih

theorem wakeable (h : Reachable config processor) : processor.cpu.Wakeable :=
  (h.induct nofun Cpu.wakeable_hostStable Exec.iterate_keeps_wakeable).2

theorem isConsistent (h : Reachable config processor) : processor.cpu.IsConsistent config :=
  (h.induct nofun Cpu.wakeable_hostStable Exec.iterate_keeps_wakeable).1

/-- A host can put a processor wherever it likes in a program. -/
theorem place {β : Type} [Bus β] {machine : Machine β} (h : machine.Reachable config)
    (wp pc st : UInt16) :
    { machine with
      cpu := ((machine.cpu.setWp wp).setPc pc).setSt st : Machine β }.Reachable config := by
  let moved : Machine β := { machine with cpu := machine.cpu.setWp wp }
  let placed : Machine β := { moved with cpu := moved.cpu.setPc pc }
  have hwp : machine.perform (.write .wp wp) = some (.written (.ok ()), moved) := rfl
  have hpc : moved.perform (.setPc pc) = some (.done, placed) := rfl
  have hst : placed.perform (.write .st st) =
      some (.written (.ok ()), { placed with cpu := placed.cpu.setSt st }) := rfl
  exact ((h.perform (by nofun) hwp).perform (by nofun) hpc).perform (by nofun) hst

variable {β : Type} [Bus β] {machine : Machine β}

theorem reset (h : machine.Reachable config) : (Exec.reset machine).2.Reachable config := by
  have hreset : machine.perform .reset = some (.done, (Exec.reset machine).2) := rfl
  exact h.perform (by nofun) hreset

theorem step (h : machine.Reachable config) : (Exec.step machine).2.Reachable config := by
  have hstep : machine.perform .step =
      some (.cycles (Exec.step machine).1, (Exec.step machine).2) := rfl
  exact h.perform (by nofun) hstep

end Processor.Reachable

end TmsCores.Tms9900
