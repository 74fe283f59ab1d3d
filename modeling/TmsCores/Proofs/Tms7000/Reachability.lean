import TmsCores.Proofs.Tms7000.Consistency
import TmsCores.Proofs.Tms7000.Snapshot

namespace TmsCores.Tms7000

namespace Machine

variable {β : Type} [Bus β] {machine : Machine β} {bytes : List UInt8}

theorem perform_restore_ok {saved : Cpu} (h : machine.cpu.restore bytes = .ok saved) :
    machine.perform (.restore bytes) =
      some (.restored (.ok ()), { machine with cpu := saved }) := by
  rw [perform, restore, h]

theorem perform_restore_error {error : RestoreError Config}
    (h : machine.cpu.restore bytes = .error error) :
    machine.perform (.restore bytes) = some (.restored (.error error), machine) := by
  rw [perform, restore, h]

theorem bus_of_perform_restore {answer : Answer MissingRegister Config} {next : Machine β}
    (h : machine.perform (.restore bytes) = some (answer, next)) : next.bus = machine.bus := by
  cases hrestore : machine.cpu.restore bytes with
  | ok saved =>
      rw [perform_restore_ok hrestore] at h
      obtain ⟨_, rfl⟩ := Prod.mk.inj (Option.some.inj h)
      rfl
  | error error =>
      rw [perform_restore_error hrestore] at h
      obtain ⟨_, rfl⟩ := Prod.mk.inj (Option.some.inj h)
      rfl

/-- A restore of a saved state either brings that state back or changes nothing. -/
theorem cpu_of_perform_restore {saved : Cpu} (hsaved : saved.IsStorable)
    {answer : Answer MissingRegister Config} {next : Machine β}
    (h : machine.perform (.restore saved.save) = some (answer, next)) :
    next.cpu = saved ∨ next.cpu = machine.cpu := by
  have hrestore := machine.cpu.restore_save hsaved
  split at hrestore
  · rw [perform_restore_ok hrestore] at h
    obtain ⟨_, rfl⟩ := Prod.mk.inj (Option.some.inj h)
    exact .inl rfl
  · rw [perform_restore_error hrestore] at h
    obtain ⟨_, rfl⟩ := Prod.mk.inj (Option.some.inj h)
    exact .inr rfl

end Machine

namespace Processor

/-- The states in which a host can find a processor made for a configuration: whatever buses it has
been on, whatever it was asked to do there, and whatever states saved from such processors it was
put into. -/
inductive Reachable (config : Config) : Processor → Prop
  | create : Reachable config (.ofConfig config)
  | perform {β : Type} [Bus β] {machine next : Machine β} {operation : Operation Register}
      {answer : Answer MissingRegister Config} (hmachine : Reachable config machine.toProcessor)
      (hoperation : ∀ bytes, operation ≠ .restore bytes)
      (hperform : machine.perform operation = some (answer, next)) :
      Reachable config next.toProcessor
  | restore {β : Type} [Bus β] {machine next : Machine β} {saved : Processor}
      {answer : Answer MissingRegister Config} (hmachine : Reachable config machine.toProcessor)
      (hsaved : Reachable config saved)
      (hperform : machine.perform (.restore saved.cpu.save) = some (answer, next)) :
      Reachable config next.toProcessor

end Processor

theorem Cpu.IsConsistent.isStorable {config : Config} {cpu : Cpu}
    (h : cpu.IsConsistent config) : cpu.IsStorable := by
  constructor
  · rw [h.file_size]
    exact Nat.lt_trans config.clamp.registerCount.toNat_lt (by decide)
  · rw [h.size_interrupts]
    decide

namespace Processor.Reachable

variable {config : Config} {processor : Processor}

theorem isConsistent (h : Reachable config processor) : processor.cpu.IsConsistent config := by
  induction h with
  | create => exact Cpu.ofConfig_isConsistent config
  | perform _ hoperation hperform ih =>
      exact (Cpu.isConsistent_stable config).perform hoperation ih hperform
  | restore _ _ hperform ih ihSaved =>
      rcases Machine.cpu_of_perform_restore ihSaved.isStorable hperform with hcpu | hcpu
      · rw [hcpu]
        exact ihSaved
      · rw [hcpu]
        exact ih

variable {β : Type} [Bus β] {machine : Machine β}

theorem reset (h : machine.Reachable config) : (Exec.reset machine).2.Reachable config := by
  have hreset : machine.perform .reset = some (.done, (Exec.reset machine).2) := rfl
  exact h.perform (by nofun) hreset

theorem step (h : machine.Reachable config) : (Exec.step machine).2.Reachable config := by
  have hstep : machine.perform .step =
      some (.cycles (Exec.step machine).1, (Exec.step machine).2) := rfl
  exact h.perform (by nofun) hstep

theorem drive (h : machine.Reachable config) (line : UInt8) (state : LineState) :
    { machine with cpu := machine.cpu.drive line state : Machine β }.Reachable config := by
  have hdrive : machine.perform (.drive line state) =
      some (.done, { machine with cpu := machine.cpu.drive line state }) := rfl
  exact h.perform (by nofun) hdrive

theorem setPc (h : machine.Reachable config) (pc : UInt16) :
    { machine with cpu := machine.cpu.setPc pc : Machine β }.Reachable config := by
  have hsetPc : machine.perform (.setPc pc) =
      some (.done, { machine with cpu := machine.cpu.setPc pc }) := rfl
  exact h.perform (by nofun) hsetPc

end Processor.Reachable

end TmsCores.Tms7000
