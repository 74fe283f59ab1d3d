import TmsCores.Bus.Flat
import TmsCores.Bus.Recorded
import TmsCores.Bus.Timed
import TmsCores.Proofs.Tms7000.Restoration
import TmsCores.Proofs.Tms9900.Restoration

namespace TmsCores

open MessagePack

/-- A processor restored from a snapshot of another one cannot be told from it, whatever host and
bus do from then on. -/
theorem restored_like_saved :
    (∀ {config config' : Tms9900.Config} {saved other : Tms9900.Processor},
      saved.Reachable config → other.Reachable config' → saved.cpu.config = other.cpu.config →
        (∀ {β : Type} [Bus β] (bus : β),
          Tms9900.Machine.perform (.restore saved.cpu.save) ⟨other, bus⟩ =
            some (.restored (.ok ()), ⟨{ other with cpu := saved.cpu }, bus⟩)) ∧
        ∀ {β : Type} [Bus β] (bus : RecordedBus β)
          (moves : List (HostMove Tms9900.Register (RecordedBus β))),
          Tms9900.Machine.sight moves ⟨{ other with cpu := saved.cpu }, bus⟩ =
            Tms9900.Machine.sight moves ⟨saved, bus⟩) ∧
    (∀ {config config' : Tms7000.Config} {saved other : Tms7000.Processor},
      saved.Reachable config → other.Reachable config' → saved.cpu.config = other.cpu.config →
        (∀ {β : Type} [Bus β] (bus : β),
          Tms7000.Machine.perform (.restore saved.cpu.save) ⟨other, bus⟩ =
            some (.restored (.ok ()), ⟨{ other with cpu := saved.cpu }, bus⟩)) ∧
        ∀ {β : Type} [Bus β] (bus : RecordedBus β)
          (moves : List (HostMove Tms7000.Register (RecordedBus β))),
          Tms7000.Machine.sight moves ⟨{ other with cpu := saved.cpu }, bus⟩ =
            Tms7000.Machine.sight moves ⟨saved, bus⟩) := by
  constructor
  · intro config config' saved other hsaved hother hconfig
    constructor
    · intro β _ bus
      exact hsaved.perform_restore_save hother hconfig bus
    · intro β _ bus moves
      exact Tms9900.Machine.sight_eq moves ⟨rfl, rfl⟩
  · intro config config' saved other hsaved hother hconfig
    constructor
    · intro β _ bus
      exact hsaved.perform_restore_save hother hconfig bus
    · intro β _ bus moves
      exact Tms7000.Machine.sight_eq moves ⟨rfl, rfl⟩

/-- Of the one an instruction has been executed.  What the other has met before does not show: wait
states and, on a TMS9900, the word that a comparison of bytes has read. -/
theorem restored_like_saved_after_waits :
    (∃ saved other : Tms9900.Processor,
      saved.cpu.pc = 2 ∧ other.wait = 6 ∧ other.operandWord = some (0x0000, 0x9000) ∧
      (∀ bus : RecordedBus FlatBus,
        Tms9900.Machine.perform (.restore saved.cpu.save) ⟨other, bus⟩ =
          some (.restored (.ok ()), ⟨{ other with cpu := saved.cpu }, bus⟩)) ∧
      ∀ (bus : RecordedBus FlatBus) (moves : List (HostMove Tms9900.Register (RecordedBus FlatBus))),
        Tms9900.Machine.sight moves ⟨{ other with cpu := saved.cpu }, bus⟩ =
          Tms9900.Machine.sight moves ⟨saved, bus⟩) ∧
    (∃ saved other : Tms7000.Processor,
      saved.cpu.pc = 1 ∧ other.wait = 2 ∧
      (∀ bus : RecordedBus FlatBus,
        Tms7000.Machine.perform (.restore saved.cpu.save) ⟨other, bus⟩ =
          some (.restored (.ok ()), ⟨{ other with cpu := saved.cpu }, bus⟩)) ∧
      ∀ (bus : RecordedBus FlatBus) (moves : List (HostMove Tms7000.Register (RecordedBus FlatBus))),
        Tms7000.Machine.sight moves ⟨{ other with cpu := saved.cpu }, bus⟩ =
          Tms7000.Machine.sight moves ⟨saved, bus⟩) := by
  constructor
  · let compare : FlatBus := { memory := Memory.zero.pokeWord 0x0000 0x9000 }
    let fast : Tms9900.Machine FlatBus :=
      ⟨.ofConfig Tms9900.Variant.tms9900.config, compare⟩
    let slow : Tms9900.Machine (DelayedBus FlatBus) :=
      ⟨.ofConfig Tms9900.Variant.tms9900.config, compare, fun _ _ => 1⟩
    have hfast : fast.Reachable Tms9900.Variant.tms9900.config := .create
    have hslow : slow.Reachable Tms9900.Variant.tms9900.config := .create
    have hsaved := hfast.step
    have hother := hslow.step
    have hrestored := restored_like_saved.1 hsaved hother (by decide +kernel)
    exact ⟨_, _, by decide +kernel, by decide +kernel, by decide +kernel,
      fun bus => hrestored.1 bus, fun bus moves => hrestored.2 bus moves⟩
  · let fast : Tms7000.Machine FlatBus := ⟨.ofConfig Tms7000.Variant.tms7000.config, {}⟩
    let slow : Tms7000.Machine (DelayedBus FlatBus) :=
      ⟨.ofConfig Tms7000.Variant.tms7000.config, {}, fun _ _ => 1⟩
    have hfast : fast.Reachable Tms7000.Variant.tms7000.config := .create
    have hslow : slow.Reachable Tms7000.Variant.tms7000.config := .create
    have hsaved := hfast.step
    have hother := hslow.reset
    have hrestored := restored_like_saved.2 hsaved hother (by decide +kernel)
    exact ⟨_, _, by decide +kernel, by decide +kernel, fun bus => hrestored.1 bus,
      fun bus moves => hrestored.2 bus moves⟩

/-- What a snapshot holds is read back as it was saved, fits exactly the processors of the same
configuration, and is not found in anything shorter.  A restore that fails has no effect. -/
theorem snapshot_exact :
    (∀ {config config' : Tms9900.Config} {saved other : Tms9900.Processor},
      saved.Reachable config → other.Reachable config' →
        (Value.read? saved.cpu.save).bind Tms9900.Cpu.ofValue? = some saved.cpu ∧
        ∀ {β : Type} [Bus β] (bus : β),
          (saved.cpu.config = other.cpu.config → ∃ restored : Tms9900.Processor,
            Tms9900.Machine.perform (.restore saved.cpu.save) ⟨other, bus⟩ =
              some (.restored (.ok ()), ⟨restored, bus⟩) ∧
            restored.cpu.save = saved.cpu.save) ∧
          (saved.cpu.config ≠ other.cpu.config →
            Tms9900.Machine.perform (.restore saved.cpu.save) ⟨other, bus⟩ =
              some (.restored (.error (.mismatch saved.cpu.config other.cpu.config)),
                ⟨other, bus⟩)) ∧
          (∀ bytes more, bytes ++ more = saved.cpu.save → more ≠ [] →
            Tms9900.Machine.perform (.restore bytes) ⟨other, bus⟩ =
              some (.restored (.error .unreadable), ⟨other, bus⟩)) ∧
          ∀ bytes error next,
            Tms9900.Machine.perform (.restore bytes) ⟨other, bus⟩ =
              some (.restored (.error error), next) → next = ⟨other, bus⟩) ∧
    (∀ {config config' : Tms7000.Config} {saved other : Tms7000.Processor},
      saved.Reachable config → other.Reachable config' →
        (Value.read? saved.cpu.save).bind Tms7000.Cpu.ofValue? = some saved.cpu ∧
        ∀ {β : Type} [Bus β] (bus : β),
          (saved.cpu.config = other.cpu.config → ∃ restored : Tms7000.Processor,
            Tms7000.Machine.perform (.restore saved.cpu.save) ⟨other, bus⟩ =
              some (.restored (.ok ()), ⟨restored, bus⟩) ∧
            restored.cpu.save = saved.cpu.save) ∧
          (saved.cpu.config ≠ other.cpu.config →
            Tms7000.Machine.perform (.restore saved.cpu.save) ⟨other, bus⟩ =
              some (.restored (.error (.mismatch saved.cpu.config other.cpu.config)),
                ⟨other, bus⟩)) ∧
          (∀ bytes more, bytes ++ more = saved.cpu.save → more ≠ [] →
            Tms7000.Machine.perform (.restore bytes) ⟨other, bus⟩ =
              some (.restored (.error .unreadable), ⟨other, bus⟩)) ∧
          ∀ bytes error next,
            Tms7000.Machine.perform (.restore bytes) ⟨other, bus⟩ =
              some (.restored (.error error), next) → next = ⟨other, bus⟩) := by
  constructor
  · intro config config' saved other hsaved hother
    refine ⟨hsaved.read?_save, fun {β} _ bus => ⟨?_, ?_, ?_, ?_⟩⟩
    · intro hconfig
      exact ⟨_, hsaved.perform_restore_save hother hconfig bus, rfl⟩
    · intro hconfig
      exact hsaved.perform_restore_mismatch hother hconfig bus
    · intro bytes more hsplit hmore
      exact hsaved.perform_restore_of_prefix hsplit hmore _
    · intro bytes error next hrestore
      exact Tms9900.Machine.eq_of_restore_error hrestore
  · intro config config' saved other hsaved hother
    refine ⟨hsaved.read?_save, fun {β} _ bus => ⟨?_, ?_, ?_, ?_⟩⟩
    · intro hconfig
      exact ⟨_, hsaved.perform_restore_save hother hconfig bus, rfl⟩
    · intro hconfig
      exact hsaved.perform_restore_mismatch hother hconfig bus
    · intro bytes more hsplit hmore
      exact hsaved.perform_restore_of_prefix hsplit hmore _
    · intro bytes error next hrestore
      exact Tms7000.Machine.eq_of_restore_error hrestore

/-- A new TMS9995 takes what another one has saved, but not without the last byte, and not what a
TMS9900 has saved.  A TMS7040 does the same with what a TMS7020 has saved. -/
theorem snapshot_exact_of_new :
    (let saved := Tms9900.Processor.ofConfig Tms9900.Variant.tms9900.config
      let other := Tms9900.Processor.ofConfig Tms9900.Variant.tms9995.config
      let bus : FlatBus := {}
      (∃ restored : Tms9900.Processor,
        Tms9900.Machine.perform (.restore saved.cpu.save) ⟨saved, bus⟩ =
          some (.restored (.ok ()), ⟨restored, bus⟩) ∧ restored.cpu.save = saved.cpu.save) ∧
      Tms9900.Machine.perform (.restore saved.cpu.save) ⟨other, bus⟩ =
        some (.restored (.error (.mismatch saved.cpu.config other.cpu.config)), ⟨other, bus⟩) ∧
      ∃ next, Tms9900.Machine.perform (.restore saved.cpu.save.dropLast) ⟨saved, bus⟩ =
        some (.restored (.error .unreadable), next) ∧ next = ⟨saved, bus⟩) ∧
    (let saved := Tms7000.Processor.ofConfig Tms7000.Variant.tms7020.config
      let other := Tms7000.Processor.ofConfig Tms7000.Variant.tms7040.config
      let bus : FlatBus := {}
      (∃ restored : Tms7000.Processor,
        Tms7000.Machine.perform (.restore saved.cpu.save) ⟨saved, bus⟩ =
          some (.restored (.ok ()), ⟨restored, bus⟩) ∧ restored.cpu.save = saved.cpu.save) ∧
      Tms7000.Machine.perform (.restore saved.cpu.save) ⟨other, bus⟩ =
        some (.restored (.error (.mismatch saved.cpu.config other.cpu.config)), ⟨other, bus⟩) ∧
      ∃ next, Tms7000.Machine.perform (.restore saved.cpu.save.dropLast) ⟨saved, bus⟩ =
        some (.restored (.error .unreadable), next) ∧ next = ⟨saved, bus⟩) := by
  constructor
  · intro saved other bus
    have hsaved : saved.Reachable Tms9900.Variant.tms9900.config := .create
    have hother : other.Reachable Tms9900.Variant.tms9995.config := .create
    have hsame := (snapshot_exact.1 hsaved hsaved).2 bus
    have hdifferent := (snapshot_exact.1 hsaved hother).2 bus
    have hnonempty : saved.cpu.save ≠ [] := by decide +kernel
    have hcut := hsame.2.2.1 _ _ (List.dropLast_concat_getLast hnonempty) (List.cons_ne_nil _ _)
    exact ⟨hsame.1 rfl, hdifferent.2.1 (by decide), _, hcut, hsame.2.2.2 _ _ _ hcut⟩
  · intro saved other bus
    have hsaved : saved.Reachable Tms7000.Variant.tms7020.config := .create
    have hother : other.Reachable Tms7000.Variant.tms7040.config := .create
    have hsame := (snapshot_exact.2 hsaved hsaved).2 bus
    have hdifferent := (snapshot_exact.2 hsaved hother).2 bus
    have hnonempty : saved.cpu.save ≠ [] := by decide +kernel
    have hcut := hsame.2.2.1 _ _ (List.dropLast_concat_getLast hnonempty) (List.cons_ne_nil _ _)
    exact ⟨hsame.1 rfl, hdifferent.2.1 (by decide), _, hcut, hsame.2.2.2 _ _ _ hcut⟩

end TmsCores
