import TmsCores.Bus.Flat
import TmsCores.Bus.Timed
import TmsCores.Proofs.Tms7000.WaitStates
import TmsCores.Proofs.Tms9900.BusAccess
import TmsCores.Proofs.Tms9900.WaitStates

namespace TmsCores

/-- Buses that answer alike, except that one may be slower, make no difference to a processor but for
the time.  Until the cycles of an iteration are accounted for, both get the same calls in the same
order and leave the processor in the same state.  The cycles are those of the iteration itself, the
wait states, and for some processors the penalty for each byte of memory that is transferred.  What
lies on the chip is not charged for at all. -/
theorem wait_states_change_only_time {β γ : Type} [Bus β] [Bus γ] {S : β → γ → Prop}
    (hS : Bus.SameData S) (limit : Nat) :
    (∀ {m : Tms9900.Machine (RecordedBus β)} {n : Tms9900.Machine (RecordedBus γ)},
      m.cpu = n.cpu → S m.bus.inner n.bus.inner →
        (∃ calls calls',
          m.bus.Called m.worked.bus calls ∧ n.bus.Called n.worked.bus calls' ∧
          calls.map BusEvent.unwaited = calls'.map BusEvent.unwaited ∧
          let own := m.ownCycles limit +
            m.cpu.config.byteAccessCycles.toNat * BusEvent.transfers calls
          (Tms9900.Exec.iterate limit m).1 = own + BusEvent.waits calls ∧
          (Tms9900.Exec.iterate limit n).1 = own + BusEvent.waits calls') ∧
        m.worked.cpu = n.worked.cpu ∧
        (Tms9900.Exec.iterate limit m).2 =
          (Tms9900.Exec.account (Tms9900.Exec.iterate limit m).1 m.worked).2 ∧
        (Tms9900.Exec.iterate limit n).2 =
          (Tms9900.Exec.account (Tms9900.Exec.iterate limit n).1 n.worked).2) ∧
    (∀ {machine : Tms9900.Machine (RecordedBus β)}, machine.cpu.config.onChip = true →
      machine.AnswersOnChip) ∧
    (∀ {m : Tms7000.Machine (RecordedBus β)} {n : Tms7000.Machine (RecordedBus γ)},
      m.cpu = n.cpu → S m.bus.inner n.bus.inner →
        (∃ calls calls',
          m.bus.Called m.worked.bus calls ∧ n.bus.Called n.worked.bus calls' ∧
          calls.map BusEvent.unwaited = calls'.map BusEvent.unwaited ∧
          (Tms7000.Exec.iterate limit m).1 = m.ownCycles limit + BusEvent.waits calls ∧
          (Tms7000.Exec.iterate limit n).1 = m.ownCycles limit + BusEvent.waits calls') ∧
        m.worked.cpu = n.worked.cpu ∧
        (Tms7000.Exec.iterate limit m).2 =
          (Tms7000.Exec.account (Tms7000.Exec.iterate limit m).1 m.worked).2 ∧
        (Tms7000.Exec.iterate limit n).2 =
          (Tms7000.Exec.account (Tms7000.Exec.iterate limit n).1 n.worked).2) := by
  refine ⟨?_, Tms9900.Machine.answersOnChip, ?_⟩
  · intro m n hcpu hinner
    exact ⟨Tms9900.Machine.iterate_fst_of_alike hS hcpu hinner limit,
      (Tms9900.Machine.alike_worked hS hcpu hinner).cpu_eq,
      m.iterate_snd limit, n.iterate_snd limit⟩
  · intro m n hcpu hinner
    exact ⟨Tms7000.Machine.iterate_fst_of_alike hS hcpu hinner limit,
      (Tms7000.Machine.alike_worked hS hcpu hinner).cpu_eq,
      m.iterate_snd limit, n.iterate_snd limit⟩

theorem DelayedBus.sameData (β : Type) [Bus β] :
    Bus.SameData fun (bus : β) (delayed : DelayedBus β) => delayed.inner = bus where
  read := by
    rintro bus ⟨_, waits⟩ rfl address
    exact ⟨rfl, rfl⟩
  write := by
    rintro bus ⟨_, waits⟩ rfl address value
    rfl
  ioRead := by
    rintro bus ⟨_, waits⟩ rfl address
    exact ⟨rfl, rfl⟩
  ioWrite := by
    rintro bus ⟨_, waits⟩ rfl address value
    rfl
  acknowledge := by
    rintro bus ⟨_, waits⟩ rfl line
    rfl
  idleChanged := by
    rintro bus ⟨_, waits⟩ rfl idle
    rfl

/-- A memory that takes three wait states for every read, and the same memory without them. -/
theorem wait_states_change_only_time_on_slow_memory :
    let waits : Access → UInt32 → UInt8 := fun access _ => if access = .read then 3 else 0
    (let fast : Tms9900.Machine (RecordedBus FlatBus) :=
        ⟨.ofConfig Tms9900.Variant.tms9980A.config, { memory := Memory.zero.pokeWord 0 0x0200 }, []⟩
      let slow : Tms9900.Machine (RecordedBus (DelayedBus FlatBus)) :=
        ⟨fast.toProcessor, ⟨fast.bus.inner, waits⟩, []⟩
      fast.worked.cpu = slow.worked.cpu ∧
        (Tms9900.Exec.iterate 100 slow).1 = (Tms9900.Exec.iterate 100 fast).1 + 12) ∧
    (let fast : Tms7000.Machine (RecordedBus FlatBus) :=
        ⟨.ofConfig Tms7000.Variant.tms7000.config, { memory := Memory.zero.poke 0x1000 0x8A }, []⟩
      let start : Tms7000.Machine (RecordedBus FlatBus) := (Tms7000.Exec.setPc 0x1000 fast).2
      let slow : Tms7000.Machine (RecordedBus (DelayedBus FlatBus)) :=
        ⟨start.toProcessor, ⟨start.bus.inner, waits⟩, []⟩
      start.worked.cpu = slow.worked.cpu ∧
        (Tms7000.Exec.iterate 100 slow).1 = (Tms7000.Exec.iterate 100 start).1 + 9) := by
  intro waits
  have hsame := DelayedBus.sameData FlatBus
  constructor
  · intro fast slow
    have hworked := (wait_states_change_only_time hsame 100).1 (m := fast) (n := slow) rfl rfl
    exact ⟨hworked.2.1, by decide +kernel⟩
  · intro fast start slow
    have hworked := (wait_states_change_only_time hsame 100).2.2 (m := start) (n := slow) rfl rfl
    exact ⟨hworked.2.1, by decide +kernel⟩

end TmsCores
