import TmsCores.Bus.Flat
import TmsCores.Bus.Recorded
import TmsCores.Proofs.Tms7000.TimeSlicing
import TmsCores.Proofs.Tms9900.TimeSlicing

namespace TmsCores

/-- It does not show whether a processor runs in one piece or in two: the cycles, the calls to the
bus and what is left in the end are the same.  When the first piece goes beyond the whole budget,
it is the whole run. -/
theorem run_sliced :
    (∀ {β : Type} [Bus β] {config : Tms9900.Config} {machine : Tms9900.Machine (RecordedBus β)},
      machine.Reachable config → config.illegal ≠ .ignore 0 →
        ∀ {first budget : UInt32}, first ≤ budget →
          ∃ reached middle, machine.run first = some (reached, middle) ∧
            (budget.toNat ≤ reached → machine.run budget = some (reached, middle)) ∧
            (reached < budget.toNat → ∃ more final,
              middle.run (budget - UInt32.ofNat reached) = some (more, final) ∧
              machine.run budget = some (min (reached + more) RunLoop.cycleCap, final))) ∧
    (∀ {β : Type} [Bus β] {config : Tms7000.Config} {machine : Tms7000.Machine (RecordedBus β)},
      machine.Reachable config → config.illegal ≠ .ignore 0 →
        ∀ {first budget : UInt32}, first ≤ budget →
          ∃ reached middle, machine.run first = some (reached, middle) ∧
            (budget.toNat ≤ reached → machine.run budget = some (reached, middle)) ∧
            (reached < budget.toNat → ∃ more final,
              middle.run (budget - UInt32.ofNat reached) = some (more, final) ∧
              machine.run budget = some (min (reached + more) RunLoop.cycleCap, final))) := by
  constructor
  · intro β _ config machine hreachable hcost first budget hfirst
    have hdivisible := (Tms9900.Exec.iterate_quantised (β := RecordedBus β) hcost).divisible
    obtain ⟨reached, middle, hrun, _, hslices⟩ :=
      hdivisible.run_slice hfirst ⟨hreachable.isConsistent, hreachable.wakeable⟩
    exact ⟨reached, middle, hrun, hslices⟩
  · intro β _ config machine hreachable hcost first budget hfirst
    have hdivisible := (Tms7000.Exec.iterate_quantised (β := RecordedBus β) hcost).divisible
    obtain ⟨reached, middle, hrun, _, hslices⟩ :=
      hdivisible.run_slice hfirst hreachable.isConsistent
    exact ⟨reached, middle, hrun, hslices⟩

/-- The program is one IDLE, and the first piece ends between two ticks of the peripheral clock. -/
theorem run_sliced_while_idle :
    (let machine : Tms9900.Machine (RecordedBus FlatBus) :=
        ⟨.ofConfig Tms9900.Variant.tms9900.config, { memory := Memory.zero.pokeWord 0 0x0340 }, []⟩
      ∃ middle more final, machine.run 14 = some (14, middle) ∧
        middle.run 6 = some (more, final) ∧
        machine.run 20 = some (min (14 + more) RunLoop.cycleCap, final)) ∧
    (let machine : Tms7000.Machine (RecordedBus FlatBus) :=
        ⟨{ cpu := (Tms7000.Cpu.ofVariant .tms7000).setPc 0x1000 },
          { memory := Memory.zero.poke 0x1000 0x01 }, []⟩
      ∃ middle more final, machine.run 14 = some (14, middle) ∧
        middle.run 6 = some (more, final) ∧
        machine.run 20 = some (min (14 + more) RunLoop.cycleCap, final)) := by
  constructor
  · intro machine
    have hreachable : machine.Reachable Tms9900.Variant.tms9900.config := .create
    have hpiece : (14 : UInt32) ≤ 20 := by decide
    obtain ⟨reached, middle, hrun, _, hslices⟩ := run_sliced.1 hreachable nofun hpiece
    have hreached : (machine.run 14).map Prod.fst = some (12 + 2) :=
      RunLoop.run_fst_of_two (by decide +kernel) (by decide) (by decide +kernel) (by decide)
        (by decide)
    rw [hrun] at hreached
    cases hreached
    obtain ⟨more, final, hmore, hwhole⟩ := hslices (by decide)
    exact ⟨middle, more, final, hrun, hmore, hwhole⟩
  · intro machine
    let new : Tms7000.Machine (RecordedBus FlatBus) :=
      ⟨.ofConfig Tms7000.Variant.tms7000.config, machine.bus⟩
    have hnew : new.Reachable Tms7000.Variant.tms7000.config := .create
    have hsetPc : new.perform (.setPc 0x1000) = some (.done, machine) := by
      rfl
    have hpiece : (14 : UInt32) ≤ 20 := by decide
    obtain ⟨reached, middle, hrun, _, hslices⟩ :=
      run_sliced.2 (hnew.perform (by nofun) hsetPc) nofun hpiece
    have hreached : (machine.run 14).map Prod.fst = some (6 + 8) :=
      RunLoop.run_fst_of_two (by decide +kernel) (by decide) (by decide +kernel) (by decide)
        (by decide)
    rw [hrun] at hreached
    cases hreached
    obtain ⟨more, final, hmore, hwhole⟩ := hslices (by decide)
    exact ⟨middle, more, final, hrun, hmore, hwhole⟩

end TmsCores
