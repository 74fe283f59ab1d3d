import TmsCores.Bus.Flat
import TmsCores.Bus.Recorded
import TmsCores.Proofs.Stepping
import TmsCores.Proofs.Tms7000.TimeSlicing
import TmsCores.Proofs.Tms9900.TimeSlicing

namespace TmsCores

namespace Tms9900.Exec

variable {β : Type} [Bus β] {machine : Machine β}

/-- Outside of its rest a processor takes no notice of the limit. -/
theorem iterate_eq_step (hwakeable : machine.cpu.Wakeable) (h : ¬machine.cpu.Resting)
    (limit : Nat) : iterate limit machine = step machine := by
  rw [step, iterate_of_not_resting hwakeable h, iterate_of_not_resting hwakeable h]

end Tms9900.Exec

namespace Tms7000.Exec

variable {β : Type} [Bus β] {machine : Machine β}

theorem iterate_eq_step (h : ¬machine.cpu.Resting) (limit : Nat) :
    iterate limit machine = step machine := by
  rw [step, iterate_of_not_resting h, iterate_of_not_resting h]

end Tms7000.Exec

/-- A run over steps serves each budget by as few steps as reach it.  The run of a processor is the
run over its steps, as long as neither of them begins an iteration in which the processor rests, and
it uses up just its budget when it ends with such an iteration. -/
theorem run_loops_agree :
    (∀ {σ : Type} {I : σ → Prop} {step : σ → Nat × σ},
      (∀ state, I state → 0 < (step state).1 ∧ I (step state).2) →
        ∀ (budgets : List UInt32) {state : σ}, I state →
          ∃ counts final,
            session (RunLoop.runSteps step) budgets state = some (counts, final) ∧
            RunLoop.Serves step budgets state counts final) ∧
    (∀ {β : Type} [Bus β] {config : Tms9900.Config} {machine : Tms9900.Machine (RecordedBus β)},
      machine.Reachable config → ∀ budget : UInt32,
        ((∀ consumed state,
            RunLoop.Begins Tms9900.Exec.iterate budget.toNat machine consumed state →
              ¬state.cpu.Resting) ∨
          (∀ consumed state,
            RunLoop.Begins (fun _ => Tms9900.Exec.step) budget.toNat machine consumed state →
              ¬state.cpu.Resting) →
          machine.run budget = RunLoop.runSteps Tms9900.Exec.step budget machine) ∧
        ∀ consumed last,
          RunLoop.Begins Tms9900.Exec.iterate budget.toNat machine consumed last →
          last.cpu.Resting →
          budget.toNat ≤ consumed + (Tms9900.Exec.iterate (budget.toNat - consumed) last).1 →
            machine.run budget =
              some (budget.toNat, (Tms9900.Exec.iterate (budget.toNat - consumed) last).2)) ∧
    (∀ {β : Type} [Bus β] {config : Tms7000.Config} {machine : Tms7000.Machine (RecordedBus β)},
      machine.Reachable config → ∀ budget : UInt32,
        ((∀ consumed state,
            RunLoop.Begins Tms7000.Exec.iterate budget.toNat machine consumed state →
              ¬state.cpu.Resting) ∨
          (∀ consumed state,
            RunLoop.Begins (fun _ => Tms7000.Exec.step) budget.toNat machine consumed state →
              ¬state.cpu.Resting) →
          machine.run budget = RunLoop.runSteps Tms7000.Exec.step budget machine) ∧
        ∀ consumed last,
          RunLoop.Begins Tms7000.Exec.iterate budget.toNat machine consumed last →
          last.cpu.Resting →
          budget.toNat ≤ consumed + (Tms7000.Exec.iterate (budget.toNat - consumed) last).1 →
            machine.run budget =
              some (budget.toNat, (Tms7000.Exec.iterate (budget.toNat - consumed) last).2)) := by
  refine ⟨RunLoop.exists_serves, ?_, ?_⟩
  · intro β _ config machine hreachable budget
    have hwakeable {iterate : Nat → Tms9900.Machine (RecordedBus β) → _}
        (hkeeps : ∀ limit machine, machine.cpu.Wakeable → (iterate limit machine).2.cpu.Wakeable)
        {consumed : Nat} {state : Tms9900.Machine (RecordedBus β)}
        (h : RunLoop.Begins iterate budget.toNat machine consumed state) : state.cpu.Wakeable :=
      h.keeps (I := (·.cpu.Wakeable)) hkeeps hreachable.wakeable
    refine ⟨?_, fun consumed last hbegins hresting hdone => ?_⟩
    · rintro (hawake | hawake)
      · refine RunLoop.run_eq_of_begins fun consumed state h => ?_
        exact Tms9900.Exec.iterate_eq_step (hwakeable Tms9900.Exec.iterate_keeps_wakeable h)
          (hawake consumed state h) _
      · refine (RunLoop.run_eq_of_begins fun consumed state h => ?_).symm
        exact (Tms9900.Exec.iterate_eq_step
          (hwakeable (fun _ => Tms9900.Exec.iterate_keeps_wakeable _) h)
          (hawake consumed state h) _).symm
    · refine hbegins.run_eq hdone ?_
      have hopen := hbegins.consumed_lt
      rw [Tms9900.Exec.iterate_of_resting hresting]
      dsimp only
      omega
  · intro β _ config machine _ budget
    refine ⟨?_, fun consumed last hbegins hresting hdone => ?_⟩
    · rintro (hawake | hawake)
      · refine RunLoop.run_eq_of_begins fun consumed state h => ?_
        exact Tms7000.Exec.iterate_eq_step (hawake consumed state h) _
      · refine (RunLoop.run_eq_of_begins fun consumed state h => ?_).symm
        exact (Tms7000.Exec.iterate_eq_step (hawake consumed state h) _).symm
    · refine hbegins.run_eq hdone ?_
      have hopen := hbegins.consumed_lt
      rw [Tms7000.Exec.iterate_of_resting hresting]
      dsimp only
      omega

/-- The program is one IDLE. -/
theorem run_loops_agree_until_idle :
    (let machine : Tms9900.Machine (RecordedBus FlatBus) :=
        ⟨.ofConfig Tms9900.Variant.tms9900.config, { memory := Memory.zero.pokeWord 0 0x0340 }, []⟩
      ∃ final, machine.run 12 = RunLoop.runSteps Tms9900.Exec.step 12 machine ∧
        machine.run 14 = some (14, final)) ∧
    (let machine : Tms7000.Machine (RecordedBus FlatBus) :=
        ⟨{ cpu := (Tms7000.Cpu.ofVariant .tms7000).setPc 0x1000 },
          { memory := Memory.zero.poke 0x1000 0x01 }, []⟩
      ∃ final, machine.run 6 = RunLoop.runSteps Tms7000.Exec.step 6 machine ∧
        machine.run 14 = some (14, final) ∧
        ∃ counts last,
          session (RunLoop.runSteps Tms7000.Exec.step) [5, 0, 7] machine = some (counts, last) ∧
          RunLoop.Serves Tms7000.Exec.step [5, 0, 7] machine counts last) := by
  constructor
  · intro machine
    have hreachable : machine.Reachable Tms9900.Variant.tms9900.config := .create
    have hagree := run_loops_agree.2.1 hreachable
    have hstart : RunLoop.Begins Tms9900.Exec.iterate 14 machine 0 machine := .first (by decide)
    have hbegins := hstart.next (by decide +kernel)
    have hresting : (Tms9900.Exec.iterate 14 machine).2.cpu.Resting :=
      ⟨by decide +kernel, by decide +kernel, by decide +kernel⟩
    refine ⟨_, (hagree 12).1 (.inl fun consumed state h => ?_),
      (hagree 14).2 _ _ hbegins hresting (by decide +kernel)⟩
    obtain ⟨-, rfl⟩ := h.eq_first (by decide +kernel) (by decide)
    exact nofun
  · intro machine
    let new : Tms7000.Machine (RecordedBus FlatBus) :=
      ⟨.ofConfig Tms7000.Variant.tms7000.config, machine.bus⟩
    have hnew : new.Reachable Tms7000.Variant.tms7000.config := .create
    have hsetPc : new.perform (.setPc 0x1000) = some (.done, machine) := rfl
    have hreachable := hnew.perform (by nofun) hsetPc
    have hagree := run_loops_agree.2.2 hreachable
    have hstart : RunLoop.Begins Tms7000.Exec.iterate 14 machine 0 machine := .first (by decide)
    have hbegins := hstart.next (by decide +kernel)
    have hresting : (Tms7000.Exec.iterate 14 machine).2.cpu.Resting :=
      ⟨by decide +kernel, by decide +kernel⟩
    have hquantised := Tms7000.Exec.iterate_quantised (β := RecordedBus FlatBus)
      (by nofun : Tms7000.Variant.tms7000.config.illegal ≠ .ignore 0)
    refine ⟨_, (hagree 6).1 (.inr fun consumed state h => ?_),
      (hagree 14).2 _ _ hbegins hresting (by decide +kernel), ?_⟩
    · obtain ⟨-, rfl⟩ := h.eq_first (by decide +kernel) (by decide)
      exact nofun
    · exact run_loops_agree.1 (fun state hstate =>
        ⟨hquantised.divisible.progress _ state hstate (by decide), hquantised.keeps _ state hstate⟩)
        [5, 0, 7] hreachable.isConsistent

end TmsCores
