import TmsCores.Bus.Flat
import TmsCores.Proofs.Tms7000.TimeSlicing
import TmsCores.Proofs.Tms9900.TimeSlicing

namespace TmsCores

/-- Every step takes time, and every run ends with its budget used up, unless illegal opcodes cost
nothing. -/
theorem step_progresses {β : Type} [Bus β] (budget : UInt32) :
    (∀ {config : Tms9900.Config} {machine : Tms9900.Machine β},
      machine.Reachable config → config.illegal ≠ .ignore 0 →
        1 ≤ (Tms9900.Exec.step machine).1 ∧
        ∃ count final, machine.run budget = some (count, final) ∧ budget.toNat ≤ count) ∧
    (∀ {config : Tms7000.Config} {machine : Tms7000.Machine β},
      machine.Reachable config → config.illegal ≠ .ignore 0 →
        1 ≤ (Tms7000.Exec.step machine).1 ∧
        ∃ count final, machine.run budget = some (count, final) ∧ budget.toNat ≤ count) := by
  have hlimit : 0 < RunLoop.cycleCap := by decide
  have hcap : budget.toNat ≤ RunLoop.cycleCap := Nat.le_of_lt_succ budget.toNat_lt
  constructor
  · intro config machine hreachable hcost
    have hdivisible := (Tms9900.Exec.iterate_quantised (β := β) hcost).divisible
    have hmachine := And.intro hreachable.isConsistent hreachable.wakeable
    exact ⟨hdivisible.progress RunLoop.cycleCap machine hmachine hlimit,
      hdivisible.loop_ends hcap 0 hmachine⟩
  · intro config machine hreachable hcost
    have hdivisible := (Tms7000.Exec.iterate_quantised (β := β) hcost).divisible
    have hmachine := hreachable.isConsistent
    exact ⟨hdivisible.progress RunLoop.cycleCap machine hmachine hlimit,
      hdivisible.loop_ends hcap 0 hmachine⟩

/-- A memory of zeros holds illegal opcodes for the one processor, and NOPs for the other. -/
theorem step_progresses_in_empty_memory :
    (let machine : Tms9900.Machine FlatBus := ⟨.ofConfig Tms9900.Variant.tms9900.config, {}⟩
      ∃ count final, machine.run 100 = some (count, final) ∧ 100 ≤ count ∧
        1 ≤ (Tms9900.Exec.step machine).1) ∧
    (let machine : Tms7000.Machine FlatBus := ⟨.ofConfig Tms7000.Variant.tms7000.config, {}⟩
      ∃ count final, machine.run 100 = some (count, final) ∧ 100 ≤ count ∧
        1 ≤ (Tms7000.Exec.step machine).1) := by
  constructor
  · intro machine
    have hreachable : machine.Reachable Tms9900.Variant.tms9900.config := .create
    obtain ⟨hstep, count, final, hrun, hcount⟩ := (step_progresses 100).1 hreachable nofun
    exact ⟨count, final, hrun, hcount, hstep⟩
  · intro machine
    have hreachable : machine.Reachable Tms7000.Variant.tms7000.config := .create
    obtain ⟨hstep, count, final, hrun, hcount⟩ := (step_progresses 100).2 hreachable nofun
    exact ⟨count, final, hrun, hcount, hstep⟩

namespace Tms9900

/-- A configuration that ignores illegal opcodes at no cost. -/
def Config.freeIllegal : Config :=
  { Variant.tms9900.config with illegal := .ignore 0 }

/-- A machine in the middle of a memory of zeros, none of which is an instruction. -/
def Machine.adrift (pc : UInt16) : Machine FlatBus :=
  ⟨{ cpu := { Cpu.ofConfig .freeIllegal with pc := pc } }, {}⟩

namespace Exec

open Machine

variable (pc : UInt16)

theorem busRead_adrift (address : UInt16) : busRead address (adrift pc) = (0, adrift pc) := by
  have hzero : Memory.zero.peek (address &&& 0xFFFF).toUInt32.toUInt16 = 0 :=
    ByteTree.get_fill 0 16 _
  have hread : busRead address (adrift pc) =
      (Memory.zero.peek (address &&& 0xFFFF).toUInt32.toUInt16, adrift pc) := rfl
  rw [hread, hzero]

theorem readWord_adrift (address : UInt16) : readWord address (adrift pc) = (0, adrift pc) := by
  have hread : readWord address (adrift pc) = (do
      let hi ← busRead (Word.even address)
      let lo ← busRead (Word.even address ||| 1)
      return Word.ofBytes hi lo : Exec FlatBus UInt16) (adrift pc) := rfl
  rw [hread, bind_of_eq (busRead_adrift pc _), bind_of_eq (busRead_adrift pc _)]
  rfl

theorem fetch_adrift : fetch (adrift pc) = (0, adrift (pc + 2)) := by
  rw [fetch, cpu_bind, bind_of_eq (readWord_adrift pc _)]
  rfl

theorem execute_adrift : execute (adrift pc) = (0, adrift (pc + 2)) := by
  have hset : (adrift (pc + 2)).cpu.config.instructionSet = .tms9900 := rfl
  have hillegal : Instruction.ofOpcode? .tms9900 0 = none := by decide
  rw [execute, bind_of_eq (fetch_adrift pc), executeOpcode.eq_def, cpu_bind]
  dsimp only
  rw [hset, hillegal]
  rfl

theorem account_adrift : account 0 (adrift pc) = ((), adrift pc) := by
  have hquiet : (adrift pc).cpu.advance 0 = (0, (adrift pc).cpu) := by
    have hphase : (adrift pc).cpu.divider.InPhase := TickDivider.ofDivisor_inPhase _
    rw [Cpu.advance, hphase.advance_zero, CycleCount.advance_zero]
  have hcharge : charge 0 (adrift pc) = (0, adrift pc) := by
    change (((adrift pc).cpu.advance 0).1,
      { adrift pc with cpu := ((adrift pc).cpu.advance 0).2 }) = _
    rw [hquiet]
  rw [account, bind_of_eq hcharge]
  rfl

theorem iterate_adrift (limit : Nat) : iterate limit (adrift pc) = (0, adrift (pc + 2)) := by
  have hwork : iterate limit (adrift pc) = work 0 (adrift pc) := rfl
  rw [hwork, work, bind_of_eq (execute_adrift pc), get_bind]
  exact bind_of_eq (account_adrift (pc + 2))

end Exec

theorem Machine.run_adrift (pc : UInt16) {budget : UInt32} (hbudget : 0 < budget) :
    (adrift pc).run budget = none := by
  refine RunLoop.loop_eq_none (I := fun machine => ∃ pc, machine = adrift pc) ?_ ⟨pc, rfl⟩
    (UInt32.lt_iff_toNat_lt.mp hbudget) (Nat.le_of_lt_succ budget.toNat_lt)
  -- The program counter wraps around, so that the machine drifts on for ever.
  rintro limit _ ⟨pc, rfl⟩
  rw [Exec.iterate_adrift]
  exact ⟨rfl, pc + 2, rfl⟩

end Tms9900

namespace Tms7000

/-- A configuration that ignores illegal opcodes at no cost. -/
def Config.freeIllegal : Config :=
  { Variant.tms7000.config with illegal := .ignore 0 }

/-- A new machine before an opcode that is not an instruction. -/
def Machine.beforeIllegal : Machine FlatBus :=
  ⟨{ cpu := (Cpu.ofConfig .freeIllegal).setPc 0x1000 }, { memory := Memory.zero.poke 0x1000 0x02 }⟩

theorem Machine.beforeIllegal_reachable : beforeIllegal.Reachable .freeIllegal := by
  let new : Machine FlatBus :=
    ⟨.ofConfig .freeIllegal, { memory := Memory.zero.poke 0x1000 0x02 }⟩
  have hnew : new.Reachable .freeIllegal := .create
  have hsetPc : new.perform (.setPc 0x1000) = some (.done, beforeIllegal) := rfl
  exact hnew.perform (by nofun) hsetPc

end Tms7000

/-- With illegal opcodes that cost nothing a step may take no time, and a run may never end. -/
theorem step_stalls_on_free_illegal :
    (Tms9900.Machine.adrift 0).Reachable .freeIllegal ∧
      (Tms9900.Exec.step (Tms9900.Machine.adrift 0)).1 = 0 ∧
      (Tms9900.Machine.adrift 0).run 1 = none ∧
      Tms7000.Machine.beforeIllegal.Reachable .freeIllegal ∧
      (Tms7000.Exec.step Tms7000.Machine.beforeIllegal).1 = 0 := by
  refine ⟨.create, ?_, Tms9900.Machine.run_adrift 0 (by decide),
    Tms7000.Machine.beforeIllegal_reachable, by decide +kernel⟩
  rw [Tms9900.Exec.step, Tms9900.Exec.iterate_adrift]

end TmsCores
