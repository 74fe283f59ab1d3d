import TmsCores.Proofs.Tms9900.Comparison
import TmsCores.Proofs.Tms9900.RegisterPair
import TmsCores.Proofs.Tms9900.WaitStates

namespace TmsCores.Tms9900

/-- What a shift makes of a word all at once, and the bit that it shifts out last. -/
def ShiftOperation.Makes (operation : ShiftOperation) (count : Nat) (value result : UInt16)
    (carry : Bool) : Prop :=
  match operation with
  | .sra =>
      Width.word.signed result = Width.word.signed value / 2 ^ count ∧
        carry = decide (Width.word.signed value / 2 ^ (count - 1) % 2 = 1)
  | .srl => result.toNat = value.toNat / 2 ^ count ∧ carry = value.toNat.testBit (count - 1)
  | .sla =>
      result.toNat = value.toNat * 2 ^ count % 2 ^ 16 ∧ carry = value.toNat.testBit (16 - count)
  | .src =>
      result.toBitVec = value.toBitVec.rotateRight (count % 16) ∧
        carry = value.toNat.testBit ((count - 1) % 16)

namespace Shifted

variable (shifted : Shifted) (count : Nat)

theorem shift_succ (operation : ShiftOperation) :
    shift operation (count + 1) shifted = (shift operation count shifted).shiftOnce operation := by
  induction count generalizing shifted with
  | zero => rfl
  | succ count ih => exact ih (shifted.shiftOnce operation)

theorem signed_value_sra :
    Width.word.signed (shifted.shiftOnce .sra).value = Width.word.signed shifted.value / 2 := by
  have hlt : shifted.value.toNat < 65536 := shifted.value.toNat_lt
  -- The sign bit is put back on top of the lower half of all words.
  have hhalf : shifted.value.toNat / 2 < 2 ^ 15 := by omega
  have hsign : (shifted.value &&& 0x8000).toNat =
      (Width.word.isNegative shifted.value).toNat * 2 ^ 15 := by
    rw [UInt16.toNat_and]
    exact Nat.and_two_pow _ 15
  have hvalue : (shifted.shiftOnce .sra).value.toNat =
      2 ^ 15 * (Width.word.isNegative shifted.value).toNat + shifted.value.toNat / 2 := by
    change ((shifted.value >>> 1) ||| (shifted.value &&& 0x8000)).toNat = _
    rw [UInt16.toNat_or, Word.toNat_shiftRight_one, hsign, Nat.or_comm, Nat.mul_comm,
      Nat.two_pow_add_eq_or_of_lt hhalf]
  rcases Width.word.signed_cases shifted.value with ⟨hv, hlv, hsv⟩ | ⟨hv, hlv, hltv, hsv⟩ <;>
    rcases Width.word.signed_cases (shifted.shiftOnce .sra).value with
      ⟨_, hld, hsd⟩ | ⟨_, hld, hltd, hsd⟩ <;>
    rw [hv] at hvalue <;> rw [hsv, hsd] <;>
    simp only [Width.size, Width.bits, Bool.toNat_false, Bool.toNat_true] at * <;> omega

theorem testBit_value_src {i : Nat} (hi : i < 16) :
    (shifted.shiftOnce .src).value.toNat.testBit i =
      shifted.value.toNat.testBit ((i + 1) % 16) := by
  have hlt : shifted.value.toNat < 2 ^ 16 := shifted.value.toNat_lt
  change ((shifted.value >>> 1) ||| (shifted.value <<< 15)).toNat.testBit i = _
  rw [UInt16.toNat_or, UInt16.toNat_shiftRight, UInt16.toNat_shiftLeft, Nat.testBit_or,
    Nat.testBit_mod_two_pow]
  change ((shifted.value.toNat >>> 1).testBit i ||
    (decide (i < 16) && (shifted.value.toNat <<< 15).testBit i)) = _
  rw [Nat.testBit_shiftRight, Nat.testBit_shiftLeft]
  by_cases hlast : i = 15
  · -- Only here is it the other half of the rotation that counts.
    subst hlast
    rw [Nat.testBit_lt_two_pow hlt]
    rfl
  · rw [Nat.mod_eq_of_lt (by omega), Nat.add_comm, decide_eq_false (by omega : ¬i ≥ 15)]
    simp

theorem signed_value_shift_sra :
    Width.word.signed (shift .sra count shifted).value =
      Width.word.signed shifted.value / 2 ^ count := by
  induction count with
  | zero => exact (Int.ediv_one _).symm
  | succ count ih =>
      rw [shift_succ, signed_value_sra, ih, Int.pow_succ,
        Int.ediv_ediv_of_nonneg (Int.pow_nonneg (by decide))]

theorem toNat_value_shift_srl :
    (shift .srl count shifted).value.toNat = shifted.value.toNat / 2 ^ count := by
  induction count with
  | zero => exact (Nat.div_one _).symm
  | succ count ih =>
      rw [shift_succ, Nat.pow_succ, ← Nat.div_div_eq_div_mul, ← ih]
      exact Word.toNat_shiftRight_one _

theorem toNat_value_shift_sla :
    (shift .sla count shifted).value.toNat = shifted.value.toNat * 2 ^ count % 2 ^ 16 := by
  induction count with
  | zero =>
      rw [Nat.pow_zero, Nat.mul_one]
      exact (Nat.mod_eq_of_lt shifted.value.toNat_lt).symm
  | succ count ih =>
      rw [shift_succ, Nat.pow_succ, ← Nat.mul_assoc]
      refine (toNat_shiftLeft_one _).trans ?_
      rw [ih]
      exact Nat.mod_mul_mod ..

theorem testBit_value_shift_src {i : Nat} (hi : i < 16) :
    (shift .src count shifted).value.toNat.testBit i =
      shifted.value.toNat.testBit ((i + count) % 16) := by
  induction count generalizing i with
  | zero => rw [Nat.add_zero, Nat.mod_eq_of_lt hi, shift]
  | succ count ih =>
      rw [shift_succ, testBit_value_src _ hi, ih (Nat.mod_lt _ (by decide)), Nat.mod_add_mod,
        Nat.add_right_comm, Nat.add_assoc]

theorem toBitVec_value_shift_src :
    (shift .src count shifted).value.toBitVec =
      shifted.value.toBitVec.rotateRight (count % 16) := by
  apply BitVec.eq_of_getLsbD_eq
  intro i hi
  have hbit := testBit_value_shift_src shifted count hi
  rw [BitVec.getLsbD_rotateRight]
  change (shift .src count shifted).value.toNat.testBit i = bif _ then
    shifted.value.toNat.testBit _ else decide (i < 16) && shifted.value.toNat.testBit _
  rw [hbit]
  by_cases hlow : i < 16 - count % 16 % 16
  · rw [decide_eq_true hlow, cond_true]
    congr 1
    omega
  · rw [decide_eq_false hlow, cond_false, decide_eq_true hi, Bool.true_and]
    congr 1
    omega

/-- The loop over single bits comes to the closed form, and its carry is that of its last step. -/
theorem makes_shift (operation : ShiftOperation) (value : UInt16) (hcount : 1 ≤ count)
    (hle : count ≤ 16) :
    operation.Makes count value (shift operation count { value := value }).value
      (shift operation count { value := value }).carry := by
  -- The carry is a bit of what is left before the last step, which has a closed form of its own.
  obtain ⟨before, rfl⟩ := Nat.exists_eq_add_of_le' hcount
  cases operation with
  | sra =>
      refine ⟨signed_value_shift_sra _ _, ?_⟩
      have hbefore := signed_value_shift_sra { value := value } before
      rw [shift_succ, Nat.add_sub_cancel, ← hbefore]
      refine (Word.and_one_ne _).trans ?_
      rw [Nat.testBit_zero, decide_eq_decide]
      rcases Width.word.signed_cases (shift .sra before { value := value }).value with
        ⟨_, hlt, hsigned⟩ | ⟨_, hle, hlt, hsigned⟩ <;>
          rw [hsigned] <;> simp only [Width.size, Width.bits] at * <;> omega
  | srl =>
      refine ⟨toNat_value_shift_srl _ _, ?_⟩
      rw [shift_succ, Nat.add_sub_cancel]
      refine (Word.and_one_ne _).trans ?_
      rw [toNat_value_shift_srl, Nat.testBit_div_two_pow, Nat.zero_add]
  | sla =>
      refine ⟨toNat_value_shift_sla _ _, ?_⟩
      rw [shift_succ]
      refine (Width.word.signBit_and_ne _).trans ?_
      change (shift .sla before { value := value }).value.toNat.testBit 15 = _
      rw [toNat_value_shift_sla, Nat.testBit_mod_two_pow, Nat.testBit_mul_two_pow]
      rw [decide_eq_true (by decide), decide_eq_true (by omega), Bool.true_and, Bool.true_and]
      exact congrArg _ (by omega)
  | src =>
      refine ⟨toBitVec_value_shift_src _ _, ?_⟩
      rw [shift_succ, Nat.add_sub_cancel]
      refine (Word.and_one_ne _).trans ?_
      rw [testBit_value_shift_src _ _ (by decide), Nat.zero_add]

end Shifted

namespace Status

def afterShift (st : UInt16) (operation : ShiftOperation) (shifted : Shifted) : UInt16 :=
  let compared := Word.withBit (compareZero st shifted.value .word) carry shifted.carry
  if operation = .sla then Word.withBit compared overflow shifted.overflow else compared

variable (st : UInt16) (operation : ShiftOperation) (shifted : Shifted)

theorem compares_afterShift :
    Compares (afterShift st operation shifted) (.ofResult .word shifted.value) := by
  have hcarry : carry &&& comparison = 0 := by decide
  have hcompares := (compares_compareZero st shifted.value .word).withBit hcarry shifted.carry
  rw [afterShift]
  split
  · exact hcompares.withBit (by decide) _
  · exact hcompares

theorem has_carry_afterShift :
    has (afterShift st operation shifted) carry = shifted.carry := by
  rw [afterShift]
  split
  · rw [has_withBit_of_disjoint (by decide), has_withBit (by decide)]
  · exact has_withBit (by decide) _ _

theorem has_overflow_afterShift :
    has (afterShift st .sla shifted) overflow = shifted.overflow :=
  has_withBit (by decide) _ _

theorem changes_afterShift :
    Changes ((Instruction.shift operation).statusBits .word) (afterShift · operation shifted) := by
  have hcarry {bits : UInt16} (hcomparison : comparison &&& ~~~bits = 0)
      (hbit : carry &&& ~~~bits = 0) : Changes bits fun st =>
        Word.withBit (compareZero st shifted.value .word) carry shifted.carry :=
    .comp (.withBit hbit _) (.compareZero hcomparison _ .word)
  cases operation with
  | sla => exact .comp (.withBit (by decide) _) (hcarry (by decide) (by decide))
  | sra | srl | src => exact hcarry (by decide) (by decide)

end Status

variable {β : Type} [Bus β] [RamBus β] {entry machine : Machine β}

open RamBus

/-- A register keeps what is written to it: it does not lie in the decrementer, and its two bytes
are not the same to the chip. -/
structure Cpu.KeepsRegister (cpu : Cpu) (number : UInt16) : Prop where
  plain : cpu.HasPlain [number]
  apart : (cpu.wordCells (cpu.registerAddress number)).Nodup

theorem Cpu.keepsRegister_iff {cpu : Cpu} {number : UInt16}
    (hmask : cpu.config.addressMask &&& 0x3FFF = 0x3FFF) :
    cpu.KeepsRegister number ↔
      (cpu.config.onChip = true → Word.even (cpu.registerAddress number) ≠ 0xFFFA) := by
  have hapart : (cpu.wordCells (cpu.registerAddress number)).Nodup := by
    rw [wordCells, List.nodup_cons, List.mem_singleton]
    exact ⟨Ne.symm (cpu.cell_even_ne hmask _), List.pairwise_singleton _ _⟩
  rw [← List.forall_mem_singleton (a := number)
    (p := fun k => Word.even (cpu.registerAddress k) ≠ 0xFFFA), ← hasPlain_iff]
  exact ⟨KeepsRegister.plain, fun h => ⟨h, hapart⟩⟩

namespace Machine

/-- How far an opcode shifts: by its count, or else by the lowest four bits of R0, or else by 16. -/
def shiftCount (machine : Machine β) (opcode : UInt16) : Nat :=
  let field := ((opcode >>> 4) &&& 0xF).toNat
  let low := (machine.register 0 &&& 0xF).toNat
  if field = 0 then if low = 0 then 16 else low else field

/-- What a shift costs, without what its accesses add. -/
def shiftCycles (machine : Machine β) (opcode : UInt16) (operation : ShiftOperation) : Nat :=
  let timing := machine.cpu.timing
  let found := if ((opcode >>> 4) &&& 0xF).toNat = 0 then timing.shiftFromR0.toNat else 0
  (Instruction.baseCycles machine.cpu.config.instructionSet (.shift operation)).toNat +
    (found + timing.shiftPerBit.toNat * machine.shiftCount opcode)

theorem shiftCount_bounds (machine : Machine β) (opcode : UInt16) :
    1 ≤ machine.shiftCount opcode ∧ machine.shiftCount opcode ≤ 16 := by
  have hlow (w : UInt16) : (w &&& 0xF).toNat < 16 := by
    rw [UInt16.toNat_and]
    exact Nat.and_lt_two_pow w.toNat (by decide : 15 < 2 ^ 4)
  have hfield := hlow (opcode >>> 4)
  have hregister := hlow (machine.register 0)
  unfold shiftCount
  dsimp only
  split
  · split
    · omega
    · omega
  · omega

/-- What a shift of a register leaves, all at once. -/
structure Shifts (entry : Machine β) (operation : ShiftOperation) (number : UInt16) (count : Nat)
    (next : Machine β) : Prop where
  config_eq : next.cpu.config = entry.cpu.config
  wp_eq : next.cpu.wp = entry.cpu.wp
  makes : operation.Makes count (entry.register number) (next.register number)
    (Status.has next.cpu.st Status.carry)
  compares : Status.Compares next.cpu.st (.ofResult .word (next.register number))
  overflow : operation = .sla → (Status.has next.cpu.st Status.overflow = true ↔
    ¬Width.word.Fits (Width.word.signed (entry.register number) * 2 ^ count))
  others : next.cpu.st &&& ~~~(Instruction.shift operation).statusBits .word =
    entry.cpu.st &&& ~~~(Instruction.shift operation).statusBits .word
  kept : ∀ cell, cell.IsPlain → cell ∉ entry.cpu.wordCells (entry.cpu.registerAddress number) →
    next.contents cell = entry.contents cell

end Machine

open Machine

namespace Exec

theorem shiftCount_inspects (opcode : UInt16) (entry : Machine β) : ∃ next,
    shiftCount opcode entry = ((entry.shiftCount opcode,
      if ((opcode >>> 4) &&& 0xF).toNat = 0 then entry.cpu.timing.shiftFromR0.toNat else 0), next) ∧
    entry.Inspected next := by
  unfold shiftCount Machine.shiftCount
  dsimp only
  split
  · next hfield =>
      obtain ⟨next, hread, hnext⟩ := readRegister_inspects 0 (.refl entry)
      rw [bind_of_eq hread, cpu_bind, hnext.cpu_eq]
      exact ⟨next, rfl, hnext⟩
  · exact ⟨entry, rfl, .refl entry⟩

theorem sameMemory_overflowTrap (machine : Machine β) :
    machine.SameMemory { machine with cpu := machine.cpu.overflowTrap } where
  config_eq := Cpu.eq_of_core (·.config) (fun _ => rfl) machine.cpu.core_overflowTrap
  wp_eq := Cpu.eq_of_core (·.wp) (fun _ => rfl) machine.cpu.core_overflowTrap
  ram_eq := congrArg (·.ram) machine.cpu.chip_overflowTrap
  memory_eq := rfl

/-- A shift reads its count and its operand, writes the register back, and sets the status register.
All else that it may do is to request the interrupt for overflows. -/
theorem shift_spec (opcode : UInt16) (operation : ShiftOperation) (entry : Machine β) :
    let count := entry.shiftCount opcode
    let shifted := Shifted.shift operation count { value := entry.register (opcode &&& 0xF) }
    ∃ read final, entry.Inspected read ∧
      (writeRegister (opcode &&& 0xF) shifted.value read).2.SameMemory final ∧
      final.cpu.st = Status.afterShift entry.cpu.st operation shifted ∧
      shift opcode operation entry =
        ((if ((opcode >>> 4) &&& 0xF).toNat = 0 then entry.cpu.timing.shiftFromR0.toNat else 0) +
          final.cpu.timing.shiftPerBit.toNat * count, final) := by
  intro count shifted
  obtain ⟨counted, hcount, hcounted⟩ := shiftCount_inspects opcode entry
  obtain ⟨read, hvalue, hread⟩ := readRegister_inspects (opcode &&& 0xF) hcounted
  let written := (writeRegister (opcode &&& 0xF) shifted.value read).2
  let marked : Machine β := { written with
    cpu.st := Status.afterShift written.cpu.st operation shifted }
  have hwritten : writeRegister (opcode &&& 0xF) shifted.value read = ((), written) := rfl
  have hsame : written.SameMemory marked := ⟨rfl, rfl, rfl, rfl⟩
  have hst : marked.cpu.st = Status.afterShift entry.cpu.st operation shifted := by
    have hcore : written.cpu.core = entry.cpu.core := by rw [core_writeRegister, hread.cpu_eq]
    exact congrArg (Status.afterShift · operation shifted)
      (Cpu.eq_of_core (·.st) (fun _ => rfl) hcore)
  rw [shift, bind_of_eq hcount]
  dsimp only
  rw [bind_of_eq hvalue, bind_of_eq hwritten]
  cases operation with
  | sla =>
      -- The status register is set in two steps, and what follows depends on the second.
      change ∃ read final, _ ∧ _ ∧ _ ∧
        (if shifted.overflow = true then _ else _ : Exec β Nat) marked = _
      cases hoverflow : shifted.overflow with
      | true =>
          have htrap : written.SameMemory { marked with cpu := marked.cpu.overflowTrap } :=
            { sameMemory_overflowTrap marked with }
          exact ⟨read, _, hread, htrap, (Cpu.st_overflowTrap marked.cpu).trans hst, rfl⟩
      | false => exact ⟨read, marked, hread, hsame, hst, rfl⟩
  | sra | srl | src => exact ⟨read, marked, hread, hsame, hst, rfl⟩

theorem shift_fst (opcode : UInt16) (operation : ShiftOperation) (entry : Machine β) :
    (Instruction.baseCycles entry.cpu.config.instructionSet (.shift operation)).toNat +
      (shift opcode operation entry).1 = entry.shiftCycles opcode operation := by
  obtain ⟨read, final, hread, hsame, _, hshift⟩ := shift_spec opcode operation entry
  have hconfig : final.cpu.config = entry.cpu.config := by
    rw [hsame.config_eq, ← hread.cpu_eq]
    exact Cpu.eq_of_core (·.config) (fun _ => rfl) (core_writeRegister _ _ read)
  have htiming : final.cpu.timing = entry.cpu.timing := congrArg (·.instructionSet.timing) hconfig
  rw [hshift, htiming, shiftCycles]

theorem shift_shifts {opcode : UInt16} {entry : Machine β}
    (hsize : entry.cpu.chip.ram.size = 0x100) (hkeeps : entry.cpu.KeepsRegister (opcode &&& 0xF))
    (operation : ShiftOperation) :
    entry.Shifts operation (opcode &&& 0xF) (entry.shiftCount opcode)
      (shift opcode operation entry).2 := by
  obtain ⟨read, final, hread, hsame, hst, hshift⟩ := shift_spec opcode operation entry
  obtain ⟨hone, hsixteen⟩ := entry.shiftCount_bounds opcode
  generalize entry.shiftCount opcode = count at hsame hst hshift hone hsixteen ⊢
  have hmakes :=
    Shifted.makes_shift count operation (entry.register (opcode &&& 0xF)) hone hsixteen
  have hoverflow := Computation.shiftLeft_overflows_iff (entry.register (opcode &&& 0xF)) count
  have hcore (value : UInt16) := core_writeRegister (opcode &&& 0xF) value read
  rw [← hread.cpu_eq] at hsize hkeeps
  have hplain (value : UInt16) :
      (writeRegister (opcode &&& 0xF) value read).2.cpu.HasPlain [opcode &&& 0xF] := by
    rw [Cpu.eq_of_core (·.HasPlain) (fun _ => rfl) (hcore value)]
    exact hkeeps.plain
  have hregister := (hsame.register_eq (hplain _)).trans
    (register_writeRegister hsize hkeeps.plain _ hkeeps.apart)
  rw [hshift]
  constructor
  case config_eq =>
    rw [hsame.config_eq, ← hread.cpu_eq]
    exact Cpu.eq_of_core (·.config) (fun _ => rfl) (hcore _)
  case wp_eq =>
    rw [hsame.wp_eq, ← hread.cpu_eq]
    exact Cpu.eq_of_core (·.wp) (fun _ => rfl) (hcore _)
  case makes =>
    rw [hregister, hst, Status.has_carry_afterShift]
    exact hmakes
  case compares =>
    rw [hregister, hst]
    exact Status.compares_afterShift ..
  case overflow =>
    rintro rfl
    rw [hst, Status.has_overflow_afterShift]
    exact hoverflow
  case others =>
    rw [hst]
    exact Status.changes_afterShift operation _ entry.cpu.st
  case kept =>
    intro cell hcell hapart
    rw [← hread.undisturbed.contents_eq]
    rw [← hread.cpu_eq] at hapart
    refine (contents_of_isPlain hsame.ram_eq hsame.memory_eq hcell).trans ?_
    exact contents_writeWord_of_not_mem hsize hkeeps.plain.cell_isPlain _ hapart

end Exec

namespace Machine

theorem Shifts.timePassed {operation : ShiftOperation} {number : UInt16} {count : Nat}
    {next : Machine β} (h : entry.Shifts operation number count machine)
    (hplain : entry.cpu.HasPlain [number]) (hpassed : machine.TimePassed next) :
    entry.Shifts operation number count next := by
  have hsame := hpassed.sameMemory
  rw [Cpu.HasPlain, ← Cpu.registerCells_congr h.config_eq h.wp_eq] at hplain
  have hregister := hsame.register_eq hplain
  have hst : next.cpu.st = machine.cpu.st :=
    Cpu.eq_of_still (·.st) (fun _ => rfl) hpassed.still_eq
  constructor
  case config_eq => exact hsame.config_eq.trans h.config_eq
  case wp_eq => exact hsame.wp_eq.trans h.wp_eq
  case makes =>
    rw [hregister, hst]
    exact h.makes
  case compares =>
    rw [hregister, hst]
    exact h.compares
  case overflow =>
    rw [hst]
    exact h.overflow
  case others =>
    rw [hst]
    exact h.others
  case kept =>
    intro cell hcell hapart
    exact (contents_of_isPlain hsame.ram_eq hsame.memory_eq hcell).trans (h.kept cell hcell hapart)

section

variable {before : Machine β} {pc : UInt16}
  (hinspected : ({ before with cpu.pc := pc } : Machine β).Inspected entry)

include hinspected

theorem contents_of_inspected : entry.contents = before.contents :=
  contents_eq_of_onlyRead (congrArg (·.chip) hinspected.cpu_eq) hinspected.onlyRead

theorem register_of_inspected : entry.register = before.register := by
  funext number
  rw [register, heldWord, contents_of_inspected hinspected, hinspected.cpu_eq]
  rfl

theorem shiftCount_of_inspected (opcode : UInt16) :
    entry.shiftCount opcode = before.shiftCount opcode := by
  rw [shiftCount, register_of_inspected hinspected, shiftCount]

theorem shiftCycles_of_inspected (opcode : UInt16) (operation : ShiftOperation) :
    entry.shiftCycles opcode operation = before.shiftCycles opcode operation := by
  rw [shiftCycles, shiftCount_of_inspected hinspected, hinspected.cpu_eq, shiftCycles]
  rfl

theorem Shifts.of_inspected {operation : ShiftOperation} {number : UInt16} {count : Nat}
    (h : entry.Shifts operation number count machine) :
    before.Shifts operation number count machine := by
  have hregister := register_of_inspected hinspected
  have hcpu := hinspected.cpu_eq
  constructor
  case config_eq => exact h.config_eq.trans (congrArg (·.config) hcpu)
  case wp_eq => exact h.wp_eq.trans (congrArg (·.wp) hcpu)
  case makes =>
    rw [← hregister]
    exact h.makes
  case compares => exact h.compares
  case overflow =>
    rw [← hregister]
    exact h.overflow
  case others =>
    have hst : entry.cpu.st = before.cpu.st := congrArg (·.st) hcpu
    rw [← hst]
    exact h.others
  case kept =>
    intro cell hcell hapart
    rw [← contents_of_inspected hinspected]
    refine h.kept cell hcell ?_
    rw [hcpu]
    exact hapart

end

theorem iterate_shifts {operation : ShiftOperation} {config : Config}
    (h : machine.cpu.IsConsistent config) (hexecutes : machine.executes = some (.shift operation))
    (hkeeps : machine.found.2.cpu.KeepsRegister (machine.found.1.opcode &&& 0xF)) (limit : Nat) :
    machine.found.2.Shifts operation (machine.found.1.opcode &&& 0xF)
      (machine.found.2.shiftCount machine.found.1.opcode) (Exec.iterate limit machine).2 := by
  have hstable := Cpu.isConsistent_hostStable config
  have hfound := hstable.toFlagStable.machine.found (hstable.toServiceStable.checked h)
  have hshifts := Exec.shift_shifts hfound.ram_size hkeeps operation
  have hworked : machine.worked =
      (Exec.shift machine.found.1.opcode operation machine.found.2).2 :=
    worked_of_executes hexecutes nofun
  rw [← hworked] at hshifts
  exact hshifts.timePassed hkeeps.plain (machine.timePassed_iterate limit)

omit [RamBus β] in
theorem iterate_fst_of_executes {instruction : Instruction}
    (hexecutes : machine.executes = some instruction) (hx : instruction ≠ .x) (limit : Nat) :
    (Exec.iterate limit machine).1 =
      (Exec.serviceUnlessSuppressed (Exec.clearLeftovers machine).2).1 +
        (machine.found.1.cycles +
          ((Instruction.baseCycles machine.found.2.cpu.config.instructionSet instruction).toNat +
            (Exec.perform machine.found.1.opcode instruction machine.found.2).1)) +
        machine.worked.wait := by
  rw [iterate_fst, ownCycles, awake_of_executes hexecutes, if_neg Bool.false_ne_true,
    execute_fst hexecutes hx]

end Machine

/-- A shift comes to its closed form, whatever register it works on and wherever its count comes
from, and all else in the workspace and in memory stays.  A shift that X leads to starts from what
that X leaves, and the cycles of the X come on top. -/
theorem shifts_in_closed_form {config : Config} {machine : Machine β}
    (h : machine.Reachable config) {operation : ShiftOperation}
    (hexecutes : machine.executes = some (.shift operation)) (limit : Nat) :
    let entry := machine.found.2
    let opcode := machine.found.1.opcode
    let service := (Exec.serviceUnlessSuppressed (Exec.clearLeftovers machine).2).1
    let next := (Exec.iterate limit machine).2
    (entry.cpu.KeepsRegister (opcode &&& 0xF) →
      entry.Shifts operation (opcode &&& 0xF) (entry.shiftCount opcode) next) ∧
    (Exec.iterate limit machine).1 = service +
      (machine.found.1.cycles + entry.shiftCycles opcode operation) + machine.worked.wait ∧
    (machine.checked.ahead = some (.shift operation) →
      opcode = (Exec.fetch machine.checked).1 ∧
      (machine.checked.cpu.KeepsRegister (opcode &&& 0xF) → machine.checked.Shifts operation
        (opcode &&& 0xF) (machine.checked.shiftCount opcode) next) ∧
      (Exec.iterate limit machine).1 =
        service + machine.checked.shiftCycles opcode operation + machine.worked.wait) := by
  intro entry opcode service next
  have hshifts := Machine.iterate_shifts h.isConsistent hexecutes
  have hcycles := Machine.iterate_fst_of_executes hexecutes nofun limit
  have hperform : (Exec.perform opcode (.shift operation) entry).1 =
      (Exec.shift opcode operation entry).1 := rfl
  rw [hperform, Exec.shift_fst] at hcycles
  refine ⟨fun hkeeps => hshifts hkeeps limit, hcycles, fun hahead => ?_⟩
  have hfound := Machine.found_of_ahead hahead nofun
  have hentry : entry = (Exec.fetch machine.checked).2 := congrArg Prod.snd hfound
  have hlast := congrArg Prod.fst hfound
  have hinspected : ({ machine.checked with
      cpu.pc := machine.checked.cpu.pc + 2 * 1 } : Machine β).Inspected entry :=
    hentry ▸ Exec.fetch_inspects machine.checked
  refine ⟨congrArg (·.opcode) hlast, fun hkeeps => ?_, ?_⟩
  · have hkept : entry.cpu.KeepsRegister (opcode &&& 0xF) := by
      rw [hinspected.cpu_eq]
      exact ⟨hkeeps.plain, hkeeps.apart⟩
    rw [← Machine.shiftCount_of_inspected hinspected]
    exact (hshifts hkept limit).of_inspected hinspected
  · have hdirect : machine.found.1.cycles = 0 := congrArg (·.cycles) hlast
    rw [hcycles, hdirect, Nat.zero_add, Machine.shiftCycles_of_inspected hinspected]

/-- Before a shift of R0 to the right with sign, by as many bits as its own lowest four say, which
are all zero. -/
def Machine.beforeShift : Machine FlatBus :=
  let program := Memory.zero.pokeWord 0x0200 0x0800
  let new : Machine FlatBus :=
    ⟨.ofConfig Variant.tms9900.config, { memory := program.pokeWord 0x0100 0x8010 }⟩
  { new with cpu := ((new.cpu.setWp 0x0100).setPc 0x0200).setSt 0x2800 }

theorem Machine.beforeShift_reachable : beforeShift.Reachable Variant.tms9900.config := by
  let new : Machine FlatBus := ⟨.ofConfig Variant.tms9900.config, beforeShift.bus⟩
  have hnew : new.Reachable Variant.tms9900.config := .create
  exact hnew.place 0x0100 0x0200 0x2800

/-- By 16 bits nothing but the sign remains, and the sign is also what is shifted out last. -/
theorem shifts_in_closed_form_by_sixteen :
    let machine := Machine.beforeShift
    let next := (Exec.iterate 100 machine).2
    machine.Reachable Variant.tms9900.config ∧ machine.executes = some (.shift .sra) ∧
      machine.checked.ahead = some (.shift .sra) ∧ machine.checked.register 0 = 0x8010 ∧
      machine.checked.shiftCount 0x0800 = 16 ∧ machine.checked.cpu.KeepsRegister 0 ∧
      Width.word.signed (next.register 0) = -1 ∧
      Status.has next.cpu.st Status.carry = true ∧
      Status.Compares next.cpu.st (.ofResult .word (next.register 0)) ∧
      (Exec.iterate 100 machine).1 = 12 + 8 + 2 * 16 := by
  intro machine next
  have hexecutes : machine.executes = some (.shift .sra) := by decide +kernel
  have hahead : machine.checked.ahead = some (.shift .sra) := by decide +kernel
  have hvalue : machine.checked.register 0 = 0x8010 := by decide +kernel
  have hcount : machine.checked.shiftCount 0x0800 = 16 := by decide +kernel
  have hopcode : Machine.beforeShift.found.1.opcode = 0x0800 := by decide +kernel
  have hkeeps : machine.checked.cpu.KeepsRegister 0 := by
    refine (Cpu.keepsRegister_iff (by decide +kernel)).mpr fun honChip => ?_
    exact absurd honChip (by decide +kernel)
  obtain ⟨_, _, hdirect⟩ := shifts_in_closed_form Machine.beforeShift_reachable hexecutes 100
  obtain ⟨_, hshifts, hcycles⟩ := hdirect hahead
  rw [hopcode] at hshifts hcycles
  have hshifts : machine.checked.Shifts .sra 0 (machine.checked.shiftCount 0x0800) next :=
    hshifts hkeeps
  rw [hcount] at hshifts
  obtain ⟨hresult, hcarry⟩ := hshifts.makes
  rw [hvalue] at hresult hcarry
  exact ⟨Machine.beforeShift_reachable, hexecutes, hahead, hvalue, hcount, hkeeps,
    hresult.trans (by decide), hcarry.trans (by decide), hshifts.compares,
    hcycles.trans (by decide +kernel)⟩

end TmsCores.Tms9900
