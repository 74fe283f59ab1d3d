import TmsCores.Proofs.Tms7000.CarryChain

namespace TmsCores.Tms7000

open PackedDecimal (IsPacked Represents)

namespace Outcome

theorem represents_one : Represents 1 1 :=
  .of_digits (h := 0) (t := 0) (u := 1) rfl (by decide) (by decide) (by decide) rfl

theorem withCarry_represents {w : UInt16} {n : Nat} (h : Represents w n) (st : UInt8)
    (carry : Bool) : IsPacked (withCarry st w.toUInt8 carry).value ∧
      PackedDecimal.value (withCarry st w.toUInt8 carry).value = n % 100 ∧
      Status.has (withCarry st w.toUInt8 carry).st Status.carry = carry :=
  ⟨h.isPacked, h.value_toUInt8, Status.has_carry_withCarry _ _⟩

variable {d s : UInt8} (st : UInt8) (carry : Bool)

theorem addDecimal_balance (hd : IsPacked d) (hs : IsPacked s) :
    IsPacked (addDecimal st d s carry).value ∧
      PackedDecimal.value (addDecimal st d s carry).value +
        100 * (Status.has (addDecimal st d s carry).st Status.carry).toNat =
          PackedDecimal.value d + PackedDecimal.value s + carry.toNat := by
  have hd_lt := hd.value_lt
  have hs_lt := hs.value_lt
  have hfirst := hd.represents.add hs.represents (by omega)
  have hsum : ∃ sum, Represents sum (PackedDecimal.value d + PackedDecimal.value s + carry.toNat) ∧
      addDecimal st d s carry = withCarry st sum.toUInt8 (sum > 0xFF) := by
    cases carry with
    | false => exact ⟨_, hfirst, rfl⟩
    | true =>
        have hnext := hfirst.add represents_one (by omega)
        exact ⟨_, hnext, rfl⟩
  obtain ⟨sum, hsum, heq⟩ := hsum
  obtain ⟨hpacked, hvalue, hout⟩ := withCarry_represents hsum st (sum > 0xFF)
  have hset := toNat_cases (decide_eq_true_iff.trans hsum.gt_iff)
  have hcarry := carry.toNat_le
  rw [heq, hout, hvalue]
  exact ⟨hpacked, by omega⟩

theorem value_eq_zero_iff : PackedDecimal.value s = 0 ↔ s = 0 := by
  rw [← UInt8.toNat_inj, PackedDecimal.value, UInt8.toNat_zero]
  omega

theorem subtractDecimal_balance (hd : IsPacked d) (hs : IsPacked s) :
    IsPacked (subtractDecimal st d s carry).value ∧
      PackedDecimal.value (subtractDecimal st d s carry).value + PackedDecimal.value s +
        carry.toNat + 100 * (Status.has (subtractDecimal st d s carry).st Status.carry).toNat =
          PackedDecimal.value d + 100 := by
  have hd_lt := hd.value_lt
  have hs_lt := hs.value_lt
  let first := PackedDecimal.sub d.toUInt16 s.toUInt16
  have hfirst : Represents first _ := hd.represents.sub hs.represents hd_lt hs_lt
  have hkept : (first &&& 0x100 != 0 || s == 0) = true ↔
      PackedDecimal.value s ≤ PackedDecimal.value d := by
    rw [hfirst.hundred_ne_zero (by omega), Bool.or_eq_true, decide_eq_true_iff, beq_iff_eq,
      ← value_eq_zero_iff]
    omega
  have hkeeps := toNat_cases hkept
  -- A borrow is subtracted in a second step, which may borrow on its own.
  cases carry with
  | false =>
      obtain ⟨hpacked, hvalue, hout⟩ :=
        withCarry_represents hfirst st (first &&& 0x100 != 0 || s == 0)
      have heq : subtractDecimal st d s false =
          withCarry st first.toUInt8 (first &&& 0x100 != 0 || s == 0) := rfl
      rw [heq, hout, hvalue, Bool.toNat_false]
      exact ⟨hpacked, by omega⟩
  | true =>
      let second := PackedDecimal.sub first.toUInt8.toUInt16 1
      have hlow := hfirst.value_toUInt8
      have hlow_lt := hfirst.isPacked.value_lt
      have hsecond : Represents second _ :=
        hfirst.isPacked.represents.sub represents_one hlow_lt (by decide)
      let keeps := (first &&& 0x100 != 0 || s == 0) && second &&& 0x100 != 0
      have heq : subtractDecimal st d s true = withCarry st second.toUInt8 keeps := rfl
      have hkeeps : keeps = true ↔ PackedDecimal.value s ≤ PackedDecimal.value d ∧
          1 ≤ PackedDecimal.value first.toUInt8 := by
        rw [Bool.and_eq_true, hkept, hsecond.hundred_ne_zero (by omega), decide_eq_true_iff]
        omega
      have hset := toNat_cases hkeeps
      obtain ⟨hpacked, hvalue, hout⟩ := withCarry_represents hsecond st keeps
      rw [heq, hout, hvalue, Bool.toNat_true]
      exact ⟨hpacked, by omega⟩

end Outcome

namespace CarryOperation

theorem dac_balances : dac.Balances .decimal 1 1 (·.toNat) where
  isDigit {s d} carry hs hd := by
    simp only [apply, outcome, Status.has_bitIf_carry]
    exact (Outcome.addDecimal_balance (Status.bitIf carry Status.carry) carry hd hs).1
  balance {s d} carry hs hd := by
    obtain ⟨_, hbalance⟩ :=
      Outcome.addDecimal_balance (Status.bitIf carry Status.carry) carry hd hs
    simp only [apply, outcome, Status.has_bitIf_carry, Numeration.decimal]
    omega

theorem dsb_balances : dsb.Balances .decimal 1 (-1) (·.toNat - 1) where
  isDigit {s d} carry hs hd := by
    simp only [apply, outcome, Status.has_bitIf_carry]
    exact (Outcome.subtractDecimal_balance (Status.bitIf carry Status.carry) (!carry) hd hs).1
  balance {s d} carry hs hd := by
    obtain ⟨_, hbalance⟩ :=
      Outcome.subtractDecimal_balance (Status.bitIf carry Status.carry) (!carry) hd hs
    have hborrow := Outcome.toNat_not_add carry
    simp only [apply, outcome, Status.has_bitIf_carry, Numeration.decimal]
    omega

theorem dsb_chain_dac_chain {source destination : List UInt8}
    (hlength : source.length = destination.length)
    (hsource : Numeration.decimal.IsNumber source)
    (hdestination : Numeration.decimal.IsNumber destination) :
    (dsb.chain true (source.zip (dac.chain false (source.zip destination)).1)).1 = destination := by
  have hsum := dac_balances.isSum hlength hsource hdestination false
  generalize dac.chain false (source.zip destination) = sum at *
  have hdifference := dsb_balances.isDifference (hlength.trans hsum.length_eq.symm) hsource
    hsum.isNumber false
  rw [Bool.not_false] at hdifference
  generalize dsb.chain true (source.zip sum.1) = difference at *
  refine Numeration.value_inj hdifference.isNumber hdestination
    (hdifference.length_eq.trans hsum.length_eq) (Int.ofNat_inj.mp ?_)
  have hlt : Numeration.decimal.value destination <
      Numeration.decimal.base ^ destination.length := hdestination.value_lt
  calc (Numeration.decimal.value difference.1 : Int)
      = (Numeration.decimal.value sum.1 - Numeration.decimal.value source - 0) %
          (Numeration.decimal.base ^ sum.1.length : Nat) := hdifference.value_eq
    _ = ((Numeration.decimal.value destination + Numeration.decimal.value source : Int) %
          (Numeration.decimal.base ^ destination.length : Nat) - Numeration.decimal.value source) %
            (Numeration.decimal.base ^ destination.length : Nat) := by
        rw [hsum.length_eq, hsum.value_eq, sub_zero, Bool.toNat_false]
        push_cast
        rfl
    _ = Numeration.decimal.value destination := by
        rw [Int.sub_emod, Int.emod_emod, ← Int.sub_emod, add_sub_cancel_right]
        exact Int.emod_eq_of_lt (Int.natCast_nonneg _) (Int.ofNat_lt.mpr hlt)

end CarryOperation

/-- Chains of the decimal operations are exact for packed decimal numbers of any length, a
subtraction undoes an addition, and what an instruction does in one step of a chain is its
operation. -/
theorem decimal_chains_exact {source destination : List UInt8}
    (hlength : source.length = destination.length)
    (hsource : Numeration.decimal.IsNumber source)
    (hdestination : Numeration.decimal.IsNumber destination) (carry : Bool) {β : Type} [Bus β]
    (machine : Machine β) (limit : Nat) :
    let operands := source.zip destination
    let sum := (CarryOperation.dac.chain false operands).1
    IsSum .decimal source destination carry (CarryOperation.dac.chain carry operands) ∧
    IsDifference .decimal source destination carry (CarryOperation.dsb.chain (!carry) operands) ∧
    (CarryOperation.dsb.chain true (source.zip sum)).1 = destination ∧
    machine.CarriesByOperation (Exec.iterate limit machine).2.cpu.st := by
  intro operands sum
  refine ⟨?_, ?_, ?_, machine.carriesByOperation limit⟩
  · exact CarryOperation.dac_balances.isSum hlength hsource hdestination carry
  · exact CarryOperation.dsb_balances.isDifference hlength hsource hdestination carry
  · exact CarryOperation.dsb_chain_dac_chain hlength hsource hdestination

/-- DSB takes 46 from A, with carry clear, which stands for a borrow. -/
def Machine.beforeDsb : Machine FlatBus where
  cpu :=
    { (Cpu.ofConfig Variant.tms7000.config).setRegister 0 0x45 with
      pc := 0x2000
      st := 0x10 }
  bus := { memory := (Memory.zero.poke 0x2000 0x2F).poke 0x2001 0x46 }

/-- Of the sum of 5401 and 4599 only the carry is left. -/
theorem decimal_chains_exact_of_two_bytes :
    let next := (Exec.iterate 100 Machine.beforeDsb).2
    IsSum .decimal [0x99, 0x45] [0x01, 0x54] false ([0x00, 0x00], true) ∧
    (CarryOperation.dsb.chain true [(0x99, 0x00), (0x45, 0x00)]).1 = [0x01, 0x54] ∧
    Machine.beforeDsb.executes = some (.dual .dsb .immediateToA) ∧
    next.cpu.register 0 = 0x98 ∧ Status.has next.cpu.st Status.carry = false ∧
    Status.Describes next.cpu.st 0x98 := by
  intro next
  have hnumber : Numeration.decimal.IsNumber [0x99, 0x45] ∧
      Numeration.decimal.IsNumber [0x01, 0x54] := by
    simp [Numeration.IsNumber, Numeration.decimal, IsPacked]
  have hlength : ([0x99, 0x45] : List UInt8).length = ([0x01, 0x54] : List UInt8).length := rfl
  obtain ⟨hsum, _, hundone, hstep⟩ :=
    decimal_chains_exact hlength hnumber.1 hnumber.2 false Machine.beforeDsb 100
  have hchain : CarryOperation.dac.chain false ([0x99, 0x45].zip [0x01, 0x54]) =
      ([0x00, 0x00], true) := by decide
  have hexecutes : Machine.beforeDsb.executes = some (.dual .dsb .immediateToA) := by
    decide +kernel
  have hcarry : Status.has Machine.beforeDsb.checked.cpu.st Status.carry = false := by
    decide +kernel
  have hoperands : (Exec.dualCarryOperands .immediateToA Machine.beforeDsb.fetched.2).1 =
      ⟨0x46, 0x45, 0⟩ := by
    decide +kernel
  have happlied : CarryOperation.dsb.apply 0x46 0x45 false = (0x98, false) := by decide
  have hstored := hstep _ hexecutes (.dsb, Exec.dualCarryOperands .immediateToA) rfl
  simp only [hcarry, hoperands, happlied] at hstored
  rw [hchain] at hsum hundone
  exact ⟨hsum, hundone, hexecutes, by decide +kernel, hstored.carry, hstored.describes⟩

end TmsCores.Tms7000
