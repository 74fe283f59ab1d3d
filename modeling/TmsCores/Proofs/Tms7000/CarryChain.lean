import Mathlib.Tactic.LinearCombination
import TmsCores.Bus.Flat
import TmsCores.Proofs.Arithmetic.Numeration
import TmsCores.Proofs.Tms7000.CarryOperation

namespace TmsCores.Tms7000

namespace Outcome

variable (st d s : UInt8) (carry : Bool)

theorem toNat_toUInt8 : carry.toUInt8.toNat = carry.toNat := by
  cases carry with
  | false => rfl
  | true => rfl

theorem toNat_not_add : (!carry).toNat + carry.toNat = 1 := by
  cases carry with
  | false => rfl
  | true => rfl

theorem toNat_cases {set : Bool} {p : Prop} (h : set = true ↔ p) :
    p ∧ set.toNat = 1 ∨ ¬p ∧ set.toNat = 0 := by
  cases set with
  | false => exact .inr ⟨mt h.mpr nofun, rfl⟩
  | true => exact .inl ⟨h.mp rfl, rfl⟩

theorem toNat_add : (add st d s carry).value.toNat = (d.toNat + s.toNat + carry.toNat) % 256 := by
  rw [add, UInt8.toNat_add, UInt8.toNat_add, toNat_toUInt8, Nat.mod_add_mod]

theorem has_carry_add : Status.has (add st d s carry).st Status.carry = true ↔
    256 ≤ d.toNat + s.toNat + carry.toNat := by
  have hresult := congrArg (· % 256) (toNat_add st d s carry)
  have hflag : (FlagSet.ofAdd d.toUInt16 s.toUInt16 (add st d s carry).value.toUInt16 .byte).carry =
      true ↔ _ := FlagSet.carry_ofAdd carry.toNat_le (hresult.trans (Nat.mod_mod _ _))
  simp only [UInt8.toNat_toUInt16, Width.size, Width.bits, Nat.reducePow,
    Nat.mod_eq_of_lt d.toNat_lt, Nat.mod_eq_of_lt s.toNat_lt] at hflag
  rw [← hflag]
  exact Bool.eq_iff_iff.mp (Status.has_carry_arithmetic st _)

theorem add_balance : (add st d s carry).value.toNat +
    256 * (Status.has (add st d s carry).st Status.carry).toNat =
      d.toNat + s.toNat + carry.toNat := by
  have hvalue := toNat_add st d s carry
  have hout := toNat_cases (has_carry_add st d s carry)
  have hd := d.toNat_lt
  have hs := s.toNat_lt
  have hcarry := carry.toNat_le
  omega

theorem toNat_subtract : ((subtract st d s carry).value.toNat + s.toNat + carry.toNat) % 256 =
    d.toNat := by
  have hsum : (subtract st d s carry).value + s + carry.toUInt8 = d := by
    change d - s - carry.toUInt8 + s + carry.toUInt8 = d
    grind
  rw [← toNat_toUInt8, ← Nat.mod_add_mod, ← UInt8.toNat_add, ← UInt8.toNat_add, hsum]

theorem has_carry_subtract : Status.has (subtract st d s carry).st Status.carry = true ↔
    s.toNat + carry.toNat ≤ d.toNat := by
  have hresult := (Nat.mod_eq_of_lt d.toNat_lt).trans (toNat_subtract st d s carry).symm
  have hflag : (FlagSet.ofSub d.toUInt16 s.toUInt16 (subtract st d s carry).value.toUInt16
      .byte).carry = true ↔ _ := FlagSet.carry_ofSub carry.toNat_le hresult
  simp only [UInt8.toNat_toUInt16, Width.size, Width.bits, Nat.reducePow,
    Nat.mod_eq_of_lt d.toNat_lt, Nat.mod_eq_of_lt s.toNat_lt] at hflag
  rw [← hflag]
  exact Bool.eq_iff_iff.mp (Status.has_carry_arithmetic st _)

/-- The byte of a subtraction and all that is subtracted make up what it is subtracted from, unless
something is borrowed. -/
theorem subtract_balance : (subtract st d s carry).value.toNat + s.toNat + carry.toNat +
    256 * (Status.has (subtract st d s carry).st Status.carry).toNat = d.toNat + 256 := by
  have hvalue := toNat_subtract st d s carry
  have hout := toNat_cases (has_carry_subtract st d s carry)
  have hd := d.toNat_lt
  have hs := s.toNat_lt
  have hr := (subtract st d s carry).value.toNat_lt
  have hcarry := carry.toNat_le
  omega

theorem toNat_rotateLeftCarry : (rotateLeftCarry st d carry).value.toNat =
    2 * (d.toNat % 128) + carry.toNat := by
  have hshift : (d <<< 1).toNat = (d.toNat % 128) <<< 1 := by
    rw [UInt8.toNat_shiftLeft]
    change d.toNat <<< 1 % 256 = _
    rw [Nat.shiftLeft_eq, Nat.shiftLeft_eq]
    omega
  have hcarry : carry.toUInt8.toNat < 2 ^ 1 := by
    rw [toNat_toUInt8]
    exact Bool.toNat_lt carry
  change ((d <<< 1) ||| carry.toUInt8).toNat = _
  rw [UInt8.toNat_or, hshift, ← Nat.shiftLeft_add_eq_or_of_lt hcarry, toNat_toUInt8,
    Nat.shiftLeft_eq]
  omega

theorem rotateLeftCarry_balance : (rotateLeftCarry st d carry).value.toNat +
    256 * (Status.has (rotateLeftCarry st d carry).st Status.carry).toNat =
      2 * d.toNat + carry.toNat := by
  have hvalue := toNat_rotateLeftCarry st d carry
  have hout : Status.has (rotateLeftCarry st d carry).st Status.carry = d.toNat.testBit 7 :=
    (Status.has_carry_withCarry _ _).trans (Word.byte_and_bit_ne_zero rfl d)
  have hbit := d.toNat.toNat_testBit 7
  have hd := d.toNat_lt
  rw [hout]
  omega

theorem toNat_rotateRightCarry : (rotateRightCarry st d carry).value.toNat =
    d.toNat / 2 + 128 * carry.toNat := by
  have hd := d.toNat_lt
  have hshift : (d >>> 1).toNat = d.toNat / 2 := by
    rw [UInt8.toNat_shiftRight]
    exact Nat.shiftRight_eq_div_pow d.toNat 1
  have hcarry : (carry.toUInt8 <<< 7).toNat = carry.toNat <<< 7 := by
    cases carry with
    | false => rfl
    | true => rfl
  change ((d >>> 1) ||| (carry.toUInt8 <<< 7)).toNat = _
  rw [UInt8.toNat_or, hshift, hcarry, Nat.or_comm, ← Nat.shiftLeft_add_eq_or_of_lt (by omega),
    Nat.shiftLeft_eq]
  omega

theorem rotateRightCarry_balance : 2 * (rotateRightCarry st d carry).value.toNat +
    (Status.has (rotateRightCarry st d carry).st Status.carry).toNat =
      d.toNat + 256 * carry.toNat := by
  have hvalue := toNat_rotateRightCarry st d carry
  have hout : Status.has (rotateRightCarry st d carry).st Status.carry = d.toNat.testBit 0 :=
    (Status.has_carry_withCarry _ _).trans (Word.byte_and_bit_ne_zero rfl d)
  have hbit := d.toNat.toNat_testBit 0
  rw [hout]
  omega

end Outcome

namespace CarryOperation

variable {operation : CarryOperation} {numeration : Numeration} {p q : Int} {weight : Bool → Int}

/-- Applies an operation to one pair of source and destination bytes after the other, and takes the
carry along. -/
def chain (operation : CarryOperation) : Bool → List (UInt8 × UInt8) → List UInt8 × Bool
  | carry, [] => ([], carry)
  | carry, (s, d) :: rest =>
      let (byte, next) := operation.apply s d carry
      let (bytes, last) := operation.chain next rest
      (byte :: bytes, last)

theorem chain_cons (s d : UInt8) (carry : Bool) (rest : List (UInt8 × UInt8)) :
    operation.chain carry ((s, d) :: rest) =
      let next := operation.apply s d carry
      (next.1 :: (operation.chain next.2 rest).1, (operation.chain next.2 rest).2) :=
  rfl

/-- What an operation yields, with the carry out at its place, is a combination of its operands and
the carry in, in which a carry has some weight. -/
structure Balances (operation : CarryOperation) (numeration : Numeration) (p q : Int)
    (weight : Bool → Int) : Prop where
  isDigit : ∀ {s d} (carry : Bool), numeration.IsDigit s → numeration.IsDigit d →
    numeration.IsDigit (operation.apply s d carry).1
  balance : ∀ {s d} (carry : Bool), numeration.IsDigit s → numeration.IsDigit d →
    numeration.digit (operation.apply s d carry).1 +
        numeration.base * weight (operation.apply s d carry).2 =
      p * numeration.digit d + q * numeration.digit s + weight carry

theorem Balances.chain (h : operation.Balances numeration p q weight)
    {source destination : List UInt8} (hlength : source.length = destination.length)
    (hsource : numeration.IsNumber source) (hdestination : numeration.IsNumber destination)
    (carry : Bool) :
    let result := operation.chain carry (source.zip destination)
    numeration.IsNumber result.1 ∧ result.1.length = destination.length ∧
    numeration.value result.1 + numeration.base ^ destination.length * weight result.2 =
      p * numeration.value destination + q * numeration.value source + weight carry := by
  -- Byte by byte, with any carry in: the balance of the first step makes up for the carry that the
  -- rest of the chain starts with.
  induction source generalizing destination carry with
  | nil =>
      obtain rfl := List.length_eq_zero_iff.mp hlength.symm
      refine ⟨nofun, rfl, ?_⟩
      simp [CarryOperation.chain, Numeration.value]
  | cons s source ih =>
      cases destination with
      | nil => exact absurd hlength (Nat.succ_ne_zero _)
      | cons d destination =>
          obtain ⟨hs, hsource⟩ := List.forall_mem_cons.mp hsource
          obtain ⟨hd, hdestination⟩ := List.forall_mem_cons.mp hdestination
          have hdigit := h.isDigit carry hs hd
          have hbalance := h.balance carry hs hd
          obtain ⟨hnumber, hlength, hrest⟩ := ih (Nat.succ.inj hlength) hsource hdestination
            (operation.apply s d carry).2
          rw [List.zip_cons_cons, chain_cons]
          refine ⟨List.forall_mem_cons.mpr ⟨hdigit, hnumber⟩, congrArg Nat.succ hlength, ?_⟩
          simp only [Numeration.value_cons, List.length_cons, pow_succ, Nat.cast_add, Nat.cast_mul]
          linear_combination hbalance + numeration.base * hrest

theorem adc_balances : adc.Balances .binary 1 1 (·.toNat) where
  isDigit _ _ _ := trivial
  balance {s d} carry _ _ := by
    have hbalance := Outcome.add_balance (Status.bitIf carry Status.carry) d s carry
    simp only [apply, outcome, Status.has_bitIf_carry, Numeration.binary]
    omega

theorem sbb_balances : sbb.Balances .binary 1 (-1) (·.toNat - 1) where
  isDigit _ _ _ := trivial
  balance {s d} carry _ _ := by
    have hbalance := Outcome.subtract_balance (Status.bitIf carry Status.carry) d s (!carry)
    have hborrow := Outcome.toNat_not_add carry
    simp only [apply, outcome, Status.has_bitIf_carry, Numeration.binary]
    omega

theorem rlc_balances : rlc.Balances .binary 2 0 (·.toNat) where
  isDigit _ _ _ := trivial
  balance {s d} carry _ _ := by
    have hbalance := Outcome.rotateLeftCarry_balance (Status.bitIf carry Status.carry) d carry
    simp only [apply, outcome, Status.has_bitIf_carry, Numeration.binary]
    omega

theorem rrc_chain (source destination : List UInt8) (carry : Bool)
    (hlength : source.length = destination.length) :
    let result := rrc.chain carry (source.zip destination)
    result.1.length = destination.length ∧
    2 * Numeration.binary.value result.1.reverse + result.2.toNat =
      Numeration.binary.value destination.reverse + 256 ^ destination.length * carry.toNat := by
  -- The chain starts with the most significant byte, so that each byte is put at the far end.
  induction source generalizing destination carry with
  | nil =>
      obtain rfl := List.length_eq_zero_iff.mp hlength.symm
      refine ⟨rfl, ?_⟩
      simp [chain, Numeration.value]
  | cons s source ih =>
      cases destination with
      | nil => exact absurd hlength (Nat.succ_ne_zero _)
      | cons d destination =>
          have hstep : 2 * (rrc.apply s d carry).1.toNat + (rrc.apply s d carry).2.toNat =
              d.toNat + 256 * carry.toNat := by
            simp only [apply, outcome, Status.has_bitIf_carry]
            exact Outcome.rotateRightCarry_balance (Status.bitIf carry Status.carry) d carry
          obtain ⟨hlength, hrest⟩ := ih destination (rrc.apply s d carry).2 (Nat.succ.inj hlength)
          rw [List.zip_cons_cons, chain_cons]
          refine ⟨congrArg Nat.succ hlength, ?_⟩
          simp only [List.reverse_cons, Numeration.value_concat, List.length_reverse,
            List.length_cons, hlength, pow_succ]
          change 2 * (_ + 256 ^ destination.length * (rrc.apply s d carry).1.toNat) + _ =
            _ + 256 ^ destination.length * d.toNat + _
          linear_combination hrest + 256 ^ destination.length * hstep

end CarryOperation

/-- A chain has added two numbers of some length and a carry, and carries what does not fit. -/
structure IsSum (numeration : Numeration) (source destination : List UInt8) (carry : Bool)
    (result : List UInt8 × Bool) : Prop where
  isNumber : numeration.IsNumber result.1
  length_eq : result.1.length = destination.length
  value_eq : numeration.value result.1 =
    (numeration.value destination + numeration.value source + carry.toNat) %
      numeration.base ^ destination.length
  carry_iff : result.2 = true ↔ numeration.base ^ destination.length ≤
    numeration.value destination + numeration.value source + carry.toNat

/-- A chain has subtracted a number of some length and a borrow from another one, and carries when
the difference is not negative. -/
structure IsDifference (numeration : Numeration) (source destination : List UInt8) (borrow : Bool)
    (result : List UInt8 × Bool) : Prop where
  isNumber : numeration.IsNumber result.1
  length_eq : result.1.length = destination.length
  value_eq : (numeration.value result.1 : Int) =
    (numeration.value destination - numeration.value source - borrow.toNat) %
      (numeration.base ^ destination.length : Nat)
  carry_iff : result.2 = true ↔
    numeration.value source + borrow.toNat ≤ numeration.value destination

namespace CarryOperation

section

variable {operation : CarryOperation} {numeration : Numeration} {source destination : List UInt8}

theorem Balances.isSum (h : operation.Balances numeration 1 1 (·.toNat))
    (hlength : source.length = destination.length) (hsource : numeration.IsNumber source)
    (hdestination : numeration.IsNumber destination) (carry : Bool) :
    IsSum numeration source destination carry
      (operation.chain carry (source.zip destination)) := by
  obtain ⟨hnumber, hresult, hbalance⟩ := h.chain hlength hsource hdestination carry
  have hlt := hnumber.value_lt
  rw [hresult] at hlt
  simp only [one_mul] at hbalance
  norm_cast at hbalance
  refine ⟨hnumber, hresult, ?_, ?_⟩
  · rw [← hbalance, Nat.add_mul_mod_self_left, Nat.mod_eq_of_lt hlt]
  · rw [← hbalance]
    cases (operation.chain carry (source.zip destination)).2 with
    | false => simpa using hlt
    | true => simp

theorem Balances.isDifference (h : operation.Balances numeration 1 (-1) (·.toNat - 1))
    (hlength : source.length = destination.length) (hsource : numeration.IsNumber source)
    (hdestination : numeration.IsNumber destination) (borrow : Bool) :
    IsDifference numeration source destination borrow
      (operation.chain (!borrow) (source.zip destination)) := by
  obtain ⟨hnumber, hresult, hbalance⟩ := h.chain hlength hsource hdestination (!borrow)
  have hlt := hnumber.value_lt
  rw [hresult] at hlt
  have hborrow : (((!borrow).toNat : Int) - 1) = -borrow.toNat := by
    have hsum := Outcome.toNat_not_add borrow
    omega
  rw [hborrow] at hbalance
  generalize operation.chain (!borrow) (source.zip destination) = result at *
  have hdifference : (numeration.value destination - numeration.value source - borrow.toNat : Int) =
      numeration.value result.1 +
        (numeration.base ^ destination.length : Nat) * (result.2.toNat - 1) := by
    push_cast
    linear_combination -hbalance
  refine ⟨hnumber, hresult, ?_, ?_⟩
  · rw [hdifference, Int.add_mul_emod_self_left]
    exact (Int.emod_eq_of_lt (Int.natCast_nonneg _) (Int.ofNat_lt.mpr hlt)).symm
  · generalize numeration.base ^ destination.length = size at hlt hdifference
    cases hout : result.2 with
    | false =>
        rw [hout, Bool.toNat_false] at hdifference
        simp only [Bool.false_eq_true, false_iff]
        omega
    | true =>
        rw [hout, Bool.toNat_true] at hdifference
        simp only [true_iff]
        omega

end

end CarryOperation

/-- A chain has shifted a number up by one bit: a carry came in below, and the bit that left the
number is the carry. -/
structure IsDoubled (bytes : List UInt8) (carry : Bool) (result : List UInt8 × Bool) : Prop where
  length_eq : result.1.length = bytes.length
  value_eq : Numeration.binary.value result.1 =
    (2 * Numeration.binary.value bytes + carry.toNat) % 256 ^ bytes.length
  carry_eq : result.2 = (2 * Numeration.binary.value bytes + carry.toNat).testBit (8 * bytes.length)

/-- A chain has shifted a number down by one bit: a carry came in on top, and the lowest bit is the
carry. -/
structure IsHalved (bytes : List UInt8) (carry : Bool) (result : List UInt8 × Bool) : Prop where
  length_eq : result.1.length = bytes.length
  value_eq : Numeration.binary.value result.1 =
    Numeration.binary.value bytes / 2 + carry.toNat * (256 ^ bytes.length / 2)
  carry_eq : result.2 = if bytes = [] then carry else (Numeration.binary.value bytes).testBit 0

namespace CarryOperation

variable {source destination : List UInt8}

theorem isDoubled (hlength : source.length = destination.length) (carry : Bool) :
    IsDoubled destination carry (rlc.chain carry (source.zip destination)) := by
  obtain ⟨hnumber, hresult, hbalance⟩ :=
    rlc_balances.chain hlength (fun _ _ => trivial) (fun _ _ => trivial) carry
  generalize rlc.chain carry (source.zip destination) = result at *
  have hlt : Numeration.binary.value result.1 < 256 ^ result.1.length := hnumber.value_lt
  have hsum : Numeration.binary.value result.1 + 256 ^ destination.length * result.2.toNat =
      2 * Numeration.binary.value destination + carry.toNat := by
    rw [zero_mul, add_zero] at hbalance
    exact_mod_cast hbalance
  have hpow : 2 ^ (8 * destination.length) = 256 ^ destination.length := pow_mul 2 8 _
  rw [hresult] at hlt
  refine ⟨hresult, ?_, ?_⟩
  · rw [← hsum, Nat.add_mul_mod_self_left, Nat.mod_eq_of_lt hlt]
  · rw [← hsum, Nat.testBit_eq_decide_div_mod_eq, hpow,
      Nat.add_mul_div_left _ _ (Nat.pow_pos (by decide)), Nat.div_eq_of_lt hlt]
    cases result.2 with
    | false => rfl
    | true => rfl

theorem isHalved (hlength : source.length = destination.length) (carry : Bool) :
    let result := rrc.chain carry (source.zip destination).reverse
    IsHalved destination carry (result.1.reverse, result.2) := by
  have hreverse : (source.zip destination).reverse = source.reverse.zip destination.reverse :=
    List.reverse_zipWith hlength
  obtain ⟨hresult, hbalance⟩ :=
    rrc_chain source.reverse destination.reverse carry (by simpa using hlength)
  rw [← hreverse, List.length_reverse] at hresult
  rw [← hreverse, List.length_reverse, List.reverse_reverse] at hbalance
  generalize rrc.chain carry (source.zip destination).reverse = result at *
  have hlow := result.2.toNat_le
  have hcarry := carry.toNat_le
  cases destination with
  | nil =>
      have hnil : Numeration.binary.value [] = 0 := rfl
      rw [hnil, List.length_nil, pow_zero, one_mul, zero_add] at hbalance
      refine ⟨by simpa using hresult, ?_, ?_⟩
      · have hvalue : Numeration.binary.value result.1.reverse = 0 := by omega
        simpa [hnil] using hvalue
      · change result.2 = carry
        rw [Bool.eq_iff_iff, ← Bool.toNat_eq_one, ← Bool.toNat_eq_one]
        omega
  | cons d rest =>
      have hsize : 256 ^ (d :: rest).length = 2 * (128 * 256 ^ rest.length) := by
        rw [List.length_cons, pow_succ]
        omega
      rw [hsize, mul_assoc] at hbalance
      refine ⟨by simpa using hresult, ?_, ?_⟩
      · change Numeration.binary.value result.1.reverse = _
        rw [hsize, Nat.mul_div_cancel_left _ (by decide), Nat.mul_comm carry.toNat]
        omega
      · change result.2 = _
        rw [if_neg (List.cons_ne_nil d rest), Nat.testBit_zero, Bool.eq_iff_iff,
          ← Bool.toNat_eq_one, decide_eq_true_iff]
        omega

end CarryOperation

/-- Chains of the operations with carry are exact for binary numbers of any length, and what an
instruction does in one step of a chain is its operation. -/
theorem binary_chains_exact {source destination : List UInt8}
    (hlength : source.length = destination.length) (carry : Bool) {β : Type} [Bus β]
    (machine : Machine β) (limit : Nat) :
    let operands := source.zip destination
    let halved := CarryOperation.rrc.chain carry operands.reverse
    IsSum .binary source destination carry (CarryOperation.adc.chain carry operands) ∧
    IsDifference .binary source destination carry (CarryOperation.sbb.chain (!carry) operands) ∧
    IsDoubled destination carry (CarryOperation.rlc.chain carry operands) ∧
    IsHalved destination carry (halved.1.reverse, halved.2) ∧
    machine.CarriesByOperation (Exec.iterate limit machine).2.cpu.st := by
  intro operands halved
  refine ⟨?_, ?_, ?_, ?_, machine.carriesByOperation limit⟩
  · exact CarryOperation.adc_balances.isSum hlength (fun _ _ => trivial) (fun _ _ => trivial) carry
  · exact CarryOperation.sbb_balances.isDifference hlength (fun _ _ => trivial)
      (fun _ _ => trivial) carry
  · exact CarryOperation.isDoubled hlength carry
  · exact CarryOperation.isHalved hlength carry

/-- ADC is about to add 80 to FF in A, with carry set and interrupts enabled. -/
def Machine.beforeAdc : Machine FlatBus where
  cpu :=
    { (Cpu.ofConfig Variant.tms7000.config).setRegister 0 0xFF with
      pc := 0x2000
      st := 0x90 }
  bus := { memory := (Memory.zero.poke 0x2000 0x29).poke 0x2001 0x80 }

/-- The sum of two numbers of two bytes carries out twice, as the sum of the last bytes does. -/
theorem binary_chains_exact_of_two_bytes :
    let next := (Exec.iterate 100 Machine.beforeAdc).2
    CarryOperation.adc.chain true ([0xFF, 0x80].zip [0x01, 0xFF]) = ([0x01, 0x80], true) ∧
    IsSum .binary [0xFF, 0x80] [0x01, 0xFF] true ([0x01, 0x80], true) ∧
    Machine.beforeAdc.executes = some (.dual .adc .immediateToA) ∧
    next.cpu.register 0 = 0x80 ∧ Status.has next.cpu.st Status.carry = true ∧
    Status.Describes next.cpu.st 0x80 := by
  intro next
  have hlength : ([0xFF, 0x80] : List UInt8).length = ([0x01, 0xFF] : List UInt8).length := rfl
  obtain ⟨hsum, _, _, _, hstep⟩ := binary_chains_exact hlength true Machine.beforeAdc 100
  have hchain : CarryOperation.adc.chain true ([0xFF, 0x80].zip [0x01, 0xFF]) =
      ([0x01, 0x80], true) := by decide
  have hexecutes : Machine.beforeAdc.executes = some (.dual .adc .immediateToA) := by
    decide +kernel
  have hcarry : Status.has Machine.beforeAdc.checked.cpu.st Status.carry = true := by
    decide +kernel
  have hoperands : (Exec.dualCarryOperands .immediateToA Machine.beforeAdc.fetched.2).1 =
      ⟨0x80, 0xFF, 0⟩ := by
    decide +kernel
  have happlied : CarryOperation.adc.apply 0x80 0xFF true = (0x80, true) := by decide
  have hstored := hstep _ hexecutes (.adc, Exec.dualCarryOperands .immediateToA) rfl
  simp only [hcarry, hoperands, happlied] at hstored
  rw [hchain] at hsum
  exact ⟨hchain, hsum, hexecutes, by decide +kernel, hstored.carry, hstored.describes⟩

end TmsCores.Tms7000
