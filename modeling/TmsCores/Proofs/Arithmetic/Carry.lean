import Mathlib.Algebra.Group.Nat.Even
import Mathlib.Data.Finset.Card
import Mathlib.Data.Finset.Range
import TmsCores.Proofs.Arithmetic.Overflow

namespace TmsCores

namespace Width

variable (width : Width)

theorem isNegative_or (a b : UInt16) :
    width.isNegative (a ||| b) = (width.isNegative a || width.isNegative b) := by
  rw [isNegative, UInt16.toNat_or, Nat.testBit_or]
  rfl

theorem isNegative_not (w : UInt16) : width.isNegative (~~~w) = !width.isNegative w := by
  have hbit : decide (width.bits - 1 < 16) = true := by
    cases width with
    | byte => rfl
    | word => rfl
  change (~~~w.toBitVec).getLsbD (width.bits - 1) = !w.toBitVec.getLsbD (width.bits - 1)
  rw [BitVec.getLsbD_not, hbit, Bool.true_and]

theorem signBit_and_eq (w : UInt16) : (w &&& width.signBit == 0) = !width.isNegative w := by
  rw [← width.signBit_and_ne, bne, Bool.not_not]

end Width

namespace FlagSet

variable {width : Width} {a b result : UInt16} {carry : Nat}

/-- An addition carries out when the exact sum of the operands, and of a carry, passes the width. -/
theorem carry_ofAdd (hcarry : carry ≤ 1)
    (hresult : result.toNat % width.size = (a.toNat + b.toNat + carry) % width.size) :
    (ofAdd a b result width).carry = true ↔
      width.size ≤ a.toNat % width.size + b.toNat % width.size + carry := by
  -- The flag is a formula in the three signs, and each sign says which half a value lies in.
  have hflag : (ofAdd a b result width).carry =
      (width.isNegative a && width.isNegative b ||
        (width.isNegative a || width.isNegative b) && !width.isNegative result) := by
    rw [← width.isNegative_not, ← width.isNegative_or, ← width.isNegative_and,
      ← width.isNegative_and, ← width.isNegative_or, ← width.signBit_and_ne]
    rfl
  have hsum := add_mod_cases hcarry hresult (Nat.two_pow_pos _)
  have heven := width.size_even
  rw [hflag]
  rcases width.signed_cases a with ⟨ha, hla, _⟩ | ⟨ha, hla, hlta, _⟩ <;>
    rcases width.signed_cases b with ⟨hb, hlb, _⟩ | ⟨hb, hlb, hltb, _⟩ <;>
      rcases width.signed_cases result with ⟨hr, hlr, _⟩ | ⟨hr, hlr, hltr, _⟩ <;>
        rw [ha, hb, hr] <;> simp <;> omega

theorem carry_ofSub (hcarry : carry ≤ 1)
    (hresult : a.toNat % width.size = (result.toNat + b.toNat + carry) % width.size) :
    (ofSub a b result width).carry = true ↔
      b.toNat % width.size + carry ≤ a.toNat % width.size := by
  have hflag : (ofSub a b result width).carry =
      !(!width.isNegative a && width.isNegative b ||
        (!width.isNegative a || width.isNegative b) && width.isNegative result) := by
    rw [← width.isNegative_not, ← width.isNegative_or, ← width.isNegative_and,
      ← width.isNegative_and, ← width.isNegative_or, ← width.signBit_and_eq]
    rfl
  have hsum := add_mod_cases hcarry hresult (Nat.two_pow_pos _)
  have heven := width.size_even
  rw [hflag]
  rcases width.signed_cases a with ⟨ha, hla, _⟩ | ⟨ha, hla, hlta, _⟩ <;>
    rcases width.signed_cases b with ⟨hb, hlb, _⟩ | ⟨hb, hlb, hltb, _⟩ <;>
      rcases width.signed_cases result with ⟨hr, hlr, _⟩ | ⟨hr, hlr, hltr, _⟩ <;>
        rw [ha, hb, hr] <;> simp <;> omega

end FlagSet

theorem Word.onesCount_eq_card (width n : Nat) :
    onesCount width n = ((Finset.range width).filter (n.testBit · = true)).card := by
  rw [onesCount, List.countP_eq_length_filter]
  change _ = ((List.range width).filter fun i => decide (n.testBit i = true)).length
  simp only [Bool.decide_eq_true]

namespace Width

/-- The lowest bits of a word, which are all that an operation of a width looks at. -/
def operand (width : Width) (w : UInt16) : BitVec width.bits :=
  w.toBitVec.setWidth width.bits

variable (width : Width)

theorem toNat_operand (w : UInt16) : (width.operand w).toNat = w.toNat % width.size :=
  BitVec.toNat_setWidth _ _

theorem toInt_operand (w : UInt16) : (width.operand w).toInt = width.signed w := by
  rw [BitVec.toInt_eq_toNat_bmod, toNat_operand, Int.natCast_mod]
  exact Int.emod_bmod _ _

end Width

namespace FlagSet

/-- What the flags tell about a result of some bits, apart from how it came about. -/
structure Shows (flags : FlagSet) {bits : Nat} (result : BitVec bits) : Prop where
  zero_iff : flags.zero = true ↔ result = 0
  negative_iff : flags.negative = true ↔ result.toInt < 0
  /-- The ones are counted by their places in the low byte. -/
  parity_iff : flags.parity = true ↔
    Odd ((Finset.range 8).filter (result.getLsbD · = true)).card

variable {width : Width}

theorem zero_ofResult_iff (result : UInt16) :
    (ofResult result width).zero = true ↔ width.operand result = 0 := by
  rw [← BitVec.toNat_inj, width.toNat_operand, ← width.toNat_and_mask]
  exact beq_iff_eq.trans UInt16.toNat_inj.symm

theorem negative_ofResult_iff (result : UInt16) :
    (ofResult result width).negative = true ↔ (width.operand result).toInt < 0 := by
  rw [BitVec.toInt_neg_iff, width.toNat_operand]
  change (result &&& width.signBit != 0) = true ↔ _
  rw [width.signBit_and_ne]
  exact width.isNegative_iff result

theorem parity_ofResult_iff (result : UInt16) :
    (ofResult result width).parity = true ↔
      Odd ((Finset.range 8).filter ((width.operand result).getLsbD · = true)).card := by
  have hbyte : 8 ≤ width.bits := by
    cases width with
    | byte => decide
    | word => decide
  have hsame : ∀ i ∈ Finset.range 8, (Word.low result).toNat.testBit i = true ↔
      (width.operand result).getLsbD i = true := by
    intro i hi
    have hlt : i < 8 := Finset.mem_range.mp hi
    rw [Word.toNat_low, ← BitVec.testBit_toNat, width.toNat_operand, Width.size]
    change (result.toNat % 2 ^ 8).testBit i = true ↔ _
    rw [Nat.testBit_mod_two_pow, Nat.testBit_mod_two_pow, decide_eq_true hlt,
      decide_eq_true (Nat.lt_of_lt_of_le hlt hbyte)]
  rw [← Finset.filter_congr hsame, ← Word.onesCount_eq_card, Nat.odd_iff]
  exact beq_iff_eq

theorem shows_ofResult (result : UInt16) : (ofResult result width).Shows (width.operand result) :=
  ⟨zero_ofResult_iff result, negative_ofResult_iff result, parity_ofResult_iff result⟩

theorem shows_ofAdd (a b result : UInt16) :
    (ofAdd a b result width).Shows (width.operand result) :=
  { shows_ofResult result with }

theorem shows_ofSub (a b result : UInt16) :
    (ofSub a b result width).Shows (width.operand result) :=
  { shows_ofResult result with }

variable {a b result : UInt16} {carryIn : Bool}

theorem mod_of_operand_add (h : width.operand result =
    width.operand a + width.operand b + BitVec.ofNat _ carryIn.toNat) :
    result.toNat % width.size = (a.toNat + b.toNat + carryIn.toNat) % width.size := by
  have hmod := congrArg BitVec.toNat h
  rw [BitVec.toNat_add, BitVec.toNat_add, BitVec.toNat_ofNat, width.toNat_operand,
    width.toNat_operand, width.toNat_operand] at hmod
  rw [hmod, Width.size]
  simp only [Nat.add_mod, Nat.mod_mod]

theorem mod_of_operand_sub (h : width.operand result =
    width.operand a - width.operand b - BitVec.ofNat _ carryIn.toNat) :
    a.toNat % width.size = (result.toNat + b.toNat + carryIn.toNat) % width.size := by
  apply mod_of_operand_add
  rw [h, BitVec.add_assoc, BitVec.add_comm (width.operand b), ← BitVec.add_assoc,
    BitVec.sub_add_cancel, BitVec.sub_add_cancel]

/-- The flags of a sum and of a difference are those of the exact numbers, although the carry or
borrow that came in is not seen by them, and neither is what the words hold above their operands. -/
theorem exact_with_carry {a b : BitVec width.bits} {x y : UInt16} (hx : width.operand x = a)
    (hy : width.operand y = b) (carryIn : Bool) (result : UInt16) :
    (width.operand result = a + b + BitVec.ofNat _ carryIn.toNat →
      let flags := ofAdd x y result width
      (flags.carry = true ↔ 2 ^ width.bits ≤ a.toNat + b.toNat + carryIn.toNat) ∧
      (flags.overflow = true ↔ ¬width.Fits (a.toInt + b.toInt + carryIn.toNat)) ∧
      flags.Shows (a + b + BitVec.ofNat _ carryIn.toNat)) ∧
    (width.operand result = a - b - BitVec.ofNat _ carryIn.toNat →
      let flags := ofSub x y result width
      (flags.carry = true ↔ b.toNat + carryIn.toNat ≤ a.toNat) ∧
      (flags.overflow = true ↔ ¬width.Fits (a.toInt - b.toInt - carryIn.toNat)) ∧
      flags.Shows (a - b - BitVec.ofNat _ carryIn.toNat)) := by
  subst hx hy
  have hcarry : carryIn.toNat ≤ 1 := Bool.toNat_le carryIn
  rw [width.toNat_operand, width.toNat_operand, width.toInt_operand, width.toInt_operand]
  constructor
  · intro hresult flags
    have hmod := mod_of_operand_add hresult
    rw [← hresult]
    exact ⟨carry_ofAdd hcarry hmod, overflow_ofAdd hcarry hmod, shows_ofAdd x y result⟩
  · intro hresult flags
    have hmod := mod_of_operand_sub hresult
    rw [← hresult]
    exact ⟨carry_ofSub hcarry hmod, overflow_ofSub hcarry hmod, shows_ofSub x y result⟩

/-- Only with the carry does 7F + 00 overflow, and only with the borrow does 80 - 00, whatever the
words hold above.  The low byte of 7FFF + 1 has no ones. -/
theorem exact_with_carry_at_extremes :
    Width.byte.operand 0x127F = 0x7F ∧ Width.byte.operand 0x3480 = 0x80 ∧
      Width.byte.operand 0x5600 = 0 ∧
      (ofAdd 0x127F 0x5600 0xAB80 .byte).overflow = true ∧
      (ofAdd 0x127F 0x5600 0xAB80 .byte).carry = false ∧
      (ofAdd 0x127F 0x5600 0xAB80 .byte).parity = true ∧
      (ofSub 0x3480 0x5600 0xAB7F .byte).overflow = true ∧
      (ofSub 0x3480 0x5600 0xAB7F .byte).carry = true ∧
      (ofSub 0x3480 0x5600 0xAB7F .byte).parity = true ∧
      (ofAdd 0x7FFF 0 0x8000 .word).overflow = true ∧
      (ofAdd 0x7FFF 0 0x8000 .word).parity = false := by
  have hmax : Width.byte.operand 0x127F = 0x7F := by decide
  have hmin : Width.byte.operand 0x3480 = 0x80 := by decide
  have hzero : Width.byte.operand 0x5600 = 0 := by decide
  have hword : Width.word.operand 0x7FFF = 0x7FFF := by decide
  have hnone : Width.word.operand 0 = 0 := by decide
  obtain ⟨hcarry, hoverflow, hsum⟩ := (exact_with_carry hmax hzero true 0xAB80).1 (by decide)
  obtain ⟨hkept, hunderflow, hdifference⟩ :=
    (exact_with_carry hmin hzero true 0xAB7F).2 (by decide)
  obtain ⟨_, hpassed, heven⟩ :=
    (exact_with_carry hword hnone true 0x8000).1 (by decide)
  exact ⟨hmax, hmin, hzero, hoverflow.mpr (by decide),
    Bool.eq_false_iff.mpr (mt hcarry.mp (by decide)), hsum.parity_iff.mpr (by decide),
    hunderflow.mpr (by decide), hkept.mpr (by decide), hdifference.parity_iff.mpr (by decide),
    hpassed.mpr (by decide), Bool.eq_false_iff.mpr (mt heven.parity_iff.mp (by decide))⟩

end FlagSet

end TmsCores
