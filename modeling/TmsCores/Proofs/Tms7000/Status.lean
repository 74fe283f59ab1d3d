import TmsCores.Tms7000.Arithmetic

namespace TmsCores.Tms7000

namespace Status

theorem or_and_distrib (a b c : UInt8) : (a ||| b) &&& c = (a &&& c) ||| (b &&& c) := by
  apply UInt8.toNat_inj.mp
  simp only [UInt8.toNat_and, UInt8.toNat_or, Nat.and_or_distrib_right]

/-- Only bits that the status register has are set. -/
def IsStored (st : UInt8) : Prop :=
  st &&& 0x0F = 0

instance (st : UInt8) : Decidable (IsStored st) :=
  inferInstanceAs (Decidable (st &&& 0x0F = 0))

theorem IsStored.mask (st : UInt8) : IsStored (st &&& Status.mask) := by
  rw [IsStored, UInt8.and_assoc]
  exact UInt8.and_zero

theorem IsStored.and_mask {st : UInt8} (h : IsStored st) : st &&& Status.mask = st := by
  have hall : Status.mask ||| 0x0F = 0xFF := by decide
  have hsplit : (Status.mask ||| 0x0F) &&& st = (Status.mask &&& st) ||| (0x0F &&& st) :=
    or_and_distrib _ _ st
  rw [UInt8.and_comm 0x0F, h, hall, UInt8.or_zero, UInt8.and_comm _ st, UInt8.and_comm _ st]
    at hsplit
  exact hsplit.symm.trans UInt8.and_neg_one

/-- The bits that tell how an operation came out. -/
def flags : UInt8 :=
  0xE0

/-- What the status register can turn into by an operation that only sets flags. -/
def Follows (st next : UInt8) : Prop :=
  next &&& ~~~flags = st &&& interruptEnable

namespace Follows

variable {st next : UInt8}

theorem isStored (h : Follows st next) : IsStored next := by
  have hlow : ~~~flags &&& 0x0F = 0x0F := by decide
  have henable : interruptEnable &&& 0x0F = 0 := by decide
  rw [IsStored, ← hlow, ← UInt8.and_assoc, h, UInt8.and_assoc, henable, UInt8.and_zero]

theorem enable_eq (h : Follows st next) : next &&& interruptEnable = st &&& interruptEnable := by
  have henable : ~~~flags &&& interruptEnable = interruptEnable := by decide
  rw [← henable, ← UInt8.and_assoc, h, UInt8.and_assoc, henable, UInt8.and_self]

theorem enable (st : UInt8) : Follows st (st &&& interruptEnable) := by
  have henable : interruptEnable &&& ~~~flags = interruptEnable := by decide
  rw [Follows, UInt8.and_assoc, henable]

theorem or (h : Follows st next) {bits : UInt8} (hbits : bits &&& ~~~flags = 0) :
    Follows st (next ||| bits) := by
  rw [Follows, or_and_distrib, hbits, UInt8.or_zero, h]

theorem orIf (h : Follows st next) {bit : UInt8} (hbit : bit &&& ~~~flags = 0) (set : Bool) :
    Follows st (next ||| bitIf set bit) := by
  cases set with
  | false => exact h.or UInt8.zero_and
  | true => exact h.or hbit

theorem logical (st value : UInt8) : Follows st (Status.logical st value) :=
  ((enable st).orIf (by decide) _).orIf (by decide) _

theorem arithmetic (st : UInt8) (flags : FlagSet) : Follows st (Status.arithmetic st flags) :=
  (((enable st).orIf (by decide) _).orIf (by decide) _).orIf (by decide) _

theorem withCarry (h : Follows st next) (set : Bool) : Follows st (Status.withCarry next set) := by
  cases set with
  | false =>
      have hcarry : ~~~carry &&& ~~~flags = ~~~flags := by decide
      rw [Follows, Status.withCarry, if_neg Bool.false_ne_true, UInt8.and_assoc, hcarry, h]
  | true => exact h.or (by decide)

end Follows

/-- Sign and zero describe a byte. -/
structure Describes (st byte : UInt8) : Prop where
  negative : has st negative = (byte &&& 0x80 != 0)
  zero : has st zero = (byte == 0)

theorem and_bitIf (set : Bool) (bit : UInt8) : bitIf set bit &&& bit = bitIf set bit := by
  cases set with
  | false => exact UInt8.zero_and
  | true => exact UInt8.and_self

theorem bitIf_and_of_disjoint {bit other : UInt8} (h : bit &&& other = 0) (set : Bool) :
    bitIf set bit &&& other = 0 := by
  cases set with
  | false => exact UInt8.zero_and
  | true => exact h

theorem bitIf_ne_zero {bit : UInt8} (h : bit ≠ 0) (set : Bool) : (bitIf set bit != 0) = set := by
  cases set with
  | false => rfl
  | true => exact bne_iff_ne.mpr h

theorem enable_and {bit : UInt8} (h : interruptEnable &&& bit = 0) (st : UInt8) :
    (st &&& interruptEnable) &&& bit = 0 := by
  rw [UInt8.and_assoc, h, UInt8.and_zero]

section Arithmetic

variable (st : UInt8) (flags : FlagSet)

theorem has_carry_arithmetic : has (arithmetic st flags) carry = flags.carry := by
  rw [has, arithmetic, or_and_distrib, or_and_distrib, or_and_distrib, enable_and (by decide),
    and_bitIf, bitIf_and_of_disjoint (by decide), bitIf_and_of_disjoint (by decide), UInt8.or_zero,
    UInt8.or_zero, UInt8.zero_or, bitIf_ne_zero (by decide)]

theorem has_negative_arithmetic : has (arithmetic st flags) negative = flags.negative := by
  rw [has, arithmetic, or_and_distrib, or_and_distrib, or_and_distrib, enable_and (by decide),
    and_bitIf, bitIf_and_of_disjoint (by decide), bitIf_and_of_disjoint (by decide), UInt8.or_zero,
    UInt8.zero_or, UInt8.zero_or, bitIf_ne_zero (by decide)]

theorem has_zero_arithmetic : has (arithmetic st flags) zero = flags.zero := by
  rw [has, arithmetic, or_and_distrib, or_and_distrib, or_and_distrib, enable_and (by decide),
    and_bitIf, bitIf_and_of_disjoint (by decide), bitIf_and_of_disjoint (by decide), UInt8.zero_or,
    UInt8.zero_or, UInt8.zero_or, bitIf_ne_zero (by decide)]

end Arithmetic

/-- A logical operation is an arithmetic one without a carry. -/
theorem logical_eq (st value : UInt8) : logical st value =
    arithmetic st { zero := value == 0, negative := value &&& 0x80 != 0 } := by
  have hcarry : bitIf false carry = 0 := rfl
  rw [logical, arithmetic, hcarry, UInt8.or_zero, UInt8.or_assoc, UInt8.or_assoc,
    UInt8.or_comm (bitIf _ zero)]

theorem setc_eq (st : UInt8) : (st &&& interruptEnable) ||| carry ||| zero =
    arithmetic st { carry := true, zero := true } := by
  have hnegative : bitIf false negative = 0 := rfl
  rw [arithmetic, hnegative, UInt8.or_zero]
  rfl

theorem has_carry_logical (st value : UInt8) : has (logical st value) carry = false := by
  rw [logical_eq, has_carry_arithmetic]

theorem has_withCarry {bit : UInt8} (h : carry &&& bit = 0) (hkept : ~~~carry &&& bit = bit)
    (st : UInt8) (set : Bool) : has (withCarry st set) bit = has st bit := by
  cases set with
  | false =>
      change (st &&& ~~~carry &&& bit != 0) = (st &&& bit != 0)
      rw [UInt8.and_assoc, hkept]
  | true =>
      change ((st ||| carry) &&& bit != 0) = (st &&& bit != 0)
      rw [or_and_distrib, h, UInt8.or_zero]

namespace Describes

variable {st byte : UInt8}

theorem arithmetic {flags : FlagSet} (hnegative : flags.negative = (byte &&& 0x80 != 0))
    (hzero : flags.zero = (byte == 0)) : Describes (Status.arithmetic st flags) byte where
  negative := (has_negative_arithmetic st flags).trans hnegative
  zero := (has_zero_arithmetic st flags).trans hzero

theorem logical (st byte : UInt8) : Describes (Status.logical st byte) byte := by
  rw [logical_eq]
  exact .arithmetic rfl rfl

theorem withCarry (h : Describes st byte) (set : Bool) :
    Describes (Status.withCarry st set) byte where
  negative := (has_withCarry (by decide) (by decide) st set).trans h.negative
  zero := (has_withCarry (by decide) (by decide) st set).trans h.zero

theorem not_both (h : Describes st byte) :
    ¬(has st Status.negative = true ∧ has st Status.zero = true) := by
  rintro ⟨hnegative, hzero⟩
  rw [h.zero, beq_iff_eq] at hzero
  rw [h.negative, hzero] at hnegative
  exact absurd hnegative (by decide)

end Describes

end Status

theorem FlagSet.negative_ofResult (byte : UInt8) :
    (FlagSet.ofResult byte.toUInt16 .byte).negative = (byte &&& 0x80 != 0) := by
  change (byte.toUInt16 &&& UInt8.toUInt16 0x80 != 0) = _
  rw [← UInt8.toUInt16_and, Bool.eq_iff_iff, bne_iff_ne, bne_iff_ne]
  exact not_congr (UInt8.toUInt16_inj (b := 0))

theorem FlagSet.zero_ofResult (byte : UInt8) :
    (FlagSet.ofResult byte.toUInt16 .byte).zero = (byte == 0) := by
  change (byte.toUInt16 &&& UInt8.toUInt16 0xFF == 0) = _
  have hall : byte &&& 0xFF = byte := UInt8.and_neg_one
  rw [← UInt8.toUInt16_and, hall, Bool.eq_iff_iff, beq_iff_eq, beq_iff_eq]
  exact UInt8.toUInt16_inj (b := 0)

namespace Outcome

/-- The status of an outcome differs from an old one in its flags only. -/
def SetsFlags (st : UInt8) (outcome : Outcome) : Prop :=
  Status.Follows st outcome.st

namespace SetsFlags

theorem logical (st value : UInt8) : SetsFlags st (.logical st value) :=
  Status.Follows.logical st value

theorem withCarry (st value : UInt8) (carry : Bool) : SetsFlags st (.withCarry st value carry) :=
  (Status.Follows.logical st value).withCarry carry

theorem add (st d s : UInt8) (carryIn : Bool) : SetsFlags st (.add st d s carryIn) :=
  Status.Follows.arithmetic st _

theorem subtract (st d s : UInt8) (borrowIn : Bool) : SetsFlags st (.subtract st d s borrowIn) :=
  Status.Follows.arithmetic st _

theorem addDecimal (st d s : UInt8) (carryIn : Bool) :
    SetsFlags st (.addDecimal st d s carryIn) :=
  withCarry st _ _

theorem subtractDecimal (st d s : UInt8) (borrowIn : Bool) :
    SetsFlags st (.subtractDecimal st d s borrowIn) := by
  unfold Outcome.subtractDecimal
  dsimp only
  split
  · exact withCarry st _ _
  · exact withCarry st _ _

end SetsFlags

/-- The status of an outcome describes its value. -/
def Shows (outcome : Outcome) : Prop :=
  Status.Describes outcome.st outcome.value

namespace Shows

variable (st d s v : UInt8) (carryIn : Bool)

theorem withCarry (carry : Bool) : (Outcome.withCarry st v carry).Shows :=
  (Status.Describes.logical st v).withCarry carry

theorem add : (Outcome.add st d s carryIn).Shows :=
  .arithmetic (FlagSet.negative_ofResult _) (FlagSet.zero_ofResult _)

theorem subtract : (Outcome.subtract st d s carryIn).Shows :=
  .arithmetic (FlagSet.negative_ofResult _) (FlagSet.zero_ofResult _)

theorem addDecimal : (Outcome.addDecimal st d s carryIn).Shows :=
  withCarry st _ _

theorem subtractDecimal : (Outcome.subtractDecimal st d s carryIn).Shows := by
  unfold Outcome.subtractDecimal
  dsimp only
  split
  · exact withCarry st _ _
  · exact withCarry st _ _

end Shows

end Outcome

end TmsCores.Tms7000
