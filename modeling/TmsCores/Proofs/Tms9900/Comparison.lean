import TmsCores.Proofs.Arithmetic.Order
import TmsCores.Proofs.Tms9900.Division

namespace TmsCores.Tms9900

/-- Two operands of some width that are compared. -/
structure Comparison where
  width : Width
  left : UInt16
  right : UInt16
  deriving DecidableEq

namespace Comparison

def ofResult (width : Width) (result : UInt16) : Comparison :=
  ⟨width, result, 0⟩

end Comparison

namespace Status

/-- The status register tells how two operands compare, as unsigned and as signed numbers. -/
structure Compares (st : UInt16) (comparison : Comparison) : Prop where
  logicalGreater : has st logicalGreater = true ↔
    comparison.width.unsigned comparison.left > comparison.width.unsigned comparison.right
  arithmeticGreater : has st arithmeticGreater = true ↔
    comparison.width.signed comparison.left > comparison.width.signed comparison.right
  equal : has st equal = true ↔
    comparison.width.unsigned comparison.left = comparison.width.unsigned comparison.right

variable {comparison : Comparison}

theorem Compares.congr {before after : UInt16} (h : Compares before comparison)
    (hcomparison : after &&& Status.comparison = before &&& Status.comparison) :
    Compares after comparison := by
  constructor
  case logicalGreater =>
    rw [has_congr (by decide) hcomparison]
    exact h.logicalGreater
  case arithmeticGreater =>
    rw [has_congr (by decide) hcomparison]
    exact h.arithmeticGreater
  case equal =>
    rw [has_congr (by decide) hcomparison]
    exact h.equal

theorem Compares.withBit {st : UInt16} (h : Compares st comparison) {bit : UInt16}
    (hbit : bit &&& Status.comparison = 0) (set : Bool) :
    Compares (Word.withBit st bit set) comparison :=
  h.congr (Word.withBit_and hbit st set)

theorem compareZero_eq (st value : UInt16) (width : Width) :
    compareZero st value width = compareSigned st (width.signed value) := by
  have hzero : value &&& width.mask = 0 ↔ width.signed value = 0 := by
    rw [width.signed_eq_zero_iff, ← width.unsigned_zero, ← width.and_mask_eq_iff, UInt16.zero_and]
  have hsign : value &&& width.mask &&& width.signBit = 0 ↔ width.isNegative value = false := by
    have hmask : width.mask &&& width.signBit = width.signBit := by
      cases width with
      | byte => decide
      | word => decide
    rw [UInt16.and_assoc, hmask, ← width.signBit_and_ne, bne_eq_false_iff_eq]
  rw [compareZero, compareSigned]
  refine ite_congr (propext hzero) (fun _ => rfl) fun hvalue => ?_
  exact ite_congr (propext (hsign.trans (width.signed_pos_iff hvalue).symm)) (fun _ => rfl)
    fun _ => rfl

theorem compares_of_tellsSign {st value : UInt16} {width : Width}
    (h : TellsSign st (width.signed value)) : Compares st (.ofResult width value) where
  logicalGreater := by
    rw [h.logicalGreater, Comparison.ofResult, width.unsigned_zero, gt_iff_lt,
      Nat.pos_iff_ne_zero, ne_eq, width.signed_eq_zero_iff]
  arithmeticGreater := by
    rw [h.arithmeticGreater, Comparison.ofResult, width.signed_zero]
  equal := by
    rw [h.equal, Comparison.ofResult, width.unsigned_zero, width.signed_eq_zero_iff]

theorem compares_compareZero (st value : UInt16) (width : Width) :
    Compares (compareZero st value width) (.ofResult width value) := by
  rw [compareZero_eq]
  exact compares_of_tellsSign (tellsSign_compareSigned st _)

theorem has_withBit_of_disjoint {bit other : UInt16} (h : bit &&& other = 0) (st : UInt16)
    (set : Bool) : has (Word.withBit st bit set) other = has st other :=
  congrArg (· != 0) (Word.withBit_and h st set)

theorem compares_compare (st s d : UInt16) (width : Width) :
    Compares (compare st s d width) ⟨width, s, d⟩ where
  logicalGreater := by
    rw [compare, has_withBit_of_disjoint (by decide), has_withBit (by decide), decide_eq_true_iff,
      gt_iff_lt, UInt16.lt_iff_toNat_lt, width.toNat_and_mask, width.toNat_and_mask]
    rfl
  arithmeticGreater := by
    have hs := width.toNat_and_mask_xor_signBit s
    have hd := width.toNat_and_mask_xor_signBit d
    rw [compare, has_withBit (by decide), decide_eq_true_iff, gt_iff_lt, UInt16.lt_iff_toNat_lt]
    change _ ↔ width.signed s > width.signed d
    omega
  equal := by
    rw [compare, has_withBit_of_disjoint (by decide), has_withBit_of_disjoint (by decide),
      has_withBit (by decide), beq_iff_eq, width.and_mask_eq_iff]

theorem compares_result (st value : UInt16) (width : Width) :
    Compares (result st value width) (.ofResult width value) := by
  cases width with
  | byte => exact (compares_compareZero st value .byte).withBit (by decide) _
  | word => exact compares_compareZero st value .word

theorem compares_arithmetic (st value : UInt16) (flags : FlagSet) (width : Width) :
    Compares (arithmetic st value flags width) (.ofResult width value) :=
  ((compares_result st value width).withBit (by decide) _).withBit (by decide) _

end Status

/-- What operands a conditional jump asks for that looks at a comparison. -/
def JumpCondition.relation? : JumpCondition → Option (Comparison → Prop)
  | .jh => some fun c => c.width.unsigned c.left > c.width.unsigned c.right
  | .jl => some fun c => c.width.unsigned c.left < c.width.unsigned c.right
  | .jhe => some fun c => c.width.unsigned c.left ≥ c.width.unsigned c.right
  | .jle => some fun c => c.width.unsigned c.left ≤ c.width.unsigned c.right
  | .jeq => some fun c => c.width.unsigned c.left = c.width.unsigned c.right
  | .jne => some fun c => c.width.unsigned c.left ≠ c.width.unsigned c.right
  | .jgt => some fun c => c.width.signed c.left > c.width.signed c.right
  | .jlt => some fun c => c.width.signed c.left < c.width.signed c.right
  | .jmp | .jnc | .joc | .jno | .jop => none

/-- A comparison makes a conditional jump go by the order of the operands. -/
theorem Status.Compares.holds_iff {st : UInt16} {comparison : Comparison}
    (h : Compares st comparison) {condition : JumpCondition} {relation : Comparison → Prop}
    (hrelation : condition.relation? = some relation) :
    condition.holds st = true ↔ relation comparison := by
  have hsigned := comparison.width.signed_eq_iff comparison.left comparison.right
  cases condition with
  | jmp | jnc | joc | jno | jop => exact absurd hrelation nofun
  | jeq =>
      obtain rfl := Option.some.inj hrelation
      exact h.equal
  | jgt =>
      obtain rfl := Option.some.inj hrelation
      exact h.arithmeticGreater
  | jne =>
      obtain rfl := Option.some.inj hrelation
      rw [JumpCondition.holds, Bool.not_eq_true', ← Bool.not_eq_true, h.equal]
  | jlt =>
      obtain rfl := Option.some.inj hrelation
      rw [JumpCondition.holds, Bool.and_eq_true, Bool.not_eq_true', Bool.not_eq_true',
        ← Bool.not_eq_true, ← Bool.not_eq_true, h.arithmeticGreater, h.equal]
      omega
  | jle =>
      obtain rfl := Option.some.inj hrelation
      rw [JumpCondition.holds, Bool.or_eq_true, Bool.not_eq_true', ← Bool.not_eq_true,
        h.logicalGreater, h.equal]
      omega
  | jhe =>
      obtain rfl := Option.some.inj hrelation
      rw [JumpCondition.holds, Bool.or_eq_true, h.logicalGreater, h.equal]
      omega
  | jl =>
      obtain rfl := Option.some.inj hrelation
      rw [JumpCondition.holds, Bool.and_eq_true, Bool.not_eq_true', Bool.not_eq_true',
        ← Bool.not_eq_true, ← Bool.not_eq_true, h.logicalGreater, h.equal]
      omega
  | jh =>
      obtain rfl := Option.some.inj hrelation
      rw [JumpCondition.holds, Bool.and_eq_true, Bool.not_eq_true', ← Bool.not_eq_true,
        h.logicalGreater, h.equal]
      omega

end TmsCores.Tms9900
