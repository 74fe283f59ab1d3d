import TmsCores.Proofs.Arithmetic.Mask
import TmsCores.Tms9900.Status

namespace TmsCores.Tms9900.Status

open Word

theorem has_withBit {bit : UInt16} (hbit : bit ≠ 0) (st : UInt16) (set : Bool) :
    has (withBit st bit set) bit = set := by
  rw [has, withBit_and_self]
  cases set with
  | false => exact bne_self_eq_false 0
  | true => exact bne_iff_ne.mpr hbit

/-- The bits that instructions change one by one. -/
def writable : UInt16 :=
  0xFE0F

/-- The bits that are only ever written together with the rest of the status register. -/
def reserved : UInt16 :=
  ~~~writable

def KeepsReserved (change : UInt16 → UInt16) : Prop :=
  ∀ st, change st &&& reserved = st &&& reserved

/-- All bits but those that tell how an operation came out. -/
def control : UInt16 :=
  0x01FF

/-- A change of the status register that leaves all but the outcome of the latest operation
alone. -/
def KeepsControl (change : UInt16 → UInt16) : Prop :=
  ∀ st, change st &&& control = st &&& control

section Bits

variable {bits : UInt16}

theorem comparison_parts (h : comparison &&& bits = 0) :
    logicalGreater &&& bits = 0 ∧ arithmeticGreater &&& bits = 0 ∧ equal &&& bits = 0 := by
  have hof {part : UInt16} (hpart : part &&& comparison = part) : part &&& bits = 0 := by
    rw [← hpart, UInt16.and_assoc, h, UInt16.and_zero]
  exact ⟨hof (by decide), hof (by decide), hof (by decide)⟩

theorem compareZero_and (hcomparison : comparison &&& bits = 0) (st value : UInt16)
    (width : Width) : compareZero st value width &&& bits = st &&& bits := by
  obtain ⟨hlogical, harithmetic, hequal⟩ := comparison_parts hcomparison
  have hrest : (st &&& ~~~comparison) &&& bits = st &&& bits := andNot_and_of_disjoint hcomparison
  unfold compareZero
  dsimp only
  split
  · rw [or_and_of_disjoint hequal, hrest]
  · split
    · rw [or_and_of_disjoint harithmetic, or_and_of_disjoint hlogical, hrest]
    · rw [or_and_of_disjoint hlogical, hrest]

theorem compareSigned_and (hcomparison : comparison &&& bits = 0) (st : UInt16) (value : Int) :
    compareSigned st value &&& bits = st &&& bits := by
  obtain ⟨hlogical, harithmetic, hequal⟩ := comparison_parts hcomparison
  have hrest : (st &&& ~~~comparison) &&& bits = st &&& bits := andNot_and_of_disjoint hcomparison
  unfold compareSigned
  dsimp only
  split
  · rw [or_and_of_disjoint hequal, hrest]
  · split
    · rw [or_and_of_disjoint harithmetic, or_and_of_disjoint hlogical, hrest]
    · rw [or_and_of_disjoint hlogical, hrest]

theorem compare_and (hcomparison : comparison &&& bits = 0) (st s d : UInt16) (width : Width) :
    compare st s d width &&& bits = st &&& bits := by
  obtain ⟨hlogical, harithmetic, hequal⟩ := comparison_parts hcomparison
  rw [compare, withBit_and harithmetic, withBit_and hlogical, withBit_and hequal,
    andNot_and_of_disjoint hcomparison]

theorem withMask_and {level : UInt16} (hmask : mask &&& bits = 0) (hlevel : level &&& bits = 0)
    (st : UInt16) : withMask st level &&& bits = st &&& bits := by
  rw [withMask, or_and_of_disjoint hlevel, andNot_and_of_disjoint hmask]

end Bits

/-- The bits that tell how a result compares with zero, with the parity of a byte. -/
def resultBits : Width → UInt16
  | .byte => comparison ||| parity
  | .word => comparison

/-- The bits that an arithmetic operation sets. -/
def arithmeticBits (width : Width) : UInt16 :=
  resultBits width ||| carry ||| overflow

def Changes (bits : UInt16) (change : UInt16 → UInt16) : Prop :=
  ∀ st, change st &&& ~~~bits = st &&& ~~~bits

namespace Changes

variable {bits : UInt16} {change : UInt16 → UInt16}

theorem and_eq (h : Changes bits change) {kept : UInt16} (hkept : bits &&& kept = 0)
    (st : UInt16) : change st &&& kept = st &&& kept := by
  rw [← not_and_of_disjoint hkept, ← UInt16.and_assoc, h, UInt16.and_assoc]

theorem keepsControl (h : Changes bits change) (hbits : bits &&& control = 0) :
    KeepsControl change :=
  h.and_eq hbits

theorem keepsReserved (h : Changes bits change) (hbits : bits &&& reserved = 0) :
    KeepsReserved change :=
  h.and_eq hbits

theorem withBit {bit : UInt16} (h : bit &&& ~~~bits = 0) (set : Bool) :
    Changes bits (Word.withBit · bit set) :=
  fun st => withBit_and h st set

theorem or {added : UInt16} (h : added &&& ~~~bits = 0) : Changes bits (· ||| added) :=
  fun _ => or_and_of_disjoint h

theorem andNot {removed : UInt16} (h : removed &&& ~~~bits = 0) :
    Changes bits (· &&& ~~~removed) :=
  fun _ => andNot_and_of_disjoint h

theorem comp {f g : UInt16 → UInt16} (hf : Changes bits f) (hg : Changes bits g) :
    Changes bits fun st => f (g st) :=
  fun st => (hf (g st)).trans (hg st)

theorem compareZero (h : comparison &&& ~~~bits = 0) (value : UInt16) (width : Width) :
    Changes bits (Status.compareZero · value width) :=
  fun st => compareZero_and h st value width

theorem compareSigned (h : comparison &&& ~~~bits = 0) (value : Int) :
    Changes bits (Status.compareSigned · value) :=
  fun st => compareSigned_and h st value

theorem compare (h : comparison &&& ~~~bits = 0) (s d : UInt16) (width : Width) :
    Changes bits (Status.compare · s d width) :=
  fun st => compare_and h st s d width

theorem comparison (s d : UInt16) (width : Width) :
    Changes (resultBits width) fun st =>
      match width with
      | .byte => Word.withBit (Status.compare st s d width) parity (oddParity (Word.low s))
      | .word => Status.compare st s d width := by
  cases width with
  | byte => exact .comp (.withBit (by decide) _) (.compare (by decide) s d .byte)
  | word => exact .compare (by decide) s d .word

theorem withMask {level : UInt16} (h : level &&& ~~~mask = 0) :
    Changes mask (Status.withMask · level) :=
  withMask_and (by decide) h

theorem result (value : UInt16) (width : Width) :
    Changes (resultBits width) (Status.result · value width) := by
  cases width with
  | byte => exact .comp (.withBit (by decide) _) (.compareZero (by decide) value .byte)
  | word => exact .compareZero (by decide) value .word

theorem arithmetic (value : UInt16) (flags : FlagSet) (width : Width) :
    Changes (arithmeticBits width) (Status.arithmetic · value flags width) := by
  cases width with
  | byte =>
      exact .comp (.withBit (by decide) _) (.comp (.withBit (by decide) _)
        (.comp (.withBit (by decide) _) (.compareZero (by decide) value .byte)))
  | word =>
      exact .comp (.withBit (by decide) _)
        (.comp (.withBit (by decide) _) (.compareZero (by decide) value .word))

end Changes

theorem KeepsControl.keepsReserved {change : UInt16 → UInt16} (h : KeepsControl change) :
    KeepsReserved change := by
  have hreserved : control &&& reserved = reserved := by decide
  intro st
  rw [← hreserved, ← UInt16.and_assoc, h, UInt16.and_assoc]

theorem KeepsReserved.withMask {level : UInt16} (hlevel : level &&& reserved = 0) :
    KeepsReserved (Status.withMask · level) :=
  withMask_and (by decide) hlevel

end TmsCores.Tms9900.Status
