namespace TmsCores.PackedDecimal

/-- Takes the bias of six back out of every digit of `sum` that produced no decimal carry.
`halfSum` is the sum of the same operands without carries, so a digit whose successor's lowest
bit agrees in both sums carried nothing. -/
def correct (sum halfSum : UInt16) : UInt16 :=
  let idle := ~~~(sum ^^^ halfSum) &&& 0x1110
  sum - ((idle >>> 2) ||| (idle >>> 3))

/-- The sum of two packed decimal numbers of two digits.  All digits are biased by six before the
binary addition; bit 8 of the result is the decimal carry. -/
def add (a b : UInt16) : UInt16 :=
  let biased := a + 0x0666
  correct (biased + b) (biased ^^^ b)

/-- The ten's complement of a packed decimal number, which turns subtraction into addition. -/
def tenComplement (a : UInt16) : UInt16 :=
  correct (0 - a) ((0xFFFF - a) ^^^ 0x0001)

/-- The difference of two packed decimal numbers of two digits.  Bit 8 of the result says that
nothing was borrowed, except that it stays clear when `b` is zero, whose complement is zero. -/
def sub (a b : UInt16) : UInt16 :=
  add a (tenComplement b &&& 0xFF)

end TmsCores.PackedDecimal
