namespace TmsCores.Word

def high (w : UInt16) : UInt8 :=
  (w >>> 8).toUInt8

def low (w : UInt16) : UInt8 :=
  w.toUInt8

/-- The word with the given bytes, the more significant one first. -/
def ofBytes (hi lo : UInt8) : UInt16 :=
  (hi.toUInt16 <<< 8) ||| lo.toUInt16

/-- The word at or just below `w` that has an even address. -/
def even (w : UInt16) : UInt16 :=
  w &&& 0xFFFE

/-- A byte read as a two's complement number and widened to a word. -/
def signExtend (b : UInt8) : UInt16 :=
  if b &&& 0x80 = 0 then b.toUInt16 else b.toUInt16 ||| 0xFF00

def toSigned (w : UInt16) : Int :=
  if w &&& 0x8000 = 0 then w.toNat else (w.toNat : Int) - 0x10000

/-- `w` with the bits of `bit` set or cleared. -/
def withBit (w bit : UInt16) (set : Bool) : UInt16 :=
  if set then w ||| bit else w &&& ~~~bit

/-- The number of one bits among the lowest `width` bits of `n`. -/
def onesCount (width n : Nat) : Nat :=
  (List.range width).countP n.testBit

theorem toNat_ofBytes (hi lo : UInt8) :
    (ofBytes hi lo).toNat = hi.toNat * 256 + lo.toNat := by
  have hhi : hi.toNat < 256 := hi.toNat_lt
  have hlo : lo.toNat < 2 ^ 8 := lo.toNat_lt
  rw [ofBytes, UInt16.toNat_or, UInt16.toNat_shiftLeft]
  simp only [UInt8.toNat_toUInt16, UInt16.reduceToNat, Nat.reduceMod]
  rw [Nat.mod_eq_of_lt (by rw [Nat.shiftLeft_eq]; omega),
    ← Nat.shiftLeft_add_eq_or_of_lt hlo, Nat.shiftLeft_eq]

theorem toNat_high (w : UInt16) : (high w).toNat = w.toNat / 256 := by
  have hw : w.toNat < 65536 := w.toNat_lt
  rw [high, UInt16.toNat_toUInt8, UInt16.toNat_shiftRight]
  simp only [UInt16.reduceToNat, Nat.reduceMod, Nat.shiftRight_eq_div_pow, Nat.reducePow]
  omega

theorem toNat_low (w : UInt16) : (low w).toNat = w.toNat % 256 := by
  rw [low, UInt16.toNat_toUInt8]

@[simp] theorem high_ofBytes (hi lo : UInt8) : high (ofBytes hi lo) = hi := by
  have hlo : lo.toNat < 256 := lo.toNat_lt
  apply UInt8.toNat_inj.mp
  rw [toNat_high, toNat_ofBytes]
  omega

@[simp] theorem low_ofBytes (hi lo : UInt8) : low (ofBytes hi lo) = lo := by
  have hlo : lo.toNat < 256 := lo.toNat_lt
  apply UInt8.toNat_inj.mp
  rw [toNat_low, toNat_ofBytes]
  omega

@[simp] theorem ofBytes_high_low (w : UInt16) : ofBytes (high w) (low w) = w := by
  apply UInt16.toNat_inj.mp
  rw [toNat_ofBytes, toNat_high, toNat_low]
  omega

end TmsCores.Word
