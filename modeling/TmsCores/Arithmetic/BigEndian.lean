namespace TmsCores.BigEndian

/-- The lowest `width` bytes of a number, most significant first. -/
def bytes : (width : Nat) → Nat → List UInt8
  | 0, _ => []
  | width + 1, n => bytes width (n / 256) ++ [UInt8.ofNat (n % 256)]

def value (bytes : List UInt8) : Nat :=
  bytes.foldl (fun n byte => n * 256 + byte.toNat) 0

/-- The two's complement number that some bytes spell. -/
def signedValue (bytes : List UInt8) : Int :=
  let n := value bytes
  let modulus := 1 <<< (8 * bytes.length)
  if 2 * n < modulus then n else (n : Int) - modulus

@[simp] theorem bytes_length (width n : Nat) : (bytes width n).length = width := by
  induction width generalizing n with
  | zero => rfl
  | succ width ih => simp [bytes, ih]

theorem value_concat (bytes : List UInt8) (byte : UInt8) :
    value (bytes ++ [byte]) = 256 * value bytes + byte.toNat := by
  simp [value, List.foldl_append, Nat.mul_comm]

end TmsCores.BigEndian
