namespace TmsCores.Hexadecimal

def digit (n : Nat) : Char :=
  if n < 10 then Char.ofNat (48 + n) else Char.ofNat (55 + n)

/-- The lowest `width` digits of a number, most significant first. -/
def digits : (width : Nat) → Nat → List Char
  | 0, _ => []
  | width + 1, n => digits width (n / 16) ++ [digit (n % 16)]

/-- A number below `16 ^ width` as `0x` and `width` digits. -/
def text (width n : Nat) : String :=
  "0x" ++ String.ofList (digits width n)

/-- Bytes as two digits each, with nothing between them. -/
def ofBytes (bytes : List UInt8) : String :=
  String.ofList (bytes.flatMap fun byte => digits 2 byte.toNat)

/-- The value of a digit of either case. -/
def digitValue? (c : Char) : Option Nat :=
  if '0' ≤ c ∧ c ≤ '9' then some (c.toNat - 48)
  else if 'A' ≤ c ∧ c ≤ 'F' then some (c.toNat - 55)
  else if 'a' ≤ c ∧ c ≤ 'f' then some (c.toNat - 87)
  else none

/-- Reads bytes of two digits each. -/
def toBytes? : List Char → Option (List UInt8)
  | [] => some []
  | [_] => none
  | high :: low :: rest => do
      let high ← digitValue? high
      let low ← digitValue? low
      let bytes ← toBytes? rest
      return UInt8.ofNat (high * 16 + low) :: bytes

theorem digits_length (width n : Nat) : (digits width n).length = width := by
  induction width generalizing n with
  | zero => rfl
  | succ width ih => simp [digits, ih]

theorem digitValue?_digit (n : Nat) (hn : n < 16) : digitValue? (digit n) = some n := by
  revert n
  decide

theorem toBytes?_digits (bytes : List UInt8) :
    toBytes? (bytes.flatMap fun byte => digits 2 byte.toNat) = some bytes := by
  induction bytes with
  | nil => rfl
  | cons byte rest ih =>
      have hhigh := digitValue?_digit (byte.toNat / 16 % 16) (Nat.mod_lt _ (by decide))
      have hlow := digitValue?_digit (byte.toNat % 16) (Nat.mod_lt _ (by decide))
      have hsum : byte.toNat / 16 % 16 * 16 + byte.toNat % 16 = byte.toNat := by
        have hbyte : byte.toNat < 256 := byte.toNat_lt
        omega
      rw [List.flatMap_cons]
      change toBytes? (_ :: _ :: List.flatMap _ rest) = _
      rw [toBytes?, hhigh, hlow, ih]
      change some (UInt8.ofNat (byte.toNat / 16 % 16 * 16 + byte.toNat % 16) :: rest) = _
      rw [hsum, UInt8.ofNat_toNat]

end TmsCores.Hexadecimal
