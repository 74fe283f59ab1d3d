import Mathlib.Data.Nat.Digits.Lemmas
import TmsCores.Proofs.Arithmetic.PackedDecimal

namespace TmsCores

/-- A way to read bytes as the digits of numbers. -/
structure Numeration where
  base : Nat
  digit : UInt8 → Nat
  IsDigit : UInt8 → Prop
  one_lt_base : 1 < base
  digit_lt : ∀ {byte}, IsDigit byte → digit byte < base
  digit_inj : ∀ {a b}, IsDigit a → IsDigit b → digit a = digit b → a = b

namespace Numeration

/-- Every byte is a digit. -/
def binary : Numeration where
  base := 256
  digit := UInt8.toNat
  IsDigit _ := True
  one_lt_base := by decide
  digit_lt {byte} _ := byte.toNat_lt
  digit_inj _ _ := UInt8.toNat_inj.mp

/-- Every byte holds two decimal digits. -/
def decimal : Numeration where
  base := 100
  digit := PackedDecimal.value
  IsDigit := PackedDecimal.IsPacked
  one_lt_base := by decide
  digit_lt := PackedDecimal.IsPacked.value_lt
  digit_inj := PackedDecimal.value_inj

variable (numeration : Numeration)

def IsNumber (bytes : List UInt8) : Prop :=
  ∀ byte ∈ bytes, numeration.IsDigit byte

/-- The number with the given bytes, the least significant one first. -/
def value (bytes : List UInt8) : Nat :=
  Nat.ofDigits numeration.base (bytes.map numeration.digit)

theorem value_cons (byte : UInt8) (bytes : List UInt8) : numeration.value (byte :: bytes) =
    numeration.digit byte + numeration.base * numeration.value bytes :=
  Nat.ofDigits_cons

theorem value_concat (bytes : List UInt8) (byte : UInt8) : numeration.value (bytes ++ [byte]) =
    numeration.value bytes + numeration.base ^ bytes.length * numeration.digit byte := by
  rw [value, List.map_append, Nat.ofDigits_append, List.length_map]
  simp [value]

variable {numeration} {a b : List UInt8}

theorem IsNumber.digits_lt (h : numeration.IsNumber a) :
    ∀ digit ∈ a.map numeration.digit, digit < numeration.base := by
  intro digit hdigit
  obtain ⟨byte, hbyte, rfl⟩ := List.mem_map.mp hdigit
  exact numeration.digit_lt (h byte hbyte)

theorem IsNumber.value_lt (h : numeration.IsNumber a) :
    numeration.value a < numeration.base ^ a.length := by
  rw [← List.length_map (f := numeration.digit)]
  exact Nat.ofDigits_lt_base_pow_length numeration.one_lt_base h.digits_lt

theorem map_digit_inj (ha : numeration.IsNumber a) (hb : numeration.IsNumber b)
    (h : a.map numeration.digit = b.map numeration.digit) : a = b := by
  induction a generalizing b with
  | nil => exact (List.map_eq_nil_iff.mp h.symm).symm
  | cons x a ih =>
      cases b with
      | nil => exact absurd h nofun
      | cons y b =>
          obtain ⟨hx, ha⟩ := List.forall_mem_cons.mp ha
          obtain ⟨hy, hb⟩ := List.forall_mem_cons.mp hb
          obtain ⟨hdigit, hrest⟩ := List.cons.inj h
          rw [numeration.digit_inj hx hy hdigit, ih ha hb hrest]

theorem value_inj (ha : numeration.IsNumber a) (hb : numeration.IsNumber b)
    (hlength : a.length = b.length) (h : numeration.value a = numeration.value b) : a = b :=
  map_digit_inj ha hb <| Nat.ofDigits_inj_of_len_eq numeration.one_lt_base
    (by simpa using hlength) ha.digits_lt hb.digits_lt h

end Numeration

end TmsCores
