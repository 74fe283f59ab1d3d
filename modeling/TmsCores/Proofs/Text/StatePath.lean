import TmsCores.Text.StatePath

namespace TmsCores

namespace NaturalNumber

theorem digitValue?_of_isDigit {c : Char} (h : c.isDigit = true) :
    digitValue? c = some (c.toNat - 48) :=
  if_pos (Char.isDigit_iff_toNat.mp h)

/-- Digits read one after the other make up the number that they write. -/
theorem continue?_eq {digits : List Char} (h : ∀ c ∈ digits, c.isDigit = true) (value : Nat) :
    continue? value digits = some (Nat.ofDigitChars 10 digits value) := by
  induction digits generalizing value with
  | nil => rw [continue?, Nat.ofDigitChars_nil]
  | cons c rest ih =>
      rw [continue?, digitValue?_of_isDigit (h c List.mem_cons_self), Option.bind_some,
        ih fun c hc => h c (List.mem_cons_of_mem _ hc), Nat.ofDigitChars_cons, Nat.mul_comm]
      rfl

theorem parse?_of_isDigit {digits : List Char} (hne : digits ≠ [])
    (h : ∀ c ∈ digits, c.isDigit = true) :
    parse? digits = some (Nat.ofDigitChars 10 digits 0) := by
  cases digits with
  | nil => exact absurd rfl hne
  | cons c rest =>
      have hsign : c ≠ '+' := by
        rintro rfl
        exact absurd (h '+' List.mem_cons_self) (by decide)
      rw [← continue?_eq h]
      unfold parse?
      split
      · next heq => exact absurd (List.cons.inj heq).1 hsign
      · rfl

theorem parse?_toString (n : Nat) : parse? (toString n).toList = some n := by
  rw [Nat.toString_eq_ofList_toDigits, String.toList_ofList,
    parse?_of_isDigit Nat.toDigits_ne_nil fun _ => Nat.isDigit_of_mem_toDigits (by decide) (by decide),
    Nat.ofDigitChars_ten_toDigits]

end NaturalNumber

namespace StatePath

theorem register?_toString (n : Nat) : register? ("r" ++ toString n).toList = some n := by
  rw [String.toList_append]
  exact NaturalNumber.parse?_toString n

theorem lookup_of_register? {α : Type} {named : List (String × α)}
    (hnamed : ∀ name ∈ named, register? name.1.toList = none) {path : String} {number : Nat}
    (h : register? path.toList = some number) : named.lookup path = none := by
  rw [List.lookup_eq_none_iff]
  intro name hname
  rw [bne_iff_ne]
  rintro rfl
  exact absurd (h.symm.trans (hnamed name hname)) nofun

end StatePath

end TmsCores
