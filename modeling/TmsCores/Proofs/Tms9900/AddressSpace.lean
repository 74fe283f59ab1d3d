import TmsCores.Proofs.Arithmetic.Parity
import TmsCores.Proofs.Bus.Access
import TmsCores.Tms9900.Cpu

namespace TmsCores.Tms9900

/-- The memory and the decrementer of a chip that has them lie there. -/
def IsOnChipAddress (address : Nat) : Prop :=
  0xF000 ≤ address ∧ address ≤ 0xF0FB ∨ 0xFFFA ≤ address ∧ address ≤ 0xFFFF

/-- The flags of a chip that has them lie there in the I/O space. -/
def IsOnChipBit (bit : Nat) : Prop :=
  bit = 0x0FED ∨ 0x0F70 ≤ bit ∧ bit ≤ 0x0F7F

namespace Region

theorem ofAddress_eq_external_iff {address : UInt16} :
    ofAddress address = .external ↔ ¬IsOnChipAddress address.toNat := by
  have hlt := address.toNat_lt
  simp only [ofAddress, IsOnChipAddress, Bool.and_eq_true, decide_eq_true_eq,
    UInt16.le_iff_toNat_le, UInt16.reduceToNat]
  split
  · exact ⟨nofun, by omega⟩
  · split
    · exact ⟨nofun, by omega⟩
    · split
      · exact ⟨nofun, by omega⟩
      · exact ⟨fun _ => by omega, fun _ => rfl⟩

theorem ofAddress_eq_external_congr {address other : UInt16}
    (h : Word.even address = Word.even other) (hexternal : ofAddress address = .external) :
    ofAddress other = .external := by
  have haddress := Word.toNat_even_div_two address
  have hother := Word.toNat_even_div_two other
  rw [ofAddress_eq_external_iff] at hexternal ⊢
  rw [h] at haddress
  unfold IsOnChipAddress at *
  omega

variable {address byte : UInt16} {offset : Nat}

theorem toNat_sub (base : UInt16) (h : base.toNat ≤ address.toNat) :
    (address - base).toNat = address.toNat - base.toNat :=
  UInt16.toNat_sub_of_le _ _ (UInt16.le_iff_toNat_le.mpr h)

theorem ofAddress_eq_ram_iff :
    ofAddress address = .ram offset ↔
      (0xF000 ≤ address.toNat ∧ address.toNat ≤ 0xF0FB ∧ offset = address.toNat - 0xF000) ∨
        (0xFFFC ≤ address.toNat ∧ offset = address.toNat - 0xFFFC + 0xFC) := by
  simp only [ofAddress, Bool.and_eq_true, decide_eq_true_eq, UInt16.le_iff_toNat_le,
    UInt16.reduceToNat]
  split
  · next h =>
      rw [Region.ram.injEq, toNat_sub 0xF000 (by simpa using h.1)]
      simp only [UInt16.reduceToNat]
      omega
  · split
    · next h =>
        rw [Region.ram.injEq, toNat_sub 0xFFFC (by simpa using h)]
        simp only [UInt16.reduceToNat]
        omega
    · split
      · simp only [reduceCtorEq, false_iff]
        omega
      · simp only [reduceCtorEq, false_iff]
        omega

theorem ofAddress_eq_decrementer_iff :
    ofAddress address = .decrementer byte ↔
      0xFFFA ≤ address.toNat ∧ address.toNat ≤ 0xFFFB ∧ byte.toNat = address.toNat - 0xFFFA := by
  simp only [ofAddress, Bool.and_eq_true, decide_eq_true_eq, UInt16.le_iff_toNat_le,
    UInt16.reduceToNat]
  split
  · simp only [reduceCtorEq, false_iff]
    omega
  · split
    · simp only [reduceCtorEq, false_iff]
      omega
    · split
      · next h =>
          rw [Region.decrementer.injEq, ← UInt16.toNat_inj,
            toNat_sub 0xFFFA (by simpa using h)]
          simp only [UInt16.reduceToNat]
          omega
      · simp only [reduceCtorEq, false_iff]
        omega

theorem offset_lt (h : ofAddress address = .ram offset) : offset < 256 := by
  have hlt := address.toNat_lt
  have hplace := ofAddress_eq_ram_iff.mp h
  omega

theorem offset_succ_lt (h : ofAddress (Word.even address) = .ram offset) : offset + 1 < 256 := by
  have heven := Word.toNat_even_mod_two address
  have hlt := (Word.even address).toNat_lt
  have hplace := ofAddress_eq_ram_iff.mp h
  omega

theorem byte_lt (h : ofAddress address = .decrementer byte) : byte.toNat < 2 := by
  have hplace := ofAddress_eq_decrementer_iff.mp h
  omega

end Region

namespace OnChip

def word (chip : OnChip) (offset : Nat) : UInt16 :=
  Word.ofBytes (chip.byte offset) (chip.byte (offset + 1))

def setWord (chip : OnChip) (offset : Nat) (value : UInt16) : OnChip :=
  (chip.setByte offset (Word.high value)).setByte (offset + 1) (Word.low value)

theorem ram_setByte (chip : OnChip) (offset : Nat) (value : UInt8) :
    (chip.setByte offset value).ram = chip.ram.setIfInBounds offset value :=
  Storage.getD_set? chip.ram offset value

theorem size_setByte (chip : OnChip) (offset : Nat) (value : UInt8) :
    (chip.setByte offset value).ram.size = chip.ram.size := by
  rw [ram_setByte, Array.size_setIfInBounds]

theorem size_setWord (chip : OnChip) (offset : Nat) (value : UInt16) :
    (chip.setWord offset value).ram.size = chip.ram.size := by
  rw [setWord, size_setByte, size_setByte]

variable {chip : OnChip} {offset : Nat}

theorem byte?_eq (h : offset < chip.ram.size) : chip.byte? offset = some (chip.byte offset) := by
  rw [byte, byte?, Array.getElem?_eq_getElem h]
  rfl

theorem word?_eq (h : offset + 1 < chip.ram.size) :
    chip.word? offset = some (chip.word offset) := by
  rw [word?, byte?_eq (Nat.lt_of_succ_lt h), byte?_eq h]
  rfl

end OnChip

theorem flagNumber?_eq_none_iff {bit : UInt16} :
    flagNumber? bit = none ↔ ¬(0x0F70 ≤ bit.toNat ∧ bit.toNat ≤ 0x0F7F) := by
  have hrange : (flagBase ≤ bit && bit < flagBase + 16) = true ↔
      0x0F70 ≤ bit.toNat ∧ bit.toNat ≤ 0x0F7F := by
    simp only [flagBase, Bool.and_eq_true, decide_eq_true_eq, UInt16.le_iff_toNat_le,
      UInt16.lt_iff_toNat_lt]
    change 0x0F70 ≤ bit.toNat ∧ bit.toNat < 0x0F80 ↔ _
    omega
  rw [flagNumber?, ← hrange]
  split
  · next h => exact ⟨nofun, fun hnot => absurd h hnot⟩
  · next h => exact ⟨fun _ => h, fun _ => rfl⟩

namespace Config

/-- The address on the bus that an address of a program leads to. -/
def busAddress (config : Config) (address : UInt16) : UInt32 :=
  (address &&& config.addressMask).toUInt32

/-- The addresses that accesses can have on the bus. -/
def bounds (config : Config) : Bus.Bounds where
  memory address := ∃ logical : UInt16,
    (config.onChip = true → ¬IsOnChipAddress logical.toNat) ∧ address = config.busAddress logical
  io bit := bit.toNat ≤ 0x0FFF ∧ (config.onChip = true → ¬IsOnChipBit bit.toNat)

theorem toNat_busAddress (config : Config) (address : UInt16) :
    (config.busAddress address).toNat = (address &&& config.addressMask).toNat :=
  UInt16.toNat_toUInt32 _

theorem toNat_busAddress_le (config : Config) (address : UInt16) :
    (config.busAddress address).toNat ≤ config.addressMask.toNat := by
  rw [toNat_busAddress, UInt16.toNat_and]
  exact Nat.and_le_right

end Config

/-- The addresses that the members of the family may have on their bus. -/
def Variant.bounds : Variant → Bus.Bounds
  | .tms9900 =>
      { memory := fun address => address.toNat ≤ 0xFFFF
        io := fun bit => bit.toNat ≤ 0x0FFF }
  | .tms9980A =>
      { memory := fun address => address.toNat ≤ 0x3FFF
        io := fun bit => bit.toNat ≤ 0x0FFF }
  | .tms9995 =>
      { memory := fun address => address.toNat ≤ 0xFFFF ∧ ¬IsOnChipAddress address.toNat
        io := fun bit => bit.toNat ≤ 0x0FFF ∧ ¬IsOnChipBit bit.toNat }

namespace Variant

theorem bounds_memory (variant : Variant) {address : UInt32}
    (h : variant.config.bounds.memory address) : variant.bounds.memory address := by
  obtain ⟨logical, hlogical, rfl⟩ := h
  have hle := variant.config.toNat_busAddress_le logical
  cases variant with
  | tms9900 | tms9980A => exact hle
  | tms9995 =>
      have hall : logical &&& 0xFFFF = logical := UInt16.and_neg_one
      refine ⟨hle, ?_⟩
      rw [Config.toNat_busAddress]
      exact (congrArg UInt16.toNat hall).symm ▸ hlogical rfl

theorem bounds_io (variant : Variant) {bit : UInt32} (h : variant.config.bounds.io bit) :
    variant.bounds.io bit := by
  cases variant with
  | tms9900 | tms9980A => exact h.1
  | tms9995 => exact ⟨h.1, h.2 rfl⟩

end Variant

namespace Cpu

variable {cpu : Cpu}

theorem region_eq_external_iff {address : UInt16} :
    cpu.region address = .external ↔
      (cpu.config.onChip = true → ¬IsOnChipAddress address.toNat) := by
  unfold region
  split
  · next honChip =>
      rw [Region.ofAddress_eq_external_iff]
      exact ⟨fun h _ => h, fun h => h honChip⟩
  · next honChip => exact ⟨fun _ h => absurd h honChip, fun _ => rfl⟩

theorem ofAddress_of_region {address : UInt16} {region : Region}
    (h : cpu.region address = region) (hinternal : region ≠ .external) :
    Region.ofAddress address = region := by
  unfold Cpu.region at h
  split at h
  · exact h
  · exact absurd h.symm hinternal

/-- The memory of the chip is complete. -/
def HasRam (cpu : Cpu) : Prop :=
  cpu.chip.ram.size = 256

theorem HasRam.lt_of_region (h : cpu.HasRam) {address : UInt16} {offset : Nat}
    (hregion : cpu.region address = .ram offset) : offset < cpu.chip.ram.size :=
  Nat.lt_of_lt_of_eq (Region.offset_lt (ofAddress_of_region hregion nofun)) (Eq.symm h)

theorem HasRam.succ_lt_of_region (h : cpu.HasRam) {address : UInt16} {offset : Nat}
    (hregion : cpu.region (Word.even address) = .ram offset) : offset + 1 < cpu.chip.ram.size :=
  Nat.lt_of_lt_of_eq (Region.offset_succ_lt (ofAddress_of_region hregion nofun)) (Eq.symm h)

theorem byte_lt_of_region {address byte : UInt16} (h : cpu.region address = .decrementer byte) :
    decide (byte < 2) = true :=
  decide_eq_true (UInt16.lt_iff_toNat_lt.mpr (Region.byte_lt (ofAddress_of_region h nofun)))

theorem region_of_offChip (h : cpu.config.onChip = false) (address : UInt16) :
    cpu.region address = .external :=
  region_eq_external_iff.mpr fun honChip => absurd (h.symm.trans honChip) nofun

theorem region_eq_external_congr {address other : UInt16}
    (h : Word.even address = Word.even other) (hexternal : cpu.region address = .external) :
    cpu.region other = .external := by
  unfold region at hexternal ⊢
  split at hexternal
  · rw [if_pos ‹_›]
    exact Region.ofAddress_eq_external_congr h hexternal
  · rw [if_neg ‹_›]

theorem region_even {address : UInt16} (h : cpu.region address = .external) :
    cpu.region (Word.even address) = .external :=
  region_eq_external_congr (Word.even_even address).symm h

theorem region_even_or_one {address : UInt16}
    (hexternal : cpu.region (Word.even address) = .external) :
    cpu.region (Word.even address ||| 1) = .external := by
  refine region_eq_external_congr ?_ hexternal
  rw [Word.even_even, Word.even_even_or_one]

theorem memory_bounds_of_region {address : UInt16} (h : cpu.region address = .external) :
    cpu.config.bounds.memory (address &&& cpu.config.addressMask).toUInt32 :=
  ⟨address, region_eq_external_iff.mp h, rfl⟩

theorem internalBit?_eq_none_iff {bit : UInt16} :
    cpu.internalBit? bit = none ↔ (cpu.config.onChip = true → ¬IsOnChipBit bit.toNat) := by
  have hmid : bit = midBit ↔ bit.toNat = 0x0FED := by
    rw [← UInt16.toNat_inj]
    rfl
  unfold internalBit? IsOnChipBit
  rw [← hmid, not_or, ← flagNumber?_eq_none_iff]
  split
  · next honChip => simp_all
  · next honChip =>
      split
      · next hbit => simp_all
      · next hbit => simp_all

theorem setInternalBit?_eq_none_iff {bit : UInt16} {value : Bool} :
    cpu.setInternalBit? bit value = none ↔ cpu.internalBit? bit = none := by
  unfold setInternalBit? internalBit?
  split
  · exact ⟨fun _ => rfl, fun _ => rfl⟩
  · split
    · exact ⟨nofun, nofun⟩
    · rw [Option.map_eq_none_iff, Option.map_eq_none_iff]

theorem io_bounds_of_internalBit? {bit : UInt16} (h : cpu.internalBit? (bit &&& 0x0FFF) = none) :
    cpu.config.bounds.io (bit &&& 0x0FFF).toUInt32 := by
  constructor
  · rw [UInt16.toNat_toUInt32, UInt16.toNat_and]
    exact Nat.and_le_right
  · rw [UInt16.toNat_toUInt32]
    exact internalBit?_eq_none_iff.mp h

end Cpu

end TmsCores.Tms9900
