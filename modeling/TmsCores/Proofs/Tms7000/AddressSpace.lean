import TmsCores.Proofs.Bus.Access
import TmsCores.Tms7000.AddressSpace

namespace TmsCores.Tms7000

theorem Config.registerCount_clamp (config : Config) :
    2 ≤ config.clamp.registerCount.toNat ∧ config.clamp.registerCount.toNat ≤ 256 := by
  have hmin : (min config.registerCount 0x100).toNat ≤ 256 :=
    UInt16.le_iff_toNat_le.mp Std.min_le_right
  have hmax : config.clamp.registerCount =
      if 2 ≤ min config.registerCount 0x100 then min config.registerCount 0x100 else 2 := rfl
  rw [hmax]
  split
  · next hle => exact ⟨UInt16.le_iff_toNat_le.mp hle, hmin⟩
  · decide

/-- The addresses that the chip answers itself: the register file, P0, and the peripheral file from
P2 to P11. -/
def Config.IsOnChipAddress (config : Config) (address : Nat) : Prop :=
  address < config.registerCount.toNat ∨ address = 0x0100 ∨ 0x0102 ≤ address ∧ address ≤ 0x010B

namespace Location

theorem ofPeripheral_ne_register (number : UInt8) (other : Nat) :
    ofPeripheral number ≠ .register other := by
  unfold ofPeripheral
  repeat' split
  all_goals exact nofun

theorem lt_of_ofAddress_eq_register {config : Config} {address : UInt16} {number : Nat}
    (h : ofAddress config address = .register number) :
    number < config.registerCount.toNat := by
  unfold ofAddress at h
  split at h
  · next hbelow =>
      obtain rfl := Location.register.inj h
      exact UInt16.lt_iff_toNat_lt.mp hbelow
  · split at h
    · exact absurd h (ofPeripheral_ne_register _ _)
    · exact absurd h nofun

theorem shiftRight_eq_one_iff {address : UInt16} :
    address >>> 8 = 0x01 ↔ 0x0100 ≤ address.toNat ∧ address.toNat ≤ 0x01FF := by
  rw [← UInt16.toNat_inj, UInt16.toNat_shiftRight, Nat.shiftRight_eq_div_pow]
  change address.toNat / 256 = 1 ↔ _
  omega

/-- The register file and the memory right above it are all that a register number can reach. -/
theorem ofAddress_toUInt16 (config : Config) (number : UInt8) :
    ofAddress config number.toUInt16 = .register number.toNat ∨
      ofAddress config number.toUInt16 = .memory number.toUInt16 := by
  have hlt := number.toNat_lt
  have hpage : ¬number.toUInt16 >>> 8 = 0x01 := by
    rw [shiftRight_eq_one_iff, UInt8.toNat_toUInt16]
    omega
  rw [ofAddress, if_neg hpage]
  split
  · exact .inl rfl
  · exact .inr rfl

theorem toNat_page_or (number : UInt8) :
    ((0x0100 : UInt16) ||| number.toUInt16).toNat = 0x0100 + number.toNat := by
  rw [UInt16.toNat_or, UInt8.toNat_toUInt16]
  exact (Nat.two_pow_add_eq_or_of_lt number.toNat_lt 1).symm

theorem ofPeripheral_eq_memory {number : UInt8} {address : UInt16}
    (h : ofPeripheral number = .memory address) :
    address.toNat = 0x0100 + number.toNat ∧
      ¬(number.toNat = 0 ∨ 2 ≤ number.toNat ∧ number.toNat ≤ 11) := by
  unfold ofPeripheral at h
  repeat' split at h
  case isFalse.isFalse.isFalse.isFalse hcontrol hdata htimer hport =>
    obtain rfl := Location.memory.inj h
    refine ⟨toNat_page_or number, ?_⟩
    simp only [← UInt8.toNat_inj, Bool.and_eq_true, decide_eq_true_eq, UInt8.le_iff_toNat_le,
      UInt8.reduceToNat] at hcontrol hdata htimer hport
    omega
  all_goals exact absurd h nofun

theorem ofPeripheral_eq_port {number port : UInt8} (h : ofPeripheral number = .port port) :
    4 ≤ port.toNat ∧ port.toNat ≤ 11 := by
  unfold ofPeripheral at h
  repeat' split at h
  case isFalse.isFalse.isFalse.isTrue hport =>
    obtain rfl := Location.port.inj h
    simpa only [Bool.and_eq_true, decide_eq_true_eq, UInt8.le_iff_toNat_le,
      UInt8.reduceToNat] using hport
  all_goals exact absurd h nofun

theorem toNat_toUInt8_of_page {address : UInt16} (h : address >>> 8 = 0x01) :
    address.toNat = 0x0100 + address.toUInt8.toNat := by
  have hpage := shiftRight_eq_one_iff.mp h
  rw [UInt16.toNat_toUInt8]
  omega

theorem ofAddress_eq_memory {config : Config} {address other : UInt16}
    (h : ofAddress config address = .memory other) :
    other = address ∧ ¬config.IsOnChipAddress address.toNat := by
  unfold ofAddress at h
  unfold Config.IsOnChipAddress
  split at h
  · exact absurd h nofun
  · next habove =>
      rw [UInt16.lt_iff_toNat_lt] at habove
      split at h
      · next hpage =>
          have haddress := toNat_toUInt8_of_page hpage
          obtain ⟨hother, hnumber⟩ := ofPeripheral_eq_memory h
          refine ⟨UInt16.toNat_inj.mp (hother.trans haddress.symm), ?_⟩
          omega
      · next hpage =>
          rw [shiftRight_eq_one_iff] at hpage
          refine ⟨(Location.memory.inj h).symm, ?_⟩
          omega

theorem ofAddress_eq_port {config : Config} {address : UInt16} {port : UInt8}
    (h : ofAddress config address = .port port) : 4 ≤ port.toNat ∧ port.toNat ≤ 11 := by
  unfold ofAddress at h
  split at h
  · exact absurd h nofun
  · split at h
    · exact ofPeripheral_eq_port h
    · exact absurd h nofun

/-- The peripheral file is visible in the address space, unless registers lie on top of it. -/
theorem ofAddress_page {config : Config} (h : config.registerCount.toNat ≤ 256) (number : UInt8) :
    ofAddress config (0x0100 + number.toUInt16) = ofPeripheral number := by
  have haddress := toNat_page_or number
  have hlt := number.toNat_lt
  have hsum : 0x0100 + number.toUInt16 = 0x0100 ||| number.toUInt16 := by
    rw [← UInt16.toNat_inj, haddress, UInt16.toNat_add, UInt8.toNat_toUInt16]
    change (256 + number.toNat) % 65536 = 256 + number.toNat
    omega
  rw [hsum]
  have hpage : (0x0100 ||| number.toUInt16) >>> 8 = 0x01 := by
    rw [shiftRight_eq_one_iff]
    omega
  have hnumber : ((0x0100 : UInt16) ||| number.toUInt16).toUInt8 = number := by
    apply UInt8.toNat_inj.mp
    rw [UInt16.toNat_toUInt8]
    omega
  have habove : ¬(0x0100 : UInt16) ||| number.toUInt16 < config.registerCount := by
    rw [UInt16.lt_iff_toNat_lt]
    omega
  rw [ofAddress, if_neg habove, if_pos hpage, hnumber]

end Location

/-- The places that a program can get at, by an address or by a number of the peripheral file. -/
inductive Config.Reaches (config : Config) : Location → Prop
  | address (address : UInt16) : config.Reaches (.ofAddress config address)
  | peripheral (number : UInt8) : config.Reaches (.ofPeripheral number)

/-- The addresses that accesses can have on the bus. -/
def Config.bounds (config : Config) : Bus.Bounds where
  memory address := ∃ logical : UInt16,
    config.Reaches (.memory logical) ∧ address = logical.toUInt32
  io address := ∃ number : UInt8, config.Reaches (.port number) ∧ address = number.toUInt32

/-- The addresses of memory that lie off the chip, and the numbers of the ports. -/
def Config.offChip (config : Config) : Bus.Bounds where
  memory address := address.toNat ≤ 0xFFFF ∧ ¬config.IsOnChipAddress address.toNat
  io address := 4 ≤ address.toNat ∧ address.toNat ≤ 11

namespace Config

variable {config : Config}

theorem offChip_memory (h : config.registerCount.toNat ≤ 256) {address : UInt32}
    (haddress : config.bounds.memory address) : config.offChip.memory address := by
  obtain ⟨logical, hreaches, rfl⟩ := haddress
  have hlt := logical.toNat_lt
  refine ⟨?_, ?_⟩
  · rw [UInt16.toNat_toUInt32]
    omega
  · rw [UInt16.toNat_toUInt32]
    generalize hlocation : Location.memory logical = location at hreaches
    cases hreaches with
    | address other =>
        obtain ⟨rfl, hoff⟩ := Location.ofAddress_eq_memory hlocation.symm
        exact hoff
    | peripheral number =>
        obtain ⟨hlogical, hnumber⟩ := Location.ofPeripheral_eq_memory hlocation.symm
        unfold IsOnChipAddress
        omega

theorem offChip_io {address : UInt32} (haddress : config.bounds.io address) :
    config.offChip.io address := by
  obtain ⟨number, hreaches, rfl⟩ := haddress
  have hport : 4 ≤ number.toNat ∧ number.toNat ≤ 11 := by
    generalize hlocation : Location.port number = location at hreaches
    cases hreaches with
    | address other => exact Location.ofAddress_eq_port hlocation.symm
    | peripheral other => exact Location.ofPeripheral_eq_port hlocation.symm
  change 4 ≤ number.toUInt32.toNat ∧ number.toUInt32.toNat ≤ 11
  rw [UInt8.toNat_toUInt32]
  exact hport

end Config

end TmsCores.Tms7000
