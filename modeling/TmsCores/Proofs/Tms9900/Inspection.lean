import TmsCores.Proofs.Text.StatePath
import TmsCores.Proofs.Tms9900.Comparison
import TmsCores.Proofs.Tms9900.IoBits
import TmsCores.Tms9900.Inspection

namespace TmsCores.Tms9900

namespace Path

theorem parse?_of_register? {path : String} {number : Nat}
    (h : StatePath.register? path.toList = some number) :
    parse? path = some (.register number) := by
  have hnamed : named.lookup path = none := StatePath.lookup_of_register? (by decide) h
  rw [parse?, hnamed, Option.none_or, numbered?, h]

end Path

/-- The memory of a chip that has some lies there. -/
def IsOnChipMemory (address : Nat) : Prop :=
  0xF000 ≤ address ∧ address ≤ 0xF0FB ∨ 0xFFFC ≤ address ∧ address ≤ 0xFFFF

instance (address : Nat) : Decidable (IsOnChipMemory address) :=
  inferInstanceAs (Decidable (_ ∨ _))

namespace Cpu

variable {cpu : Cpu}

theorem testBit_flags (h : cpu.chip.flags &&& OnChip.latchBits = 0) {n : Nat}
    (hlatch : OnChip.latchBits.toNat.testBit n = true) :
    cpu.chip.flags.toNat.testBit n = false := by
  have hbit := congrArg (·.toNat.testBit n) h
  simpa [UInt16.toNat_and, Nat.testBit_and, hlatch] using hbit

theorem testBit_flagRegister (h : cpu.chip.flags &&& OnChip.latchBits = 0) {n : Nat}
    (hn : n < 16) : cpu.flagRegister.toNat.testBit n = cpu.flag (UInt16.ofNat n) := by
  have hbit (set : Bool) {bit : UInt16} {i : Nat} (hbit : bit.toNat = 2 ^ i) :
      (if set then bit else 0).toNat.testBit n = (set && decide (i = n)) := by
    cases set with
    | false => exact Nat.zero_testBit n
    | true =>
        rw [if_pos rfl, hbit, Nat.testBit_two_pow]
        rfl
  have hparts : cpu.flagRegister.toNat.testBit n = (cpu.chip.flags.toNat.testBit n ||
      (cpu.interrupts.isLatched int1 && decide (2 = n)) ||
      (cpu.interrupts.isLatched decrementerLine && decide (3 = n)) ||
      (cpu.interrupts.isLatched int4 && decide (4 = n))) := by
    rw [flagRegister, UInt16.toNat_or, UInt16.toNat_or, UInt16.toNat_or, Nat.testBit_or,
      Nat.testBit_or, Nat.testBit_or, hbit _ (i := 2) rfl, hbit _ (i := 3) rfl,
      hbit _ (i := 4) rfl]
  rw [hparts]
  by_cases hlatch : n = 2 ∨ n = 3 ∨ n = 4
  · have hflags : cpu.chip.flags.toNat.testBit n = false :=
      testBit_flags h (by rcases hlatch with rfl | rfl | rfl <;> rfl)
    rw [hflags]
    rcases hlatch with rfl | rfl | rfl
    · simp [flag, latchLine?]
    · simp [flag, latchLine?]
    · simp [flag, latchLine?]
  · have hplain : ∀ n < 16, ¬(n = 2 ∨ n = 3 ∨ n = 4) → latchLine? (UInt16.ofNat n) = none ∧
        (1 <<< UInt16.ofNat n : UInt16).toNat = 2 ^ n := by
      decide
    obtain ⟨hline, hpower⟩ := hplain n hn hlatch
    rw [flag, hline]
    dsimp only
    rw [Word.and_bit_ne_zero hpower]
    simp [show 2 ≠ n by omega, show 3 ≠ n by omega, show 4 ≠ n by omega]

theorem query_register (number : Nat) (cpu : Cpu) :
    cpu.query ("r" ++ toString number) = cpu.observeRegister number := by
  rw [query, Path.parse?_of_register? (StatePath.register?_toString number)]
  rfl

theorem query_flagRegister (h : cpu.config.onChip = true) :
    cpu.query "flag_register" = some (.word cpu.flagRegister) :=
  if_pos h

theorem internalBit?_flag (h : cpu.config.onChip = true) {n : Nat} (hn : n < 16) :
    cpu.internalBit? (0x0F70 + .ofNat n) = some (cpu.flag (.ofNat n)) := by
  have hplace : ∀ n < 16, 0x0F70 + UInt16.ofNat n ≠ midBit ∧
      flagNumber? (0x0F70 + UInt16.ofNat n) = some (.ofNat n) := by
    decide
  obtain ⟨hmid, hnumber⟩ := hplace n hn
  rw [internalBit?_eq, h, if_neg hmid, hnumber]
  rfl

theorem internalBit?_mid (h : cpu.config.onChip = true) :
    cpu.internalBit? 0x0FED = some cpu.chip.mid := by
  rw [internalBit?_eq, h]
  rfl

theorem toNat_registerAddress_mod_two (h : cpu.wp.toNat % 2 = 0) (number : UInt16) :
    (cpu.registerAddress number).toNat % 2 = 0 := by
  rw [registerAddress, UInt16.toNat_add, UInt16.toNat_mul]
  simp only [UInt16.reduceToNat, Nat.reducePow]
  omega

/-- A register of the workspace is shown if its word is in the memory of the chip, and then as it
is there. -/
theorem observeRegister_eq_some_iff (hram : cpu.HasRam) (h : cpu.wp.toNat % 2 = 0) {n : Nat}
    (hn : n < 16) {shown : Observation} :
    cpu.observeRegister n = some shown ↔ ∃ offset,
      cpu.region (cpu.registerAddress (.ofNat n)) = .ram offset ∧
        shown = .word (cpu.chip.word offset) := by
  have heven := toNat_registerAddress_mod_two h (.ofNat n)
  rw [observeRegister, if_pos hn]
  cases hregion : cpu.region (cpu.registerAddress (.ofNat n)) with
  | ram offset =>
      have hoffset : offset % 2 = 0 := by
        have hplace := Region.ofAddress_eq_ram_iff.mp (ofAddress_of_region hregion nofun)
        omega
      rw [← Word.even_of_toNat_mod_two heven] at hregion
      have hword := OnChip.word?_eq (hram.succ_lt_of_region hregion)
      dsimp only
      rw [if_pos hoffset, hword]
      simp [eq_comm]
  | decrementer | external => simp

theorem exists_region_ram_iff (honChip : cpu.config.onChip = true) {address : UInt16}
    (heven : address.toNat % 2 = 0) : (∃ offset, cpu.region address = .ram offset) ↔
      IsOnChipMemory address.toNat ∧ IsOnChipMemory (address.toNat + 1) := by
  have hlt := address.toNat_lt
  simp only [region, honChip, if_true, Region.ofAddress_eq_ram_iff, IsOnChipMemory]
  constructor
  · rintro ⟨offset, hplace⟩
    omega
  · intro hplace
    by_cases hhigh : 0xFFFC ≤ address.toNat
    · exact ⟨_, .inr ⟨hhigh, rfl⟩⟩
    · exact ⟨_, .inl ⟨by omega, by omega, rfl⟩⟩

end Cpu

variable {β : Type} [Bus β]

namespace Machine

/-- The program has come to a TB of a bit. -/
def TestsBit (machine : Machine β) (bit : UInt16) : Prop :=
  let fetched := Exec.fetch machine
  machine.ahead = some (.cruBit .tb) ∧
    ((Exec.cruBase fetched.2).1 + Word.signExtend (Word.low fetched.1)) &&& 0x0FFF = bit

end Machine

namespace Exec

variable {machine : Machine β} {bit : UInt16} {value : Bool}

theorem cruRead_of_internal (h : machine.cpu.internalBit? (bit &&& 0x0FFF) = some value) :
    cruRead bit machine = (value, machine) := by
  rw [cruRead, get_bind, h]
  rfl

theorem execute_of_ahead {instruction : Instruction} (h : machine.ahead = some instruction)
    (hx : instruction ≠ .x) :
    (execute machine).2 = (perform (fetch machine).1 instruction (fetch machine).2).2 := by
  have hset := congrArg (·.config.instructionSet) (cpu_fetch machine)
  have hnext : Instruction.ofOpcode? (fetch machine).2.cpu.config.instructionSet
      (fetch machine).1 = some instruction :=
    (congrArg (Instruction.ofOpcode? · _) hset).trans h
  have hchase := chase_of_ne_x hnext hx maxExecuteDepth
  rw [execute, bind_snd, executeOpcode_eq, bind_of_eq hchase, bind_snd, conclude_snd rfl hx]
  rfl

/-- A TB finds a bit of the chip as it was before the instruction. -/
theorem execute_of_testsBit (h : machine.TestsBit bit)
    (hvalue : machine.cpu.internalBit? bit = some value) :
    Status.has (execute machine).2.cpu.st Status.equal = value := by
  obtain ⟨hahead, rfl⟩ := h
  have hcpu : (cruBase (fetch machine).2).2.cpu = machine.cpu.skip 1 :=
    (cpu_readWord _ (fetch machine).2).trans (cpu_fetch machine)
  have hinternal (bit : UInt16) : (cruBase (fetch machine).2).2.cpu.internalBit? bit =
      machine.cpu.internalBit? bit := by
    rw [hcpu]
    rfl
  have hread := cruRead_of_internal ((hinternal _).trans hvalue)
  rw [execute_of_ahead hahead nofun, perform, bind_snd, cruBit, bind_snd]
  dsimp only
  rw [bind_of_eq hread]
  exact Status.has_withBit (by decide) _ value

theorem read?_of_ram (hram : machine.cpu.HasRam) (hwp : machine.cpu.wp.toNat % 2 = 0)
    {n offset : Nat} (hn : n < 16)
    (h : machine.cpu.region (machine.cpu.registerAddress (.ofNat n)) = .ram offset) :
    read? (.r (.ofNat n)) machine = (.ok (machine.cpu.chip.word offset), machine) := by
  have hnumber : ∀ n < 16, UInt8.ofNat n < 16 ∧ (UInt8.ofNat n).toUInt16 = .ofNat n := by decide
  obtain ⟨hlt, hsame⟩ := hnumber n hn
  have heven := Word.even_of_toNat_mod_two (Cpu.toNat_registerAddress_mod_two hwp (.ofNat n))
  have hread : readWord (machine.cpu.registerAddress (.ofNat n)) machine =
      (machine.cpu.chip.word offset, machine) := by
    rw [← heven] at h
    have hlast := hram.succ_lt_of_region h
    rw [readWord, cpu_bind, h]
    dsimp only
    rw [bind_of_eq (readRam_eq (Nat.lt_of_succ_lt hlast)), bind_of_eq (readRam_eq hlast)]
    rfl
  rw [read?, if_pos hlt, readRegister, hsame, bind_assoc, cpu_bind, bind_of_eq hread]
  rfl

end Exec

namespace Machine

/-- What a debugger is shown of a chip with devices of its own is what its program sees. -/
structure ShowsTruly (machine : Machine β) : Prop where
  /-- The flag register has the bits that TB finds, one after the other. -/
  flags : ∃ flags, machine.cpu.query "flag_register" = some (.word flags) ∧ ∀ n < 16,
    Exec.cruRead (0x0F70 + .ofNat n) machine = (flags.toNat.testBit n, machine) ∧
    (machine.TestsBit (0x0F70 + .ofNat n) →
      Status.has (Exec.execute machine).2.cpu.st Status.equal = flags.toNat.testBit n)
  mid : ∃ mid, machine.cpu.query "mid" = some (.flag mid) ∧
    Exec.cruRead 0x0FED machine = (mid, machine) ∧
    (machine.TestsBit 0x0FED →
      Status.has (Exec.execute machine).2.cpu.st Status.equal = mid)
  /-- A register is shown when it lies in the memory of the chip.  There it is read without the bus,
  and nothing changes. -/
  registers : ∀ n < 16,
    let address := machine.cpu.registerAddress (.ofNat n)
    let shown := machine.cpu.query ("r" ++ toString n)
    (shown.isSome ↔ IsOnChipMemory address.toNat ∧ IsOnChipMemory (address.toNat + 1)) ∧
    ∀ answer ∈ shown, ∃ value, answer = .word value ∧
      Exec.read? (.r (.ofNat n)) machine = (.ok value, machine)

/-- A debugger is not shown anything that is only on other chips. -/
structure ShowsNothing (machine : Machine β) : Prop where
  flags : machine.cpu.query "flag_register" = none
  mid : machine.cpu.query "mid" = none
  registers : ∀ n : Nat, machine.cpu.query ("r" ++ toString n) = none

variable {machine : Machine β} {config : Config}

theorem showsTruly (h : machine.cpu.IsConsistent config) (honChip : config.onChip = true) :
    machine.ShowsTruly := by
  rw [← h.config_eq] at honChip
  constructor
  case flags =>
    refine ⟨machine.cpu.flagRegister, Cpu.query_flagRegister honChip, fun n hn => ?_⟩
    have hplace : ∀ n < 16,
        (0x0F70 + UInt16.ofNat n) &&& 0x0FFF = 0x0F70 + UInt16.ofNat n := by
      decide
    have hbit := Cpu.internalBit?_flag honChip hn
    rw [Cpu.testBit_flagRegister h.flags_unlatched hn]
    exact ⟨Exec.cruRead_of_internal ((hplace n hn).symm ▸ hbit),
      fun htests => Exec.execute_of_testsBit htests hbit⟩
  case mid =>
    have hbit := Cpu.internalBit?_mid honChip
    exact ⟨machine.cpu.chip.mid, if_pos honChip, Exec.cruRead_of_internal hbit,
      fun htests => Exec.execute_of_testsBit htests hbit⟩
  case registers =>
    intro n hn address shown
    have heven := Cpu.toNat_registerAddress_mod_two h.wp_even (.ofNat n)
    have hshown (answer : Observation) : shown = some answer ↔ ∃ offset,
        machine.cpu.region address = .ram offset ∧
          answer = .word (machine.cpu.chip.word offset) := by
      rw [← Cpu.observeRegister_eq_some_iff h.ram_size h.wp_even hn, ← Cpu.query_register]
    constructor
    · rw [← Cpu.exists_region_ram_iff honChip heven, Option.isSome_iff_exists]
      constructor
      · rintro ⟨answer, hanswer⟩
        obtain ⟨offset, hoffset, _⟩ := (hshown answer).mp hanswer
        exact ⟨offset, hoffset⟩
      · rintro ⟨offset, hoffset⟩
        exact ⟨_, (hshown _).mpr ⟨offset, hoffset, rfl⟩⟩
    · intro answer hanswer
      obtain ⟨offset, hoffset, rfl⟩ := (hshown answer).mp hanswer
      exact ⟨_, rfl, Exec.read?_of_ram h.ram_size h.wp_even hn hoffset⟩

omit [Bus β] in
theorem showsNothing (h : machine.cpu.config.onChip = false) : machine.ShowsNothing := by
  constructor
  case flags | mid => exact if_neg (Bool.eq_false_iff.mp h)
  case registers =>
    intro n
    rw [Cpu.query_register, Cpu.observeRegister, Cpu.region_of_offChip h]
    split
    · rfl
    · rfl

end Machine

end TmsCores.Tms9900
