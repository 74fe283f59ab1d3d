import TmsCores.Proofs.Bus.Ram
import TmsCores.Proofs.Tms9900.BusAccess

namespace TmsCores.Tms9900

namespace Region

variable {address : UInt16}

theorem eq_of_ofAddress_eq {other : UInt16} (h : ofAddress address = ofAddress other)
    (honChip : ofAddress address ≠ .external) : address = other := by
  apply UInt16.toNat_inj.mp
  cases haddress : ofAddress address with
  | ram offset =>
      rw [haddress, eq_comm] at h
      rw [ofAddress_eq_ram_iff] at haddress h
      omega
  | decrementer byte =>
      rw [haddress, eq_comm] at h
      rw [ofAddress_eq_decrementer_iff] at haddress h
      omega
  | external => exact absurd haddress honChip

end Region

/-- Where a byte is kept that programs have an address for. -/
inductive Cell
  | ram (offset : Nat)
  | decrementer (byte : UInt16)
  | memory (address : UInt16)
  deriving DecidableEq

/-- The cell keeps what is written to it. -/
def Cell.IsPlain : Cell → Prop
  | .ram _ | .memory _ => True
  | .decrementer _ => False

/-- The cell behind an address, given the address that it has on the bus. -/
def Region.cell (region : Region) (busAddress : UInt16) : Cell :=
  match region with
  | .ram offset => .ram offset
  | .decrementer byte => .decrementer byte
  | .external => .memory busAddress

theorem Region.cell_inj {region other : Region} {busAddress otherAddress : UInt16}
    (h : region.cell busAddress = other.cell otherAddress) :
    region = other ∧ (region = .external → busAddress = otherAddress) := by
  cases region with
  | ram offset =>
      cases other with
      | ram => exact ⟨congrArg Region.ram (Cell.ram.inj h), nofun⟩
      | decrementer | external => exact absurd h nofun
  | decrementer byte =>
      cases other with
      | decrementer => exact ⟨congrArg Region.decrementer (Cell.decrementer.inj h), nofun⟩
      | ram | external => exact absurd h nofun
  | external =>
      cases other with
      | external => exact ⟨rfl, fun _ => Cell.memory.inj h⟩
      | ram | decrementer => exact absurd h nofun

namespace OnChip

variable (chip : OnChip)

theorem byte_setByte {offset : Nat} (h : offset < chip.ram.size) (value : UInt8) (other : Nat) :
    (chip.setByte offset value).byte other =
      if offset = other then value else chip.byte other := by
  simp only [byte, byte?, ram_setByte, Array.getElem?_setIfInBounds, if_pos h]
  split
  · rfl
  · rfl

end OnChip

namespace Cpu

variable {cpu other : Cpu} {address : UInt16}

def cell (cpu : Cpu) (address : UInt16) : Cell :=
  (cpu.region address).cell (address &&& cpu.config.addressMask)

/-- The cells of a word, that of the more significant byte first. -/
def wordCells (cpu : Cpu) (address : UInt16) : List Cell :=
  [cpu.cell (Word.even address), cpu.cell (Word.even address ||| 1)]

/-- What programs find in a cell, given what lies behind the bus. -/
def contents (cpu : Cpu) (memory : Memory) : Cell → UInt8
  | .ram offset => cpu.chip.byte offset
  | .decrementer byte => Exec.selectByte byte cpu.chip.decrementer.count
  | .memory address => memory.peek address

theorem contents_setWord {offset : Nat} (h : offset + 1 < cpu.chip.ram.size) (memory : Memory)
    (value : UInt16) (cell : Cell) :
    contents { cpu with chip := cpu.chip.setWord offset value } memory cell =
      if Cell.ram (offset + 1) = cell then Word.low value
      else if Cell.ram offset = cell then Word.high value
      else cpu.contents memory cell := by
  cases cell with
  | ram other =>
      have hlast : offset + 1 < (cpu.chip.setByte offset (Word.high value)).ram.size := by
        rw [OnChip.size_setByte]
        exact h
      simp only [contents, OnChip.setWord, OnChip.byte_setByte _ hlast,
        OnChip.byte_setByte _ (Nat.lt_of_succ_lt h), Cell.ram.injEq]
  | decrementer byte => rfl
  | memory address => rfl

theorem cell_of_region {region : Region} (h : cpu.region address = region) :
    cpu.cell address = region.cell (address &&& cpu.config.addressMask) := by
  rw [cell, h]

/-- All addresses but those of the decrementer lead to plain cells. -/
theorem cell_isPlain_iff : (cpu.cell address).IsPlain ↔
    (cpu.config.onChip = true → ¬(0xFFFA ≤ address.toNat ∧ address.toNat ≤ 0xFFFB)) := by
  rw [cell, region]
  split
  · next honChip =>
      rw [forall_prop_of_true honChip]
      cases hregion : Region.ofAddress address with
      | ram offset =>
          rw [Region.ofAddress_eq_ram_iff] at hregion
          exact iff_of_true trivial (by omega)
      | decrementer byte =>
          rw [Region.ofAddress_eq_decrementer_iff] at hregion
          exact iff_of_false id (by omega)
      | external =>
          rw [Region.ofAddress_eq_external_iff, IsOnChipAddress] at hregion
          exact iff_of_true trivial (by omega)
  · next honChip => exact iff_of_true trivial fun h => absurd h honChip

theorem cell_congr (h : cpu.config = other.config) : cpu.cell = other.cell := by
  funext address
  rw [cell, cell, region, region, h]

theorem mem_wordCells {cell : Cell} : cell ∈ cpu.wordCells address ↔
    cell = cpu.cell (Word.even address) ∨ cell = cpu.cell (Word.even address ||| 1) := by
  rw [wordCells, List.mem_cons, List.mem_singleton]

theorem wordCells_congr (h : cpu.config = other.config) : cpu.wordCells = other.wordCells := by
  funext address
  rw [wordCells, wordCells, cell_congr h]

theorem cell_even_or_one_of_ram {offset : Nat}
    (h : cpu.region (Word.even address) = .ram offset) :
    cpu.region (Word.even address ||| 1) = .ram (offset + 1) ∧ offset + 1 < 0x100 := by
  have hnext := Word.toNat_even_or_one address
  have heven := Word.toNat_even_mod_two address
  have hlt := (Word.even address).toNat_lt
  unfold region at h ⊢
  split at h
  · rw [Region.ofAddress_eq_ram_iff] at h
    rw [if_pos ‹_›, Region.ofAddress_eq_ram_iff]
    omega
  · exact absurd h nofun

theorem cell_even_or_one_of_decrementer {byte : UInt16}
    (h : cpu.region (Word.even address) = .decrementer byte) :
    byte = 0 ∧ cpu.region (Word.even address ||| 1) = .decrementer 1 := by
  have hnext := Word.toNat_even_or_one address
  have heven := Word.toNat_even_mod_two address
  unfold region at h ⊢
  split at h
  · rw [Region.ofAddress_eq_decrementer_iff] at h
    rw [if_pos ‹_›, Region.ofAddress_eq_decrementer_iff, ← UInt16.toNat_inj]
    simp only [UInt16.reduceToNat]
    omega
  · exact absurd h nofun

theorem cell_ne {a b : UInt16} (hmask : cpu.config.addressMask &&& 0x3FFF = 0x3FFF)
    (h : a.toNat % 0x4000 ≠ b.toNat % 0x4000) : cpu.cell a ≠ cpu.cell b := by
  have hlow (w : UInt16) : (w &&& cpu.config.addressMask &&& 0x3FFF).toNat = w.toNat % 0x4000 := by
    rw [UInt16.and_assoc, hmask, UInt16.toNat_and]
    exact Nat.and_two_pow_sub_one_eq_mod w.toNat 14
  intro hsame
  obtain ⟨hregion, haddress⟩ := Region.cell_inj hsame
  apply h
  by_cases hexternal : cpu.region a = .external
  · rw [← hlow a, ← hlow b, haddress hexternal]
  · unfold region at hregion hexternal
    split at hregion
    · rw [if_pos ‹_›] at hexternal
      rw [Region.eq_of_ofAddress_eq hregion hexternal]
    · exact absurd (if_neg ‹_›) hexternal

theorem cell_even_ne (hmask : cpu.config.addressMask &&& 0x3FFF = 0x3FFF) (address : UInt16) :
    cpu.cell (Word.even address ||| 1) ≠ cpu.cell (Word.even address) := by
  have hnext := Word.toNat_even_or_one address
  have hlt := (Word.even address ||| 1).toNat_lt
  exact cell_ne hmask (by omega)

end Cpu

variable {β : Type} [Bus β] [RamBus β]

open RamBus

namespace Machine

def contents (machine : Machine β) : Cell → UInt8 :=
  machine.cpu.contents (memory machine.bus)

/-- The word that a program finds at an address. -/
def heldWord (machine : Machine β) (address : UInt16) : UInt16 :=
  Word.ofBytes (machine.contents (machine.cpu.cell (Word.even address)))
    (machine.contents (machine.cpu.cell (Word.even address ||| 1)))

/-- Nothing has been written since some moment. -/
structure Undisturbed (before machine : Machine β) : Prop where
  cpu_eq : machine.cpu = before.cpu
  memory_eq : memory machine.bus = memory before.bus

theorem Undisturbed.refl (machine : Machine β) : machine.Undisturbed machine :=
  ⟨rfl, rfl⟩

theorem Undisturbed.contents_eq {before machine : Machine β} (h : before.Undisturbed machine) :
    machine.contents = before.contents := by
  rw [contents, h.cpu_eq, h.memory_eq, contents]

theorem Undisturbed.heldWord_eq {before machine : Machine β} (h : before.Undisturbed machine) :
    machine.heldWord = before.heldWord := by
  funext address
  rw [heldWord, h.contents_eq, h.cpu_eq, heldWord]

theorem heldWord_congr {machine other : Machine β} {address : UInt16}
    (hconfig : machine.cpu.config = other.cpu.config)
    (h : ∀ cell ∈ other.cpu.wordCells address, machine.contents cell = other.contents cell) :
    machine.heldWord address = other.heldWord address := by
  rw [heldWord, heldWord, Cpu.cell_congr hconfig, h _ (Cpu.mem_wordCells.mpr (.inl rfl)),
    h _ (Cpu.mem_wordCells.mpr (.inr rfl))]

end Machine

namespace Exec

variable (machine : Machine β) (address : UInt16)

theorem busRead_fst : (busRead address machine).1 =
    (memory machine.bus).peek (address &&& machine.cpu.config.addressMask) := by
  refine (read_data machine.bus _).trans ?_
  rw [UInt16.toUInt16_toUInt32]

theorem memory_busRead : memory (busRead address machine).2.bus = memory machine.bus :=
  memory_read machine.bus _

theorem memory_busWrite (value : UInt8) :
    memory (busWrite address value machine).2.bus =
      (memory machine.bus).poke (address &&& machine.cpu.config.addressMask) value := by
  have hwrite := memory_write machine.bus (machine.cpu.config.busAddress address) value
  refine hwrite.trans ?_
  rw [Config.busAddress, UInt16.toUInt16_toUInt32]

variable {machine}

theorem readWord_spec {before : Machine β} (h : before.Undisturbed machine) : ∃ next,
    readWord address machine = (before.heldWord address, next) ∧ before.Undisturbed next := by
  suffices hread : (readWord address machine).1 = before.heldWord address ∧
      before.Undisturbed (readWord address machine).2 from ⟨_, Prod.ext hread.1 rfl, hread.2⟩
  rw [← h.heldWord_eq, Machine.heldWord, Machine.contents, Cpu.cell, Cpu.cell]
  cases hregion : machine.cpu.region (Word.even address) with
  | ram offset =>
      rw [readWord, cpu_bind, hregion, (Cpu.cell_even_or_one_of_ram hregion).1]
      exact ⟨rfl, h.cpu_eq, h.memory_eq⟩
  | decrementer byte =>
      obtain ⟨rfl, hnext⟩ := Cpu.cell_even_or_one_of_decrementer hregion
      rw [readWord, cpu_bind, hregion, hnext]
      exact ⟨(Word.ofBytes_high_low _).symm, h⟩
  | external =>
      rw [readWord_eq_of_external hregion, Cpu.region_even_or_one hregion]
      refine ⟨?_, h.cpu_eq, ?_⟩
      · change Word.ofBytes (busRead _ machine).1 (busRead _ (busRead _ machine).2).1 = _
        rw [busRead_fst, busRead_fst, memory_busRead]
        rfl
      · refine (memory_busRead (busRead _ machine).2 _).trans ?_
        exact (memory_busRead machine _).trans h.memory_eq

theorem readRegister_spec {before : Machine β} (h : before.Undisturbed machine)
    (number : UInt16) : ∃ next,
      readRegister number machine =
        (before.heldWord (before.cpu.registerAddress number), next) ∧
      before.Undisturbed next := by
  rw [readRegister, cpu_bind, h.cpu_eq]
  exact readWord_spec _ h

theorem fetch_spec {before : Machine β} (h : before.Undisturbed machine) : ∃ next,
    fetch machine = (before.heldWord before.cpu.pc, next) ∧
      next.cpu = before.cpu.skip 1 ∧ memory next.bus = memory before.bus := by
  obtain ⟨next, hread, hnext⟩ := readWord_spec before.cpu.pc h
  refine ⟨{ next with cpu := next.cpu.skip 1 }, ?_, ?_, hnext.memory_eq⟩
  · rw [fetch, cpu_bind, h.cpu_eq, bind_of_eq hread]
    rfl
  · exact congrArg (Cpu.skip · 1) hnext.cpu_eq

variable {address}

omit [RamBus β] in
theorem writeWord_of_ram {offset : Nat}
    (h : machine.cpu.region (Word.even address) = .ram offset) (value : UInt16) : ∃ fault,
    (writeWord address value machine).2 =
      { machine with
        operandWord := none
        fault := fault
        cpu.chip := machine.cpu.chip.setWord offset value } := by
  have hforget : setOperandWord none machine = ((), { machine with operandWord := none }) := rfl
  rw [writeWord, bind_of_eq hforget, cpu_bind]
  dsimp only
  rw [h]
  exact ⟨_, rfl⟩

theorem contents_writeWord_of_external
    (h : machine.cpu.region (Word.even address) = .external) (value : UInt16) (cell : Cell) :
    (writeWord address value machine).2.contents cell =
      if Cell.memory ((Word.even address ||| 1) &&& machine.cpu.config.addressMask) = cell then
        Word.low value
      else if Cell.memory (Word.even address &&& machine.cpu.config.addressMask) = cell then
        Word.high value
      else machine.contents cell := by
  let forgetful := { machine with operandWord := none }
  have hmemory : memory (writeWord address value machine).2.bus =
      ((memory machine.bus).poke
        (Word.even address &&& machine.cpu.config.addressMask) (Word.high value)).poke
        ((Word.even address ||| 1) &&& machine.cpu.config.addressMask) (Word.low value) := by
    rw [writeWord_eq_of_external h]
    refine (memory_busWrite (busWrite _ _ forgetful).2 _ _).trans ?_
    rw [memory_busWrite forgetful]
    rfl
  have hcpu : (writeWord address value machine).2.cpu = machine.cpu := by
    rw [writeWord_eq_of_external h]
    rfl
  rw [Machine.contents, hcpu, hmemory]
  cases cell with
  | memory other =>
      simp only [Cpu.contents, Memory.peek_poke, Cell.memory.injEq]
      rfl
  | ram offset => rfl
  | decrementer byte => rfl

/-- A word that does not lie in the decrementer goes to its two cells.  Nothing else changes that
programs can find, and nothing of the processor but the memory on the chip. -/
theorem writeWord_spec (hsize : machine.cpu.chip.ram.size = 0x100)
    (hplain : (machine.cpu.cell (Word.even address)).IsPlain) (value : UInt16) :
    (∃ ram : Array UInt8, ram.size = 0x100 ∧
      (writeWord address value machine).2.cpu = { machine.cpu with chip.ram := ram }) ∧
    ∀ cell, (writeWord address value machine).2.contents cell =
      if machine.cpu.cell (Word.even address ||| 1) = cell then Word.low value
      else if machine.cpu.cell (Word.even address) = cell then Word.high value
      else machine.contents cell := by
  cases hregion : machine.cpu.region (Word.even address) with
  | ram offset =>
      obtain ⟨hnext, hbound⟩ := Cpu.cell_even_or_one_of_ram hregion
      obtain ⟨fault, hwrite⟩ := writeWord_of_ram hregion value
      rw [hwrite, Cpu.cell_of_region hregion, Cpu.cell_of_region hnext]
      refine ⟨⟨_, ?_, rfl⟩, Cpu.contents_setWord (hsize.symm ▸ hbound) _ value⟩
      exact (OnChip.size_setWord ..).trans hsize
  | decrementer byte =>
      rw [Cpu.cell_of_region hregion] at hplain
      exact hplain.elim
  | external =>
      have hnext := Cpu.region_even_or_one hregion
      rw [Cpu.cell_of_region hregion, Cpu.cell_of_region hnext]
      refine ⟨⟨_, hsize, ?_⟩, contents_writeWord_of_external hregion value⟩
      rw [writeWord_eq_of_external hregion]
      rfl

section

variable (hsize : machine.cpu.chip.ram.size = 0x100)
  (hplain : (machine.cpu.cell (Word.even address)).IsPlain) (value : UInt16)

include hsize hplain

theorem contents_writeWord_of_not_mem {cell : Cell} (h : cell ∉ machine.cpu.wordCells address) :
    (writeWord address value machine).2.contents cell = machine.contents cell := by
  rw [Cpu.mem_wordCells, not_or] at h
  rw [(writeWord_spec hsize hplain value).2, if_neg (Ne.symm h.2), if_neg (Ne.symm h.1)]

theorem heldWord_writeWord
    (hapart : machine.cpu.cell (Word.even address ||| 1) ≠ machine.cpu.cell (Word.even address)) :
    (writeWord address value machine).2.heldWord address = value := by
  obtain ⟨⟨ram, _, hcpu⟩, hcontents⟩ := writeWord_spec hsize hplain value
  have hcell : (writeWord address value machine).2.cpu.cell = machine.cpu.cell :=
    Cpu.cell_congr (by rw [hcpu])
  rw [Machine.heldWord, hcell, hcontents, hcontents, if_neg hapart, if_pos rfl, if_pos rfl,
    Word.ofBytes_high_low]

end

end Exec

end TmsCores.Tms9900
