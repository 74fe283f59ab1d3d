import TmsCores.Proofs.Tms9900.Contents
import TmsCores.Proofs.Tms9900.Reachability

namespace TmsCores.Tms9900

namespace Config

/-- All addresses but those of the decrementer keep what is written to them. -/
def IsMemory (config : Config) (address : UInt16) : Prop :=
  config.onChip = true → ¬(0xFFFA ≤ address.toNat ∧ address.toNat ≤ 0xFFFB)

/-- Addresses lead to the same byte if and only if they are the same on the bus, and the bytes of a
word have different addresses there. -/
structure SeparatesBytes (config : Config) : Prop where
  mask : config.addressMask &&& 1 = 1
  onChip : config.onChip = true → config.addressMask = 0xFFFF

end Config

theorem Variant.separatesBytes (variant : Variant) : variant.config.SeparatesBytes := by
  cases variant with
  | tms9900 | tms9980A => exact ⟨by decide, nofun⟩
  | tms9995 => exact ⟨by decide, fun _ => rfl⟩

namespace Cpu

variable {cpu : Cpu}

theorem ram_lt_of_region {address : UInt16} {offset : Nat}
    (h : cpu.region address = .ram offset) : offset < 0x100 := by
  unfold region at h
  split at h
  · exact Region.offset_lt h
  · exact absurd h nofun

theorem cell_eq_iff (h : cpu.config.SeparatesBytes) {a b : UInt16} :
    cpu.cell a = cpu.cell b ↔ a &&& cpu.config.addressMask = b &&& cpu.config.addressMask := by
  constructor
  · intro hsame
    obtain ⟨hregion, haddress⟩ := Region.cell_inj hsame
    by_cases hexternal : cpu.region a = .external
    · exact haddress hexternal
    · unfold region at hregion hexternal
      split at hregion
      · rw [if_pos ‹_›] at hexternal
        rw [Region.eq_of_ofAddress_eq hregion hexternal]
      · exact absurd (if_neg ‹_›) hexternal
  · intro hsame
    by_cases honChip : cpu.config.onChip = true
    · rw [h.onChip honChip] at hsame
      have hall (w : UInt16) : w &&& 0xFFFF = w := UInt16.and_neg_one
      rw [hall, hall] at hsame
      rw [hsame]
    · have hregion := region_of_offChip (eq_false_of_ne_true honChip)
      rw [cell_of_region (hregion a), cell_of_region (hregion b), hsame]

end Cpu

inductive Request
  | readByte (address : UInt16)
  | readWord (address : UInt16)
  | writeByte (address : UInt16) (value : UInt8)
  | writeWord (address value : UInt16)
  deriving DecidableEq

variable {β : Type} [Bus β]

namespace Machine

def afterRequest (machine : Machine β) : Request → Machine β
  | .readByte address => (Exec.readByte address machine).2
  | .readWord address => (Exec.readWord address machine).2
  | .writeByte address value => (Exec.writeByte address value machine).2
  | .writeWord address value => (Exec.writeWord address value machine).2

def afterRequests (machine : Machine β) (requests : List Request) : Machine β :=
  requests.foldl afterRequest machine

end Machine

namespace Exec

theorem operandWord_readWord (address : UInt16) (machine : Machine β) :
    (readWord address machine).2.operandWord = machine.operandWord := by
  cases hregion : machine.cpu.region (Word.even address) with
  | ram offset | decrementer byte =>
      rw [readWord, cpu_bind, hregion]
      rfl
  | external =>
      rw [readWord_eq_of_external hregion]
      rfl

theorem writeWord_of_decrementer {machine : Machine β} {address byte : UInt16}
    (h : machine.cpu.region (Word.even address) = .decrementer byte) (value : UInt16) :
    (writeWord address value machine).2 =
      { machine with
        operandWord := none
        cpu.chip.decrementer := .ofStart value } := by
  have hforget : setOperandWord none machine = ((), { machine with operandWord := none }) := rfl
  rw [writeWord, bind_of_eq hforget, cpu_bind]
  dsimp only
  rw [h]
  rfl

theorem operandWord_writeWord (address value : UInt16) (machine : Machine β) :
    (writeWord address value machine).2.operandWord = none := by
  cases hregion : machine.cpu.region (Word.even address) with
  | ram offset =>
      obtain ⟨fault, hwrite⟩ := writeWord_of_ram hregion value
      rw [hwrite]
  | decrementer byte => rw [writeWord_of_decrementer hregion]
  | external =>
      rw [writeWord_eq_of_external hregion]
      rfl

end Exec

variable [RamBus β]

open RamBus

namespace Machine

/-- The byte that a program finds at an address. -/
def heldByte (machine : Machine β) (address : UInt16) : UInt8 :=
  machine.contents (machine.cpu.cell address)

/-- Memory is one array of bytes, and a word is the byte at its even address with the one after
it. -/
structure IsByteArray (machine : Machine β) : Prop where
  apart : ∀ address, (Word.even address ||| 1) &&& machine.cpu.config.addressMask ≠
    Word.even address &&& machine.cpu.config.addressMask
  readByte : ∀ address, (Exec.readByte address machine).1 = machine.heldByte address
  readWord : ∀ address, (Exec.readWord address machine).1.toNat =
    256 * (machine.heldByte (Word.even address)).toNat +
      (machine.heldByte (Word.even address ||| 1)).toNat
  keeps_readByte : ∀ address,
    (Exec.readByte address machine).2.heldByte = machine.heldByte
  keeps_readWord : ∀ address,
    (Exec.readWord address machine).2.heldByte = machine.heldByte
  writeByte : ∀ address value, ∀ other, machine.cpu.config.IsMemory other →
    (Exec.writeByte address value machine).2.heldByte other =
      if address &&& machine.cpu.config.addressMask = other &&& machine.cpu.config.addressMask then
        value
      else machine.heldByte other
  writeWord : ∀ address value, ∀ other, machine.cpu.config.IsMemory other →
    (Exec.writeWord address value machine).2.heldByte other =
      if Word.even address &&& machine.cpu.config.addressMask =
          other &&& machine.cpu.config.addressMask then
        Word.high value
      else if (Word.even address ||| 1) &&& machine.cpu.config.addressMask =
          other &&& machine.cpu.config.addressMask then
        Word.low value
      else machine.heldByte other

/-- The word that is remembered from a byte operand is still what memory holds. -/
structure RemembersHeld (machine : Machine β) : Prop where
  separates : machine.cpu.config.SeparatesBytes
  ram_size : machine.cpu.chip.ram.size = 0x100
  remembered : ∀ {address word}, machine.operandWord = some (address, word) →
    machine.cpu.config.dataBus = .word ∧ Word.even address = address ∧
      machine.cpu.region address = .external ∧ word = machine.heldWord address

variable {machine next : Machine β}

theorem Undisturbed.heldByte_eq (h : machine.Undisturbed next) :
    next.heldByte = machine.heldByte := by
  funext address
  rw [heldByte, h.contents_eq, h.cpu_eq, heldByte]

theorem heldByte_eq_of_config (hconfig : next.cpu.config = machine.cpu.config) (address : UInt16) :
    next.heldByte address = next.contents (machine.cpu.cell address) := by
  rw [heldByte, Cpu.cell_congr hconfig]

theorem RemembersHeld.of_forgotten (hseparates : machine.cpu.config.SeparatesBytes)
    (hsize : machine.cpu.chip.ram.size = 0x100) (hforgotten : machine.operandWord = none) :
    machine.RemembersHeld where
  separates := hseparates
  ram_size := hsize
  remembered hword := absurd (hforgotten.symm.trans hword) nofun

theorem RemembersHeld.congr (h : machine.RemembersHeld)
    (hconfig : next.cpu.config = machine.cpu.config)
    (hsize : next.cpu.chip.ram.size = machine.cpu.chip.ram.size)
    (hcontents : next.contents = machine.contents)
    (hremembered : next.operandWord = machine.operandWord) : next.RemembersHeld where
  separates := hconfig.symm ▸ h.separates
  ram_size := hsize.trans h.ram_size
  remembered hword := by
    rw [hremembered] at hword
    rw [Cpu.region, hconfig, heldWord_congr hconfig fun cell _ => congrFun hcontents cell]
    exact h.remembered hword

theorem RemembersHeld.of_undisturbed (h : machine.RemembersHeld)
    (hundisturbed : machine.Undisturbed next)
    (hremembered : next.operandWord = machine.operandWord) : next.RemembersHeld := by
  refine h.congr ?_ ?_ hundisturbed.contents_eq hremembered
  · rw [hundisturbed.cpu_eq]
  · rw [hundisturbed.cpu_eq]

theorem RemembersHeld.of_onChip (h : machine.RemembersHeld) (chip : OnChip)
    (hsize : chip.ram.size = 0x100) (fault : Bool) :
    { machine with cpu.chip := chip, fault := fault }.RemembersHeld where
  separates := h.separates
  ram_size := hsize
  remembered {address word} hword := by
    obtain ⟨hbus, heven, hexternal, hheld⟩ := h.remembered hword
    have hfirst : machine.cpu.region (Word.even address) = .external := heven.symm ▸ hexternal
    have hsecond := Cpu.region_even_or_one hfirst
    refine ⟨hbus, heven, hexternal, hheld.trans (Eq.symm ?_)⟩
    refine heldWord_congr rfl fun cell hcell => ?_
    rcases Cpu.mem_wordCells.mp hcell with rfl | rfl
    · rw [Cpu.cell_of_region hfirst]
      rfl
    · rw [Cpu.cell_of_region hsecond]
      rfl

theorem heldWord_even (machine : Machine β) (address : UInt16) :
    machine.heldWord (Word.even address) = machine.heldWord address := by
  rw [heldWord, Word.even_even, heldWord]

theorem selectByte_heldWord (machine : Machine β) (address : UInt16) :
    Exec.selectByte address (machine.heldWord address) = machine.heldByte address := by
  by_cases hparity : address &&& 1 = 0
  · rw [Exec.selectByte, if_pos hparity, heldWord, Word.high_ofBytes,
      Word.even_of_and_one hparity, heldByte]
  · rw [Exec.selectByte, if_neg hparity, heldWord, Word.low_ofBytes, Word.even_or_one hparity,
      heldByte]

end Machine

namespace Exec

variable {machine : Machine β} (h : machine.RemembersHeld) (address : UInt16)

include h

theorem readByte_spec : ∃ next,
    readByte address machine = (machine.heldByte address, next) ∧ machine.Undisturbed next ∧
      next.RemembersHeld := by
  rw [readByte, cpu_bind, Machine.heldByte]
  cases hregion : machine.cpu.region address with
  | ram offset | decrementer byte =>
      have hundisturbed (fault : Bool) : machine.Undisturbed { machine with fault := fault } :=
        ⟨rfl, rfl⟩
      rw [Cpu.cell_of_region hregion]
      exact ⟨_, rfl, hundisturbed _, h.of_undisturbed (hundisturbed _) rfl⟩
  | external =>
      cases hbus : machine.cpu.config.dataBus with
      | byte =>
          have hundisturbed : machine.Undisturbed (busRead address machine).2 :=
            ⟨rfl, memory_busRead machine address⟩
          refine ⟨_, Prod.ext ?_ rfl, hundisturbed, h.of_undisturbed hundisturbed rfl⟩
          rw [Cpu.cell_of_region hregion]
          exact busRead_fst machine address
      | word =>
          obtain ⟨next, hread, hundisturbed⟩ := readWord_spec address (.refl machine)
          let remembering :=
            { next with operandWord := some (Word.even address, machine.heldWord address) }
          have hremembering : machine.Undisturbed remembering :=
            ⟨hundisturbed.cpu_eq, hundisturbed.memory_eq⟩
          refine ⟨remembering, ?_, hremembering, ?_⟩
          · dsimp only
            rw [bind_of_eq hread, ← Machine.heldByte, ← machine.selectByte_heldWord]
            rfl
          · refine ⟨hundisturbed.cpu_eq.symm ▸ h.separates, hundisturbed.cpu_eq.symm ▸ h.ram_size,
              fun hword => ?_⟩
            obtain ⟨rfl, rfl⟩ := Prod.mk.inj (Option.some.inj hword)
            rw [hremembering.cpu_eq, hremembering.heldWord_eq, machine.heldWord_even]
            exact ⟨hbus, Word.even_even address, Cpu.region_even hregion, rfl⟩

theorem readWord_keeps : ∃ next,
    readWord address machine = (machine.heldWord address, next) ∧ machine.Undisturbed next ∧
      next.RemembersHeld := by
  obtain ⟨next, hread, hundisturbed⟩ := readWord_spec address (.refl machine)
  have hremembered := operandWord_readWord address machine
  rw [hread] at hremembered
  exact ⟨next, hread, hundisturbed, h.of_undisturbed hundisturbed hremembered⟩

/-- The word that a byte is written into is as memory holds it, whether it is remembered or read
again. -/
theorem recallWord_spec : ∃ next,
    recallWord (Word.even address) machine = (machine.heldWord address, next) ∧
      machine.Undisturbed next ∧ next.RemembersHeld := by
  obtain ⟨next, hread, hkept⟩ := readWord_keeps h (Word.even address)
  rw [machine.heldWord_even] at hread
  rw [recallWord, get_bind]
  cases hremembered : machine.operandWord with
  | none => exact ⟨next, hread, hkept⟩
  | some remembered =>
      obtain ⟨place, word⟩ := remembered
      obtain ⟨-, -, -, hword⟩ := h.remembered hremembered
      dsimp only
      split
      · next hsame =>
          rw [hword, hsame, machine.heldWord_even]
          exact ⟨machine, rfl, .refl machine, h⟩
      · exact ⟨next, hread, hkept⟩

theorem contents_writeWord (value : UInt16) {cell : Cell} (hplain : cell.IsPlain) :
    (writeWord address value machine).2.contents cell =
      if machine.cpu.cell (Word.even address ||| 1) = cell then Word.low value
      else if machine.cpu.cell (Word.even address) = cell then Word.high value
      else machine.contents cell := by
  cases hregion : machine.cpu.region (Word.even address) with
  | decrementer byte =>
      have hnot (number : UInt16) : Cell.decrementer number ≠ cell := by
        rintro rfl
        exact hplain
      obtain ⟨-, hnext⟩ := Cpu.cell_even_or_one_of_decrementer hregion
      rw [writeWord_of_decrementer hregion, Cpu.cell_of_region hregion, Cpu.cell_of_region hnext]
      rw [Region.cell, Region.cell, if_neg (hnot _), if_neg (hnot _)]
      cases cell with
      | ram | memory => rfl
      | decrementer number => exact hplain.elim
  | ram offset | external =>
      refine (writeWord_spec h.ram_size ?_ value).2 cell
      rw [Cpu.cell_of_region hregion]
      trivial

theorem config_writeWord (value : UInt16) :
    (writeWord address value machine).2.cpu.config = machine.cpu.config ∧
      (writeWord address value machine).2.cpu.chip.ram.size = 0x100 := by
  cases hregion : machine.cpu.region (Word.even address) with
  | ram offset =>
      obtain ⟨fault, hwrite⟩ := writeWord_of_ram hregion value
      rw [hwrite]
      exact ⟨rfl, (OnChip.size_setWord ..).trans h.ram_size⟩
  | decrementer byte =>
      rw [writeWord_of_decrementer hregion]
      exact ⟨rfl, h.ram_size⟩
  | external =>
      rw [writeWord_eq_of_external hregion]
      exact ⟨rfl, h.ram_size⟩

theorem writeWord_remembersHeld (value : UInt16) :
    (writeWord address value machine).2.RemembersHeld := by
  obtain ⟨hconfig, hsize⟩ := config_writeWord h address value
  exact .of_forgotten (hconfig.symm ▸ h.separates) hsize
    (operandWord_writeWord address value machine)

theorem contents_writeWord_replaceByte (value : UInt8) {cell : Cell} (hplain : cell.IsPlain) :
    (writeWord (Word.even address) (replaceByte address (machine.heldWord address) value)
        machine).2.contents cell =
      if machine.cpu.cell address = cell then value else machine.contents cell := by
  have hcontents := contents_writeWord h (Word.even address)
    (replaceByte address (machine.heldWord address) value) hplain
  rw [Word.even_even] at hcontents
  have hapart : machine.cpu.cell (Word.even address ||| 1) ≠ machine.cpu.cell (Word.even address) :=
    fun hsame => Word.masked_ne h.separates.mask address ((Cpu.cell_eq_iff h.separates).mp hsame).symm
  rw [hcontents, Machine.heldWord]
  by_cases hparity : address &&& 1 = 0
  · rw [replaceByte, if_pos hparity, Word.high_ofBytes, Word.low_ofBytes, Word.low_ofBytes,
      Word.even_of_and_one hparity] at *
    split
    · next hcell => rw [← hcell, if_neg hapart.symm]
    · rfl
  · rw [replaceByte, if_neg hparity, Word.high_ofBytes, Word.low_ofBytes, Word.high_ofBytes,
      Word.even_or_one hparity] at *
    split
    · rfl
    · split
      · next hcell => rw [hcell]
      · rfl

theorem writeByte_spec (value : UInt8) :
    (writeByte address value machine).2.cpu.config = machine.cpu.config ∧
      (writeByte address value machine).2.RemembersHeld ∧
      ∀ {cell : Cell}, cell.IsPlain → (writeByte address value machine).2.contents cell =
        if machine.cpu.cell address = cell then value else machine.contents cell := by
  rw [writeByte, cpu_bind]
  cases hregion : machine.cpu.region address with
  | ram offset =>
      have hoffset : offset < machine.cpu.chip.ram.size :=
        h.ram_size.symm ▸ Cpu.ram_lt_of_region hregion
      refine ⟨rfl, h.of_onChip _ ((OnChip.size_setByte ..).trans h.ram_size) _, fun {cell} _ => ?_⟩
      rw [Cpu.cell_of_region hregion, Region.cell]
      cases cell with
      | ram other =>
          refine (OnChip.byte_setByte _ hoffset value other).trans ?_
          simp only [Cell.ram.injEq]
          rfl
      | decrementer | memory => rfl
  | decrementer byte =>
      let decrementer := machine.cpu.chip.decrementer.writeByte byte value
      refine ⟨rfl, h.of_onChip { machine.cpu.chip with decrementer := decrementer } h.ram_size _,
        fun {cell} hplain => ?_⟩
      rw [Cpu.cell_of_region hregion, Region.cell]
      cases cell with
      | ram | memory => rfl
      | decrementer => exact hplain.elim
  | external =>
      cases hbus : machine.cpu.config.dataBus with
      | byte =>
          -- A narrow bus never has a word remembered.
          have hforgotten : machine.operandWord = none :=
            Option.eq_none_iff_forall_not_mem.mpr fun _ hword =>
              absurd (hbus.symm.trans (h.remembered hword).1) (by decide)
          refine ⟨rfl, .of_forgotten h.separates h.ram_size hforgotten, fun {cell} _ => ?_⟩
          rw [Cpu.cell_of_region hregion, Region.cell, Machine.contents]
          dsimp only
          rw [memory_busWrite]
          cases cell with
          | memory other =>
              simp only [Cpu.contents, Memory.peek_poke, Cell.memory.injEq]
              rfl
          | ram | decrementer => rfl
      | word =>
          obtain ⟨next, hrecall, hundisturbed, hnext⟩ := recallWord_spec h address
          dsimp only
          rw [bind_of_eq hrecall, hundisturbed.cpu_eq.symm, ← hundisturbed.contents_eq,
            ← hundisturbed.heldWord_eq]
          exact ⟨(config_writeWord hnext _ _).1, writeWord_remembersHeld hnext _ _,
            fun hplain => contents_writeWord_replaceByte hnext address value hplain⟩

end Exec

namespace Machine

variable {machine : Machine β}

/-- What is remembered stays what memory holds, whatever access comes next. -/
theorem RemembersHeld.afterRequest (h : machine.RemembersHeld) (request : Request) :
    (machine.afterRequest request).RemembersHeld := by
  cases request with
  | readByte address =>
      obtain ⟨next, hread, -, hnext⟩ := Exec.readByte_spec h address
      rw [Machine.afterRequest, hread]
      exact hnext
  | readWord address =>
      obtain ⟨next, hread, -, hnext⟩ := Exec.readWord_keeps h address
      rw [Machine.afterRequest, hread]
      exact hnext
  | writeByte address value => exact (Exec.writeByte_spec h address value).2.1
  | writeWord address value => exact Exec.writeWord_remembersHeld h address value

theorem RemembersHeld.afterRequests (h : machine.RemembersHeld) (requests : List Request) :
    (machine.afterRequests requests).RemembersHeld := by
  induction requests generalizing machine with
  | nil => exact h
  | cons request requests ih => exact ih (h.afterRequest request)

theorem RemembersHeld.isByteArray (h : machine.RemembersHeld) : machine.IsByteArray := by
  have hplain {other : UInt16} (hother : machine.cpu.config.IsMemory other) :
      (machine.cpu.cell other).IsPlain := Cpu.cell_isPlain_iff.mpr hother
  constructor
  case apart => exact fun address => (Word.masked_ne h.separates.mask address).symm
  case readByte =>
    intro address
    obtain ⟨next, hread, -, -⟩ := Exec.readByte_spec h address
    rw [hread]
  case readWord =>
    intro address
    obtain ⟨next, hread, -⟩ := Exec.readWord_spec address (.refl machine)
    rw [hread, heldWord, Word.toNat_ofBytes, Nat.mul_comm]
    rfl
  case keeps_readByte =>
    intro address
    obtain ⟨next, hread, hundisturbed, -⟩ := Exec.readByte_spec h address
    rw [hread, hundisturbed.heldByte_eq]
  case keeps_readWord =>
    intro address
    obtain ⟨next, hread, hundisturbed⟩ := Exec.readWord_spec address (.refl machine)
    rw [hread, hundisturbed.heldByte_eq]
  case writeByte =>
    intro address value other hother
    obtain ⟨hconfig, -, hcontents⟩ := Exec.writeByte_spec h address value
    rw [heldByte_eq_of_config hconfig, hcontents (hplain hother), heldByte]
    simp only [Cpu.cell_eq_iff h.separates]
  case writeWord =>
    intro address value other hother
    obtain ⟨hconfig, -⟩ := Exec.config_writeWord h address value
    rw [heldByte_eq_of_config hconfig, Exec.contents_writeWord h address value (hplain hother),
      heldByte]
    simp only [Cpu.cell_eq_iff h.separates]
    split
    · next hsecond =>
        rw [if_neg fun hfirst => Word.masked_ne h.separates.mask address (hfirst.trans hsecond.symm)]
    · rfl

end Machine

/-- Memory is one array of bytes on every member of the family, whatever accesses have been made in
an iteration: what a 16-bit bus remembers of a byte operand never shows. -/
theorem memory_is_byte_array (variant : Variant) {machine : Machine β}
    (h : machine.Reachable variant.config) (hforgotten : machine.operandWord = none)
    (requests : List Request) : (machine.afterRequests requests).IsByteArray := by
  have hconfig := h.isConsistent.config_eq
  have hseparates : machine.cpu.config.SeparatesBytes := hconfig.symm ▸ variant.separatesBytes
  have hremembers : machine.RemembersHeld :=
    .of_forgotten hseparates h.isConsistent.ram_size hforgotten
  exact (hremembers.afterRequests requests).isByteArray

/-- A byte operand is read, its word changes behind it, and then the byte is written. -/
theorem memory_is_byte_array_after_word :
    let machine : Machine FlatBus := ⟨.ofConfig Variant.tms9900.config, {}⟩
    let written := machine.afterRequests [.readByte 0x0201, .writeWord 0x0200 0x1234]
    machine.Reachable Variant.tms9900.config ∧ machine.operandWord = none ∧
      written.heldByte 0x0200 = 0x12 ∧
      (Exec.writeByte 0x0201 0x56 written).2.heldByte 0x0200 = 0x12 ∧
      (Exec.writeByte 0x0201 0x56 written).2.heldByte 0x0201 = 0x56 := by
  intro machine written
  have hmachine : machine.Reachable Variant.tms9900.config := .create
  have hbytes := memory_is_byte_array .tms9900 hmachine rfl
    [.readByte 0x0201, .writeWord 0x0200 0x1234]
  have hheld : written.heldByte 0x0200 = 0x12 := by decide +kernel
  have hmemory : written.cpu.config.onChip = false := by decide +kernel
  refine ⟨hmachine, rfl, hheld, ?_, ?_⟩
  · rw [hbytes.writeByte 0x0201 0x56 0x0200 fun h => absurd (hmemory.symm.trans h) nofun, hheld]
    decide +kernel
  · rw [hbytes.writeByte 0x0201 0x56 0x0201 fun h => absurd (hmemory.symm.trans h) nofun]
    decide +kernel

end TmsCores.Tms9900
