import TmsCores.Bus.Flat
import TmsCores.Proofs.Bus.Memory
import TmsCores.Proofs.Tms9900.AddressSpace
import TmsCores.Proofs.Tms9900.Simulation

namespace TmsCores.Tms9900

namespace Machine

variable {α : Type} {machine : Machine FlatBus}

/-- The word that memory holds at an address. -/
def memoryWord (machine : Machine FlatBus) (address : UInt16) : UInt16 :=
  Word.ofBytes
    (machine.bus.memory.peek (address &&& machine.cpu.config.addressMask))
    (machine.bus.memory.peek ((address ||| 1) &&& machine.cpu.config.addressMask))

/-- The bytes of a word are apart, accesses take no time, and what is remembered from a byte operand
is what memory holds. -/
structure IsPlain (machine : Machine FlatBus) : Prop where
  mask : machine.cpu.config.addressMask &&& 1 = 1
  accessCycles : machine.cpu.config.byteAccessCycles = 0
  remembered : ∀ address word, machine.operandWord = some (address, word) →
    machine.cpu.config.dataBus = .word ∧ word = machine.memoryWord address

namespace IsPlain

theorem congr (h : machine.IsPlain) {next : Machine FlatBus}
    (hconfig : next.cpu.config = machine.cpu.config)
    (hmemory : next.bus.memory = machine.bus.memory)
    (hoperandWord : next.operandWord = machine.operandWord) : next.IsPlain where
  mask := by
    rw [hconfig]
    exact h.mask
  accessCycles := by
    rw [hconfig]
    exact h.accessCycles
  remembered address word hword := by
    rw [hoperandWord] at hword
    rw [memoryWord, hconfig, hmemory]
    exact h.remembered address word hword

theorem forget (h : machine.IsPlain) {next : Machine FlatBus}
    (hmask : next.cpu.config.addressMask = machine.cpu.config.addressMask)
    (haccessCycles : next.cpu.config.byteAccessCycles = machine.cpu.config.byteAccessCycles)
    (hoperandWord : next.operandWord = none) : next.IsPlain where
  mask := hmask.symm ▸ h.mask
  accessCycles := haccessCycles.symm ▸ h.accessCycles
  remembered address word hword := by
    rw [hoperandWord] at hword
    cases hword

theorem operandWord_eq_none (h : machine.IsPlain) (hbus : machine.cpu.config.dataBus = .byte) :
    machine.operandWord = none := by
  cases hoperandWord : machine.operandWord with
  | none => rfl
  | some operandWord =>
      have hword := (h.remembered _ _ hoperandWord).1
      rw [hbus] at hword
      cases hword

end IsPlain

def wordAt (machine : Machine FlatBus) (address : UInt16) : UInt16 :=
  match machine.cpu.region (Word.even address) with
  | .ram offset => machine.cpu.chip.word offset
  | .decrementer _ => machine.cpu.chip.decrementer.count
  | .external => machine.memoryWord (Word.even address)

def byteAt (machine : Machine FlatBus) (address : UInt16) : UInt8 :=
  match machine.cpu.region address with
  | .ram offset => machine.cpu.chip.byte offset
  | .decrementer byte => Exec.selectByte byte machine.cpu.chip.decrementer.count
  | .external => machine.bus.memory.peek (address &&& machine.cpu.config.addressMask)

/-- A machine with a byte of its memory replaced. -/
def poke (machine : Machine FlatBus) (address : UInt16) (value : UInt8) : Machine FlatBus :=
  { machine with
    bus.memory :=
      machine.bus.memory.poke (address &&& machine.cpu.config.addressMask) value }

def storeWord (machine : Machine FlatBus) (address value : UInt16) : Machine FlatBus :=
  let forgetful := { machine with operandWord := none }
  match machine.cpu.region (Word.even address) with
  | .ram offset => { forgetful with cpu.chip := machine.cpu.chip.setWord offset value }
  | .decrementer _ => { forgetful with cpu.chip.decrementer := .ofStart value }
  | .external =>
      (forgetful.poke (Word.even address) (Word.high value)).poke (Word.even address ||| 1)
        (Word.low value)

def storeByte (machine : Machine FlatBus) (address : UInt16) (value : UInt8) : Machine FlatBus :=
  match machine.cpu.region address with
  | .ram offset => { machine with cpu.chip := machine.cpu.chip.setByte offset value }
  | .decrementer byte =>
      { machine with
        cpu.chip.decrementer := machine.cpu.chip.decrementer.writeByte byte value }
  | .external => poke { machine with operandWord := none } address value

theorem selectByte_memoryWord (machine : Machine FlatBus) (address : UInt16) :
    Exec.selectByte address (machine.memoryWord (Word.even address)) =
      machine.bus.memory.peek (address &&& machine.cpu.config.addressMask) := by
  by_cases hparity : address &&& 1 = 0
  · rw [Exec.selectByte, if_pos hparity, memoryWord, Word.high_ofBytes,
      Word.even_of_and_one hparity]
  · rw [Exec.selectByte, if_neg hparity, memoryWord, Word.low_ofBytes, Word.even_or_one hparity]

theorem poke_replaceByte (h : machine.IsPlain) (address : UInt16) (value : UInt8) :
    (machine.poke (Word.even address)
        (Word.high (Exec.replaceByte address (machine.memoryWord (Word.even address)) value))).poke
      (Word.even address ||| 1)
      (Word.low (Exec.replaceByte address (machine.memoryWord (Word.even address)) value)) =
    machine.poke address value := by
  let mask := machine.cpu.config.addressMask
  suffices hmemory : (machine.bus.memory.poke (Word.even address &&& mask)
        (Word.high (Exec.replaceByte address (machine.memoryWord (Word.even address)) value))).poke
      ((Word.even address ||| 1) &&& mask)
      (Word.low (Exec.replaceByte address (machine.memoryWord (Word.even address)) value)) =
      machine.bus.memory.poke (address &&& mask) value from
    congrArg (fun memory => { machine with bus.memory := memory }) hmemory
  by_cases hparity : address &&& 1 = 0
  · rw [Exec.replaceByte, if_pos hparity, Word.high_ofBytes, Word.low_ofBytes, memoryWord,
      Word.low_ofBytes, Memory.poke_poke_peek _ (Word.masked_ne h.mask address),
      Word.even_of_and_one hparity]
  · rw [Exec.replaceByte, if_neg hparity, Word.high_ofBytes, Word.low_ofBytes, memoryWord,
      Word.high_ofBytes, Memory.poke_peek, Word.even_or_one hparity]

end Machine

namespace Exec

open Machine

variable {machine : Machine FlatBus}

theorem busRead_eq (h : machine.IsPlain) (address : UInt16) :
    busRead address machine =
      (machine.bus.memory.peek (address &&& machine.cpu.config.addressMask), machine) := by
  change (machine.bus.memory.peek
      (address &&& machine.cpu.config.addressMask).toUInt32.toUInt16,
    { machine with
      wait := machine.wait + ((0 : UInt8).toNat +
        machine.cpu.config.byteAccessCycles.toNat) }) = _
  rw [h.accessCycles, UInt16.toUInt16_toUInt32]
  rfl

theorem busWrite_eq (h : machine.IsPlain) (address : UInt16) (value : UInt8) :
    busWrite address value machine = ((), machine.poke address value) := by
  change ((), { machine with
      bus := { machine.bus with
        memory := machine.bus.memory.poke
          (address &&& machine.cpu.config.addressMask).toUInt32.toUInt16 value }
      wait := machine.wait + ((0 : UInt8).toNat +
        machine.cpu.config.byteAccessCycles.toNat) }) = _
  rw [h.accessCycles, UInt16.toUInt16_toUInt32]
  rfl

theorem readWord_of_external (h : machine.IsPlain) {address : UInt16}
    (hregion : machine.cpu.region (Word.even address) = .external) :
    readWord address machine = (machine.memoryWord (Word.even address), machine) := by
  rw [readWord, cpu_bind, hregion]
  exact (bind_of_eq (busRead_eq h _)).trans (bind_of_eq (busRead_eq h _))

theorem readWord_eq (h : machine.IsPlain) (address : UInt16) : ∃ fault,
    readWord address machine = (machine.wordAt address, { machine with fault := fault }) := by
  rw [wordAt]
  cases hregion : machine.cpu.region (Word.even address) with
  | ram offset =>
      rw [readWord, cpu_bind, hregion]
      exact ⟨_, rfl⟩
  | decrementer byte =>
      rw [readWord, cpu_bind, hregion]
      exact ⟨machine.fault, rfl⟩
  | external => exact ⟨machine.fault, readWord_of_external h hregion⟩

/-- A byte comes from memory over either bus, and what is remembered comes from there as well. -/
theorem readByte_eq (h : machine.IsPlain) (address : UInt16) :
    ∃ operandWord fault, readByte address machine =
      (machine.byteAt address, { machine with operandWord := operandWord, fault := fault }) ∧
      IsPlain { machine with operandWord := operandWord, fault := fault } := by
  rw [readByte, cpu_bind, byteAt]
  cases hregion : machine.cpu.region address with
  | ram offset => exact ⟨machine.operandWord, _, rfl, h.congr rfl rfl rfl⟩
  | decrementer byte => exact ⟨machine.operandWord, _, rfl, h.congr rfl rfl rfl⟩
  | external =>
      cases hbus : machine.cpu.config.dataBus with
      | byte => exact ⟨machine.operandWord, machine.fault, busRead_eq h address, h⟩
      | word =>
          let word := machine.memoryWord (Word.even address)
          have heven : machine.cpu.region (Word.even address) = .external :=
            Cpu.region_even hregion
          refine ⟨some (Word.even address, word), machine.fault, ?_, ?_⟩
          · have hread : readWord address machine = (word, machine) := readWord_of_external h heven
            refine (bind_of_eq hread).trans ?_
            rw [← selectByte_memoryWord machine address]
            rfl
          · exact
              { mask := h.mask
                accessCycles := h.accessCycles
                remembered := by
                  rintro _ _ ⟨⟩
                  exact ⟨hbus, rfl⟩ }

theorem recallWord_eq (h : machine.IsPlain) {address : UInt16}
    (hregion : machine.cpu.region (Word.even address) = .external) :
    recallWord (Word.even address) machine = (machine.memoryWord (Word.even address), machine) := by
  have hread : readWord (Word.even address) machine =
      (machine.memoryWord (Word.even address), machine) := by
    rw [readWord_of_external h (by rw [Word.even_even, hregion]), Word.even_even]
  rw [recallWord, get_bind]
  cases hoperandWord : machine.operandWord with
  | none => exact hread
  | some operandWord =>
      obtain ⟨remembered, word⟩ := operandWord
      dsimp only
      split
      · next hsame =>
          obtain ⟨_, rfl⟩ := h.remembered remembered word hoperandWord
          rw [hsame]
          rfl
      · exact hread

theorem writeWord_of_external (h : machine.IsPlain) {address : UInt16}
    (hregion : machine.cpu.region (Word.even address) = .external) (value : UInt16) :
    writeWord address value machine = ((), machine.storeWord address value) := by
  have hforget :
      setOperandWord none machine = ((), { machine with operandWord := none }) :=
    rfl
  have hforgetful : IsPlain { machine with operandWord := none } := h.forget rfl rfl rfl
  have hpoked : IsPlain (poke { machine with operandWord := none } (Word.even address)
      (Word.high value)) :=
    h.forget rfl rfl rfl
  rw [writeWord, bind_of_eq hforget, cpu_bind, storeWord]
  dsimp only
  rw [hregion]
  exact (bind_of_eq (busWrite_eq hforgetful _ _)).trans (busWrite_eq hpoked _ _)

theorem writeWord_eq (h : machine.IsPlain) (address value : UInt16) : ∃ fault,
    writeWord address value machine =
      ((), { machine.storeWord address value with fault := fault }) := by
  have hforget :
      setOperandWord none machine = ((), { machine with operandWord := none }) :=
    rfl
  cases hregion : machine.cpu.region (Word.even address) with
  | ram offset =>
      rw [writeWord, bind_of_eq hforget, cpu_bind, storeWord]
      dsimp only
      rw [hregion]
      exact ⟨_, rfl⟩
  | decrementer byte =>
      rw [writeWord, bind_of_eq hforget, cpu_bind, storeWord]
      dsimp only
      rw [hregion]
      exact ⟨machine.fault, rfl⟩
  | external =>
      exact ⟨(machine.storeWord address value).fault, writeWord_of_external h hregion value⟩

/-- A byte goes to memory alone over either bus: the other byte of its word is written as it was. -/
theorem writeByte_eq (h : machine.IsPlain) (address : UInt16) (value : UInt8) : ∃ fault,
    writeByte address value machine =
      ((), { machine.storeByte address value with fault := fault }) := by
  rw [writeByte, cpu_bind, storeByte]
  cases hregion : machine.cpu.region address with
  | ram offset => exact ⟨_, rfl⟩
  | decrementer byte => exact ⟨machine.fault, rfl⟩
  | external =>
      cases hbus : machine.cpu.config.dataBus with
      | byte =>
          have hnone : { machine with operandWord := none } = machine := by
            rw [← h.operandWord_eq_none hbus]
          dsimp only
          rw [hnone]
          exact ⟨machine.fault, busWrite_eq h address value⟩
      | word =>
          have heven := Cpu.region_even hregion
          have hword : machine.cpu.region (Word.even (Word.even address)) = .external := by
            rw [Word.even_even, heven]
          have hwrite := writeWord_of_external h hword
          have hforgetful : IsPlain { machine with operandWord := none } := h.forget rfl rfl rfl
          refine ⟨machine.fault, (bind_of_eq (recallWord_eq h heven)).trans ?_⟩
          rw [hwrite, storeWord, Word.even_even, heven]
          exact congrArg (Prod.mk ()) (poke_replaceByte hforgetful address value)

end Exec

end TmsCores.Tms9900
