import TmsCores.Proofs.Bus.Confinement
import TmsCores.Proofs.Tms9900.AddressSpace
import TmsCores.Proofs.Tms9900.ExecuteChain

namespace TmsCores.Tms9900

variable {α β : Type} [Bus β]

namespace Exec

/-- An access does not call the bus and does not wait. -/
def IsSilent (access : Exec β α) (machine : Machine β) : Prop :=
  (access machine).2.bus = machine.bus ∧ (access machine).2.wait = machine.wait

variable {machine : Machine β} {address : UInt16}

theorem readWord_eq_of_external (h : machine.cpu.region (Word.even address) = .external) :
    readWord address machine = (do
      let hi ← busRead (Word.even address)
      let lo ← busRead (Word.even address ||| 1)
      return Word.ofBytes hi lo : Exec β UInt16) machine := by
  rw [readWord, cpu_bind, h]

theorem cpu_readWord (address : UInt16) (machine : Machine β) :
    (readWord address machine).2.cpu = machine.cpu := by
  cases hregion : machine.cpu.region (Word.even address) with
  | ram offset | decrementer byte =>
      rw [readWord, cpu_bind, hregion]
      rfl
  | external =>
      rw [readWord_eq_of_external hregion]
      rfl

theorem cpu_fetch (machine : Machine β) : (fetch machine).2.cpu = machine.cpu.skip 1 :=
  congrArg (·.skip 1) (cpu_readWord machine.cpu.pc machine)

theorem writeWord_eq_of_external (h : machine.cpu.region (Word.even address) = .external)
    (value : UInt16) :
    writeWord address value machine = (do
      busWrite (Word.even address) (Word.high value)
      busWrite (Word.even address ||| 1) (Word.low value) : Exec β Unit)
        { machine with operandWord := none } := by
  have hforget : setOperandWord none machine = ((), { machine with operandWord := none }) := rfl
  rw [writeWord, bind_of_eq hforget, cpu_bind]
  dsimp only
  rw [h]

theorem cpu_writeWord (address value : UInt16) (machine : Machine β) :
    ∃ chip, (writeWord address value machine).2.cpu = { machine.cpu with chip := chip } := by
  have hforget : setOperandWord none machine = ((), { machine with operandWord := none }) := rfl
  cases hregion : machine.cpu.region (Word.even address) with
  | ram offset | decrementer byte =>
      rw [writeWord, bind_of_eq hforget, cpu_bind]
      dsimp only
      rw [hregion]
      exact ⟨_, rfl⟩
  | external =>
      rw [writeWord_eq_of_external hregion]
      exact ⟨_, rfl⟩

end Exec

namespace Machine

open Exec

/-- What lies on the chip is reached without the bus. -/
structure AnswersOnChip (machine : Machine β) : Prop where
  readWord : ∀ {address}, IsOnChipAddress address.toNat → IsSilent (readWord address) machine
  readByte : ∀ {address}, IsOnChipAddress address.toNat → IsSilent (readByte address) machine
  writeWord : ∀ {address}, IsOnChipAddress address.toNat → ∀ value,
    IsSilent (writeWord address value) machine
  writeByte : ∀ {address}, IsOnChipAddress address.toNat → ∀ value,
    IsSilent (writeByte address value) machine
  cruRead : ∀ {bit}, IsOnChipBit (bit &&& 0x0FFF).toNat → IsSilent (cruRead bit) machine
  cruWrite : ∀ {bit}, IsOnChipBit (bit &&& 0x0FFF).toNat → ∀ value,
    IsSilent (cruWrite bit value) machine

theorem answersOnChip {machine : Machine β} (h : machine.cpu.config.onChip = true) :
    machine.AnswersOnChip := by
  have hregion {address : UInt16} (haddress : IsOnChipAddress address.toNat) :
      machine.cpu.region address ≠ .external :=
    fun hexternal => Cpu.region_eq_external_iff.mp hexternal h haddress
  have heven {address : UInt16} (haddress : IsOnChipAddress address.toNat) :
      machine.cpu.region (Word.even address) ≠ .external := fun hexternal =>
    hregion haddress (Cpu.region_eq_external_congr (Word.even_even address) hexternal)
  have hbit {bit : UInt16} (hbit : IsOnChipBit bit.toNat) : machine.cpu.internalBit? bit ≠ none :=
    fun hnone => Cpu.internalBit?_eq_none_iff.mp hnone h hbit
  constructor
  case readWord =>
    intro address haddress
    rw [IsSilent, Exec.readWord, cpu_bind]
    cases hcase : machine.cpu.region (Word.even address) with
    | ram | decrementer => exact ⟨rfl, rfl⟩
    | external => exact absurd hcase (heven haddress)
  case readByte =>
    intro address haddress
    rw [IsSilent, Exec.readByte, cpu_bind]
    cases hcase : machine.cpu.region address with
    | ram | decrementer => exact ⟨rfl, rfl⟩
    | external => exact absurd hcase (hregion haddress)
  case writeWord =>
    intro address haddress value
    have hforget : setOperandWord none machine = ((), { machine with operandWord := none }) := rfl
    rw [IsSilent, Exec.writeWord, bind_of_eq hforget, cpu_bind]
    dsimp only
    cases hcase : machine.cpu.region (Word.even address) with
    | ram | decrementer => exact ⟨rfl, rfl⟩
    | external => exact absurd hcase (heven haddress)
  case writeByte =>
    intro address haddress value
    rw [IsSilent, Exec.writeByte, cpu_bind]
    cases hcase : machine.cpu.region address with
    | ram | decrementer => exact ⟨rfl, rfl⟩
    | external => exact absurd hcase (hregion haddress)
  case cruRead =>
    intro bit honChip
    rw [IsSilent, Exec.cruRead, get_bind]
    cases hcase : machine.cpu.internalBit? (bit &&& 0x0FFF) with
    | some => exact ⟨rfl, rfl⟩
    | none => exact absurd hcase (hbit honChip)
  case cruWrite =>
    intro bit honChip value
    rw [IsSilent, Exec.cruWrite, get_bind]
    cases hcase : machine.cpu.setInternalBit? (bit &&& 0x0FFF) value with
    | some => exact ⟨rfl, rfl⟩
    | none => exact absurd (Cpu.setInternalBit?_eq_none_iff.mp hcase) (hbit honChip)

/-- Every access calls the bus, there is nothing that the chip answers in its place. -/
structure PassesAllOn (machine : Machine (RecordedBus β)) : Prop where
  readWord : ∀ address, ∃ hi lo,
    machine.bus.Called (readWord address machine).2.bus
      [.read (machine.cpu.config.busAddress (Word.even address)) hi,
        .read (machine.cpu.config.busAddress (Word.even address ||| 1)) lo] ∧
    (readWord address machine).1 = Word.ofBytes hi.data lo.data
  readByte : ∀ address, ∃ calls reading,
    machine.bus.Called (readByte address machine).2.bus calls ∧
    .read (machine.cpu.config.busAddress address) reading ∈ calls ∧
    (readByte address machine).1 = reading.data
  writeWord : ∀ address value, ∃ first second,
    machine.bus.Called (writeWord address value machine).2.bus
      [.write (machine.cpu.config.busAddress (Word.even address)) (Word.high value) first,
        .write (machine.cpu.config.busAddress (Word.even address ||| 1)) (Word.low value) second]
  writeByte : ∀ address value, ∃ calls wait,
    machine.bus.Called (writeByte address value machine).2.bus calls ∧
    .write (machine.cpu.config.busAddress address) value wait ∈ calls
  cruRead : ∀ bit, ∃ reading,
    machine.bus.Called (cruRead bit machine).2.bus [.ioRead (bit &&& 0x0FFF).toUInt32 reading] ∧
    (cruRead bit machine).1 = (reading.data &&& 1 != 0)
  cruWrite : ∀ bit value, ∃ wait,
    machine.bus.Called (cruWrite bit value machine).2.bus
      [.ioWrite (bit &&& 0x0FFF).toUInt32 value.toUInt8 wait]

variable {machine : Machine (RecordedBus β)}

theorem busRead_called (address : UInt16) (machine : Machine (RecordedBus β)) :
    ∃ reading, machine.bus.Called (busRead address machine).2.bus
      [.read (machine.cpu.config.busAddress address) reading] ∧
      (busRead address machine).1 = reading.data :=
  ⟨_, RecordedBus.events_cons _ _ machine.bus, rfl⟩

theorem busWrite_called (address : UInt16) (value : UInt8) (machine : Machine (RecordedBus β)) :
    ∃ wait, machine.bus.Called (busWrite address value machine).2.bus
      [.write (machine.cpu.config.busAddress address) value wait] :=
  ⟨_, RecordedBus.events_cons _ _ machine.bus⟩

theorem readWord_called {address : UInt16}
    (h : machine.cpu.region (Word.even address) = .external) : ∃ hi lo,
    machine.bus.Called (Exec.readWord address machine).2.bus
      [.read (machine.cpu.config.busAddress (Word.even address)) hi,
        .read (machine.cpu.config.busAddress (Word.even address ||| 1)) lo] ∧
    (Exec.readWord address machine).1 = Word.ofBytes hi.data lo.data := by
  obtain ⟨hi, hhi, hfirst⟩ := busRead_called (Word.even address) machine
  obtain ⟨lo, hlo, hsecond⟩ :=
    busRead_called (Word.even address ||| 1) (busRead (Word.even address) machine).2
  refine ⟨hi, lo, ?_, ?_⟩
  · rw [readWord_eq_of_external h]
    exact hhi.trans hlo
  · rw [readWord_eq_of_external h, ← hfirst, ← hsecond]
    rfl

theorem writeWord_called {address : UInt16}
    (h : machine.cpu.region (Word.even address) = .external) (value : UInt16) : ∃ first second,
    machine.bus.Called (Exec.writeWord address value machine).2.bus
      [.write (machine.cpu.config.busAddress (Word.even address)) (Word.high value) first,
        .write (machine.cpu.config.busAddress (Word.even address ||| 1)) (Word.low value)
          second] := by
  let forgetful := { machine with operandWord := none }
  obtain ⟨first, hfirst⟩ := busWrite_called (Word.even address) (Word.high value) forgetful
  obtain ⟨second, hsecond⟩ := busWrite_called (Word.even address ||| 1) (Word.low value)
    (busWrite (Word.even address) (Word.high value) forgetful).2
  refine ⟨first, second, ?_⟩
  rw [writeWord_eq_of_external h]
  exact hfirst.trans hsecond

theorem recallWord_called {address : UInt16}
    (h : machine.cpu.region (Word.even address) = .external) : ∃ calls,
    machine.bus.Called (recallWord address machine).2.bus calls ∧
    (recallWord address machine).2.cpu = machine.cpu := by
  obtain ⟨hi, lo, hcalled, _⟩ := readWord_called h
  have hread : ∃ calls, machine.bus.Called (Exec.readWord address machine).2.bus calls ∧
      (Exec.readWord address machine).2.cpu = machine.cpu :=
    ⟨_, hcalled, cpu_readWord address machine⟩
  rw [recallWord, get_bind]
  rcases machine.operandWord with _ | ⟨remembered, word⟩
  · exact hread
  · dsimp only
    split
    · exact ⟨[], machine.bus.called_refl, rfl⟩
    · exact hread

theorem readByte_called {address : UInt16} (h : machine.cpu.region address = .external) :
    ∃ calls reading, machine.bus.Called (Exec.readByte address machine).2.bus calls ∧
      .read (machine.cpu.config.busAddress address) reading ∈ calls ∧
      (Exec.readByte address machine).1 = reading.data := by
  rw [Exec.readByte, cpu_bind, h]
  cases machine.cpu.config.dataBus with
  | byte =>
      obtain ⟨reading, hcalled, hvalue⟩ := busRead_called address machine
      exact ⟨_, reading, hcalled, List.mem_singleton_self _, hvalue⟩
  | word =>
      obtain ⟨hi, lo, hcalled, hword⟩ := readWord_called (Cpu.region_even h)
      by_cases hparity : address &&& 1 = 0
      · refine ⟨_, hi, hcalled, ?_, ?_⟩
        · rw [Word.even_of_and_one hparity]
          exact List.mem_cons_self
        · change selectByte address (Exec.readWord address machine).1 = hi.data
          rw [selectByte, if_pos hparity, hword, Word.high_ofBytes]
      · refine ⟨_, lo, hcalled, ?_, ?_⟩
        · rw [Word.even_or_one hparity]
          exact List.mem_cons_of_mem _ (List.mem_singleton_self _)
        · change selectByte address (Exec.readWord address machine).1 = lo.data
          rw [selectByte, if_neg hparity, hword, Word.low_ofBytes]

theorem writeByte_called {address : UInt16} (h : machine.cpu.region address = .external)
    (value : UInt8) :
    ∃ calls wait, machine.bus.Called (Exec.writeByte address value machine).2.bus calls ∧
      .write (machine.cpu.config.busAddress address) value wait ∈ calls := by
  rw [Exec.writeByte, cpu_bind, h]
  cases machine.cpu.config.dataBus with
  | byte =>
      obtain ⟨wait, hcalled⟩ := busWrite_called address value machine
      exact ⟨_, wait, hcalled, List.mem_singleton_self _⟩
  | word =>
      have heven := Cpu.region_even (Cpu.region_even h)
      obtain ⟨reads, hreads, hcpu⟩ := recallWord_called heven
      rw [← hcpu] at heven
      obtain ⟨first, second, hwrites⟩ := writeWord_called heven
        (replaceByte address (recallWord (Word.even address) machine).1 value)
      rw [Word.even_even, hcpu] at hwrites
      have hcalled := hreads.trans hwrites
      by_cases hparity : address &&& 1 = 0
      · refine ⟨_, first, hcalled, List.mem_append_right _ ?_⟩
        rw [replaceByte, if_pos hparity, Word.high_ofBytes, Word.even_of_and_one hparity]
        exact List.mem_cons_self
      · refine ⟨_, second, hcalled, List.mem_append_right _ ?_⟩
        rw [replaceByte, if_neg hparity, Word.low_ofBytes, Word.even_or_one hparity]
        exact List.mem_cons_of_mem _ (List.mem_singleton_self _)

theorem passesAllOn (h : machine.cpu.config.onChip = false) : machine.PassesAllOn := by
  have hregion := Cpu.region_of_offChip h
  have hbit (bit : UInt16) : machine.cpu.internalBit? bit = none :=
    Cpu.internalBit?_eq_none_iff.mpr fun honChip => absurd (h.symm.trans honChip) nofun
  constructor
  case readWord => exact fun address => readWord_called (hregion _)
  case readByte => exact fun address => readByte_called (hregion _)
  case writeWord => exact fun address value => writeWord_called (hregion _) value
  case writeByte => exact fun address value => writeByte_called (hregion _) value
  case cruRead =>
    intro bit
    rw [Exec.cruRead, get_bind, hbit]
    exact ⟨_, RecordedBus.events_cons _ _ machine.bus, rfl⟩
  case cruWrite =>
    intro bit value
    rw [Exec.cruWrite, get_bind, Cpu.setInternalBit?_eq_none_iff.mpr (hbit _)]
    exact ⟨_, RecordedBus.events_cons _ _ machine.bus⟩

end Machine

end TmsCores.Tms9900
