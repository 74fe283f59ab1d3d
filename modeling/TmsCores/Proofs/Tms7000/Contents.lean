import TmsCores.Bus.Flat
import TmsCores.Bus.Recorded
import TmsCores.Proofs.Bus.Memory
import TmsCores.Proofs.Tms7000.Stability

namespace TmsCores.Tms7000

namespace Location

/-- The address under which a program finds a location. -/
def address : Location → UInt16
  | .register number => UInt16.ofNat number
  | .interruptControl => 0x0100
  | .timerData => 0x0102
  | .timerControl => 0x0103
  | .port number => 0x0100 ||| number.toUInt16
  | .memory address => address

theorem address_ofPeripheral (number : UInt8) :
    (ofPeripheral number).address = 0x0100 ||| number.toUInt16 := by
  unfold ofPeripheral
  split
  · next h =>
      rw [h]
      rfl
  · split
    · next h =>
        rw [h]
        rfl
    · split
      · next h =>
          rw [h]
          rfl
      · split
        · rfl
        · rfl

@[simp] theorem address_ofAddress (config : Config) (address : UInt16) :
    (ofAddress config address).address = address := by
  unfold ofAddress
  split
  · exact UInt16.ofNat_toNat
  · split
    · next hpage =>
        rw [address_ofPeripheral]
        apply UInt16.toNat_inj.mp
        rw [toNat_page_or, toNat_toUInt8_of_page hpage]
    · rfl

theorem ofAddress_inj {config : Config} {address other : UInt16} :
    ofAddress config address = ofAddress config other ↔ address = other := by
  constructor
  · intro h
    rw [← address_ofAddress config address, h, address_ofAddress]
  · rintro rfl
    rfl

/-- The location only keeps what is written there. -/
def IsPlain : Location → Prop
  | .register _ | .port _ | .memory _ => True
  | .interruptControl | .timerData | .timerControl => False

theorem ofAddress_isPlain {config : Config} {address : UInt16}
    (h : address ≠ 0x0100 ∧ address ≠ 0x0102 ∧ address ≠ 0x0103) :
    (ofAddress config address).IsPlain := by
  have haddress := address_ofAddress config address
  cases hlocation : ofAddress config address with
  | register | port | memory => trivial
  | interruptControl =>
      rw [hlocation] at haddress
      exact h.1 haddress.symm
  | timerData =>
      rw [hlocation] at haddress
      exact h.2.1 haddress.symm
  | timerControl =>
      rw [hlocation] at haddress
      exact h.2.2 haddress.symm

end Location

namespace Cpu

variable (cpu : Cpu)

theorem register_setRegister {number : Nat} (h : number < cpu.file.size) (value : UInt8)
    (other : Nat) :
    (cpu.setRegister number value).register other =
      if number = other then value else cpu.register other := by
  simp only [register, register?, file_setRegister, Array.getElem?_setIfInBounds, if_pos h]
  split
  · rfl
  · rfl

end Cpu

/-- What behind a bus keeps the bytes that are written to it.  Where `Holds` does not say so there
may be anything, as long as it leaves the rest alone. -/
structure Ram (β : Type) [Bus β] where
  Holds : Location → Prop
  byte : β → Location → UInt8
  read_data : ∀ (bus : β) {address : UInt16}, Holds (.memory address) →
    (Bus.read bus address.toUInt32).1.data = byte bus (.memory address)
  ioRead_data : ∀ (bus : β) {number : UInt8}, Holds (.port number) →
    (Bus.ioRead bus number.toUInt32).1.data = byte bus (.port number)
  byte_read : ∀ (bus : β) (address : UInt16) {location}, Holds location →
    byte (Bus.read bus address.toUInt32).2 location = byte bus location
  byte_ioRead : ∀ (bus : β) (number : UInt8) {location}, Holds location →
    byte (Bus.ioRead bus number.toUInt32).2 location = byte bus location
  byte_write : ∀ (bus : β) (address : UInt16) value {location}, Holds location →
    byte (Bus.write bus address.toUInt32 value).2 location =
      if .memory address = location then value else byte bus location
  byte_ioWrite : ∀ (bus : β) (number : UInt8) value {location}, Holds location →
    byte (Bus.ioWrite bus number.toUInt32 value).2 location =
      if .port number = location then value else byte bus location
  byte_acknowledge : ∀ (bus : β) line {location}, Holds location →
    byte (Bus.acknowledge bus line).2 location = byte bus location
  byte_idleChanged : ∀ (bus : β) idle {location}, Holds location →
    byte (Bus.idleChanged bus idle) location = byte bus location
  byte_tick : ∀ (bus : β) {location}, Holds location →
    byte (Bus.tick bus).2 location = byte bus location

/-- The memory and the latches of a flat bus. -/
def Ram.flat : Ram FlatBus where
  Holds _ := True
  byte bus
    | .port number => bus.latches.peek number.toUInt16
    | .memory address => bus.memory.peek address
    | _ => 0
  read_data bus _ _ := congrArg bus.memory.peek (UInt16.toUInt16_toUInt32 _)
  ioRead_data bus _ _ := congrArg bus.latches.peek (UInt8.toUInt16_toUInt32 _)
  byte_read _ _ _ _ := rfl
  byte_ioRead _ _ _ _ := rfl
  byte_write bus address value location _ := by
    cases location with
    | memory other =>
        simp only [Location.memory.injEq]
        change (bus.memory.poke address.toUInt32.toUInt16 value).peek other = _
        rw [UInt16.toUInt16_toUInt32]
        exact Memory.peek_poke bus.memory address other value
    | _ => rfl
  byte_ioWrite bus number value location _ := by
    cases location with
    | port other =>
        have hport : Location.port number = .port other ↔ number.toUInt16 = other.toUInt16 := by
          rw [Location.port.injEq, UInt8.toUInt16_inj]
        simp only [hport]
        change (bus.latches.poke number.toUInt32.toUInt16 value).peek other.toUInt16 = _
        rw [UInt8.toUInt16_toUInt32]
        exact Memory.peek_poke bus.latches number.toUInt16 other.toUInt16 value
    | _ => rfl
  byte_acknowledge _ _ _ _ := rfl
  byte_idleChanged _ _ _ _ := rfl
  byte_tick _ _ _ := rfl

/-- What lies behind a bus lies behind a record of its calls. -/
def Ram.recorded {β : Type} [Bus β] (ram : Ram β) : Ram (RecordedBus β) where
  Holds := ram.Holds
  byte bus := ram.byte bus.inner
  read_data bus _ := ram.read_data bus.inner
  ioRead_data bus _ := ram.ioRead_data bus.inner
  byte_read bus address _ := ram.byte_read bus.inner address
  byte_ioRead bus number _ := ram.byte_ioRead bus.inner number
  byte_write bus address value _ := ram.byte_write bus.inner address value
  byte_ioWrite bus number value _ := ram.byte_ioWrite bus.inner number value
  byte_acknowledge bus line _ := ram.byte_acknowledge bus.inner line
  byte_idleChanged bus idle _ := ram.byte_idleChanged bus.inner idle
  byte_tick bus _ := ram.byte_tick bus.inner

variable {β : Type} [Bus β] (ram : Ram β)

namespace Ram

/-- It is known what lies at a location, on the chip or off it. -/
def Covers : Location → Prop
  | .port number => ram.Holds (.port number)
  | .memory address => ram.Holds (.memory address)
  | .register _ | .interruptControl | .timerData | .timerControl => True

/-- What a program finds at a location. -/
def contents (machine : Machine β) : Location → UInt8
  | .register number => machine.cpu.register number
  | .interruptControl => machine.cpu.interruptControl
  | .timerData => machine.cpu.peripherals.timer.decrementer
  | .timerControl => machine.cpu.peripherals.timer.capture
  | .port number => ram.byte machine.bus (.port number)
  | .memory address => ram.byte machine.bus (.memory address)

/-- What a program finds at an address. -/
def byteAt (machine : Machine β) (address : UInt16) : UInt8 :=
  ram.contents machine (.ofAddress machine.cpu.config address)

end Ram

namespace Exec

variable {ram} {machine : Machine β}

theorem readAt_fst {location : Location} (h : ram.Covers location) :
    (readAt location machine).1 = ram.contents machine location := by
  cases location with
  | register | interruptControl | timerData | timerControl => rfl
  | port number => exact ram.ioRead_data machine.bus h
  | memory address => exact ram.read_data machine.bus h

theorem byte_readAt {location other : Location} (h : ram.Holds other) :
    ram.byte (readAt location machine).2.bus other = ram.byte machine.bus other := by
  cases location with
  | register | interruptControl | timerData | timerControl => rfl
  | port number => exact ram.byte_ioRead machine.bus number h
  | memory address => exact ram.byte_read machine.bus address h

theorem cpu_readAt (location : Location) : (readAt location machine).2.cpu = machine.cpu := by
  cases location with
  | _ => rfl

theorem contents_writeAt {location other : Location} (hplain : location.IsPlain)
    (hregister : ∀ number, location = .register number → number < machine.cpu.file.size)
    (h : ram.Covers other) (value : UInt8) :
    ram.contents (writeAt location value machine).2 other =
      if location = other then value else ram.contents machine other := by
  cases location with
  | interruptControl | timerData | timerControl => exact hplain.elim
  | register number =>
      cases other with
      | register other =>
          simp only [Location.register.injEq]
          exact machine.cpu.register_setRegister (hregister number rfl) value other
      | _ => rfl
  | port number =>
      cases other with
      | port | memory => exact ram.byte_ioWrite machine.bus number value h
      | _ => rfl
  | memory address =>
      cases other with
      | port | memory => exact ram.byte_write machine.bus address value h
      | _ => rfl

theorem read_fst {address : UInt16}
    (h : ram.Covers (.ofAddress machine.cpu.config address)) :
    (read address machine).1 = ram.byteAt machine address :=
  readAt_fst h

theorem config_writeAt (location : Location) (value : UInt8) :
    (writeAt location value machine).2.cpu.config = machine.cpu.config := by
  cases location with
  | _ => rfl

theorem config_write (address : UInt16) (value : UInt8) :
    (write address value machine).2.cpu.config = machine.cpu.config :=
  config_writeAt (Location.ofAddress machine.cpu.config address) value

theorem byteAt_write {address other : UInt16}
    (hregister : machine.cpu.config.registerCount.toNat ≤ machine.cpu.file.size)
    (haddress : address ≠ 0x0100 ∧ address ≠ 0x0102 ∧ address ≠ 0x0103)
    (h : ram.Covers (.ofAddress machine.cpu.config other)) (value : UInt8) :
    ram.byteAt (write address value machine).2 other =
      if address = other then value else ram.byteAt machine other := by
  have hsize : ∀ number, Location.ofAddress machine.cpu.config address = .register number →
      number < machine.cpu.file.size :=
    fun number h => Nat.lt_of_lt_of_le (Location.lt_of_ofAddress_eq_register h) hregister
  have hcontents := contents_writeAt (Location.ofAddress_isPlain haddress) hsize h value
  simp only [Location.ofAddress_inj] at hcontents
  rw [Ram.byteAt, config_write]
  exact hcontents

end Exec

end TmsCores.Tms7000
