import TmsCores.Proofs.Arithmetic.Order
import TmsCores.Proofs.Tms9900.ByteAddressing
import TmsCores.Proofs.Tms9900.Cost
import TmsCores.Proofs.Tms9900.IoBits

namespace TmsCores.Tms9900

section

variable {β : Type} [Bus β] [RamBus β]

open RamBus

namespace Machine

variable {machine : Machine β}

theorem RemembersHeld.withCpu (h : machine.RemembersHeld) {cpu : Cpu}
    (hconfig : cpu.config = machine.cpu.config) (hram : cpu.chip.ram = machine.cpu.chip.ram)
    (hdecrementer : cpu.chip.decrementer = machine.cpu.chip.decrementer) :
    { machine with cpu := cpu }.RemembersHeld := by
  refine h.congr hconfig (congrArg Array.size hram) ?_ rfl
  funext cell
  rw [contents, contents]
  cases cell with
  | ram offset =>
      rw [Cpu.contents, Cpu.contents, OnChip.byte, OnChip.byte, OnChip.byte?, OnChip.byte?, hram]
  | decrementer byte => rw [Cpu.contents, Cpu.contents, hdecrementer]
  | memory address => rfl

end Machine

namespace Exec

theorem keeps_remembersHeld_of_cpu {change : Cpu → Cpu}
    (hchange : ∀ cpu, (change cpu).config = cpu.config ∧ (change cpu).chip.ram = cpu.chip.ram ∧
      (change cpu).chip.decrementer = cpu.chip.decrementer) :
    Corresponds (SameWith (Machine.RemembersHeld : Machine β → Prop)) (modifyCpu change)
      (modifyCpu change) := by
  refine corresponds_self_iff.mpr fun machine h => ?_
  obtain ⟨hconfig, hram, hdecrementer⟩ := hchange machine.cpu
  exact h.withCpu hconfig hram hdecrementer

theorem remembersHeld_cruRead (bit : UInt16) :
    Keeps (Machine.RemembersHeld : Machine β → Prop) (cruRead bit) := by
  intro machine h
  rw [cruRead, get_bind]
  cases machine.cpu.internalBit? (bit &&& 0x0FFF) with
  | some value => exact h
  | none => exact h.of_undisturbed ⟨rfl, memory_ioRead machine.bus _⟩ rfl

theorem remembersHeld_cruWrite (bit : UInt16) (value : Bool) :
    Keeps (Machine.RemembersHeld : Machine β → Prop) (cruWrite bit value) := by
  intro machine h
  rw [cruWrite, get_bind]
  cases hchanged : machine.cpu.setInternalBit? (bit &&& 0x0FFF) value with
  | some changed =>
      obtain ⟨hconfig, -, hram, hdecrementer⟩ := Cpu.kept_of_setInternalBit? hchanged
      exact h.withCpu hconfig hram hdecrementer
  | none => exact h.of_undisturbed ⟨rfl, memory_ioWrite machine.bus _ _⟩ rfl

theorem remembersHeld_readByte (address : UInt16) :
    Keeps (Machine.RemembersHeld : Machine β → Prop) (readByte address) :=
  fun _ h => h.afterRequest (.readByte address)

theorem remembersHeld_readWord (address : UInt16) :
    Keeps (Machine.RemembersHeld : Machine β → Prop) (readWord address) :=
  fun _ h => h.afterRequest (.readWord address)

/-- No instruction leaves a word remembered that memory does not hold. -/
theorem remembersHeld_simulation :
    Simulation (SameWith (Machine.RemembersHeld : Machine β → Prop)) where
  sameView := by
    rintro m _ ⟨rfl, _⟩
    rfl
  readWord address := corresponds_self_iff.mpr (remembersHeld_readWord address)
  writeWord address value :=
    corresponds_self_iff.mpr fun _ h => h.afterRequest (.writeWord address value)
  readByte address := corresponds_self_iff.mpr (remembersHeld_readByte address)
  writeByte address value :=
    corresponds_self_iff.mpr fun _ h => h.afterRequest (.writeByte address value)
  dummyRead address width := by
    refine corresponds_self_iff.mpr (inspect_keeps fun machine h => ?_)
    cases machine.cpu.config.dummyDestinationRead with
    | false => exact h
    | true =>
        cases width with
        | byte => exact remembersHeld_readByte address machine h
        | word => exact remembersHeld_readWord address machine h
  cruRead bit := corresponds_self_iff.mpr (remembersHeld_cruRead bit)
  cruWrite bit value := corresponds_self_iff.mpr (remembersHeld_cruWrite bit value)
  skip words := keeps_remembersHeld_of_cpu fun _ => ⟨rfl, rfl, rfl⟩
  setPc pc := keeps_remembersHeld_of_cpu fun _ => ⟨rfl, rfl, rfl⟩
  setWp wp := keeps_remembersHeld_of_cpu fun _ => ⟨rfl, rfl, rfl⟩
  overflowTrap := keeps_remembersHeld_of_cpu fun cpu => by
    unfold Cpu.overflowTrap
    split
    · exact ⟨rfl, rfl, rfl⟩
    · exact ⟨rfl, rfl, rfl⟩
  illegalTrap := keeps_remembersHeld_of_cpu fun _ => ⟨rfl, rfl, rfl⟩
  setSt st := keeps_remembersHeld_of_cpu fun _ => ⟨rfl, rfl, rfl⟩
  modifySt _ := keeps_remembersHeld_of_cpu fun _ => ⟨rfl, rfl, rfl⟩

end Exec

end

namespace Cpu

/-- The cells that an operand takes up. -/
def operandCells (cpu : Cpu) (address : UInt16) : Width → List Cell
  | .byte => [cpu.cell address]
  | .word => cpu.wordCells address

theorem operandCells_congr {cpu other : Cpu} (h : cpu.config = other.config) :
    cpu.operandCells = other.operandCells := by
  funext address width
  cases width with
  | byte => rw [operandCells, operandCells, cell_congr h]
  | word => rw [operandCells, operandCells, wordCells_congr h]

end Cpu

namespace Machine

variable {β : Type} [Bus β]

/-- Some instructions executed one after the other, with nothing else in between. -/
def afterInstructions (machine : Machine β) (instructions : List (UInt16 × Instruction)) :
    Machine β :=
  instructions.foldl (fun next step => (Exec.perform step.1 step.2 next).2) machine

variable [RamBus β]

/-- The number that a program finds in an operand. -/
def heldOperand (machine : Machine β) (address : UInt16) : Width → Nat
  | .byte => (machine.heldByte address).toNat
  | .word => (machine.heldWord address).toNat

/-- The number of the bit of the I/O space that R12 points to. -/
def ioBase (machine : Machine β) : Nat :=
  (machine.register 12).toNat / 2 % 0x1000

/-- The processor is a member of the family, and what it remembers of operands is right. -/
structure IsSound (variant : Variant) (machine : Machine β) : Prop
    extends machine.RemembersHeld where
  consistent : machine.cpu.IsConsistent variant.config

/-- An iteration begins by forgetting what earlier ones left behind. -/
theorem isSound_of_reachable {variant : Variant} {machine : Machine β}
    (h : machine.Reachable variant.config) :
    (Exec.clearLeftovers machine).2.IsSound variant where
  toRemembersHeld := .of_forgotten (h.isConsistent.config_eq ▸ variant.separatesBytes)
    h.isConsistent.ram_size rfl
  consistent := h.isConsistent

end Machine

section

variable {α β : Type} [Bus β] [RamBus β]

namespace Exec

open Machine RamBus

theorem keeps_isSound {variant : Variant} {x : Exec β α}
    (hremembers : Corresponds (SameWith RemembersHeld) x x)
    (hconsistent : Corresponds (SameWith (Has (Cpu.IsConsistent variant.config))) x x) :
    Keeps (IsSound variant) x := by
  intro machine h
  exact ⟨corresponds_self_iff.mp hremembers machine h.toRemembersHeld,
    corresponds_self_iff.mp hconsistent machine h.consistent⟩

omit [RamBus β] in
theorem isConsistent_simulation (variant : Variant) :
    Simulation (SameWith (Has (Cpu.IsConsistent variant.config) : Machine β → Prop)) :=
  (Cpu.isConsistent_hostStable variant.config).toStable.simulation

theorem keeps_isSound_perform (variant : Variant) (opcode : UInt16) (instruction : Instruction) :
    Keeps (IsSound variant : Machine β → Prop) (perform opcode instruction) := by
  refine keeps_isSound (remembersHeld_simulation.perform (fun _ => ?_) (fun _ => ?_) opcode)
    ((isConsistent_simulation variant).perform (fun _ => ?_) (fun _ => ?_) opcode)
  · exact keeps_remembersHeld_of_cpu fun _ => ⟨rfl, rfl, rfl⟩
  · refine corresponds_self_iff.mpr fun machine h => ?_
    have hidle : { machine with cpu.idle := true }.RemembersHeld := h.withCpu rfl rfl rfl
    exact hidle.of_undisturbed ⟨rfl, memory_idleChanged machine.bus true⟩ rfl
  · exact corresponds_self_iff.mpr fun _ h => { h with }
  · exact corresponds_self_iff.mpr fun _ h => { h with }

end Exec

namespace Machine

variable {variant : Variant} {machine : Machine β}

theorem IsSound.afterInstructions (h : machine.IsSound variant)
    (instructions : List (UInt16 × Instruction)) :
    (machine.afterInstructions instructions).IsSound variant := by
  induction instructions generalizing machine with
  | nil => exact h
  | cons step rest ih => exact ih (Exec.keeps_isSound_perform variant step.1 step.2 machine h)

theorem IsSound.resolve (h : machine.IsSound variant) (operand : Operand) (width : Width) :
    (Exec.resolve operand width machine).2.IsSound variant :=
  Exec.keeps_isSound (Exec.remembersHeld_simulation.resolve operand width)
    ((Exec.isConsistent_simulation variant).resolve operand width) machine h

end Machine

namespace Exec

variable {before machine : Machine β}

omit [RamBus β] in
theorem onlyRead_readByte (address : UInt16) (machine : Machine β) :
    Bus.OnlyRead machine.bus (readByte address machine).2.bus := by
  rw [readByte, cpu_bind]
  cases machine.cpu.region address with
  | ram offset | decrementer byte => exact .refl
  | external =>
      cases machine.cpu.config.dataBus with
      | byte => exact .tail .refl (.memory _ _)
      | word => exact onlyRead_readWord address machine

theorem readOperand_inspects (h : machine.RemembersHeld) (address : UInt16) (width : Width) :
    ∃ value next, readOperand address width machine = (value, next) ∧
      value.toNat = machine.heldOperand address width ∧ machine.Inspected next := by
  cases width with
  | byte =>
      obtain ⟨next, hread, hundisturbed, -⟩ := readByte_spec h address
      have honlyRead := onlyRead_readByte address machine
      rw [hread] at honlyRead
      refine ⟨(machine.heldByte address).toUInt16, next, ?_, UInt8.toNat_toUInt16 _,
        hundisturbed.cpu_eq, honlyRead⟩
      rw [readOperand, bind_of_eq hread]
      rfl
  | word =>
      obtain ⟨next, hread, hinspected⟩ := readWord_inspects address (.refl machine)
      exact ⟨machine.heldWord address, next, hread, rfl, hinspected⟩

theorem cruBase_inspects (h : before.Inspected machine) : ∃ base next,
    cruBase machine = (base, next) ∧ base.toNat = before.ioBase ∧ before.Inspected next := by
  obtain ⟨next, hread, hnext⟩ := readRegister_inspects 12 h
  refine ⟨(before.register 12 >>> 1) &&& 0x0FFF, next, ?_, ?_, hnext⟩
  · rw [cruBase, bind_of_eq hread]
    rfl
  · rw [UInt16.toNat_and, Word.toNat_shiftRight_one, Machine.ioBase]
    exact Nat.and_two_pow_sub_one_eq_mod _ 12

omit [Bus β] [RamBus β] in
theorem selectByte_writeByte {byte : UInt16} (h : byte.toNat < 2) (decrementer : Decrementer)
    (value : UInt8) : selectByte byte (decrementer.writeByte byte value).count = value := by
  have hbyte : byte = 0 ∨ byte = 1 := by
    rw [← UInt16.toNat_inj, ← UInt16.toNat_inj]
    simp only [UInt16.reduceToNat]
    omega
  rcases hbyte with rfl | rfl
  · exact Word.high_ofBytes _ _
  · exact Word.low_ofBytes _ _

theorem heldByte_writeByte (h : machine.RemembersHeld) (address : UInt16) (value : UInt8) :
    (writeByte address value machine).2.heldByte address = value := by
  obtain ⟨hconfig, -, hcontents⟩ := writeByte_spec h address value
  rw [Machine.heldByte_eq_of_config hconfig]
  cases hregion : machine.cpu.region address with
  | ram offset | external =>
      have hplain : (machine.cpu.cell address).IsPlain := by
        rw [Cpu.cell_of_region hregion]
        trivial
      rw [hcontents hplain, if_pos rfl]
  | decrementer byte =>
      have hbyte : byte.toNat < 2 := by
        unfold Cpu.region at hregion
        split at hregion
        · exact Region.byte_lt hregion
        · exact absurd hregion nofun
      rw [Cpu.cell_of_region hregion, writeByte, cpu_bind, hregion]
      exact selectByte_writeByte hbyte machine.cpu.chip.decrementer value

theorem heldWord_writeWord_of_remembersHeld (h : machine.RemembersHeld) (address value : UInt16) :
    (writeWord address value machine).2.heldWord address = value := by
  have hapart : machine.cpu.cell (Word.even address ||| 1) ≠
      machine.cpu.cell (Word.even address) := by
    rw [ne_eq, Cpu.cell_eq_iff h.separates]
    exact (Word.masked_ne h.separates.mask address).symm
  cases hregion : machine.cpu.region (Word.even address) with
  | ram offset | external =>
      refine heldWord_writeWord h.ram_size ?_ value hapart
      rw [Cpu.cell_of_region hregion]
      trivial
  | decrementer byte =>
      obtain ⟨rfl, hnext⟩ := Cpu.cell_even_or_one_of_decrementer hregion
      have hconfig := (config_writeWord h address value).1
      rw [Machine.heldWord, Cpu.cell_congr hconfig, Cpu.cell_of_region hregion,
        Cpu.cell_of_region hnext, writeWord_of_decrementer hregion]
      exact Word.ofBytes_high_low value

theorem writeOperand_spec (h : machine.RemembersHeld) (address : UInt16) {width : Width}
    {value : UInt16} (hvalue : value.toNat < 2 ^ width.bits) :
    (writeOperand address width value machine).2.heldOperand address width = value.toNat ∧
      ∀ {cell : Cell}, cell.IsPlain → cell ∉ machine.cpu.operandCells address width →
        (writeOperand address width value machine).2.contents cell = machine.contents cell := by
  cases width with
  | byte =>
      constructor
      · refine (congrArg UInt8.toNat (heldByte_writeByte h address (Word.low value))).trans ?_
        rw [Word.toNat_low]
        exact Nat.mod_eq_of_lt hvalue
      · intro cell hplain hcell
        refine ((writeByte_spec h address (Word.low value)).2.2 hplain).trans (if_neg ?_)
        exact fun hsame => hcell (List.mem_singleton.mpr hsame.symm)
  | word =>
      constructor
      · exact congrArg UInt16.toNat (heldWord_writeWord_of_remembersHeld h address value)
      · intro cell hplain hcell
        rw [Cpu.operandCells, Cpu.mem_wordCells, not_or] at hcell
        refine (contents_writeWord h address value hplain).trans ?_
        rw [if_neg (Ne.symm hcell.2), if_neg (Ne.symm hcell.1)]

end Exec

end

section

variable {β : Type} [Bus β] [LatchBus β] {before : Machine β}

namespace Exec

open LatchBus

theorem readWord_keepsIo (address : UInt16) : Keeps before.KeepsIo (readWord address) := by
  intro machine h
  refine h.trans (Machine.Inspected.keepsIo ⟨cpu_readWord address machine, ?_⟩)
  exact onlyRead_readWord address machine

theorem busWrite_keepsIo (address : UInt16) (value : UInt8) :
    Keeps before.KeepsIo (busWrite address value) := by
  intro machine h
  refine h.trans ⟨rfl, rfl, rfl, rfl, ?_⟩
  exact latches_write machine.bus _ value

theorem writeWord_keepsIo (address value : UInt16) :
    Keeps before.KeepsIo (writeWord address value) := by
  intro machine h
  cases hregion : machine.cpu.region (Word.even address) with
  | ram offset =>
      obtain ⟨fault, hwrite⟩ := writeWord_of_ram hregion value
      rw [hwrite]
      exact h.trans ⟨rfl, rfl, rfl, rfl, rfl⟩
  | decrementer byte =>
      rw [writeWord_of_decrementer hregion]
      exact h.trans ⟨rfl, rfl, rfl, rfl, rfl⟩
  | external =>
      rw [writeWord_eq_of_external hregion]
      have hforgotten : before.KeepsIo { machine with operandWord := none } :=
        h.trans ⟨rfl, rfl, rfl, rfl, rfl⟩
      exact (busWrite_keepsIo _ _).seq (busWrite_keepsIo _ _) _ hforgotten

theorem writeByte_keepsIo (address : UInt16) (value : UInt8) :
    Keeps before.KeepsIo (writeByte address value) := by
  refine inspect_keeps fun machine h => ?_
  cases machine.cpu.region address with
  | ram offset | decrementer byte => exact h.trans ⟨rfl, rfl, rfl, rfl, rfl⟩
  | external =>
      cases machine.cpu.config.dataBus with
      | byte => exact busWrite_keepsIo address value machine h
      | word =>
          have hrecall : Keeps before.KeepsIo (recallWord (Word.even address)) := by
            refine Keeps.inspect fun machine h => ?_
            rcases machine.operandWord with _ | ⟨remembered, word⟩
            · exact readWord_keepsIo _ machine h
            · dsimp only
              split
              · exact h
              · exact readWord_keepsIo _ machine h
          exact hrecall.bind (fun _ => writeWord_keepsIo _ _) machine h

theorem writeOperand_keepsIo (address : UInt16) (width : Width) (value : UInt16) :
    Keeps before.KeepsIo (writeOperand address width value) := by
  cases width with
  | byte => exact writeByte_keepsIo address (Word.low value)
  | word => exact writeWord_keepsIo address value

theorem readRegister_keepsIo (number : UInt16) : Keeps before.KeepsIo (readRegister number) :=
  inspect_keeps fun machine h => readWord_keepsIo _ machine h

theorem resolve_keepsIo (operand : Operand) (width : Width) :
    Keeps before.KeepsIo (resolve operand width) := by
  refine inspect_keeps fun machine h => ?_
  refine Keeps.bind (x := operandAddress operand width) ?_ (fun _ => .pure _) machine h
  unfold operandAddress
  cases operand.mode with
  | register => exact inspect_keeps fun _ h => h
  | indirect => exact readRegister_keepsIo _
  | indexed =>
      have hfetch : Keeps before.KeepsIo fetch := by
        refine inspect_keeps fun machine h => ?_
        refine (readWord_keepsIo _).bind (fun _ => ?_) machine h
        exact fun _ h => h.trans ⟨rfl, rfl, rfl, rfl, rfl⟩
      refine hfetch.bind fun base => ?_
      split
      · exact .pure base
      · exact (readRegister_keepsIo _).bind fun _ => .pure _
  | autoIncrement =>
      refine (readRegister_keepsIo _).bind fun address => ?_
      refine Keeps.seq ?_ (.pure address)
      exact inspect_keeps fun machine h => writeWord_keepsIo _ _ machine h

end Exec

end

variable {β : Type} [Bus β] [RamBus β] [LatchBus β] {variant : Variant} {machine : Machine β}

open Machine

namespace Exec

/-- LDCR first finds its operand and reads R12, and the rest is writing bits. -/
theorem ldcr_spec (h : machine.IsSound variant) (opcode : UInt16) :
    let count := cruCount opcode
    let found := resolve (.source opcode) (cruWidth count) machine
    ∃ operand base started, operand.toNat = found.2.heldOperand found.1.1 (cruWidth count) ∧
      base.toNat = found.2.ioBase ∧ machine.KeepsIo started ∧ started.cpu.HasLatchLines ∧
      (ldcr opcode machine).2 = (writeBits operand count base started).2 := by
  intro count found
  have hsound : found.2.IsSound variant := h.resolve _ _
  have hkept : machine.KeepsIo found.2 := resolve_keepsIo _ _ machine (.refl machine)
  obtain ⟨operand, fetched, hread, hoperand, hfetched⟩ :=
    readOperand_inspects hsound.toRemembersHeld found.1.1 (cruWidth count)
  let st := Status.result fetched.cpu.st operand (cruWidth count)
  let moved := { found.2 with cpu.st := st }
  have hflagged : moved.Inspected { fetched with cpu.st := st } := by
    refine ⟨?_, hfetched.onlyRead⟩
    rw [hfetched.cpu_eq]
  obtain ⟨base, started, hbase, hnumber, hstarted⟩ := cruBase_inspects hflagged
  have hmoved : found.2.KeepsIo moved := ⟨rfl, rfl, rfl, rfl, rfl⟩
  refine ⟨operand, base, started, hoperand, hnumber,
    (hkept.trans hmoved).trans hstarted.keepsIo, ?_, ?_⟩
  · rw [hstarted.cpu_eq]
    exact hsound.consistent.hasLatchLines
  · have hfound : resolve (.source opcode) (cruWidth (cruCount opcode)) machine =
        ((found.1.1, found.1.2), found.2) := rfl
    have hst : modifySt (Status.result · operand (cruWidth (cruCount opcode))) fetched =
        ((), { fetched with cpu.st := st }) := rfl
    rw [ldcr, bind_of_eq hfound]
    dsimp only
    rw [bind_of_eq hread, bind_of_eq hst, bind_of_eq hbase]
    rfl

theorem stcr_spec (h : machine.IsSound variant) (opcode : UInt16) :
    let count := cruCount opcode
    let found := resolve (.source opcode) (cruWidth count) machine
    ∃ value started, (∀ i : Nat, value.toNat.testBit i =
        (decide (i < count) && machine.ioBit (found.2.ioBase + i))) ∧
      started.RemembersHeld ∧ started.contents = found.2.contents ∧
      started.cpu.config = found.2.cpu.config ∧ machine.KeepsIo started ∧
      (stcr opcode machine).2 = (writeOperand found.1.1 (cruWidth count) value started).2 := by
  intro count found
  have hsound : found.2.IsSound variant := h.resolve _ _
  have hkept : machine.KeepsIo found.2 := resolve_keepsIo _ _ machine (.refl machine)
  obtain ⟨base, based, hbase, hnumber, hbased⟩ := cruBase_inspects (.refl found.2)
  have hbasedHeld : based.RemembersHeld := by
    have hheld := corresponds_self_iff.mp remembersHeld_simulation.cruBase found.2
      hsound.toRemembersHeld
    rwa [hbase] at hheld
  have hcount : 0 + count ≤ 16 := by
    rw [Nat.zero_add]
    exact cruCount_le opcode
  have hfirst : 0 < count → (1 : UInt16).toNat = 2 ^ 0 := fun _ => rfl
  have hplace : (base.toNat : Int) % 0x1000 = (found.2.ioBase : Int) % 0x1000 := by rw [hnumber]
  obtain ⟨value, read, hread, hinspected, hbits⟩ :=
    readBits_inspects hcount hfirst hplace hbased
  have hreadHeld : read.RemembersHeld := by
    have hheld := corresponds_self_iff.mp (remembersHeld_simulation.readBits count base 1) based
      hbasedHeld
    rwa [hread] at hheld
  let started :=
    { read with cpu.st := Status.result read.cpu.st value (cruWidth count) }
  have hkeeps : read.KeepsIo started := ⟨rfl, rfl, rfl, rfl, rfl⟩
  refine ⟨value, started, fun i => ?_, hreadHeld.withCpu rfl rfl rfl,
    hinspected.undisturbed.contents_eq, hinspected.keepsIo.config_eq,
    (hkept.trans hinspected.keepsIo).trans hkeeps, ?_⟩
  · rw [hbits, hkept.ioBit_eq]
    simp
  · have hfound : resolve (.source opcode) (cruWidth (cruCount opcode)) machine =
        ((found.1.1, found.1.2), found.2) := rfl
    have hst : modifySt (Status.result · value (cruWidth (cruCount opcode))) read =
        ((), started) := rfl
    rw [stcr, bind_of_eq hfound]
    dsimp only
    rw [bind_of_eq hbase, bind_of_eq hread, bind_of_eq hst]
    rfl

theorem cruBit_number (base opcode : UInt16) :
    ((base + Word.signExtend (Word.low opcode)).toNat : Int) % 0x1000 =
      (base.toNat + Width.byte.signed opcode) % 0x1000 := by
  have hdisplacement := Word.toNat_signExtend_low opcode
  rw [UInt16.toNat_add]
  simp only [Nat.reducePow]
  omega

theorem ioBit_cruBit (h : machine.cpu.HasLatchLines) (opcode : UInt16) (value : Bool)
    (other : Int) :
    (cruBit opcode (if value then .sbo else .sbz) machine).2.ioBit other =
      if (machine.ioBase + Width.byte.signed opcode) % 0x1000 = other % 0x1000 then value
      else machine.ioBit other := by
  obtain ⟨base, next, hbase, hnumber, hinspected⟩ := cruBase_inspects (.refl machine)
  have hlines : next.cpu.HasLatchLines := hinspected.cpu_eq ▸ h
  have hplace := cruBit_number base opcode
  rw [hnumber] at hplace
  have hbits := (cruWrite_spec hplace hlines value).2 other
  rw [hinspected.keepsIo.ioBit_eq] at hbits
  rw [cruBit, bind_of_eq hbase, ← hbits]
  cases value with
  | false => rfl
  | true => rfl

theorem tb_spec (opcode : UInt16) (machine : Machine β) :
    (cruBit opcode .tb machine).2.ioBit = machine.ioBit ∧
      (cruBit opcode .tb machine).2.cpu.st = Word.withBit machine.cpu.st Status.equal
        (machine.ioBit (machine.ioBase + Width.byte.signed opcode)) := by
  obtain ⟨base, based, hbase, hnumber, hbased⟩ := cruBase_inspects (.refl machine)
  have hplace := cruBit_number base opcode
  rw [hnumber] at hplace
  obtain ⟨next, hread, hnext⟩ := cruRead_inspects hplace hbased
  rw [cruBit, bind_of_eq hbase]
  dsimp only
  rw [bind_of_eq hread]
  constructor
  · have hkept : next.KeepsIo (modifySt (Word.withBit · Status.equal (machine.ioBit
        (machine.ioBase + Width.byte.signed opcode))) next).2 := ⟨rfl, rfl, rfl, rfl, rfl⟩
    exact (hnext.keepsIo.trans hkept).ioBit_eq
  · rw [← hnext.cpu_eq]
    rfl

end Exec

namespace Machine

/-- A number has been put into a run of bits of the I/O space, the lowest bit first, and the others
are as they were. -/
structure PutsBits (machine next : Machine β) (base count value : Nat) : Prop where
  put : ∀ i < count, next.ioBit (base + i) = value.testBit i
  kept : ∀ number : Int, (∀ i < count, number % 0x1000 ≠ (base + i) % 0x1000) →
    next.ioBit number = machine.ioBit number
  ascending : ∃ (started : Machine β) (place : UInt16), machine.KeepsIo started ∧
    place.toNat = base ∧ next = (List.range count).foldl
      (fun written i => (Exec.cruWrite (place + UInt16.ofNat i) (value.testBit i) written).2)
      started

/-- A run of bits of the I/O space has been stored as a number, and nothing else in memory has
changed. -/
structure StoresBits (machine next : Machine β) (address : UInt16) (width : Width)
    (base count : Nat) : Prop where
  stored : ∀ i : Nat, (next.heldOperand address width).testBit i =
    (decide (i < count) && machine.ioBit (base + i))
  kept : ∀ {cell : Cell}, cell.IsPlain → cell ∉ machine.cpu.operandCells address width →
    next.contents cell = machine.contents cell
  ioBit_eq : next.ioBit = machine.ioBit

theorem putsBits_ldcr (h : machine.IsSound variant) (opcode : UInt16) :
    let found := Exec.resolve (.source opcode) (cruWidth (cruCount opcode)) machine
    machine.PutsBits (Exec.ldcr opcode machine).2 found.2.ioBase (cruCount opcode)
      (found.2.heldOperand found.1.1 (cruWidth (cruCount opcode))) := by
  intro found
  obtain ⟨operand, place, started, hoperand, hplace, hkept, hlines, hldcr⟩ :=
    Exec.ldcr_spec h opcode
  have hcount : cruCount opcode ≤ 0x1000 := Nat.le_trans (cruCount_le opcode) (by decide)
  have hnumber : (place.toNat : Int) % 0x1000 = (found.2.ioBase : Int) % 0x1000 := by rw [hplace]
  obtain ⟨hput, hothers⟩ := Exec.writeBits_spec hcount hlines hnumber operand
  rw [← hoperand, hldcr]
  refine ⟨hput, fun number hnot => ?_, started, place, hkept, hplace, ?_⟩
  · rw [hothers number hnot, hkept.ioBit_eq]
  · exact Exec.writeBits_eq_foldl _ operand place started

theorem storesBits_stcr (h : machine.IsSound variant) (opcode : UInt16) :
    let found := Exec.resolve (.source opcode) (cruWidth (cruCount opcode)) machine
    found.2.StoresBits (Exec.stcr opcode machine).2 found.1.1 (cruWidth (cruCount opcode))
      found.2.ioBase (cruCount opcode) := by
  intro found
  obtain ⟨value, started, hbits, hheld, hcontents, hconfig, hkept, hstcr⟩ :=
    Exec.stcr_spec h opcode
  have hresolved : machine.KeepsIo found.2 := Exec.resolve_keepsIo _ _ machine (.refl machine)
  have hcount : cruCount opcode ≤ (cruWidth (cruCount opcode)).bits := by
    rw [cruWidth]
    split
    · assumption
    · exact cruCount_le opcode
  have hvalue : value.toNat < 2 ^ (cruWidth (cruCount opcode)).bits := by
    refine Nat.lt_pow_two_of_testBit _ fun i hi => ?_
    rw [hbits, decide_eq_false (by omega), Bool.false_and]
  obtain ⟨hstored, hothers⟩ := Exec.writeOperand_spec hheld found.1.1 hvalue
  rw [Cpu.operandCells_congr hconfig, hcontents] at hothers
  rw [hstcr]
  refine ⟨fun i => ?_, hothers, ?_⟩
  · rw [hstored, hbits, hresolved.ioBit_eq]
  · rw [hresolved.ioBit_eq]
    exact (Exec.writeOperand_keepsIo _ _ value started hkept).ioBit_eq

omit [RamBus β] in
theorem internalBit?_of_isOnChipBit (honChip : machine.cpu.config.onChip = true) {number : Int}
    (h : IsOnChipBit (number % 0x1000).toNat) :
    machine.cpu.internalBit? (ioNumber number) = some (machine.ioBit number) := by
  have hnumber : (ioNumber number).toNat = (number % 0x1000).toNat :=
    Int.ofNat_inj.mp ((toNat_ioNumber number).trans (Int.toNat_of_nonneg (by omega)).symm)
  have hsome : machine.cpu.internalBit? (ioNumber number) ≠ none := by
    rw [ne_eq, Cpu.internalBit?_eq_none_iff, hnumber]
    exact fun hnot => hnot honChip h
  obtain ⟨value, hvalue⟩ := Option.ne_none_iff_exists'.mp hsome
  rw [ioBit, hvalue]
  rfl

end Machine

/-- Before a transfer of 16 bits from bit F6E on, of which the chip keeps the last 14. -/
def Machine.beforeTransfer : Machine FlatBus :=
  let registers := (Memory.zero.pokeWord 0x0100 0xBEEF).pokeWord 0x0118 0x1EDC
  let new : Machine FlatBus := ⟨.ofConfig Variant.tms9995.config, { memory := registers }⟩
  { new with cpu := ((new.cpu.setWp 0x0100).setPc 0x0200).setSt 0 }

theorem Machine.beforeTransfer_reachable : beforeTransfer.Reachable Variant.tms9995.config := by
  let new : Machine FlatBus := ⟨.ofConfig Variant.tms9995.config, beforeTransfer.bus⟩
  have hnew : new.Reachable Variant.tms9995.config := .create
  exact hnew.place 0x0100 0x0200 0

end TmsCores.Tms9900
