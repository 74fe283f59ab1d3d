import Mathlib.Data.Nat.Bitwise
import TmsCores.Proofs.Bus.Waits
import TmsCores.Proofs.Tms9900.ContextSwitch

namespace TmsCores.Tms9900

instance : DecidablePred IsOnChipAddress :=
  fun _ => inferInstanceAs (Decidable (_ ∨ _))

/-- An access to memory, with the address that the program gives and the data that it moves. -/
inductive Access
  /-- Reads a word of the program. -/
  | fetch (address word : UInt16)
  | readWord (address word : UInt16)
  | writeWord (address word : UInt16)
  | readByte (address : UInt16) (byte : UInt8)
  | writeByte (address : UInt16) (byte : UInt8)
  deriving DecidableEq

namespace Access

def address : Access → UInt16
  | .fetch address _ | .readWord address _ | .writeWord address _ | .readByte address _
  | .writeByte address _ => address

def isFetch : Access → Bool
  | .fetch _ _ => true
  | _ => false

def fetches (accesses : List Access) : Nat :=
  accesses.countP isFetch

/-- An access as it is on a bus that never makes a processor wait.  A word takes two calls, and the
byte at the even address comes first. -/
def transfers (config : Config) : Access → List BusEvent
  | .fetch address word | .readWord address word =>
      [.read (config.busAddress (Word.even address)) ⟨Word.high word, 0⟩,
        .read (config.busAddress (Word.even address ||| 1)) ⟨Word.low word, 0⟩]
  | .writeWord address word =>
      [.write (config.busAddress (Word.even address)) (Word.high word) 0,
        .write (config.busAddress (Word.even address ||| 1)) (Word.low word) 0]
  | .readByte address byte => [.read (config.busAddress address) ⟨byte, 0⟩]
  | .writeByte address byte => [.write (config.busAddress address) byte 0]

/-- The calls of the bus that an access makes, which are none for what lies on the chip. -/
def calls (config : Config) (access : Access) : List BusEvent :=
  if config.onChip = true ∧ IsOnChipAddress access.address.toNat then []
  else access.transfers config

theorem fetches_append (accesses more : List Access) :
    fetches (accesses ++ more) = fetches accesses + fetches more :=
  List.countP_append

end Access

/-- The accesses that lead to an operand, and its address, in an instruction whose next word is at
`pc`. -/
inductive Operand.Located (wp pc : UInt16) (width : Width) : Operand → List Access → UInt16 → Prop
  | register {number : UInt16} : Located wp pc width ⟨.register, number⟩ [] (wp + number * 2)
  | indirect {number address : UInt16} :
      Located wp pc width ⟨.indirect, number⟩ [.readWord (wp + number * 2) address] address
  | symbolic {address : UInt16} : Located wp pc width ⟨.indexed, 0⟩ [.fetch pc address] address
  | indexed {number base index : UInt16} (hnumber : number ≠ 0) :
      Located wp pc width ⟨.indexed, number⟩
        [.fetch pc base, .readWord (wp + number * 2) index] (base + index)
  | autoIncrement {number address : UInt16} :
      Located wp pc width ⟨.autoIncrement, number⟩
        [.readWord (wp + number * 2) address,
          .writeWord (wp + number * 2) (address + Operand.size width)] address

namespace DualOperation

/-- The four highest bits of an opcode with two general operands. -/
def code (operation : DualOperation) (width : Width) : Nat :=
  let lowest := match width with
    | .word => 0
    | .byte => 1
  match operation with
  | .szc => 0x4 + lowest
  | .s => 0x6 + lowest
  | .c => 0x8 + lowest
  | .a => 0xA + lowest
  | .mov => 0xC + lowest
  | .soc => 0xE + lowest

def result? (operation : DualOperation) (width : Width) (s d : UInt16) : Option UInt16 :=
  match operation with
  | .mov => some s
  | .szc => some (d &&& ~~~s)
  | .soc => some (d ||| s)
  | .a => some ((d + s) &&& width.mask)
  | .s => some ((d - s) &&& width.mask)
  | .c => none

theorem ofOpcode?_of_code {operation : DualOperation} {width : Width} {opcode : UInt16}
    (h : opcode.toNat / 0x1000 = operation.code width) (set : InstructionSet) :
    Instruction.ofOpcode? set opcode = some (.dual operation width) := by
  have hcode : 4 ≤ operation.code width := by
    cases operation <;> simp only [code] <;> omega
  have hlarge : (0x4000 : UInt16) ≤ opcode := by
    rw [UInt16.le_iff_toNat_le]
    simp only [UInt16.reduceToNat]
    omega
  have hhighest : (opcode >>> 13).toNat = operation.code width / 2 := by
    rw [UInt16.toNat_shiftRight, ← h]
    simp only [UInt16.reduceToNat, Nat.reduceMod, Nat.shiftRight_eq_div_pow, Nat.reducePow]
    omega
  have hwidth : opcode &&& 0x1000 = 0 ↔ operation.code width % 2 = 0 := by
    rw [← UInt16.toNat_inj, UInt16.toNat_and, ← h]
    have hbit := Nat.and_two_pow opcode.toNat 12
    rw [Nat.testBit_eq_decide_div_mod_eq] at hbit
    simp only [Nat.reducePow, UInt16.reduceToNat] at hbit ⊢
    rw [hbit]
    by_cases hset : opcode.toNat / 4096 % 2 = 1
    · simp [hset]
    · simp [hset]
      omega
  rw [Instruction.ofOpcode?, if_pos hlarge, Instruction.dualOfOpcode, hhighest]
  simp only [hwidth]
  cases operation <;> cases width <;> rfl

end DualOperation

namespace Variant

/-- A byte operand is moved alone, and not within its word. -/
def movesBytes : Variant → Bool
  | .tms9900 => false
  | .tms9980A | .tms9995 => true

/-- An operation reads its destination before it stores anything there.  MOV and MOVB do it
without need. -/
def readsDestination : Variant → DualOperation → Bool
  | .tms9995, .mov => false
  | _, _ => true

def reading (variant : Variant) (address contents : UInt16) : Width → Access
  | .word => .readWord address contents
  | .byte =>
      if variant.movesBytes then .readByte address (Word.low contents)
      else .readWord address contents

def operand (variant : Variant) (address contents : UInt16) : Width → UInt16
  | .word => contents
  | .byte =>
      if variant.movesBytes then (Word.low contents).toUInt16
      else (Exec.selectByte address contents).toUInt16

def writing (variant : Variant) (address contents value : UInt16) : Width → Access
  | .word => .writeWord address value
  | .byte =>
      if variant.movesBytes then .writeByte address (Word.low value)
      else .writeWord address (Exec.replaceByte address contents (Word.low value))

/-- The accesses of an instruction with two general operands, once its opcode has been fetched and
the next word of the program is at `pc`. -/
inductive DualAccesses (variant : Variant) (opcode : UInt16) (operation : DualOperation)
    (width : Width) (wp pc : UInt16) : List Access → Prop
  | of {toSource toDestination : List Access} {source destination s d : UInt16}
      (hsource : (Operand.source opcode).Located wp pc width toSource source)
      (hdestination : (Operand.destination opcode).Located wp
        (pc + 2 * UInt16.ofNat (Access.fetches toSource)) width toDestination destination) :
      DualAccesses variant opcode operation width wp pc
        (toSource ++ [variant.reading source s width] ++ toDestination ++
          (if variant.readsDestination operation then [variant.reading destination d width]
            else []) ++
          ((operation.result? width (variant.operand source s width)
            (variant.operand destination d width)).map
              (variant.writing destination d · width)).toList)

theorem fetches_reading (variant : Variant) (address contents : UInt16) (width : Width) :
    Access.fetches [variant.reading address contents width] = 0 := by
  cases variant <;> cases width <;> rfl

end Variant

variable {β : Type} [Bus β]

/-- Some accesses lead from one state to another: the bus is called for them and for nothing else,
one after the other, and the program counter moves past each word that is fetched. -/
structure Machine.Performs (machine : Machine (RecordedBus β)) (accesses : List Access)
    (next : Machine (RecordedBus β)) : Prop where
  config_eq : next.cpu.config = machine.cpu.config
  wp_eq : next.cpu.wp = machine.cpu.wp
  pc_eq : next.cpu.pc = machine.cpu.pc + 2 * UInt16.ofNat (Access.fetches accesses)
  called : ∃ calls, machine.bus.Called next.bus calls ∧
    calls.map BusEvent.unwaited = accesses.flatMap (Access.calls machine.cpu.config)

namespace Machine.Performs

variable {machine next last : Machine (RecordedBus β)} {accesses more : List Access}

omit [Bus β] in
theorem trans (h : machine.Performs accesses next) (hmore : next.Performs more last) :
    machine.Performs (accesses ++ more) last where
  config_eq := hmore.config_eq.trans h.config_eq
  wp_eq := hmore.wp_eq.trans h.wp_eq
  pc_eq := by
    rw [hmore.pc_eq, h.pc_eq, Access.fetches_append, UInt16.ofNat_add, UInt16.mul_add,
      UInt16.add_assoc]
  called := by
    obtain ⟨calls, hcalled, hcalls⟩ := h.called
    obtain ⟨others, hothers, hmap⟩ := hmore.called
    refine ⟨calls ++ others, hcalled.trans hothers, ?_⟩
    rw [List.map_append, List.flatMap_append, hcalls, hmap, h.config_eq]

omit [Bus β] in
theorem of_bus_eq (hbus : next.bus = machine.bus) (hconfig : next.cpu.config = machine.cpu.config)
    (hwp : next.cpu.wp = machine.cpu.wp) (hpc : next.cpu.pc = machine.cpu.pc) :
    machine.Performs [] next where
  config_eq := hconfig
  wp_eq := hwp
  pc_eq := hpc.trans (UInt16.add_zero _).symm
  called := ⟨[], hbus ▸ machine.bus.called_refl, rfl⟩

omit [Bus β] in
/-- An access that is not part of the program leaves all but the devices of the chip alone. -/
theorem of_access {access : Access} (hdata : access.isFetch = false)
    (hcore : next.cpu.core = machine.cpu.core)
    (honChip : machine.cpu.config.onChip = true → IsOnChipAddress access.address.toNat →
      next.bus = machine.bus)
    (hexternal : machine.cpu.region access.address = .external →
      ∃ calls, machine.bus.Called next.bus calls ∧
        calls.map BusEvent.unwaited = access.transfers machine.cpu.config) :
    machine.Performs [access] next where
  config_eq := Cpu.eq_of_core (·.config) (fun _ => rfl) hcore
  wp_eq := Cpu.eq_of_core (·.wp) (fun _ => rfl) hcore
  pc_eq := by
    rw [Access.fetches, List.countP_singleton, hdata]
    exact (Cpu.eq_of_core (·.pc) (fun _ => rfl) hcore).trans (UInt16.add_zero _).symm
  called := by
    rw [List.flatMap_singleton, Access.calls]
    split
    · next h => exact ⟨[], honChip h.1 h.2 ▸ machine.bus.called_refl, rfl⟩
    · next h => exact hexternal (Cpu.region_eq_external_iff.mpr (not_and.mp h))

end Machine.Performs

namespace Exec

variable {machine : Machine (RecordedBus β)} {variant : Variant}

theorem readWord_performs (address : UInt16) (machine : Machine (RecordedBus β)) :
    machine.Performs [.readWord address (readWord address machine).1]
      (readWord address machine).2 := by
  refine .of_access rfl (congrArg Cpu.core (cpu_readWord address machine)) ?_ ?_
  · exact fun honChip haddress => ((Machine.answersOnChip honChip).readWord haddress).1
  · intro (hexternal : machine.cpu.region address = .external)
    obtain ⟨hi, lo, hcalled, hword⟩ := Machine.readWord_called (Cpu.region_even hexternal)
    refine ⟨_, hcalled, ?_⟩
    rw [hword, Access.transfers, Word.high_ofBytes, Word.low_ofBytes]
    rfl

theorem writeWord_performs (address value : UInt16) (machine : Machine (RecordedBus β)) :
    machine.Performs [.writeWord address value] (writeWord address value machine).2 := by
  refine .of_access rfl (core_writeWord address value) ?_ ?_
  · exact fun honChip haddress => ((Machine.answersOnChip honChip).writeWord haddress value).1
  · intro (hexternal : machine.cpu.region address = .external)
    obtain ⟨first, second, hcalled⟩ := Machine.writeWord_called (Cpu.region_even hexternal) value
    exact ⟨_, hcalled, rfl⟩

theorem fetch_performs (machine : Machine (RecordedBus β)) :
    machine.Performs [.fetch machine.cpu.pc (fetch machine).1] (fetch machine).2 where
  config_eq := congrArg (·.config) (cpu_fetch machine)
  wp_eq := congrArg (·.wp) (cpu_fetch machine)
  pc_eq := congrArg (·.pc) (cpu_fetch machine)
  called := (readWord_performs machine.cpu.pc machine).called

theorem operandAddress_performs (operand : Operand) (width : Width)
    (machine : Machine (RecordedBus β)) : ∃ accesses address next,
    operandAddress operand width machine = (address, next) ∧
    operand.Located machine.cpu.wp machine.cpu.pc width accesses address ∧
    machine.Performs accesses next := by
  obtain ⟨mode, number⟩ := operand
  cases mode with
  | register => exact ⟨[], _, machine, rfl, .register, .of_bus_eq rfl rfl rfl rfl⟩
  | indirect => exact ⟨_, _, _, rfl, .indirect, readWord_performs _ machine⟩
  | indexed =>
      have hfetch := fetch_performs machine
      have hword : fetch machine = ((fetch machine).1, (fetch machine).2) := rfl
      rw [operandAddress]
      dsimp only
      rw [bind_of_eq hword]
      by_cases hnumber : number = 0
      · subst hnumber
        exact ⟨_, _, _, rfl, .symbolic, hfetch⟩
      · rw [if_neg hnumber]
        refine ⟨_, _, _, rfl, .indexed hnumber, hfetch.trans ?_⟩
        rw [← hfetch.wp_eq]
        exact readWord_performs ((fetch machine).2.cpu.registerAddress number) _
  | autoIncrement =>
      have hread := readWord_performs (machine.cpu.registerAddress number) machine
      refine ⟨_, _, _, rfl, .autoIncrement, hread.trans ?_⟩
      rw [← hread.wp_eq]
      exact writeWord_performs _ _ _

theorem resolve_performs (operand : Operand) (width : Width)
    (machine : Machine (RecordedBus β)) : ∃ accesses address cycles next,
    resolve operand width machine = ((address, cycles), next) ∧
    operand.Located machine.cpu.wp machine.cpu.pc width accesses address ∧
    machine.Performs accesses next := by
  obtain ⟨accesses, address, next, haddress, hlocated, hperforms⟩ :=
    operandAddress_performs operand width machine
  have hresolve : resolve operand width machine =
      ((address, ((machine.cpu.timing.mode width).of operand.mode).toNat), next) := by
    rw [resolve, cpu_bind, bind_of_eq haddress]
    rfl
  exact ⟨accesses, address, _, next, hresolve, hlocated, hperforms⟩

theorem readByte_performs (h : machine.cpu.config.dataBus = .byte) (address : UInt16) :
    machine.Performs [.readByte address (readByte address machine).1]
      (readByte address machine).2 := by
  have hcore : (readByte address machine).2.cpu.core = machine.cpu.core := by
    rw [readByte, cpu_bind, h]
    cases machine.cpu.region address <;> rfl
  refine .of_access rfl hcore ?_ ?_
  · exact fun honChip haddress => ((Machine.answersOnChip honChip).readByte haddress).1
  · intro (hexternal : machine.cpu.region address = .external)
    have hread : readByte address machine = busRead address machine := by
      rw [readByte, cpu_bind, hexternal]
      dsimp only
      rw [h]
    obtain ⟨reading, hcalled, hbyte⟩ := Machine.busRead_called address machine
    rw [hread, hbyte]
    exact ⟨_, hcalled, rfl⟩

theorem writeByte_performs (h : machine.cpu.config.dataBus = .byte) (address : UInt16)
    (value : UInt8) :
    machine.Performs [.writeByte address value] (writeByte address value machine).2 := by
  have hcore : (writeByte address value machine).2.cpu.core = machine.cpu.core := by
    rw [writeByte, cpu_bind, h]
    cases machine.cpu.region address <;> rfl
  refine .of_access rfl hcore ?_ ?_
  · exact fun honChip haddress => ((Machine.answersOnChip honChip).writeByte haddress value).1
  · intro (hexternal : machine.cpu.region address = .external)
    have hwrite : writeByte address value machine = busWrite address value machine := by
      rw [writeByte, cpu_bind, hexternal]
      dsimp only
      rw [h]
    obtain ⟨wait, hcalled⟩ := Machine.busWrite_called address value machine
    rw [hwrite]
    exact ⟨_, hcalled, rfl⟩

theorem readByte_of_word (hbus : machine.cpu.config.dataBus = .word)
    (honChip : machine.cpu.config.onChip = false) (address : UInt16) :
    readByte address machine = (selectByte address (readWord address machine).1,
      { (readWord address machine).2 with
        operandWord := some (Word.even address, (readWord address machine).1) }) := by
  have hexternal := Cpu.region_of_offChip honChip address
  rw [readByte, cpu_bind, hexternal]
  dsimp only
  rw [hbus]
  rfl

/-- Writing a byte of the word remembered takes no further read. -/
theorem writeByte_of_remembered (hbus : machine.cpu.config.dataBus = .word)
    (honChip : machine.cpu.config.onChip = false) {address word : UInt16}
    (hremembered : machine.operandWord = some (Word.even address, word)) (value : UInt8) :
    writeByte address value machine =
      writeWord address (replaceByte address word value) machine := by
  have hexternal := Cpu.region_of_offChip honChip address
  have hrecall : recallWord (Word.even address) machine = (word, machine) := by
    rw [recallWord, get_bind, hremembered]
    dsimp only
    rw [if_pos rfl]
    rfl
  rw [writeByte, cpu_bind, hexternal]
  dsimp only
  rw [hbus]
  dsimp only
  rw [bind_of_eq hrecall, writeWord, writeWord, Word.even_even]

/-- What a byte operand has been read from is remembered, if bytes are not moved alone. -/
def Remembers (variant : Variant) (address contents : UInt16) (width : Width)
    (machine : Machine β) : Prop :=
  variant.movesBytes = false → width = .byte →
    machine.operandWord = some (Word.even address, contents)

theorem readOperand_performs (h : machine.cpu.config = variant.config) (address : UInt16)
    (width : Width) : ∃ contents next,
    readOperand address width machine = (variant.operand address contents width, next) ∧
    machine.Performs [variant.reading address contents width] next ∧
    Remembers variant address contents width next := by
  have hword := readWord_performs address machine
  cases width with
  | word => exact ⟨_, _, rfl, hword, nofun⟩
  | byte =>
      have hvalue : readOperand address .byte machine =
          ((readByte address machine).1.toUInt16, (readByte address machine).2) := rfl
      have hlow : Word.low (readByte address machine).1.toUInt16 = (readByte address machine).1 :=
        UInt8.toUInt8_toUInt16 _
      rw [hvalue]
      cases variant with
      | tms9900 =>
          rw [readByte_of_word (congrArg (·.dataBus) h) (congrArg (·.onChip) h)]
          exact ⟨_, _, rfl, hword.trans (.of_bus_eq rfl rfl rfl rfl), fun _ _ => rfl⟩
      | tms9980A | tms9995 =>
          have hbyte := readByte_performs (congrArg (·.dataBus) h) address
          rw [← hlow] at hbyte
          exact ⟨_, _, congrArg (·.toUInt16, _) hlow.symm, hbyte, nofun⟩

theorem writeOperand_performs (h : machine.cpu.config = variant.config)
    {address contents : UInt16} {width : Width}
    (hremembers : Remembers variant address contents width machine) (value : UInt16) :
    machine.Performs [variant.writing address contents value width]
      (writeOperand address width value machine).2 := by
  cases width with
  | word => exact writeWord_performs address value machine
  | byte =>
      cases variant with
      | tms9900 =>
          have hwrite := writeByte_of_remembered (congrArg (·.dataBus) h) (congrArg (·.onChip) h)
            (hremembers rfl rfl) (Word.low value)
          rw [writeOperand, hwrite]
          exact writeWord_performs address _ machine
      | tms9980A | tms9995 =>
          exact writeByte_performs (congrArg (·.dataBus) h) address (Word.low value)

omit [Bus β] in
theorem setArithmetic_performs (result : UInt16) (flags : FlagSet) (width : Width)
    (machine : Machine (RecordedBus β)) : ∃ next,
    setArithmetic result flags width machine = ((), next) ∧ machine.Performs [] next ∧
    next.operandWord = machine.operandWord := by
  let flagged := (modifySt (Status.arithmetic · result flags width) machine).2
  refine ⟨if flags.overflow then { flagged with cpu := flagged.cpu.overflowTrap } else flagged,
    ?_, ?_⟩
  · have hflagged : modifySt (Status.arithmetic · result flags width) machine = ((), flagged) := rfl
    rw [setArithmetic, bind_of_eq hflagged]
    split <;> rfl
  · split
    · have htrap := flagged.cpu.core_overflowTrap
      have hconfig : flagged.cpu.overflowTrap.config = flagged.cpu.config :=
        Cpu.eq_of_core (·.config) (fun _ => rfl) htrap
      have hwp : flagged.cpu.overflowTrap.wp = flagged.cpu.wp :=
        Cpu.eq_of_core (·.wp) (fun _ => rfl) htrap
      have hpc : flagged.cpu.overflowTrap.pc = flagged.cpu.pc :=
        Cpu.eq_of_core (·.pc) (fun _ => rfl) htrap
      exact ⟨.of_bus_eq rfl hconfig hwp hpc, rfl⟩
    · exact ⟨.of_bus_eq rfl rfl rfl rfl, rfl⟩

omit [Bus β] in
theorem combine_performs (operation : DualOperation) (width : Width) (s d : UInt16)
    (machine : Machine (RecordedBus β)) : ∃ next,
    combine operation width s d machine = (operation.result? width s d, next) ∧
    machine.Performs [] next ∧ next.operandWord = machine.operandWord := by
  cases operation with
  | mov | szc | soc | c => exact ⟨_, rfl, .of_bus_eq rfl rfl rfl rfl, rfl⟩
  | a =>
      obtain ⟨next, hset, hnext⟩ := setArithmetic_performs ((d + s) &&& width.mask)
        (.ofAdd d s ((d + s) &&& width.mask) width) width machine
      refine ⟨next, ?_, hnext⟩
      rw [combine, bind_of_eq hset]
      rfl
  | s =>
      obtain ⟨next, hset, hnext⟩ := setArithmetic_performs ((d - s) &&& width.mask)
        (.ofSub d s ((d - s) &&& width.mask) width) width machine
      refine ⟨next, ?_, hnext⟩
      rw [combine, bind_of_eq hset]
      rfl

theorem readDestination_performs (h : machine.cpu.config = variant.config)
    (operation : DualOperation) (address : UInt16) (width : Width) : ∃ contents d next,
    readDestination operation address width machine = (d, next) ∧
    machine.Performs (if variant.readsDestination operation then
      [variant.reading address contents width] else []) next ∧
    (∀ s, operation.result? width s d =
      operation.result? width s (variant.operand address contents width)) ∧
    Remembers variant address contents width next := by
  obtain ⟨contents, next, hread, hperforms, hremembers⟩ := readOperand_performs h address width
  refine ⟨contents, ?_⟩
  by_cases hmov : operation = .mov
  · subst hmov
    have hdummy : dummyRead address width machine =
        ((), if variant.config.dummyDestinationRead then next else machine) := by
      rw [dummyRead, cpu_bind, h]
      split
      · rw [bind_of_eq hread]
        rfl
      · rfl
    rw [readDestination, if_pos rfl, bind_of_eq hdummy]
    cases variant with
    | tms9900 | tms9980A => exact ⟨0, next, rfl, hperforms, fun _ => rfl, hremembers⟩
    | tms9995 => exact ⟨0, machine, rfl, .of_bus_eq rfl rfl rfl rfl, fun _ => rfl, nofun⟩
  · have hreads : variant.readsDestination operation = true := by
      cases variant <;> cases operation <;> first | rfl | exact absurd rfl hmov
    rw [readDestination, if_neg hmov, if_pos hreads]
    exact ⟨_, next, hread, hperforms, fun _ => rfl, hremembers⟩

/-- An instruction with two general operands makes the accesses that its operands and its operation
call for, in their order. -/
theorem dual_performs (h : machine.cpu.config = variant.config) (opcode : UInt16)
    (operation : DualOperation) (width : Width) : ∃ accesses,
    variant.DualAccesses opcode operation width machine.cpu.wp machine.cpu.pc accesses ∧
    machine.Performs accesses (dual opcode operation width machine).2 := by
  -- Each step is taken from the machine that the step before it leaves.
  obtain ⟨toSource, source, sourceCycles, sourced, hsource, hsourceAt, htoSource⟩ :=
    resolve_performs (.source opcode) width machine
  obtain ⟨s, read, hread, hreading, -⟩ :=
    readOperand_performs (htoSource.config_eq.trans h) source width
  have hupToRead := htoSource.trans hreading
  obtain ⟨toDestination, destination, cycles, destined, hdestination, hdestinationAt,
    htoDestination⟩ := resolve_performs (.destination opcode) width read
  have hupToDestination := hupToRead.trans htoDestination
  obtain ⟨d, old, held, hheld, hholding, hresult, hremembers⟩ :=
    readDestination_performs (hupToDestination.config_eq.trans h) operation destination width
  obtain ⟨combined, hcombine, hcombined, hkept⟩ :=
    combine_performs operation width (variant.operand source s width) old held
  have hupToCombined := (hupToDestination.trans hholding).trans hcombined
  rw [List.append_nil] at hupToCombined
  refine ⟨_, .of (s := s) (d := d) hsourceAt ?_, hupToCombined.trans ?_⟩
  · have hpc := hupToRead.pc_eq
    rw [Access.fetches_append, variant.fetches_reading, Nat.add_zero] at hpc
    rw [← hpc, ← hupToRead.wp_eq]
    exact hdestinationAt
  · -- Setting the status does not make a 16-bit bus forget the word around the destination.
    have hlatched : Remembers variant destination d width combined :=
      fun halone hbyte => hkept.trans (hremembers halone hbyte)
    rw [hresult] at hcombine
    rw [dual, bind_of_eq hsource]
    dsimp only
    rw [bind_of_eq hread, bind_of_eq hdestination]
    dsimp only
    rw [bind_of_eq hheld, bind_of_eq hcombine]
    cases operation.result? width (variant.operand source s width)
        (variant.operand destination d width) with
    | none => exact .of_bus_eq rfl rfl rfl rfl
    | some value => exact writeOperand_performs (hupToCombined.config_eq.trans h) hlatched value

end Exec

/-- An instruction with two general operands fetches its opcode, finds and reads its source, finds
its destination, reads it, and writes there what it stores.  It makes no other access, and until the
iteration ends only ticks follow. -/
theorem dual_accesses_exact (variant : Variant) {machine : Machine (RecordedBus β)}
    (h : machine.Reachable variant.config) (hawake : machine.checked.cpu.idle = false)
    {operation : DualOperation} {width : Width}
    (hopcode : (Exec.fetch machine.checked).1.toNat / 0x1000 = operation.code width) :
    let start := machine.checked
    let opcode := (Exec.fetch start).1
    ∃ accesses,
      variant.DualAccesses opcode operation width start.cpu.wp (start.cpu.pc + 2) accesses ∧
      start.Performs (.fetch start.cpu.pc opcode :: accesses) machine.worked ∧
      ∀ limit, (Exec.iterate limit machine).2.cpu.pc = machine.worked.cpu.pc ∧
        ∃ driven : List (Option (UInt8 × LineState)),
          machine.worked.bus.Called (Exec.iterate limit machine).2.bus (driven.map .tick) := by
  intro start opcode
  have hahead : start.ahead = some (.dual operation width) :=
    DualOperation.ofOpcode?_of_code hopcode _
  have hfound := Machine.found_of_ahead hahead nofun
  have hexecutes : machine.executes = some (.dual operation width) := by
    rw [Machine.executes_of_awake hawake, hfound]
  have hworked : machine.worked = (Exec.dual opcode operation width (Exec.fetch start).2).2 := by
    rw [Machine.worked_of_executes hexecutes nofun, hfound]
    rfl
  have hconfig : start.cpu.config = variant.config :=
    ((Cpu.isConsistent_hostStable variant.config).toServiceStable.checked h.isConsistent).config_eq
  have hfetch := Exec.fetch_performs start
  obtain ⟨accesses, haccesses, hperforms⟩ :=
    Exec.dual_performs (hfetch.config_eq.trans hconfig) opcode operation width
  have hpc : (Exec.fetch start).2.cpu.pc = start.cpu.pc + 2 := hfetch.pc_eq
  rw [hfetch.wp_eq, hpc] at haccesses
  refine ⟨accesses, haccesses, hworked ▸ hfetch.trans hperforms, fun limit => ⟨?_, ?_⟩⟩
  · exact Cpu.eq_of_still (·.pc) (fun _ => rfl) (machine.still_iterate limit)
  · obtain ⟨driven, -, hticks⟩ := machine.called_account limit
    exact ⟨driven, hticks⟩

/-- Before a byte at an odd address is moved to an even one. -/
def Machine.beforeMove : Machine (RecordedBus FlatBus) :=
  let program := (Memory.zero.pokeWord 0x0200 0xD8B1).pokeWord 0x0202 0x0002
  let registers := (program.pokeWord 0x0102 0x0301).pokeWord 0x0104 0x0400
  let memory := (registers.pokeWord 0x0300 0x1256).pokeWord 0x0402 0xAABB
  let new : Machine (RecordedBus FlatBus) :=
    ⟨.ofConfig Variant.tms9900.config, { inner := { memory := memory } }⟩
  { new with cpu := ((new.cpu.setWp 0x0100).setPc 0x0200).setSt 0 }

theorem Machine.beforeMove_reachable : beforeMove.Reachable Variant.tms9900.config := by
  let new : Machine (RecordedBus FlatBus) :=
    ⟨.ofConfig Variant.tms9900.config, beforeMove.bus⟩
  have hnew : new.Reachable Variant.tms9900.config := .create
  exact hnew.place 0x0100 0x0200 0

/-- The destination is read once, although only half of its word is replaced. -/
theorem dual_accesses_exact_of_movb :
    let machine := Machine.beforeMove
    let start := machine.checked
    machine.Reachable Variant.tms9900.config ∧ start.cpu.idle = false ∧
      (Exec.fetch start).1 = 0xD8B1 ∧ DualOperation.mov.code .byte = 0xD ∧
      ∃ accesses, Variant.tms9900.DualAccesses 0xD8B1 .mov .byte 0x0100 0x0202 accesses ∧
        (Access.fetch 0x0200 0xD8B1 :: accesses).flatMap (Access.calls Variant.tms9900.config) =
          [.read 0x0200 ⟨0xD8, 0⟩, .read 0x0201 ⟨0xB1, 0⟩,
            .read 0x0102 ⟨0x03, 0⟩, .read 0x0103 ⟨0x01, 0⟩,
            .write 0x0102 0x03 0, .write 0x0103 0x02 0,
            .read 0x0300 ⟨0x12, 0⟩, .read 0x0301 ⟨0x56, 0⟩,
            .read 0x0202 ⟨0x00, 0⟩, .read 0x0203 ⟨0x02, 0⟩,
            .read 0x0104 ⟨0x04, 0⟩, .read 0x0105 ⟨0x00, 0⟩,
            .read 0x0402 ⟨0xAA, 0⟩, .read 0x0403 ⟨0xBB, 0⟩,
            .write 0x0402 0x56 0, .write 0x0403 0xBB 0] := by
  intro machine start
  have hawake : start.cpu.idle = false := by decide +kernel
  have hopcode : (Exec.fetch start).1 = 0xD8B1 := by decide +kernel
  have hcode : (Exec.fetch start).1.toNat / 0x1000 = DualOperation.mov.code .byte := by
    rw [hopcode]
    decide
  obtain ⟨accesses, haccesses, hperforms, -⟩ :=
    dual_accesses_exact .tms9900 Machine.beforeMove_reachable hawake hcode
  have hplace : start.cpu.wp = 0x0100 ∧ start.cpu.pc = 0x0200 ∧
      start.cpu.config = Variant.tms9900.config := by
    decide +kernel
  have hcalled : start.bus.Called machine.worked.bus machine.worked.bus.events := by
    have hbefore : start.bus.events = [] := by decide +kernel
    rw [RecordedBus.Called, hbefore]
    rfl
  obtain ⟨calls, hcalls, htransfers⟩ := hperforms.called
  rw [hopcode, hplace.1, hplace.2.1] at haccesses
  rw [hopcode, hplace.2.1, hplace.2.2, ← hcalled.unique hcalls] at htransfers
  refine ⟨Machine.beforeMove_reachable, hawake, hopcode, rfl, accesses, haccesses, ?_⟩
  rw [← htransfers]
  decide +kernel

end TmsCores.Tms9900
