import TmsCores.Proofs.Tms9900.Confinement
import TmsCores.Proofs.Tms9900.WaitStates

namespace TmsCores

namespace Word

theorem toNat_nibble_le (w : UInt16) : (w &&& 0xF).toNat ≤ 15 := by
  rw [UInt16.toNat_and]
  exact Nat.and_le_right

theorem onesCount_le (width n : Nat) : onesCount width n ≤ width := by
  have hcount := List.countP_le_length (p := n.testBit) (l := List.range width)
  rwa [List.length_range] at hcount

end Word

namespace Tms9900

namespace Instruction

theorem baseCycles_le (set : InstructionSet) (instruction : Instruction) :
    (baseCycles set instruction).toNat ≤ 52 := by
  cases set with
  | tms9900 =>
      change (wideCycles instruction).toNat ≤ 52
      fun_cases wideCycles instruction <;> decide
  | tms9995 =>
      change (narrowCycles instruction).toNat ≤ 52
      fun_cases narrowCycles instruction <;> decide

theorem baseCycles_x_le (set : InstructionSet) : (baseCycles set .x).toNat ≤ 8 := by
  cases set <;> decide

end Instruction

theorem InstructionSet.mode_le (set : InstructionSet) (width : Width) (mode : AddressMode) :
    ((set.timing.mode width).of mode).toNat ≤ 8 := by
  cases set <;> cases width <;> cases mode <;> decide

/-- What the costs that the table of opcodes does not hold can come to. -/
structure Timing.Bounded (timing : Timing) : Prop where
  jumpTaken : timing.jumpTaken.toNat ≤ 2
  shiftPerBit : timing.shiftPerBit.toNat ≤ 2
  shiftFromR0 : timing.shiftFromR0.toNat ≤ 8
  cruPerBit : timing.cruPerBit.toNat ≤ 2
  absNegative : timing.absNegative.toNat ≤ 2
  divExtra : timing.divExtra.toNat ≤ 76
  divPerBit : timing.divPerBit.toNat ≤ 2
  interrupt : timing.interrupt.toNat ≤ 22

theorem InstructionSet.timing_bounded (set : InstructionSet) : set.timing.Bounded := by
  cases set <;> constructor <;> decide

theorem cruCount_le (opcode : UInt16) : cruCount opcode ≤ 16 := by
  have hfield : (registerField opcode).toNat ≤ 15 := Word.toNat_nibble_le _
  rw [cruCount]
  split
  · exact Nat.le_refl 16
  · omega

theorem stcrCycles_le (config : Config) {count : Nat} (hcount : count ≤ 16) :
    stcrCycles config count ≤ 18 := by
  rw [stcrCycles]
  cases config.instructionSet with
  | tms9900 =>
      dsimp only
      split
      · exact Nat.zero_le 18
      · split
        · decide
        · split <;> decide
  | tms9995 =>
      have hbits := Nat.mul_le_mul_left (InstructionSet.timing .tms9995).cruPerBit.toNat hcount
      exact Nat.le_trans hbits (by decide)

variable {α γ β : Type} {config : Config}

namespace Exec

/-- On processors made for a configuration, a computation moves no more than some bytes of memory
over the bus, and what it returns has a property. -/
def Takes (config : Config) (bytes : Nat) (Q : α → Prop) (x : Exec (RecordedBus β) α) : Prop :=
  ∀ machine, machine.cpu.config = config →
    (x machine).2.cpu.config = config ∧
      ∃ calls, machine.bus.Called (x machine).2.bus calls ∧
        BusEvent.transfers calls ≤ bytes ∧ Q (x machine).1

/-- A computation moves no more than some bytes of memory over the bus. -/
abbrev Moves (config : Config) (bytes : Nat) (x : Exec (RecordedBus β) α) : Prop :=
  Takes config bytes (fun _ => True) x

namespace Takes

variable {P : α → Prop} {Q : γ → Prop} {x y : Exec (RecordedBus β) α} {bytes rest : Nat}

theorem pure {value : α} (h : P value) :
    Takes config bytes P (Pure.pure value : Exec (RecordedBus β) α) :=
  fun machine hmachine =>
    ⟨hmachine, [], machine.bus.called_refl, Nat.zero_le bytes, h⟩

/-- The bytes of the first part are the last summand: a bound that is a numeral then tells what is
left for the rest. -/
theorem bind {f : α → Exec (RecordedBus β) γ} (hx : Takes config bytes P x)
    (hf : ∀ value, P value → Takes config rest Q (f value)) :
    Takes config (rest + bytes) Q (x >>= f) := by
  intro machine hmachine
  obtain ⟨hmiddle, calls, hcalled, hcalls, hvalue⟩ := hx machine hmachine
  obtain ⟨hlast, more, hmore, hmoreCalls, hresult⟩ :=
    hf (x machine).1 hvalue (x machine).2 hmiddle
  refine ⟨hlast, calls ++ more, hcalled.trans hmore, ?_, hresult⟩
  rw [BusEvent.transfers_append, Nat.add_comm]
  exact Nat.add_le_add hmoreCalls hcalls

theorem seq {f : Exec (RecordedBus β) γ} (hx : Takes config bytes P x)
    (hf : Takes config rest Q f) : Takes config (rest + bytes) Q (x >>= fun _ => f) :=
  hx.bind fun _ _ => hf

theorem map {f : α → γ} (hx : Takes config bytes P x) (hf : ∀ value, P value → Q (f value)) :
    Takes config bytes Q (x >>= fun value => Pure.pure (f value)) := by
  have hbind : Takes config (0 + bytes) Q (x >>= fun value => Pure.pure (f value)) :=
    hx.bind fun value hvalue => .pure (hf value hvalue)
  rw [Nat.zero_add] at hbind
  exact hbind

theorem weaken {P' : α → Prop} (h : Takes config bytes P x)
    (hP : ∀ value, P value → P' value) : Takes config (rest + bytes) P' x := by
  intro machine hmachine
  obtain ⟨hnext, calls, hcalled, hcalls, hvalue⟩ := h machine hmachine
  exact ⟨hnext, calls, hcalled, Nat.le_trans hcalls (Nat.le_add_left bytes rest), hP _ hvalue⟩

theorem within (h : Takes config bytes P x) : Takes config (rest + bytes) P x :=
  h.weaken fun _ hvalue => hvalue

theorem inspect {f : Cpu → Exec (RecordedBus β) α}
    (hf : ∀ cpu : Cpu, cpu.config = config → Takes config bytes P (f cpu)) :
    Takes config bytes P (cpu >>= f) :=
  fun machine hmachine => hf machine.cpu hmachine machine hmachine

theorem ite {c : Prop} [Decidable c] (hx : Takes config bytes P x)
    (hy : Takes config bytes P y) : Takes config bytes P (if c then x else y) := by
  split
  · exact hx
  · exact hy

theorem modifyCpu (change : Cpu → Cpu) (hchange : ∀ cpu : Cpu, (change cpu).config = cpu.config) :
    Moves config 0 (Exec.modifyCpu change : Exec (RecordedBus β) Unit) :=
  fun machine hmachine => ⟨(hchange machine.cpu).trans hmachine, [],
    machine.bus.called_refl, Nat.le_refl 0, trivial⟩

theorem modifySt (change : UInt16 → UInt16) :
    Moves config 0 (Exec.modifySt change : Exec (RecordedBus β) Unit) :=
  modifyCpu _ fun _ => rfl

theorem setOperandWord (operandWord : Option (UInt16 × UInt16)) :
    Moves config 0 (Exec.setOperandWord operandWord : Exec (RecordedBus β) Unit) :=
  fun machine hmachine => ⟨hmachine, [], machine.bus.called_refl, Nat.le_refl 0,
    trivial⟩

theorem expect (possible : Bool) :
    Moves config 0 (Exec.expect possible : Exec (RecordedBus β) Unit) :=
  fun machine hmachine => ⟨hmachine, [], machine.bus.called_refl, Nat.le_refl 0, trivial⟩

theorem require (found : Option α) (otherwise : α) :
    Moves config 0 (Exec.require found otherwise : Exec (RecordedBus β) α) :=
  (expect _).seq (.pure trivial)

theorem readRam (offset : Nat) :
    Moves config 0 (Exec.readRam offset : Exec (RecordedBus β) UInt8) :=
  .inspect fun _ _ => require _ _

theorem writeRam (offset : Nat) (value : UInt8) :
    Moves config 0 (Exec.writeRam offset value : Exec (RecordedBus β) Unit) :=
  .inspect fun _ _ => (require _ _).bind fun _ _ => modifyCpu _ fun _ => rfl

theorem setArithmetic (result : UInt16) (flags : FlagSet) (width : Width) :
    Moves config 0 (Exec.setArithmetic result flags width : Exec (RecordedBus β) Unit) := by
  refine (modifySt _).seq (.ite ?_ (.pure trivial))
  exact modifyCpu Cpu.overflowTrap Cpu.config_overflowTrap

theorem setOverflow : Moves config 0 (Exec.setOverflow : Exec (RecordedBus β) Unit) :=
  (modifySt _).seq (modifyCpu Cpu.overflowTrap Cpu.config_overflowTrap)

theorem combine (operation : DualOperation) (width : Width) (s d : UInt16) :
    Moves config 0 (Exec.combine operation width s d : Exec (RecordedBus β) (Option UInt16)) := by
  cases operation with
  | mov | szc | soc | c => exact (modifySt _).seq (.pure trivial)
  | a | s => exact (setArithmetic _ _ width).seq (.pure trivial)

end Takes

end Exec

namespace Exec.Takes

variable [Bus β]

theorem busRead (address : UInt16) :
    Moves config 1 (Exec.busRead address : Exec (RecordedBus β) UInt8) :=
  fun machine hmachine => ⟨hmachine, _, RecordedBus.events_cons _ _ machine.bus, Nat.le_refl 1,
    trivial⟩

theorem busWrite (address : UInt16) (value : UInt8) :
    Moves config 1 (Exec.busWrite address value : Exec (RecordedBus β) Unit) :=
  fun machine hmachine => ⟨hmachine, _, RecordedBus.events_cons _ _ machine.bus, Nat.le_refl 1,
    trivial⟩

theorem cruRead (bit : UInt16) :
    Moves config 0 (Exec.cruRead bit : Exec (RecordedBus β) Bool) := by
  intro machine hmachine
  rw [Exec.cruRead, get_bind]
  cases machine.cpu.internalBit? (bit &&& 0x0FFF) with
  | some value => exact Takes.pure (P := fun _ => True) trivial machine hmachine
  | none =>
      exact ⟨hmachine, _, RecordedBus.events_cons _ _ machine.bus, Nat.le_refl 0, trivial⟩

theorem cruWrite (bit : UInt16) (value : Bool) :
    Moves config 0 (Exec.cruWrite bit value : Exec (RecordedBus β) Unit) := by
  intro machine hmachine
  rw [Exec.cruWrite, get_bind]
  cases hbit : machine.cpu.setInternalBit? (bit &&& 0x0FFF) value with
  | some changed =>
      exact ⟨(Cpu.config_setInternalBit? hbit).trans hmachine, [],
        machine.bus.called_refl, Nat.le_refl 0, trivial⟩
  | none =>
      exact ⟨hmachine, _, RecordedBus.events_cons _ _ machine.bus, Nat.le_refl 0, trivial⟩

theorem setIdle (idle : Bool) :
    Moves config 0 (Exec.setIdle idle : Exec (RecordedBus β) Unit) :=
  fun machine hmachine => ⟨hmachine, _, RecordedBus.events_cons _ _ machine.bus, Nat.le_refl 0,
    trivial⟩

theorem acknowledge (line : UInt8) :
    Moves config 0 (Exec.acknowledge line : Exec (RecordedBus β) Unit) :=
  fun machine hmachine => ⟨hmachine, _, RecordedBus.events_cons _ _ machine.bus, Nat.le_refl 0,
    trivial⟩

theorem readWord (address : UInt16) :
    Moves config 2 (Exec.readWord address : Exec (RecordedBus β) UInt16) := by
  refine .inspect fun cpu _ => ?_
  cases cpu.region (Word.even address) with
  | ram offset =>
      refine (readRam offset).bind fun hi _ => ?_
      exact (readRam _).bind fun lo _ => .pure trivial
  | decrementer => exact .pure trivial
  | external =>
      refine (busRead _).bind fun hi _ => ?_
      exact (busRead _).bind fun lo _ => .pure trivial

theorem writeWord (address value : UInt16) :
    Moves config 2 (Exec.writeWord address value : Exec (RecordedBus β) Unit) := by
  refine (setOperandWord none).seq (.inspect fun cpu _ => ?_)
  cases cpu.region (Word.even address) with
  | ram offset => exact (writeRam offset _).seq (writeRam _ _).within
  | decrementer => exact (modifyCpu _ fun _ => rfl).within
  | external => exact (busWrite _ _).seq (busWrite _ _)

theorem readByte (address : UInt16) :
    Moves config 2 (Exec.readByte address : Exec (RecordedBus β) UInt8) := by
  refine .inspect fun cpu _ => ?_
  cases cpu.region address with
  | ram offset => exact (readRam offset).within
  | decrementer byte => exact (expect _).seq (.pure trivial)
  | external =>
      cases cpu.config.dataBus with
      | byte => exact (busRead address).within
      | word =>
          refine (readWord address).bind fun word _ => ?_
          exact (setOperandWord _).seq (.pure trivial)

theorem recallWord (address : UInt16) :
    Moves config 2 (Exec.recallWord address : Exec (RecordedBus β) UInt16) := by
  have hread : Moves config 2 (Exec.readWord address : Exec (RecordedBus β) UInt16) :=
    readWord address
  intro machine hmachine
  rw [Exec.recallWord, get_bind]
  rcases machine.operandWord with _ | ⟨remembered, word⟩
  · exact hread machine hmachine
  · exact Takes.ite (.pure trivial) hread machine hmachine

theorem writeByte (address : UInt16) (value : UInt8) :
    Moves config 4 (Exec.writeByte address value : Exec (RecordedBus β) Unit) := by
  refine .inspect fun cpu _ => ?_
  cases cpu.region address with
  | ram offset => exact (writeRam offset value).within
  | decrementer => exact (modifyCpu _ fun _ => rfl).within
  | external =>
      cases cpu.config.dataBus with
      | byte => exact (busWrite address value).within
      | word =>
          refine (recallWord (Word.even address)).bind fun word _ => ?_
          exact writeWord _ _

theorem readOperand (address : UInt16) (width : Width) :
    Moves config 2 (Exec.readOperand address width : Exec (RecordedBus β) UInt16) := by
  cases width with
  | byte => exact (readByte address).bind fun _ _ => .pure trivial
  | word => exact readWord address

theorem writeOperand (address : UInt16) (width : Width) (value : UInt16) :
    Moves config 4 (Exec.writeOperand address width value : Exec (RecordedBus β) Unit) := by
  cases width with
  | byte => exact writeByte address _
  | word => exact (writeWord address value).within

theorem readRegister (number : UInt16) :
    Moves config 2 (Exec.readRegister number : Exec (RecordedBus β) UInt16) :=
  .inspect fun _ _ => readWord _

theorem writeRegister (number value : UInt16) :
    Moves config 2 (Exec.writeRegister number value : Exec (RecordedBus β) Unit) :=
  .inspect fun _ _ => writeWord _ value

theorem fetch : Moves config 2 (Exec.fetch : Exec (RecordedBus β) UInt16) := by
  refine .inspect fun cpu _ => ?_
  refine (readWord cpu.pc).bind fun value _ => ?_
  exact (modifyCpu (·.skip 1) fun _ => rfl).seq (.pure trivial)

theorem contextSwitch (vector : UInt16) :
    Moves config 10 (Exec.contextSwitch vector : Exec (RecordedBus β) Unit) := by
  refine (readWord vector).bind fun wp _ => ?_
  refine (readWord (vector + 2)).bind fun pc _ => ?_
  refine .inspect fun old _ => ?_
  refine (modifyCpu (·.setWp wp) fun _ => rfl).seq ?_
  refine (writeRegister 13 old.wp).seq ?_
  refine (writeRegister 14 old.pc).seq ?_
  refine (writeRegister 15 old.st).seq ?_
  exact modifyCpu (·.setPc pc) fun _ => rfl

theorem cruBase : Moves config 2 (Exec.cruBase : Exec (RecordedBus β) UInt16) :=
  (readRegister 12).bind fun _ _ => .pure trivial

theorem operandAddress (operand : Operand) (width : Width) :
    Moves config 4 (Exec.operandAddress operand width : Exec (RecordedBus β) UInt16) := by
  unfold Exec.operandAddress
  cases operand.mode with
  | register => exact .inspect fun _ _ => .pure trivial
  | indirect => exact (readRegister operand.register).within
  | indexed =>
      refine fetch.bind fun base _ => ?_
      refine .ite (.pure trivial) ?_
      exact (readRegister operand.register).bind fun _ _ => .pure trivial
  | autoIncrement =>
      refine (readRegister operand.register).bind fun address _ => ?_
      exact (writeRegister operand.register _).seq (.pure trivial)

theorem resolve (operand : Operand) (width : Width) :
    Takes config 4 (·.2 ≤ 8) (Exec.resolve operand width : Exec (RecordedBus β) (UInt16 × Nat)) := by
  refine .inspect fun cpu _ => ?_
  refine (operandAddress operand width).bind fun _ _ => .pure ?_
  exact cpu.config.instructionSet.mode_le width operand.mode

theorem sourceWord (opcode : UInt16) :
    Takes config 6 (·.2 ≤ 8) (Exec.sourceWord opcode : Exec (RecordedBus β) (UInt16 × Nat)) := by
  refine (resolve (.source opcode) .word).bind ?_
  rintro ⟨address, cycles⟩ hcycles
  exact (readWord address).bind fun _ _ => .pure hcycles

theorem dummyRead (address : UInt16) (width : Width) :
    Moves config 2 (Exec.dummyRead address width : Exec (RecordedBus β) Unit) := by
  refine .inspect fun cpu _ => .ite ?_ (.pure trivial)
  exact (readOperand address width).bind fun _ _ => .pure trivial

theorem readDestination (operation : DualOperation) (address : UInt16) (width : Width) :
    Moves config 2
      (Exec.readDestination operation address width : Exec (RecordedBus β) UInt16) :=
  .ite ((dummyRead address width).seq (.pure trivial)) (readOperand address width)

theorem dual (opcode : UInt16) (operation : DualOperation) (width : Width) :
    Takes config 16 (· ≤ 16) (Exec.dual opcode operation width : Exec (RecordedBus β) Nat) := by
  refine (resolve (.source opcode) width).bind ?_
  rintro ⟨sourceAddress, sourceCycles⟩ hsource
  refine (readOperand sourceAddress width).bind fun s _ => ?_
  refine (resolve (.destination opcode) width).bind ?_
  rintro ⟨address, cycles⟩ hcycles
  refine (readDestination operation address width).bind fun d _ => ?_
  refine (combine operation width s d).bind ?_
  rintro (_ | value) _
  · exact .pure (Nat.add_le_add hsource hcycles)
  · exact (writeOperand address width value).seq (.pure (Nat.add_le_add hsource hcycles))

theorem bitwise (opcode : UInt16) (operation : BitwiseOperation) :
    Takes config 10 (· ≤ 8) (Exec.bitwise opcode operation : Exec (RecordedBus β) Nat) := by
  refine (sourceWord opcode).bind ?_
  rintro ⟨s, cycles⟩ hcycles
  refine (readRegister (registerField opcode)).bind fun d _ => ?_
  cases operation with
  | coc | czc => exact (modifySt _).seq (.pure hcycles)
  | xor =>
      refine (modifySt _).seq ?_
      exact (writeRegister (registerField opcode) _).seq (.pure hcycles)

theorem xop (opcode : UInt16) :
    Takes config 16 (· ≤ 8) (Exec.xop opcode : Exec (RecordedBus β) Nat) := by
  refine (resolve (.source opcode) .word).bind ?_
  rintro ⟨address, cycles⟩ hcycles
  refine (contextSwitch _).seq ?_
  refine (writeRegister 11 address).seq ?_
  refine (modifySt _).seq ?_
  exact (modifyCpu _ fun _ => rfl).seq (.pure hcycles)

theorem writeBits (count : Nat) (value base : UInt16) :
    Moves config 0 (Exec.writeBits value count base : Exec (RecordedBus β) Unit) := by
  induction count generalizing value base with
  | zero => exact .pure trivial
  | succ count ih => exact (cruWrite base _).seq (ih _ _)

theorem readBits (count : Nat) (base bit : UInt16) :
    Moves config 0 (Exec.readBits count base bit : Exec (RecordedBus β) UInt16) := by
  induction count generalizing base bit with
  | zero => exact .pure trivial
  | succ count ih =>
      refine (cruRead base).bind fun set _ => ?_
      exact (ih (base + 1) (bit <<< 1)).bind fun rest _ => .pure trivial

theorem ldcr (opcode : UInt16) :
    Takes config 8 (· ≤ 40) (Exec.ldcr opcode : Exec (RecordedBus β) Nat) := by
  refine (resolve (.source opcode) (cruWidth (cruCount opcode))).bind ?_
  rintro ⟨address, cycles⟩ hcycles
  refine (readOperand address _).bind fun value _ => ?_
  refine (modifySt _).seq ?_
  refine cruBase.bind fun base _ => ?_
  refine (writeBits (cruCount opcode) value base).seq ?_
  refine .inspect fun cpu _ => .pure ?_
  have hcru := cpu.config.instructionSet.timing_bounded.cruPerBit
  exact Nat.add_le_add hcycles (Nat.mul_le_mul hcru (cruCount_le opcode))

theorem stcr (opcode : UInt16) :
    Takes config 10 (· ≤ 26) (Exec.stcr opcode : Exec (RecordedBus β) Nat) := by
  refine (resolve (.source opcode) (cruWidth (cruCount opcode))).bind ?_
  rintro ⟨address, cycles⟩ hcycles
  refine cruBase.bind fun base _ => ?_
  refine (readBits (cruCount opcode) base 1).bind fun value _ => ?_
  refine (modifySt _).seq ?_
  refine (writeOperand address _ value).seq ?_
  refine .inspect fun cpu _ => .pure ?_
  exact Nat.add_le_add hcycles (stcrCycles_le cpu.config (cruCount_le opcode))

theorem mpy (opcode : UInt16) :
    Takes config 12 (· ≤ 8) (Exec.mpy opcode : Exec (RecordedBus β) Nat) := by
  refine (sourceWord opcode).bind ?_
  rintro ⟨s, cycles⟩ hcycles
  refine (readRegister (registerField opcode)).bind fun d _ => ?_
  refine (writeRegister _ _).seq ?_
  exact (writeRegister _ _).seq (.pure hcycles)

theorem div (opcode : UInt16) :
    Takes config 14 (· ≤ 116) (Exec.div opcode : Exec (RecordedBus β) Nat) := by
  refine (sourceWord opcode).bind ?_
  rintro ⟨divisor, cycles⟩ hcycles
  refine (readRegister (registerField opcode)).bind fun hi _ => ?_
  refine .ite (setOverflow.seq (.pure (Nat.le_trans hcycles (by decide)))) ?_
  refine (readRegister (registerField opcode + 1)).bind fun lo _ => ?_
  refine (require _ _).bind fun division _ => ?_
  refine (writeRegister _ _).seq ?_
  refine (writeRegister _ _).seq ?_
  refine (modifySt _).seq ?_
  refine .inspect fun cpu _ => .pure ?_
  have htiming := cpu.config.instructionSet.timing_bounded
  have hbits := Nat.mul_le_mul htiming.divPerBit
    (Word.onesCount_le 16 division.quotient.toNat)
  exact Nat.add_le_add (Nat.add_le_add hcycles htiming.divExtra) hbits

theorem mpys (opcode : UInt16) :
    Takes config 12 (· ≤ 8) (Exec.mpys opcode : Exec (RecordedBus β) Nat) := by
  refine (sourceWord opcode).bind ?_
  rintro ⟨s, cycles⟩ hcycles
  refine (readRegister 0).bind fun d _ => ?_
  refine (writeRegister 0 _).seq ?_
  refine (writeRegister 1 _).seq ?_
  exact (modifySt _).seq (.pure hcycles)

theorem divs (opcode : UInt16) :
    Takes config 14 (· ≤ 84) (Exec.divs opcode : Exec (RecordedBus β) Nat) := by
  refine (sourceWord opcode).bind ?_
  rintro ⟨divisor, cycles⟩ hcycles
  refine (readRegister 0).bind fun hi _ => ?_
  refine (readRegister 1).bind fun lo _ => ?_
  cases Division.signedQuotient? hi lo divisor with
  | none => exact setOverflow.seq (.pure (Nat.le_trans hcycles (by decide)))
  | some quotient =>
      refine (require _ _).bind fun remainder _ => ?_
      refine (writeRegister 0 _).seq ?_
      refine (writeRegister 1 _).seq ?_
      refine (modifySt _).seq ?_
      refine .inspect fun cpu _ => .pure ?_
      exact Nat.add_le_add hcycles cpu.config.instructionSet.timing_bounded.divExtra

theorem cruBit (opcode : UInt16) (operation : CruBitOperation) :
    Moves config 2 (Exec.cruBit opcode operation : Exec (RecordedBus β) Unit) := by
  refine cruBase.bind fun base _ => ?_
  cases operation with
  | sbo => exact cruWrite _ true
  | sbz => exact cruWrite _ false
  | tb => exact (cruRead _).bind fun value _ => modifySt _

theorem shiftCount (opcode : UInt16) :
    Takes config 2 (fun (count, cycles) => count ≤ 16 ∧ cycles ≤ 8)
      (Exec.shiftCount opcode : Exec (RecordedBus β) (Nat × Nat)) := by
  have hnibble (word : UInt16) : (word &&& 0xF).toNat ≤ 16 :=
    Nat.le_trans (Word.toNat_nibble_le word) (by decide)
  refine .ite ?_ (.pure ⟨hnibble _, Nat.zero_le 8⟩)
  refine (readRegister 0).bind fun count _ => ?_
  refine .inspect fun cpu _ => .pure ⟨?_, ?_⟩
  · split
    · exact Nat.le_refl 16
    · exact hnibble count
  · exact cpu.config.instructionSet.timing_bounded.shiftFromR0

theorem shift (opcode : UInt16) (operation : ShiftOperation) :
    Takes config 6 (· ≤ 40) (Exec.shift opcode operation : Exec (RecordedBus β) Nat) := by
  refine (shiftCount opcode).bind ?_
  rintro ⟨count, cycles⟩ ⟨hcount, hcycles⟩
  refine (readRegister (opcode &&& 0xF)).bind fun value _ => ?_
  refine (writeRegister (opcode &&& 0xF) _).seq ?_
  have hcost : Takes config 0 (· ≤ 40)
      (cpu >>= fun cpu => Pure.pure (cycles + cpu.timing.shiftPerBit.toNat * count) :
        Exec (RecordedBus β) Nat) := by
    refine .inspect fun cpu _ => .pure ?_
    have hshift := cpu.config.instructionSet.timing_bounded.shiftPerBit
    exact Nat.add_le_add hcycles (Nat.mul_le_mul hshift hcount)
  refine (modifySt _).seq (.ite ?_ hcost)
  refine (modifySt _).seq (.ite ?_ hcost)
  exact (modifyCpu Cpu.overflowTrap Cpu.config_overflowTrap).seq hcost

theorem increase (address step : UInt16) :
    Moves config 4 (Exec.increase address step : Exec (RecordedBus β) Unit) := by
  refine (readWord address).bind fun v _ => ?_
  exact (setArithmetic _ _ .word).seq (writeWord address _)

theorem decrease (address step : UInt16) :
    Moves config 4 (Exec.decrease address step : Exec (RecordedBus β) Unit) := by
  refine (readWord address).bind fun v _ => ?_
  exact (setArithmetic _ _ .word).seq (writeWord address _)

theorem abs (address : UInt16) :
    Takes config 4 (· ≤ 2) (Exec.abs address : Exec (RecordedBus β) Nat) := by
  refine (readWord address).bind fun v _ => ?_
  refine (modifySt _).seq (.ite (.pure (Nat.zero_le 2)) ?_)
  refine (writeWord address _).seq ?_
  have hcost : Takes config 0 (· ≤ 2)
      (cpu >>= fun cpu => Pure.pure cpu.timing.absNegative.toNat : Exec (RecordedBus β) Nat) :=
    .inspect fun cpu _ => .pure cpu.config.instructionSet.timing_bounded.absNegative
  exact .ite ((modifyCpu Cpu.overflowTrap Cpu.config_overflowTrap).seq hcost) hcost

theorem singleAt (operation : SingleOperation) (address : UInt16) :
    Takes config 10 (· ≤ 2) (Exec.singleAt operation address : Exec (RecordedBus β) Nat) := by
  have hfree {bytes : Nat} : Takes config bytes (· ≤ 2) (Pure.pure 0 : Exec (RecordedBus β) Nat) :=
    .pure (Nat.zero_le 2)
  cases operation with
  | blwp => exact (contextSwitch address).seq ((modifyCpu _ fun _ => rfl).seq hfree)
  | b => exact (modifyCpu (·.setPc address) fun _ => rfl).seq hfree
  | bl =>
      refine .inspect fun cpu _ => ?_
      refine (writeRegister 11 cpu.pc).seq ?_
      exact (modifyCpu (·.setPc address) fun _ => rfl).seq hfree
  | clr | seto => exact (writeWord address _).seq hfree
  | swpb => exact (readWord address).bind fun v _ => (writeWord address _).seq hfree
  | inv =>
      refine (readWord address).bind fun v _ => ?_
      exact (modifySt _).seq ((writeWord address _).seq hfree)
  | neg =>
      refine (readWord address).bind fun v _ => ?_
      exact (setArithmetic _ _ .word).seq ((writeWord address _).seq hfree)
  | inc | inct => exact (increase address _).seq hfree
  | dec | dect => exact (decrease address _).seq hfree
  | abs => exact (abs address).within

theorem single (opcode : UInt16) (operation : SingleOperation) :
    Takes config 14 (· ≤ 10) (Exec.single opcode operation : Exec (RecordedBus β) Nat) := by
  refine (resolve (.source opcode) .word).bind ?_
  rintro ⟨address, cycles⟩ hcycles
  refine (singleAt operation address).bind fun extra hextra => .pure ?_
  exact Nat.add_le_add hcycles hextra

theorem immediate (opcode : UInt16) (operation : ImmediateOperation) :
    Moves config 6 (Exec.immediate opcode operation : Exec (RecordedBus β) Unit) := by
  refine fetch.bind fun operand _ => ?_
  cases operation with
  | li => exact (modifySt _).seq (writeRegister _ operand).within
  | ai =>
      refine (readRegister _).bind fun v _ => ?_
      exact (setArithmetic _ _ .word).seq (writeRegister _ _)
  | andi | ori =>
      refine (readRegister _).bind fun v _ => ?_
      exact (modifySt _).seq (writeRegister _ _)
  | ci => exact (readRegister _).bind fun v _ => (modifySt _).within

omit [Bus β] in
theorem jump (opcode : UInt16) (condition : JumpCondition) :
    Takes config 0 (· ≤ 2) (Exec.jump opcode condition : Exec (RecordedBus β) Nat) := by
  refine .inspect fun cpu _ => .ite ?_ (.pure (Nat.zero_le 2))
  refine (modifyCpu (·.skip (Word.signExtend (Word.low opcode))) fun _ => rfl).seq (.pure ?_)
  exact cpu.config.instructionSet.timing_bounded.jumpTaken

theorem rtwp : Moves config 6 (Exec.rtwp : Exec (RecordedBus β) Unit) := by
  refine (readRegister 13).bind fun wp _ => ?_
  refine (readRegister 14).bind fun pc _ => ?_
  refine (readRegister 15).bind fun st _ => ?_
  refine (modifyCpu (·.setSt st) fun _ => rfl).seq ?_
  refine (modifyCpu (·.setPc pc) fun _ => rfl).seq ?_
  exact modifyCpu (·.setWp wp) fun _ => rfl

/-- The longest instruction is a division, and the ones that move most bytes have two operands in
memory or switch the context. -/
theorem perform (opcode : UInt16) (instruction : Instruction) :
    Takes config 16 (· ≤ 116) (Exec.perform opcode instruction : Exec (RecordedBus β) Nat) := by
  have hle {limit : Nat} (hlimit : limit ≤ 116) (cycles : Nat) (hcycles : cycles ≤ limit) :
      cycles ≤ 116 :=
    Nat.le_trans hcycles hlimit
  have hfree {bytes : Nat} :
      Takes config bytes (· ≤ 116) (Pure.pure 0 : Exec (RecordedBus β) Nat) :=
    .pure (Nat.zero_le 116)
  cases instruction with
  | dual operation width => exact (dual opcode operation width).weaken (hle (by decide))
  | bitwise operation => exact (bitwise opcode operation).weaken (hle (by decide))
  | xop => exact (xop opcode).weaken (hle (by decide))
  | ldcr => exact (ldcr opcode).weaken (hle (by decide))
  | stcr => exact (stcr opcode).weaken (hle (by decide))
  | mpy => exact (mpy opcode).weaken (hle (by decide))
  | div => exact (div opcode).within
  | jump condition => exact (jump opcode condition).weaken (hle (by decide))
  | cruBit operation => exact (cruBit opcode operation).seq hfree
  | shift operation => exact (shift opcode operation).weaken (hle (by decide))
  | single operation => exact (single opcode operation).weaken (hle (by decide))
  | immediate operation => exact (immediate opcode operation).seq hfree
  | stwp | stst => exact .inspect fun cpu _ => (writeRegister _ _).seq hfree
  | lwpi => exact fetch.bind fun wp _ => (modifyCpu (·.setWp wp) fun _ => rfl).seq hfree
  | limi => exact fetch.bind fun level _ => (modifySt _).seq hfree
  | idle => exact (setIdle true).seq hfree
  | rset => exact (modifySt _).seq hfree
  | rtwp => exact rtwp.seq hfree
  | lst =>
      refine (readRegister _).bind fun st _ => ?_
      exact (modifyCpu (·.setSt st) fun _ => rfl).seq hfree
  | lwp =>
      refine (readRegister _).bind fun wp _ => ?_
      exact (modifyCpu (·.setWp wp) fun _ => rfl).seq hfree
  | divs => exact (divs opcode).weaken (hle (by decide))
  | mpys => exact (mpys opcode).weaken (hle (by decide))
  | ckon | ckof | lrex | x => exact hfree

theorem chase (depth : Nat) (opcode : UInt16) :
    Takes config (6 * depth + 6) (·.cycles ≤ 16 * depth + 16)
      (Exec.chase depth opcode : Exec (RecordedBus β) ChainEnd) := by
  rw [Exec.chase.eq_def]
  refine .inspect fun cpu _ => ?_
  have hbase := Instruction.baseCycles_x_le cpu.config.instructionSet
  dsimp only
  split
  · exact .pure (Nat.zero_le _)
  · refine (sourceWord opcode).bind fun source hsource => ?_
    cases depth with
    | zero =>
        refine .pure ?_
        dsimp only
        omega
    | succ depth =>
        refine (chase depth source.1).map fun last hlast => ?_
        dsimp only
        omega
  · exact .pure (Nat.zero_le _)
termination_by depth

omit [Bus β] in
theorem illegal (hillegal : ∀ cycles, config.illegal = .ignore cycles → cycles.toNat ≤ 168) :
    Takes config 0 (· ≤ 168) (Exec.illegal : Exec (RecordedBus β) Nat) := by
  refine .inspect fun cpu hcpu => ?_
  rw [hcpu]
  cases hignore : config.illegal with
  | ignore cycles => exact .pure (hillegal cycles hignore)
  | trap => exact (modifyCpu Cpu.illegalTrap fun _ => rfl).seq (.pure (by decide))

theorem conclude (hillegal : ∀ cycles, config.illegal = .ignore cycles → cycles.toNat ≤ 168)
    (last : ChainEnd) :
    Takes config 16 (· ≤ 168) (Exec.conclude last : Exec (RecordedBus β) Nat) := by
  refine .inspect fun cpu hcpu => ?_
  obtain ⟨opcode, found, cycles⟩ := last
  dsimp only
  split
  · exact (illegal hillegal).within
  · exact .pure (Nat.zero_le 168)
  · next _ instruction _ =>
      refine (perform opcode instruction).bind fun extra hextra => .pure ?_
      exact Nat.add_le_add (Instruction.baseCycles_le _ instruction) hextra

/-- A chain holds at most 17 X instructions, of 16 cycles and 6 bytes each, and what is at its end
takes 168 cycles and 16 bytes. -/
theorem execute (hillegal : ∀ cycles, config.illegal = .ignore cycles → cycles.toNat ≤ 168) :
    Takes config 120 (· ≤ 440) (Exec.execute : Exec (RecordedBus β) Nat) := by
  refine fetch.bind fun opcode _ => ?_
  rw [executeOpcode_eq]
  refine (chase maxExecuteDepth opcode).bind fun last hlast => ?_
  exact (conclude hillegal last).bind fun cost hcost => .pure (Nat.add_le_add hlast hcost)

theorem serviceInterrupt :
    Takes config 10 (· ≤ 22) (Exec.serviceInterrupt : Exec (RecordedBus β) Nat) := by
  refine .inspect fun before _ => ?_
  cases before.pending with
  | none => exact .pure (Nat.zero_le 22)
  | some pending =>
      refine (contextSwitch _).seq ?_
      refine (modifySt _).seq ?_
      refine (acknowledge pending.line).seq ?_
      have hwake : Moves config 0 (Exec.wake : Exec (RecordedBus β) Unit) :=
        .inspect fun cpu _ => .ite (setIdle false) (.pure trivial)
      exact hwake.seq (.pure before.config.instructionSet.timing_bounded.interrupt)

theorem serviceUnlessSuppressed :
    Takes config 10 (· ≤ 22) (Exec.serviceUnlessSuppressed : Exec (RecordedBus β) Nat) := by
  refine .inspect fun cpu _ => ?_
  refine (modifyCpu ({ · with suppress := false }) fun _ => rfl).seq ?_
  exact .ite (.pure (Nat.zero_le 22)) serviceInterrupt

end Exec.Takes

namespace Machine

variable [Bus β] {machine : Machine (RecordedBus β)}

theorem ownCycles_le (hconsistent : machine.cpu.IsConsistent config)
    (hillegal : ∀ cycles, config.illegal = .ignore cycles → cycles.toNat ≤ 168)
    (hdivider : config.tickDivider.toNat ≤ 462) (limit : Nat) :
    ∃ calls, machine.bus.Called machine.worked.bus calls ∧ BusEvent.transfers calls ≤ 130 ∧
      machine.ownCycles limit ≤ 462 := by
  have hcleared : (Exec.clearLeftovers machine).2.cpu.config = config := hconsistent.config_eq
  obtain ⟨hchecked, calls, hcalled, hcalls, hservice⟩ :=
    Exec.Takes.serviceUnlessSuppressed (Exec.clearLeftovers machine).2 hcleared
  rw [ownCycles, worked]
  split
  · have hquantum : machine.checked.cpu.divider.untilNext ≤ 462 := by
      have hstill : machine.checked.cpu.IsConsistent config :=
        (Cpu.isConsistent_hostStable config).toServiceStable.checked hconsistent
      rw [hstill.inPhase.untilNext_eq, hstill.divisor_eq, TickDivider.divisor_ofDivisor]
      omega
    refine ⟨calls, hcalled, Nat.le_trans hcalls (by decide), ?_⟩
    omega
  · obtain ⟨_, more, hmore, hmoreCalls, hcost⟩ :=
      Exec.Takes.execute hillegal machine.checked hchecked
    refine ⟨calls ++ more, hcalled.trans hmore, ?_, Nat.add_le_add hservice hcost⟩
    rw [BusEvent.transfers_append]
    exact Nat.add_le_add hcalls hmoreCalls

theorem iterate_le (hconsistent : machine.cpu.IsConsistent config)
    (hillegal : ∀ cycles, config.illegal = .ignore cycles → cycles.toNat ≤ 168)
    (hdivider : config.tickDivider.toNat ≤ 462) (limit : Nat) :
    ∃ calls, machine.bus.Called (Exec.iterate limit machine).2.bus calls ∧
      (Exec.iterate limit machine).1 ≤
        462 + config.byteAccessCycles.toNat * 130 + BusEvent.waits calls := by
  obtain ⟨calls, hcalled, hcalls, hown⟩ := ownCycles_le hconsistent hillegal hdivider limit
  obtain ⟨others, _, hothers, _, _, hcost, _⟩ :=
    iterate_fst_of_alike (m := machine) (n := machine) Bus.sameData_eq rfl rfl limit
  obtain rfl := hcalled.unique hothers
  obtain ⟨driven, _, hticks⟩ := machine.called_account limit
  refine ⟨calls ++ driven.map .tick, hcalled.trans hticks, ?_⟩
  have hbytes := Nat.mul_le_mul_left config.byteAccessCycles.toNat hcalls
  rw [hconsistent.config_eq] at hcost
  rw [hcost, BusEvent.waits_append, BusEvent.waits_ticks]
  omega

theorem iterate_le_of_variant {variant : Variant}
    (hconsistent : machine.cpu.IsConsistent variant.config) (limit : Nat) :
    ∃ calls, machine.bus.Called (Exec.iterate limit machine).2.bus calls ∧
      (Exec.iterate limit machine).1 ≤ 600 + BusEvent.waits calls := by
  have hillegal (cycles : UInt8) (hignore : variant.config.illegal = .ignore cycles) :
      cycles.toNat ≤ 168 := by
    cases variant with
    | tms9900 | tms9980A =>
        obtain rfl := IllegalOpcode.ignore.inj hignore
        decide
    | tms9995 => exact absurd hignore nofun
  have hdivider : variant.config.tickDivider.toNat ≤ 462 := by
    cases variant <;> decide
  have hbyte : variant.config.byteAccessCycles.toNat ≤ 1 := by
    cases variant <;> decide
  obtain ⟨calls, hcalled, hcost⟩ := iterate_le hconsistent hillegal hdivider limit
  refine ⟨calls, hcalled, ?_⟩
  omega

theorem waits_iterate (hprompt : Bus.NeverWaits β) (hconsistent : machine.cpu.IsConsistent config)
    (limit : Nat) :
    BusEvent.waits (Exec.iterate limit machine).2.bus.events =
      BusEvent.waits machine.bus.events := by
  have hlasting := RecordedBus.waits_lasting hprompt config.bounds
    (BusEvent.waits machine.bus.events)
  exact (Exec.iterate_keeps_and hlasting limit machine ⟨hconsistent, rfl⟩).2

end Machine

theorem Variant.illegal_ne (variant : Variant) : variant.config.illegal ≠ .ignore 0 := by
  cases variant <;> decide

end Tms9900

end TmsCores
