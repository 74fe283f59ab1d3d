import TmsCores.Proofs.Tms9900.ExecuteChain
import TmsCores.Proofs.Tms9900.Status

namespace TmsCores.Tms9900

/-- The processor as its programs see it: how the data bus is built does not matter to them. -/
def Cpu.programView (cpu : Cpu) : Cpu :=
  { cpu with
    config.dataBus := .word
    config.dummyDestinationRead := true }

variable {α β γ δ : Type} [Bus β] [Bus γ] {R : Machine β → Machine γ → Prop}

/-- A relation between machines that the accesses of instructions respect. -/
structure OperandSimulation (R : Machine β → Machine γ → Prop) : Prop where
  sameView : ∀ {m n}, R m n → m.cpu.programView = n.cpu.programView
  readWord : ∀ address, Corresponds R (Exec.readWord address) (Exec.readWord address)
  writeWord : ∀ address value,
    Corresponds R (Exec.writeWord address value) (Exec.writeWord address value)
  readByte : ∀ address, Corresponds R (Exec.readByte address) (Exec.readByte address)
  writeByte : ∀ address value,
    Corresponds R (Exec.writeByte address value) (Exec.writeByte address value)
  dummyRead : ∀ address width,
    Corresponds R (Exec.dummyRead address width) (Exec.dummyRead address width)
  cruRead : ∀ bit, Corresponds R (Exec.cruRead bit) (Exec.cruRead bit)
  cruWrite : ∀ bit value, Corresponds R (Exec.cruWrite bit value) (Exec.cruWrite bit value)
  skip : ∀ words, Corresponds R (Exec.modifyCpu (·.skip words)) (Exec.modifyCpu (·.skip words))
  setPc : ∀ pc, Corresponds R (Exec.modifyCpu (·.setPc pc)) (Exec.modifyCpu (·.setPc pc))
  setWp : ∀ wp, Corresponds R (Exec.modifyCpu (·.setWp wp)) (Exec.modifyCpu (·.setWp wp))

/-- A relation between machines that what instructions do to the status register respects as well,
other than to load it.  Whatever is put together from these respects it too. -/
structure FlagSimulation (R : Machine β → Machine γ → Prop) : Prop extends OperandSimulation R where
  setFlags : ∀ {change}, Status.KeepsControl change →
    Corresponds R (Exec.modifySt change) (Exec.modifySt change)
  clearMask : Corresponds R (Exec.modifySt (Status.withMask · 0))
    (Exec.modifySt (Status.withMask · 0))
  overflowTrap : Corresponds R (Exec.modifyCpu Cpu.overflowTrap) (Exec.modifyCpu Cpu.overflowTrap)
  illegalTrap : Corresponds R (Exec.modifyCpu Cpu.illegalTrap) (Exec.modifyCpu Cpu.illegalTrap)

/-- A relation between machines that all changes of the status register respect as well. -/
structure Simulation (R : Machine β → Machine γ → Prop) : Prop extends FlagSimulation R where
  setSt : ∀ st, Corresponds R (Exec.modifyCpu (·.setSt st)) (Exec.modifyCpu (·.setSt st))
  modifySt : ∀ {change}, Status.KeepsReserved change →
    Corresponds R (Exec.modifySt change) (Exec.modifySt change)
  setFlags hchange := modifySt hchange.keepsReserved
  clearMask := modifySt (.withMask (by decide))

namespace Instruction

/-- The instructions that put a new value into the interrupt mask. -/
def LoadsMask (instruction : Instruction) : Prop :=
  instruction = .limi ∨ instruction = .rtwp ∨ instruction = .lst

/-- The instructions after which no interrupt is taken at once. -/
def HoldsInterrupts (instruction : Instruction) : Prop :=
  instruction = .xop ∨ instruction = .single .blwp

/-- The instructions that replace the status register as a whole. -/
def LoadsStatus (instruction : Instruction) : Prop :=
  instruction = .rtwp ∨ instruction = .lst

theorem LoadsStatus.loadsMask {instruction : Instruction} (h : instruction.LoadsStatus) :
    instruction.LoadsMask :=
  .inr h

/-- The instructions whose result may not fit. -/
def canOverflow : Instruction → Bool
  | .dual .a _ | .dual .s _ | .immediate .ai => true
  | .single .inc | .single .inct | .single .dec | .single .dect => true
  | .single .neg | .single .abs | .shift .sla => true
  | .div | .divs => true
  | _ => false

/-- The bits that an instruction changes in the status register, unless it replaces all of it.  Those
of LDCR and STCR depend on the width of what they transfer. -/
def statusBits (transfer : Width) : Instruction → UInt16
  | .dual .a width | .dual .s width => Status.arithmeticBits width
  | .dual _ width => Status.resultBits width
  | .bitwise .xor => Status.comparison
  | .bitwise _ | .cruBit .tb => Status.equal
  | .xop => Status.extended
  | .ldcr | .stcr => Status.resultBits transfer
  | .shift .sla => Status.arithmeticBits .word
  | .shift _ => Status.comparison ||| Status.carry
  | .single .inc | .single .inct | .single .dec | .single .dect => Status.arithmeticBits .word
  | .single .neg | .single .abs | .immediate .ai => Status.arithmeticBits .word
  | .single .inv | .immediate _ => Status.comparison
  | .limi | .rset => Status.mask
  | .div => Status.overflow
  | .divs => Status.comparison ||| Status.overflow
  | .mpys => Status.comparison
  | _ => 0

theorem statusBits_and_control {instruction : Instruction} (hload : ¬instruction.LoadsMask)
    (hreset : instruction ≠ .rset) (transfer : Width) :
    instruction.statusBits transfer &&& Status.control = 0 := by
  cases instruction with
  | limi => exact absurd (.inl rfl) hload
  | rset => exact absurd rfl hreset
  | dual operation width => cases transfer <;> cases operation <;> cases width <;> decide
  | bitwise operation | jump operation | cruBit operation | shift operation =>
      cases transfer <;> cases operation <;> decide
  | single operation | immediate operation => cases transfer <;> cases operation <;> decide
  | _ => cases transfer <;> decide

end Instruction

/-- A relation between machines respects all changes of some bits of the status register. -/
def RespectsFlags (R : Machine β → Machine γ → Prop) (bits : UInt16) : Prop :=
  ∀ change, Status.Changes bits change →
    Corresponds R (Exec.modifySt change) (Exec.modifySt change)

/-- A relation between machines respects what an instruction does apart from its accesses. -/
structure RespectsEffects (R : Machine β → Machine γ → Prop) (opcode : UInt16)
    (instruction : Instruction) : Prop where
  flags : instruction ≠ .rset →
    RespectsFlags R (instruction.statusBits (cruWidth (cruCount opcode)))
  clearMask : instruction = .rset → Corresponds R (Exec.modifySt (Status.withMask · 0))
    (Exec.modifySt (Status.withMask · 0))
  trap : instruction.canOverflow = true →
    Corresponds R (Exec.modifyCpu Cpu.overflowTrap) (Exec.modifyCpu Cpu.overflowTrap)
  hold : instruction.HoldsInterrupts → Corresponds R Exec.holdInterrupts Exec.holdInterrupts
  idle : instruction = .idle → Corresponds R (Exec.setIdle true) (Exec.setIdle true)
  load : instruction.LoadsStatus → ∀ st,
    Corresponds R (Exec.modifyCpu (·.setSt st)) (Exec.modifyCpu (·.setSt st))

namespace Division

variable {hi lo divisor : UInt16}

theorem unsigned?_eq (h : ¬divisor ≤ hi) :
    unsigned? hi lo divisor = some (unsigned hi lo divisor) := by
  refine if_neg fun hzero => h ?_
  rw [hzero]
  exact UInt16.zero_le

theorem signedRemainder?_eq {quotient : Int} (h : signedQuotient? hi lo divisor = some quotient) :
    signedRemainder? hi lo divisor = some (signedRemainder hi lo divisor) := by
  refine if_neg fun hzero => ?_
  rw [signedQuotient?, if_neg fun hall => hall.1 hzero] at h
  exact absurd h nofun

end Division

omit [Bus β] in
theorem Exec.require_some (value otherwise : α) :
    require (some value) otherwise = (pure value : Exec β α) :=
  rfl

omit [Bus β] [Bus γ] in
theorem Exec.corresponds_require_of_some {found : Option α} {value : α} (h : found = some value)
    (otherwise : α) : Corresponds R (require found otherwise) (require found otherwise) := by
  rw [h, require_some, require_some]
  exact .pure value

omit [Bus β] [Bus γ] in
theorem Exec.corresponds_cpu {f : Cpu → Exec β α} {g : Cpu → Exec γ α}
    (hfg : ∀ m n, R m n → Corresponds R (f m.cpu) (g n.cpu)) :
    Corresponds R (cpu >>= f) (cpu >>= g) :=
  fun m n hmn => hfg m n hmn m n hmn

namespace RespectsEffects

variable {opcode : UInt16} {instruction : Instruction} (e : RespectsEffects R opcode instruction)

include e

theorem setArithmetic {width : Width} (hoverflow : instruction.canOverflow = true)
    (hflags : RespectsFlags R (Status.arithmeticBits width)) (result : UInt16) (flags : FlagSet) :
    Corresponds R (Exec.setArithmetic result flags width)
      (Exec.setArithmetic result flags width) :=
  (hflags _ (.arithmetic result flags width)).seq (.ite (e.trap hoverflow) (.pure ()))

theorem setOverflow (hoverflow : instruction.canOverflow = true) {bits : UInt16}
    (hflags : RespectsFlags R bits) (hbits : Status.overflow &&& ~~~bits = 0) :
    Corresponds R Exec.setOverflow Exec.setOverflow :=
  (hflags _ (.or hbits)).seq (e.trap hoverflow)

omit e in
theorem combine {operation : DualOperation} {width : Width}
    (e : RespectsEffects R opcode (.dual operation width)) (s d : UInt16) :
    Corresponds R (Exec.combine operation width s d) (Exec.combine operation width s d) := by
  have hflags := e.flags nofun
  cases operation with
  | mov => exact (hflags _ (.result s width)).seq (.pure _)
  | szc => exact (hflags _ (.result _ width)).seq (.pure _)
  | soc => exact (hflags _ (.result _ width)).seq (.pure _)
  | a => exact (e.setArithmetic rfl hflags _ _).seq (.pure _)
  | s => exact (e.setArithmetic rfl hflags _ _).seq (.pure _)
  | c => exact (hflags _ (.comparison s d width)).seq (.pure _)

end RespectsEffects

namespace OperandSimulation

variable (h : OperandSimulation R)

include h

theorem inspectRelated {f : Cpu → Exec β α} {g : Cpu → Exec γ α}
    (hf : ∀ cpu, f cpu.programView = f cpu)
    (hfg : ∀ m n, R m n → Corresponds R (f n.cpu) (g n.cpu)) :
    Corresponds R (Exec.cpu >>= f) (Exec.cpu >>= g) := by
  refine Exec.corresponds_cpu fun m n hmn => ?_
  rw [← hf, h.sameView hmn, hf]
  exact hfg m n hmn

theorem inspect {f : Cpu → Exec β α} {g : Cpu → Exec γ α}
    (hf : ∀ cpu, f cpu.programView = f cpu) (hfg : ∀ cpu, Corresponds R (f cpu) (g cpu)) :
    Corresponds R (Exec.cpu >>= f) (Exec.cpu >>= g) :=
  h.inspectRelated hf fun _ n _ => hfg n.cpu

theorem readRegister (number : UInt16) :
    Corresponds R (Exec.readRegister number) (Exec.readRegister number) :=
  h.inspect (fun _ => rfl) fun _ => h.readWord _

theorem writeRegister (number value : UInt16) :
    Corresponds R (Exec.writeRegister number value) (Exec.writeRegister number value) :=
  h.inspect (fun _ => rfl) fun _ => h.writeWord _ value

theorem readOperand (address : UInt16) (width : Width) :
    Corresponds R (Exec.readOperand address width) (Exec.readOperand address width) := by
  cases width with
  | byte => exact (h.readByte address).bind fun _ => .pure _
  | word => exact h.readWord address

theorem writeOperand (address : UInt16) (width : Width) (value : UInt16) :
    Corresponds R (Exec.writeOperand address width value)
      (Exec.writeOperand address width value) := by
  cases width with
  | byte => exact h.writeByte address _
  | word => exact h.writeWord address value

theorem fetch : Corresponds R Exec.fetch Exec.fetch := by
  refine h.inspect (fun _ => rfl) fun cpu => ?_
  refine (h.readWord cpu.pc).bind fun value => ?_
  exact (h.skip 1).seq (.pure value)

theorem contextSwitch (vector : UInt16) :
    Corresponds R (Exec.contextSwitch vector) (Exec.contextSwitch vector) := by
  refine (h.readWord vector).bind fun wp => ?_
  refine (h.readWord (vector + 2)).bind fun pc => ?_
  refine h.inspect (fun _ => rfl) fun old => ?_
  refine (h.setWp wp).seq ?_
  refine (h.writeRegister 13 old.wp).seq ?_
  refine (h.writeRegister 14 old.pc).seq ?_
  refine (h.writeRegister 15 old.st).seq ?_
  exact h.setPc pc

theorem cruBase : Corresponds R Exec.cruBase Exec.cruBase :=
  (h.readRegister 12).bind fun _ => .pure _

theorem operandAddress (operand : Operand) (width : Width) :
    Corresponds R (Exec.operandAddress operand width) (Exec.operandAddress operand width) := by
  unfold Exec.operandAddress
  cases operand.mode with
  | register => exact h.inspect (fun _ => rfl) fun _ => .pure _
  | indirect => exact h.readRegister operand.register
  | indexed =>
      refine h.fetch.bind fun base => ?_
      refine .ite (.pure base) ?_
      exact (h.readRegister operand.register).bind fun _ => .pure _
  | autoIncrement =>
      refine (h.readRegister operand.register).bind fun address => ?_
      exact (h.writeRegister operand.register _).seq (.pure address)

theorem resolve (operand : Operand) (width : Width) :
    Corresponds R (Exec.resolve operand width) (Exec.resolve operand width) := by
  refine h.inspect (fun _ => rfl) fun cpu => ?_
  exact (h.operandAddress operand width).bind fun _ => .pure _

theorem sourceWord (opcode : UInt16) :
    Corresponds R (Exec.sourceWord opcode) (Exec.sourceWord opcode) := by
  refine (h.resolve (.source opcode) .word).bind ?_
  rintro ⟨address, cycles⟩
  exact (h.readWord address).bind fun _ => .pure _

theorem readDestination (operation : DualOperation) (address : UInt16) (width : Width) :
    Corresponds R (Exec.readDestination operation address width)
      (Exec.readDestination operation address width) :=
  .ite ((h.dummyRead address width).seq (.pure 0)) (h.readOperand address width)

theorem dual {operation : DualOperation} {width : Width} {opcode : UInt16}
    (e : RespectsEffects R opcode (.dual operation width)) :
    Corresponds R (Exec.dual opcode operation width) (Exec.dual opcode operation width) := by
  refine (h.resolve (.source opcode) width).bind ?_
  rintro ⟨sourceAddress, sourceCycles⟩
  refine (h.readOperand sourceAddress width).bind fun s => ?_
  refine (h.resolve (.destination opcode) width).bind ?_
  rintro ⟨address, cycles⟩
  refine (h.readDestination operation address width).bind fun d => ?_
  refine (e.combine s d).bind ?_
  rintro (_ | value)
  · exact .pure _
  · exact (h.writeOperand address width value).seq (.pure _)

theorem bitwise {operation : BitwiseOperation} {opcode : UInt16}
    (e : RespectsEffects R opcode (.bitwise operation)) :
    Corresponds R (Exec.bitwise opcode operation) (Exec.bitwise opcode operation) := by
  refine (h.sourceWord opcode).bind ?_
  rintro ⟨s, cycles⟩
  refine (h.readRegister (registerField opcode)).bind fun d => ?_
  cases operation with
  | coc =>
      have hflags : RespectsFlags R Status.equal := e.flags nofun
      exact (hflags _ (.withBit (by decide) _)).seq (.pure _)
  | czc =>
      have hflags : RespectsFlags R Status.equal := e.flags nofun
      exact (hflags _ (.withBit (by decide) _)).seq (.pure _)
  | xor =>
      have hflags : RespectsFlags R Status.comparison := e.flags nofun
      refine (hflags _ (.compareZero (by decide) _ .word)).seq ?_
      exact (h.writeRegister (registerField opcode) _).seq (.pure _)

theorem writeBits (count : Nat) (value base : UInt16) :
    Corresponds R (Exec.writeBits value count base) (Exec.writeBits value count base) := by
  induction count generalizing value base with
  | zero => exact .pure ()
  | succ count ih => exact (h.cruWrite base _).seq (ih _ _)

theorem readBits (count : Nat) (base bit : UInt16) :
    Corresponds R (Exec.readBits count base bit) (Exec.readBits count base bit) := by
  induction count generalizing base bit with
  | zero => exact .pure 0
  | succ count ih =>
      refine (h.cruRead base).bind fun set => ?_
      refine (ih (base + 1) (bit <<< 1)).bind fun rest => ?_
      cases set with
      | false => exact .pure rest
      | true => exact .pure (rest ||| bit)

theorem ldcr {opcode : UInt16} (e : RespectsEffects R opcode .ldcr) :
    Corresponds R (Exec.ldcr opcode) (Exec.ldcr opcode) := by
  refine (h.resolve (.source opcode) (cruWidth (cruCount opcode))).bind ?_
  rintro ⟨address, cycles⟩
  refine (h.readOperand address _).bind fun value => ?_
  refine (e.flags nofun _ (.result value _)).seq ?_
  refine h.cruBase.bind fun base => ?_
  refine (h.writeBits (cruCount opcode) value base).seq ?_
  exact h.inspect (fun _ => rfl) fun _ => .pure _

theorem stcr {opcode : UInt16} (e : RespectsEffects R opcode .stcr) :
    Corresponds R (Exec.stcr opcode) (Exec.stcr opcode) := by
  refine (h.resolve (.source opcode) (cruWidth (cruCount opcode))).bind ?_
  rintro ⟨address, cycles⟩
  refine h.cruBase.bind fun base => ?_
  refine (h.readBits (cruCount opcode) base 1).bind fun value => ?_
  refine (e.flags nofun _ (.result value _)).seq ?_
  refine (h.writeOperand address _ value).seq ?_
  exact h.inspect (fun _ => rfl) fun _ => .pure _

theorem mpy (opcode : UInt16) : Corresponds R (Exec.mpy opcode) (Exec.mpy opcode) := by
  refine (h.sourceWord opcode).bind ?_
  rintro ⟨s, cycles⟩
  refine (h.readRegister (registerField opcode)).bind fun d => ?_
  refine (h.writeRegister _ _).seq ?_
  exact (h.writeRegister _ _).seq (.pure _)

theorem div {opcode : UInt16} (e : RespectsEffects R opcode .div) :
    Corresponds R (Exec.div opcode) (Exec.div opcode) := by
  have hflags : RespectsFlags R Status.overflow := e.flags nofun
  refine (h.sourceWord opcode).bind ?_
  rintro ⟨divisor, cycles⟩
  refine (h.readRegister (registerField opcode)).bind fun hi => ?_
  refine .iteOf (fun _ => (e.setOverflow rfl hflags (by decide)).seq (.pure _)) fun hfits => ?_
  refine (h.readRegister (registerField opcode + 1)).bind fun lo => ?_
  refine (Exec.corresponds_require_of_some (Division.unsigned?_eq hfits) _).bind fun division => ?_
  refine (h.writeRegister _ _).seq ?_
  refine (h.writeRegister _ _).seq ?_
  refine (hflags _ (.andNot (by decide))).seq ?_
  exact h.inspect (fun _ => rfl) fun _ => .pure _

theorem mpys {opcode : UInt16} (e : RespectsEffects R opcode .mpys) :
    Corresponds R (Exec.mpys opcode) (Exec.mpys opcode) := by
  have hflags : RespectsFlags R Status.comparison := e.flags nofun
  refine (h.sourceWord opcode).bind ?_
  rintro ⟨s, cycles⟩
  refine (h.readRegister 0).bind fun d => ?_
  refine (h.writeRegister 0 _).seq ?_
  refine (h.writeRegister 1 _).seq ?_
  exact (hflags _ (.compareSigned (by decide) _)).seq (.pure _)

theorem divs {opcode : UInt16} (e : RespectsEffects R opcode .divs) :
    Corresponds R (Exec.divs opcode) (Exec.divs opcode) := by
  have hflags : RespectsFlags R (Status.comparison ||| Status.overflow) := e.flags nofun
  refine (h.sourceWord opcode).bind ?_
  rintro ⟨divisor, cycles⟩
  refine (h.readRegister 0).bind fun hi => ?_
  refine (h.readRegister 1).bind fun lo => ?_
  cases hquotient : Division.signedQuotient? hi lo divisor with
  | none => exact (e.setOverflow rfl hflags (by decide)).seq (.pure _)
  | some quotient =>
      have hdivision := Division.signedRemainder?_eq hquotient
      refine (Exec.corresponds_require_of_some hdivision 0).bind fun _ => ?_
      refine (h.writeRegister 0 _).seq ?_
      refine (h.writeRegister 1 _).seq ?_
      refine (hflags _ ?_).seq ?_
      · exact .comp (.andNot (by decide)) (.compareSigned (by decide) quotient)
      exact h.inspect (fun _ => rfl) fun _ => .pure _

theorem cruBit {operation : CruBitOperation} {opcode : UInt16}
    (e : RespectsEffects R opcode (.cruBit operation)) :
    Corresponds R (Exec.cruBit opcode operation) (Exec.cruBit opcode operation) := by
  refine h.cruBase.bind fun base => ?_
  cases operation with
  | sbo => exact h.cruWrite _ true
  | sbz => exact h.cruWrite _ false
  | tb =>
      have hflags : RespectsFlags R Status.equal := e.flags nofun
      refine (h.cruRead _).bind fun value => ?_
      exact hflags _ (.withBit (by decide) value)

theorem shiftCount (opcode : UInt16) :
    Corresponds R (Exec.shiftCount opcode) (Exec.shiftCount opcode) := by
  refine .ite ?_ (.pure _)
  refine (h.readRegister 0).bind fun count => ?_
  exact h.inspect (fun _ => rfl) fun _ => .pure _

theorem shift {operation : ShiftOperation} {opcode : UInt16}
    (e : RespectsEffects R opcode (.shift operation)) :
    Corresponds R (Exec.shift opcode operation) (Exec.shift opcode operation) := by
  have hstatus (shifted : Shifted) : Status.Changes
      ((Instruction.shift operation).statusBits (cruWidth (cruCount opcode))) fun st =>
        Word.withBit (Status.compareZero st shifted.value .word) Status.carry shifted.carry := by
    generalize cruWidth (cruCount opcode) = transfer
    refine .comp (.withBit ?_ _) (.compareZero ?_ _ .word)
    · cases transfer <;> cases operation <;> decide
    · cases transfer <;> cases operation <;> decide
  refine (h.shiftCount opcode).bind ?_
  rintro ⟨count, cycles⟩
  refine (h.readRegister (opcode &&& 0xF)).bind fun value => ?_
  have hcost : ∀ extra : Nat, Corresponds R
      (Exec.cpu >>= fun cpu => pure (extra + cpu.timing.shiftPerBit.toNat * count))
      (Exec.cpu >>= fun cpu => pure (extra + cpu.timing.shiftPerBit.toNat * count)) :=
    fun extra => h.inspect (fun _ => rfl) fun _ => .pure _
  refine (h.writeRegister (opcode &&& 0xF) _).seq ?_
  refine (e.flags nofun _ (hstatus _)).seq ?_
  refine .iteOf (fun hsla => ?_) fun _ => hcost cycles
  subst hsla
  have hflags : RespectsFlags R (Status.arithmeticBits .word) := e.flags nofun
  refine (hflags _ (.withBit (by decide) _)).seq ?_
  exact .ite ((e.trap rfl).seq (hcost cycles)) (hcost cycles)

theorem increase {operation : SingleOperation} {opcode : UInt16}
    (e : RespectsEffects R opcode (.single operation))
    (hoverflow : (Instruction.single operation).canOverflow = true)
    (hflags : RespectsFlags R (Status.arithmeticBits .word))
    (address step : UInt16) :
    Corresponds R (Exec.increase address step) (Exec.increase address step) := by
  refine (h.readWord address).bind fun v => ?_
  exact (e.setArithmetic hoverflow hflags _ _).seq (h.writeWord address _)

theorem decrease {operation : SingleOperation} {opcode : UInt16}
    (e : RespectsEffects R opcode (.single operation))
    (hoverflow : (Instruction.single operation).canOverflow = true)
    (hflags : RespectsFlags R (Status.arithmeticBits .word))
    (address step : UInt16) :
    Corresponds R (Exec.decrease address step) (Exec.decrease address step) := by
  refine (h.readWord address).bind fun v => ?_
  exact (e.setArithmetic hoverflow hflags _ _).seq (h.writeWord address _)

theorem abs {opcode : UInt16} (e : RespectsEffects R opcode (.single .abs)) (address : UInt16) :
    Corresponds R (Exec.abs address) (Exec.abs address) := by
  have hflags : RespectsFlags R (Status.arithmeticBits .word) := e.flags nofun
  refine (h.readWord address).bind fun v => ?_
  have hcost : Corresponds R (Exec.cpu >>= fun cpu => pure cpu.timing.absNegative.toNat)
      (Exec.cpu >>= fun cpu => pure cpu.timing.absNegative.toNat) :=
    h.inspect (fun _ => rfl) fun _ => .pure _
  refine (hflags _ ?_).seq ?_
  · exact .comp (.withBit (by decide) _)
      (.comp (.andNot (by decide)) (.compareZero (by decide) v .word))
  refine .ite (.pure 0) ?_
  refine (h.writeWord address _).seq ?_
  exact .ite ((e.trap rfl).seq hcost) hcost

theorem immediate {operation : ImmediateOperation} {opcode : UInt16}
    (e : RespectsEffects R opcode (.immediate operation)) :
    Corresponds R (Exec.immediate opcode operation) (Exec.immediate opcode operation) := by
  have hcompare (hai : operation ≠ .ai) : RespectsFlags R Status.comparison := by
    have hflags := e.flags nofun
    cases operation with
    | ai => exact absurd rfl hai
    | li | andi | ori | ci => exact hflags
  refine h.fetch.bind fun operand => ?_
  cases operation with
  | li =>
      refine (hcompare nofun _ (.compareZero (by decide) operand .word)).seq ?_
      exact h.writeRegister _ operand
  | ai =>
      refine (h.readRegister _).bind fun v => ?_
      exact (e.setArithmetic rfl (e.flags nofun) _ _).seq (h.writeRegister _ _)
  | andi =>
      refine (h.readRegister _).bind fun v => ?_
      exact (hcompare nofun _ (.compareZero (by decide) _ .word)).seq (h.writeRegister _ _)
  | ori =>
      refine (h.readRegister _).bind fun v => ?_
      exact (hcompare nofun _ (.compareZero (by decide) _ .word)).seq (h.writeRegister _ _)
  | ci =>
      refine (h.readRegister _).bind fun v => ?_
      exact hcompare nofun _ (.compare (by decide) v operand .word)

theorem jump (opcode : UInt16) (condition : JumpCondition) :
    Corresponds R (Exec.jump opcode condition) (Exec.jump opcode condition) := by
  refine h.inspect (fun _ => rfl) fun cpu => ?_
  exact .ite ((h.skip _).seq (.pure _)) (.pure 0)

theorem illegal (htrap : Corresponds R (Exec.modifyCpu Cpu.illegalTrap)
    (Exec.modifyCpu Cpu.illegalTrap)) : Corresponds R Exec.illegal Exec.illegal := by
  refine h.inspect (fun _ => rfl) fun cpu => ?_
  cases cpu.config.illegal with
  | ignore cycles => exact .pure _
  | trap => exact htrap.seq (.pure _)

theorem xop {opcode : UInt16} (e : RespectsEffects R opcode .xop) :
    Corresponds R (Exec.xop opcode) (Exec.xop opcode) := by
  have hflags : RespectsFlags R Status.extended := e.flags nofun
  refine (h.resolve (.source opcode) .word).bind ?_
  rintro ⟨address, cycles⟩
  refine (h.contextSwitch _).seq ?_
  refine (h.writeRegister 11 address).seq ?_
  refine (hflags _ (.or (by decide))).seq ?_
  exact (e.hold (.inl rfl)).seq (.pure cycles)

theorem singleAt {operation : SingleOperation} {opcode : UInt16}
    (e : RespectsEffects R opcode (.single operation)) (address : UInt16) :
    Corresponds R (Exec.singleAt operation address) (Exec.singleAt operation address) := by
  cases operation with
  | blwp => exact (h.contextSwitch address).seq ((e.hold (.inr rfl)).seq (.pure 0))
  | b => exact (h.setPc address).seq (.pure 0)
  | bl =>
      refine h.inspect (fun _ => rfl) fun cpu => ?_
      exact (h.writeRegister 11 cpu.pc).seq ((h.setPc address).seq (.pure 0))
  | clr => exact (h.writeWord address 0).seq (.pure 0)
  | seto => exact (h.writeWord address 0xFFFF).seq (.pure 0)
  | swpb =>
      refine (h.readWord address).bind fun v => ?_
      exact (h.writeWord address _).seq (.pure 0)
  | inv =>
      have hflags : RespectsFlags R Status.comparison := e.flags nofun
      refine (h.readWord address).bind fun v => ?_
      refine (hflags _ (.compareZero (by decide) _ .word)).seq ?_
      exact (h.writeWord address _).seq (.pure 0)
  | neg =>
      refine (h.readWord address).bind fun v => ?_
      exact (e.setArithmetic rfl (e.flags nofun) _ _).seq ((h.writeWord address _).seq (.pure 0))
  | inc => exact (h.increase e rfl (e.flags nofun) address 1).seq (.pure 0)
  | inct => exact (h.increase e rfl (e.flags nofun) address 2).seq (.pure 0)
  | dec => exact (h.decrease e rfl (e.flags nofun) address 1).seq (.pure 0)
  | dect => exact (h.decrease e rfl (e.flags nofun) address 2).seq (.pure 0)
  | abs => exact h.abs e address

theorem single {operation : SingleOperation} {opcode : UInt16}
    (e : RespectsEffects R opcode (.single operation)) :
    Corresponds R (Exec.single opcode operation) (Exec.single opcode operation) := by
  refine (h.resolve (.source opcode) .word).bind ?_
  rintro ⟨address, cycles⟩
  exact (h.singleAt e address).bind fun _ => .pure _

theorem rtwp {opcode : UInt16} (e : RespectsEffects R opcode .rtwp) :
    Corresponds R Exec.rtwp Exec.rtwp := by
  refine (h.readRegister 13).bind fun wp => ?_
  refine (h.readRegister 14).bind fun pc => ?_
  refine (h.readRegister 15).bind fun st => ?_
  exact (e.load (.inl rfl) st).seq ((h.setPc pc).seq (h.setWp wp))

theorem perform {instruction : Instruction} {opcode : UInt16}
    (e : RespectsEffects R opcode instruction) :
    Corresponds R (Exec.perform opcode instruction) (Exec.perform opcode instruction) := by
  cases instruction with
  | dual operation width => exact h.dual e
  | bitwise operation => exact h.bitwise e
  | xop => exact h.xop e
  | ldcr => exact h.ldcr e
  | stcr => exact h.stcr e
  | mpy => exact h.mpy opcode
  | div => exact h.div e
  | jump condition => exact h.jump opcode condition
  | cruBit operation => exact (h.cruBit e).seq (.pure 0)
  | shift operation => exact h.shift e
  | single operation => exact h.single e
  | immediate operation => exact (h.immediate e).seq (.pure 0)
  | stwp =>
      refine h.inspect (fun _ => rfl) fun cpu => ?_
      exact (h.writeRegister _ cpu.wp).seq (.pure 0)
  | stst =>
      refine h.inspect (fun _ => rfl) fun cpu => ?_
      exact (h.writeRegister _ cpu.st).seq (.pure 0)
  | lwpi =>
      refine h.fetch.bind fun wp => ?_
      exact (h.setWp wp).seq (.pure 0)
  | limi =>
      refine h.fetch.bind fun level => ?_
      refine (e.flags nofun _ (.withMask ?_)).seq (.pure 0)
      rw [UInt16.and_assoc]
      exact UInt16.and_zero
  | idle => exact (e.idle rfl).seq (.pure 0)
  | rset => exact (e.clearMask rfl).seq (.pure 0)
  | rtwp => exact (h.rtwp e).seq (.pure 0)
  | lst =>
      refine (h.readRegister _).bind fun st => ?_
      exact (e.load (.inr rfl) st).seq (.pure 0)
  | lwp =>
      refine (h.readRegister _).bind fun wp => ?_
      exact (h.setWp wp).seq (.pure 0)
  | divs => exact h.divs e
  | mpys => exact h.mpys e
  | ckon | ckof | lrex | x => exact .pure 0

theorem conclude {last : ChainEnd}
    (htrap : last.instruction = none →
      Corresponds R (Exec.modifyCpu Cpu.illegalTrap) (Exec.modifyCpu Cpu.illegalTrap))
    (e : ∀ instruction ∈ last.instruction, RespectsEffects R last.opcode instruction) :
    Corresponds R (Exec.conclude last) (Exec.conclude last) := by
  refine h.inspect (fun _ => rfl) fun cpu => ?_
  obtain ⟨opcode, found, cycles⟩ := last
  dsimp only at *
  split
  · exact h.illegal (htrap rfl)
  · exact .pure 0
  · exact (h.perform (e _ rfl)).bind fun _ => .pure _

theorem chase (depth : Nat) (opcode : UInt16) :
    Corresponds R (Exec.chase depth opcode) (Exec.chase depth opcode) := by
  rw [Exec.chase.eq_def, Exec.chase.eq_def]
  refine h.inspect (fun _ => rfl) fun cpu => ?_
  dsimp only
  split
  · exact .pure _
  · refine (h.sourceWord opcode).bind fun source => ?_
    cases depth with
    | zero => exact .pure _
    | succ depth => exact (chase depth source.1).bind fun _ => .pure _
  · exact .pure _
termination_by depth

end OperandSimulation

namespace FlagSimulation

variable (h : FlagSimulation R)

include h

theorem illegal : Corresponds R Exec.illegal Exec.illegal :=
  h.toOperandSimulation.illegal h.illegalTrap

theorem effects {instruction : Instruction}
    (hhold : instruction.HoldsInterrupts → Corresponds R Exec.holdInterrupts Exec.holdInterrupts)
    (hidle : instruction = .idle → Corresponds R (Exec.setIdle true) (Exec.setIdle true))
    (hload : instruction.LoadsMask → Simulation R)
    (opcode : UInt16) : RespectsEffects R opcode instruction where
  flags hreset change hchange := by
    by_cases hloads : instruction.LoadsMask
    · refine (hload hloads).modifySt (hchange.keepsReserved ?_)
      rcases hloads with rfl | rfl | rfl
      · exact (by decide : Status.mask &&& Status.reserved = 0)
      · exact (by decide : 0 &&& Status.reserved = 0)
      · exact (by decide : 0 &&& Status.reserved = 0)
    · exact h.setFlags (hchange.keepsControl (Instruction.statusBits_and_control hloads hreset _))
  clearMask _ := h.clearMask
  trap _ := h.overflowTrap
  hold := hhold
  idle := hidle
  load hloads := (hload hloads.loadsMask).setSt

theorem conclude {last : ChainEnd}
    (hhold : ∀ instruction ∈ last.instruction, instruction.HoldsInterrupts →
      Corresponds R Exec.holdInterrupts Exec.holdInterrupts)
    (hidle : last.instruction = some .idle →
      Corresponds R (Exec.setIdle true) (Exec.setIdle true))
    (hload : ∀ instruction ∈ last.instruction, instruction.LoadsMask → Simulation R) :
    Corresponds R (Exec.conclude last) (Exec.conclude last) := by
  refine h.toOperandSimulation.conclude (fun _ => h.illegalTrap) fun instruction hlast => ?_
  refine h.effects (hhold _ hlast) (fun hidles => hidle ?_) (hload _ hlast) last.opcode
  rw [← hidles]
  exact hlast

end FlagSimulation

namespace Simulation

variable (h : Simulation R)

include h

theorem perform {instruction : Instruction}
    (hhold : instruction.HoldsInterrupts → Corresponds R Exec.holdInterrupts Exec.holdInterrupts)
    (hidle : instruction = .idle → Corresponds R (Exec.setIdle true) (Exec.setIdle true))
    (opcode : UInt16) :
    Corresponds R (Exec.perform opcode instruction) (Exec.perform opcode instruction) :=
  h.toOperandSimulation.perform (h.effects hhold hidle (fun _ => h) opcode)

theorem executeOpcode (hhold : Corresponds R Exec.holdInterrupts Exec.holdInterrupts)
    (hidle : Corresponds R (Exec.setIdle true) (Exec.setIdle true)) (depth : Nat)
    (opcode : UInt16) :
    Corresponds R (Exec.executeOpcode depth opcode) (Exec.executeOpcode depth opcode) := by
  rw [Exec.executeOpcode_eq, Exec.executeOpcode_eq]
  refine (h.chase depth opcode).bind fun last => ?_
  exact (h.conclude (fun _ _ _ => hhold) (fun _ => hidle) fun _ _ _ => h).bind fun _ => .pure _

theorem execute (hhold : Corresponds R Exec.holdInterrupts Exec.holdInterrupts)
    (hidle : Corresponds R (Exec.setIdle true) (Exec.setIdle true)) :
    Corresponds R Exec.execute Exec.execute :=
  h.fetch.bind fun opcode => h.executeOpcode hhold hidle _ opcode

end Simulation

end TmsCores.Tms9900
