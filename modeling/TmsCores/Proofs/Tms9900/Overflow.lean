import TmsCores.Proofs.Interrupt.Latch
import TmsCores.Proofs.Tms9900.Computation
import TmsCores.Proofs.Tms9900.Eligibility
import TmsCores.Proofs.Tms9900.StatusFrame

namespace TmsCores.Tms9900

namespace Cpu

/-- What the status register and the latch of the internal interrupt show. -/
def Shows (config : Config) (Q : UInt16 → Bool → Prop) (cpu : Cpu) : Prop :=
  cpu.IsConsistent config ∧ Q cpu.st (cpu.interrupts.isLatched internalLine)

theorem isLatched_internalLine_setInternalBit? {cpu changed : Cpu} {bit : UInt16} {value : Bool}
    (h : cpu.setInternalBit? bit value = some changed) :
    changed.interrupts.isLatched internalLine = cpu.interrupts.isLatched internalLine := by
  have hother {number : UInt16} {line : UInt8} (hline : latchLine? number = some line) :
      line ≠ internalLine := by
    unfold latchLine? at hline
    split at hline
    · exact Option.some.inj hline ▸ by decide
    · split at hline
      · exact Option.some.inj hline ▸ by decide
      · split at hline
        · exact Option.some.inj hline ▸ by decide
        · exact absurd hline nofun
  unfold setInternalBit? at h
  split at h
  · exact absurd h nofun
  · split at h
    · obtain rfl := Option.some.inj h
      rfl
    · obtain ⟨number, _, rfl⟩ := Option.map_eq_some_iff.mp h
      dsimp only
      split
      · next line hline =>
          rw [setLatch, InterruptController.setLatch, InterruptController.isLatched_modifyLine,
            if_neg (hother hline)]
      · rfl

theorem accessStable_of_st_internalLine (Q : UInt16 → Bool → Prop) :
    AccessStable fun cpu => Q cpu.st (cpu.interrupts.isLatched internalLine) where
  setByte h _ _ := h
  setDecrementer h _ := h
  setInternalBit h hchanged := by
    have hst := eq_of_core (·.st) (fun _ => rfl) (core_of_setInternalBit? hchanged)
    rw [hst, isLatched_internalLine_setInternalBit? hchanged]
    exact h
  skip h _ := h
  setPc h _ := h
  setWp h _ := h

theorem shows_accessStable (config : Config) (Q : UInt16 → Bool → Prop) :
    AccessStable (Shows config Q) :=
  (isConsistent_hostStable config).toAccessStable.and (accessStable_of_st_internalLine Q)

end Cpu

/-- The interrupt for overflows is as it was before the instruction. -/
def Unsettled (enabled latched : Bool) (st : UInt16) (latch : Bool) : Prop :=
  Status.has st Status.overflowInterrupt = enabled ∧ latch = latched

/-- The status register tells whether the result fits, but no interrupt has been requested yet. -/
def Settling (overflows : Prop) (enabled latched : Bool) (st : UInt16) (latch : Bool) : Prop :=
  (Status.has st Status.overflow = true ↔ overflows) ∧ Unsettled enabled latched st latch

/-- The status register tells whether the result fits, and an interrupt has been requested if it
does not and overflows are to interrupt. -/
def Settled (config : Config) (overflows : Prop) (enabled latched : Bool) (st : UInt16)
    (latch : Bool) : Prop :=
  (Status.has st Status.overflow = true ↔ overflows) ∧
    ((config.onChip = true → 2 ≤ config.levels) →
      (latch = true ↔ latched = true ∨ config.onChip = true ∧ enabled = true ∧ overflows))

namespace Exec

variable {β : Type} {config : Config} {enabled latched : Bool} {overflows : Prop}

theorem modifySt_unsettled {change : UInt16 → UInt16} (hchange : Status.KeepsControl change) :
    Keeps (Machine.Has (Cpu.Shows config (Unsettled enabled latched)) : Machine β → Prop)
      (modifySt change) := by
  rintro machine ⟨hconsistent, henabled, hlatch⟩
  have hkept : change machine.cpu.st &&& Status.overflowInterrupt =
      machine.cpu.st &&& Status.overflowInterrupt := by
    have hcontrol : Status.control &&& Status.overflowInterrupt = Status.overflowInterrupt := by
      decide
    rw [← hcontrol, ← UInt16.and_assoc, hchange, UInt16.and_assoc]
  refine ⟨hconsistent.modifySt hchange.keepsReserved, ?_, hlatch⟩
  exact (congrArg (· != 0) hkept).trans henabled

theorem modifySt_settling {change : UInt16 → UInt16} (hchange : Status.KeepsControl change)
    (hoverflow : ∀ st, Status.has (change st) Status.overflow = true ↔ overflows) :
    Leads (Machine.Has (Cpu.Shows config (Unsettled enabled latched)))
      (Machine.Has (Cpu.Shows config (Settling overflows enabled latched)) : Machine β → Prop)
      (modifySt change) := by
  intro machine hmachine
  obtain ⟨hconsistent, hunsettled⟩ := modifySt_unsettled hchange machine hmachine
  exact ⟨hconsistent, hoverflow machine.cpu.st, hunsettled⟩

theorem settled_of_not (h : ¬overflows) {cpu : Cpu}
    (hcpu : cpu.Shows config (Settling overflows enabled latched)) :
    cpu.Shows config (Settled config overflows enabled latched) := by
  obtain ⟨hconsistent, hoverflow, _, hlatch⟩ := hcpu
  refine ⟨hconsistent, hoverflow, fun _ => ?_⟩
  rw [hlatch]
  exact (or_iff_left fun hall => h hall.2.2).symm

theorem overflowTrap_settled (h : overflows) :
    Leads (Machine.Has (Cpu.Shows config (Settling overflows enabled latched)))
      (Machine.Has (Cpu.Shows config (Settled config overflows enabled latched)) :
        Machine β → Prop) (modifyCpu Cpu.overflowTrap) := by
  rintro machine ⟨hconsistent, hoverflow, henabled, hlatch⟩
  change machine.cpu.overflowTrap.Shows config (Settled config overflows enabled latched)
  refine ⟨hconsistent.overflowTrap, ?_, fun hlevels => ?_⟩
  · rw [Cpu.st_overflowTrap]
    exact hoverflow
  · rw [Cpu.overflowTrap, henabled, hconsistent.config_eq]
    split
    · next htrap =>
        obtain ⟨hchip, henabled⟩ := Bool.and_eq_true_iff.mp htrap
        have hline : internalLine.toNat ≤ config.levels.toNat :=
          UInt8.le_iff_toNat_le.mp (hlevels hchip)
        obtain ⟨line, hline⟩ := hconsistent.exists_line? hline
        exact iff_of_true (InterruptController.isLatched_setLatch_self hline)
          (.inr ⟨hchip, henabled, h⟩)
    · next htrap =>
        rw [hlatch]
        refine (or_iff_left fun hall => htrap ?_).symm
        rw [hall.1, hall.2.1]
        rfl

theorem trapIf_settled {set : Bool} (hset : set = true ↔ overflows) :
    Leads (Machine.Has (Cpu.Shows config (Settling overflows enabled latched)))
      (Machine.Has (Cpu.Shows config (Settled config overflows enabled latched)) :
        Machine β → Prop) (if set then modifyCpu Cpu.overflowTrap else pure ()) := by
  split
  · next h => exact overflowTrap_settled (hset.mp h)
  · next h => exact fun _ hmachine => settled_of_not (mt hset.mpr h) hmachine

theorem setArithmetic_settled {flags : FlagSet} (hflags : flags.overflow = true ↔ overflows)
    (result : UInt16) (width : Width) :
    Leads (Machine.Has (Cpu.Shows config (Unsettled enabled latched)))
      (Machine.Has (Cpu.Shows config (Settled config overflows enabled latched)) :
        Machine β → Prop) (setArithmetic result flags width) := by
  have hchange := (Status.Changes.arithmetic result flags width).keepsControl (by
    cases width <;> decide)
  refine (modifySt_settling hchange fun st => ?_).bind fun _ => trapIf_settled hflags
  rw [Status.arithmetic, Status.has_withBit (by decide)]
  exact hflags

theorem setOverflow_settled (h : overflows) :
    Leads (Machine.Has (Cpu.Shows config (Unsettled enabled latched)))
      (Machine.Has (Cpu.Shows config (Settled config overflows enabled latched)) :
        Machine β → Prop) setOverflow := by
  have hchange : Status.Changes Status.overflow (· ||| Status.overflow) := .or (by decide)
  refine (modifySt_settling (hchange.keepsControl (by decide)) fun st => ?_).bind fun _ =>
    overflowTrap_settled h
  exact iff_of_true (Status.has_withBit (by decide) st true) h

end Exec

variable {α β : Type} [Bus β]

namespace Exec

def dualOperands (opcode : UInt16) (operation : DualOperation) (width : Width) :
    Exec β (UInt16 × UInt16) := do
  let source ← resolve (.source opcode) width
  let s ← readOperand source.1 width
  let destination ← resolve (.destination opcode) width
  let d ← readDestination operation destination.1 width
  return (d, s)

def singleOperand (opcode : UInt16) : Exec β UInt16 := do
  let source ← resolve (.source opcode) .word
  readWord source.1

/-- What an instruction computes, if its result may not fit.  The operands are read as the
instruction reads them. -/
def computation (opcode : UInt16) : Instruction → Option (Exec β Computation)
  | .dual .a width => some do
      let operands ← dualOperands opcode .a width
      return .sum width operands.1 operands.2
  | .dual .s width => some do
      let operands ← dualOperands opcode .s width
      return .difference width operands.1 operands.2
  | .immediate .ai => some do
      let operand ← fetch
      let v ← readRegister (opcode &&& 0xF)
      return .sum .word v operand
  | .single .inc => some (return .sum .word (← singleOperand opcode) 1)
  | .single .inct => some (return .sum .word (← singleOperand opcode) 2)
  | .single .dec => some (return .difference .word (← singleOperand opcode) 1)
  | .single .dect => some (return .difference .word (← singleOperand opcode) 2)
  | .single .neg => some (return .difference .word 0 (← singleOperand opcode))
  | .single .abs => some (return .absolute (← singleOperand opcode))
  | .shift .sla => some do
      let count ← shiftCount opcode
      let value ← readRegister (opcode &&& 0xF)
      return .shiftLeft value count.1
  | .div => some do
      let source ← sourceWord opcode
      let hi ← readRegister (registerField opcode)
      let lo ← readRegister (registerField opcode + 1)
      return .quotient hi lo source.1
  | .divs => some do
      let source ← sourceWord opcode
      let hi ← readRegister 0
      let lo ← readRegister 1
      return .signedQuotient hi lo source.1
  | _ => none

theorem computation_isSome (opcode : UInt16) (instruction : Instruction) :
    (computation (β := β) opcode instruction).isSome = instruction.canOverflow := by
  cases instruction with
  | dual operation width => cases operation <;> rfl
  | shift operation | single operation | immediate operation => cases operation <;> rfl
  | _ => rfl

/-- What an instruction computes tells how it leaves the status register, and whether it requests an
interrupt. -/
def Settles (config : Config) (enabled latched : Bool) (find : Exec β Computation)
    (x : Exec β α) : Prop :=
  Foretells (Machine.Has (Cpu.Shows config (Unsettled enabled latched)))
    (fun computation => Machine.Has
      (Cpu.Shows config (Settled config computation.Overflows enabled latched))) find x

variable {config : Config} {enabled latched : Bool}

theorem unsettled_operands : OperandSimulation
    (SameWith (Machine.Has (Cpu.Shows config (Unsettled enabled latched)) : Machine β → Prop)) :=
  (Cpu.shows_accessStable config _).machine.transfers.operands

theorem settling_operands {overflows : Prop} : OperandSimulation (SameWith
    (Machine.Has (Cpu.Shows config (Settling overflows enabled latched)) : Machine β → Prop)) :=
  (Cpu.shows_accessStable config _).machine.transfers.operands

theorem settled_operands (overflows : Prop) : OperandSimulation (SameWith
    (Machine.Has (Cpu.Shows config (Settled config overflows enabled latched)) :
      Machine β → Prop)) :=
  (Cpu.shows_accessStable config _).machine.transfers.operands

theorem dual_settles {operation : DualOperation} {width : Width}
    {computation : UInt16 → UInt16 → Computation}
    (hcombine : ∀ s d, Leads (Machine.Has (Cpu.Shows config (Unsettled enabled latched)))
      (Machine.Has (Cpu.Shows config
        (Settled config (computation d s).Overflows enabled latched)) : Machine β → Prop)
      (combine operation width s d)) (opcode : UInt16) :
    Settles (β := β) config enabled latched (do
      let operands ← dualOperands opcode operation width
      return computation operands.1 operands.2) (dual opcode operation width) := by
  simp only [dualOperands, bind_assoc, pure_bind]
  refine .bind (corresponds_self_iff.mp (unsettled_operands.resolve _ width)) fun source => ?_
  refine .bind (corresponds_self_iff.mp (unsettled_operands.readOperand _ width)) fun s => ?_
  refine .bind (corresponds_self_iff.mp (unsettled_operands.resolve _ width)) fun target => ?_
  refine .bind (corresponds_self_iff.mp (unsettled_operands.readDestination _ _ width)) fun d => ?_
  refine .pure ((hcombine s d).bind fun result => ?_)
  cases result with
  | none => exact Keeps.pure _
  | some value =>
      exact (corresponds_self_iff.mp ((settled_operands _).writeOperand _ width value)).seq
        (Keeps.pure _)

theorem single_settles {operation : SingleOperation} {computation : UInt16 → Computation}
    (hat : ∀ address, Settles (β := β) config enabled latched
      (return computation (← readWord address)) (singleAt operation address)) (opcode : UInt16) :
    Settles (β := β) config enabled latched (return computation (← singleOperand opcode))
      (single opcode operation) := by
  simp only [singleOperand, bind_assoc]
  refine .bind (corresponds_self_iff.mp (unsettled_operands.resolve _ .word)) fun source => ?_
  exact (hat source.1).andThen fun _ _ => Keeps.pure _

theorem increase_settles (address step : UInt16) :
    Settles (β := β) config enabled latched (return .sum .word (← readWord address) step)
      (increase address step) := by
  refine .bind (corresponds_self_iff.mp (unsettled_operands.readWord address)) fun v => ?_
  have hexact := Computation.sum_overflows_iff (Width.word.toNat_add v step)
  refine .pure ((setArithmetic_settled hexact _ _).bind fun _ => ?_)
  exact corresponds_self_iff.mp ((settled_operands _).writeWord address _)

theorem decrease_settles (address step : UInt16) :
    Settles (β := β) config enabled latched (return .difference .word (← readWord address) step)
      (decrease address step) := by
  refine .bind (corresponds_self_iff.mp (unsettled_operands.readWord address)) fun v => ?_
  have hexact := Computation.difference_overflows_iff (Width.word.toNat_sub v step)
  refine .pure ((setArithmetic_settled hexact _ _).bind fun _ => ?_)
  exact corresponds_self_iff.mp ((settled_operands _).writeWord address _)

theorem neg_settles (address : UInt16) :
    Settles (β := β) config enabled latched (return .difference .word 0 (← readWord address))
      (singleAt .neg address) := by
  refine .bind (corresponds_self_iff.mp (unsettled_operands.readWord address)) fun v => ?_
  have hexact := Computation.difference_overflows_iff (Width.word.toNat_sub 0 v)
  refine .pure ((setArithmetic_settled hexact _ _).bind fun _ => ?_)
  exact (corresponds_self_iff.mp ((settled_operands _).writeWord address _)).seq (Keeps.pure _)

theorem abs_settles (address : UInt16) :
    Settles (β := β) config enabled latched (return .absolute (← readWord address))
      (singleAt .abs address) := by
  refine .bind (corresponds_self_iff.mp (unsettled_operands.readWord address)) fun v => ?_
  have hoverflow := Computation.absolute_overflows_iff v
  have hchange : Status.Changes (Status.arithmeticBits .word) fun st =>
      Word.withBit (Status.compareZero st v .word &&& ~~~Status.carry) Status.overflow
        (v == 0x8000) :=
    .comp (.withBit (by decide) _) (.comp (.andNot (by decide)) (.compareZero (by decide) v .word))
  have hset (st : UInt16) : Status.has (Word.withBit st Status.overflow (v == 0x8000))
      Status.overflow = true ↔ (Computation.absolute v).Overflows := by
    rw [Status.has_withBit (by decide), beq_iff_eq]
    exact hoverflow
  refine .pure ((modifySt_settling (hchange.keepsControl (by decide)) fun _ => hset _).bind
    fun _ => ?_)
  refine .ite (fun hsign => ?_) fun _ => ?_
  · have hfits : ¬(Computation.absolute v).Overflows := by
      rw [← hoverflow]
      rintro rfl
      exact absurd hsign (by decide)
    exact fun _ hstate => settled_of_not hfits hstate
  · refine Leads.bind (corresponds_self_iff.mp (settling_operands.writeWord address _)) fun _ => ?_
    refine .ite (fun hv => ?_) fun hv => ?_
    · exact (overflowTrap_settled (hoverflow.mp hv)).bind fun _ => cpu_keeps
    · exact fun _ hstate => settled_of_not (mt hoverflow.mpr hv) hstate

theorem shift_settles (opcode : UInt16) :
    Settles (β := β) config enabled latched (do
      let count ← shiftCount opcode
      let value ← readRegister (opcode &&& 0xF)
      return .shiftLeft value count.1) (shift opcode .sla) := by
  refine .bind (corresponds_self_iff.mp (unsettled_operands.shiftCount opcode)) fun count => ?_
  refine .bind (corresponds_self_iff.mp (unsettled_operands.readRegister _)) fun value => ?_
  have hoverflow := Computation.shiftLeft_overflows_iff value count.1
  have hcarry (shifted : Shifted) : Status.Changes (Status.arithmeticBits .word) fun st =>
      Word.withBit (Status.compareZero st shifted.value .word) Status.carry shifted.carry :=
    .comp (.withBit (by decide) _) (.compareZero (by decide) _ .word)
  have hset (set : Bool) : Status.Changes Status.overflow (Word.withBit · Status.overflow set) :=
    .withBit (by decide) set
  have hmarks (st : UInt16) : Status.has (Word.withBit st Status.overflow
      (Shifted.shift .sla count.1 { value := value }).overflow) Status.overflow = true ↔
      (Computation.shiftLeft value count.1).Overflows := by
    rw [Status.has_withBit (by decide)]
    exact hoverflow
  refine .pure ?_
  refine Leads.bind (corresponds_self_iff.mp (unsettled_operands.writeRegister _ _)) fun _ => ?_
  refine Leads.bind (modifySt_unsettled ((hcarry _).keepsControl (by decide))) fun _ => ?_
  refine (modifySt_settling ((hset _).keepsControl (by decide)) hmarks).bind fun _ => ?_
  refine .ite (fun h => ?_) fun h => ?_
  · exact (overflowTrap_settled (hoverflow.mp h)).bind fun _ => cpu_keeps
  · exact fun _ hstate => settled_of_not (mt hoverflow.mpr h) hstate

theorem immediate_settles (opcode : UInt16) :
    Settles (β := β) config enabled latched (do
      let operand ← fetch
      let v ← readRegister (opcode &&& 0xF)
      return .sum .word v operand) (immediate opcode .ai) := by
  refine .bind (corresponds_self_iff.mp unsettled_operands.fetch) fun operand => ?_
  refine .bind (corresponds_self_iff.mp (unsettled_operands.readRegister _)) fun v => ?_
  have hexact := Computation.sum_overflows_iff (Width.word.toNat_add v operand)
  refine .pure ((setArithmetic_settled hexact _ _).bind fun _ => ?_)
  exact corresponds_self_iff.mp ((settled_operands _).writeRegister _ _)

theorem div_settles (opcode : UInt16) :
    Settles (β := β) config enabled latched (do
      let source ← sourceWord opcode
      let hi ← readRegister (registerField opcode)
      let lo ← readRegister (registerField opcode + 1)
      return .quotient hi lo source.1) (div opcode) := by
  refine .bind (corresponds_self_iff.mp (unsettled_operands.sourceWord opcode)) fun source => ?_
  refine .bind (corresponds_self_iff.mp (unsettled_operands.readRegister _)) fun hi => ?_
  have hoverflow := Division.le_hi_iff hi
  by_cases hle : source.1 ≤ hi
  · -- The less significant word is not read, and does not matter.
    rw [if_pos hle]
    intro state hstate
    exact setOverflow_settled ((hoverflow _ source.1).mp hle) state hstate
  · rw [if_neg hle]
    refine .bind (corresponds_self_iff.mp (unsettled_operands.readRegister _)) fun lo => ?_
    have hfits := mt (hoverflow lo source.1).mpr hle
    have hchange : Status.Changes Status.overflow (· &&& ~~~Status.overflow) := .andNot (by decide)
    have hmarks (st : UInt16) : Status.has (st &&& ~~~Status.overflow) Status.overflow = true ↔
        (Computation.quotient hi lo source.1).Overflows :=
      iff_of_false (Bool.eq_false_iff.mp (Status.has_withBit (by decide) st false)) hfits
    refine .pure ?_
    have hdivision : Division.unsigned? hi lo source.1 = _ := Division.unsigned?_eq hle
    refine Leads.bind
      (corresponds_self_iff.mp (corresponds_require_of_some hdivision _)) fun _ => ?_
    refine Leads.bind (corresponds_self_iff.mp (unsettled_operands.writeRegister _ _)) fun _ => ?_
    refine Leads.bind (corresponds_self_iff.mp (unsettled_operands.writeRegister _ _)) fun _ => ?_
    refine (modifySt_settling (hchange.keepsControl (by decide)) hmarks).bind fun _ => ?_
    exact fun _ hstate => settled_of_not hfits hstate

theorem divs_settles (opcode : UInt16) :
    Settles (β := β) config enabled latched (do
      let source ← sourceWord opcode
      let hi ← readRegister 0
      let lo ← readRegister 1
      return .signedQuotient hi lo source.1) (divs opcode) := by
  refine .bind (corresponds_self_iff.mp (unsettled_operands.sourceWord opcode)) fun source => ?_
  refine .bind (corresponds_self_iff.mp (unsettled_operands.readRegister 0)) fun hi => ?_
  refine .bind (corresponds_self_iff.mp (unsettled_operands.readRegister 1)) fun lo => ?_
  refine .pure ?_
  have hnone := Division.signedQuotient?_eq_none_iff hi lo source.1
  cases hquotient : Division.signedQuotient? hi lo source.1 with
  | none => exact (setOverflow_settled (hnone.mp hquotient)).bind fun _ => Keeps.pure _
  | some quotient =>
      have hfits := mt hnone.mpr (hquotient ▸ nofun)
      have hchange : Status.Changes (Status.comparison ||| Status.overflow) fun st =>
          Status.compareSigned st quotient &&& ~~~Status.overflow :=
        .comp (.andNot (by decide)) (.compareSigned (by decide) quotient)
      have hmarks (st : UInt16) : Status.has (Status.compareSigned st quotient &&&
          ~~~Status.overflow) Status.overflow = true ↔
          (Computation.signedQuotient hi lo source.1).Overflows :=
        iff_of_false (Bool.eq_false_iff.mp (Status.has_withBit (by decide) _ false)) hfits
      have hdivision := Division.signedRemainder?_eq hquotient
      refine Leads.bind
        (corresponds_self_iff.mp (corresponds_require_of_some hdivision 0)) fun _ => ?_
      refine Leads.bind (corresponds_self_iff.mp (unsettled_operands.writeRegister 0 _)) fun _ => ?_
      refine Leads.bind (corresponds_self_iff.mp (unsettled_operands.writeRegister 1 _)) fun _ => ?_
      refine (modifySt_settling (hchange.keepsControl (by decide)) hmarks).bind fun _ => ?_
      exact fun _ hstate => settled_of_not hfits hstate

theorem perform_settles {opcode : UInt16} {instruction : Instruction}
    {find : Exec β Computation} (hfind : computation opcode instruction = some find) :
    Settles config enabled latched find (perform opcode instruction) := by
  cases instruction with
  | dual operation width =>
      cases operation with
      | a =>
          obtain rfl := Option.some.inj hfind
          refine dual_settles (fun s d => ?_) opcode
          have hexact := Computation.sum_overflows_iff (width.toNat_add_and_mask d s)
          exact (setArithmetic_settled hexact _ width).bind fun _ => Keeps.pure _
      | s =>
          obtain rfl := Option.some.inj hfind
          refine dual_settles (fun s d => ?_) opcode
          have hexact := Computation.difference_overflows_iff (width.toNat_sub_and_mask d s)
          exact (setArithmetic_settled hexact _ width).bind fun _ => Keeps.pure _
      | szc | c | mov | soc => exact absurd hfind nofun
  | shift operation =>
      cases operation with
      | sla =>
          obtain rfl := Option.some.inj hfind
          exact shift_settles opcode
      | sra | srl | src => exact absurd hfind nofun
  | single operation =>
      cases operation with
      | inc =>
          obtain rfl := Option.some.inj hfind
          refine single_settles (fun address => ?_) opcode
          exact (increase_settles address 1).andThen fun _ _ => Keeps.pure _
      | inct =>
          obtain rfl := Option.some.inj hfind
          refine single_settles (fun address => ?_) opcode
          exact (increase_settles address 2).andThen fun _ _ => Keeps.pure _
      | dec =>
          obtain rfl := Option.some.inj hfind
          refine single_settles (fun address => ?_) opcode
          exact (decrease_settles address 1).andThen fun _ _ => Keeps.pure _
      | dect =>
          obtain rfl := Option.some.inj hfind
          refine single_settles (fun address => ?_) opcode
          exact (decrease_settles address 2).andThen fun _ _ => Keeps.pure _
      | neg =>
          obtain rfl := Option.some.inj hfind
          exact single_settles neg_settles opcode
      | abs =>
          obtain rfl := Option.some.inj hfind
          exact single_settles abs_settles opcode
      | blwp | b | clr | inv | bl | swpb | seto => exact absurd hfind nofun
  | immediate operation =>
      cases operation with
      | ai =>
          obtain rfl := Option.some.inj hfind
          exact (immediate_settles opcode).andThen fun _ _ => Keeps.pure _
      | li | andi | ori | ci => exact absurd hfind nofun
  | div =>
      obtain rfl := Option.some.inj hfind
      exact div_settles opcode
  | divs =>
      obtain rfl := Option.some.inj hfind
      exact divs_settles opcode
  | _ => exact absurd hfind nofun

end Exec

namespace Machine

/-- What an iteration computes, if it executes an instruction whose result may not fit. -/
def computes (machine : Machine β) : Option Computation :=
  (machine.executes.bind (Exec.computation machine.found.1.opcode)).map fun find =>
    (find machine.found.2).1

variable {machine : Machine β}

theorem computes_isSome (machine : Machine β) :
    machine.computes.isSome = machine.executes.any (·.canOverflow) := by
  rw [computes, Option.isSome_map]
  cases machine.executes with
  | none => rfl
  | some instruction => exact Exec.computation_isSome machine.found.1.opcode instruction

/-- Without a result that may not fit, the latch of the internal interrupt is not touched. -/
theorem internalLine_worked {instruction : Instruction}
    (hexecutes : machine.executes = some instruction) (hfits : instruction.canOverflow = false) :
    machine.worked.cpu.interrupts.isLatched internalLine =
      machine.checked.cpu.interrupts.isLatched internalLine := by
  have hstable := Cpu.accessStable_of_st_internalLine fun _ latch =>
    latch = machine.checked.cpu.interrupts.isLatched internalLine
  refine hstable.machine.worked (fun hnone => ?_) (fun other hother => ?_) rfl
  · exact absurd (hexecutes.symm.trans hnone) nofun
  · obtain rfl := Option.some.inj (hexecutes.symm.trans hother)
    exact
      { flags := fun _ _ _ => corresponds_self_iff.mpr fun _ hstate => hstate
        clearMask := fun _ => corresponds_self_iff.mpr fun _ hstate => hstate
        trap := fun hoverflow => absurd (hfits.symm.trans hoverflow) nofun
        hold := fun _ => corresponds_self_iff.mpr fun _ hstate => hstate
        idle := fun _ => corresponds_self_iff.mpr fun _ hstate => hstate
        load := fun _ _ => corresponds_self_iff.mpr fun _ hstate => hstate }

theorem settled_worked {config : Config} (hconsistent : machine.cpu.IsConsistent config)
    {computation : Computation} (hcomputes : computation ∈ machine.computes) :
    Settled config computation.Overflows
      (Status.has machine.checked.cpu.st Status.overflowInterrupt)
      (machine.checked.cpu.interrupts.isLatched internalLine) machine.worked.cpu.st
      (machine.worked.cpu.interrupts.isLatched internalLine) := by
  obtain ⟨find, hfind, rfl⟩ := Option.map_eq_some_iff.mp hcomputes
  obtain ⟨instruction, hexecutes, hfind⟩ := Option.bind_eq_some_iff.mp hfind
  have hx : instruction ≠ .x := by
    rintro rfl
    exact absurd hfind nofun
  have hchecked := (Cpu.isConsistent_hostStable config).toServiceStable.checked hconsistent
  have hfound := (Cpu.shows_accessStable config (Unsettled
    (Status.has machine.checked.cpu.st Status.overflowInterrupt)
    (machine.checked.cpu.interrupts.isLatched internalLine))).machine.found ⟨hchecked, rfl, rfl⟩
  rw [worked_of_executes hexecutes hx]
  exact (Exec.perform_settles hfind machine.found.2 hfound).2

end Machine

/-- The overflow bit tells exactly whether the result of an instruction fits, and an overflow
requests the internal interrupt exactly when overflows are to interrupt.  No other instruction
touches the latch of that interrupt. -/
theorem overflow_exact {config : Config} {machine : Machine β} (h : machine.Reachable config)
    (limit : Nat) :
    machine.computes.isSome = machine.executes.any (·.canOverflow) ∧
    (∀ computation ∈ machine.computes,
      (Status.has (Exec.iterate limit machine).2.cpu.st Status.overflow = true ↔
        computation.Overflows) ∧
      ((config.onChip = true → 2 ≤ config.levels) →
        (machine.worked.cpu.interrupts.isLatched internalLine = true ↔
          machine.checked.cpu.interrupts.isLatched internalLine = true ∨
            config.onChip = true ∧
              Status.has machine.checked.cpu.st Status.overflowInterrupt = true ∧
              computation.Overflows))) ∧
    ∀ instruction ∈ machine.executes, instruction.canOverflow = false →
      machine.worked.cpu.interrupts.isLatched internalLine =
        machine.checked.cpu.interrupts.isLatched internalLine := by
  refine ⟨machine.computes_isSome, fun computation hcomputes => ?_, fun instruction => ?_⟩
  · rw [machine.st_iterate]
    exact Machine.settled_worked h.isConsistent hcomputes
  · exact Machine.internalLine_worked

/-- A signed division by zero that X leads to, with overflows that interrupt. -/
theorem overflow_exact_of_division_by_zero :
    let machine := Machine.beforeOverflow
    machine.Reachable Variant.tms9995.config ∧
      machine.computes = some (.signedQuotient 0 0x0182 0) ∧
      Status.has (Exec.iterate 100 machine).2.cpu.st Status.overflow = true ∧
      machine.checked.cpu.interrupts.isLatched internalLine = false ∧
      machine.worked.cpu.interrupts.isLatched internalLine = true := by
  intro machine
  have hreachable : machine.Reachable Variant.tms9995.config := Machine.beforeOverflow_reachable
  have hcomputes : machine.computes = some (.signedQuotient 0 0x0182 0) := by decide +kernel
  obtain ⟨_, hexact, _⟩ := overflow_exact hreachable 100
  obtain ⟨hoverflow, hlatch⟩ := hexact _ hcomputes
  have hoverflows : (Computation.signedQuotient 0 0x0182 0).Overflows := .inl rfl
  refine ⟨hreachable, hcomputes, hoverflow.mpr hoverflows, by decide +kernel, ?_⟩
  exact (hlatch (by decide)).mpr (.inr ⟨rfl, by decide +kernel, hoverflows⟩)

end TmsCores.Tms9900
