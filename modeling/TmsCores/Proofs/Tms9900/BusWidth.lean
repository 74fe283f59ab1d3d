import TmsCores.Proofs.Tms9900.PlainAccess
import TmsCores.Proofs.Tms9900.ProgramView
import TmsCores.Proofs.Tms9900.Restoration

namespace TmsCores.Tms9900

namespace Machine

variable {machine m n : Machine FlatBus}

/-- A machine as its programs see it: the width of the data bus does not matter to them, and what is
remembered from a byte operand or has been missed does not either. -/
def programView (machine : Machine FlatBus) : Machine FlatBus :=
  { machine with
    cpu := machine.cpu.programView
    operandWord := none
    fault := false }

theorem IsPlain.programView (h : machine.IsPlain) : machine.programView.IsPlain :=
  h.forget rfl rfl rfl

theorem isPlain_clearLeftovers (hmask : machine.cpu.config.addressMask &&& 1 = 1)
    (haccessCycles : machine.cpu.config.byteAccessCycles = 0) :
    (Exec.clearLeftovers machine).2.IsPlain where
  mask := hmask
  accessCycles := haccessCycles
  remembered := nofun

/-- Two machines that are plain, and that look the same to programs. -/
structure LooksLike (m n : Machine FlatBus) : Prop where
  left : m.IsPlain
  right : n.IsPlain
  view : m.programView = n.programView

end Machine

namespace Exec

open Machine

variable {α : Type} {x : Exec FlatBus α}

/-- What a part of an operation returns, and what it makes of a machine as programs see it, depends
on nothing else of the machine. -/
def IgnoresWidth (x : Exec FlatBus α) : Prop :=
  ∀ machine : Machine FlatBus, machine.IsPlain →
    (x machine).1 = (x machine.programView).1 ∧
      (x machine).2.programView = (x machine.programView).2.programView ∧ (x machine).2.IsPlain

theorem IgnoresWidth.corresponds (h : IgnoresWidth x) : Corresponds LooksLike x x := by
  intro m n hmn
  obtain ⟨hvalue, hview, hplain⟩ := h m hmn.left
  obtain ⟨hvalue', hview', hplain'⟩ := h n hmn.right
  rw [hmn.view] at hvalue hview
  exact ⟨hvalue.trans hvalue'.symm, hplain, hplain', hview.trans hview'.symm⟩

theorem modifyCpu_looksLike {change : Cpu → Cpu}
    (hview : ∀ cpu, (change cpu).programView = (change cpu.programView).programView)
    (hconfig : ∀ cpu, (change cpu).config = cpu.config) :
    Corresponds LooksLike (modifyCpu change) (modifyCpu change) := by
  refine IgnoresWidth.corresponds fun machine hmachine => ?_
  refine ⟨rfl, ?_, hmachine.congr (hconfig machine.cpu) rfl rfl⟩
  exact congrArg (fun cpu => { machine with cpu := cpu, operandWord := none, fault := false })
    (hview machine.cpu)

theorem readWord_ignoresWidth (address : UInt16) :
    IgnoresWidth (readWord (β := FlatBus) address) := by
  intro machine hmachine
  obtain ⟨fault, hread⟩ := readWord_eq hmachine address
  obtain ⟨fault', hread'⟩ := readWord_eq hmachine.programView address
  rw [hread, hread']
  exact ⟨rfl, rfl, hmachine.congr rfl rfl rfl⟩

theorem readByte_ignoresWidth (address : UInt16) :
    IgnoresWidth (readByte (β := FlatBus) address) := by
  intro machine hmachine
  obtain ⟨operandWord, fault, hread, hplain⟩ := readByte_eq hmachine address
  obtain ⟨operandWord', fault', hread', _⟩ := readByte_eq hmachine.programView address
  rw [hread, hread']
  exact ⟨rfl, rfl, hplain⟩

theorem readOperand_eq {machine : Machine FlatBus} (h : machine.IsPlain) (address : UInt16)
    (width : Width) :
    ∃ operandWord fault, (readOperand address width machine).2 =
        { machine with operandWord := operandWord, fault := fault } ∧
      IsPlain { machine with operandWord := operandWord, fault := fault } := by
  cases width with
  | byte =>
      obtain ⟨operandWord, fault, hread, hplain⟩ := readByte_eq h address
      exact ⟨operandWord, fault, congrArg Prod.snd hread, hplain⟩
  | word =>
      obtain ⟨fault, hread⟩ := readWord_eq h address
      exact ⟨machine.operandWord, fault, congrArg Prod.snd hread, h.congr rfl rfl rfl⟩

theorem dummyRead_eq {machine : Machine FlatBus} (h : machine.IsPlain) (address : UInt16)
    (width : Width) :
    ∃ operandWord fault, (dummyRead address width machine).2 =
        { machine with operandWord := operandWord, fault := fault } ∧
      IsPlain { machine with operandWord := operandWord, fault := fault } := by
  rw [dummyRead, cpu_bind]
  split
  · exact readOperand_eq h address width
  · exact ⟨machine.operandWord, machine.fault, rfl, h⟩

theorem dummyRead_ignoresWidth (address : UInt16) (width : Width) :
    IgnoresWidth (dummyRead (β := FlatBus) address width) := by
  intro machine hmachine
  obtain ⟨operandWord, fault, hread, hplain⟩ := dummyRead_eq hmachine address width
  obtain ⟨operandWord', fault', hread', _⟩ := dummyRead_eq hmachine.programView address width
  rw [hread, hread']
  exact ⟨rfl, rfl, hplain⟩

theorem writeWord_ignoresWidth (address value : UInt16) :
    IgnoresWidth (writeWord (β := FlatBus) address value) := by
  intro machine hmachine
  have hview : machine.programView.cpu.region (Word.even address) =
      machine.cpu.region (Word.even address) :=
    rfl
  obtain ⟨fault, hwrite⟩ := writeWord_eq hmachine address value
  obtain ⟨fault', hwrite'⟩ := writeWord_eq hmachine.programView address value
  rw [hwrite, hwrite', storeWord, storeWord, hview]
  cases machine.cpu.region (Word.even address) with
  | ram offset => exact ⟨rfl, rfl, hmachine.forget rfl rfl rfl⟩
  | decrementer byte => exact ⟨rfl, rfl, hmachine.forget rfl rfl rfl⟩
  | external => exact ⟨rfl, rfl, hmachine.forget rfl rfl rfl⟩

theorem writeByte_ignoresWidth (address : UInt16) (value : UInt8) :
    IgnoresWidth (writeByte (β := FlatBus) address value) := by
  intro machine hmachine
  have hview : machine.programView.cpu.region address = machine.cpu.region address :=
    rfl
  obtain ⟨fault, hwrite⟩ := writeByte_eq hmachine address value
  obtain ⟨fault', hwrite'⟩ := writeByte_eq hmachine.programView address value
  rw [hwrite, hwrite', storeByte, storeByte, hview]
  cases machine.cpu.region address with
  | ram offset => exact ⟨rfl, rfl, hmachine.congr rfl rfl rfl⟩
  | decrementer byte => exact ⟨rfl, rfl, hmachine.congr rfl rfl rfl⟩
  | external => exact ⟨rfl, rfl, hmachine.forget rfl rfl rfl⟩

theorem cruRead_ignoresWidth (bit : UInt16) : IgnoresWidth (cruRead (β := FlatBus) bit) := by
  intro machine hmachine
  have hview : machine.programView.cpu.internalBit? (bit &&& 0x0FFF) =
      machine.cpu.internalBit? (bit &&& 0x0FFF) :=
    rfl
  rw [cruRead]
  dsimp only
  rw [get_bind, get_bind, hview]
  cases machine.cpu.internalBit? (bit &&& 0x0FFF) with
  | some value => exact ⟨rfl, rfl, hmachine⟩
  | none => exact ⟨rfl, rfl, hmachine.congr rfl rfl rfl⟩

theorem cruWrite_ignoresWidth (bit : UInt16) (value : Bool) :
    IgnoresWidth (cruWrite (β := FlatBus) bit value) := by
  intro machine hmachine
  have hview : machine.programView.cpu.setInternalBit? (bit &&& 0x0FFF) value =
      (machine.cpu.setInternalBit? (bit &&& 0x0FFF) value).map Cpu.programView :=
    machine.cpu.setInternalBit?_programView _ value
  rw [cruWrite]
  dsimp only
  rw [get_bind, get_bind, hview]
  cases hchanged : machine.cpu.setInternalBit? (bit &&& 0x0FFF) value with
  | none => exact ⟨rfl, rfl, hmachine.congr rfl rfl rfl⟩
  | some changed =>
      exact ⟨rfl, rfl, hmachine.congr (Cpu.config_setInternalBit? hchanged) rfl rfl⟩

theorem looksLike_simulation : Simulation LooksLike where
  sameView h := congrArg (·.cpu) h.view
  readWord address := (readWord_ignoresWidth address).corresponds
  writeWord address value := (writeWord_ignoresWidth address value).corresponds
  readByte address := (readByte_ignoresWidth address).corresponds
  writeByte address value := (writeByte_ignoresWidth address value).corresponds
  dummyRead address width := (dummyRead_ignoresWidth address width).corresponds
  cruRead bit := (cruRead_ignoresWidth bit).corresponds
  cruWrite bit value := (cruWrite_ignoresWidth bit value).corresponds
  skip _ := modifyCpu_looksLike (fun _ => rfl) fun _ => rfl
  setPc _ := modifyCpu_looksLike (fun _ => rfl) fun _ => rfl
  setWp _ := modifyCpu_looksLike (fun _ => rfl) fun _ => rfl
  setSt _ := modifyCpu_looksLike (fun _ => rfl) fun _ => rfl
  modifySt _ := modifyCpu_looksLike (fun _ => rfl) fun _ => rfl
  overflowTrap := modifyCpu_looksLike Cpu.programView_overflowTrap Cpu.config_overflowTrap
  illegalTrap := modifyCpu_looksLike (fun _ => rfl) fun _ => rfl

theorem looksLike_hostSimulation : HostSimulation LooksLike where
  toSimulation := looksLike_simulation
  sameWait h := congrArg (·.wait) h.view
  clearLeftovers := IgnoresWidth.corresponds fun _ hmachine =>
    ⟨rfl, rfl, hmachine.forget rfl rfl rfl⟩
  releaseInterrupts := modifyCpu_looksLike (fun _ => rfl) fun _ => rfl
  leaveIdle := IgnoresWidth.corresponds fun _ hmachine =>
    ⟨rfl, rfl, hmachine.congr rfl rfl rfl⟩
  serviceStatus _ _ := modifyCpu_looksLike (fun _ => rfl) fun _ => rfl
  acknowledge _ := IgnoresWidth.corresponds fun _ hmachine =>
    ⟨rfl, rfl, hmachine.congr rfl rfl rfl⟩
  tickCpu := modifyCpu_looksLike Cpu.programView_tick Cpu.config_tick
  tickBus := IgnoresWidth.corresponds fun _ hmachine =>
    ⟨rfl, rfl, hmachine.congr rfl rfl rfl⟩
  charge _ := IgnoresWidth.corresponds fun _ hmachine =>
    ⟨rfl, rfl, hmachine.congr rfl rfl rfl⟩
  drive line state := modifyCpu_looksLike (Cpu.programView_drive line state)
    (Cpu.config_drive line state)
  powerUp := modifyCpu_looksLike (fun _ => rfl) fun _ => rfl
  endReset _ := modifyCpu_looksLike (fun _ => rfl) fun _ => rfl

theorem looksLike_iterate (limit : Nat) :
    Corresponds LooksLike (iterate (β := FlatBus) limit) (iterate limit) := by
  have hhold : Corresponds LooksLike (holdInterrupts (β := FlatBus)) holdInterrupts :=
    modifyCpu_looksLike (fun _ => rfl) fun _ => rfl
  have hidle : Corresponds LooksLike (setIdle (β := FlatBus) true) (setIdle true) :=
    IgnoresWidth.corresponds fun _ hmachine => ⟨rfl, rfl, hmachine.congr rfl rfl rfl⟩
  exact looksLike_hostSimulation.iterate hhold hidle limit

end Exec

namespace Machine

variable {m n : Machine FlatBus}

/-- An operation, with all that there is to find out after it but for the configuration: the answer,
the state of the processor and that of the bus. -/
def observe (config : Config) (operation : Operation Register) (machine : Machine FlatBus) :
    Option ((Answer MissingRegister Config × Cpu × FlatBus) × Machine FlatBus) := do
  let (answer, next) ← machine.perform operation
  return ((answer, { next.cpu with config := config }, next.bus), next)

/-- What is found out in a session, operation by operation. -/
def history (config : Config) (operations : List (Operation Register))
    (machine : Machine FlatBus) : Option (List (Answer MissingRegister Config × Cpu × FlatBus)) :=
  (session (observe config) operations machine).map Prod.fst

/-- Machines that have the same processor but for the configuration, and the same bus, keep the same
history if they go on like this. -/
theorem history_eq {R : Machine FlatBus → Machine FlatBus → Prop} {config : Config}
    {operations : List (Operation Register)}
    (hlook : ∀ {s t}, R s t → { s.cpu with config := config } = { t.cpu with config := config } ∧
      s.bus = t.bus)
    (hperform : ∀ operation ∈ operations, ∀ s t, R s t →
      SameOutcome R (s.perform operation) (t.perform operation)) (h : R m n) :
    history config operations m = history config operations n := by
  have hsession : SameOutcome R (session (observe config) operations m)
      (session (observe config) operations n) := by
    refine .session (fun operation hoperation s t hst => ?_) h
    refine (hperform operation hoperation s t hst).bind fun answer s t hst => ?_
    obtain ⟨hcpu, hbus⟩ := hlook hst
    refine .some ⟨?_, hst⟩
    dsimp only
    rw [hcpu, hbus]
  exact hsession.map_eq fun _ _ _ _ => rfl

theorem history_of_sameState (config : Config) (operations : List (Operation Register))
    (h : SameState m n) : history config operations m = history config operations n :=
  history_eq (fun hst => ⟨congrArg (fun cpu : Cpu => { cpu with config := config }) hst.1, hst.2⟩)
    (fun operation _ _ _ => perform_sameOutcome operation) h

theorem history_of_looksLike (config : Config) {operations : List (Operation Register)}
    (hoperations : ∀ operation ∈ operations, operation ≠ .save ∧ ∀ bytes, operation ≠ .restore bytes)
    (h : LooksLike m n) : history config operations m = history config operations n := by
  refine history_eq ?_ ?_ h
  · intro s t hst
    exact ⟨congrArg (fun machine => { machine.cpu with config := config }) hst.view,
      congrArg (·.bus) hst.view⟩
  · intro operation hoperation s t hst
    obtain ⟨hsave, hrestore⟩ := hoperations operation hoperation
    exact Exec.looksLike_hostSimulation.perform Exec.looksLike_iterate hsave hrestore hst

end Machine

/-- On a flat bus nobody can tell the width of the data bus, or whether destinations are read in
vain. -/
theorem width_invisible {config : Config} {dataBus : DataBus} {dummyDestinationRead : Bool}
    (haccessCycles : config.byteAccessCycles = 0) (hmask : config.addressMask &&& 1 = 1)
    {m n : Machine FlatBus} (hm : m.Reachable config)
    (hn : n.Reachable
      { config with dataBus := dataBus, dummyDestinationRead := dummyDestinationRead })
    (hcpu : { n.cpu with config := config } = m.cpu) (hbus : n.bus = m.bus)
    {operations : List (Operation Register)}
    (hoperations :
      ∀ operation ∈ operations, operation ≠ .save ∧ ∀ bytes, operation ≠ .restore bytes) :
    m.history config operations = n.history config operations := by
  let left := (Exec.clearLeftovers m).2
  let right := (Exec.clearLeftovers n).2
  have hleft : left.IsPlain := by
    apply Machine.isPlain_clearLeftovers
    · rw [hm.isConsistent.config_eq, hmask]
    · rw [hm.isConsistent.config_eq, haccessCycles]
  have hright : right.IsPlain := by
    apply Machine.isPlain_clearLeftovers
    · rw [hn.isConsistent.config_eq, hmask]
    · rw [hn.isConsistent.config_eq, haccessCycles]
  have hcpuView : m.cpu.programView = n.cpu.programView := by
    have hconfig := congrArg (fun config : Config =>
      { config with dataBus := .word, dummyDestinationRead := true }) hn.isConsistent.config_eq
    rw [← hcpu]
    exact congrArg (fun config => { n.cpu with config := config }) hconfig.symm
  have hview : left.programView = right.programView := by
    change Machine.mk ⟨⟨m.cpu.programView, false⟩, 0, none⟩ m.bus =
      ⟨⟨⟨n.cpu.programView, false⟩, 0, none⟩, n.bus⟩
    rw [hcpuView, hbus]
  calc m.history config operations
      = left.history config operations := Machine.history_of_sameState _ _ ⟨rfl, rfl⟩
    _ = right.history config operations :=
        Machine.history_of_looksLike config hoperations ⟨hleft, hright, hview⟩
    _ = n.history config operations := Machine.history_of_sameState _ _ ⟨rfl, rfl⟩

/-- MOVB from R1 to R0, and INC of R0. -/
theorem width_invisible_to_movb :
    let config := Variant.tms9900.config
    let bus : FlatBus := { memory := (Memory.zero.pokeWord 0 0xD001).pokeWord 2 0x0580 }
    let operations := [.write .wp 0x0100, .write (.r 1) 0xABCD, .step, .step, .read (.r 0)]
    ∃ answers,
      Machine.history config operations ⟨.ofConfig config, bus⟩ = some answers ∧
      Machine.history config operations
        ⟨.ofConfig { config with dataBus := .byte, dummyDestinationRead := false }, bus⟩ =
          some answers := by
  intro config bus operations
  let m : Machine FlatBus := ⟨.ofConfig config, bus⟩
  let n : Machine FlatBus :=
    ⟨.ofConfig { config with dataBus := .byte, dummyDestinationRead := false }, bus⟩
  have hm : m.Reachable config := .create
  have hn : n.Reachable { config with dataBus := .byte, dummyDestinationRead := false } := .create
  have hoperations : ∀ operation ∈ operations,
      operation ≠ .save ∧ ∀ bytes, operation ≠ .restore bytes := by
    simp [operations]
  have hsame : m.history config operations = n.history config operations :=
    width_invisible rfl (by decide) hm hn rfl rfl hoperations
  have hsome : (m.history config operations).isSome := by decide +kernel
  obtain ⟨answers, hanswers⟩ := Option.isSome_iff_exists.mp hsome
  exact ⟨answers, hanswers, hsame.symm.trans hanswers⟩

end TmsCores.Tms9900
