import TmsCores.Proofs.Tms9900.AddressSpace
import TmsCores.Proofs.Tms9900.Simulation

namespace TmsCores.Tms9900

namespace Cpu

/-- A property of processors that the accesses of instructions do not destroy. -/
structure AccessStable (P : Cpu → Prop) : Prop where
  setByte : ∀ {cpu}, P cpu → ∀ offset value,
    P { cpu with chip := cpu.chip.setByte offset value }
  setDecrementer : ∀ {cpu}, P cpu → ∀ value,
    P { cpu with chip.decrementer := .ofStart value }
  setInternalBit : ∀ {cpu changed bit value}, P cpu →
    cpu.setInternalBit? bit value = some changed → P changed
  skip : ∀ {cpu}, P cpu → ∀ words, P (cpu.skip words)
  setPc : ∀ {cpu}, P cpu → ∀ pc, P (cpu.setPc pc)
  setWp : ∀ {cpu}, P cpu → ∀ wp, P (cpu.setWp wp)

/-- A property of processors that no part of an instruction destroys, except for the loads of the
status register and for what IDLE, BLWP and XOP do at their end. -/
structure FlagStable (P : Cpu → Prop) : Prop extends AccessStable P where
  setFlags : ∀ {cpu change}, Status.KeepsControl change → P cpu →
    P { cpu with st := change cpu.st }
  clearMask : ∀ {cpu}, P cpu → P { cpu with st := Status.withMask cpu.st 0 }
  overflowTrap : ∀ {cpu}, P cpu → P cpu.overflowTrap
  illegalTrap : ∀ {cpu}, P cpu → P cpu.illegalTrap

theorem AccessStable.and {P Q : Cpu → Prop} (hP : AccessStable P) (hQ : AccessStable Q) :
    AccessStable fun cpu => P cpu ∧ Q cpu where
  setByte h offset value := ⟨hP.setByte h.1 offset value, hQ.setByte h.2 offset value⟩
  setDecrementer h value := ⟨hP.setDecrementer h.1 value, hQ.setDecrementer h.2 value⟩
  setInternalBit h hchanged := ⟨hP.setInternalBit h.1 hchanged, hQ.setInternalBit h.2 hchanged⟩
  skip h words := ⟨hP.skip h.1 words, hQ.skip h.2 words⟩
  setPc h pc := ⟨hP.setPc h.1 pc, hQ.setPc h.2 pc⟩
  setWp h wp := ⟨hP.setWp h.1 wp, hQ.setWp h.2 wp⟩

/-- Accesses of an instruction lead from one processor to the other: what they do not destroy passes
on. -/
def Moves (cpu changed : Cpu) : Prop :=
  ∀ P, AccessStable P → P cpu → P changed

/-- Parts of an instruction lead from one processor to the other. -/
def Evolves (cpu changed : Cpu) : Prop :=
  ∀ P, FlagStable P → P cpu → P changed

theorem Moves.evolves {cpu changed : Cpu} (h : cpu.Moves changed) : cpu.Evolves changed :=
  fun P hP => h P hP.toAccessStable

end Cpu

variable {β γ : Type}

theorem Exec.readRam_eq {machine : Machine β} {offset : Nat}
    (h : offset < machine.cpu.chip.ram.size) :
    readRam offset machine = (machine.cpu.chip.byte offset, machine) := by
  rw [readRam, cpu_bind, OnChip.byte?_eq h, require_some]
  rfl

variable [Bus β] [Bus γ] {R : Machine β → Machine γ → Prop}

/-- A relation between machines with the same processor that is respected by each single call of the
bus and by what accesses do to the processor. -/
structure TransferSimulation (R : Machine β → Machine γ → Prop) : Prop where
  sameCpu : ∀ {m n}, R m n → m.cpu = n.cpu
  sameOperandWord : ∀ {m n}, R m n → m.operandWord = n.operandWord
  busRead : ∀ {m n address}, R m n → m.cpu.region address = .external →
    (Exec.busRead address m).1 = (Exec.busRead address n).1 ∧
      R (Exec.busRead address m).2 (Exec.busRead address n).2
  busWrite : ∀ {m n address}, R m n → m.cpu.region address = .external → ∀ value,
    R (Exec.busWrite address value m).2 (Exec.busWrite address value n).2
  cruRead : ∀ {m n bit}, R m n → m.cpu.internalBit? (bit &&& 0x0FFF) = none →
    (Exec.cruRead bit m).1 = (Exec.cruRead bit n).1 ∧
      R (Exec.cruRead bit m).2 (Exec.cruRead bit n).2
  cruWrite : ∀ {m n bit value}, R m n →
    m.cpu.setInternalBit? (bit &&& 0x0FFF) value = none →
      R (Exec.cruWrite bit value m).2 (Exec.cruWrite bit value n).2
  /-- An access to the chip can only miss where its memory is not complete. -/
  expect : ∀ {m n possible}, R m n → (m.cpu.HasRam → possible = true) →
    R { m with fault := !possible || m.fault } { n with fault := !possible || n.fault }
  remember : ∀ {m n}, R m n → ∀ operandWord,
    R { m with operandWord := operandWord } { n with operandWord := operandWord }
  move : ∀ {m n cpu}, R m n → m.cpu.Moves cpu → R { m with cpu := cpu } { n with cpu := cpu }

/-- A relation between machines that what instructions do to the processor respects as well. -/
structure AccessSimulation (R : Machine β → Machine γ → Prop) : Prop
    extends TransferSimulation R where
  evolve : ∀ {m n cpu}, R m n → m.cpu.Evolves cpu → R { m with cpu := cpu } { n with cpu := cpu }
  move hmn hmoves := evolve hmn hmoves.evolves

namespace TransferSimulation

variable (h : TransferSimulation R)

include h

theorem modifyCpuOf {change : Cpu → Cpu}
    (hchange : ∀ {m n}, R m n → R { m with cpu := change m.cpu } { n with cpu := change m.cpu }) :
    Corresponds R (Exec.modifyCpu change) (Exec.modifyCpu change) := by
  intro m n hmn
  have hnext := hchange hmn
  refine ⟨rfl, ?_⟩
  change R { m with cpu := change m.cpu } { n with cpu := change n.cpu }
  rw [← h.sameCpu hmn]
  exact hnext

theorem modifyCpu {change : Cpu → Cpu} (hchange : ∀ cpu : Cpu, cpu.Moves (change cpu)) :
    Corresponds R (Exec.modifyCpu change) (Exec.modifyCpu change) :=
  h.modifyCpuOf fun hmn => h.move hmn (hchange _)

theorem setOperandWord (operandWord : Option (UInt16 × UInt16)) :
    Corresponds R (Exec.setOperandWord operandWord) (Exec.setOperandWord operandWord) :=
  fun _ _ hmn => ⟨rfl, h.remember hmn operandWord⟩

theorem readRam {m : Machine β} {n : Machine γ} {offset : Nat} (hmn : R m n)
    (hoffset : m.cpu.HasRam → offset < m.cpu.chip.ram.size) :
    (Exec.readRam offset m).1 = (Exec.readRam offset n).1 ∧
      R (Exec.readRam offset m).2 (Exec.readRam offset n).2 := by
  rw [Exec.readRam, Exec.readRam, Exec.cpu_bind, Exec.cpu_bind, ← h.sameCpu hmn]
  exact ⟨rfl, h.expect hmn fun hram => Storage.isSome_getElem? (hoffset hram)⟩

theorem writeRam {m : Machine β} {n : Machine γ} {offset : Nat} (hmn : R m n)
    (hoffset : m.cpu.HasRam → offset < m.cpu.chip.ram.size) (value : UInt8) :
    R (Exec.writeRam offset value m).2 (Exec.writeRam offset value n).2 := by
  have hnext := h.expect hmn fun hram => Storage.isSome_set? (hoffset hram) value
  have hwritten := h.move hnext fun _ hP hcpu => hP.setByte hcpu offset value
  change R _
    { n with
      fault := !(n.cpu.chip.setRam? offset value).isSome || n.fault
      cpu := { n.cpu with chip := n.cpu.chip.setByte offset value } }
  rw [← h.sameCpu hmn]
  exact hwritten

theorem readWord (address : UInt16) :
    Corresponds R (Exec.readWord address) (Exec.readWord address) := by
  intro m n hmn
  have hcpu := h.sameCpu hmn
  rw [Exec.readWord, Exec.readWord, Exec.cpu_bind, Exec.cpu_bind, ← hcpu]
  cases hregion : m.cpu.region (Word.even address) with
  | ram offset =>
      have hbound := fun hram : m.cpu.HasRam => hram.succ_lt_of_region hregion
      obtain ⟨hhi, hmiddle⟩ := h.readRam hmn fun hram => Nat.lt_of_succ_lt (hbound hram)
      obtain ⟨hlo, hend⟩ := h.readRam hmiddle hbound
      exact ⟨congr (congrArg Word.ofBytes hhi) hlo, hend⟩
  | decrementer byte => exact ⟨rfl, hmn⟩
  | external =>
      obtain ⟨hhi, hmiddle⟩ := h.busRead hmn hregion
      obtain ⟨hlo, hend⟩ := h.busRead hmiddle (Cpu.region_even_or_one hregion)
      exact ⟨congr (congrArg Word.ofBytes hhi) hlo, hend⟩

theorem readByte (address : UInt16) :
    Corresponds R (Exec.readByte address) (Exec.readByte address) := by
  intro m n hmn
  have hcpu := h.sameCpu hmn
  rw [Exec.readByte, Exec.readByte, Exec.cpu_bind, Exec.cpu_bind, ← hcpu]
  cases hregion : m.cpu.region address with
  | ram offset => exact h.readRam hmn fun hram => hram.lt_of_region hregion
  | decrementer byte => exact ⟨rfl, h.expect hmn fun _ => Cpu.byte_lt_of_region hregion⟩
  | external =>
      cases m.cpu.config.dataBus with
      | byte => exact h.busRead hmn hregion
      | word =>
          have hword := (h.readWord address).bind fun word =>
            (h.setOperandWord (some (Word.even address, word))).seq
              (.pure (Exec.selectByte address word))
          exact hword m n hmn

theorem recallWord (address : UInt16) :
    Corresponds R (Exec.recallWord address) (Exec.recallWord address) := by
  have hread := h.readWord address
  intro m n hmn
  have hsame := h.sameOperandWord hmn
  rw [Exec.recallWord, Exec.recallWord, get_bind, get_bind, ← hsame]
  rcases m.operandWord with _ | ⟨remembered, word⟩
  · exact hread m n hmn
  · dsimp only
    split
    · exact ⟨rfl, hmn⟩
    · exact hread m n hmn

theorem dummyRead (address : UInt16) (width : Width) :
    Corresponds R (Exec.dummyRead address width) (Exec.dummyRead address width) := by
  refine Exec.corresponds_cpu fun m n hmn => ?_
  rw [h.sameCpu hmn]
  refine .ite ?_ (.pure ())
  cases width with
  | byte => exact ((h.readByte address).bind fun _ => .pure _).bind fun _ => .pure ()
  | word => exact (h.readWord address).bind fun _ => .pure ()

theorem writeWord (address value : UInt16) :
    Corresponds R (Exec.writeWord address value) (Exec.writeWord address value) := by
  refine (h.setOperandWord none).seq fun m n hmn => ?_
  have hcpu := h.sameCpu hmn
  rw [Exec.cpu_bind, Exec.cpu_bind, ← hcpu]
  cases hregion : m.cpu.region (Word.even address) with
  | ram offset =>
      have hbound := fun hram : m.cpu.HasRam => hram.succ_lt_of_region hregion
      have hmiddle := h.writeRam hmn (fun hram => Nat.lt_of_succ_lt (hbound hram)) (Word.high value)
      exact ⟨rfl, h.writeRam hmiddle (fun hram => hram.succ_lt_of_region hregion) (Word.low value)⟩
  | decrementer byte =>
      exact h.modifyCpu (fun _ _ hP hcpu => hP.setDecrementer hcpu value) m n hmn
  | external =>
      have hmiddle := h.busWrite hmn hregion (Word.high value)
      exact ⟨rfl, h.busWrite hmiddle (Cpu.region_even_or_one hregion) (Word.low value)⟩

theorem writeByte (address : UInt16) (value : UInt8) :
    Corresponds R (Exec.writeByte address value) (Exec.writeByte address value) := by
  intro m n hmn
  have hcpu := h.sameCpu hmn
  rw [Exec.writeByte, Exec.writeByte, Exec.cpu_bind, Exec.cpu_bind, ← hcpu]
  cases hregion : m.cpu.region address with
  | ram offset => exact ⟨rfl, h.writeRam hmn (fun hram => hram.lt_of_region hregion) value⟩
  | decrementer byte =>
      refine h.modifyCpu (fun cpu _ hP hcpu => ?_) m n hmn
      unfold Decrementer.writeByte
      split
      · exact hP.setDecrementer hcpu _
      · exact hP.setDecrementer hcpu _
  | external =>
      cases m.cpu.config.dataBus with
      | byte => exact ⟨rfl, h.busWrite hmn hregion value⟩
      | word =>
          have hstore := (h.recallWord (Word.even address)).bind fun word =>
            h.writeWord (Word.even address) (Exec.replaceByte address word value)
          exact hstore m n hmn

theorem readBit (bit : UInt16) : Corresponds R (Exec.cruRead bit) (Exec.cruRead bit) := by
  intro m n hmn
  cases hbit : m.cpu.internalBit? (bit &&& 0x0FFF) with
  | none => exact h.cruRead hmn hbit
  | some value =>
      have hbit' := hbit
      rw [h.sameCpu hmn] at hbit'
      rw [Exec.cruRead, Exec.cruRead, get_bind, get_bind, hbit, hbit']
      exact ⟨rfl, hmn⟩

theorem writeBit (bit : UInt16) (value : Bool) :
    Corresponds R (Exec.cruWrite bit value) (Exec.cruWrite bit value) := by
  intro m n hmn
  cases hbit : m.cpu.setInternalBit? (bit &&& 0x0FFF) value with
  | none => exact ⟨rfl, h.cruWrite hmn hbit⟩
  | some cpu =>
      have hbit' := hbit
      rw [h.sameCpu hmn] at hbit'
      rw [Exec.cruWrite, Exec.cruWrite, get_bind, get_bind, hbit, hbit']
      exact ⟨rfl, h.move hmn fun _ hP hcpu => hP.setInternalBit hcpu hbit⟩

theorem operands : OperandSimulation R where
  sameView hmn := congrArg Cpu.programView (h.sameCpu hmn)
  readWord := h.readWord
  writeWord := h.writeWord
  readByte := h.readByte
  writeByte := h.writeByte
  dummyRead := h.dummyRead
  cruRead := h.readBit
  cruWrite := h.writeBit
  skip words := h.modifyCpu fun _ _ hP hcpu => hP.skip hcpu words
  setPc pc := h.modifyCpu fun _ _ hP hcpu => hP.setPc hcpu pc
  setWp wp := h.modifyCpu fun _ _ hP hcpu => hP.setWp hcpu wp

end TransferSimulation

theorem AccessSimulation.simulation (h : AccessSimulation R) : FlagSimulation R where
  toOperandSimulation := h.operands
  setFlags hchange := h.modifyCpuOf fun hmn => h.evolve hmn fun _ hP => hP.setFlags hchange
  clearMask := h.modifyCpuOf fun hmn => h.evolve hmn fun _ hP => hP.clearMask
  overflowTrap := h.modifyCpuOf fun hmn => h.evolve hmn fun _ hP => hP.overflowTrap
  illegalTrap := h.modifyCpuOf fun hmn => h.evolve hmn fun _ hP => hP.illegalTrap

end TmsCores.Tms9900
