import TmsCores.Proofs.Tms9900.ContextSwitch
import TmsCores.Proofs.Tms9900.Division
import TmsCores.Proofs.Tms9900.StatusFrame

namespace TmsCores.Tms9900

namespace Cpu

variable {cpu : Cpu} {number : UInt16}

/-- Two successive registers keep what is written to them: they do not lie in the decrementer, and
no two of their four bytes are the same to the chip. -/
structure KeepsPair (cpu : Cpu) (number : UInt16) : Prop where
  plain : cpu.HasPlain [number, number + 1]
  apart : (cpu.registerCells [number, number + 1]).Nodup

/-- The chips tell the bytes of a pair apart, so that only the decrementer is in the way. -/
theorem keepsPair_iff (hmask : cpu.config.addressMask &&& 0x3FFF = 0x3FFF)
    (hwp : cpu.wp.toNat % 2 = 0) (hnumber : number.toNat < 16) :
    cpu.KeepsPair number ↔ (cpu.config.onChip = true →
      ∀ k ∈ [number, number + 1], Word.even (cpu.registerAddress k) ≠ 0xFFFA) := by
  have hfirst := toNat_even_registerAddress hwp number
  have hsecond := toNat_even_registerAddress hwp (number + 1)
  have hfirstNext := Word.toNat_even_or_one (cpu.registerAddress number)
  have hsecondNext := Word.toNat_even_or_one (cpu.registerAddress (number + 1))
  have hsucc : (number + 1).toNat = number.toNat + 1 := by
    rw [UInt16.toNat_add]
    exact Nat.mod_eq_of_lt (by simp only [UInt16.reduceToNat]; omega)
  have hapart : (cpu.registerCells [number, number + 1]).Nodup := by
    have hne {a b : UInt16} := cell_ne (a := a) (b := b) hmask
    simp only [registerCells, wordCells, List.flatMap_cons, List.flatMap_nil, List.append_nil,
      List.cons_append, List.nil_append, List.nodup_cons, List.mem_cons, List.not_mem_nil,
      or_false, not_or, not_false_iff, List.nodup_nil, and_true]
    exact ⟨⟨hne (by omega), hne (by omega), hne (by omega)⟩, ⟨hne (by omega), hne (by omega)⟩,
      hne (by omega)⟩
  rw [← hasPlain_iff]
  exact ⟨KeepsPair.plain, fun h => ⟨h, hapart⟩⟩

theorem chip_overflowTrap (cpu : Cpu) : cpu.overflowTrap.chip = cpu.chip := by
  unfold overflowTrap
  split
  · rfl
  · rfl

theorem cell_ne_of_nodup {address : UInt16} (h : (cpu.wordCells address).Nodup) :
    cpu.cell (Word.even address ||| 1) ≠ cpu.cell (Word.even address) := by
  have hnot := (List.nodup_cons.mp h).1
  rw [List.mem_singleton] at hnot
  exact Ne.symm hnot

theorem KeepsPair.separate (h : cpu.KeepsPair number) :
    (cpu.wordCells (cpu.registerAddress number)).Nodup ∧
      (cpu.wordCells (cpu.registerAddress (number + 1))).Nodup ∧
      ∀ cell ∈ cpu.wordCells (cpu.registerAddress number),
        cell ∉ cpu.wordCells (cpu.registerAddress (number + 1)) := by
  have hapart := h.apart
  rw [registerCells, List.flatMap_cons, List.flatMap_singleton, List.nodup_append] at hapart
  obtain ⟨hfirst, hsecond, hne⟩ := hapart
  exact ⟨hfirst, hsecond, fun cell hcell hmem => hne cell hcell cell hmem rfl⟩

end Cpu

variable {β : Type} [Bus β] [RamBus β] {before machine next entry : Machine β}

open RamBus

namespace Machine

/-- What a program finds in a register of its workspace. -/
def register (machine : Machine β) (number : UInt16) : UInt16 :=
  machine.heldWord (machine.cpu.registerAddress number)

/-- The number in a register and the next, the more significant word first. -/
def pair (machine : Machine β) (number : UInt16) : Nat :=
  Division.joinWords (machine.register number) (machine.register (number + 1))

def signedPair (machine : Machine β) (number : UInt16) : Int :=
  Division.joinSigned (machine.register number) (machine.register (number + 1))

/-- A register and the next, taken as what a division leaves. -/
def division (machine : Machine β) (number : UInt16) : Division where
  quotient := machine.register number
  remainder := machine.register (number + 1)

/-- Two words are in a pair of registers, and stay there as long as nobody writes. -/
structure HoldsPair (machine : Machine β) (number hi lo : UInt16) : Prop where
  plain : machine.cpu.HasPlain [number, number + 1]
  hi_eq : machine.register number = hi
  lo_eq : machine.register (number + 1) = lo

/-- The operands of an instruction were too much for it: it has set the overflow bit, and has only
read memory. -/
structure Refuses (entry machine : Machine β) : Prop where
  overflow : Status.has machine.cpu.st Status.overflow = true
  chip_eq : machine.cpu.chip = entry.cpu.chip
  onlyRead : Bus.OnlyRead entry.bus machine.bus

/-- Since some moment memory has been read and nothing else has happened. -/
structure Inspected (before machine : Machine β) : Prop where
  cpu_eq : machine.cpu = before.cpu
  onlyRead : Bus.OnlyRead before.bus machine.bus

theorem SameMemory.register_eq (h : before.SameMemory machine) {k : UInt16}
    (hplain : before.cpu.HasPlain [k]) : machine.register k = before.register k := by
  rw [register, h.registerAddress_eq]
  refine heldWord_congr h.config_eq fun cell hcell =>
    contents_of_isPlain h.ram_eq h.memory_eq (hplain cell ?_)
  exact Cpu.mem_registerCells.mpr ⟨k, List.mem_singleton_self k, hcell⟩

theorem HoldsPair.timePassed {number hi lo : UInt16} (h : before.HoldsPair number hi lo)
    (hpassed : before.TimePassed machine) : machine.HoldsPair number hi lo := by
  have hsame := hpassed.sameMemory
  refine ⟨?_, ?_, ?_⟩
  · rw [hsame.hasPlain_eq]
    exact h.plain
  · rw [hsame.register_eq (h.plain.mono (by simp)), h.hi_eq]
  · rw [hsame.register_eq (h.plain.mono (by simp)), h.lo_eq]

theorem HoldsPair.withSt {number hi lo : UInt16} (h : machine.HoldsPair number hi lo)
    (st : UInt16) :
    HoldsPair { machine with cpu := { machine.cpu with st := st } } number hi lo :=
  ⟨h.plain, h.hi_eq, h.lo_eq⟩

theorem memory_of_onlyRead {bus changed : β} (h : Bus.OnlyRead bus changed) :
    memory changed = memory bus := by
  induction h with
  | refl => rfl
  | tail _ hread ih =>
      refine Eq.trans ?_ ih
      cases hread with
      | memory address => exact memory_read _ address
      | io address => exact memory_ioRead _ address

theorem contents_eq_of_onlyRead (hchip : machine.cpu.chip = before.cpu.chip)
    (h : Bus.OnlyRead before.bus machine.bus) : machine.contents = before.contents := by
  funext cell
  rw [contents, contents, memory_of_onlyRead h]
  cases cell with
  | ram offset | decrementer byte => rw [Cpu.contents, Cpu.contents, hchip]
  | memory address => rfl

namespace Inspected

omit [RamBus β] in
theorem refl (machine : Machine β) : machine.Inspected machine :=
  ⟨rfl, .refl⟩

theorem undisturbed (h : before.Inspected machine) : before.Undisturbed machine :=
  ⟨h.cpu_eq, memory_of_onlyRead h.onlyRead⟩

end Inspected

end Machine

open Machine

namespace Exec

omit [RamBus β] in
theorem onlyRead_readWord (address : UInt16) (machine : Machine β) :
    Bus.OnlyRead machine.bus (readWord address machine).2.bus := by
  cases hregion : machine.cpu.region (Word.even address) with
  | ram offset | decrementer byte =>
      rw [readWord, cpu_bind, hregion]
      exact .refl
  | external =>
      rw [readWord_eq_of_external hregion]
      exact .tail (.tail .refl (.memory _ _)) (.memory _ _)

omit [RamBus β] in
theorem fetch_inspects (machine : Machine β) :
    ({ machine with cpu := machine.cpu.skip 1 } : Machine β).Inspected (fetch machine).2 where
  cpu_eq := cpu_fetch machine
  onlyRead := onlyRead_readWord machine.cpu.pc machine

theorem readWord_inspects (address : UInt16) (h : before.Inspected machine) : ∃ next,
    readWord address machine = (before.heldWord address, next) ∧ before.Inspected next := by
  obtain ⟨next, hread, hnext⟩ := readWord_spec address h.undisturbed
  have honlyRead := onlyRead_readWord address machine
  rw [hread] at honlyRead
  exact ⟨next, hread, hnext.cpu_eq, h.onlyRead.trans honlyRead⟩

theorem readRegister_inspects (number : UInt16) (h : before.Inspected machine) : ∃ next,
    readRegister number machine = (before.register number, next) ∧ before.Inspected next := by
  rw [readRegister, cpu_bind, h.cpu_eq]
  exact readWord_inspects _ h

theorem sourceWord_inspects {opcode address : UInt16} {cycles : Nat}
    (h : resolve (.source opcode) .word machine = ((address, cycles), entry)) : ∃ next,
    sourceWord opcode machine = ((entry.heldWord address, cycles), next) ∧
      entry.Inspected next := by
  obtain ⟨next, hread, hnext⟩ := readWord_inspects address (.refl entry)
  rw [sourceWord, bind_of_eq h]
  dsimp only
  rw [bind_of_eq hread]
  exact ⟨next, rfl, hnext⟩

omit [RamBus β] in
theorem core_writeRegister (number value : UInt16) (machine : Machine β) :
    (writeRegister number value machine).2.cpu.core = machine.cpu.core :=
  core_writeWord _ value

section

variable {number k : UInt16} (hsize : machine.cpu.chip.ram.size = 0x100)
  (hplain : machine.cpu.HasPlain [number]) (value : UInt16)

include hsize hplain

theorem ram_size_writeRegister :
    (writeRegister number value machine).2.cpu.chip.ram.size = 0x100 := by
  obtain ⟨⟨ram, hram, hcpu⟩, _⟩ := writeWord_spec hsize hplain.cell_isPlain value
  rw [writeRegister_eq, hcpu]
  exact hram

theorem register_writeRegister
    (hapart : (machine.cpu.wordCells (machine.cpu.registerAddress number)).Nodup) :
    (writeRegister number value machine).2.register number = value := by
  have haddress := Cpu.eq_of_core (·.registerAddress) (fun _ => rfl)
    (core_writeRegister number value machine)
  rw [register, haddress]
  exact heldWord_writeWord hsize hplain.cell_isPlain value (Cpu.cell_ne_of_nodup hapart)

theorem register_writeRegister_of_separate
    (hseparate : ∀ cell ∈ machine.cpu.wordCells (machine.cpu.registerAddress k),
      cell ∉ machine.cpu.wordCells (machine.cpu.registerAddress number)) :
    (writeRegister number value machine).2.register k = machine.register k := by
  have hcore := core_writeRegister number value machine
  rw [register, Cpu.eq_of_core (·.registerAddress) (fun _ => rfl) hcore]
  refine heldWord_congr (Cpu.eq_of_core (·.config) (fun _ => rfl) hcore) fun cell hcell => ?_
  exact contents_writeWord_of_not_mem hsize hplain.cell_isPlain value (hseparate cell hcell)

end

/-- What is written to a pair of registers is found there. -/
theorem holdsPair_write {number : UInt16} (hsize : machine.cpu.chip.ram.size = 0x100)
    (hpair : machine.cpu.KeepsPair number) (hi lo : UInt16) :
    (writeRegister (number + 1) lo (writeRegister number hi machine).2).2.HoldsPair
      number hi lo := by
  obtain ⟨hfirst, hsecond, hseparate⟩ := hpair.separate
  have hplain : machine.cpu.HasPlain [number] := hpair.plain.mono (by simp)
  have hnextPlain : machine.cpu.HasPlain [number + 1] := hpair.plain.mono (by simp)
  have hfound := register_writeRegister hsize hplain hi hfirst
  have hnextSize := ram_size_writeRegister hsize hplain hi
  have hcore := core_writeRegister number hi machine
  generalize (writeRegister number hi machine).2 = next at hfound hnextSize hcore ⊢
  have hcells := Cpu.eq_of_core (·.wordCells) (fun _ => rfl) hcore
  have haddress := Cpu.eq_of_core (·.registerAddress) (fun _ => rfl) hcore
  have hregisters := Cpu.eq_of_core (·.HasPlain) (fun _ => rfl) hcore
  rw [← hcells, ← haddress] at hsecond hseparate
  rw [← hregisters] at hnextPlain
  constructor
  case plain =>
    rw [Cpu.eq_of_core (·.HasPlain) (fun _ => rfl) (core_writeRegister _ lo next), hregisters]
    exact hpair.plain
  case hi_eq => rw [register_writeRegister_of_separate hnextSize hnextPlain lo hseparate, hfound]
  case lo_eq => exact register_writeRegister hnextSize hnextPlain lo hsecond

omit [RamBus β] in
theorem setOverflow_refuses (h : entry.Inspected machine) :
    entry.Refuses (setOverflow machine).2 where
  overflow := by
    change Status.has (Cpu.overflowTrap _).st Status.overflow = true
    rw [Cpu.st_overflowTrap]
    exact Status.has_withBit (by decide) machine.cpu.st true
  chip_eq := by
    refine Eq.trans ?_ (congrArg (·.chip) h.cpu_eq)
    exact Cpu.chip_overflowTrap _
  onlyRead := h.onlyRead

section

variable {opcode address : UInt16} {cycles : Nat}
  (hresolve : resolve (.source opcode) .word machine = ((address, cycles), entry))

include hresolve

theorem mpy_holds (hsize : entry.cpu.chip.ram.size = 0x100)
    (hpair : entry.cpu.KeepsPair (registerField opcode)) :
    let product := (entry.register (registerField opcode)).toNat * (entry.heldWord address).toNat
    (mpy opcode machine).2.HoldsPair (registerField opcode) (UInt16.ofNat (product / 0x10000))
      (UInt16.ofNat product) := by
  obtain ⟨read, hsource, hread⟩ := sourceWord_inspects hresolve
  obtain ⟨next, hd, hnext⟩ := readRegister_inspects (registerField opcode) hread
  rw [← hnext.cpu_eq] at hsize hpair
  rw [mpy, bind_of_eq hsource]
  dsimp only
  rw [bind_of_eq hd]
  exact holdsPair_write hsize hpair _ _

theorem mpys_holds (hsize : entry.cpu.chip.ram.size = 0x100) (hpair : entry.cpu.KeepsPair 0) :
    let product := Word.toSigned (entry.register 0) * Word.toSigned (entry.heldWord address)
    (mpys opcode machine).2.HoldsPair 0 (Division.wordOfInt (product / 0x10000))
      (Division.wordOfInt product) ∧
    Status.TellsSign (mpys opcode machine).2.cpu.st product := by
  obtain ⟨read, hsource, hread⟩ := sourceWord_inspects hresolve
  obtain ⟨next, hd, hnext⟩ := readRegister_inspects 0 hread
  rw [← hnext.cpu_eq] at hsize hpair
  rw [mpys, bind_of_eq hsource]
  dsimp only
  rw [bind_of_eq hd]
  exact ⟨(holdsPair_write hsize hpair _ _).withSt _, Status.tellsSign_compareSigned _ _⟩

theorem div_refuses
    (hle : entry.heldWord address ≤ entry.register (registerField opcode)) :
    entry.Refuses (div opcode machine).2 := by
  obtain ⟨read, hsource, hread⟩ := sourceWord_inspects hresolve
  obtain ⟨next, hhi, hnext⟩ := readRegister_inspects (registerField opcode) hread
  rw [div, bind_of_eq hsource]
  dsimp only
  rw [bind_of_eq hhi, if_pos hle]
  exact setOverflow_refuses hnext

theorem div_holds (hsize : entry.cpu.chip.ram.size = 0x100)
    (hpair : entry.cpu.KeepsPair (registerField opcode))
    (hlt : entry.register (registerField opcode) < entry.heldWord address) :
    let division := Division.unsigned (entry.register (registerField opcode))
      (entry.register (registerField opcode + 1)) (entry.heldWord address)
    (div opcode machine).2.HoldsPair (registerField opcode) division.quotient
      division.remainder ∧
    Status.has (div opcode machine).2.cpu.st Status.overflow = false := by
  obtain ⟨read, hsource, hread⟩ := sourceWord_inspects hresolve
  obtain ⟨first, hhi, hfirst⟩ := readRegister_inspects (registerField opcode) hread
  obtain ⟨next, hlo, hnext⟩ := readRegister_inspects (registerField opcode + 1) hfirst
  rw [← hnext.cpu_eq] at hsize hpair
  rw [div, bind_of_eq hsource]
  dsimp only
  rw [bind_of_eq hhi, if_neg (UInt16.not_le.mpr hlt), bind_of_eq hlo,
    Division.unsigned?_eq (UInt16.not_le.mpr hlt), require_some]
  exact ⟨(holdsPair_write hsize hpair _ _).withSt _, Status.has_withBit (by decide) _ false⟩

theorem divs_refuses (hnone : Division.signedQuotient? (entry.register 0) (entry.register 1)
    (entry.heldWord address) = none) :
    entry.Refuses (divs opcode machine).2 := by
  obtain ⟨read, hsource, hread⟩ := sourceWord_inspects hresolve
  obtain ⟨first, hhi, hfirst⟩ := readRegister_inspects 0 hread
  obtain ⟨next, hlo, hnext⟩ := readRegister_inspects 1 hfirst
  rw [divs, bind_of_eq hsource]
  dsimp only
  rw [bind_of_eq hhi, bind_of_eq hlo, hnone]
  exact setOverflow_refuses hnext

theorem divs_holds (hsize : entry.cpu.chip.ram.size = 0x100) (hpair : entry.cpu.KeepsPair 0)
    {quotient : Int} (hsome : Division.signedQuotient? (entry.register 0) (entry.register 1)
      (entry.heldWord address) = some quotient) :
    (divs opcode machine).2.HoldsPair 0 (Division.wordOfInt quotient)
      (Division.wordOfInt (Division.signedRemainder (entry.register 0) (entry.register 1)
        (entry.heldWord address))) ∧
    Status.has (divs opcode machine).2.cpu.st Status.overflow = false ∧
    Status.TellsSign (divs opcode machine).2.cpu.st quotient := by
  obtain ⟨read, hsource, hread⟩ := sourceWord_inspects hresolve
  obtain ⟨first, hhi, hfirst⟩ := readRegister_inspects 0 hread
  obtain ⟨next, hlo, hnext⟩ := readRegister_inspects 1 hfirst
  rw [← hnext.cpu_eq] at hsize hpair
  rw [divs, bind_of_eq hsource]
  dsimp only
  rw [bind_of_eq hhi, bind_of_eq hlo, hsome]
  dsimp only
  rw [Division.signedRemainder?_eq hsome, require_some]
  have hcomparison (st : UInt16) : (st &&& ~~~Status.overflow) &&& Status.comparison =
      st &&& Status.comparison :=
    Word.andNot_and_of_disjoint (by decide)
  refine ⟨(holdsPair_write hsize hpair _ _).withSt _, Status.has_withBit (by decide) _ false, ?_⟩
  exact (Status.tellsSign_compareSigned _ quotient).congr (hcomparison _)

end

end Exec

namespace Machine

/-- How a division ends, given what it may leave in a pair of registers: it leaves that when there
is any such thing, and otherwise refuses. -/
structure Divides (entry worked next : Machine β) (number : UInt16)
    (IsResult : Division → Prop) : Prop where
  exact : (∃ division, IsResult division) →
    IsResult (next.division number) ∧ Status.has next.cpu.st Status.overflow = false
  refuses : (¬∃ division, IsResult division) →
    entry.Refuses worked ∧ worked.contents = entry.contents ∧
      Status.has next.cpu.st Status.overflow = true

section

variable {number hi lo : UInt16} {IsResult : Division → Prop}

theorem HoldsPair.division_eq (h : machine.HoldsPair number hi lo) :
    machine.division number = ⟨hi, lo⟩ := by
  rw [division, h.hi_eq, h.lo_eq]

theorem HoldsPair.divides (h : next.HoldsPair number hi lo) (hresult : IsResult ⟨hi, lo⟩)
    (hst : Status.has next.cpu.st Status.overflow = false) :
    entry.Divides before next number IsResult where
  exact _ := ⟨h.division_eq ▸ hresult, hst⟩
  refuses hnone := absurd ⟨_, hresult⟩ hnone

theorem Refuses.divides (h : entry.Refuses before) (hnone : ∀ division, ¬IsResult division)
    (hst : next.cpu.st = before.cpu.st) : entry.Divides before next number IsResult where
  exact hsome := absurd hsome (not_exists.mpr hnone)
  refuses _ := ⟨h, contents_eq_of_onlyRead h.chip_eq h.onlyRead, hst.symm ▸ h.overflow⟩

end

omit [RamBus β] in
theorem resolve_found (machine : Machine β) :
    Exec.resolve (.source machine.found.1.opcode) .word machine.found.2 =
      ((machine.resolved.1.1, machine.resolved.1.2), machine.resolved.2) :=
  rfl

section

variable {number : UInt16} (limit : Nat) (hsize : machine.resolved.2.cpu.chip.ram.size = 0x100)

include hsize

theorem pair_of_mpy (hexecutes : machine.executes = some .mpy)
    (hnumber : registerField machine.found.1.opcode = number)
    (hpair : machine.resolved.2.cpu.KeepsPair number) :
    (Exec.iterate limit machine).2.pair number = (machine.resolved.2.register number).toNat *
      (machine.resolved.2.heldWord machine.resolved.1.1).toNat := by
  subst hnumber
  have hholds := Exec.mpy_holds machine.resolve_found hsize hpair
  have hperform : machine.worked = (Exec.mpy machine.found.1.opcode machine.found.2).2 :=
    worked_of_executes hexecutes nofun
  rw [← hperform] at hholds
  have hnext := hholds.timePassed (machine.timePassed_iterate limit)
  rw [pair, hnext.hi_eq, hnext.lo_eq]
  exact Division.joinWords_product _ _

theorem signedPair_of_mpys (hexecutes : machine.executes = some .mpys)
    (hpair : machine.resolved.2.cpu.KeepsPair 0) :
    let product := Word.toSigned (machine.resolved.2.register 0) *
      Word.toSigned (machine.resolved.2.heldWord machine.resolved.1.1)
    (Exec.iterate limit machine).2.signedPair 0 = product ∧
      Status.TellsSign (Exec.iterate limit machine).2.cpu.st product := by
  have hmpys := Exec.mpys_holds machine.resolve_found hsize hpair
  have hperform : machine.worked = (Exec.mpys machine.found.1.opcode machine.found.2).2 :=
    worked_of_executes hexecutes nofun
  rw [← hperform] at hmpys
  obtain ⟨hholds, hsign⟩ := hmpys
  have hnext := hholds.timePassed (machine.timePassed_iterate limit)
  rw [signedPair, hnext.hi_eq, hnext.lo_eq, machine.st_iterate]
  exact ⟨Division.joinSigned_product _ _, hsign⟩

theorem divides_of_div (hexecutes : machine.executes = some .div)
    (hnumber : registerField machine.found.1.opcode = number)
    (hpair : machine.resolved.2.cpu.KeepsPair number) :
    machine.resolved.2.Divides machine.worked (Exec.iterate limit machine).2 number
      (Division.Divides · (machine.resolved.2.pair number)
        (machine.resolved.2.heldWord machine.resolved.1.1).toNat) := by
  subst hnumber
  have hst := machine.st_iterate limit
  have hperform : machine.worked = (Exec.div machine.found.1.opcode machine.found.2).2 :=
    worked_of_executes hexecutes nofun
  by_cases hle : machine.resolved.2.heldWord machine.resolved.1.1 ≤
      machine.resolved.2.register (registerField machine.found.1.opcode)
  · have hrefuses := Exec.div_refuses machine.resolve_found hle
    rw [← hperform] at hrefuses
    exact hrefuses.divides (Division.not_divides hle) hst
  · have hlt := UInt16.not_le.mp hle
    have hdiv := Exec.div_holds machine.resolve_found hsize hpair hlt
    rw [← hperform] at hdiv
    have hnext := hdiv.1.timePassed (machine.timePassed_iterate limit)
    exact hnext.divides (Division.divides_unsigned hlt) (hst ▸ hdiv.2)

theorem divides_of_divs (hexecutes : machine.executes = some .divs)
    (hpair : machine.resolved.2.cpu.KeepsPair 0) :
    let IsResult := (Division.DividesSigned · (machine.resolved.2.signedPair 0)
      (Word.toSigned (machine.resolved.2.heldWord machine.resolved.1.1)))
    machine.resolved.2.Divides machine.worked (Exec.iterate limit machine).2 0 IsResult ∧
      ((∃ division, IsResult division) →
        Status.TellsSign (Exec.iterate limit machine).2.cpu.st
          (Word.toSigned ((Exec.iterate limit machine).2.division 0).quotient)) := by
  intro IsResult
  have hst := machine.st_iterate limit
  have hperform : machine.worked = (Exec.divs machine.found.1.opcode machine.found.2).2 :=
    worked_of_executes hexecutes nofun
  cases hquotient : Division.signedQuotient? (machine.resolved.2.register 0)
      (machine.resolved.2.register 1) (machine.resolved.2.heldWord machine.resolved.1.1) with
  | none =>
      have hnone : ∀ division, ¬IsResult division := Division.not_dividesSigned hquotient
      have hrefuses := Exec.divs_refuses machine.resolve_found hquotient
      rw [← hperform] at hrefuses
      exact ⟨hrefuses.divides hnone hst, fun hsome => absurd hsome (not_exists.mpr hnone)⟩
  | some quotient =>
      have hdivs := Exec.divs_holds machine.resolve_found hsize hpair hquotient
      rw [← hperform] at hdivs
      obtain ⟨hholds, hoverflow, hsign⟩ := hdivs
      obtain ⟨hresult, hword⟩ := Division.dividesSigned_of_signedQuotient? hquotient
      have hnext := hholds.timePassed (machine.timePassed_iterate limit)
      refine ⟨hnext.divides hresult (hst ▸ hoverflow), fun _ => ?_⟩
      rw [hnext.division_eq, hword, hst]
      exact hsign

end

end Machine

/-- Before a signed division of -7 by 2. -/
def Machine.beforeDivision : Machine FlatBus :=
  let program := Memory.zero.pokeWord 0x0200 0x0182
  let operands := ((program.pokeWord 0x0100 0xFFFF).pokeWord 0x0102 0xFFF9).pokeWord 0x0104 2
  let new : Machine FlatBus := ⟨.ofConfig Variant.tms9995.config, { memory := operands }⟩
  { new with cpu := ((new.cpu.setWp 0x0100).setPc 0x0200).setSt 0 }

theorem Machine.beforeDivision_reachable : beforeDivision.Reachable Variant.tms9995.config := by
  let new : Machine FlatBus := ⟨.ofConfig Variant.tms9995.config, beforeDivision.bus⟩
  have hnew : new.Reachable Variant.tms9995.config := .create
  exact hnew.place 0x0100 0x0200 0

end TmsCores.Tms9900
