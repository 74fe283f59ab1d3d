import TmsCores.Proofs.Tms9900.Contents
import TmsCores.Proofs.Tms9900.Core

namespace TmsCores.Tms9900

namespace Cpu

variable {cpu other : Cpu} {number : UInt16} {numbers : List UInt16}

def registerCells (cpu : Cpu) (numbers : List UInt16) : List Cell :=
  numbers.flatMap fun number => cpu.wordCells (cpu.registerAddress number)

/-- Some registers keep what is written to them: they do not lie in the decrementer. -/
def HasPlain (cpu : Cpu) (numbers : List UInt16) : Prop :=
  ∀ cell ∈ cpu.registerCells numbers, cell.IsPlain

theorem registerCells_congr (hconfig : cpu.config = other.config) (hwp : cpu.wp = other.wp) :
    cpu.registerCells = other.registerCells := by
  funext numbers
  unfold registerCells registerAddress
  rw [wordCells_congr hconfig, hwp]

theorem mem_registerCells {cell : Cell} : cell ∈ cpu.registerCells numbers ↔
    ∃ number ∈ numbers, cell ∈ cpu.wordCells (cpu.registerAddress number) :=
  List.mem_flatMap

theorem HasPlain.mono {more : List UInt16} (h : cpu.HasPlain more) (hsubset : numbers ⊆ more) :
    cpu.HasPlain numbers := by
  intro cell hcell
  obtain ⟨number, hnumber, hcell⟩ := mem_registerCells.mp hcell
  exact h cell (mem_registerCells.mpr ⟨number, hsubset hnumber, hcell⟩)

theorem hasPlain_of_not_onChip (h : cpu.config.onChip = false) (numbers : List UInt16) :
    cpu.HasPlain numbers := by
  have hplain (address : UInt16) : (cpu.cell address).IsPlain :=
    cell_isPlain_iff.mpr fun honChip => absurd (h.symm.trans honChip) nofun
  intro cell hcell
  obtain ⟨number, _, hcell⟩ := mem_registerCells.mp hcell
  rcases mem_wordCells.mp hcell with rfl | rfl
  · exact hplain _
  · exact hplain _

theorem hasPlain_iff {numbers : List UInt16} : cpu.HasPlain numbers ↔
    (cpu.config.onChip = true →
      ∀ number ∈ numbers, Word.even (cpu.registerAddress number) ≠ 0xFFFA) := by
  have hdecrementer (address : UInt16) : Word.even address ≠ 0xFFFA ↔
      (¬(0xFFFA ≤ (Word.even address).toNat ∧ (Word.even address).toNat ≤ 0xFFFB) ∧
        ¬(0xFFFA ≤ (Word.even address ||| 1).toNat ∧
          (Word.even address ||| 1).toNat ≤ 0xFFFB)) := by
    have heven := Word.toNat_even_mod_two address
    have hnext := Word.toNat_even_or_one address
    rw [ne_eq, ← UInt16.toNat_inj]
    simp only [UInt16.reduceToNat]
    omega
  constructor
  · intro h honChip number hnumber
    rw [hdecrementer]
    constructor
    · exact cell_isPlain_iff.mp (h _ (mem_registerCells.mpr
        ⟨number, hnumber, mem_wordCells.mpr (.inl rfl)⟩)) honChip
    · exact cell_isPlain_iff.mp (h _ (mem_registerCells.mpr
        ⟨number, hnumber, mem_wordCells.mpr (.inr rfl)⟩)) honChip
  · intro h cell hcell
    obtain ⟨number, hnumber, hcell⟩ := mem_registerCells.mp hcell
    rcases mem_wordCells.mp hcell with rfl | rfl
    · exact cell_isPlain_iff.mpr fun honChip =>
        ((hdecrementer _).mp (h honChip number hnumber)).1
    · exact cell_isPlain_iff.mpr fun honChip =>
        ((hdecrementer _).mp (h honChip number hnumber)).2

theorem HasPlain.cell_isPlain (h : cpu.HasPlain [number]) :
    (cpu.cell (Word.even (cpu.registerAddress number))).IsPlain :=
  h _ (mem_registerCells.mpr ⟨number, List.mem_singleton_self _, mem_wordCells.mpr (.inl rfl)⟩)

theorem toNat_even_registerAddress (hwp : cpu.wp.toNat % 2 = 0) (number : UInt16) :
    (Word.even (cpu.registerAddress number)).toNat =
      (cpu.wp.toNat + number.toNat * 2) % 0x10000 := by
  have hdiv := Word.toNat_even_div_two (cpu.registerAddress number)
  have heven := Word.toNat_even_mod_two (cpu.registerAddress number)
  have haddress : (cpu.registerAddress number).toNat =
      (cpu.wp.toNat + number.toNat * 2) % 0x10000 := by
    rw [registerAddress, UInt16.toNat_add, UInt16.toNat_mul]
    simp only [UInt16.reduceToNat, Nat.reducePow]
    omega
  omega

theorem not_mem_wordCells_of_ne (hmask : cpu.config.addressMask &&& 0x3FFF = 0x3FFF)
    (hwp : cpu.wp.toNat % 2 = 0) {k : UInt16} (hnumber : number.toNat < 16) (hk : k.toNat < 16)
    (hne : k ≠ number) {cell : Cell} (h : cell ∈ cpu.wordCells (cpu.registerAddress k)) :
    cell ∉ cpu.wordCells (cpu.registerAddress number) := by
  have hfirst := toNat_even_registerAddress hwp k
  have hsecond := toNat_even_registerAddress hwp number
  have hfirstNext := Word.toNat_even_or_one (cpu.registerAddress k)
  have hsecondNext := Word.toNat_even_or_one (cpu.registerAddress number)
  have hapart : k.toNat ≠ number.toNat := fun hsame => hne (UInt16.toNat_inj.mp hsame)
  rw [mem_wordCells, not_or]
  rcases mem_wordCells.mp h with rfl | rfl
  · exact ⟨cell_ne hmask (by omega), cell_ne hmask (by omega)⟩
  · exact ⟨cell_ne hmask (by omega), cell_ne hmask (by omega)⟩

end Cpu

variable {β : Type} [Bus β] {machine : Machine β}

namespace Exec

theorem core_writeWord (address value : UInt16) :
    (writeWord address value machine).2.cpu.core = machine.cpu.core := by
  obtain ⟨chip, hcpu⟩ := cpu_writeWord address value machine
  rw [hcpu]
  rfl

theorem writeRegister_eq (number value : UInt16) (machine : Machine β) :
    writeRegister number value machine =
      writeWord (machine.cpu.registerAddress number) value machine :=
  rfl

/-- Puts words into registers, each given by its number. -/
def save : List (UInt16 × UInt16) → Exec β Unit
  | [] => return
  | (number, value) :: rest => do
      writeRegister number value
      save rest

theorem save_cons (number value : UInt16) (rest : List (UInt16 × UInt16)) (machine : Machine β) :
    (save ((number, value) :: rest) machine).2 =
      (save rest (writeWord (machine.cpu.registerAddress number) value machine).2).2 :=
  rfl

theorem core_save (words : List (UInt16 × UInt16)) (machine : Machine β) :
    (save words machine).2.cpu.core = machine.cpu.core := by
  induction words generalizing machine with
  | nil => rfl
  | cons word rest ih =>
      rw [save_cons]
      exact (ih _).trans (core_writeWord _ word.2)

end Exec

variable [RamBus β]

open RamBus

/-- A machine has put some words into registers of its workspace, which keep them.  Nothing else has
changed of what programs can find, as compared to another machine. -/
structure Machine.HasSaved (entry : Machine β) (saved : List (UInt16 × UInt16))
    (machine : Machine β) : Prop where
  config_eq : machine.cpu.config = entry.cpu.config
  ram_size : machine.cpu.chip.ram.size = 0x100
  wp_even : machine.cpu.wp.toNat % 2 = 0
  plain : machine.cpu.HasPlain (saved.map Prod.fst)
  found : ∀ word ∈ saved, machine.heldWord (machine.cpu.registerAddress word.1) = word.2
  kept : ∀ cell, cell.IsPlain → cell ∉ machine.cpu.registerCells (saved.map Prod.fst) →
    machine.contents cell = entry.contents cell

namespace Machine

variable {entry next : Machine β} {saved : List (UInt16 × UInt16)}

/-- The workspace is the same, and so is the memory on and off the chip. -/
structure SameMemory (before machine : Machine β) : Prop where
  config_eq : machine.cpu.config = before.cpu.config
  wp_eq : machine.cpu.wp = before.cpu.wp
  ram_eq : machine.cpu.chip.ram = before.cpu.chip.ram
  memory_eq : memory machine.bus = memory before.bus

theorem contents_of_isPlain (hram : next.cpu.chip.ram = machine.cpu.chip.ram)
    (hmemory : memory next.bus = memory machine.bus) {cell : Cell} (h : cell.IsPlain) :
    next.contents cell = machine.contents cell := by
  unfold contents
  rw [hmemory]
  cases cell with
  | ram offset =>
      rw [Cpu.contents, Cpu.contents, OnChip.byte, OnChip.byte, OnChip.byte?, OnChip.byte?, hram]
  | memory address => rfl
  | decrementer byte => exact h.elim

namespace SameMemory

variable (h : machine.SameMemory next)

include h

theorem registerAddress_eq : next.cpu.registerAddress = machine.cpu.registerAddress := by
  funext number
  rw [Cpu.registerAddress, h.wp_eq, Cpu.registerAddress]

theorem registerCells_eq : next.cpu.registerCells = machine.cpu.registerCells :=
  Cpu.registerCells_congr h.config_eq h.wp_eq

theorem hasPlain_eq : next.cpu.HasPlain = machine.cpu.HasPlain := by
  funext numbers
  rw [Cpu.HasPlain, h.registerCells_eq, Cpu.HasPlain]

end SameMemory

namespace HasSaved

theorem of_sameMemory (h : entry.HasSaved saved machine) (hsame : machine.SameMemory next) :
    entry.HasSaved saved next := by
  refine ⟨hsame.config_eq.trans h.config_eq, ?_, ?_, ?_, fun word hword => ?_,
    fun cell hplain hcell => ?_⟩
  · rw [hsame.ram_eq]
    exact h.ram_size
  · rw [hsame.wp_eq]
    exact h.wp_even
  · rw [hsame.hasPlain_eq]
    exact h.plain
  · rw [hsame.registerAddress_eq, ← h.found word hword]
    refine heldWord_congr hsame.config_eq fun cell hcell =>
      contents_of_isPlain hsame.ram_eq hsame.memory_eq ?_
    exact h.plain cell (Cpu.mem_registerCells.mpr ⟨_, List.mem_map_of_mem hword, hcell⟩)
  · rw [hsame.registerCells_eq] at hcell
    exact (contents_of_isPlain hsame.ram_eq hsame.memory_eq hplain).trans
      (h.kept cell hplain hcell)

theorem writeWord (h : entry.HasSaved saved machine)
    (hmask : entry.cpu.config.addressMask &&& 0x3FFF = 0x3FFF) {number : UInt16}
    (hplain : machine.cpu.HasPlain [number]) (hnumber : number.toNat < 16)
    (hsaved : ∀ word ∈ saved, word.1.toNat < 16 ∧ word.1 ≠ number) (value : UInt16) :
    entry.HasSaved (saved ++ [(number, value)])
      (Exec.writeWord (machine.cpu.registerAddress number) value machine).2 := by
  have hcore :
      (Exec.writeWord (machine.cpu.registerAddress number) value machine).2.cpu.core =
        machine.cpu.core :=
    Exec.core_writeWord _ value
  have hconfig := Cpu.eq_of_core (·.config) (fun _ => rfl) hcore
  have haddress := Cpu.eq_of_core (·.registerAddress) (fun _ => rfl) hcore
  have hwp := Cpu.eq_of_core (·.wp) (fun _ => rfl) hcore
  have hcells := Cpu.registerCells_congr hconfig hwp
  have hown := hplain.cell_isPlain
  rw [← h.config_eq] at hmask
  obtain ⟨⟨ram, hsize, hcpu⟩, _⟩ := Exec.writeWord_spec h.ram_size hown value
  refine ⟨hconfig.trans h.config_eq, ?_, ?_, ?_, fun word hword => ?_, fun cell hcell hnot => ?_⟩
  · rw [hcpu]
    exact hsize
  · rw [hwp]
    exact h.wp_even
  · intro cell hcell
    rw [hcells, Cpu.mem_registerCells] at hcell
    obtain ⟨other, hother, hcell⟩ := hcell
    rw [List.map_append, List.mem_append] at hother
    rcases hother with hother | hother
    · exact h.plain cell (Cpu.mem_registerCells.mpr ⟨other, hother, hcell⟩)
    · exact hplain cell (Cpu.mem_registerCells.mpr ⟨other, hother, hcell⟩)
  · rw [haddress]
    rcases List.mem_append.mp hword with hword | hword
    · -- The registers that are already in use are not touched.
      rw [← h.found word hword]
      obtain ⟨hlt, hne⟩ := hsaved word hword
      refine heldWord_congr hconfig fun cell hcell => ?_
      exact Exec.contents_writeWord_of_not_mem h.ram_size hown value
        (Cpu.not_mem_wordCells_of_ne hmask h.wp_even hnumber hlt hne hcell)
    · rw [List.mem_singleton.mp hword]
      exact Exec.heldWord_writeWord h.ram_size hown value (Cpu.cell_even_ne hmask _)
  · rw [hcells, Cpu.mem_registerCells] at hnot
    have hother : cell ∉ machine.cpu.wordCells (machine.cpu.registerAddress number) :=
      fun hmem => hnot ⟨number, by simp, hmem⟩
    refine (Exec.contents_writeWord_of_not_mem h.ram_size hown value hother).trans ?_
    refine h.kept cell hcell fun hmem => hnot ?_
    obtain ⟨other, hother, hmem⟩ := Cpu.mem_registerCells.mp hmem
    exact ⟨other, by simp [hother], hmem⟩

theorem save {words : List (UInt16 × UInt16)} (h : entry.HasSaved saved machine)
    (hmask : entry.cpu.config.addressMask &&& 0x3FFF = 0x3FFF)
    (hplain : machine.cpu.HasPlain (words.map Prod.fst))
    (hnumbers : ∀ number ∈ (saved ++ words).map Prod.fst, number.toNat < 16)
    (hnodup : ((saved ++ words).map Prod.fst).Nodup) :
    entry.HasSaved (saved ++ words) (Exec.save words machine).2 := by
  induction words generalizing saved machine with
  | nil =>
      rw [List.append_nil]
      exact h
  | cons word rest ih =>
      obtain ⟨number, value⟩ := word
      let next := (Exec.writeWord (machine.cpu.registerAddress number) value machine).2
      have hregisters : next.cpu.HasPlain = machine.cpu.HasPlain :=
        Cpu.eq_of_core (·.HasPlain) (fun _ => rfl) (Exec.core_writeWord _ value)
      have hrest : next.cpu.HasPlain (rest.map Prod.fst) := by
        rw [hregisters]
        exact hplain.mono (by simp)
      rw [List.append_cons] at hnumbers hnodup ⊢
      rw [Exec.save_cons]
      refine ih (h.writeWord hmask (hplain.mono (by simp)) (hnumbers number (by simp))
        (fun word hword => ⟨hnumbers word.1 ?_, ?_⟩) value) hrest hnumbers hnodup
      · simp only [List.map_append, List.mem_append]
        exact .inl (.inl (List.mem_map_of_mem hword))
      · rw [List.map_append, List.map_append, List.append_assoc, List.nodup_append] at hnodup
        exact hnodup.2.2 word.1 (List.mem_map_of_mem hword) number (by simp)

theorem of_undisturbed (h : entry.Undisturbed machine)
    (hsize : entry.cpu.chip.ram.size = 0x100) (wp : UInt16) :
    entry.HasSaved [] { machine with cpu := machine.cpu.setWp wp } where
  config_eq := congrArg (·.config) h.cpu_eq
  ram_size := (congrArg (·.chip.ram.size) h.cpu_eq).trans hsize
  wp_even := Word.toNat_even_mod_two wp
  plain := nofun
  found := nofun
  kept cell _ _ := congrFun h.contents_eq cell

end HasSaved

/-- What a context switch saves. -/
def frame (machine : Machine β) : List (UInt16 × UInt16) :=
  [(13, machine.cpu.wp), (14, machine.cpu.pc), (15, machine.cpu.st)]

theorem Undisturbed.frame_eq (h : entry.Undisturbed machine) : machine.frame = entry.frame := by
  rw [frame, h.cpu_eq, frame]

end Machine

open Machine

theorem Exec.contextSwitch_snd (vector : UInt16) (machine : Machine β) :
    ∃ (fetched saved : Machine β) (wp pc : UInt16), machine.Undisturbed fetched ∧
      (save fetched.frame { fetched with cpu := fetched.cpu.setWp wp }).2 = saved ∧
      (contextSwitch vector machine).2 = { saved with cpu := saved.cpu.setPc pc } := by
  obtain ⟨first, hwp, hfirst⟩ := readWord_spec vector (.refl machine)
  obtain ⟨fetched, hpc, hfetched⟩ := readWord_spec (vector + 2) hfirst
  rw [contextSwitch, bind_of_eq hwp, bind_of_eq hpc]
  exact ⟨fetched, _, _, _, hfetched, rfl, rfl⟩

namespace Machine

theorem hasSaved_contextSwitch (hsize : machine.cpu.chip.ram.size = 0x100)
    (hmask : machine.cpu.config.addressMask &&& 0x3FFF = 0x3FFF) (vector : UInt16)
    (hplain : (Exec.contextSwitch vector machine).2.cpu.HasPlain [13, 14, 15]) :
    machine.HasSaved machine.frame (Exec.contextSwitch vector machine).2 := by
  obtain ⟨fetched, left, wp, pc, hfetched, hleft, hswitch⟩ := Exec.contextSwitch_snd vector machine
  have hcore := Exec.core_save fetched.frame { fetched with cpu := fetched.cpu.setWp wp }
  rw [hleft] at hcore
  have hregisters := Cpu.eq_of_core (·.HasPlain) (fun _ => rfl) hcore
  rw [hswitch] at hplain ⊢
  have hplain : left.cpu.HasPlain (fetched.frame.map Prod.fst) := hplain
  rw [hregisters] at hplain
  have hsaved := (HasSaved.of_undisturbed hfetched hsize wp).save hmask hplain (by simp [frame])
    (by simp [frame])
  rw [List.nil_append, hleft, hfetched.frame_eq] at hsaved
  exact hsaved.of_sameMemory ⟨rfl, rfl, rfl, rfl⟩

/-- A machine goes on with the program of another, with the same memory except for some cells. -/
structure Resumes (entry : Machine β) (lent : List Cell) (machine : Machine β) : Prop where
  wp_eq : machine.cpu.wp = entry.cpu.wp
  pc_eq : machine.cpu.pc = entry.cpu.pc
  st_eq : machine.cpu.st = entry.cpu.st
  contents_eq : ∀ cell, cell.IsPlain → cell ∉ lent → machine.contents cell = entry.contents cell

end Machine

namespace Exec

theorem rtwp_spec (machine : Machine β) :
    (rtwp machine).2.cpu =
      ((machine.cpu.setSt (machine.heldWord (machine.cpu.registerAddress 15))).setPc
        (machine.heldWord (machine.cpu.registerAddress 14))).setWp
          (machine.heldWord (machine.cpu.registerAddress 13)) ∧
    memory (rtwp machine).2.bus = memory machine.bus := by
  obtain ⟨first, hwp, hfirst⟩ := readRegister_spec (.refl machine) 13
  obtain ⟨second, hpc, hsecond⟩ := readRegister_spec hfirst 14
  obtain ⟨third, hst, hthird⟩ := readRegister_spec hsecond 15
  rw [rtwp, bind_of_eq hwp, bind_of_eq hpc, bind_of_eq hst, ← hthird.cpu_eq]
  exact ⟨rfl, hthird.memory_eq⟩

end Exec

namespace Machine

variable {entry : Machine β} {saved : List (UInt16 × UInt16)}

/-- RTWP takes back what a context switch has saved, and loses none of it. -/
theorem HasSaved.resumes_rtwp (h : entry.HasSaved saved machine) (hsaved : entry.frame ⊆ saved)
    (hpc : entry.cpu.pc.toNat % 2 = 0) (hwp : entry.cpu.wp.toNat % 2 = 0)
    (hst : entry.cpu.st &&& ~~~entry.cpu.config.statusMask = 0) :
    entry.Resumes (machine.cpu.registerCells (saved.map Prod.fst)) (Exec.rtwp machine).2 := by
  obtain ⟨hcpu, hmemory⟩ := Exec.rtwp_spec machine
  have hfound (number value : UInt16) (hword : (number, value) ∈ entry.frame) :
      machine.heldWord (machine.cpu.registerAddress number) = value :=
    h.found (number, value) (hsaved hword)
  rw [hfound 13 entry.cpu.wp (by simp [frame]), hfound 14 entry.cpu.pc (by simp [frame]),
    hfound 15 entry.cpu.st (by simp [frame])] at hcpu
  refine ⟨?_, ?_, ?_, fun cell hplain hcell => ?_⟩
  · rw [hcpu]
    exact Word.even_of_toNat_mod_two hwp
  · rw [hcpu]
    exact Word.even_of_toNat_mod_two hpc
  · rw [hcpu]
    change entry.cpu.st &&& machine.cpu.config.statusMask = entry.cpu.st
    rw [h.config_eq]
    exact Word.and_of_and_not hst
  · refine (contents_of_isPlain ?_ hmemory hplain).trans (h.kept cell hplain hcell)
    rw [hcpu]
    rfl

end Machine

end TmsCores.Tms9900
