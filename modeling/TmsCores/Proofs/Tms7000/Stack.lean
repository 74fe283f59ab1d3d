import TmsCores.Proofs.Tms7000.Contents

namespace TmsCores.Tms7000

theorem Location.ofAddress_toUInt16_isPlain (config : Config) (number : UInt8) :
    (ofAddress config number.toUInt16).IsPlain := by
  rcases ofAddress_toUInt16 config number with hlocation | hlocation
  · rw [hlocation]
    trivial
  · rw [hlocation]
    trivial

/-- One of the bytes that come next when the stack grows, by no more than `depth`. -/
def InWindow (sp : UInt8) (depth : Nat) (address : UInt16) : Prop :=
  ∃ count, 1 ≤ count ∧ count ≤ depth ∧ address = (sp + UInt8.ofNat count).toUInt16

theorem InWindow.shift {sp : UInt8} {size held depth : Nat} {address : UInt16}
    (h : InWindow sp size address) (hdepth : held + size ≤ depth) :
    InWindow (sp - UInt8.ofNat held) depth address := by
  obtain ⟨count, hpositive, hcount, rfl⟩ := h
  refine ⟨held + count, by omega, by omega, ?_⟩
  rw [UInt8.ofNat_add]
  congr 1
  grind

namespace Machine

variable {β : Type}

def withPc (machine : Machine β) (pc : UInt16) : Machine β :=
  { machine with cpu := machine.cpu.setPc pc }

def withSp (machine : Machine β) (sp : UInt8) : Machine β :=
  { machine with cpu := { machine.cpu with sp := sp } }

end Machine

variable {β : Type} [Bus β]

namespace Ram

variable {ram : Ram β} {before machine next : Machine β}

/-- What is written to an address stays there. -/
def Keeps (ram : Ram β) (config : Config) (address : UInt16) : Prop :=
  ram.Covers (.ofAddress config address) ∧ (Location.ofAddress config address).IsPlain

/-- Wherever the stack goes there is memory, on the chip or off it. -/
def CoversPage (ram : Ram β) (config : Config) : Prop :=
  ∀ number : UInt8, ram.Covers (.ofAddress config number.toUInt16)

theorem flat_coversPage (config : Config) : flat.CoversPage config := by
  intro number
  rcases Location.ofAddress_toUInt16 config number with hlocation | hlocation
  · rw [hlocation]
    trivial
  · rw [hlocation]
    trivial

theorem CoversPage.keeps {config : Config} (h : ram.CoversPage config) (number : UInt8) :
    ram.Keeps config number.toUInt16 :=
  ⟨h number, Location.ofAddress_toUInt16_isPlain config number⟩

/-- Nothing has been written since some moment. -/
structure Undisturbed (ram : Ram β) (before machine : Machine β) : Prop where
  cpu_eq : machine.cpu = before.cpu
  byte_eq : ∀ {location}, ram.Holds location →
    ram.byte machine.bus location = ram.byte before.bus location

theorem Undisturbed.refl (machine : Machine β) : ram.Undisturbed machine machine :=
  ⟨rfl, fun _ => rfl⟩

theorem contents_congr (hcpu : machine.cpu = before.cpu)
    (hbyte : ∀ {location}, ram.Holds location →
      ram.byte machine.bus location = ram.byte before.bus location)
    {location : Location} (h : ram.Covers location) :
    ram.contents machine location = ram.contents before location := by
  cases location with
  | register | interruptControl | timerData | timerControl => simp only [contents, hcpu]
  | port | memory => exact hbyte h

theorem Undisturbed.byteAt_eq (h : ram.Undisturbed before machine) {address : UInt16}
    (haddress : ram.Covers (.ofAddress before.cpu.config address)) :
    ram.byteAt machine address = ram.byteAt before address := by
  rw [byteAt, h.cpu_eq]
  exact contents_congr h.cpu_eq h.byte_eq haddress

/-- The memory on the chip is the same, and so is what lies behind the bus. -/
structure SameMemory (ram : Ram β) (before machine : Machine β) : Prop where
  config_eq : machine.cpu.config = before.cpu.config
  file_eq : machine.cpu.file = before.cpu.file
  byte_eq : ∀ {location}, ram.Holds location →
    ram.byte machine.bus location = ram.byte before.bus location

theorem Undisturbed.sameMemory (h : ram.Undisturbed before machine) :
    ram.SameMemory before machine where
  config_eq := congrArg (·.config) h.cpu_eq
  file_eq := congrArg (·.file) h.cpu_eq
  byte_eq := h.byte_eq

theorem SameMemory.byteAt_eq (h : ram.SameMemory before machine) {address : UInt16}
    (haddress : ram.Keeps before.cpu.config address) :
    ram.byteAt machine address = ram.byteAt before address := by
  obtain ⟨hcovers, hplain⟩ := haddress
  rw [byteAt, byteAt, h.config_eq]
  cases hlocation : Location.ofAddress before.cpu.config address with
  | register number => simp only [contents, Cpu.register, Cpu.register?, h.file_eq]
  | port | memory =>
      rw [hlocation] at hcovers
      exact h.byte_eq hcovers
  | interruptControl | timerData | timerControl =>
      rw [hlocation] at hplain
      exact hplain.elim

theorem SameMemory.of_withPc {pc : UInt16} (h : ram.SameMemory (before.withPc pc) machine) :
    ram.SameMemory before machine :=
  ⟨h.config_eq, h.file_eq, h.byte_eq⟩

theorem SameMemory.of_withSp {sp : UInt8} (h : ram.SameMemory (before.withSp sp) machine) :
    ram.SameMemory before machine :=
  ⟨h.config_eq, h.file_eq, h.byte_eq⟩

structure SameStack (ram : Ram β) (before machine : Machine β) : Prop
    extends ram.SameMemory before machine where
  sp_eq : machine.cpu.sp = before.cpu.sp

theorem Undisturbed.sameStack (h : ram.Undisturbed before machine) :
    ram.SameStack before machine :=
  ⟨h.sameMemory, congrArg (·.sp) h.cpu_eq⟩

variable (ram) in
/-- Some bytes from an address of the register page downwards. -/
def bytesDown (machine : Machine β) : UInt8 → Nat → List UInt8
  | _, 0 => []
  | top, count + 1 => ram.byteAt machine top.toUInt16 :: bytesDown machine (top - 1) count

variable (ram) in
/-- The topmost bytes of the stack, the top first. -/
def stack (machine : Machine β) (count : Nat) : List UInt8 :=
  ram.bytesDown machine machine.cpu.sp count

theorem bytesDown_congr {top : UInt8} {count : Nat}
    (h : ∀ index < count, ram.byteAt next (top - UInt8.ofNat index).toUInt16 =
      ram.byteAt machine (top - UInt8.ofNat index).toUInt16) :
    ram.bytesDown next top count = ram.bytesDown machine top count := by
  induction count generalizing top with
  | zero => rfl
  | succ count ih =>
      have hlower (index : Nat) :
          top - 1 - UInt8.ofNat index = top - UInt8.ofNat (index + 1) := by
        rw [UInt8.ofNat_add]
        grind
      have htop : ram.byteAt next top.toUInt16 = ram.byteAt machine top.toUInt16 := by
        simpa using h 0 (Nat.succ_pos count)
      rw [bytesDown, bytesDown, htop, ih fun index hindex => ?_]
      rw [hlower]
      exact h (index + 1) (Nat.succ_lt_succ hindex)

theorem bytesDown_add (machine : Machine β) (top : UInt8) (count more : Nat) :
    ram.bytesDown machine top (count + more) =
      ram.bytesDown machine top more ++
        ram.bytesDown machine (top - UInt8.ofNat more) count := by
  induction more generalizing top with
  | zero => simp [bytesDown]
  | succ more ih =>
      have hlower : top - 1 - UInt8.ofNat more = top - UInt8.ofNat (more + 1) := by
        rw [UInt8.ofNat_add]
        grind
      rw [← Nat.add_assoc, bytesDown, bytesDown, ih, hlower, List.cons_append]

theorem length_bytesDown (machine : Machine β) (top : UInt8) (count : Nat) :
    (ram.bytesDown machine top count).length = count := by
  induction count generalizing top with
  | zero => rfl
  | succ count ih => rw [bytesDown, List.length_cons, ih]

theorem stack_append_inv {bytes rest : List UInt8} {count : Nat}
    (h : ram.stack machine (count + bytes.length) = bytes ++ rest) :
    ram.stack machine bytes.length = bytes ∧
      ram.bytesDown machine (machine.cpu.sp - UInt8.ofNat bytes.length) count = rest := by
  rw [stack, bytesDown_add] at h
  exact List.append_inj h (length_bytesDown machine _ _)

theorem SameStack.stack_eq (h : ram.SameStack before machine)
    (hpage : ram.CoversPage before.cpu.config) : ram.stack machine = ram.stack before := by
  funext count
  rw [stack, stack, h.sp_eq]
  exact bytesDown_congr fun _ _ => h.byteAt_eq (hpage.keeps _)

/-- Some bytes have been pushed, the first of them last.  Nothing else has changed that only keeps
what is written to it. -/
structure Pushed (ram : Ram β) (bytes : List UInt8) (before machine : Machine β) : Prop where
  config_eq : machine.cpu.config = before.cpu.config
  file_size : machine.cpu.file.size = before.cpu.file.size
  sp_eq : machine.cpu.sp = before.cpu.sp + UInt8.ofNat bytes.length
  byteAt_eq : ∀ {address}, ram.Keeps before.cpu.config address →
    ¬InWindow before.cpu.sp bytes.length address →
      ram.byteAt machine address = ram.byteAt before address
  stack_eq : ∀ {count}, count + bytes.length ≤ 256 →
    ram.stack machine (count + bytes.length) = bytes ++ ram.stack before count

namespace Pushed

variable {bytes more : List UInt8}

theorem append (h : ram.Pushed bytes before machine) (hnext : ram.Pushed more machine next) :
    ram.Pushed (more ++ bytes) before next := by
  have hsum (count : Nat) : before.cpu.sp + UInt8.ofNat (bytes.length + count) =
      machine.cpu.sp + UInt8.ofNat count := by
    rw [h.sp_eq, UInt8.ofNat_add, UInt8.add_assoc]
  refine ⟨hnext.config_eq.trans h.config_eq, hnext.file_size.trans h.file_size, ?_,
    fun {address} hkeeps hwindow => ?_, fun {count} hcount => ?_⟩
  · rw [List.length_append, Nat.add_comm, hsum]
    exact hnext.sp_eq
  · rw [List.length_append] at hwindow
    refine (hnext.byteAt_eq (h.config_eq.symm ▸ hkeeps) ?_).trans (h.byteAt_eq hkeeps ?_)
    · rintro ⟨count, hpositive, hcount, haddress⟩
      refine hwindow ⟨bytes.length + count, by omega, by omega, ?_⟩
      rw [hsum]
      exact haddress
    · rintro ⟨count, hpositive, hcount, haddress⟩
      exact hwindow ⟨count, hpositive, by omega, haddress⟩
  · rw [List.length_append] at hcount ⊢
    rw [Nat.add_comm more.length, ← Nat.add_assoc, hnext.stack_eq (by omega),
      h.stack_eq (by omega), List.append_assoc]

theorem stack_top (h : ram.Pushed bytes before machine) (hlength : bytes.length ≤ 256) :
    ram.stack machine bytes.length = bytes := by
  have hstack : ram.stack machine (0 + bytes.length) = bytes ++ ram.stack before 0 :=
    h.stack_eq (by omega)
  rw [Nat.zero_add] at hstack
  exact hstack.trans (List.append_nil bytes)

variable (hpage : ram.CoversPage before.cpu.config)

include hpage

theorem of_before (h : ram.Pushed bytes machine next) (hbefore : ram.SameStack before machine) :
    ram.Pushed bytes before next where
  config_eq := h.config_eq.trans hbefore.config_eq
  file_size := h.file_size.trans (congrArg Array.size hbefore.file_eq)
  sp_eq := hbefore.sp_eq ▸ h.sp_eq
  byteAt_eq hkeeps hwindow :=
    (h.byteAt_eq (hbefore.config_eq.symm ▸ hkeeps) (hbefore.sp_eq.symm ▸ hwindow)).trans
      (hbefore.byteAt_eq hkeeps)
  stack_eq hcount := hbefore.stack_eq hpage ▸ h.stack_eq hcount

theorem of_after (h : ram.Pushed bytes before machine) (hafter : ram.SameStack machine next) :
    ram.Pushed bytes before next where
  config_eq := hafter.config_eq.trans h.config_eq
  file_size := (congrArg Array.size hafter.file_eq).trans h.file_size
  sp_eq := hafter.sp_eq.trans h.sp_eq
  byteAt_eq hkeeps hwindow :=
    (hafter.byteAt_eq (h.config_eq.symm ▸ hkeeps)).trans (h.byteAt_eq hkeeps hwindow)
  stack_eq hcount := hafter.stack_eq (h.config_eq.symm ▸ hpage) ▸ h.stack_eq hcount

theorem of_withPc {pc : UInt16} (h : ram.Pushed bytes (before.withPc pc) machine) :
    ram.Pushed bytes before machine :=
  h.of_before hpage ⟨⟨rfl, rfl, fun _ => rfl⟩, rfl⟩

end Pushed

end Ram

namespace Exec

variable {ram : Ram β} {before machine : Machine β}

theorem read_spec (h : ram.Undisturbed before machine) (address : UInt16) : ∃ value next,
    read address machine = (value, next) ∧ ram.Undisturbed before next ∧
      (ram.Covers (.ofAddress before.cpu.config address) →
        value = ram.byteAt before address) := by
  let location := Location.ofAddress machine.cpu.config address
  refine ⟨(read address machine).1, (read address machine).2, rfl,
    ⟨?_, fun {other} hholds => ?_⟩, fun hcovers => ?_⟩
  · exact (cpu_readAt location).trans h.cpu_eq
  · have hread : ram.byte (readAt location machine).2.bus other = ram.byte machine.bus other :=
      byte_readAt hholds
    exact hread.trans (h.byte_eq hholds)
  · rw [read_fst (h.cpu_eq.symm ▸ hcovers), h.byteAt_eq hcovers]

theorem readRegister_spec (h : ram.Undisturbed before machine)
    (hpage : ram.CoversPage before.cpu.config) (number : UInt8) : ∃ next,
    readRegister number machine = (ram.byteAt before number.toUInt16, next) ∧
      ram.Undisturbed before next := by
  obtain ⟨value, next, hread, hnext, hvalue⟩ := read_spec h number.toUInt16
  rw [hvalue (hpage number)] at hread
  exact ⟨next, hread, hnext⟩

theorem fetch_spec (h : ram.Undisturbed before machine) : ∃ value next,
    fetch machine = (value, next) ∧
      ram.Undisturbed (before.withPc (before.cpu.pc + 1)) next := by
  obtain ⟨value, next, hread, hnext, -⟩ := read_spec h before.cpu.pc
  rw [fetch, cpu_bind, h.cpu_eq, bind_of_eq hread]
  exact ⟨_, _, rfl, congrArg (Cpu.setPc · (before.cpu.pc + 1)) hnext.cpu_eq, hnext.byte_eq⟩

section Popping

variable (h : ram.Undisturbed before machine) (hpage : ram.CoversPage before.cpu.config)

include h hpage

theorem pop_spec : ∃ next,
    pop machine = (ram.byteAt before before.cpu.sp.toUInt16, next) ∧
      ram.Undisturbed (before.withSp (before.cpu.sp - 1)) next := by
  obtain ⟨next, hread, hnext⟩ := readRegister_spec h hpage before.cpu.sp
  rw [readRegister] at hread
  rw [pop, cpu_bind, h.cpu_eq, bind_of_eq hread]
  refine ⟨_, rfl, ?_, hnext.byte_eq⟩
  exact congrArg (fun cpu : Cpu => { cpu with sp := before.cpu.sp - 1 }) hnext.cpu_eq

theorem popPc_spec : ∃ next,
    popPc machine = ((), next) ∧
      ram.Undisturbed ((before.withSp (before.cpu.sp - 1 - 1)).withPc
        (Word.ofBytes (ram.byteAt before (before.cpu.sp - 1).toUInt16)
          (ram.byteAt before before.cpu.sp.toUInt16))) next := by
  obtain ⟨first, hlo, hfirst⟩ := pop_spec h hpage
  obtain ⟨second, hhi, hsecond⟩ := pop_spec hfirst hpage
  rw [popPc, bind_of_eq hlo, bind_of_eq hhi]
  exact ⟨_, rfl, congrArg (Cpu.setPc · _) hsecond.cpu_eq, hsecond.byte_eq⟩

end Popping

theorem cpu_writeRegister (number value : UInt8) (machine : Machine β) :
    ∃ file : Array UInt8, file.size = machine.cpu.file.size ∧
      (writeRegister number value machine).2.cpu = { machine.cpu with file := file } := by
  rw [writeRegister, write, cpu_bind]
  rcases Location.ofAddress_toUInt16 machine.cpu.config number with hlocation | hlocation
  · rw [hlocation]
    have hsize := congrArg Array.size (machine.cpu.file_setRegister number.toNat value)
    exact ⟨_, hsize.trans Array.size_setIfInBounds, rfl⟩
  · rw [hlocation]
    exact ⟨_, rfl, rfl⟩

theorem cpu_push (value : UInt8) (machine : Machine β) :
    ∃ file : Array UInt8, file.size = machine.cpu.file.size ∧
      (push value machine).2.cpu = { machine.cpu with sp := machine.cpu.sp + 1, file := file } :=
  cpu_writeRegister (machine.cpu.sp + 1) value (machine.withSp (machine.cpu.sp + 1))

section Writing

variable (h : ram.Undisturbed before machine)
  (hfile : before.cpu.config.registerCount.toNat ≤ before.cpu.file.size)

include h hfile

theorem byteAt_writeRegister (number value : UInt8) {address : UInt16}
    (hcovers : ram.Covers (.ofAddress before.cpu.config address)) :
    ram.byteAt (writeRegister number value machine).2 address =
      if number.toUInt16 = address then value else ram.byteAt before address := by
  have hlt : number.toUInt16.toNat < 0x100 := by
    rw [UInt8.toNat_toUInt16]
    exact number.toNat_lt
  rw [← h.byteAt_eq hcovers]
  rw [← h.cpu_eq] at hfile hcovers
  refine byteAt_write hfile ⟨?_, ?_, ?_⟩ hcovers value
  · rintro haddress
    rw [haddress] at hlt
    exact absurd hlt (by decide)
  · rintro haddress
    rw [haddress] at hlt
    exact absurd hlt (by decide)
  · rintro haddress
    rw [haddress] at hlt
    exact absurd hlt (by decide)

variable (hpage : ram.CoversPage before.cpu.config)

include hpage

theorem pushed_push (value : UInt8) : ram.Pushed [value] before (push value machine).2 := by
  obtain ⟨file, hsize, hcpu⟩ := cpu_push value machine
  rw [h.cpu_eq] at hsize hcpu
  have hsp : (push value machine).2.cpu.sp = before.cpu.sp + 1 := congrArg (·.sp) hcpu
  have hmoved : ram.Undisturbed (before.withSp (before.cpu.sp + 1))
      (machine.withSp (before.cpu.sp + 1)) :=
    ⟨congrArg (fun cpu : Cpu => { cpu with sp := before.cpu.sp + 1 }) h.cpu_eq, h.byte_eq⟩
  have hpush : push value machine = writeRegister (before.cpu.sp + 1) value
      (machine.withSp (before.cpu.sp + 1)) := by
    rw [push, cpu_bind, h.cpu_eq]
    rfl
  have hbyteAt {address : UInt16} (hcovers : ram.Covers (.ofAddress before.cpu.config address)) :
      ram.byteAt (push value machine).2 address =
        if (before.cpu.sp + 1).toUInt16 = address then value else ram.byteAt before address := by
    rw [hpush]
    exact byteAt_writeRegister hmoved hfile _ value hcovers
  refine ⟨congrArg (·.config) hcpu, ?_, hsp, fun {address} hkeeps hwindow => ?_,
    fun {count} hcount => ?_⟩
  · exact (congrArg (·.file.size) hcpu).trans hsize
  · rw [hbyteAt hkeeps.1, if_neg]
    rintro rfl
    exact hwindow ⟨1, Nat.le_refl 1, Nat.le_refl 1, rfl⟩
  · have hbelow : before.cpu.sp + 1 - 1 = before.cpu.sp := by grind
    have hrest : ram.bytesDown (push value machine).2 before.cpu.sp count =
        ram.stack before count := by
      refine Ram.bytesDown_congr fun index hindex => ?_
      rw [hbyteAt (hpage _), if_neg]
      intro hsame
      -- The stack would have to hold all 256 bytes of the register page already.
      have hnext := congrArg UInt8.toNat (UInt8.toUInt16_inj.mp hsame)
      rw [UInt8.toNat_add, UInt8.toNat_sub, UInt8.toNat_ofNat'] at hnext
      have hlt := before.cpu.sp.toNat_lt
      simp only [UInt8.reduceToNat, Nat.reducePow, List.length_singleton] at hnext hcount hlt
      omega
    change ram.bytesDown _ _ (count + 1) = _
    rw [hsp, Ram.bytesDown, hbyteAt (hpage _), if_pos rfl, hbelow, hrest]
    rfl

theorem pushed_pushPc :
    ram.Pushed [Word.low before.cpu.pc, Word.high before.cpu.pc] before (pushPc machine).2 := by
  have hfirst := pushed_push h hfile hpage (Word.high before.cpu.pc)
  rw [pushPc, cpu_bind, h.cpu_eq, seq_snd]
  generalize (push (Word.high before.cpu.pc) machine).2 = first at hfirst ⊢
  rw [← hfirst.config_eq] at hfile hpage
  rw [← hfirst.file_size] at hfile
  exact hfirst.append (pushed_push (.refl first) hfile hpage (Word.low before.cpu.pc))

end Writing

end Exec

end TmsCores.Tms7000
