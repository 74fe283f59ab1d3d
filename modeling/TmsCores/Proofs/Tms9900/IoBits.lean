import TmsCores.Proofs.Interrupt.Latch
import TmsCores.Proofs.Tms9900.RegisterPair

namespace TmsCores.Tms9900

/-- The bit of the I/O space that a number stands for.  The bits are in a ring of 4096. -/
def ioNumber (number : Int) : UInt16 :=
  .ofNat (number % 0x1000).toNat

theorem toNat_ioNumber (number : Int) : ((ioNumber number).toNat : Int) = number % 0x1000 := by
  rw [ioNumber, UInt16.toNat_ofNat']
  omega

theorem ioNumber_inj {a b : Int} : ioNumber a = ioNumber b ↔ a % 0x1000 = b % 0x1000 := by
  have ha := toNat_ioNumber a
  have hb := toNat_ioNumber b
  rw [← UInt16.toNat_inj]
  omega

theorem and_eq_ioNumber {bit : UInt16} {number : Int}
    (h : (bit.toNat : Int) % 0x1000 = number % 0x1000) : bit &&& 0x0FFF = ioNumber number := by
  have hnumber := toNat_ioNumber number
  have hmask : (bit &&& 0x0FFF).toNat = bit.toNat % 0x1000 := by
    rw [UInt16.toNat_and]
    exact Nat.and_two_pow_sub_one_eq_mod bit.toNat 12
  rw [← UInt16.toNat_inj]
  omega

theorem flagNumber?_inj {bit other number : UInt16} (h : flagNumber? bit = some number)
    (hother : flagNumber? other = some number) : bit = other := by
  have heq {place : UInt16} (hplace : flagNumber? place = some number) :
      place = number + flagBase := by
    unfold flagNumber? at hplace
    split at hplace
    · rw [← Option.some.inj hplace, UInt16.sub_add_cancel]
    · exact absurd hplace nofun
  rw [heq h, heq hother]

theorem latchLine?_eq_some_iff {number : UInt16} {line : UInt8} : latchLine? number = some line ↔
    number = 2 ∧ line = int1 ∨ number = 3 ∧ line = decrementerLine ∨ number = 4 ∧ line = int4 := by
  unfold latchLine?
  split
  · next h => simp [h, eq_comm]
  · split
    · next h => simp [h, eq_comm]
    · split
      · next h => simp [h, eq_comm]
      · next h => simp [*]

theorem latchLine?_inj {number other : UInt16} {line : UInt8} (h : latchLine? number = some line)
    (hother : latchLine? other = some line) : number = other := by
  rw [latchLine?_eq_some_iff] at h hother
  rcases h with ⟨rfl, rfl⟩ | ⟨rfl, rfl⟩ | ⟨rfl, rfl⟩
  · simpa [int1, decrementerLine, int4, eq_comm] using hother
  · simpa [int1, decrementerLine, int4, eq_comm] using hother
  · simpa [int1, decrementerLine, int4, eq_comm] using hother

theorem latchLine?_le {number : UInt16} {line : UInt8} (h : latchLine? number = some line) :
    line.toNat ≤ 4 := by
  rw [latchLine?_eq_some_iff] at h
  rcases h with ⟨-, rfl⟩ | ⟨-, rfl⟩ | ⟨-, rfl⟩
  · decide
  · decide
  · decide

theorem flag_and_flag {bit other number otherNumber : UInt16} (h : flagNumber? bit = some number)
    (hother : flagNumber? other = some otherNumber) (hne : number ≠ otherNumber) :
    (1 <<< number) &&& (1 <<< otherNumber) = (0 : UInt16) := by
  have hall : ∀ m < 16, ∀ n < 16, m ≠ n →
      (1 <<< UInt16.ofNat m) &&& (1 <<< UInt16.ofNat n) = (0 : UInt16) := by
    decide
  have hflags := hall number.toNat (flagNumber?_lt h) otherNumber.toNat (flagNumber?_lt hother)
    fun hsame => hne (UInt16.toNat_inj.mp hsame)
  rwa [UInt16.ofNat_toNat, UInt16.ofNat_toNat] at hflags

theorem flag_ne_zero {bit number : UInt16} (h : flagNumber? bit = some number) :
    (1 <<< number : UInt16) ≠ 0 := by
  have hall : ∀ n < 16, (1 <<< UInt16.ofNat n : UInt16) ≠ 0 := by decide
  have hflag := hall number.toNat (flagNumber?_lt h)
  rwa [UInt16.ofNat_toNat] at hflag

namespace Cpu

variable {cpu changed : Cpu} {bit other number otherNumber : UInt16} {value : Bool}

/-- A bit of the flag register: an interrupt latch or a flag. -/
def flag (cpu : Cpu) (number : UInt16) : Bool :=
  match latchLine? number with
  | some line => cpu.interrupts.isLatched line
  | none => cpu.chip.flags &&& (1 <<< number) != 0

def setFlag (cpu : Cpu) (number : UInt16) (value : Bool) : Cpu :=
  match latchLine? number with
  | some line => cpu.setLatch line value
  | none => { cpu with chip.flags := Word.withBit cpu.chip.flags (1 <<< number) value }

theorem internalBit?_eq (cpu : Cpu) (bit : UInt16) : cpu.internalBit? bit =
    if !cpu.config.onChip then none
    else if bit = midBit then some cpu.chip.mid
    else (flagNumber? bit).map cpu.flag :=
  rfl

theorem setInternalBit?_eq (cpu : Cpu) (bit : UInt16) (value : Bool) :
    cpu.setInternalBit? bit value =
      if !cpu.config.onChip then none
      else if bit = midBit then some { cpu with chip.mid := value }
      else (flagNumber? bit).map (cpu.setFlag · value) :=
  rfl

theorem flag_setFlag (hlines : 4 < cpu.interrupts.size) (hnumber : flagNumber? bit = some number)
    (hother : flagNumber? other = some otherNumber) (value : Bool) :
    (cpu.setFlag number value).flag otherNumber =
      if number = otherNumber then value else cpu.flag otherNumber := by
  unfold setFlag flag
  cases hline : latchLine? number with
  | some line =>
      have hlt : line.toNat < cpu.interrupts.size :=
        Nat.lt_of_le_of_lt (latchLine?_le hline) hlines
      cases hotherLine : latchLine? otherNumber with
      | some otherLine =>
          have hiff : line = otherLine ↔ number = otherNumber := by
            constructor
            · rintro rfl
              exact latchLine?_inj hline hotherLine
            · rintro rfl
              exact Option.some.inj (hline.symm.trans hotherLine)
          change (cpu.interrupts.setLatch line value).isLatched otherLine = _
          rw [InterruptController.isLatched_setLatch_of_lt hlt]
          simp only [hiff]
      | none =>
          have hne : number ≠ otherNumber := by
            rintro rfl
            exact absurd (hline.symm.trans hotherLine) nofun
          rw [if_neg hne]
          rfl
  | none =>
      cases hotherLine : latchLine? otherNumber with
      | some otherLine =>
          have hne : number ≠ otherNumber := by
            rintro rfl
            exact absurd (hline.symm.trans hotherLine) nofun
          rw [if_neg hne]
      | none =>
          dsimp only
          split
          · next hsame =>
              rw [← hsame, Word.withBit_and_self]
              cases value with
              | false => rfl
              | true => exact bne_iff_ne.mpr (flag_ne_zero hnumber)
          · next hne => rw [Word.withBit_and (flag_and_flag hnumber hother hne)]

theorem mid_setFlag (cpu : Cpu) (number : UInt16) (value : Bool) :
    (cpu.setFlag number value).config = cpu.config ∧
      (cpu.setFlag number value).chip.mid = cpu.chip.mid := by
  unfold setFlag
  split
  · exact ⟨rfl, rfl⟩
  · exact ⟨rfl, rfl⟩

theorem internalBit?_of_setInternalBit? (hlines : 4 < cpu.interrupts.size)
    (h : cpu.setInternalBit? bit value = some changed) (other : UInt16) :
    changed.internalBit? other = if bit = other then some value else cpu.internalBit? other := by
  rw [setInternalBit?_eq] at h
  split at h
  · exact absurd h nofun
  next honChip =>
  split at h
  · next hmid =>
      obtain rfl := Option.some.inj h
      rw [internalBit?_eq, internalBit?_eq, if_neg honChip, if_neg honChip, hmid]
      simp only [eq_comm (a := midBit)]
      split
      · rfl
      · rfl
  · next hmid =>
      obtain ⟨number, hnumber, rfl⟩ := Option.map_eq_some_iff.mp h
      obtain ⟨hconfig, hkept⟩ := mid_setFlag cpu number value
      rw [internalBit?_eq, internalBit?_eq, hconfig, if_neg honChip, if_neg honChip]
      by_cases hotherMid : other = midBit
      · rw [if_pos hotherMid, if_pos hotherMid, hkept, if_neg (hotherMid ▸ hmid)]
      · rw [if_neg hotherMid, if_neg hotherMid]
        cases hother : flagNumber? other with
        | none =>
            have hne : bit ≠ other := by
              rintro rfl
              exact absurd (hnumber.symm.trans hother) nofun
            rw [if_neg hne]
            rfl
        | some otherNumber =>
            have hiff : bit = other ↔ number = otherNumber := by
              constructor
              · rintro rfl
                exact Option.some.inj (hnumber.symm.trans hother)
              · rintro rfl
                exact flagNumber?_inj hnumber hother
            rw [Option.map_some, Option.map_some, flag_setFlag hlines hnumber hother]
            simp only [hiff]
            split
            · rfl
            · rfl

theorem kept_of_setInternalBit? (h : cpu.setInternalBit? bit value = some changed) :
    changed.config = cpu.config ∧ changed.interrupts.size = cpu.interrupts.size ∧
      changed.chip.ram = cpu.chip.ram ∧ changed.chip.decrementer = cpu.chip.decrementer := by
  unfold setInternalBit? at h
  split at h
  · exact absurd h nofun
  · split at h
    · obtain rfl := Option.some.inj h
      exact ⟨rfl, rfl, rfl, rfl⟩
    · obtain ⟨number, _, rfl⟩ := Option.map_eq_some_iff.mp h
      dsimp only
      split
      · exact ⟨rfl, InterruptController.size_modifyLine .., rfl, rfl⟩
      · exact ⟨rfl, rfl, rfl, rfl⟩

/-- The latches among the flags have their interrupt lines. -/
def HasLatchLines (cpu : Cpu) : Prop :=
  cpu.config.onChip = true → 4 < cpu.interrupts.size

theorem IsConsistent.hasLatchLines {variant : Variant} (h : cpu.IsConsistent variant.config) :
    cpu.HasLatchLines := by
  intro honChip
  rw [h.config_eq] at honChip
  rw [h.size_interrupts]
  cases variant with
  | tms9900 | tms9980A => exact absurd honChip nofun
  | tms9995 => decide

end Cpu

variable {β : Type} [Bus β] [LatchBus β]

open LatchBus

namespace Machine

/-- A bit of the I/O space as programs find it: the chip's own, or a latch behind the bus. -/
def ioBit (machine : Machine β) (number : Int) : Bool :=
  (machine.cpu.internalBit? (ioNumber number)).getD
    ((latches machine.bus).peek (ioNumber number) &&& 1 != 0)

/-- Nothing has happened to the I/O space since some moment. -/
structure KeepsIo (before machine : Machine β) : Prop where
  config_eq : machine.cpu.config = before.cpu.config
  interrupts_eq : machine.cpu.interrupts = before.cpu.interrupts
  mid_eq : machine.cpu.chip.mid = before.cpu.chip.mid
  flags_eq : machine.cpu.chip.flags = before.cpu.chip.flags
  latches_eq : latches machine.bus = latches before.bus

variable {before machine next : Machine β}

theorem KeepsIo.refl (machine : Machine β) : machine.KeepsIo machine :=
  ⟨rfl, rfl, rfl, rfl, rfl⟩

theorem KeepsIo.trans (h : before.KeepsIo machine) (hnext : machine.KeepsIo next) :
    before.KeepsIo next where
  config_eq := hnext.config_eq.trans h.config_eq
  interrupts_eq := hnext.interrupts_eq.trans h.interrupts_eq
  mid_eq := hnext.mid_eq.trans h.mid_eq
  flags_eq := hnext.flags_eq.trans h.flags_eq
  latches_eq := hnext.latches_eq.trans h.latches_eq

theorem KeepsIo.ioBit_eq (h : before.KeepsIo machine) : machine.ioBit = before.ioBit := by
  funext number
  rw [ioBit, ioBit, h.latches_eq, Cpu.internalBit?, Cpu.internalBit?, h.config_eq,
    h.interrupts_eq, h.mid_eq, h.flags_eq]

theorem latches_of_onlyRead {bus changed : β} (h : Bus.OnlyRead bus changed) :
    latches changed = latches bus := by
  induction h with
  | refl => rfl
  | tail _ hread ih =>
      refine Eq.trans ?_ ih
      cases hread with
      | memory address => exact latches_read _ address
      | io address => exact latches_ioRead _ address

theorem Inspected.keepsIo (h : before.Inspected machine) : before.KeepsIo machine where
  config_eq := congrArg Cpu.config h.cpu_eq
  interrupts_eq := congrArg Cpu.interrupts h.cpu_eq
  mid_eq := congrArg (·.chip.mid) h.cpu_eq
  flags_eq := congrArg (·.chip.flags) h.cpu_eq
  latches_eq := latches_of_onlyRead h.onlyRead

end Machine

namespace Exec

variable {before machine : Machine β} {bit : UInt16} {number : Int}

theorem cruRead_inspects (hbit : (bit.toNat : Int) % 0x1000 = number % 0x1000)
    (h : before.Inspected machine) : ∃ next,
    cruRead bit machine = (before.ioBit number, next) ∧ before.Inspected next := by
  rw [cruRead, get_bind, and_eq_ioNumber hbit, Machine.ioBit, ← h.cpu_eq]
  cases machine.cpu.internalBit? (ioNumber number) with
  | some value => exact ⟨machine, rfl, h⟩
  | none =>
      refine ⟨_, Prod.ext ?_ rfl, h.cpu_eq, h.onlyRead.tail (.io _ _)⟩
      change ((Bus.ioRead machine.bus (ioNumber number).toUInt32).1.data &&& 1 != 0) = _
      rw [ioRead_data, UInt16.toUInt16_toUInt32, Machine.latches_of_onlyRead h.onlyRead]
      rfl

omit [LatchBus β] in
theorem cruWrite_of_internal {changed : Cpu} {value : Bool}
    (h : machine.cpu.setInternalBit? (bit &&& 0x0FFF) value = some changed) :
    (cruWrite bit value machine).2 = { machine with cpu := changed } := by
  rw [cruWrite, get_bind, h]
  rfl

omit [LatchBus β] in
theorem cruWrite_of_external {value : Bool}
    (h : machine.cpu.setInternalBit? (bit &&& 0x0FFF) value = none) :
    (cruWrite bit value machine).2 =
      let written := Bus.ioWrite machine.bus (bit &&& 0x0FFF).toUInt32 value.toUInt8
      { machine with bus := written.2, wait := machine.wait + written.1.toNat } := by
  rw [cruWrite, get_bind, h]
  rfl

/-- A bit is written wherever it is kept, and no other bit is. -/
theorem cruWrite_spec (hbit : (bit.toNat : Int) % 0x1000 = number % 0x1000)
    (h : machine.cpu.HasLatchLines) (value : Bool) :
    (cruWrite bit value machine).2.cpu.HasLatchLines ∧
      ∀ other, (cruWrite bit value machine).2.ioBit other =
        if number % 0x1000 = other % 0x1000 then value else machine.ioBit other := by
  have hplace := and_eq_ioNumber hbit
  simp only [← ioNumber_inj]
  cases hchanged : machine.cpu.setInternalBit? (bit &&& 0x0FFF) value with
  | some changed =>
      have honChip : machine.cpu.config.onChip = true := by
        by_contra hnot
        rw [Cpu.setInternalBit?_eq, if_pos (by simpa using hnot)] at hchanged
        exact absurd hchanged nofun
      have hbits := Cpu.internalBit?_of_setInternalBit? (h honChip) hchanged
      obtain ⟨-, hsize, -, -⟩ := Cpu.kept_of_setInternalBit? hchanged
      rw [cruWrite_of_internal hchanged]
      refine ⟨fun _ => Nat.lt_of_lt_of_eq (h honChip) hsize.symm, fun other => ?_⟩
      rw [Machine.ioBit, hbits, hplace]
      split
      · rfl
      · rfl
  | none =>
      have hnone := Cpu.setInternalBit?_eq_none_iff.mp hchanged
      rw [cruWrite_of_external hchanged, hplace]
      refine ⟨h, fun other => ?_⟩
      rw [Machine.ioBit, Machine.ioBit]
      dsimp only
      rw [latches_ioWrite, UInt16.toUInt16_toUInt32, Memory.peek_poke]
      split
      · next hsame =>
          rw [← hsame, ← hplace, hnone]
          cases value with
          | false => rfl
          | true => rfl
      · rfl

end Exec

namespace Exec

variable {before machine : Machine β}

/-- Bits written one after the other are found where they were written, and the others are as they
were. -/
theorem writeBits_spec {count : Nat} (hcount : count ≤ 0x1000) (h : machine.cpu.HasLatchLines)
    {base : UInt16} {number : Int} (hbase : (base.toNat : Int) % 0x1000 = number % 0x1000)
    (value : UInt16) :
    (∀ i < count,
      (writeBits value count base machine).2.ioBit (number + i) = value.toNat.testBit i) ∧
      ∀ other, (∀ i < count, other % 0x1000 ≠ (number + i) % 0x1000) →
        (writeBits value count base machine).2.ioBit other = machine.ioBit other := by
  induction count generalizing machine base value number with
  | zero => exact ⟨nofun, fun _ _ => rfl⟩
  | succ count ih =>
      obtain ⟨hwritten, hbits⟩ := cruWrite_spec hbase h (value &&& 1 != 0)
      have hnext : ((base + 1).toNat : Int) % 0x1000 = (number + 1) % 0x1000 := by
        rw [UInt16.toNat_add]
        simp only [UInt16.reduceToNat]
        omega
      obtain ⟨hput, hkept⟩ := ih (Nat.le_of_succ_le hcount) hwritten hnext (value >>> 1)
      refine ⟨fun i hi => ?_, fun other hother => ?_⟩
      · cases i with
        | zero =>
            -- The later bits lie elsewhere, as there are no more of them than the ring has places.
            refine (hkept (number + (0 : Nat)) fun j hj => by omega).trans ?_
            rw [hbits, if_pos (by omega)]
            exact Word.and_one_ne value
        | succ i =>
            have hbit := hput i (Nat.lt_of_succ_lt_succ hi)
            rw [Word.testBit_shiftRight_one] at hbit
            rw [← hbit, Int.add_assoc, Int.add_comm 1]
            rfl
      · refine (hkept other fun j hj => ?_).trans ?_
        · have hlater := hother (j + 1) (Nat.succ_lt_succ hj)
          omega
        · rw [hbits, if_neg]
          have hfirst := hother 0 (Nat.succ_pos count)
          omega

omit [LatchBus β] in
theorem writeBits_eq_foldl (count : Nat) (value base : UInt16) (machine : Machine β) :
    (writeBits value count base machine).2 = (List.range count).foldl
      (fun written i => (cruWrite (base + UInt16.ofNat i) (value.toNat.testBit i) written).2)
      machine := by
  induction count generalizing value base machine with
  | zero => rfl
  | succ count ih =>
      have hfirst : base + UInt16.ofNat 0 = base := UInt16.add_zero base
      rw [List.range_succ_eq_map, List.foldl_cons, List.foldl_map, ← Word.and_one_ne, hfirst]
      refine (ih (value >>> 1) (base + 1) _).trans ?_
      have hplace (i : Nat) : base + 1 + UInt16.ofNat i = base + UInt16.ofNat i.succ := by
        rw [UInt16.add_assoc, UInt16.add_comm 1]
        simp [UInt16.ofNat_add]
      simp only [Word.testBit_shiftRight_one, hplace]
      rfl

theorem readBits_inspects {count place : Nat} (hcount : place + count ≤ 16) {base bit : UInt16}
    (hbit : 0 < count → bit.toNat = 2 ^ place) {number : Int}
    (hbase : (base.toNat : Int) % 0x1000 = number % 0x1000) (h : before.Inspected machine) :
    ∃ value next, readBits count base bit machine = (value, next) ∧ before.Inspected next ∧
      ∀ i : Nat, value.toNat.testBit i =
        (decide (place ≤ i ∧ i < place + count) && before.ioBit (number + (i - place))) := by
  induction count generalizing machine base bit place number with
  | zero =>
      refine ⟨0, machine, rfl, h, fun i => ?_⟩
      rw [decide_eq_false (by omega)]
      exact Nat.zero_testBit i
  | succ count ih =>
      have hbit := hbit (Nat.succ_pos count)
      obtain ⟨middle, hread, hmiddle⟩ := cruRead_inspects hbase h
      have hnext : ((base + 1).toNat : Int) % 0x1000 = (number + 1) % 0x1000 := by
        rw [UInt16.toNat_add]
        simp only [UInt16.reduceToNat]
        omega
      have hshifted : 0 < count → (bit <<< 1).toNat = 2 ^ (place + 1) := by
        intro hpos
        have hlt : 2 ^ (place + 1) < 2 ^ 16 := Nat.pow_lt_pow_right (by decide) (by omega)
        rw [UInt16.toNat_shiftLeft, hbit, Nat.shiftLeft_eq]
        exact Nat.mod_eq_of_lt hlt
      have hfewer : place + 1 + count ≤ 16 := by omega
      obtain ⟨rest, last, hrest, hlast, hbits⟩ := ih hfewer hshifted hnext hmiddle
      refine ⟨if before.ioBit number then rest ||| bit else rest, last, ?_, hlast,
        fun i => ?_⟩
      · rw [readBits, bind_of_eq hread, bind_of_eq hrest]
        rfl
      · have hword : (if before.ioBit number then rest ||| bit else rest).toNat.testBit i =
            (rest.toNat.testBit i || before.ioBit number && decide (place = i)) := by
          split
          · next hset =>
              rw [UInt16.toNat_or, Nat.testBit_or, hbit, Nat.testBit_two_pow, hset, Bool.true_and]
          · next hclear =>
              rw [Bool.eq_false_of_not_eq_true hclear, Bool.false_and, Bool.or_false]
        rw [hword, hbits]
        by_cases hplace : place = i
        · subst hplace
          rw [decide_eq_false (by omega), decide_eq_true rfl, decide_eq_true (by omega),
            Int.sub_self, Int.add_zero, Bool.false_and, Bool.false_or, Bool.and_true, Bool.true_and]
        · have hrange : (place + 1 ≤ i ∧ i < place + 1 + count) ↔
              (place ≤ i ∧ i < place + (count + 1)) := by omega
          have hnumber : number + 1 + ((i : Int) - (place + 1 : Nat)) = number + (i - place) := by
            omega
          rw [decide_eq_false hplace, Bool.and_false, Bool.or_false, hnumber]
          simp only [hrange]

end Exec

end TmsCores.Tms9900
