import TmsCores.Proofs.Tms7000.Stability

namespace TmsCores.Tms7000

namespace Instruction

def changesEnable : Instruction → Bool
  | .eint | .dint | .popSt | .reti => true
  | _ => false

/-- The instructions that leave no carry. -/
def clearsCarry : Instruction → Bool
  | .dual .mov _ | .dual .and _ | .dual .or _ | .dual .xor _ => true
  | .dual .btjo _ | .dual .btjz _ | .dual .mpy _ => true
  | .movp _ | .peripheral _ _ => true
  | .extended .movd _ | .extended .lda _ | .extended .sta _ => true
  | .single .xchb _ | .single .push _ | .single .pop _ | .single .inv _ | .single .clr _ => true
  | .clrc | .tstb | .movAB | .movToRegister _ => true
  | _ => false

/-- The instructions after which sign and zero describe what was stored. -/
def describes : Instruction → Bool
  | .dual .btjo _ | .dual .btjz _ | .dual .cmp _ => false
  | .peripheral .btjo _ | .peripheral .btjz _ => false
  | .single .djnz _ => false
  | .dual _ _ | .peripheral _ _ | .single _ _ => true
  | .extended .movd _ | .extended .lda _ | .extended .sta _ => true
  | .movp _ | .movAB | .movToRegister _ => true
  | _ => false

/-- The store that sign and zero describe.  Of the two bytes that an instruction stores this is the
first, which is the more significant one of a word, but XCHB comes to the byte for B last. -/
def described : Instruction → List (Location × UInt8) → Option (Location × UInt8)
  | .single .xchb _, stores => stores.getLast?
  | _, stores => stores.head?

theorem described_singleton (instruction : Instruction) (store : Location × UInt8) :
    instruction.described [store] = some store := by
  unfold described
  split
  · rfl
  · rfl

end Instruction

/-- What an instruction makes of its operands: the bytes that it stores, in their order, the status
register after it, and whether a bit test branches. -/
structure Result where
  stores : List (Location × UInt8) := []
  st : UInt8
  branches : Option Bool := none

def Cpu.place (cpu : Cpu) (number : UInt8) : Location :=
  .ofAddress cpu.config number.toUInt16

def Cpu.wordStores (number : UInt8) (value : UInt16) (cpu : Cpu) : List (Location × UInt8) :=
  [(cpu.place (number - 1), Word.high value), (cpu.place number, Word.low value)]

namespace Result

/-- Sign and zero follow a value, and no carry is left. -/
def logical (stores : Cpu → List (Location × UInt8)) (value : UInt8) (cpu : Cpu) : Result where
  stores := stores cpu
  st := Status.logical cpu.st value

def outcome (number : UInt8) (outcome : UInt8 → Outcome) (cpu : Cpu) : Result where
  stores := [(cpu.place number, (outcome cpu.st).value)]
  st := (outcome cpu.st).st

def bits (bits : UInt8) (cpu : Cpu) : Result where
  st := Status.logical cpu.st bits
  branches := some (bits != 0)

def comparison (d s : UInt8) (cpu : Cpu) : Result where
  st := (Outcome.subtract cpu.st d s false).st

/-- What can be said of the result of an instruction, given the status register before it. -/
structure IsFor (instruction : Instruction) (st : UInt8) (result : Result) : Prop where
  follows : Status.Follows st result.st
  exclusive : ¬(Status.has result.st Status.negative = true ∧
    Status.has result.st Status.zero = true)
  carry : instruction.clearsCarry = true → Status.has result.st Status.carry = false
  straight : instruction.describes = true → result.branches = none
  described : instruction.describes = true →
    ∃ store ∈ instruction.described result.stores, Status.Describes result.st store.2

namespace IsFor

variable {instruction : Instruction} {stores : List (Location × UInt8)}

theorem logical (st value : UInt8) (hdescribed : instruction.describes = true →
    ∃ store ∈ instruction.described stores, store.2 = value) :
    IsFor instruction st ⟨stores, Status.logical st value, none⟩ where
  follows := .logical st value
  exclusive := (Status.Describes.logical st value).not_both
  carry _ := Status.has_carry_logical st value
  straight _ := rfl
  described h := by
    obtain ⟨store, hstore, rfl⟩ := hdescribed h
    exact ⟨store, hstore, .logical st store.2⟩

theorem bits (bits : UInt8) (cpu : Cpu) (hdescribes : instruction.describes = false) :
    (Result.bits bits cpu).IsFor instruction cpu.st where
  follows := .logical cpu.st bits
  exclusive := (Status.Describes.logical cpu.st bits).not_both
  carry _ := Status.has_carry_logical cpu.st bits
  straight h := absurd (hdescribes.symm.trans h) nofun
  described h := absurd (hdescribes.symm.trans h) nofun

theorem of_describes {st value : UInt8} {result : Result} (hfollows : Status.Follows st result.st)
    (hvalue : Status.Describes result.st value) (hcarry : instruction.clearsCarry = false)
    (hstraight : result.branches = none) (hdescribed : instruction.describes = true →
      ∃ store ∈ instruction.described result.stores, store.2 = value) :
    IsFor instruction st result where
  follows := hfollows
  exclusive := hvalue.not_both
  carry h := absurd (hcarry.symm.trans h) nofun
  straight _ := hstraight
  described h := by
    obtain ⟨store, hstore, rfl⟩ := hdescribed h
    exact ⟨store, hstore, hvalue⟩

theorem outcome {st : UInt8} {outcome : Outcome} (hflags : outcome.SetsFlags st)
    (hshows : outcome.Shows) (hcarry : instruction.clearsCarry = false) (location : Location) :
    IsFor instruction st ⟨[(location, outcome.value)], outcome.st, none⟩ :=
  of_describes hflags hshows hcarry rfl fun _ => ⟨_, instruction.described_singleton _, rfl⟩

end IsFor

end Result

variable {α β : Type} [Bus β]

/-- Since some moment operands have been read, and nothing has been written. -/
structure Machine.Inspected (before machine : Machine β) : Prop where
  cpu_eq : machine.cpu = { before.cpu with pc := machine.cpu.pc, sp := machine.cpu.sp }
  onlyRead : Bus.OnlyRead before.bus machine.bus

theorem Machine.Inspected.st_eq {before machine : Machine β} (h : before.Inspected machine) :
    machine.cpu.st = before.cpu.st := by
  rw [h.cpu_eq]

namespace Exec

/-- A part of an instruction reads operands and writes nothing. -/
def Inspects (x : Exec β α) : Prop :=
  ∀ before : Machine β, Keeps before.Inspected x

theorem readAt_inspects (location : Location) : Inspects (readAt (β := β) location) := by
  intro before machine hmachine
  cases location with
  | register => exact ⟨hmachine.cpu_eq, hmachine.onlyRead⟩
  | interruptControl | timerData | timerControl => exact hmachine
  | port number => exact ⟨hmachine.cpu_eq, hmachine.onlyRead.tail (.io _ _)⟩
  | memory address => exact ⟨hmachine.cpu_eq, hmachine.onlyRead.tail (.memory _ _)⟩

theorem reads (before : Machine β) : ReadSimulation (SameWith before.Inspected) where
  sameCpu := by
    rintro m _ ⟨rfl, _⟩
    rfl
  read address := corresponds_self_iff.mpr
    (inspect_keeps fun _ hmachine => readAt_inspects _ before _ hmachine)
  readPeripheral number := corresponds_self_iff.mpr (readAt_inspects _ before)
  readAccumulator _ := corresponds_self_iff.mpr fun machine hmachine =>
    ⟨hmachine.cpu_eq, hmachine.onlyRead⟩
  setPc pc := corresponds_self_iff.mpr fun machine hmachine =>
    ⟨congrArg (·.setPc pc) hmachine.cpu_eq, hmachine.onlyRead⟩
  setSp sp := corresponds_self_iff.mpr fun machine hmachine =>
    ⟨congrArg (fun cpu : Cpu => { cpu with sp := sp }) hmachine.cpu_eq, hmachine.onlyRead⟩

def storeAll : List (Location × UInt8) → Exec β Unit
  | [] => return
  | (location, value) :: rest => do
      writeAt location value
      storeAll rest

/-- What is left to do for an instruction once its result is found. -/
def finish (result : Result) : Exec β Nat := do
  storeAll result.stores
  modifySt fun _ => result.st
  match result.branches with
  | none => return 0
  | some taken => branchIf taken

omit [Bus β] in
/-- A result that takes the status register into account. -/
def settle (make : Cpu → Result) : Exec β Result :=
  return make (← cpu)

theorem writeAt_cpu (location : Location) (value : UInt8) (machine : Machine β) :
    (writeAt location value machine).2.cpu.st = machine.cpu.st ∧
      (writeAt location value machine).2.cpu.config = machine.cpu.config := by
  cases location with
  | register | interruptControl | timerData | timerControl | port | memory => exact ⟨rfl, rfl⟩

theorem writeAt_withSt (location : Location) (value st : UInt8) (machine : Machine β) :
    writeAt location value { machine with cpu.st := st } =
      ((), { (writeAt location value machine).2 with cpu.st := st }) := by
  cases location with
  | register | interruptControl | timerData | timerControl | port | memory => rfl

theorem storeAll_st (stores : List (Location × UInt8)) (machine : Machine β) :
    (storeAll stores machine).2.cpu.st = machine.cpu.st := by
  induction stores generalizing machine with
  | nil => rfl
  | cons store rest ih =>
      obtain ⟨location, value⟩ := store
      exact (ih _).trans (writeAt_cpu location value machine).1

/-- An instruction comes to a result by reads alone, which is right for it, and finishes with
that. -/
structure Settles (instruction : Instruction) (find : Exec β Result) (x : Exec β Nat) : Prop where
  eq : x = find >>= finish
  inspects : Inspects find
  isFor : ∀ st, Yields (Machine.Has (·.st = st)) (·.IsFor instruction st) find

namespace Settles

variable {instruction : Instruction}

theorem bind {y : Exec β α} {f : α → Exec β Result} {g : α → Exec β Nat} (hy : Inspects y)
    (h : ∀ value, Settles instruction (f value) (g value)) :
    Settles instruction (y >>= f) (y >>= g) where
  eq := by
    rw [bind_assoc]
    exact bind_congr fun value => (h value).eq
  inspects before := (hy before).bind fun value => (h value).inspects before
  isFor st := by
    refine Yields.bind (S := Machine.Has (·.st = st)) ?_ fun value => (h value).isFor st
    rintro machine rfl
    exact (hy machine machine ⟨rfl, .refl⟩).st_eq

theorem settle {make : Cpu → Result} {x : Exec β Nat}
    (heq : ∀ machine, x machine = finish (make machine.cpu) machine)
    (hmake : ∀ cpu, (make cpu).IsFor instruction cpu.st) :
    Settles instruction (Exec.settle make) x where
  eq := funext heq
  inspects _ _ hmachine := hmachine
  isFor _ := by
    rintro machine rfl
    exact hmake machine.cpu

theorem of_stores {make : Cpu → Result} {change : UInt8 → UInt8} {x : Exec β Unit}
    (hx : ∀ machine, x machine = storeAll (make machine.cpu).stores machine)
    (hst : ∀ cpu, (make cpu).st = change cpu.st) (hbranches : ∀ cpu, (make cpu).branches = none)
    (hmake : ∀ cpu, (make cpu).IsFor instruction cpu.st) :
    Settles instruction (Exec.settle make) (do
      x
      modifySt change
      return 0) := by
  refine settle (fun machine => ?_) hmake
  have hafter := storeAll_st (make machine.cpu).stores machine
  rw [finish, hbranches, hst]
  change ((0 : Nat), { (x machine).2 with cpu.st := change (x machine).2.cpu.st }) =
    (0, { (storeAll (make machine.cpu).stores machine).2 with cpu.st := change machine.cpu.st })
  rw [hx, hafter]

theorem of_logical {stores : Cpu → List (Location × UInt8)} {value : UInt8} {x : Exec β Unit}
    (hx : ∀ machine, x machine = storeAll (stores machine.cpu) machine)
    (hdescribed : ∀ cpu, instruction.describes = true →
      ∃ store ∈ instruction.described (stores cpu), store.2 = value) :
    Settles instruction (Exec.settle (.logical stores value)) (do
      x
      modifySt (Status.logical · value)
      return 0) :=
  of_stores hx (fun _ => rfl) (fun _ => rfl) fun cpu => .logical cpu.st value (hdescribed cpu)

theorem of_outcome {number : UInt8} {outcome : UInt8 → Outcome}
    (hmake : ∀ cpu : Cpu, (Result.outcome number outcome cpu).IsFor instruction cpu.st) :
    Settles (β := β) instruction (Exec.settle (.outcome number outcome)) (do
      storeOutcome number (outcome (← cpu).st)
      return 0) := by
  refine settle (fun machine => ?_) hmake
  let place := machine.cpu.place number
  let result := outcome machine.cpu.st
  change ((0 : Nat), (writeAt place result.value { machine with cpu.st := result.st }).2) =
    (0, { (writeAt place result.value machine).2 with cpu.st := result.st })
  rw [writeAt_withSt]

theorem of_bits (bits : UInt8) (hdescribes : instruction.describes = false) :
    Settles (β := β) instruction (Exec.settle (.bits bits)) (branchOnBits bits) := by
  refine settle (fun machine => ?_) fun cpu => .bits bits cpu hdescribes
  let next : Machine β := { machine with cpu.st := Status.logical machine.cpu.st bits }
  have hbranch : branchOnBits bits machine = branchIf (bits != 0) next := rfl
  have hfinish : finish (.bits bits machine.cpu) machine = branchIf (bits != 0) next := rfl
  rw [hbranch, hfinish]

theorem of_comparison (d s : UInt8) (hcarry : instruction.clearsCarry = false)
    (hdescribes : instruction.describes = false) :
    Settles (β := β) instruction (Exec.settle (.comparison d s)) (do
      modifySt fun st => (Outcome.subtract st d s false).st
      return 0) :=
  settle (fun _ => rfl) fun cpu =>
    .of_describes (Outcome.SetsFlags.subtract cpu.st d s false)
      (Outcome.Shows.subtract cpu.st d s false) hcarry rfl fun h =>
        absurd (hdescribes.symm.trans h) nofun

end Settles

def dualResult (operation : DualOperation) (s destination : UInt8) : Exec β Result :=
  match operation with
  | .mov => settle (.logical (fun cpu => [(cpu.place destination, s)]) s)
  | .and => binary fun st d => .logical st (s &&& d)
  | .or => binary fun st d => .logical st (s ||| d)
  | .xor => binary fun st d => .logical st (s ^^^ d)
  | .btjo => do settle (.bits (s &&& (← readRegister destination)))
  | .btjz => do settle (.bits (s &&& ~~~(← readRegister destination)))
  | .add => binary fun st d => .add st d s false
  | .adc => binary fun st d => .add st d s (Status.has st Status.carry)
  | .sub => binary fun st d => .subtract st d s false
  | .sbb => binary fun st d => .subtract st d s (!Status.has st Status.carry)
  | .mpy => do
      let d ← readRegister destination
      let product := s.toUInt16 * d.toUInt16
      let stores := [(.register 0, Word.high product), (.register 1, Word.low product)]
      settle (.logical (fun _ => stores) (Word.high product))
  | .cmp => do settle (.comparison (← readRegister destination) s)
  | .dac => binary fun st d => .addDecimal st d s (Status.has st Status.carry)
  | .dsb => binary fun st d => .subtractDecimal st d s (!Status.has st Status.carry)
where
  binary (combine : UInt8 → UInt8 → Outcome) : Exec β Result := do
    let d ← readRegister destination
    settle (.outcome destination (combine · d))

def peripheralResult (operation : PeripheralOperation) (s number : UInt8) : Exec β Result :=
  match operation with
  | .mov => store s
  | .and => do store (s &&& (← readPeripheral number))
  | .or => do store (s ||| (← readPeripheral number))
  | .xor => do store (s ^^^ (← readPeripheral number))
  | .btjo => do settle (.bits (s &&& (← readPeripheral number)))
  | .btjz => do settle (.bits (s &&& ~~~(← readPeripheral number)))
where
  store (value : UInt8) : Exec β Result :=
    settle (.logical (fun _ => [(.ofPeripheral number, value)]) value)

def extendedResult? : ExtendedOperation → Option (UInt16 → Exec β Result)
  | .movd => some fun operand => do
      let number ← fetch
      settle (.logical (Cpu.wordStores number operand) (Word.high operand))
  | .lda => some fun operand => do
      let value ← read operand
      settle (.logical (fun _ => [(.register 0, value)]) value)
  | .sta => some fun operand => do
      let value ← readAccumulator .a
      settle (.logical (fun cpu => [(.ofAddress cpu.config operand, value)]) value)
  | .cmpa => some fun operand => do
      let value ← read operand
      let a ← readAccumulator .a
      settle (.comparison a value)
  | .br | .call => none

def singleResult? : SingleOperation → Option (UInt8 → Exec β Result)
  | .dec => some (unary fun st v => .subtract st v 1 false)
  | .inc => some (unary fun st v => .add st v 1 false)
  | .inv => some (unary fun st v => .logical st (~~~v))
  | .clr => some fun number => settle (.outcome number (.logical · 0))
  | .xchb => some fun number => do
      let v ← readRegister number
      let b ← readAccumulator .b
      settle (.logical (fun cpu => [(cpu.place number, b), (.register 1, v)]) v)
  | .swap => some (unary Outcome.swap)
  | .push => some fun number => do
      let v ← readRegister number
      let sp := (← cpu).sp + 1
      setSp sp
      settle (.logical (fun cpu => [(cpu.place sp, v)]) v)
  | .pop => some fun number => do
      let v ← pop
      settle (.outcome number (.logical · v))
  | .djnz => none
  | .decd => some fun number => do
      let v ← readPair number
      settle fun cpu =>
        { stores := cpu.wordStores number (v - 1)
          st := Status.withCarry (Status.logical cpu.st (Word.high (v - 1))) (v != 0) }
  | .rr => some (unary Outcome.rotateRight)
  | .rrc => some (unary fun st v => .rotateRightCarry st v (Status.has st Status.carry))
  | .rl => some (unary Outcome.rotateLeft)
  | .rlc => some (unary fun st v => .rotateLeftCarry st v (Status.has st Status.carry))
where
  unary (change : UInt8 → UInt8 → Outcome) (number : UInt8) : Exec β Result := do
    let v ← readRegister number
    settle (.outcome number (change · v))

/-- How an instruction comes to its result.  All others leave the status register alone, or load
it. -/
def result : Instruction → Option (Exec β Result)
  | .setc => some (settle fun cpu =>
      { st := (cpu.st &&& Status.interruptEnable) ||| Status.carry ||| Status.zero })
  | .dual operation form => some do
      let operands ← dualOperands form
      dualResult operation operands.1 operands.2
  | .movp destination => some do
      let value ← readPeripheral (← fetch)
      settle (.logical (fun _ => [(.register destination.number.toNat, value)]) value)
  | .peripheral operation source => some do
      let s ← peripheralSource source
      let number ← fetch
      peripheralResult operation s number
  | .extended operation mode => (extendedResult? operation).map fun make => do
      make (← extendedOperand mode)
  | .clrc => some do settle (.logical (fun _ => []) (← readAccumulator .a))
  | .movAB => some do
      let a ← readAccumulator .a
      settle (.logical (fun _ => [(.register 1, a)]) a)
  | .tstb => some do settle (.logical (fun _ => []) (← readAccumulator .b))
  | .movToRegister source => some do
      let number ← fetch
      let value ← readAccumulator source
      settle (.logical (fun cpu => [(cpu.place number, value)]) value)
  | .single operation target => (singleResult? operation).map fun make => do
      make (← targetNumber target)
  | _ => none

theorem result_isSome (instruction : Instruction) :
    (result (β := β) instruction).isSome =
      !(instruction.keepsStatus || instruction.changesEnable) := by
  cases instruction with
  | extended operation mode => cases operation <;> rfl
  | single operation target => cases operation <;> rfl
  | _ => rfl

section

variable {instruction : Instruction}

theorem binary_settles (destination : UInt8) {combine : UInt8 → UInt8 → Outcome}
    (hmake : ∀ d cpu, (Result.outcome destination (combine · d) cpu).IsFor instruction cpu.st) :
    Settles (β := β) instruction (dualResult.binary destination combine)
      (dual.binary destination combine) :=
  .bind (fun before => corresponds_self_iff.mp ((reads before).readRegister destination)) fun d =>
    .of_outcome (hmake d)

theorem dual_settles (operation : DualOperation) (form : DualForm) :
    Settles (β := β) (.dual operation form) (do
      let operands ← dualOperands form
      dualResult operation operands.1 operands.2) (dual operation form) := by
  refine .bind (fun before => corresponds_self_iff.mp ((reads before).dualOperands form)) ?_
  rintro ⟨s, destination⟩
  have hread : Inspects (readRegister (β := β) destination) := fun before =>
    corresponds_self_iff.mp ((reads before).readRegister destination)
  cases operation with
  | mov => exact .of_logical (fun _ => rfl) fun _ _ => ⟨_, rfl, rfl⟩
  | and | or | xor =>
      exact binary_settles destination fun d cpu => .logical cpu.st _ fun _ => ⟨_, rfl, rfl⟩
  | btjo | btjz => exact .bind hread fun d => .of_bits _ rfl
  | add | adc =>
      exact binary_settles destination fun d cpu =>
        .outcome (.add cpu.st d s _) (.add cpu.st d s _) rfl _
  | sub | sbb =>
      exact binary_settles destination fun d cpu =>
        .outcome (.subtract cpu.st d s _) (.subtract cpu.st d s _) rfl _
  | mpy =>
      refine .bind hread fun d => ?_
      exact .of_logical (fun _ => rfl) fun _ _ => ⟨_, rfl, rfl⟩
  | cmp => exact .bind hread fun d => .of_comparison d s rfl rfl
  | dac =>
      exact binary_settles destination fun d cpu =>
        .outcome (.addDecimal cpu.st d s _) (.addDecimal cpu.st d s _) rfl _
  | dsb =>
      exact binary_settles destination fun d cpu =>
        .outcome (.subtractDecimal cpu.st d s _) (.subtractDecimal cpu.st d s _) rfl _

theorem peripheral_settles (operation : PeripheralOperation) (source : PeripheralSource) :
    Settles (β := β) (.peripheral operation source) (do
      let s ← peripheralSource source
      let number ← fetch
      peripheralResult operation s number) (peripheral operation source) := by
  refine .bind (fun before => corresponds_self_iff.mp ((reads before).peripheralSource source))
    fun s => ?_
  refine .bind (fun before => corresponds_self_iff.mp (reads before).fetch) fun number => ?_
  have hread : Inspects (readPeripheral (β := β) number) := readAt_inspects _
  cases operation with
  | mov => exact .of_logical (fun _ => rfl) fun _ _ => ⟨_, rfl, rfl⟩
  | and | or | xor =>
      exact .bind hread fun v => .of_logical (fun _ => rfl) fun _ _ => ⟨_, rfl, rfl⟩
  | btjo | btjz => exact .bind hread fun d => .of_bits _ rfl

theorem writePair_eq (number : UInt8) (value : UInt16) (machine : Machine β) :
    writePair number value machine = storeAll (machine.cpu.wordStores number value) machine := by
  let first := (writeAt (machine.cpu.place (number - 1)) (Word.high value) machine).2
  have hplace : first.cpu.place number = machine.cpu.place number := by
    rw [Cpu.place, (writeAt_cpu _ _ machine).2, Cpu.place]
  change writeAt (first.cpu.place number) (Word.low value) first =
    writeAt (machine.cpu.place number) (Word.low value) first
  rw [hplace]

theorem extended_settles {operation : ExtendedOperation} {mode : ExtendedMode}
    {make : UInt16 → Exec β Result} (h : extendedResult? operation = some make) :
    Settles (.extended operation mode) (do make (← extendedOperand mode)) (do
      extended operation mode
      return 0) := by
  have hoperand : Inspects (extendedOperand (β := β) mode) := fun before =>
    corresponds_self_iff.mp ((reads before).extendedOperand mode)
  have hread (address : UInt16) : Inspects (read (β := β) address) := fun before =>
    corresponds_self_iff.mp ((reads before).read address)
  have haccumulator : Inspects (readAccumulator (β := β) .a) := fun before =>
    corresponds_self_iff.mp ((reads before).readAccumulator .a)
  rw [extended, bind_assoc]
  refine .bind hoperand fun operand => ?_
  cases operation with
  | movd =>
      obtain rfl := Option.some.inj h
      simp only [bind_assoc]
      refine .bind (fun before => corresponds_self_iff.mp (reads before).fetch) fun number => ?_
      exact .of_logical (writePair_eq number operand) fun _ _ => ⟨_, rfl, rfl⟩
  | lda =>
      obtain rfl := Option.some.inj h
      simp only [bind_assoc]
      refine .bind (hread operand) fun value => ?_
      exact .of_logical (fun _ => rfl) fun _ _ => ⟨_, rfl, rfl⟩
  | sta =>
      obtain rfl := Option.some.inj h
      simp only [bind_assoc]
      refine .bind haccumulator fun value => ?_
      exact .of_logical (fun _ => rfl) fun _ _ => ⟨_, rfl, rfl⟩
  | cmpa =>
      obtain rfl := Option.some.inj h
      simp only [bind_assoc]
      refine .bind (hread operand) fun value => ?_
      exact .bind haccumulator fun a => .of_comparison a value rfl rfl
  | br | call => exact absurd h nofun

theorem unary_settles (number : UInt8) {change : UInt8 → UInt8 → Outcome}
    (hmake : ∀ v cpu, (Result.outcome number (change · v) cpu).IsFor instruction cpu.st) :
    Settles (β := β) instruction (singleResult?.unary change number)
      (single.unary number change) :=
  .bind (fun before => corresponds_self_iff.mp ((reads before).readRegister number)) fun v =>
    .of_outcome (hmake v)

theorem single_settles {operation : SingleOperation} {target : Target}
    {make : UInt8 → Exec β Result} (h : singleResult? operation = some make) :
    Settles (.single operation target) (do make (← targetNumber target))
      (single operation target) := by
  refine .bind (fun before => corresponds_self_iff.mp ((reads before).targetNumber target))
    fun number => ?_
  have hread : Inspects (readRegister (β := β) number) := fun before =>
    corresponds_self_iff.mp ((reads before).readRegister number)
  cases operation with
  | dec =>
      obtain rfl := Option.some.inj h
      exact unary_settles number fun v cpu =>
        .outcome (.subtract cpu.st v 1 false) (.subtract cpu.st v 1 false) rfl _
  | inc =>
      obtain rfl := Option.some.inj h
      exact unary_settles number fun v cpu =>
        .outcome (.add cpu.st v 1 false) (.add cpu.st v 1 false) rfl _
  | inv =>
      obtain rfl := Option.some.inj h
      exact unary_settles number fun v cpu => .logical cpu.st _ fun _ => ⟨_, rfl, rfl⟩
  | clr =>
      obtain rfl := Option.some.inj h
      exact .of_outcome fun cpu => .logical cpu.st 0 fun _ => ⟨_, rfl, rfl⟩
  | xchb =>
      obtain rfl := Option.some.inj h
      have haccumulator : Inspects (readAccumulator (β := β) .b) := fun before =>
        corresponds_self_iff.mp ((reads before).readAccumulator .b)
      refine .bind hread fun v => .bind haccumulator fun b => ?_
      exact .of_logical (fun _ => rfl) fun _ _ => ⟨_, rfl, rfl⟩
  | swap | rr | rrc | rl | rlc =>
      obtain rfl := Option.some.inj h
      exact unary_settles number fun v cpu =>
        .outcome (.withCarry cpu.st _ _) (.withCarry cpu.st _ _) rfl _
  | push =>
      obtain rfl := Option.some.inj h
      refine .bind hread fun v => ?_
      rw [push, bind_assoc]
      refine .bind (fun _ => cpu_keeps) fun before => ?_
      rw [bind_assoc]
      refine .bind (fun start => corresponds_self_iff.mp ((reads start).setSp _)) fun _ => ?_
      exact .of_logical (fun _ => rfl) fun _ _ => ⟨_, rfl, rfl⟩
  | pop =>
      obtain rfl := Option.some.inj h
      refine .bind (fun before => corresponds_self_iff.mp (reads before).pop) fun v => ?_
      exact .of_outcome fun cpu => .logical cpu.st v fun _ => ⟨_, rfl, rfl⟩
  | decd =>
      obtain rfl := Option.some.inj h
      refine .bind (fun before => corresponds_self_iff.mp ((reads before).readPair number))
        fun v => ?_
      refine .of_stores (writePair_eq number (v - 1)) (fun _ => rfl) (fun _ => rfl) fun cpu => ?_
      have hshows := Status.Describes.logical cpu.st (Word.high (v - 1))
      exact .of_describes ((Status.Follows.logical cpu.st _).withCarry _) (hshows.withCarry _) rfl
        rfl fun _ => ⟨_, rfl, rfl⟩
  | djnz => exact absurd h nofun

/-- Every instruction that comes to a result comes to a right one. -/
theorem perform_settles {find : Exec β Result} (h : result instruction = some find) :
    Settles instruction find (perform instruction) := by
  have hfetch : Inspects (fetch (β := β)) := fun before =>
    corresponds_self_iff.mp (reads before).fetch
  have hread (accumulator : Accumulator) : Inspects (readAccumulator (β := β) accumulator) :=
    fun before => corresponds_self_iff.mp ((reads before).readAccumulator accumulator)
  cases instruction with
  | setc =>
      obtain rfl := Option.some.inj h
      refine .settle (fun _ => rfl) fun cpu => ?_
      rw [Status.setc_eq]
      exact
        { follows := .arithmetic cpu.st _
          exclusive := fun h => absurd ((Status.has_negative_arithmetic ..).symm.trans h.1) nofun
          carry := nofun
          straight := nofun
          described := nofun }
  | dual operation form =>
      obtain rfl := Option.some.inj h
      exact dual_settles operation form
  | movp destination =>
      obtain rfl := Option.some.inj h
      refine .bind hfetch fun number => .bind (readAt_inspects _) fun value => ?_
      exact .of_logical (fun _ => rfl) fun _ _ => ⟨_, rfl, rfl⟩
  | peripheral operation source =>
      obtain rfl := Option.some.inj h
      exact peripheral_settles operation source
  | extended operation mode =>
      obtain ⟨make, hmake, rfl⟩ := Option.map_eq_some_iff.mp h
      exact extended_settles hmake
  | clrc | tstb =>
      obtain rfl := Option.some.inj h
      exact .bind (hread _) fun value => .of_logical (x := pure ()) (fun _ => rfl) nofun
  | movAB =>
      obtain rfl := Option.some.inj h
      exact .bind (hread .a) fun a => .of_logical (fun _ => rfl) fun _ _ => ⟨_, rfl, rfl⟩
  | movToRegister source =>
      obtain rfl := Option.some.inj h
      refine .bind hfetch fun number => .bind (hread source) fun value => ?_
      exact .of_logical (fun _ => rfl) fun _ _ => ⟨_, rfl, rfl⟩
  | single operation target =>
      obtain ⟨make, hmake, rfl⟩ := Option.map_eq_some_iff.mp h
      exact single_settles hmake
  | _ => exact absurd h nofun

end

end Exec

end TmsCores.Tms7000
