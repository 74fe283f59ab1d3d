import TmsCores.Proofs.Tms7000.Course
import TmsCores.Proofs.Tms7000.Result

namespace TmsCores.Tms7000

theorem Cpu.operandStable_of_st (Q : UInt8 → Prop) : OperandStable fun cpu => Q cpu.st where
  setRegister h _ _ := h
  setPc h _ := h
  setSp h _ := h

variable {β : Type} [Bus β] {machine : Machine β}

theorem Exec.st_finish (result : Result) (machine : Machine β) :
    (finish result machine).2.cpu.st = result.st := by
  have hoperands := (Cpu.operandStable_of_st (· = result.st)).machine.operands (β := β)
  have hfinish : Leads (fun _ => True) (Machine.Has (·.st = result.st))
      (finish (β := β) result) := by
    refine Leads.after _ fun _ => ?_
    refine Leads.bind (Q := Machine.Has (·.st = result.st)) (fun _ _ => rfl) fun _ => ?_
    cases result.branches with
    | none => exact Keeps.pure 0
    | some taken => exact corresponds_self_iff.mp (hoperands.branchIf taken)
  exact hfinish machine trivial

namespace Machine

theorem st_iterate (machine : Machine β) (limit : Nat) :
    (Exec.iterate limit machine).2.cpu.st = machine.worked.cpu.st := by
  have hclock := (Cpu.clockStable_of_registers fun _ _ _ st _ =>
    st = machine.worked.cpu.st).simulation (β := β)
  rw [iterate_snd]
  exact corresponds_self_iff.mp (hclock.account _) machine.worked rfl

theorem inspected_fetched (machine : Machine β) : machine.checked.Inspected machine.fetched.2 :=
  corresponds_self_iff.mp (Exec.reads machine.checked).fetch machine.checked ⟨rfl, .refl⟩

/-- Neither an illegal opcode nor an instruction that keeps the status register changes it. -/
theorem st_worked_of_keepsStatus (h : machine.executes.all (·.keepsStatus) = true) :
    machine.worked.cpu.st = machine.checked.cpu.st := by
  have hstable := Cpu.operandStable_of_st (· = machine.checked.cpu.st)
  have hoperands := hstable.machine.operands (β := β)
  have hfetched := machine.inspected_fetched.st_eq
  cases hexecutes : machine.executes with
  | none =>
      rcases worked_of_not_executes hexecutes with hworked | hworked
      · rw [hworked]
      · rw [hworked]
        exact corresponds_self_iff.mp hoperands.illegal machine.fetched.2 hfetched
  | some instruction =>
      rw [hexecutes] at h
      have hperform := hoperands.perform h fun _ =>
        corresponds_self_iff.mpr fun _ hmachine => hmachine
      rw [worked_of_executes hexecutes]
      exact corresponds_self_iff.mp hperform machine.fetched.2 hfetched

theorem worked_of_result {instruction : Instruction} {find : Exec β Result}
    (hexecutes : machine.executes = some instruction)
    (hfind : Exec.result instruction = some find) :
    let found := find machine.fetched.2
    machine.checked.Inspected found.2 ∧ machine.worked = (Exec.finish found.1 found.2).2 ∧
      found.1.IsFor instruction machine.checked.cpu.st := by
  have hsettles := Exec.perform_settles hfind
  refine ⟨?_, ?_, ?_⟩
  · exact hsettles.inspects machine.checked machine.fetched.2 machine.inspected_fetched
  · rw [worked_of_executes hexecutes, hsettles.eq]
    rfl
  · exact hsettles.isFor _ machine.fetched.2 machine.inspected_fetched.st_eq

end Machine

/-- What an opcode may do to the status register: the bits before and after an instruction, or an
opcode that stands for none. -/
structure StatusFrame (executed : Option Instruction) (before after : UInt8) : Prop where
  kept : executed.all (·.keepsStatus) = true → after = before
  enable : executed.any (·.changesEnable) = false →
    after &&& Status.interruptEnable = before &&& Status.interruptEnable
  exclusive : Status.has after Status.negative = true → Status.has after Status.zero = true →
    after = before ∨ ∃ instruction ∈ executed, instruction.LoadsStatus
  carry : executed.any (·.clearsCarry) = true → Status.has after Status.carry = false

namespace Instruction

theorem clearsCarry_of_keepsStatus {instruction : Instruction}
    (h : instruction.keepsStatus = true) : instruction.clearsCarry = false := by
  cases instruction with
  | extended operation mode =>
      cases operation with
      | br | call => rfl
      | movd | lda | sta | cmpa => exact absurd h nofun
  | single operation target =>
      cases operation with
      | djnz => rfl
      | _ => exact absurd h nofun
  | nop | idle | pushSt | stsp | ldsp | rets | jump | trap => rfl
  | _ => exact absurd h nofun

theorem keepsStatus_of_describes {instruction : Instruction} (h : instruction.describes = true) :
    (instruction.keepsStatus || instruction.changesEnable) = false := by
  cases instruction with
  | extended operation mode =>
      cases operation with
      | movd | lda | sta => rfl
      | br | cmpa | call => exact absurd h nofun
  | single operation target =>
      cases operation with
      | djnz => exact absurd h nofun
      | _ => rfl
  | dual | movp | peripheral | movAB | movToRegister => rfl
  | _ => exact absurd h nofun

end Instruction

namespace Machine

theorem statusFrame_of_keepsStatus (h : machine.executes.all (·.keepsStatus) = true) :
    StatusFrame machine.executes machine.checked.cpu.st machine.worked.cpu.st where
  kept _ := st_worked_of_keepsStatus h
  enable _ := congrArg (· &&& Status.interruptEnable) (st_worked_of_keepsStatus h)
  exclusive _ _ := .inl (st_worked_of_keepsStatus h)
  carry hcarry := by
    cases hexecutes : machine.executes with
    | none =>
        rw [hexecutes] at hcarry
        exact absurd hcarry nofun
    | some instruction =>
        rw [hexecutes] at h hcarry
        exact absurd (hcarry.symm.trans (Instruction.clearsCarry_of_keepsStatus h)) nofun

theorem statusFrame_of_changesEnable {instruction : Instruction}
    (hexecutes : machine.executes = some instruction) (h : instruction.changesEnable = true) :
    StatusFrame machine.executes machine.checked.cpu.st machine.worked.cpu.st := by
  have hdint (hdint : instruction = .dint) : machine.worked.cpu.st = 0 := by
    rw [worked_of_executes hexecutes, hdint]
    rfl
  rw [hexecutes]
  cases instruction with
  | eint | popSt | reti =>
      exact
        { kept := nofun
          enable := nofun
          exclusive := fun _ _ => .inr ⟨_, rfl, by simp [Instruction.LoadsStatus]⟩
          carry := nofun }
  | dint =>
      rw [hdint rfl]
      exact { kept := nofun, enable := nofun, exclusive := nofun, carry := nofun }
  | _ => exact absurd h nofun

theorem statusFrame_of_result {instruction : Instruction}
    (hexecutes : machine.executes = some instruction)
    (h : (instruction.keepsStatus || instruction.changesEnable) = false) :
    StatusFrame machine.executes machine.checked.cpu.st machine.worked.cpu.st := by
  have hresult := Exec.result_isSome (β := β) instruction
  rw [h] at hresult
  obtain ⟨find, hfind⟩ := Option.isSome_iff_exists.mp hresult
  obtain ⟨_, hworked, hfor⟩ := worked_of_result hexecutes hfind
  rw [hexecutes, hworked, Exec.st_finish]
  exact
    { kept := fun hkeeps => absurd ((Bool.or_eq_false_iff.mp h).1.symm.trans hkeeps) nofun
      enable := fun _ => hfor.follows.enable_eq
      exclusive := fun hnegative hzero => absurd ⟨hnegative, hzero⟩ hfor.exclusive
      carry := hfor.carry }

theorem statusFrame (machine : Machine β) :
    StatusFrame machine.executes machine.checked.cpu.st machine.worked.cpu.st := by
  cases hexecutes : machine.executes with
  | none =>
      rw [← hexecutes]
      exact statusFrame_of_keepsStatus (by rw [hexecutes]; rfl)
  | some instruction =>
      rw [← hexecutes]
      cases hkeeps : instruction.keepsStatus with
      | true => exact statusFrame_of_keepsStatus (by rw [hexecutes]; exact hkeeps)
      | false =>
          cases hchanges : instruction.changesEnable with
          | true => exact statusFrame_of_changesEnable hexecutes hchanges
          | false => exact statusFrame_of_result hexecutes (by rw [hkeeps, hchanges]; rfl)

end Machine

/-- Every instruction touches only its own status bits, and those that store their result, or a
byte that they move, leave sign and zero describing it. -/
theorem status_follows_stores (machine : Machine β) (limit : Nat) :
    let next := (Exec.iterate limit machine).2
    StatusFrame machine.executes machine.checked.cpu.st next.cpu.st ∧
    ∀ instruction ∈ machine.executes, instruction.describes = true →
      ∃ find ∈ Exec.result instruction,
        let (result, entry) := find machine.fetched.2
        machine.checked.Inspected entry ∧
        machine.worked = { (Exec.storeAll result.stores entry).2 with cpu.st := next.cpu.st } ∧
        ∃ store ∈ instruction.described result.stores, Status.Describes next.cpu.st store.2 := by
  intro next
  have hst : next.cpu.st = machine.worked.cpu.st := machine.st_iterate limit
  rw [hst]
  refine ⟨machine.statusFrame, fun instruction hexecutes hdescribes => ?_⟩
  have hresult := Exec.result_isSome (β := β) instruction
  rw [Instruction.keepsStatus_of_describes hdescribes] at hresult
  obtain ⟨find, hfind⟩ := Option.isSome_iff_exists.mp hresult
  obtain ⟨hentry, hworked, hfor⟩ := Machine.worked_of_result hexecutes hfind
  refine ⟨find, hfind, hentry, ?_, ?_⟩
  · rw [hworked, Exec.st_finish, Exec.finish, hfor.straight hdescribes]
    rfl
  · rw [hworked, Exec.st_finish]
    exact hfor.described hdescribes

end TmsCores.Tms7000
