import TmsCores.Proofs.RunLoop

namespace TmsCores.RunLoop

section

variable {σ : Type} (step : σ → Nat × σ)

/-- Some steps one after the other.  Returns the cycles that they take together. -/
def steps : Nat → σ → Nat × σ
  | 0, state => (0, state)
  | count + 1, state =>
      let (cycles, state) := step state
      let (more, state) := steps count state
      (cycles + more, state)

/-- Every budget is served by as few steps as reach it, each from where the one before has
stopped. -/
inductive Serves : List UInt32 → σ → List Nat → σ → Prop
  | done {state : σ} : Serves [] state [] state
  | run {budget : UInt32} {budgets : List UInt32} {state final : σ} {counts : List Nat}
      (count : Nat)
      (henough : budget.toNat ≤ min (steps step count state).1 cycleCap)
      (hleast : ∀ fewer < count, min (steps step fewer state).1 cycleCap < budget.toNat)
      (hrest : Serves budgets (steps step count state).2 counts final) :
      Serves (budget :: budgets) state (min (steps step count state).1 cycleCap :: counts) final

end

variable {σ : Type} {step : σ → Nat × σ} {I : σ → Prop}

theorem steps_keeps (hstep : ∀ state, I state → I (step state).2) {state : σ} (hstate : I state)
    (count : Nat) : I (steps step count state).2 := by
  induction count generalizing state with
  | zero => exact hstate
  | succ count ih => exact ih (hstep state hstate)

/-- A loop over steps that take time takes as few of them as reach the budget. -/
theorem loop_eq_steps (hstep : ∀ state, I state → 0 < (step state).1 ∧ I (step state).2)
    {budget : Nat} (hbudget : budget ≤ cycleCap) (consumed : Nat) (hconsumed : consumed ≤ cycleCap)
    {state : σ} (hstate : I state) :
    ∃ count, I (steps step count state).2 ∧
      loop ⟨fun _ => step, budget⟩ consumed state =
        some (min (consumed + (steps step count state).1) cycleCap, (steps step count state).2) ∧
      budget ≤ min (consumed + (steps step count state).1) cycleCap ∧
      ∀ fewer < count, min (consumed + (steps step fewer state).1) cycleCap < budget := by
  by_cases hopen : consumed < budget
  · obtain ⟨htime, hnext⟩ := hstep state hstate
    have hless : budget - min (consumed + (step state).1) cycleCap < budget - consumed := by
      omega
    obtain ⟨count, hfinal, hloop, henough, hleast⟩ :=
      loop_eq_steps hstep hbudget (min (consumed + (step state).1) cycleCap)
        (Nat.min_le_right _ _) hnext
    have hsum (count : Nat) :
        min (min (consumed + (step state).1) cycleCap + (steps step count (step state).2).1)
            cycleCap =
          min (consumed + (steps step (count + 1) state).1) cycleCap := by
      rw [steps]
      dsimp only
      omega
    rw [hsum] at hloop henough
    refine ⟨count + 1, hfinal, ?_, henough, fun fewer hfewer => ?_⟩
    · rw [loop_of_lt hopen]
      exact hloop
    · cases fewer with
      -- No step at all leaves the sum where the loop is still open.
      | zero =>
          rw [steps]
          omega
      | succ fewer =>
          rw [← hsum]
          exact hleast fewer (Nat.lt_of_succ_lt_succ hfewer)
  · have hzero : min (consumed + (steps step 0 state).1) cycleCap = consumed :=
      Nat.min_eq_left hconsumed
    refine ⟨0, hstate, ?_, ?_, nofun⟩
    · rw [loop_of_le (Nat.le_of_not_lt hopen), hzero]
      rfl
    · rw [hzero]
      exact Nat.le_of_not_lt hopen
termination_by budget - consumed

theorem exists_serves (hstep : ∀ state, I state → 0 < (step state).1 ∧ I (step state).2)
    (budgets : List UInt32) {state : σ} (hstate : I state) :
    ∃ counts final, session (runSteps step) budgets state = some (counts, final) ∧
      Serves step budgets state counts final := by
  induction budgets generalizing state with
  | nil => exact ⟨[], state, rfl, .done⟩
  | cons budget budgets ih =>
      have hcap : budget.toNat ≤ cycleCap := Nat.le_of_lt_succ budget.toNat_lt
      obtain ⟨count, hnext, hrun, henough, hleast⟩ :=
        loop_eq_steps hstep hcap 0 (Nat.zero_le _) hstate
      simp only [Nat.zero_add] at hrun henough hleast
      obtain ⟨counts, final, hsession, hserves⟩ := ih hnext
      refine ⟨_, final, ?_, .run count henough hleast hserves⟩
      rw [session, runSteps, run, hrun, Option.bind_eq_bind, Option.bind_some]
      dsimp only
      rw [hsession]
      rfl

/-- Where a run begins an iteration: the cycles consumed until then, and the state. -/
inductive Begins (iterate : Nat → σ → Nat × σ) (budget : Nat) (start : σ) : Nat → σ → Prop
  | first (hopen : 0 < budget) : Begins iterate budget start 0 start
  | next {consumed : Nat} {state : σ} (h : Begins iterate budget start consumed state)
      (hopen : min (consumed + (iterate (budget - consumed) state).1) cycleCap < budget) :
      Begins iterate budget start
        (min (consumed + (iterate (budget - consumed) state).1) cycleCap)
        (iterate (budget - consumed) state).2

namespace Begins

variable {iterate other : Nat → σ → Nat × σ} {budget consumed : Nat} {start state : σ}

theorem consumed_lt (h : Begins iterate budget start consumed state) : consumed < budget := by
  cases h with
  | first hopen => exact hopen
  | next _ hopen => exact hopen

theorem keeps (hkeeps : ∀ limit state, I state → I (iterate limit state).2) (hstart : I start)
    (h : Begins iterate budget start consumed state) : I state := by
  induction h with
  | first => exact hstart
  | next _ _ ih => exact hkeeps _ _ ih

theorem loop_eq (h : Begins iterate budget start consumed state) :
    loop ⟨iterate, budget⟩ 0 start = loop ⟨iterate, budget⟩ consumed state := by
  induction h with
  | first => rfl
  | next h _ ih => rw [ih, loop_of_lt h.consumed_lt]

theorem eq_first (hdone : budget ≤ (iterate budget start).1) (hcap : budget ≤ cycleCap)
    (h : Begins iterate budget start consumed state) : consumed = 0 ∧ state = start := by
  induction h with
  | first => exact ⟨rfl, rfl⟩
  | next _ hopen ih =>
      obtain ⟨rfl, rfl⟩ := ih
      rw [Nat.sub_zero] at hopen
      omega

theorem run_eq {budget : UInt32} (h : Begins iterate budget.toNat start consumed state)
    (hdone : budget.toNat ≤ consumed + (iterate (budget.toNat - consumed) state).1)
    (hlimit : (iterate (budget.toNat - consumed) state).1 ≤ budget.toNat - consumed) :
    run iterate budget start =
      some (budget.toNat, (iterate (budget.toNat - consumed) state).2) := by
  have hopen := h.consumed_lt
  have hcap : budget.toNat ≤ cycleCap := Nat.le_of_lt_succ budget.toNat_lt
  have hsum :
      min (consumed + (iterate (budget.toNat - consumed) state).1) cycleCap = budget.toNat := by
    omega
  rw [run, h.loop_eq, loop_of_lt hopen, hsum, loop_of_le (Nat.le_refl _)]

end Begins

/-- It is enough that iterations agree where one of the two runs begins them. -/
theorem run_eq_of_begins {iterate other : Nat → σ → Nat × σ} {budget : UInt32} {start : σ}
    (h : ∀ consumed state, Begins iterate budget.toNat start consumed state →
      iterate (budget.toNat - consumed) state = other (budget.toNat - consumed) state) :
    run iterate budget start = run other budget start := by
  let R (consumed : Nat) (s t : σ) : Prop :=
    s = t ∧ (consumed < budget.toNat → Begins iterate budget.toNat start consumed s)
  have hstart : R 0 start start := ⟨rfl, .first⟩
  have hstep (consumed : Nat) (s : σ) (hopen : consumed < budget.toNat)
      (hbegins : consumed < budget.toNat → Begins iterate budget.toNat start consumed s) :
      iterate (budget.toNat - consumed) s = other (budget.toNat - consumed) s ∧
        R (min (consumed + (iterate (budget.toNat - consumed) s).1) cycleCap)
          (iterate (budget.toNat - consumed) s).2 (other (budget.toNat - consumed) s).2 := by
    have hsame := h consumed s (hbegins hopen)
    exact ⟨hsame, congrArg Prod.snd hsame, (hbegins hopen).next⟩
  cases hrun : run iterate budget start with
  | some result =>
      obtain ⟨final, hfinal, rfl, -⟩ := loop_related_at (R := R)
        (by
          rintro consumed s _ hopen ⟨rfl, hbegins⟩
          obtain ⟨hsame, hnext⟩ := hstep consumed s hopen hbegins
          exact ⟨congrArg Prod.fst hsame, hnext⟩) hstart hrun
      exact hfinal.symm
  | none =>
      cases hother : run other budget start with
      | none => rfl
      | some result =>
          obtain ⟨final, hfinal, -⟩ := loop_related_at
            (R := fun consumed s t => R consumed t s)
            (by
              rintro consumed s _ hopen ⟨rfl, hbegins⟩
              obtain ⟨hsame, hnext⟩ := hstep consumed _ hopen hbegins
              exact ⟨congrArg Prod.fst hsame.symm, hsame ▸ hnext⟩) hstart hother
          exact absurd (hrun.symm.trans hfinal) nofun

end TmsCores.RunLoop
