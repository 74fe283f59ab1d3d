import TmsCores.Proofs.Correspondence
import TmsCores.Proofs.History
import TmsCores.RunLoop

namespace TmsCores.RunLoop

variable {σ τ : Type} {iterate : Nat → σ → Nat × σ} {budget : Nat}

theorem loop_of_le {consumed : Nat} {state : σ} (h : budget ≤ consumed) :
    loop ⟨iterate, budget⟩ consumed state = some (consumed, state) := by
  rw [loop, if_neg (Nat.not_lt.mpr h)]

theorem loop_of_lt {consumed : Nat} {state : σ} (h : consumed < budget) :
    loop ⟨iterate, budget⟩ consumed state =
      loop ⟨iterate, budget⟩
        (min (consumed + (iterate (budget - consumed) state).1) cycleCap)
        (iterate (budget - consumed) state).2 := by
  rw [loop, if_pos h]

theorem run_fst_of_two {budget : UInt32} {state : σ} {first second : Nat}
    (hfirst : (iterate budget.toNat state).1 = first) (hopen : first < budget.toNat)
    (hsecond : (iterate (budget.toNat - first) (iterate budget.toNat state).2).1 = second)
    (hdone : budget.toNat ≤ first + second) (hcap : first + second ≤ cycleCap) :
    (run iterate budget state).map Prod.fst = some (first + second) := by
  have hbudget : 0 < budget.toNat := Nat.zero_lt_of_lt hopen
  rw [run, loop_of_lt hbudget, Nat.sub_zero, hfirst, Nat.zero_add,
    Nat.min_eq_left (Nat.le_trans (Nat.le_add_right _ _) hcap), loop_of_lt hopen, hsecond,
    Nat.min_eq_left hcap, loop_of_le hdone]
  rfl

/-- Loops over iterations that correspond at every position end together, with the same count. -/
theorem loop_related_at {other : Nat → τ → Nat × τ} {R : Nat → σ → τ → Prop}
    (hstep : ∀ consumed s t, consumed < budget → R consumed s t →
      (iterate (budget - consumed) s).1 = (other (budget - consumed) t).1 ∧
        R (min (consumed + (iterate (budget - consumed) s).1) cycleCap)
          (iterate (budget - consumed) s).2 (other (budget - consumed) t).2)
    {consumed : Nat} {s : σ} {t : τ} (hst : R consumed s t) {total : Nat} {final : σ}
    (hloop : loop ⟨iterate, budget⟩ consumed s = some (total, final)) :
    ∃ final', loop ⟨other, budget⟩ consumed t = some (total, final') ∧ R total final final' := by
  refine loop.partial_correctness ⟨iterate, budget⟩
    (fun consumed s result => ∀ t, R consumed s t →
      ∃ final', loop ⟨other, budget⟩ consumed t = some (result.1, final') ∧
        R result.1 result.2 final')
    ?_ consumed s (total, final) hloop t hst
  intro shorter ih consumed s result hresult t hst
  by_cases hopen : consumed < budget
  · obtain ⟨hcount, hnext⟩ := hstep consumed s t hopen hst
    rw [if_pos hopen] at hresult
    obtain ⟨final', hfinal, hrel⟩ := ih _ _ _ hresult _ hnext
    refine ⟨final', ?_, hrel⟩
    rw [loop_of_lt hopen, ← hcount]
    exact hfinal
  · rw [if_neg hopen, Option.some.injEq] at hresult
    subst hresult
    exact ⟨t, loop_of_le (Nat.le_of_not_lt hopen), hst⟩

theorem loop_related {other : Nat → τ → Nat × τ} {R : σ → τ → Prop}
    (hstep : ∀ limit s t, R s t →
      (iterate limit s).1 = (other limit t).1 ∧ R (iterate limit s).2 (other limit t).2)
    {consumed : Nat} {s : σ} {t : τ} (hst : R s t) {total : Nat} {final : σ}
    (hloop : loop ⟨iterate, budget⟩ consumed s = some (total, final)) :
    ∃ final', loop ⟨other, budget⟩ consumed t = some (total, final') ∧ R final final' :=
  loop_related_at (R := fun _ => R) (fun consumed s t _ hst => hstep (budget - consumed) s t hst)
    hst hloop

theorem run_sameOutcome {other : Nat → τ → Nat × τ} {R : σ → τ → Prop}
    (hstep : ∀ limit, Corresponds R (iterate limit) (other limit)) (budget : UInt32) {s : σ}
    {t : τ} (hst : R s t) : SameOutcome R (run iterate budget s) (run other budget t) := by
  refine .of_forall_some ?_ ?_
  · intro total final hrun
    exact loop_related hstep hst hrun
  · intro total final hrun
    have hback : ∀ limit t s, R s t →
        (other limit t).1 = (iterate limit s).1 ∧ R (iterate limit s).2 (other limit t).2 :=
      fun limit t s hst => ⟨(hstep limit s t hst).1.symm, (hstep limit s t hst).2⟩
    obtain ⟨final', hrun', _⟩ := loop_related (R := fun t s => R s t) hback hst hrun
    exact ⟨final', hrun'⟩

theorem loop_eq_none {I : σ → Prop}
    (hfree : ∀ limit s, I s → (iterate limit s).1 = 0 ∧ I (iterate limit s).2) {consumed : Nat}
    {state : σ} (hstate : I state) (hopen : consumed < budget) (hcap : budget ≤ cycleCap) :
    loop ⟨iterate, budget⟩ consumed state = none := by
  have hnever : ∀ result, loop ⟨iterate, budget⟩ consumed state = some result → False := by
    intro result hloop
    refine loop.partial_correctness ⟨iterate, budget⟩
      (fun consumed state _ => I state → consumed < budget → False)
      ?_ consumed state result hloop hstate hopen
    intro shorter ih consumed state result hresult hstate hopen
    obtain ⟨hcost, hnext⟩ := hfree (budget - consumed) state hstate
    rw [if_pos hopen] at hresult
    refine ih _ _ _ hresult hnext ?_
    change min (consumed + (iterate (budget - consumed) state).1) cycleCap < budget
    omega
  cases hloop : loop ⟨iterate, budget⟩ consumed state with
  | none => rfl
  | some result => exact absurd (hnever result hloop) id

theorem loop_keeps {I : σ → Prop} (hstep : ∀ limit s, I s → I (iterate limit s).2)
    {consumed : Nat} {state : σ} (hstate : I state) {total : Nat} {final : σ}
    (hloop : loop ⟨iterate, budget⟩ consumed state = some (total, final)) : I final := by
  have hself : ∀ limit s t, s = t ∧ I s →
      (iterate limit s).1 = (iterate limit t).1 ∧
        (iterate limit s).2 = (iterate limit t).2 ∧ I (iterate limit s).2 := by
    rintro limit s _ ⟨rfl, hs⟩
    exact ⟨rfl, rfl, hstep limit s hs⟩
  obtain ⟨_, _, hfinal⟩ := loop_related (R := fun s t => s = t ∧ I s) hself ⟨rfl, hstate⟩ hloop
  exact hfinal.2

/-- The iterations of a loop, each given by the number of cycles that it is told are left. -/
inductive Unrolls (iterate : Nat → σ → Nat × σ) (budget : Nat) : Nat → σ → List Nat → Prop
  | stop {consumed : Nat} {state : σ} (hdone : budget ≤ consumed) :
      Unrolls iterate budget consumed state []
  | next {consumed : Nat} {state : σ} {limits : List Nat} (hopen : consumed < budget)
      (hrest : Unrolls iterate budget
        (min (consumed + (iterate (budget - consumed) state).1) cycleCap)
        (iterate (budget - consumed) state).2 limits) :
      Unrolls iterate budget consumed state ((budget - consumed) :: limits)

/-- A loop that ends is the sequence of its iterations.  Its count is their sum up to the cap. -/
theorem loop_unrolls {consumed : Nat} {state : σ} {total : Nat} {final : σ}
    (hloop : loop ⟨iterate, budget⟩ consumed state = some (total, final))
    (hcap : consumed ≤ cycleCap) :
    ∃ limits, Unrolls iterate budget consumed state limits ∧
      total = min (consumed + (History.play iterate limits state).1) cycleCap ∧
      final = (History.play iterate limits state).2 := by
  refine loop.partial_correctness ⟨iterate, budget⟩
    (fun consumed state result => consumed ≤ cycleCap →
      ∃ limits, Unrolls iterate budget consumed state limits ∧
        result.1 = min (consumed + (History.play iterate limits state).1) cycleCap ∧
        result.2 = (History.play iterate limits state).2)
    ?_ consumed state (total, final) hloop hcap
  intro shorter ih consumed state result hresult hcap
  by_cases hopen : consumed < budget
  · rw [if_pos hopen] at hresult
    obtain ⟨limits, hunrolls, hcount, hfinal⟩ := ih _ _ _ hresult (Nat.min_le_right _ _)
    refine ⟨(budget - consumed) :: limits, .next hopen hunrolls, ?_, hfinal⟩
    rw [hcount, History.play]
    dsimp only
    omega
  · rw [if_neg hopen, Option.some.injEq] at hresult
    subst hresult
    refine ⟨[], .stop (Nat.le_of_not_lt hopen), ?_, rfl⟩
    rw [History.play]
    exact (Nat.min_eq_left hcap).symm

theorem run_unrolls {Register β : Type} {take : Turn Register β → σ → Nat × σ}
    (htake : (fun limit => take (.iterate limit)) = iterate) {budget : UInt32} {state next : σ}
    {count : Nat} (h : run iterate budget state = some (count, next)) :
    ∃ limits, Unrolls iterate budget.toNat 0 state limits ∧
      count = min (History.play take (limits.map .iterate) state).1 cycleCap ∧
      next = (History.play take (limits.map .iterate) state).2 := by
  obtain ⟨limits, hunrolls, hcount, hnext⟩ := loop_unrolls h (Nat.zero_le _)
  rw [Nat.zero_add] at hcount
  refine ⟨limits, hunrolls, ?_⟩
  rw [History.play_map, htake]
  exact ⟨hcount, hnext⟩

/-- Iterations that take time, and that a limit cuts in two at most: what an iteration with a
limit leaves undone, the next one does. -/
structure Divisible (iterate : Nat → σ → Nat × σ) (I : σ → Prop) : Prop where
  keeps : ∀ limit state, I state → I (iterate limit state).2
  progress : ∀ limit state, I state → 0 < limit → 0 < (iterate limit state).1
  cut : ∀ limit longer state, I state → 0 < limit → limit < longer →
    iterate longer state = iterate limit state ∨
      (iterate limit state).1 = limit ∧
        iterate longer state =
          (limit + (iterate (longer - limit) (iterate limit state).2).1,
            (iterate (longer - limit) (iterate limit state).2).2)

namespace Divisible

variable {I : σ → Prop}

theorem loop_ends (h : Divisible iterate I) {budget : Nat} (hcap : budget ≤ cycleCap)
    (consumed : Nat) {state : σ} (hstate : I state) :
    ∃ total final, loop ⟨iterate, budget⟩ consumed state = some (total, final) ∧
      budget ≤ total := by
  by_cases hopen : consumed < budget
  · have htime := h.progress (budget - consumed) state hstate (Nat.sub_pos_of_lt hopen)
    have hless : budget -
        min (consumed + (iterate (budget - consumed) state).1) cycleCap < budget - consumed := by
      omega
    rw [loop_of_lt hopen]
    exact loop_ends h hcap _ (h.keeps _ _ hstate)
  · exact ⟨consumed, state, loop_of_le (Nat.le_of_not_lt hopen), Nat.le_of_not_lt hopen⟩
termination_by budget - consumed

/-- A loop goes on from where a loop with a smaller budget has stopped. -/
theorem loop_resume (h : Divisible iterate I) {longer : Nat} (hlonger : budget ≤ longer)
    (hcap : longer ≤ cycleCap) {consumed : Nat} {state : σ} (hstate : I state) {reached : Nat}
    {middle : σ}
    (hloop : loop ⟨iterate, budget⟩ consumed state = some (reached, middle)) :
    loop ⟨iterate, longer⟩ consumed state = loop ⟨iterate, longer⟩ reached middle := by
  by_cases hopen : consumed < budget
  · have htime := h.progress (budget - consumed) state hstate (Nat.sub_pos_of_lt hopen)
    have hless : budget -
        min (consumed + (iterate (budget - consumed) state).1) cycleCap < budget - consumed := by
      omega
    rw [loop_of_lt hopen] at hloop
    have hrest := loop_resume h hlonger hcap (h.keeps (budget - consumed) state hstate) hloop
    rw [← hrest, loop_of_lt (Nat.lt_of_lt_of_le hopen hlonger)]
    rcases Nat.eq_or_lt_of_le hlonger with rfl | hlt
    · rfl
    -- Only the last iteration of the shorter loop can be one that the longer one goes on with.
    · rcases h.cut (budget - consumed) (longer - consumed) state hstate (by omega) (by omega) with
        hsame | ⟨hlimit, hcut⟩
      · rw [hsame]
      · have hbudget :
            min (consumed + (iterate (budget - consumed) state).1) cycleCap = budget := by
          omega
        have hleft : longer - consumed - (budget - consumed) = longer - budget := by
          omega
        rw [hbudget, loop_of_lt hlt, hcut, hleft]
        dsimp only
        congr 2
        omega
  · rw [loop_of_le (Nat.le_of_not_lt hopen), Option.some.injEq, Prod.mk.injEq] at hloop
    obtain ⟨rfl, rfl⟩ := hloop
    rfl
termination_by budget - consumed

theorem loop_shift (h : Divisible iterate I) {before budget : Nat}
    (hcap : before + budget ≤ cycleCap) (consumed : Nat) {state : σ} (hstate : I state) :
    loop ⟨iterate, before + budget⟩ (min (before + consumed) cycleCap) state =
      (loop ⟨iterate, budget⟩ consumed state).map
        fun (total, final) => (min (before + total) cycleCap, final) := by
  by_cases hopen : consumed < budget
  · have htime := h.progress (budget - consumed) state hstate (Nat.sub_pos_of_lt hopen)
    have hless : budget -
        min (consumed + (iterate (budget - consumed) state).1) cycleCap < budget - consumed := by
      omega
    have hleft : before + budget - min (before + consumed) cycleCap = budget - consumed := by
      omega
    have hsum : min (min (before + consumed) cycleCap +
          (iterate (budget - consumed) state).1) cycleCap =
        min (before + min (consumed + (iterate (budget - consumed) state).1) cycleCap)
          cycleCap := by
      omega
    rw [loop_of_lt hopen, loop_of_lt (by omega), hleft, hsum]
    exact loop_shift h hcap _ (h.keeps _ _ hstate)
  · rw [loop_of_le (Nat.le_of_not_lt hopen), loop_of_le (by omega)]
    rfl
termination_by budget - consumed

/-- A run is the same in one piece as in two.  When a run with a smaller budget goes beyond the
larger one, both are the same run. -/
theorem run_slice (h : Divisible iterate I) {first budget : UInt32} (hfirst : first ≤ budget)
    {state : σ} (hstate : I state) :
    ∃ reached middle, run iterate first state = some (reached, middle) ∧ I middle ∧
      (budget.toNat ≤ reached → run iterate budget state = some (reached, middle)) ∧
      (reached < budget.toNat → ∃ more final,
        run iterate (budget - UInt32.ofNat reached) middle = some (more, final) ∧
          run iterate budget state = some (min (reached + more) cycleCap, final)) := by
  have hcap : budget.toNat ≤ cycleCap := Nat.le_of_lt_succ budget.toNat_lt
  have hle : first.toNat ≤ budget.toNat := UInt32.le_iff_toNat_le.mp hfirst
  obtain ⟨reached, middle, hrun, _⟩ :=
    h.loop_ends (Nat.le_trans hle hcap) 0 hstate
  have hmiddle : I middle := loop_keeps h.keeps hstate hrun
  have hresume : run iterate budget state = loop ⟨iterate, budget.toNat⟩ reached middle :=
    h.loop_resume hle hcap hstate hrun
  refine ⟨reached, middle, hrun, hmiddle, ?_, ?_⟩
  · intro hdone
    rw [hresume, loop_of_le hdone]
  · intro hopen
    have hofNat : (UInt32.ofNat reached).toNat = reached := by
      rw [UInt32.toNat_ofNat', Nat.mod_eq_of_lt (Nat.lt_trans hopen budget.toNat_lt)]
    have hrest : (budget - UInt32.ofNat reached).toNat = budget.toNat - reached := by
      rw [UInt32.toNat_sub_of_le _ _ (by rw [UInt32.le_iff_toNat_le]; omega), hofNat]
    have hleft : budget.toNat - reached ≤ cycleCap := by
      omega
    have htotal : reached + (budget.toNat - reached) ≤ cycleCap := by
      omega
    obtain ⟨more, final, hmore, _⟩ := h.loop_ends hleft 0 hmiddle
    refine ⟨more, final, ?_, ?_⟩
    · rw [run, hrest]
      exact hmore
    · have hshift := h.loop_shift htotal 0 hmiddle
      rw [Nat.add_sub_cancel' (by omega), hmore] at hshift
      have hstart : min (reached + 0) cycleCap = reached := by
        omega
      rw [hresume, ← hstart, hshift, hstart]
      rfl

end Divisible

/-- Iterations that do nothing in some states but let time pass, in quanta that the limit cuts
short, and that take no notice of the limit in other states. -/
structure Quantised (iterate : Nat → σ → Nat × σ) (I resting : σ → Prop) (quantum : σ → Nat)
    (pass : Nat → σ → σ) : Prop where
  keeps : ∀ limit state, I state → I (iterate limit state).2
  rest : ∀ limit state, I state → resting state →
    iterate limit state =
      (max 1 (min (quantum state) limit), pass (max 1 (min (quantum state) limit)) state)
  resume : ∀ first state, I state → resting state → first < quantum state →
    resting (pass first state) ∧ quantum (pass first state) = quantum state - first ∧
      ∀ second, pass second (pass first state) = pass (first + second) state
  work : ∀ limit state, I state → ¬resting state → 0 < (iterate limit state).1
  unlimited : ∀ limit other state, I state → ¬resting state →
    iterate limit state = iterate other state

theorem Quantised.divisible {I resting : σ → Prop} {quantum : σ → Nat} {pass : Nat → σ → σ}
    (h : Quantised iterate I resting quantum pass) : Divisible iterate I where
  keeps := h.keeps
  progress limit state hstate _ := by
    by_cases hresting : resting state
    · rw [h.rest limit state hstate hresting]
      exact Nat.le_max_left 1 _
    · exact h.work limit state hstate hresting
  cut limit longer state hstate hlimit hlonger := by
    by_cases hresting : resting state
    · have hnow := h.rest limit state hstate hresting
      have hlong := h.rest longer state hstate hresting
      rcases Nat.lt_or_ge limit (quantum state) with hcut | hwhole
      · have hless : max 1 (min (quantum state) limit) = limit := by
          omega
        rw [hless] at hnow
        obtain ⟨hrest, hquantum, hpass⟩ := h.resume limit state hstate hresting hcut
        have hnext : I (pass limit state) := by
          have hkept := h.keeps limit state hstate
          rw [hnow] at hkept
          exact hkept
        have hsum : max 1 (min (quantum state) longer) =
            limit + max 1 (min (quantum state - limit) (longer - limit)) := by
          omega
        right
        rw [hnow]
        refine ⟨rfl, ?_⟩
        rw [hlong, h.rest _ _ hnext hrest, hquantum, hpass, hsum]
      · left
        rw [hnow, hlong, Nat.min_eq_left hwhole,
          Nat.min_eq_left (Nat.le_trans hwhole (Nat.le_of_lt hlonger))]
    · left
      exact h.unlimited longer limit state hstate hresting

end TmsCores.RunLoop
