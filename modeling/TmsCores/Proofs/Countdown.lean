import Mathlib.Algebra.GroupWithZero.Nat
import TmsCores.Proofs.Stepping

namespace TmsCores.RunLoop

variable {σ : Type}

/-- Iterations that rest until a clock has ticked often enough.  It ticks every `divisor` cycles,
which end the iteration. -/
structure Countdown (iterate : Nat → σ → Nat × σ) (rests due : σ → Prop) (divisor : Nat)
    (untilNext remaining : σ → Nat) : Prop where
  untilNext_pos : ∀ state, rests state → 0 < untilNext state
  between : ∀ limit state, rests state → 0 < limit → limit < untilNext state →
    (iterate limit state).1 = limit ∧ rests (iterate limit state).2 ∧
      untilNext (iterate limit state).2 = untilNext state - limit ∧
      remaining (iterate limit state).2 = remaining state
  tick : ∀ limit state, rests state → untilNext state ≤ limit → 1 < remaining state →
    (iterate limit state).1 = untilNext state ∧ rests (iterate limit state).2 ∧
      untilNext (iterate limit state).2 = divisor ∧
      remaining (iterate limit state).2 = remaining state - 1
  last : ∀ limit state, rests state → untilNext state ≤ limit → remaining state ≤ 1 →
    (iterate limit state).1 = untilNext state ∧ due (iterate limit state).2

/-- The iterations rest for `total` cycles and then come to a state that is due: step by step, and
in runs with any budgets, of which one may reach beyond that state. -/
structure ComesDue (iterate : Nat → σ → Nat × σ) (rests due : σ → Prop) (total : Nat)
    (start : σ) : Prop where
  by_steps : ∃ count, (steps (iterate cycleCap) count start).1 = total ∧
    (∀ fewer < count, rests (steps (iterate cycleCap) fewer start).2) ∧
    due (steps (iterate cycleCap) count start).2
  by_runs : ∀ budgets : List UInt32, (budgets.map (·.toNat)).sum ≤ total →
    ∃ middle, session (run iterate) budgets start = some (budgets.map (·.toNat), middle) ∧
      ∀ budget : UInt32, total - (budgets.map (·.toNat)).sum < budget.toNat →
        (∃ last, Begins iterate budget.toNat middle (total - (budgets.map (·.toNat)).sum) last ∧
          due last) ∧
        ∀ consumed state, Begins iterate budget.toNat middle consumed state →
          consumed < total - (budgets.map (·.toNat)).sum → rests state

theorem ComesDue.imp {iterate : Nat → σ → Nat × σ} {rests rests' due : σ → Prop} {total : Nat}
    {start : σ} (h : ComesDue iterate rests due total start)
    (himp : ∀ state, rests state → rests' state) : ComesDue iterate rests' due total start := by
  constructor
  · obtain ⟨count, hsum, hrests, hdue⟩ := h.by_steps
    exact ⟨count, hsum, fun fewer hfewer => himp _ (hrests fewer hfewer), hdue⟩
  · intro budgets hbudgets
    obtain ⟨middle, hsession, hbeyond⟩ := h.by_runs budgets hbudgets
    refine ⟨middle, hsession, fun budget hbudget => ?_⟩
    obtain ⟨hdue, hrests⟩ := hbeyond budget hbudget
    exact ⟨hdue, fun consumed state hbegins hearly => himp _ (hrests consumed state hbegins hearly)⟩

namespace Countdown

variable {iterate : Nat → σ → Nat × σ} {rests due : σ → Prop} {divisor : Nat}
  {untilNext remaining : σ → Nat} {left limit : Nat} {state : σ}

/-- The state is due after `left` more cycles. -/
def Left (rests due : σ → Prop) (divisor : Nat) (untilNext remaining : σ → Nat) (left : Nat)
    (state : σ) : Prop :=
  left = 0 ∧ due state ∨
    rests state ∧ left = untilNext state + (remaining state - 1) * divisor

variable (h : Countdown iterate rests due divisor untilNext remaining)

include h

theorem due_of_left (hstate : Left rests due divisor untilNext remaining 0 state) : due state := by
  rcases hstate with ⟨-, hdue⟩ | ⟨hrests, hleft⟩
  · exact hdue
  · have hpos := h.untilNext_pos state hrests
    omega

/-- An iteration rests, for no longer than it is allowed to and than is left. -/
theorem advance (hstate : Left rests due divisor untilNext remaining left state) (hleft : 0 < left)
    (hlimit : 0 < limit) :
    rests state ∧ 0 < (iterate limit state).1 ∧ (iterate limit state).1 ≤ limit ∧
      (iterate limit state).1 ≤ left ∧
      Left rests due divisor untilNext remaining (left - (iterate limit state).1)
        (iterate limit state).2 := by
  rcases hstate with ⟨hzero, -⟩ | ⟨hrests, rfl⟩
  · omega
  have hpos := h.untilNext_pos state hrests
  refine ⟨hrests, ?_⟩
  rcases Nat.lt_or_ge limit (untilNext state) with hbetween | htick
  · obtain ⟨hcost, hnext, huntil, hremaining⟩ := h.between limit state hrests hlimit hbetween
    refine ⟨by omega, by omega, by omega, .inr ⟨hnext, ?_⟩⟩
    rw [hcost, huntil, hremaining]
    omega
  · rcases Nat.lt_or_ge 1 (remaining state) with hmore | hlast
    · obtain ⟨hcost, hnext, huntil, hremaining⟩ := h.tick limit state hrests htick hmore
      refine ⟨by omega, by omega, by omega, .inr ⟨hnext, ?_⟩⟩
      obtain ⟨more, hmore⟩ : ∃ more, remaining state = more + 2 :=
        ⟨remaining state - 2, by omega⟩
      have hticks : (more + 1) * divisor = divisor + more * divisor := by
        rw [Nat.succ_mul, Nat.add_comm]
      rw [hcost, huntil, hremaining, hmore, Nat.add_sub_cancel_left]
      exact hticks
    · obtain ⟨hcost, hdue⟩ := h.last limit state hrests htick hlast
      have hnone : remaining state - 1 = 0 := by omega
      rw [hnone, Nat.zero_mul, Nat.add_zero, hcost, Nat.sub_self]
      exact ⟨hpos, htick, Nat.le_refl _, .inl ⟨rfl, hdue⟩⟩

theorem exists_steps (hstate : Left rests due divisor untilNext remaining left state) :
    ∃ count, (steps (iterate cycleCap) count state).1 = left ∧
      (∀ fewer < count, rests (steps (iterate cycleCap) fewer state).2) ∧
      due (steps (iterate cycleCap) count state).2 := by
  induction left using Nat.strongRecOn generalizing state with
  | ind left ih =>
      rcases Nat.eq_zero_or_pos left with rfl | hleft
      · exact ⟨0, rfl, nofun, h.due_of_left hstate⟩
      · obtain ⟨hrests, hpos, -, hle, hnext⟩ := h.advance hstate hleft (by decide : 0 < cycleCap)
        obtain ⟨count, hsum, hresting, hdue⟩ := ih _ (by omega) hnext
        refine ⟨count + 1, ?_, fun fewer hfewer => ?_, hdue⟩
        · rw [steps]
          dsimp only
          omega
        · cases fewer with
          | zero => exact hrests
          | succ fewer => exact hresting fewer (Nat.lt_of_succ_lt_succ hfewer)

theorem loop_eq {budget : Nat} (hcap : budget ≤ cycleCap) (consumed : Nat)
    (hconsumed : consumed ≤ budget) {left : Nat} (hbudget : budget - consumed ≤ left) {state : σ}
    (hstate : Left rests due divisor untilNext remaining left state) :
    ∃ final, loop ⟨iterate, budget⟩ consumed state = some (budget, final) ∧
      Left rests due divisor untilNext remaining (left - (budget - consumed)) final := by
  rcases Nat.eq_or_lt_of_le hconsumed with rfl | hopen
  · refine ⟨state, loop_of_le (Nat.le_refl _), ?_⟩
    rw [Nat.sub_self]
    exact hstate
  · obtain ⟨-, hpos, hlimit, hle, hnext⟩ :=
      h.advance hstate (by omega) (Nat.sub_pos_of_lt hopen)
    have hsum : min (consumed + (iterate (budget - consumed) state).1) cycleCap =
        consumed + (iterate (budget - consumed) state).1 := by
      omega
    obtain ⟨final, hloop, hfinal⟩ := loop_eq hcap
      (consumed + (iterate (budget - consumed) state).1) (by omega) (by omega) hnext
    refine ⟨final, ?_, ?_⟩
    · rw [loop_of_lt hopen, hsum, hloop]
    · have hleft : left - (iterate (budget - consumed) state).1 -
          (budget - (consumed + (iterate (budget - consumed) state).1)) =
            left - (budget - consumed) := by
        omega
      rwa [hleft] at hfinal
termination_by budget - consumed

theorem exists_session (budgets : List UInt32) (hbudgets : (budgets.map (·.toNat)).sum ≤ left)
    (hstate : Left rests due divisor untilNext remaining left state) :
    ∃ final, session (run iterate) budgets state = some (budgets.map (·.toNat), final) ∧
      Left rests due divisor untilNext remaining (left - (budgets.map (·.toNat)).sum) final := by
  induction budgets generalizing left state with
  | nil => exact ⟨state, rfl, hstate⟩
  | cons budget budgets ih =>
      rw [List.map_cons, List.sum_cons] at hbudgets ⊢
      obtain ⟨middle, hrun, hmiddle⟩ := h.loop_eq (Nat.le_of_lt_succ budget.toNat_lt) 0
        (Nat.zero_le _) (by omega) hstate
      rw [Nat.sub_zero] at hmiddle
      obtain ⟨final, hsession, hfinal⟩ := ih (by omega) hmiddle
      refine ⟨final, ?_, ?_⟩
      · rw [session, run, hrun, Option.bind_eq_bind, Option.bind_some]
        dsimp only
        rw [hsession]
        rfl
      · rwa [Nat.sub_add_eq]

variable {budget consumed : Nat} {start : σ}

/-- A run with more to go than is left gets to where the state is due. -/
theorem begins_due (hcap : budget ≤ cycleCap)
    (hbegins : Begins iterate budget start consumed state)
    (hstate : Left rests due divisor untilNext remaining left state)
    (hleft : consumed + left < budget) :
    ∃ last, Begins iterate budget start (consumed + left) last ∧ due last := by
  -- An iteration may take any part of what is left, hence the strong induction.
  induction left using Nat.strongRecOn generalizing consumed state with
  | ind left ih =>
      rcases Nat.eq_zero_or_pos left with rfl | hpositive
      · exact ⟨state, hbegins, h.due_of_left hstate⟩
      · obtain ⟨-, hpos, -, hle, hnext⟩ :=
          h.advance hstate hpositive (Nat.sub_pos_of_lt hbegins.consumed_lt)
        have hsum : min (consumed + (iterate (budget - consumed) state).1) cycleCap =
            consumed + (iterate (budget - consumed) state).1 := by
          omega
        have hnow := hbegins.next (by omega)
        rw [hsum] at hnow
        obtain ⟨last, hlast, hdue⟩ := ih _ (by omega) hnow hnext (by omega)
        have htotal : consumed + (iterate (budget - consumed) state).1 +
            (left - (iterate (budget - consumed) state).1) = consumed + left := by
          omega
        exact ⟨last, htotal ▸ hlast, hdue⟩

theorem left_of_begins (hcap : budget ≤ cycleCap)
    (hstart : Left rests due divisor untilNext remaining left start)
    (hbegins : Begins iterate budget start consumed state) (hconsumed : consumed < left) :
    Left rests due divisor untilNext remaining (left - consumed) state := by
  induction hbegins with
  | first => exact hstart
  | next hearlier hopen ih =>
      next consumed state =>
      have hsum : min (consumed + (iterate (budget - consumed) state).1) cycleCap =
          consumed + (iterate (budget - consumed) state).1 := by
        omega
      rw [hsum] at hconsumed ⊢
      obtain ⟨-, -, -, -, hnext⟩ := h.advance (ih (by omega)) (by omega)
        (Nat.sub_pos_of_lt hearlier.consumed_lt)
      rwa [← Nat.sub_add_eq] at hnext

theorem comesDue (hrests : rests start) :
    ComesDue iterate rests due (untilNext start + (remaining start - 1) * divisor) start := by
  have hcap (budget : UInt32) : budget.toNat ≤ cycleCap := Nat.le_of_lt_succ budget.toNat_lt
  have hstart : Left rests due divisor untilNext remaining
      (untilNext start + (remaining start - 1) * divisor) start := .inr ⟨hrests, rfl⟩
  refine ⟨h.exists_steps hstart, fun budgets hbudgets => ?_⟩
  obtain ⟨middle, hsession, hmiddle⟩ := h.exists_session budgets hbudgets hstart
  refine ⟨middle, hsession, fun budget hbudget => ⟨?_, fun consumed state hbegins hearly => ?_⟩⟩
  · have hdue := h.begins_due (hcap budget) (.first (Nat.zero_lt_of_lt hbudget)) hmiddle (by omega)
    rwa [Nat.zero_add] at hdue
  · have hstate := h.left_of_begins (hcap budget) hmiddle hbegins hearly
    exact (h.advance hstate (Nat.sub_pos_of_lt hearly) (by decide : 0 < 1)).1

end Countdown

end TmsCores.RunLoop
