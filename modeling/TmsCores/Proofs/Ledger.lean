import TmsCores.Proofs.Clock
import TmsCores.Proofs.History

namespace TmsCores.History

/-- The accounts of a machine that takes turns: each turn charges its cycles to a count and to a
divider, and passes on the ticks that come out of the divider. -/
structure Ledger {σ τ : Type} (take : τ → σ → Nat × σ) (cycles : σ → CycleCount)
    (divider : σ → TickDivider) (ticks : σ → Nat) (I : σ → Prop) : Prop where
  keeps : ∀ turn state, I state → I (take turn state).2
  cycles_eq : ∀ turn state, I state →
    cycles (take turn state).2 = (cycles state).advance (take turn state).1
  divider_eq : ∀ turn state, I state →
    divider (take turn state).2 = ((divider state).advance (take turn state).1).2
  ticks_eq : ∀ turn state, I state →
    ticks (take turn state).2 = ticks state + ((divider state).advance (take turn state).1).1

/-- The sum in the divider fits into its 32 bits all through a turn. -/
def Fits {σ τ : Type} (take : τ → σ → Nat × σ) (divider : σ → TickDivider) (turn : τ)
    (state : σ) : Prop :=
  (divider state).accumulated.toNat + (take turn state).1 < UInt32.size

instance {σ τ : Type} (take : τ → σ → Nat × σ) (divider : σ → TickDivider) (turn : τ) (state : σ) :
    Decidable (Fits take divider turn state) :=
  inferInstanceAs (Decidable (_ < _))

namespace Ledger

variable {σ τ : Type} {take : τ → σ → Nat × σ} {cycles : σ → CycleCount} {divider : σ → TickDivider}
  {ticks : σ → Nat} {I : σ → Prop} {turns : List τ} {state : σ}
  (h : Ledger take cycles divider ticks I)

include h

theorem cycles_play (turns : List τ) (hstate : I state) :
    cycles (play take turns state).2 = (cycles state).advance (play take turns state).1 := by
  induction turns generalizing state with
  | nil => exact (CycleCount.advance_zero _).symm
  | cons turn rest ih =>
      rw [play]
      dsimp only
      rw [ih (h.keeps turn state hstate), h.cycles_eq turn state hstate,
        CycleCount.advance_advance]

theorem divisor_play (turns : List τ) (hstate : I state) :
    (divider (play take turns state).2).divisor = (divider state).divisor := by
  have hstep : ∀ turn state', I state' ∧ (divider state').divisor = (divider state).divisor →
      I (take turn state').2 ∧
        (divider (take turn state').2).divisor = (divider state).divisor := by
    rintro turn state' ⟨hstate', hdivisor⟩
    refine ⟨h.keeps turn state' hstate', ?_⟩
    rw [h.divider_eq turn state' hstate']
    exact hdivisor
  exact (play_keeps hstep ⟨hstate, rfl⟩ turns).2

theorem ticks_play (hstate : I state)
    (hfits : Throughout take (Fits take divider) turns state) :
    (divider state).divisor.toNat * ticks (play take turns state).2 +
        (divider (play take turns state).2).accumulated.toNat =
      (divider state).divisor.toNat * ticks state + (divider state).accumulated.toNat +
        (play take turns state).1 := by
  -- Times the divisor, the ticks of the turns add up with what they carry over.
  induction turns generalizing state with
  | nil => rfl
  | cons turn rest ih =>
      have hnext := ih (h.keeps turn state hstate) hfits.2
      have hturn := TickDivider.toNat_advance hfits.1
      rw [h.divider_eq turn state hstate, h.ticks_eq turn state hstate, Nat.mul_add] at hnext
      rw [play]
      dsimp only at hnext ⊢
      have hdivisor : ((divider state).advance (take turn state).1).2.divisor =
        (divider state).divisor := rfl
      rw [hdivisor] at hnext
      omega

/-- From the start of a tick on, the ticks are the whole quotient of all cycles. -/
theorem ticks_play_of_start (hstate : I state)
    (hinPhase : ∀ state, I state → (divider state).InPhase)
    (hstart : (divider state).accumulated = 0)
    (hfits : Throughout take (Fits take divider) turns state) :
    ticks (play take turns state).2 =
      ticks state + (play take turns state).1 / (divider state).divisor.toNat := by
  have hsum := h.ticks_play hstate hfits
  have hlast := (hinPhase _ (play_keeps h.keeps hstate turns)).toNat_lt
  rw [h.divisor_play turns hstate] at hlast
  have hpositive : 0 < (divider state).divisor.toNat := Nat.zero_lt_of_lt hlast
  have hquotient := congrArg (· / (divider state).divisor.toNat) hsum
  rw [hstart, UInt32.toNat_zero, Nat.add_zero] at hquotient
  simp only [Nat.mul_add_div hpositive, Nat.div_eq_of_lt hlast, Nat.add_zero] at hquotient
  exact hquotient

end Ledger

end TmsCores.History
