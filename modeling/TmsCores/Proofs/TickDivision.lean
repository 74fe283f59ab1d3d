import Mathlib.Algebra.GroupWithZero.Nat
import TmsCores.Proofs.Clock

namespace TmsCores.TickDivider

/-- A divider that was made for a divisor, whatever it has counted since. -/
inductive Reachable (divisor : UInt32) : TickDivider → Prop
  | create : Reachable divisor (ofDivisor divisor)
  | advance {divider : TickDivider} (h : Reachable divisor divider) (cycles : Nat) :
      Reachable divisor (divider.advance cycles).2
  | reset {divider : TickDivider} (h : Reachable divisor divider) :
      Reachable divisor divider.reset

/-- Counts some amounts of cycles one after the other.  Returns the ticks that they complete
together. -/
def advanceAll (divider : TickDivider) : List Nat → Nat × TickDivider
  | [] => (0, divider)
  | cycles :: rest =>
      let (ticks, next) := divider.advance cycles
      let (more, last) := next.advanceAll rest
      (ticks + more, last)

/-- Each amount fits into 32 bits together with what is carried over to it. -/
def Fits (divider : TickDivider) : List Nat → Prop
  | [] => True
  | cycles :: rest =>
      divider.accumulated.toNat + cycles < UInt32.size ∧ (divider.advance cycles).2.Fits rest

instance decidableFits : (divider : TickDivider) → (amounts : List Nat) →
    Decidable (divider.Fits amounts)
  | _, [] => isTrue trivial
  | divider, cycles :: rest =>
      have := decidableFits (divider.advance cycles).2 rest
      inferInstanceAs (Decidable (_ ∧ _))

variable {divider : TickDivider} {divisor : UInt32} {amounts : List Nat}

theorem advanceAll_cons (divider : TickDivider) (cycles : Nat) (rest : List Nat) :
    divider.advanceAll (cycles :: rest) =
      ((divider.advance cycles).1 + ((divider.advance cycles).2.advanceAll rest).1,
        ((divider.advance cycles).2.advanceAll rest).2) :=
  rfl

theorem advanceAll_singleton (divider : TickDivider) (cycles : Nat) :
    divider.advanceAll [cycles] = divider.advance cycles :=
  rfl

theorem toNat_advanceAll (h : divider.Fits amounts) :
    divider.divisor.toNat * (divider.advanceAll amounts).1 +
        (divider.advanceAll amounts).2.accumulated.toNat =
      divider.accumulated.toNat + amounts.sum := by
  -- What the first call carries over is what the other calls start with.
  induction amounts generalizing divider with
  | nil => exact Nat.zero_add _
  | cons cycles rest ih =>
      have hfirst := toNat_advance h.1
      have hrest := ih h.2
      have hdivisor : (divider.advance cycles).2.divisor = divider.divisor := rfl
      rw [hdivisor] at hrest
      rw [advanceAll_cons, List.sum_cons, Nat.mul_add]
      dsimp only
      omega

theorem fits_of_sum (h : divider.accumulated.toNat + amounts.sum < UInt32.size) :
    divider.Fits amounts := by
  induction amounts generalizing divider with
  | nil => trivial
  | cons cycles rest ih =>
      rw [List.sum_cons] at h
      have hfirst : divider.accumulated.toNat + cycles < UInt32.size := by omega
      have hbalance := toNat_advance hfirst
      exact ⟨hfirst, ih (by omega)⟩

namespace Reachable

theorem divisor_eq (h : divider.Reachable divisor) :
    divider.divisor = (ofDivisor divisor).divisor := by
  induction h with
  | create => rfl
  | advance h cycles ih => exact ih
  | reset h ih => exact ih

theorem inPhase (h : divider.Reachable divisor) : divider.InPhase := by
  induction h with
  | create => exact ofDivisor_inPhase divisor
  | advance h cycles ih => exact ih.advance cycles
  | reset h ih => exact ih.reset

theorem advanceAll (h : divider.Reachable divisor) (amounts : List Nat) :
    (divider.advanceAll amounts).2.Reachable divisor := by
  induction amounts generalizing divider with
  | nil => exact h
  | cons cycles rest ih => exact ih (h.advance cycles)

/-- The ticks and what is carried over are the quotient and the remainder of all cycles. -/
theorem advanceAll_eq (h : divider.Reachable divisor) (hfits : divider.Fits amounts) :
    (divider.advanceAll amounts).1 =
        (divider.accumulated.toNat + amounts.sum) / divider.divisor.toNat ∧
      (divider.advanceAll amounts).2.accumulated.toNat =
        (divider.accumulated.toNat + amounts.sum) % divider.divisor.toNat := by
  have hbalance := toNat_advanceAll hfits
  have hlast := (h.advanceAll amounts).inPhase.toNat_lt
  rw [(h.advanceAll amounts).divisor_eq, ← h.divisor_eq] at hlast
  have hpositive : 0 < divider.divisor.toNat := Nat.zero_lt_of_lt hlast
  obtain ⟨hticks, hcarried⟩ := (Nat.div_mod_unique hpositive).mpr
    ⟨(Nat.add_comm _ _).trans hbalance, hlast⟩
  exact ⟨hticks.symm, hcarried.symm⟩

theorem advanceAll_eq_advance (h : divider.Reachable divisor)
    (hsum : divider.accumulated.toNat + amounts.sum < UInt32.size) :
    divider.advanceAll amounts = divider.advance amounts.sum := by
  have hfits : divider.Fits [amounts.sum] := ⟨hsum, trivial⟩
  obtain ⟨hticks, hcarried⟩ := h.advanceAll_eq (fits_of_sum hsum)
  obtain ⟨hticksOnce, hcarriedOnce⟩ := h.advanceAll_eq hfits
  rw [List.sum_singleton] at hticksOnce hcarriedOnce
  rw [← advanceAll_singleton]
  refine Prod.ext (hticks.trans hticksOnce.symm) ?_
  rw [TickDivider.mk.injEq, (h.advanceAll amounts).divisor_eq, (h.advanceAll _).divisor_eq]
  exact ⟨rfl, UInt32.toNat_inj.mp (hcarried.trans hcarriedOnce.symm)⟩

theorem ticks_pos_iff (h : divider.Reachable divisor) (hfits : divider.Fits amounts) :
    0 < (divider.advanceAll amounts).1 ↔ divider.untilNext ≤ amounts.sum := by
  have hless := h.inPhase.toNat_lt
  rw [(h.advanceAll_eq hfits).1, h.inPhase.untilNext_eq, Nat.div_pos_iff]
  omega

end Reachable

/-- Every remainder below the divisor comes up: that many cycles lead to it. -/
theorem reachable_iff :
    divider.Reachable divisor ↔
      divider.divisor = (ofDivisor divisor).divisor ∧ divider.InPhase := by
  constructor
  · intro h
    exact ⟨h.divisor_eq, h.inPhase⟩
  · rintro ⟨hdivisor, hphase⟩
    have hcycles : divider.accumulated.toNat < (ofDivisor divisor).untilNext := by
      rw [(ofDivisor_inPhase divisor).untilNext_eq, ← hdivisor]
      exact hphase.toNat_lt
    have hadvance := (ofDivisor_inPhase divisor).advance_of_lt hcycles
    have hzero : (ofDivisor divisor).accumulated = 0 := rfl
    have hnext : ((ofDivisor divisor).advance divider.accumulated.toNat).2 = divider := by
      rw [hadvance, total, hzero, UInt32.ofNat_toNat, UInt32.zero_add, ← hdivisor]
    exact hnext ▸ .advance .create _

/-- Ticks do not depend on how cycles are cut into steps.  Whatever a divider has counted before,
the ticks of successive calls are the quotient of all cycles; when all of them fit, one call does
the same.  Before, between and after the calls, the next tick is just as many cycles away as the
divider tells. -/
theorem ticks_independent_of_steps {divider : TickDivider} {divisor : UInt32}
    (h : divider.Reachable divisor) (amounts : List Nat) :
    (divider.Fits amounts →
      (divider.advanceAll amounts).1 =
        (divider.accumulated.toNat + amounts.sum) / max 1 divisor.toNat) ∧
    ((∀ part, part <+: amounts → divider.accumulated.toNat + part.sum < UInt32.size) →
      divider.Fits amounts ∧ divider.advanceAll amounts = divider.advance amounts.sum) ∧
    ∀ part, part <+: amounts →
      let next := (divider.advanceAll part).2
      1 ≤ next.untilNext ∧ next.untilNext ≤ max 1 divisor.toNat ∧
        next.advance next.untilNext = (1, next.reset) ∧
        ∀ further, next.Fits further →
          (0 < (next.advanceAll further).1 ↔ next.untilNext ≤ further.sum) := by
  rw [← divisor_ofDivisor]
  refine ⟨?_, ?_, ?_⟩
  · intro hfits
    rw [← h.divisor_eq]
    exact (h.advanceAll_eq hfits).1
  · intro hsums
    have hsum := hsums amounts (List.prefix_refl amounts)
    exact ⟨fits_of_sum hsum, h.advanceAll_eq_advance hsum⟩
  · intro part _ next
    have hnext : next.Reachable divisor := h.advanceAll part
    refine ⟨hnext.inPhase.untilNext_pos, ?_, hnext.inPhase.advance_untilNext,
      fun further => hnext.ticks_pos_iff⟩
    rw [hnext.inPhase.untilNext_eq, hnext.divisor_eq]
    exact Nat.sub_le _ _

/-- With a remainder of 2 for a divisor of 3, two amounts may fill the 32 bits, and a third one may
go beyond them because the second has completed a tick. -/
theorem ticks_independent_of_steps_beyond_limit :
    let divider : TickDivider := ⟨3, 2⟩
    divider.Reachable 3 ∧
      (divider.advanceAll [4294967290, 3, 4294967295]).1 = 2863311530 ∧
      divider.advanceAll [4294967290, 3] = divider.advance 4294967293 ∧
      (divider.advanceAll [4294967290]).2.untilNext = 3 ∧
      0 < ((divider.advanceAll [4294967290]).2.advanceAll [2, 1]).1 := by
  intro divider
  have hreachable : divider.Reachable 3 := reachable_iff.mpr ⟨rfl, (by decide : (2 : UInt32) < 3)⟩
  obtain ⟨hticks, -, hnext⟩ :=
    ticks_independent_of_steps hreachable [4294967290, 3, 4294967295]
  have hsums : ∀ part, part <+: [4294967290, 3] →
      divider.accumulated.toNat + part.sum < UInt32.size := by
    rintro part ⟨rest, hpart⟩
    have hsum : part.sum + rest.sum = 4294967293 := by
      rw [← List.sum_append, hpart]
      rfl
    have hless : 2 + 4294967293 < UInt32.size := by decide
    change 2 + part.sum < UInt32.size
    omega
  have honce := (ticks_independent_of_steps hreachable [4294967290, 3]).2.1 hsums
  obtain ⟨-, -, -, hfurther⟩ := hnext [4294967290] ⟨[3, 4294967295], rfl⟩
  refine ⟨hreachable, (hticks (by decide)).trans (by decide), honce.2, by decide, ?_⟩
  exact (hfurther [2, 1] (by decide)).mpr (by decide)

end TmsCores.TickDivider
