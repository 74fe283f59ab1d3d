import TmsCores.Proofs.Interrupt.Controller

namespace TmsCores

/-- The order of service: lower levels first, and of the same level lower numbers. -/
def PendingLine.Precedes (first second : PendingLine) : Prop :=
  first.level < second.level ∨ first.level = second.level ∧ first.line ≤ second.line

namespace PendingLine.Precedes

variable {a b c : PendingLine}

theorem refl (a : PendingLine) : a.Precedes a :=
  .inr ⟨rfl, UInt8.le_refl _⟩

theorem trans (hab : a.Precedes b) (hbc : b.Precedes c) : a.Precedes c := by
  simp only [Precedes, UInt8.lt_iff_toNat_lt, UInt8.le_iff_toNat_le, ← UInt8.toNat_inj] at *
  omega

theorem antisymm (hab : a.Precedes b) (hba : b.Precedes a) : a = b := by
  obtain ⟨line, level⟩ := a
  obtain ⟨line', level'⟩ := b
  simp only [Precedes, UInt8.lt_iff_toNat_lt, UInt8.le_iff_toNat_le, mk.injEq,
    ← UInt8.toNat_inj] at *
  omega

end PendingLine.Precedes

namespace InterruptController

variable {controller : InterruptController} {mask : UInt8} {pending : PendingLine}

theorem preferred_eq_some {best : Option PendingLine} {next : PendingLine}
    (hbest : ∀ line ∈ best, line.line ≤ next.line) :
    ∃ chosen, preferred best next = some chosen ∧ (best = some chosen ∨ chosen = next) ∧
      chosen.Precedes next ∧ ∀ line ∈ best, chosen.Precedes line := by
  cases best with
  | none => exact ⟨next, rfl, .inr rfl, .refl next, nofun⟩
  | some line =>
      rw [preferred]
      split
      · next hlower =>
          refine ⟨next, rfl, .inr rfl, .refl next, ?_⟩
          rintro _ ⟨⟩
          exact .inl hlower
      · next hlower =>
          -- Of two candidates with the same level the one found first has the lower number.
          have hnumber := hbest line rfl
          have hnext : line.Precedes next := by
            simp only [PendingLine.Precedes, UInt8.lt_iff_toNat_lt, UInt8.le_iff_toNat_le,
              ← UInt8.toNat_inj] at *
            omega
          refine ⟨line, rfl, .inl rfl, hnext, ?_⟩
          rintro _ ⟨⟩
          exact .refl line

/-- Among candidates in order of their numbers the choice falls on the one to be serviced first. -/
theorem foldl_preferred_precedes {candidates : List PendingLine} {best : Option PendingLine}
    (hsorted : candidates.Pairwise (·.line ≤ ·.line))
    (hbest : ∀ line ∈ best, ∀ candidate ∈ candidates, line.line ≤ candidate.line)
    (h : candidates.foldl preferred best = some pending) :
    (∀ line ∈ best, pending.Precedes line) ∧
      ∀ candidate ∈ candidates, pending.Precedes candidate := by
  induction candidates generalizing best with
  | nil =>
      subst h
      refine ⟨?_, nofun⟩
      rintro _ ⟨⟩
      exact .refl _
  | cons next rest ih =>
      obtain ⟨hnext, hrest⟩ := List.pairwise_cons.mp hsorted
      obtain ⟨chosen, hchosen, hfrom, hafter, hbefore⟩ :=
        preferred_eq_some fun line hline => hbest line hline next List.mem_cons_self
      have hstart : ∀ candidate ∈ rest, chosen.line ≤ candidate.line := by
        intro candidate hcandidate
        rcases hfrom with hfrom | rfl
        · exact hbest chosen hfrom candidate (List.mem_cons_of_mem _ hcandidate)
        · exact hnext candidate hcandidate
      rw [List.foldl_cons, hchosen] at h
      obtain ⟨hfirst, hothers⟩ := ih hrest (by rintro _ ⟨⟩; exact hstart) h
      have hpending := hfirst chosen rfl
      refine ⟨fun line hline => hpending.trans (hbefore line hline), ?_⟩
      intro candidate hcandidate
      rcases List.mem_cons.mp hcandidate with rfl | hcandidate
      · exact hpending.trans hafter
      · exact hothers candidate hcandidate

theorem foldl_preferred_isSome (candidates : List PendingLine) (best : PendingLine) :
    (candidates.foldl preferred (some best)).isSome := by
  induction candidates generalizing best with
  | nil => rfl
  | cons next rest ih =>
      rw [List.foldl_cons, preferred]
      split
      · exact ih next
      · exact ih best

theorem pending_eq_none_iff :
    controller.pending mask = none ↔ ∀ pending, pending ∉ controller.eligible mask := by
  rw [pending, ← List.eq_nil_iff_forall_not_mem]
  cases controller.eligible mask with
  | nil => simp
  | cons next rest =>
      have hsome := foldl_preferred_isSome rest next
      simp [preferred, Option.isSome_iff_ne_none.mp hsome]

theorem pairwise_eligible (hsize : controller.size ≤ 256) :
    (controller.eligible mask).Pairwise (·.line < ·.line) := by
  rw [eligible, List.pairwise_filterMap, List.pairwise_iff_getElem]
  intro i j hi hj hij first hfirst second hsecond
  rw [List.length_zipIdx] at hi hj
  simp only [List.getElem_zipIdx, Nat.zero_add, Option.ite_none_right_eq_some,
    Option.some.injEq] at hfirst hsecond
  obtain ⟨_, rfl⟩ := hfirst
  obtain ⟨_, rfl⟩ := hsecond
  have hlength : controller.lines.length ≤ 256 := hsize
  rw [UInt8.lt_iff_toNat_lt, UInt8.toNat_ofNat', UInt8.toNat_ofNat']
  omega

theorem nodup_eligible (hsize : controller.size ≤ 256) : (controller.eligible mask).Nodup := by
  refine (pairwise_eligible hsize).imp ?_
  rintro first _ hless rfl
  exact UInt8.lt_irrefl _ hless

theorem mem_eligible_iff (hsize : controller.size ≤ 256) :
    pending ∈ controller.eligible mask ↔
      ∃ line, controller.line? pending.line = some line ∧
        line.isEligible controller.compare mask = true ∧ pending.level = line.level := by
  have hlength : controller.lines.length ≤ 256 := hsize
  simp only [eligible, List.mem_filterMap, Prod.exists, List.mk_mem_zipIdx_iff_getElem?,
    Option.ite_none_right_eq_some, Option.some.injEq]
  constructor
  · rintro ⟨line, number, hline, heligible, rfl⟩
    have hnumber := (List.getElem?_eq_some_iff.mp hline).1
    refine ⟨line, ?_, heligible, rfl⟩
    rw [line?, UInt8.toNat_ofNat', Nat.mod_eq_of_lt (by omega)]
    exact hline
  · rintro ⟨line, hline, heligible, hlevel⟩
    refine ⟨line, pending.line.toNat, hline, heligible, ?_⟩
    rw [UInt8.ofNat_toNat, ← hlevel]

/-- Of the lines that may be serviced it is the turn of the first. -/
theorem pending_eq_some_iff (hsize : controller.size ≤ 256) :
    controller.pending mask = some pending ↔
      pending ∈ controller.eligible mask ∧
        ∀ other ∈ controller.eligible mask, pending.Precedes other := by
  have hfirst {chosen : PendingLine} (h : controller.pending mask = some chosen) :
      chosen ∈ controller.eligible mask ∧
        ∀ other ∈ controller.eligible mask, chosen.Precedes other := by
    rcases foldl_preferred_mem _ _ h with hnone | hmem
    · exact absurd hnone nofun
    · have hsorted : (controller.eligible mask).Pairwise (·.line ≤ ·.line) :=
        (pairwise_eligible hsize).imp UInt8.le_of_lt
      refine ⟨hmem, (foldl_preferred_precedes hsorted ?_ h).2⟩
      exact nofun
  refine ⟨hfirst, fun ⟨hmem, hprecedes⟩ => ?_⟩
  cases hpending : controller.pending mask with
  | none => exact absurd hmem (pending_eq_none_iff.mp hpending pending)
  | some chosen =>
      obtain ⟨hchosen, hothers⟩ := hfirst hpending
      -- Lines of which each precedes the other are the same line.
      rw [(hothers pending hmem).antisymm (hprecedes chosen hchosen)]

end InterruptController

end TmsCores
