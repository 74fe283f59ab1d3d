import TmsCores.Bus.Flat
import TmsCores.Proofs.Tms7000.Cost
import TmsCores.Proofs.Tms9900.Cost

namespace TmsCores

namespace RunLoop

variable {σ β : Type} [Bus β] {iterate : Nat → σ → Nat × σ} {I : σ → Prop} {most : Nat}
  (bus : σ → RecordedBus β)
  (hcost : ∀ limit state, I state → ∃ calls,
    (bus state).Called (bus (iterate limit state).2) calls ∧
      (iterate limit state).1 ≤ most + BusEvent.waits calls)

include hcost

omit [Bus β] in
theorem loop_overshoots (hkeeps : ∀ limit state, I state → I (iterate limit state).2)
    {budget consumed : Nat} {state : σ} (hstate : I state) {total : Nat} {final : σ}
    (hloop : loop ⟨iterate, budget⟩ consumed state = some (total, final)) :
    ∃ calls, (bus state).Called (bus final) calls ∧
      (total ≤ consumed ∨ total < budget + most + BusEvent.waits calls) := by
  refine loop.partial_correctness ⟨iterate, budget⟩
    (fun consumed state result => I state → ∃ calls, (bus state).Called (bus result.2) calls ∧
      (result.1 ≤ consumed ∨ result.1 < budget + most + BusEvent.waits calls))
    ?_ consumed state (total, final) hloop hstate
  intro shorter ih consumed state result hresult hstate
  by_cases hopen : consumed < budget
  · obtain ⟨calls, hcalled, hcost⟩ := hcost (budget - consumed) state hstate
    rw [if_pos hopen] at hresult
    obtain ⟨more, hmore, htotal⟩ := ih _ _ _ hresult (hkeeps _ _ hstate)
    refine ⟨calls ++ more, hcalled.trans hmore, .inr ?_⟩
    rw [BusEvent.waits_append]
    dsimp only at htotal hcost
    omega
  · rw [if_neg hopen, Option.some.injEq] at hresult
    subst hresult
    exact ⟨[], (bus state).called_refl, .inl (Nat.le_refl consumed)⟩

/-- A run reaches its budget, and goes beyond it by less than an iteration costs. -/
theorem Divisible.run_overshoots (h : Divisible iterate I)
    (hprompt : Bus.NeverWaits β → ∀ limit state, I state →
      BusEvent.waits (bus (iterate limit state).2).events = BusEvent.waits (bus state).events)
    {budget : UInt32} (hbudget : 1 ≤ budget) {state : σ} (hstate : I state) :
    ∃ count final calls,
      run iterate budget state = some (count, final) ∧ (bus state).Called (bus final) calls ∧
      budget.toNat ≤ count ∧ count < budget.toNat + most + BusEvent.waits calls ∧
      (Bus.NeverWaits β → count < budget.toNat + most) := by
  have hcap : budget.toNat ≤ cycleCap := Nat.le_of_lt_succ budget.toNat_lt
  have hpositive : 1 ≤ budget.toNat := UInt32.le_iff_toNat_le.mp hbudget
  obtain ⟨count, final, hrun, hreached⟩ := h.loop_ends hcap 0 hstate
  obtain ⟨calls, hcalled, hcount⟩ := loop_overshoots bus hcost h.keeps hstate hrun
  have hbound : count < budget.toNat + most + BusEvent.waits calls :=
    hcount.resolve_left (by omega)
  refine ⟨count, final, calls, hrun, hcalled, hreached, hbound, fun hquiet => ?_⟩
  have hkept := loop_keeps (I := fun next => I next ∧
      BusEvent.waits (bus next).events = BusEvent.waits (bus state).events)
    (fun limit next hnext =>
      ⟨h.keeps limit next hnext.1, (hprompt hquiet limit next hnext.1).trans hnext.2⟩)
    ⟨hstate, rfl⟩ hrun
  rwa [hcalled.waits_eq_zero hkept.2] at hbound

end RunLoop

/-- No iteration takes long, and no run goes far beyond its budget, however X instructions are
chained.  Wait states come on top of that. -/
theorem overshoot_bounded {β : Type} [Bus β] :
    (∀ (variant : Tms9900.Variant) {machine : Tms9900.Machine (RecordedBus β)},
      machine.Reachable variant.config →
        (∀ limit, ∃ calls,
          machine.bus.Called (Tms9900.Exec.iterate limit machine).2.bus calls ∧
          (Tms9900.Exec.iterate limit machine).1 ≤ 600 + BusEvent.waits calls) ∧
        ∀ budget : UInt32, 1 ≤ budget → ∃ count final calls,
          machine.run budget = some (count, final) ∧ machine.bus.Called final.bus calls ∧
          budget.toNat ≤ count ∧ count < budget.toNat + 600 + BusEvent.waits calls ∧
          (Bus.NeverWaits β → count < budget.toNat + 600)) ∧
    (∀ (variant : Tms7000.Variant) {machine : Tms7000.Machine (RecordedBus β)},
      machine.Reachable variant.config →
        (∀ limit, ∃ calls,
          machine.bus.Called (Tms7000.Exec.iterate limit machine).2.bus calls ∧
          (Tms7000.Exec.iterate limit machine).1 ≤ 67 + BusEvent.waits calls) ∧
        ∀ budget : UInt32, 1 ≤ budget → ∃ count final calls,
          machine.run budget = some (count, final) ∧ machine.bus.Called final.bus calls ∧
          budget.toNat ≤ count ∧ count < budget.toNat + 67 + BusEvent.waits calls ∧
          (Bus.NeverWaits β → count < budget.toNat + 67)) := by
  constructor
  · intro variant machine hreachable
    have hcost (limit : Nat) (machine : Tms9900.Machine (RecordedBus β))
        (hmachine : machine.cpu.IsConsistent variant.config) :=
      Tms9900.Machine.iterate_le_of_variant hmachine limit
    have hdivisible :=
      (Tms9900.Exec.iterate_quantised (β := RecordedBus β) variant.illegal_ne).divisible
    refine ⟨fun limit => hcost limit machine hreachable.isConsistent, fun budget hbudget => ?_⟩
    exact hdivisible.run_overshoots (·.bus) (fun limit state hstate => hcost limit state hstate.1)
      (fun hprompt limit state hstate => Tms9900.Machine.waits_iterate hprompt hstate.1 limit)
      hbudget ⟨hreachable.isConsistent, hreachable.wakeable⟩
  · intro variant machine hreachable
    have hcost (limit : Nat) (machine : Tms7000.Machine (RecordedBus β))
        (hmachine : machine.cpu.IsConsistent variant.config) :=
      Tms7000.Machine.iterate_le_of_variant hmachine limit
    have hillegal : variant.config.illegal ≠ .ignore 0 := nofun
    have hdivisible :=
      (Tms7000.Exec.iterate_quantised (β := RecordedBus β) hillegal).divisible
    refine ⟨fun limit => hcost limit machine hreachable.isConsistent, fun budget hbudget => ?_⟩
    exact hdivisible.run_overshoots (·.bus) hcost
      (fun hprompt limit state hstate => Tms7000.Machine.waits_iterate hprompt hstate limit)
      hbudget hreachable.isConsistent

theorem FlatBus.neverWaits : Bus.NeverWaits FlatBus where
  read _ _ := rfl
  write _ _ _ := rfl
  ioRead _ _ := rfl
  ioWrite _ _ _ := rfl

/-- An X that points to itself is executed once for each word that a chain can reach. -/
theorem overshoot_bounded_of_self_reference :
    (let machine : Tms9900.Machine (RecordedBus FlatBus) :=
        ⟨.ofConfig Tms9900.Variant.tms9980A.config, { memory := Memory.zero.pokeWord 0 0x0480 }, []⟩
      ∃ count final, machine.run 100 = some (count, final) ∧ 100 ≤ count ∧ count < 700 ∧
        (Tms9900.Exec.iterate 100 machine).1 = 172) ∧
    (let machine : Tms7000.Machine (RecordedBus FlatBus) :=
        ⟨.ofConfig Tms7000.Variant.tms7000.config, {}, []⟩
      ∃ count final, machine.run 100 = some (count, final) ∧ 100 ≤ count ∧ count < 167) := by
  have hbudget : (1 : UInt32) ≤ 100 := by decide
  constructor
  · intro machine
    have hmachine : machine.Reachable Tms9900.Variant.tms9980A.config := .create
    obtain ⟨_, hrun⟩ := overshoot_bounded.1 .tms9980A hmachine
    obtain ⟨count, final, _, hcount, _, hreached, _, hprompt⟩ := hrun 100 hbudget
    exact ⟨count, final, hcount, hreached, hprompt FlatBus.neverWaits, by decide +kernel⟩
  · intro machine
    have hmachine : machine.Reachable Tms7000.Variant.tms7000.config := .create
    obtain ⟨_, hrun⟩ := overshoot_bounded.2 .tms7000 hmachine
    obtain ⟨count, final, _, hcount, _, hreached, _, hprompt⟩ := hrun 100 hbudget
    exact ⟨count, final, hcount, hreached, hprompt FlatBus.neverWaits⟩

end TmsCores
