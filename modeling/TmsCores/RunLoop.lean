namespace TmsCores

/-- Iterations that are repeated until `budget` cycles have been consumed.  Each of them is told how
many cycles are left and returns how many it took. -/
structure RunLoop (σ : Type) where
  iterate : Nat → σ → Nat × σ
  budget : Nat

namespace RunLoop

/-- Cycle counts of a run stop growing here. -/
def cycleCap : Nat :=
  0xFFFFFFFF

variable {σ : Type}

/-- The loop from a state on that it has reached with `consumed` cycles, whose sum is capped at
`cycleCap`.  There is no answer when the iterations go on for ever without reaching the budget. -/
def loop (iterations : RunLoop σ) (consumed : Nat) (state : σ) : Option (Nat × σ) :=
  if consumed < iterations.budget then
    let (cycles, next) := iterations.iterate (iterations.budget - consumed) state
    iterations |>.loop (min (consumed + cycles) cycleCap) next
  else
    some (consumed, state)
partial_fixpoint

/-- Runs whole iterations until at least `budget` cycles have been consumed, and returns the cycles
consumed with the final state. -/
def run (iterate : Nat → σ → Nat × σ) (budget : UInt32) (state : σ) : Option (Nat × σ) :=
  loop ⟨iterate, budget.toNat⟩ 0 state

/-- Runs a step that takes no notice of the budget. -/
def runSteps (step : σ → Nat × σ) (budget : UInt32) (state : σ) : Option (Nat × σ) :=
  run (fun _ => step) budget state

end RunLoop

end TmsCores
