import TmsCores.Interrupt.Line
import TmsCores.Observation
import TmsCores.Snapshot.Parts

namespace TmsCores

/-- What a host can ask of a processor. -/
inductive Operation (Register : Type)
  | reset
  | step
  | run (budget : UInt32)
  | drive (line : UInt8) (state : LineState)
  | setPc (pc : UInt16)
  | read (register : Register)
  | write (register : Register) (value : UInt16)
  | query (path : String)
  | save
  | restore (bytes : List UInt8)

/-- What a processor answers to its host. -/
inductive Answer (MissingRegister Config : Type)
  | done
  | cycles (count : Nat)
  | value (result : Except MissingRegister UInt16)
  | written (result : Except MissingRegister Unit)
  | observation (answer : Option Observation)
  | saved (bytes : List UInt8)
  | restored (result : Except (RestoreError Config) Unit)

/-- One move of a host: it calls the processor, or changes the bus behind the processor's back. -/
inductive HostMove (Register β : Type)
  | call (operation : Operation Register)
  | touch (change : β → β)

/-- Carries out some moves one after the other, each given by `act`, and collects the answers.
There is nothing to collect once a move never ends. -/
def session {ω σ α : Type} (act : ω → σ → Option (α × σ)) : List ω → σ → Option (List α × σ)
  | [], state => some ([], state)
  | move :: rest, state => do
      let (answer, state) ← act move state
      let (answers, state) ← session act rest state
      return (answer :: answers, state)

end TmsCores
