import TmsCores.Host
import TmsCores.Tms7000.Inspection
import TmsCores.Tms7000.Iteration
import TmsCores.Tms7000.Snapshot

namespace TmsCores.Tms7000

def Processor.ofConfig (config : Config) : Processor where
  cpu := .ofConfig config

namespace Machine

variable {β : Type}

def write? (register : Register) (value : UInt16) (machine : Machine β) :
    Except MissingRegister Unit × Machine β :=
  match machine.cpu.write? register value with
  | .ok cpu => (.ok (), { machine with cpu := cpu })
  | .error error => (.error error, machine)

/-- Replaces the state that lasts by a saved one.  A failure changes nothing. -/
def restore (bytes : List UInt8) (machine : Machine β) :
    Except (RestoreError Config) Unit × Machine β :=
  match machine.cpu.restore bytes with
  | .ok saved => (.ok (), { machine with cpu := saved })
  | .error error => (.error error, machine)

variable [Bus β]

/-- What an operation answers, and what it leaves.  There is neither when a run never ends. -/
def perform (operation : Operation Register) (machine : Machine β) :
    Option (Answer MissingRegister Config × Machine β) :=
  match operation with
  | .reset =>
      let (_, machine) := Exec.reset machine
      some (.done, machine)
  | .step =>
      let (count, machine) := Exec.step machine
      some (.cycles count, machine)
  | .run budget => do
      let (count, machine) ← machine.run budget
      return (.cycles count, machine)
  | .drive line state => some (.done, { machine with cpu := machine.cpu.drive line state })
  | .setPc pc => some (.done, { machine with cpu := machine.cpu.setPc pc })
  | .read register => some (.value (machine.cpu.read? register), machine)
  | .write register value =>
      let (result, machine) := machine.write? register value
      some (.written result, machine)
  | .query path => some (.observation (machine.cpu.query path), machine)
  | .save => some (.saved machine.cpu.save, machine)
  | .restore bytes =>
      let (result, machine) := machine.restore bytes
      some (.restored result, machine)

def act (move : HostMove Register β) (machine : Machine β) :
    Option (Answer MissingRegister Config × Machine β) :=
  match move with
  | .call operation => machine.perform operation
  | .touch change => some (.done, { machine with bus := change machine.bus })

end Machine

end TmsCores.Tms7000
