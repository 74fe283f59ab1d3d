import TmsCores.OpcodeTable

namespace TmsCores.Tms7000

structure Config where
  /-- Bytes of register file on the chip. -/
  registerCount : UInt16
  /-- An illegal opcode that traps goes through the vector of TRAP 0. -/
  illegal : IllegalOpcode
  /-- Processor cycles for each clock of timer 1. -/
  tickDivider : UInt32
  deriving DecidableEq

def Config.text (config : Config) : String :=
  RecordText.text "Config"
    [("rf_size", toString config.registerCount.toNat), ("illegal", config.illegal.text),
      ("tick_divider", toString config.tickDivider.toNat)]

/-- The configuration with a register file of 2 to 256 bytes, so that A and B exist and the
peripheral file stays visible. -/
def Config.clamp (config : Config) : Config :=
  { config with registerCount := max 2 (min config.registerCount 0x100) }

inductive Variant
  | tms7000
  | tms7020
  | tms7040
  | tms70C40
  deriving DecidableEq

namespace Variant

def name : Variant → String
  | .tms7000 => "TMS7000"
  | .tms7020 => "TMS7020"
  | .tms7040 => "TMS7040"
  | .tms70C40 => "TMS70C40"

def config (variant : Variant) : Config where
  registerCount :=
    match variant with
    | .tms7000 | .tms7020 => 128
    | .tms7040 | .tms70C40 => 256
  illegal := .ignore 4
  tickDivider := 16

end Variant

end TmsCores.Tms7000
