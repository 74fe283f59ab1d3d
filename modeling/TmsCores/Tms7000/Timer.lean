namespace TmsCores.Tms7000

/-- Timer 1: a prescaler of five bits in front of a decrementer of eight. -/
structure Timer where
  /-- What the decrementer starts from again. -/
  reload : UInt8 := 0
  /-- Start bit, clock source and what the prescaler starts from again. -/
  control : UInt8 := 0
  prescaler : UInt8 := 0
  decrementer : UInt8 := 0
  /-- The decrementer at the latest edge on INT3. -/
  capture : UInt8 := 0
  deriving DecidableEq

namespace Timer

def startBit : UInt8 :=
  0x80

def externalBit : UInt8 :=
  0x40

def prescaleMask : UInt8 :=
  0x1F

/-- Writes the control register.  The start bit reloads both counters. -/
def writeControl (timer : Timer) (value : UInt8) : Timer :=
  if value &&& startBit = 0 then
    { timer with control := value }
  else
    { timer with
      control := value
      prescaler := value &&& prescaleMask
      decrementer := timer.reload }

def isRunning (timer : Timer) : Bool :=
  timer.control &&& startBit != 0 && timer.control &&& externalBit == 0

/-- One clock of the timer, and whether the decrementer has run out. -/
def clock (timer : Timer) : Bool × Timer :=
  if !timer.isRunning then
    (false, timer)
  else if timer.prescaler > 0 then
    (false, { timer with prescaler := timer.prescaler - 1 })
  else if timer.decrementer > 0 then
    (false, { timer with
      prescaler := timer.control &&& prescaleMask
      decrementer := timer.decrementer - 1 })
  else
    (true, { timer with
      prescaler := timer.control &&& prescaleMask
      decrementer := timer.reload })

end Timer

end TmsCores.Tms7000
