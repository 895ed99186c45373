/-
  The startup of `Px4ServoToDynamixel`: `initial_setting`, `write_goal` and the recovery of the
  port, as programs on the bus.

  A program that returns `false` fails, and one with an out parameter returns its value.
  `initial_setting` is split where it calls `write_goal`: `prepare` is what comes before and
  returns the two arrays that are then in use, `enableTorque` is what comes after.
-/
import Hummingbird.Servo.Bus

namespace Hummingbird

open Dialogue

/-! ## The handlers of the SDK -/

namespace Bus

def getPortHandler : Bus Bool := ask BusCommand.getPortHandler
def getPacketHandler : Bus Bool := ask BusCommand.getPacketHandler
def closePort : Bus Unit := ask BusCommand.closePort
def openPort : Bus Bool := ask BusCommand.openPort
def setBaudRate : Bus Bool := ask BusCommand.setBaudRate
def steadyNow : Bus Time := ask BusCommand.steadyNow
def ping (id : UInt8) : Bus BusStatus := ask (BusCommand.ping id)
def write1 (id : UInt8) (address : UInt16) (value : UInt8) : Bus BusStatus :=
  ask (BusCommand.write1 id address value)
def write2 (id : UInt8) (address : UInt16) (value : UInt16) : Bus BusStatus :=
  ask (BusCommand.write2 id address value)
def read1 (id : UInt8) (address : UInt16) : Bus (BusStatus × UInt8) :=
  ask (BusCommand.read1 id address)
def read4 (id : UInt8) (address : UInt16) : Bus (BusStatus × UInt32) :=
  ask (BusCommand.read4 id address)
def clearParam : Bus Unit := ask BusCommand.clearParam
def addParam (id : UInt8) (data : Fin 4 → UInt8) : Bus Bool := ask (BusCommand.addParam id data)
def txPacket : Bus ℤ := ask BusCommand.txPacket

/-- `openPort() && setBaudRate(...)`. -/
def openAtBaudRate : Bus Bool := do
  if ← openPort then setBaudRate else pure false

end Bus

namespace Px4ServoToDynamixel

open Bus

/-- The value of a transaction, if it has succeeded. -/
def ifOk {α : Type} (status : BusStatus) (a : α) : Option α := if status.Ok then some a else none

/-! ## The lambdas of `initial_setting` -/

def write1Byte (id : UInt8) (address : UInt16) (value : UInt8) : OptionT Bus Unit :=
  retry (do
    let status ← write1 id address value
    pure (ifOk status ())) registerWriteRetryCount

def write2Byte (id : UInt8) (address : UInt16) (value : UInt16) : OptionT Bus Unit :=
  retry (do
    let status ← write2 id address value
    pure (ifOk status ())) registerWriteRetryCount

def read1Byte (id : UInt8) (address : UInt16) : OptionT Bus UInt8 :=
  retry (do
    let (status, value) ← read1 id address
    pure (ifOk status value)) registerWriteRetryCount

def read4Byte (id : UInt8) (address : UInt16) : OptionT Bus UInt32 :=
  retry (do
    let (status, value) ← read4 id address
    pure (ifOk status value)) registerWriteRetryCount

/-! ## `write_goal` -/

/-- The members that the recovery of the port uses. -/
structure PortRecovery where
  consecutiveWriteFailures : UInt32
  reopenAttempted : Bool
  lastReopenAttempt : Time

/-- The members as they are initialized. -/
def PortRecovery.initial : PortRecovery := ⟨0, false, 0⟩

noncomputable section

/-- `reopen_port_after_failure`. -/
def reopenPortAfterFailure (s : PortRecovery) : Bus PortRecovery := do
  let s := { s with consecutiveWriteFailures := s.consecutiveWriteFailures + 1 }
  let now ← steadyNow
  if s.reopenAttempted ∧ secs (now - s.lastReopenAttempt) < 1 then pure s
  else
    let s := { s with reopenAttempted := true, lastReopenAttempt := now }
    closePort
    if ← openAtBaudRate then
      -- the acknowledgements are only logged
      let _ ← (each fun i : Fin 6 =>
        OptionT.lift (write1 (dxlServos i).id addrBusWatchdog 0)).run
      pure s
    else pure s

/-- The loop of `write_goal` over the servos. -/
def addGoals (goalPpr : Fin 6 → Int32) : OptionT Bus (Fin 6 → Unit) :=
  each fun i => OptionT.mk do
    let added ← addParam (dxlServos i).id (goalData (goalPpr i).toUInt32)
    pure (if added then some () else none)

/-- `write_goal`, once `sync_write_` is set. -/
def writeGoal (s : PortRecovery) (goalPpr : Fin 6 → Int32) : Bus (PortRecovery × Bool) := do
  clearParam
  match ← (addGoals goalPpr).run with
  | none =>
    clearParam
    pure (s, false)
  | some _ =>
    let result ← txPacket
    clearParam
    if result ≠ commSuccess then
      let s ← reopenPortAfterFailure s
      pure (s, false)
    else pure ({ s with consecutiveWriteFailures := 0 }, true)

/-! ## `initial_setting` -/

/-- The loop that opens the port. -/
def connectPort : OptionT Bus Unit :=
  retry (do
    closePort
    let opened ← openAtBaudRate
    pure (if opened then some () else none)) portOpenRetryCount

/-- The loop that pings the servo `i`. -/
def pingServo (i : Fin 6) : OptionT Bus Unit :=
  retry (do
    let status ← ping (dxlServos i).id
    pure (ifOk status ())) pingRetryCount

/-- The registers that decide whether the servo `i` can be used; returns `torque_enabled[i]`. -/
def checkServo (i : Fin 6) : OptionT Bus UInt8 := do
  let id := (dxlServos i).id
  let torqueEnabled ← read1Byte id addrTorqueEnable
  let operatingMode ← read1Byte id addrOperatingMode
  let hardwareError ← read1Byte id addrHardwareErrorStatus
  if hardwareError ≠ 0 then failure
  else if torqueEnabled ≠ torqueOff ∧ operatingMode ≠ positionControlMode then failure
  else if torqueEnabled = torqueOff ∧ operatingMode ≠ positionControlMode then do
    write1Byte id addrOperatingMode positionControlMode
    pure torqueEnabled
  else pure torqueEnabled

/-- The controller gains of the servo `i`. -/
def writeGains (i : Fin 6) : OptionT Bus Unit := do
  let servo := dxlServos i
  write2Byte servo.id addrPositionPGain servo.positionP
  write2Byte servo.id addrPositionIGain servo.positionI
  write2Byte servo.id addrPositionDGain servo.positionD
  write2Byte servo.id addrVelocityPGain servo.velocityP
  write2Byte servo.id addrVelocityIGain servo.velocityI

/-- `initial_setting` up to its call of `write_goal`; returns `torque_enabled` and
    `initial_ppr`. -/
def prepare : OptionT Bus ((Fin 6 → UInt8) × (Fin 6 → Int32)) := do
  let port ← OptionT.lift getPortHandler
  let packet ← OptionT.lift getPacketHandler
  if !port || !packet then failure
  else
    connectPort
    let _ ← each pingServo
    let torqueEnabled ← each checkServo
    let _ ← each fun i => write1Byte (dxlServos i).id addrBusWatchdog 0
    let _ ← each writeGains
    let values ← each fun i => read4Byte (dxlServos i).id addrPresentPosition
    pure (torqueEnabled, fun i => (values i).toInt32)

/-- The last loop of `initial_setting`. -/
def enableTorque (torqueEnabled : Fin 6 → UInt8) : OptionT Bus (Fin 6 → Unit) :=
  each fun i =>
    if torqueEnabled i = torqueOff then write1Byte (dxlServos i).id addrTorqueEnable torqueOn
    else pure ()

/-- `initial_setting` from its call of `write_goal` on. -/
def holdAndEnable (torqueEnabled : Fin 6 → UInt8) (initialPpr : Fin 6 → Int32) :
    OptionT Bus Unit := do
  let (_, held) ← OptionT.lift (writeGoal PortRecovery.initial initialPpr)
  if !held then failure
  else
    let _ ← enableTorque torqueEnabled
    pure ()

/-- `initial_setting`; returns `initial_ppr`. -/
def initialSetting : OptionT Bus (Fin 6 → Int32) := do
  let (torqueEnabled, initialPpr) ← prepare
  holdAndEnable torqueEnabled initialPpr
  pure initialPpr

end

end Px4ServoToDynamixel

end Hummingbird
