/-
  The bus of the servos, as `Px4ServoToDynamixel` uses the Dynamixel SDK.

  Every call of a port or packet handler is a command that may be answered anyhow; so are the
  readings of the steady clock. Sleeping and logging are left out. The definitions on a history say
  what it shows of the servos: which registers were read or written with success, and what the
  sync write, whose parameters `addParam` appends and `clearParam` drops, has sent.
-/
import Hummingbird.Library.Dialogue
import Hummingbird.Params

namespace Hummingbird

open Dialogue

/-- A call of the SDK or of the steady clock. -/
inductive BusCommand
  | getPortHandler
  | getPacketHandler
  | closePort
  | openPort
  | setBaudRate
  | steadyNow
  | ping (id : UInt8)
  | write1 (id : UInt8) (address : UInt16) (value : UInt8)
  | write2 (id : UInt8) (address : UInt16) (value : UInt16)
  | read1 (id : UInt8) (address : UInt16)
  | read4 (id : UInt8) (address : UInt16)
  | clearParam
  | addParam (id : UInt8) (data : Fin 4 → UInt8)
  | txPacket

/-- `COMM_SUCCESS`. -/
def commSuccess : ℤ := 0

/-- What the packet handler returns, and the error byte of the servo. -/
structure BusStatus where
  result : ℤ
  dxlError : UInt8

/-- The transaction has succeeded. -/
def BusStatus.Ok (status : BusStatus) : Prop := status.result = commSuccess ∧ status.dxlError = 0

instance (status : BusStatus) : Decidable status.Ok := inferInstanceAs (Decidable (_ ∧ _))

/-- The answers to a command. -/
abbrev BusCommand.Response : BusCommand → Type
  | getPortHandler => Bool
  | getPacketHandler => Bool
  | closePort => Unit
  | openPort => Bool
  | setBaudRate => Bool
  | steadyNow => Time
  | ping _ => BusStatus
  | write1 _ _ _ => BusStatus
  | write2 _ _ _ => BusStatus
  | read1 _ _ => BusStatus × UInt8
  | read4 _ _ => BusStatus × UInt32
  | clearParam => Unit
  | addParam _ _ => Bool
  | txPacket => ℤ

/-- A program on the bus. -/
abbrev Bus := Dialogue BusCommand BusCommand.Response

abbrev BusHistory := History BusCommand.Response

/-! ## Bytes -/

def dxlLoword (l : UInt32) : UInt16 := l.toUInt16
def dxlHiword (l : UInt32) : UInt16 := (l >>> 16).toUInt16
def dxlLobyte (w : UInt16) : UInt8 := w.toUInt8
def dxlHibyte (w : UInt16) : UInt8 := (w >>> 8).toUInt8

/-- The four bytes of a goal position. -/
def goalData (value : UInt32) : Fin 4 → UInt8 :=
  ![dxlLobyte (dxlLoword value), dxlHibyte (dxlLoword value), dxlLobyte (dxlHiword value),
    dxlHibyte (dxlHiword value)]

/-! ## What a history shows -/

namespace BusHistory

/-- The value of a register of one byte, if the exchange has read it. -/
def readsByte (id : UInt8) (address : UInt16) : Exchange BusCommand.Response → Option UInt8
  | ⟨.read1 id' address', response⟩ =>
    if id' = id ∧ address' = address ∧ response.1.Ok then some response.2 else none
  | _ => none

/-- The present position of a servo, if the exchange has read it. -/
def readsPosition (id : UInt8) : Exchange BusCommand.Response → Option UInt32
  | ⟨.read4 id' address', response⟩ =>
    if id' = id ∧ address' = addrPresentPosition ∧ response.1.Ok then some response.2 else none
  | _ => none

/-- The value of a register of one byte, if the exchange has written it and the servo has
    acknowledged that. -/
def writesByte (id : UInt8) (address : UInt16) : Exchange BusCommand.Response → Option UInt8
  | ⟨.write1 id' address' value, status⟩ =>
    if id' = id ∧ address' = address ∧ status.Ok then some value else none
  | _ => none

section

variable (h : BusHistory)

/-- The value of a register, as it was read last. -/
def byteRead (id : UInt8) (address : UInt16) : Option UInt8 := Past.latest (readsByte id address) h

/-- The value of a register, as it was written last with an acknowledgement. -/
def byteWritten (id : UInt8) (address : UInt16) : Option UInt8 :=
  Past.latest (writesByte id address) h

/-- The present position of a servo, as it was read last. -/
def positionRead (id : UInt8) : Option UInt32 := Past.latest (readsPosition id) h

/-- The servo has answered a ping. -/
def Pinged (id : UInt8) : Prop := ∃ status : BusStatus, status.Ok ∧ ⟨.ping id, status⟩ ∈ h

/-- The servo has acknowledged that a byte was written. -/
def Acked1 (id : UInt8) (address : UInt16) (value : UInt8) : Prop :=
  ∃ status : BusStatus, status.Ok ∧ ⟨.write1 id address value, status⟩ ∈ h

/-- The servo has acknowledged that two bytes were written. -/
def Acked2 (id : UInt8) (address : UInt16) (value : UInt16) : Prop :=
  ∃ status : BusStatus, status.Ok ∧ ⟨.write2 id address value, status⟩ ∈ h

/-- The parameters that the next sync write would carry. -/
def syncParams : BusHistory → List (UInt8 × (Fin 4 → UInt8))
  | [] => []
  | ⟨.clearParam, _⟩ :: _ => []
  | ⟨.addParam id data, added⟩ :: h => syncParams h ++ if added then [(id, data)] else []
  | _ :: h => syncParams h

/-- A sync write with these parameters has been transmitted. -/
def Sent (params : List (UInt8 × (Fin 4 → UInt8))) : Prop :=
  ∃ before : BusHistory, ⟨.txPacket, commSuccess⟩ :: before <:+ h ∧ syncParams before = params

end

/-! ## What later commands keep -/

section Keep

variable {h : BusHistory} {c : BusCommand} {r : c.Response} {id : UInt8} {address : UInt16}

theorem Pinged.cons (hp : Pinged h id) : Pinged (⟨c, r⟩ :: h) id := by
  obtain ⟨status, hok, hmem⟩ := hp
  exact ⟨status, hok, List.mem_cons_of_mem _ hmem⟩

theorem Acked1.cons {value : UInt8} (ha : Acked1 h id address value) :
    Acked1 (⟨c, r⟩ :: h) id address value := by
  obtain ⟨status, hok, hmem⟩ := ha
  exact ⟨status, hok, List.mem_cons_of_mem _ hmem⟩

theorem Acked2.cons {value : UInt16} (ha : Acked2 h id address value) :
    Acked2 (⟨c, r⟩ :: h) id address value := by
  obtain ⟨status, hok, hmem⟩ := ha
  exact ⟨status, hok, List.mem_cons_of_mem _ hmem⟩

theorem Sent.cons {params : List (UInt8 × (Fin 4 → UInt8))} (hs : Sent h params) :
    Sent (⟨c, r⟩ :: h) params := by
  obtain ⟨before, hsuffix, hparams⟩ := hs
  exact ⟨before, hsuffix.trans (List.suffix_cons _ _), hparams⟩

/-- A register keeps what was read from it until it is read again. -/
theorem byteRead_cons (hc : c ≠ .read1 id address) :
    byteRead (⟨c, r⟩ :: h) id address = byteRead h id address := by
  apply Past.latest_cons_of_none
  cases c with
  | read1 id' address' =>
    apply if_neg
    rintro ⟨rfl, rfl, -⟩
    exact hc rfl
  | _ => rfl

theorem positionRead_cons (hc : c ≠ .read4 id addrPresentPosition) :
    positionRead (⟨c, r⟩ :: h) id = positionRead h id := by
  apply Past.latest_cons_of_none
  cases c with
  | read4 id' address' =>
    apply if_neg
    rintro ⟨rfl, rfl, -⟩
    exact hc rfl
  | _ => rfl

/-- A register keeps what was written to it until it is written again. -/
theorem byteWritten_cons (hc : ∀ value, c ≠ .write1 id address value) :
    byteWritten (⟨c, r⟩ :: h) id address = byteWritten h id address := by
  apply Past.latest_cons_of_none
  cases c with
  | write1 id' address' value =>
    apply if_neg
    rintro ⟨rfl, rfl, -⟩
    exact hc value rfl
  | _ => rfl

theorem byteWritten_cons_write1 {value : UInt8} {status : BusStatus} :
    byteWritten (⟨.write1 id address value, status⟩ :: h) id address =
      if status.Ok then some value else byteWritten h id address := by
  by_cases hok : status.Ok
  · rw [if_pos hok]
    apply Past.latest_cons_of_some
    exact if_pos ⟨rfl, rfl, hok⟩
  · rw [if_neg hok]
    apply Past.latest_cons_of_none
    exact if_neg fun hw => hok hw.2.2

end Keep

end BusHistory

/-- A bus on which everything succeeds. The servos are in position control with their torque off
    and stand at 2048 counts, and the clock does not move. -/
def obligingBus : BusHistory → ∀ c : BusCommand, c.Response
  | _, .getPortHandler => true
  | _, .getPacketHandler => true
  | _, .closePort => ()
  | _, .openPort => true
  | _, .setBaudRate => true
  | _, .steadyNow => 0
  | _, .ping _ => ⟨commSuccess, 0⟩
  | _, .write1 _ _ _ => ⟨commSuccess, 0⟩
  | _, .write2 _ _ _ => ⟨commSuccess, 0⟩
  | _, .read1 _ address =>
    (⟨commSuccess, 0⟩, if address = addrOperatingMode then positionControlMode else 0)
  | _, .read4 _ _ => (⟨commSuccess, 0⟩, 2048)
  | _, .clearParam => ()
  | _, .addParam _ _ => true
  | _, .txPacket => commSuccess

end Hummingbird
