import Helics.Bytes
import Helics.ActionMessage

namespace Helics

open Bytes

/-- A command as it lies in memory: integers of fixed width and strings of bytes. -/
structure WireMessage where
  messageAction : Int32 := 0
  messageID : Int32 := 0
  sourceId : Int32 := 0
  sourceHandle : Int32 := -1700000000
  destId : Int32 := 0
  destHandle : Int32 := -1700000000
  counter : UInt16 := 0
  flags : UInt16 := 0
  sequenceID : UInt32 := 0
  actionTime : Time := .zero
  payload : List UInt8 := []
  Te : Time := .zero
  Tdemin : Time := .zero
  Tso : Time := .zero
  stringData : List (List UInt8) := []
deriving DecidableEq

namespace WireMessage

def cmdInvalid : Int32 := 1010101

def cmdTimeRequest : Int32 := 500

def cmdDisconnect : Int32 := 3

def cmdMultiMessage : Int32 := 1037

def cmdProtocol : Int32 := 60000

def cmdProtocolPriority : Int32 := -60000

def cmdProtocolBig : Int32 := 268495456

def isProtocolCommand (m : WireMessage) : Bool :=
  decide (m.messageAction = cmdProtocol) || decide (m.messageAction = cmdProtocolPriority) ||
    decide (m.messageAction = cmdProtocolBig)

def int32Bytes (le : Bool) (v : Int32) : List UInt8 := native le 4 v.toUInt32.toNat

def timeBytes (le : Bool) (t : Time) : List UInt8 :=
  native le 8 (t.ns % 18446744073709551616).toNat

def serializedByteCount (m : WireMessage) : Nat :=
  45 + m.payload.length + (if m.messageAction = cmdTimeRequest then 24 else 0) +
    (m.stringData.map (fun str => str.length + 4)).sum

/-- The size of the payload that the three length bytes can tell. -/
def payloadSize (m : WireMessage) : Nat := m.payload.length % 16777216

def stringBytes (le : Bool) (str : List UInt8) : List UInt8 := native le 4 str.length ++ str

def headerBytes (le : Bool) (m : WireMessage) : List UInt8 :=
  int32Bytes le m.messageAction ++ (int32Bytes le m.messageID ++ (int32Bytes le m.sourceId ++
    (int32Bytes le m.sourceHandle ++ (int32Bytes le m.destId ++ (int32Bytes le m.destHandle ++
    (native le 2 m.counter.toNat ++ (native le 2 m.flags.toNat ++
    (native le 4 m.sequenceID.toNat ++ timeBytes le m.actionTime))))))))

/-- Only a time request carries the three event times. -/
def eventTimeBytes (le : Bool) (m : WireMessage) : List UInt8 :=
  if m.messageAction = cmdTimeRequest then
    timeBytes le m.Te ++ (timeBytes le m.Tdemin ++ timeBytes le m.Tso)
  else []

def stringDataBytes (le : Bool) (m : WireMessage) : List UInt8 :=
  UInt8.ofNat m.stringData.length :: (m.stringData.map (stringBytes le)).flatten

/-- The first byte tells the byte order of the sender. -/
def orderByte (le : Bool) : UInt8 := if le then 1 else 0

def toByteArray (le : Bool) (m : WireMessage) : List UInt8 :=
  orderByte le :: (big3 m.payloadSize ++ (headerBytes le m ++ (eventTimeBytes le m ++
    (m.payload.take m.payloadSize ++ stringDataBytes le m))))

/-- The string is as long as announced, with zeros after the bytes that were written. -/
def toBytes (le : Bool) (m : WireMessage) : List UInt8 :=
  m.toByteArray le ++ List.replicate (m.serializedByteCount - (m.toByteArray le).length) 0

def leadingChar : UInt8 := 0xF3

def tailChar1 : UInt8 := 0xFA

def tailChar2 : UInt8 := 0xFC

def packetize (le : Bool) (m : WireMessage) : List UInt8 :=
  leadingChar :: (big3 (m.serializedByteCount + 4) ++ (m.toBytes le ++ [tailChar1, tailChar2]))

/-- The number of bytes used and the message, or nothing when the decoder throws. -/
abbrev Decoded := Option (Int × WireMessage)

def invalid (m : WireMessage) : Decoded := some (0, { m with messageAction := cmdInvalid })

def readInt32 (le : Bool) (data : List UInt8) : Int32 × List UInt8 :=
  ((UInt32.ofNat (readNat le 4 data).1).toInt32, (readNat le 4 data).2)

def readUInt16 (le : Bool) (data : List UInt8) : UInt16 × List UInt8 :=
  (UInt16.ofNat (readNat le 2 data).1, (readNat le 2 data).2)

def readUInt32 (le : Bool) (data : List UInt8) : UInt32 × List UInt8 :=
  (UInt32.ofNat (readNat le 4 data).1, (readNat le 4 data).2)

def readTime (le : Bool) (data : List UInt8) : Time × List UInt8 :=
  (.wrap (readNat le 8 data).1, (readNat le 8 data).2)

def swapInt32 (v : Int32) : Int32 := (UInt32.ofNat (swap 4 v.toUInt32.toNat)).toInt32

def swapUInt16 (v : UInt16) : UInt16 := UInt16.ofNat (swap 2 v.toNat)

def swapTime (t : Time) : Time := .wrap (swap 8 (t.ns % 18446744073709551616).toNat)

/-- The bytes of a sender with the other byte order are turned around at the end. -/
def swapBytes (m : WireMessage) : WireMessage :=
  { m with
    messageID := swapInt32 m.messageID
    sourceId := swapInt32 m.sourceId
    sourceHandle := swapInt32 m.sourceHandle
    destId := swapInt32 m.destId
    destHandle := swapInt32 m.destHandle
    counter := swapUInt16 m.counter
    flags := swapUInt16 m.flags
    actionTime := swapTime m.actionTime
    Te := if m.messageAction = cmdTimeRequest then swapTime m.Te else m.Te
    Tdemin := if m.messageAction = cmdTimeRequest then swapTime m.Tdemin else m.Tdemin
    Tso := if m.messageAction = cmdTimeRequest then swapTime m.Tso else m.Tso }

def readHeader (le order : Bool) (m : WireMessage) (data : List UInt8) : WireMessage × List UInt8 :=
  let action := readInt32 le data
  let messageID := readInt32 le action.2
  let sourceId := readInt32 le messageID.2
  let sourceHandle := readInt32 le sourceId.2
  let destId := readInt32 le sourceHandle.2
  let destHandle := readInt32 le destId.2
  let counter := readUInt16 le destHandle.2
  let flags := readUInt16 le counter.2
  let sequenceID := readUInt32 le flags.2
  let actionTime := readTime le sequenceID.2
  ({ m with
    messageAction := if order then action.1 else swapInt32 action.1
    messageID := messageID.1
    sourceId := sourceId.1
    sourceHandle := sourceHandle.1
    destId := destId.1
    destHandle := destHandle.1
    counter := counter.1
    flags := flags.1
    sequenceID := sequenceID.1
    actionTime := actionTime.1 }, actionTime.2)

def readEventTimes (le : Bool) (m : WireMessage) (data : List UInt8) : WireMessage × List UInt8 :=
  if m.messageAction = cmdTimeRequest then
    let te := readTime le data
    let tdemin := readTime le te.2
    let tso := readTime le tdemin.2
    ({ m with Te := te.1, Tdemin := tdemin.1, Tso := tso.1 }, tso.2)
  else ({ m with Te := .zero, Tdemin := .zero, Tso := .zero }, data)

/-- An empty payload leaves the one that the object had. -/
def readPayload (m : WireMessage) (sz : Nat) (data : List UInt8) : WireMessage × List UInt8 :=
  if 0 < sz then ({ m with payload := data.take sz }, data.drop sz) else (m, data)

/-- The size of the strings read so far is counted in a 32-bit `int`. -/
def addSize (tsize : Int) (ssize : Nat) : Int := (tsize + ssize).bmod 4294967296

/-- Fills the slots one after the other until the buffer is too short. -/
def readStrings (le order : Bool) (bufferSize : Nat) :
    List (List UInt8) → Int → List UInt8 → Bool × Int × List (List UInt8)
  | [], tsize, _ => (true, tsize, [])
  | slot :: slots, tsize, data =>
    let size := (readNat le 4 data).1
    let ssize := if order then size else swap 4 size
    let rest := (readNat le 4 data).2
    if bufferSize < addSize tsize ssize then (false, addSize tsize ssize, slot :: slots)
    else
      let r := readStrings le order bufferSize slots (addSize tsize ssize) (rest.drop ssize)
      (r.1, r.2.1, rest.take ssize :: r.2.2)

def resize (slots : List (List UInt8)) (n : Nat) : List (List UInt8) :=
  slots.take n ++ List.replicate (n - slots.length) []

/-- The number of strings is read as a `char`, which is signed; a negative size cannot be
reserved. -/
def readStringData (le order : Bool) (bufferSize : Nat) (m : WireMessage) (tsize : Nat) :
    List UInt8 → Decoded
  | [] => m.invalid
  | count :: data =>
    let stringCount := count.toInt8.toInt
    if stringCount < 0 then none
    else if stringCount = 0 then
      some (tsize, if order then { m with stringData := [] }
        else swapBytes { m with stringData := [] })
    else
      let slots := resize m.stringData stringCount.toNat
      if bufferSize < tsize + 4 * stringCount.toNat then invalid { m with stringData := slots }
      else
        let r := readStrings le order bufferSize slots (tsize + 4 * stringCount) data
        let m := { m with stringData := r.2.2 }
        if r.1 then some (r.2.1, if order then m else m.swapBytes) else m.invalid

def eventTimeSize (m : WireMessage) : Nat := if m.messageAction = cmdTimeRequest then 24 else 0

/-- Decoding after the length of the buffer and the framing have been looked at. -/
def readBody (le : Bool) (m : WireMessage) (data : List UInt8) : Decoded :=
  let sz := ofBig3 (data.getD 1 0) (data.getD 2 0) (data.getD 3 0)
  if data.length < 45 + sz then m.invalid
  else
    let order := decide (data.getD 0 0 = orderByte le)
    let header := readHeader le order m (data.drop 4)
    if data.length < 45 + sz + header.1.eventTimeSize then header.1.invalid
    else
      let times := readEventTimes le header.1 header.2
      let body := readPayload times.1 sz times.2
      readStringData le order data.length body.1 (45 + sz + header.1.eventTimeSize) body.2

def unpack (decode : WireMessage → List UInt8 → Decoded) (m : WireMessage) (data : List UInt8) :
    Decoded :=
  let messageSize := ofBig3 (data.getD 1 0) (data.getD 2 0) (data.getD 3 0)
  if data.getD 0 0 ≠ leadingChar then some (0, m)
  else if data.length < 6 then some (0, m)
  else if data.length < messageSize + 2 then some (0, m)
  else if data.getD messageSize 0 ≠ tailChar1 then some (0, m)
  else if data.getD (messageSize + 1) 0 ≠ tailChar2 then some (0, m)
  else (decode m ((data.drop 4).take (messageSize - 4))).map fun r =>
    (if 0 < r.1 then (messageSize : Int) + 2 else 0, r.2)

/-- A buffer that starts like a packet is unpacked first; the fuel bounds how deep packets nest. -/
def decodeWithin (le : Bool) : Nat → WireMessage → List UInt8 → Decoded
  | 0, m, data => if data.length < 45 then m.invalid else m.readBody le data
  | fuel + 1, m, data =>
    if data.length < 45 then m.invalid
    else if data.getD 0 0 = leadingChar then
      (unpack (decodeWithin le fuel) m data).bind fun r =>
        if 0 < r.1 then some r else r.2.readBody le data
    else m.readBody le data

def fromByteArray (le : Bool) (m : WireMessage) (data : List UInt8) : Decoded :=
  decodeWithin le data.length m data

def depacketize (le : Bool) (m : WireMessage) (data : List UInt8) : Decoded :=
  unpack (fromByteArray le) m data

end WireMessage

end Helics
