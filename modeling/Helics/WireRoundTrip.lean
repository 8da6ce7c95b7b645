import Mathlib.Data.List.GetD
import Helics.WireMessage

namespace Helics

open Bytes

namespace WireMessage

def turnInt32 (same : Bool) (v : Int32) : Int32 := if same then v else swapInt32 v

def turnUInt16 (same : Bool) (v : UInt16) : UInt16 := if same then v else swapUInt16 v

def turnUInt32 (same : Bool) (v : UInt32) : UInt32 :=
  if same then v else UInt32.ofNat (swap 4 v.toNat)

def turnTime (same : Bool) (t : Time) : Time := if same then t else swapTime t

variable (le same : Bool)

theorem readInt32_append (v : Int32) (rest : List UInt8) :
    readInt32 (reader le same) (int32Bytes le v ++ rest) = (turnInt32 same v, rest) := by
  unfold readInt32 int32Bytes
  rw [readNat_append le same (show _ < 256 ^ 4 from v.toUInt32.toNat_lt) rest]
  cases same
  · rfl
  · exact congrArg (fun u => (UInt32.toInt32 u, rest)) (UInt32.ofNat_toNat)

theorem readUInt32_append (v : UInt32) (rest : List UInt8) :
    readUInt32 (reader le same) (native le 4 v.toNat ++ rest) = (turnUInt32 same v, rest) := by
  unfold readUInt32
  rw [readNat_append le same (show _ < 256 ^ 4 from v.toNat_lt) rest]
  cases same
  · rfl
  · exact congrArg (fun u => (u, rest)) (UInt32.ofNat_toNat)

theorem readUInt16_append (v : UInt16) (rest : List UInt8) :
    readUInt16 (reader le same) (native le 2 v.toNat ++ rest) = (turnUInt16 same v, rest) := by
  unfold readUInt16
  rw [readNat_append le same (show _ < 256 ^ 2 from v.toNat_lt) rest]
  cases same
  · rfl
  · exact congrArg (fun u => (u, rest)) (UInt16.ofNat_toNat)

theorem wrap_emod (t : Time) : Time.wrap ((t.ns % 18446744073709551616).toNat : Int) = t := by
  have hpos := Int.emod_nonneg t.ns (show (18446744073709551616 : Int) ≠ 0 by decide)
  rw [Int.toNat_of_nonneg hpos]
  refine (Time.ext ?_).trans (Time.wrap_ns t)
  exact Int.emod_bmod _ _

theorem timeNat_lt (t : Time) : (t.ns % 18446744073709551616).toNat < 256 ^ 8 := by
  have hlt := Int.emod_lt_of_pos t.ns (show (0 : Int) < 18446744073709551616 by decide)
  omega

theorem readTime_append (t : Time) (rest : List UInt8) :
    readTime (reader le same) (timeBytes le t ++ rest) = (turnTime same t, rest) := by
  unfold readTime timeBytes
  rw [readNat_append le same (timeNat_lt t) rest]
  cases same
  · rfl
  · exact congrArg (fun u => (u, rest)) (wrap_emod t)

theorem swapInt32_swapInt32 (v : Int32) : swapInt32 (swapInt32 v) = v := by
  have hback : (swapInt32 v).toUInt32.toNat = swap 4 v.toUInt32.toNat :=
    UInt32.toNat_ofNat_of_lt' (show _ < UInt32.size from swap_lt 4 _)
  rw [swapInt32, hback, swap_swap (show _ < 256 ^ 4 from v.toUInt32.toNat_lt), UInt32.ofNat_toNat]
  rfl

theorem swapUInt16_swapUInt16 (v : UInt16) : swapUInt16 (swapUInt16 v) = v := by
  have hback : (swapUInt16 v).toNat = swap 2 v.toNat :=
    UInt16.toNat_ofNat_of_lt' (show _ < UInt16.size from swap_lt 2 _)
  rw [swapUInt16, hback, swap_swap (show _ < 256 ^ 2 from v.toNat_lt), UInt16.ofNat_toNat]

theorem emod_wrap {n : Nat} (h : n < 18446744073709551616) :
    ((Time.wrap n).ns % 18446744073709551616).toNat = n := by
  have hmod : (n : Int).bmod 18446744073709551616 % ((18446744073709551616 : Nat) : Int) = _ :=
    Int.bmod_emod
  unfold Time.wrap
  rw [show (18446744073709551616 : Int) = ((18446744073709551616 : Nat) : Int) from rfl, hmod]
  omega

theorem swapTime_swapTime (t : Time) : swapTime (swapTime t) = t := by
  have hback : ((swapTime t).ns % 18446744073709551616).toNat =
      swap 8 (t.ns % 18446744073709551616).toNat := emod_wrap (swap_lt 8 _)
  rw [swapTime, hback, swap_swap (timeNat_lt t), wrap_emod]

def received (m : WireMessage) : WireMessage :=
  { m with
    Te := if m.messageAction = cmdTimeRequest then m.Te else .zero
    Tdemin := if m.messageAction = cmdTimeRequest then m.Tdemin else .zero
    Tso := if m.messageAction = cmdTimeRequest then m.Tso else .zero }

/-- The header of a message written over an object that keeps its other fields. -/
def headerOver (old m : WireMessage) : WireMessage :=
  { m with
    payload := old.payload
    Te := old.Te
    Tdemin := old.Tdemin
    Tso := old.Tso
    stringData := old.stringData }

/-- A message as it is read before its bytes are turned around. -/
def turned (same : Bool) (m : WireMessage) : WireMessage :=
  { m with
    messageID := turnInt32 same m.messageID
    sourceId := turnInt32 same m.sourceId
    sourceHandle := turnInt32 same m.sourceHandle
    destId := turnInt32 same m.destId
    destHandle := turnInt32 same m.destHandle
    counter := turnUInt16 same m.counter
    flags := turnUInt16 same m.flags
    sequenceID := turnUInt32 same m.sequenceID
    actionTime := turnTime same m.actionTime
    Te := turnTime same m.Te
    Tdemin := turnTime same m.Tdemin
    Tso := turnTime same m.Tso }

theorem readHeader_append (old m : WireMessage) (rest : List UInt8) :
    readHeader (reader le same) same old (headerBytes le m ++ rest) =
      (headerOver old (m.turned same), rest) := by
  have haction : (if same then turnInt32 same m.messageAction
      else swapInt32 (turnInt32 same m.messageAction)) = m.messageAction := by
    cases same
    · exact swapInt32_swapInt32 _
    · rfl
  simp only [readHeader, headerBytes, headerOver, turned, List.append_assoc, readInt32_append,
    readUInt16_append, readUInt32_append, readTime_append, haction]

theorem readEventTimes_append (m m' : WireMessage)
    (h : m'.messageAction = m.messageAction) (rest : List UInt8) :
    readEventTimes (reader le same) m' (eventTimeBytes le m ++ rest) = ({ m' with
        Te := (m.turned same).received.Te
        Tdemin := (m.turned same).received.Tdemin
        Tso := (m.turned same).received.Tso }, rest) := by
  unfold readEventTimes eventTimeBytes received turned
  rw [h]
  by_cases ht : m.messageAction = cmdTimeRequest
  · simp only [if_pos ht, List.append_assoc, readTime_append]
  · simp only [if_neg ht, List.nil_append]

variable (m : WireMessage)

theorem swapBytes_turned (same : Bool) (m : WireMessage) (payload : List UInt8) :
    (if same then { (m.turned same).received with payload := payload }
      else swapBytes { (m.turned same).received with payload := payload }) =
      { m.received with payload := payload, sequenceID := turnUInt32 same m.sequenceID } := by
  cases same with
  | true => rfl
  | false =>
    unfold swapBytes received turned turnInt32 turnUInt16 turnTime
    by_cases ht : m.messageAction = cmdTimeRequest
    · simp [ht, swapInt32_swapInt32, swapUInt16_swapUInt16, swapTime_swapTime]
    · simp [ht, swapInt32_swapInt32, swapUInt16_swapUInt16, swapTime_swapTime]

theorem readPayload_append (payload rest : List UInt8) :
    readPayload m payload.length (payload ++ rest) =
      ({ m with payload := if payload = [] then m.payload else payload }, rest) := by
  unfold readPayload
  cases payload with
  | nil => rfl
  | cons b payload =>
    rw [if_pos (by simp), List.take_left' rfl, List.drop_left' rfl, if_neg (List.cons_ne_nil _ _)]

theorem addSize_of_fits {tsize : Int} {ssize : Nat} (h₁ : 0 ≤ tsize)
    (h₂ : tsize + ssize < 2147483648) :
    addSize tsize ssize = tsize + ssize :=
  Int.bmod_eq_of_le (by omega) (by omega)

theorem readStrings_append (bufferSize : Nat) (strs slots : List (List UInt8))
    (tsize : Int) (rest : List UInt8) (hlen : slots.length = strs.length) (h₀ : 0 ≤ tsize)
    (h : tsize + ((strs.map List.length).sum : Nat) ≤ bufferSize) (hb : bufferSize < 2147483648) :
    readStrings (reader le same) same bufferSize slots tsize
        ((strs.map (stringBytes le)).flatten ++ rest) =
      (true, tsize + ((strs.map List.length).sum : Nat), strs) := by
  induction strs generalizing slots tsize with
  | nil =>
    obtain rfl := List.eq_nil_of_length_eq_zero hlen
    simp [readStrings]
  | cons str strs ih =>
    cases slots with
    | nil => cases hlen
    | cons slot slots =>
      simp only [List.map_cons, List.sum_cons] at h ⊢
      have hsize : addSize tsize str.length = tsize + str.length :=
        addSize_of_fits h₀ (by omega)
      have hlt : str.length < 256 ^ 4 := by omega
      have hread : readNat (reader le same) 4
          ((stringBytes le str :: strs.map (stringBytes le)).flatten ++ rest) =
          (turn same 4 str.length, str ++ ((strs.map (stringBytes le)).flatten ++ rest)) := by
        rw [List.flatten_cons, stringBytes, List.append_assoc, List.append_assoc]
        exact readNat_append le same hlt _
      have hturn : (if same then turn same 4 str.length else swap 4 (turn same 4 str.length)) =
          str.length := by
        cases same
        · exact swap_swap hlt
        · rfl
      have hrest := ih slots (tsize + str.length) (by simpa using hlen) (by omega) (by omega)
      unfold readStrings
      rw [hread]
      dsimp only
      rw [hturn, hsize, if_neg (by omega), List.take_left' rfl, List.drop_left' rfl, hrest]
      simp only [Int.natCast_add, Int.add_assoc]

theorem length_resize (slots : List (List UInt8)) (n : Nat) : (resize slots n).length = n := by
  unfold resize
  rw [List.length_append, List.length_take, List.length_replicate]
  omega

theorem toInt_toInt8_ofNat (n : Nat) : (UInt8.ofNat n).toInt8.toInt = (n : Int).bmod 256 := by
  have hmod : ((UInt8.ofNat n).toBitVec.toNat : Int) = (n : Int) % (256 : Nat) := by
    show ((UInt8.ofNat n).toNat : Int) = _
    rw [UInt8.toNat_ofNat']
    omega
  show (UInt8.ofNat n).toBitVec.toInt = _
  rw [BitVec.toInt_eq_toNat_bmod, hmod]
  exact Int.emod_bmod _ _

theorem signedCount_small (h : n < 128) : (UInt8.ofNat n).toInt8.toInt = (n : Int) := by
  rw [toInt_toInt8_ofNat]
  exact Int.bmod_eq_of_le (by omega) (by omega)

theorem signedCount_large (h₁ : 128 ≤ n) (h₂ : n < 256) : (UInt8.ofNat n).toInt8.toInt < 0 := by
  rw [toInt_toInt8_ofNat, Int.bmod_def]
  split <;> omega

theorem readStringData_append
    (hc : m.stringData.length < 128)
    (h : tsize + (m.stringData.map (fun str => str.length + 4)).sum = bufferSize)
    (hb : bufferSize < 2147483648) :
    readStringData (reader le same) same bufferSize m' tsize (stringDataBytes le m) =
      some ((bufferSize : Int), if same then { m' with stringData := m.stringData }
        else swapBytes { m' with stringData := m.stringData }) := by
  have hsum : (m.stringData.map (fun str => str.length + 4)).sum =
      (m.stringData.map List.length).sum + 4 * m.stringData.length := by
    generalize m.stringData = strs
    induction strs with
    | nil => rfl
    | cons str strs ih =>
      simp only [List.map_cons, List.sum_cons, List.length_cons, ih]
      omega
  unfold readStringData stringDataBytes
  dsimp only
  rw [signedCount_small hc, if_neg (by omega)]
  by_cases hz : m.stringData = []
  · rw [hz] at h ⊢
    simp only [List.map_nil, List.sum_nil, Nat.add_zero] at h
    subst h
    rfl
  have hpos : 0 < m.stringData.length := List.length_pos_iff.mpr hz
  have hread := readStrings_append le same bufferSize m.stringData
    (resize m'.stringData m.stringData.length) (tsize + 4 * (m.stringData.length : Int)) []
    (length_resize _ _) (by omega) (by omega) hb
  rw [List.append_nil] at hread
  rw [if_neg (by omega), Int.toNat_natCast, if_neg (by omega), hread]
  dsimp only
  rw [if_pos rfl]
  congr 2
  omega

theorem readStringData_throws
    (h₁ : 128 ≤ m.stringData.length) (h₂ : m.stringData.length < 256) :
    readStringData (reader le same) same bufferSize m' tsize (stringDataBytes le m) = none := by
  unfold readStringData stringDataBytes
  dsimp only
  rw [if_pos (signedCount_large h₁ h₂)]

theorem length_stringDataBytes (le : Bool) (m : WireMessage) : (stringDataBytes le m).length =
    1 + (m.stringData.map (fun str => str.length + 4)).sum := by
  have hlen : ∀ str, (stringBytes le str).length = str.length + 4 := by
    intro str
    rw [stringBytes, List.length_append, length_native, Nat.add_comm]
  rw [stringDataBytes, List.length_cons, List.length_flatten, List.map_map, Nat.add_comm]
  congr 2
  exact List.map_congr_left fun str _ => hlen str

theorem length_headerBytes (le : Bool) (m : WireMessage) : (headerBytes le m).length = 40 := by
  simp [headerBytes, int32Bytes, timeBytes]

theorem length_eventTimeBytes (le : Bool) (m : WireMessage) :
    (eventTimeBytes le m).length = m.eventTimeSize := by
  unfold eventTimeBytes eventTimeSize
  split
  · simp [timeBytes]
  · rfl

section
variable {m : WireMessage} (le : Bool) (hp : m.payload.length < 16777216)
include hp

theorem payloadSize_eq : m.payloadSize = m.payload.length := Nat.mod_eq_of_lt hp

theorem take_payloadSize : m.payload.take m.payloadSize = m.payload := by
  rw [payloadSize_eq hp]
  exact List.take_length

theorem length_toByteArray : (m.toByteArray le).length = m.serializedByteCount := by
  unfold toByteArray serializedByteCount
  rw [take_payloadSize hp]
  simp only [List.length_cons, List.length_append, length_big3, length_headerBytes,
    length_eventTimeBytes, length_stringDataBytes, eventTimeSize]
  omega

theorem toBytes_eq : m.toBytes le = m.toByteArray le := by
  unfold toBytes
  rw [length_toByteArray le hp, Nat.sub_self, List.replicate_zero, List.append_nil]

variable (old : WireMessage)

/-- Decoding an encoding comes down to its strings. -/
theorem readBody_toByteArray (same : Bool) (old : WireMessage) :
    old.readBody (reader le same) (m.toByteArray le) =
      readStringData (reader le same) same m.serializedByteCount
      { (m.turned same).received with
        payload := if m.payload = [] then old.payload else m.payload
        stringData := old.stringData }
      (45 + m.payload.length + m.eventTimeSize) (stringDataBytes le m) := by
  have hsz : ofBig3 ((m.toByteArray le).getD 1 0) ((m.toByteArray le).getD 2 0)
      ((m.toByteArray le).getD 3 0) = m.payload.length := by
    rw [← payloadSize_eq hp]
    exact ofBig3_big3 (Nat.mod_lt _ (by decide))
  have hdrop : (m.toByteArray le).drop 4 = headerBytes le m ++ (eventTimeBytes le m ++
      (m.payload ++ stringDataBytes le m)) := by
    have h : (m.toByteArray le).drop 4 = headerBytes le m ++ (eventTimeBytes le m ++
      (m.payload.take m.payloadSize ++ stringDataBytes le m)) := rfl
    rw [h, take_payloadSize hp]
  have horder : decide ((m.toByteArray le).getD 0 0 = orderByte (reader le same)) = same := by
    show decide (orderByte le = orderByte (reader le same)) = same
    cases le <;> cases same <;> rfl
  have htimes : serializedByteCount m = 45 + m.payload.length + m.eventTimeSize +
    (m.stringData.map (fun str => str.length + 4)).sum := rfl
  unfold readBody
  dsimp only
  rw [hsz, hdrop, horder, length_toByteArray le hp, readHeader_append, if_neg (by omega)]
  rw [if_neg (by rw [htimes]; exact Nat.not_lt.mpr (Nat.le_add_right _ _)),
    readEventTimes_append le same m (headerOver old (m.turned same)) rfl, readPayload_append]
  rfl

theorem readBody_reads (same : Bool) (old : WireMessage) (hc : m.stringData.length < 128)
    (hs : m.serializedByteCount < 2147483648) :
    old.readBody (reader le same) (m.toByteArray le) = some ((m.serializedByteCount : Int),
      { m.received with
        payload := if m.payload = [] then old.payload else m.payload
        sequenceID := turnUInt32 same m.sequenceID }) := by
  have hsum : 45 + m.payload.length + m.eventTimeSize +
      (m.stringData.map (fun str => str.length + 4)).sum = m.serializedByteCount := rfl
  rw [readBody_toByteArray le hp, readStringData_append le same m hc hsum hs, ← swapBytes_turned]
  rfl

theorem readBody_returns (hc : m.stringData.length < 128)
    (hs : m.serializedByteCount < 2147483648) :
    old.readBody le (m.toByteArray le) = some ((m.serializedByteCount : Int),
      { m.received with payload := if m.payload = [] then old.payload else m.payload }) :=
  readBody_reads le hp true old hc hs

theorem readBody_throws (h₁ : 128 ≤ m.stringData.length)
    (h₂ : m.stringData.length < 256) : old.readBody le (m.toByteArray le) = none :=
  (readBody_toByteArray le hp true old).trans (readStringData_throws le true m h₁ h₂)

theorem fromByteArray_toBytes :
    old.fromByteArray order (m.toBytes le) = old.readBody order (m.toByteArray le) := by
  have hlen : ¬ (m.toByteArray le).length < 45 := by
    rw [length_toByteArray le hp, serializedByteCount]
    omega
  have hfirst : ¬ (m.toByteArray le).getD 0 0 = leadingChar := by
    show ¬ orderByte le = leadingChar
    cases le <;> decide
  rw [toBytes_eq le hp]
  unfold fromByteArray
  cases (m.toByteArray le).length with
  | zero => exact if_neg hlen
  | succ n => exact (if_neg hlen).trans (if_neg hfirst)

theorem depacketize_packetize (rest : List UInt8) (hs : m.serializedByteCount + 4 < 16777216) :
    old.depacketize le (m.packetize le ++ rest) = (old.fromByteArray le (m.toBytes le)).map fun r =>
      (if 0 < r.1 then ((m.packetize le).length : Int) else 0, r.2) := by
  have hbytes : (m.toBytes le).length = m.serializedByteCount := by
    rw [toBytes_eq le hp, length_toByteArray le hp]
  have hlen : (m.packetize le).length = m.serializedByteCount + 6 := by
    simp [packetize, hbytes]
    omega
  have hsize : ofBig3 ((m.packetize le ++ rest).getD 1 0) ((m.packetize le ++ rest).getD 2 0)
      ((m.packetize le ++ rest).getD 3 0) = m.serializedByteCount + 4 := ofBig3_big3 hs
  have hsplit : m.packetize le ++ rest =
      (leadingChar :: (big3 (m.serializedByteCount + 4) ++ m.toBytes le)) ++
        (tailChar1 :: tailChar2 :: rest) := by
    simp [packetize]
  have hfront : (leadingChar :: (big3 (m.serializedByteCount + 4) ++ m.toBytes le)).length =
      m.serializedByteCount + 4 := by
    simp only [List.length_cons, List.length_append, length_big3, hbytes]
    omega
  have htail₁ : (m.packetize le ++ rest).getD (m.serializedByteCount + 4) 0 = tailChar1 := by
    rw [hsplit, List.getD_append_right _ _ _ _ hfront.le, hfront, Nat.sub_self]
    rfl
  have htail₂ : (m.packetize le ++ rest).getD (m.serializedByteCount + 4 + 1) 0 = tailChar2 := by
    rw [hsplit, List.getD_append_right _ _ _ _ (by omega), hfront, Nat.add_sub_cancel_left]
    rfl
  have hframe : ((m.packetize le ++ rest).drop 4).take (m.serializedByteCount + 4 - 4) =
      m.toBytes le := by
    have hd : (m.packetize le ++ rest).drop 4 = (m.toBytes le ++ [tailChar1, tailChar2]) ++ rest :=
      rfl
    rw [hd, List.append_assoc, Nat.add_sub_cancel, List.take_left' hbytes]
  have hfirst : (m.packetize le ++ rest).getD 0 0 = leadingChar := rfl
  have hsum : ((m.serializedByteCount + 4 : Nat) : Int) + 2 =
    (m.serializedByteCount + 6 : Nat) := by
    omega
  unfold depacketize unpack
  dsimp only
  rw [hsize, hframe, hfirst, htail₁, htail₂, List.length_append, hlen, if_neg (by simp),
    if_neg (by omega), if_neg (by omega), if_neg (by simp), if_neg (by simp), hsum]

end

structure Agrees (m' m : WireMessage) : Prop where
  messageAction : m'.messageAction = m.messageAction
  messageID : m'.messageID = m.messageID
  sourceId : m'.sourceId = m.sourceId
  sourceHandle : m'.sourceHandle = m.sourceHandle
  destId : m'.destId = m.destId
  destHandle : m'.destHandle = m.destHandle
  counter : m'.counter = m.counter
  flags : m'.flags = m.flags
  actionTime : m'.actionTime = m.actionTime
  payload : m'.payload = m.payload
  stringData : m'.stringData = m.stringData
  eventTimes : m.messageAction = cmdTimeRequest →
    m'.Te = m.Te ∧ m'.Tdemin = m.Tdemin ∧ m'.Tso = m.Tso

theorem received_agrees : m.received.Agrees m :=
  ⟨rfl, rfl, rfl, rfl, rfl, rfl, rfl, rfl, rfl, rfl, rfl,
    fun h => ⟨if_pos h, if_pos h, if_pos h⟩⟩

theorem agrees_iff_payload (old m : WireMessage) (sequenceID : UInt32) :
    ({ m.received with
      payload := if m.payload = [] then old.payload else m.payload
      sequenceID := sequenceID } : WireMessage).Agrees m ↔ m.payload ≠ [] ∨ old.payload = [] := by
  constructor
  · intro ha
    by_cases hz : m.payload = []
    · have h := ha.payload
      rw [if_pos hz, hz] at h
      exact .inr h
    · exact .inl hz
  · intro hread
    refine { m.received_agrees with payload := ?_ }
    split
    · rename_i hz
      exact (hread.resolve_left (fun h => h hz)).trans hz.symm
    · rfl

/-- What has to hold for a message to survive the wire. -/
def Readable (old m : WireMessage) : Prop :=
  m.stringData.length ≤ 127 ∧ (m.payload ≠ [] ∨ old.payload = [])

theorem agrees_iff_readable (le : Bool) (old m : WireMessage) (hp : m.payload.length < 16777216)
    (hc : m.stringData.length ≤ 255) (hs : m.serializedByteCount < 2147483648) :
    (∃ m', old.readBody le (m.toByteArray le) = some ((m.serializedByteCount : Int), m') ∧
      m'.Agrees m) ↔ Readable old m := by
  by_cases hfew : m.stringData.length < 128
  · rw [readBody_returns le hp old hfew hs]
    constructor
    · rintro ⟨m', heq, ha⟩
      cases heq
      exact ⟨by omega, (agrees_iff_payload old m _).mp ha⟩
    · rintro ⟨_, hread⟩
      exact ⟨_, rfl, (agrees_iff_payload old m _).mpr hread⟩
  · rw [readBody_throws le hp old (by omega) (by omega)]
    constructor
    · rintro ⟨_, heq, _⟩
      cases heq
    · rintro ⟨h, _⟩
      omega

/-- A message with at most 255 strings comes back from its bytes and from its packet, with all of
them used, exactly when it has at most 127 strings and does not need to clear an old payload. -/
theorem round_trip_iff (le : Bool) (old m : WireMessage) (hp : m.payload.length < 16777216)
    (hc : m.stringData.length ≤ 255) (hs : m.serializedByteCount < 16777212) :
    ((∃ m', old.fromByteArray le (m.toBytes le) = some (((m.toBytes le).length : Int), m') ∧
        m'.Agrees m) ↔ Readable old m) ∧
      ((∃ m', old.depacketize le (m.packetize le) = some (((m.packetize le).length : Int), m') ∧
        m'.Agrees m) ↔ Readable old m) := by
  have hbody := agrees_iff_readable le old m hp hc (by omega)
  have hpack := depacketize_packetize le hp old [] (by omega)
  rw [List.append_nil] at hpack
  constructor
  · rw [fromByteArray_toBytes le hp, toBytes_eq le hp, length_toByteArray le hp]
    exact hbody
  · rw [hpack, fromByteArray_toBytes le hp, ← hbody]
    constructor
    · rintro ⟨m', heq, ha⟩
      obtain ⟨⟨n, m''⟩, hr, heq⟩ := Option.map_eq_some_iff.mp heq
      obtain ⟨-, rfl⟩ := Prod.mk.inj heq
      by_cases hfew : m.stringData.length < 128
      · rw [readBody_returns le hp old hfew (by omega)] at hr ⊢
        cases hr
        exact ⟨_, rfl, ha⟩
      · rw [readBody_throws le hp old (by omega) (by omega)] at hr
        cases hr
    · rintro ⟨m', heq, ha⟩
      have hpos : (0 : Int) < m.serializedByteCount := by
        unfold serializedByteCount
        omega
      rw [heq]
      refine ⟨m', ?_, ha⟩
      rw [Option.map_some]
      rw [if_pos hpos]

def withStrings (strs : List (List UInt8)) : WireMessage where
  messageAction := cmdTimeRequest
  payload := [1, 2, 3]
  stringData := strs

/-- On a machine of the other byte order a message comes back with its sequence number exactly when
this number reads the same both ways, unless an old payload has to be cleared. -/
theorem other_order_iff (le : Bool) (old m : WireMessage) (hp : m.payload.length < 16777216)
    (hc : m.stringData.length ≤ 127) (hs : m.serializedByteCount < 2147483648) :
    (∃ m', old.fromByteArray (!le) (m.toBytes le) = some (((m.toBytes le).length : Int), m') ∧
        m'.Agrees m ∧ m'.sequenceID = m.sequenceID) ↔
      swap 4 m.sequenceID.toNat = m.sequenceID.toNat ∧ (m.payload ≠ [] ∨ old.payload = []) := by
  have hread : old.fromByteArray (!le) (m.toBytes le) = _ :=
    (fromByteArray_toBytes le hp old).trans (readBody_reads le hp false old (by omega) hs)
  have hsequence : turnUInt32 false m.sequenceID = m.sequenceID ↔
      swap 4 m.sequenceID.toNat = m.sequenceID.toNat := by
    rw [← UInt32.toNat_inj]
    show (UInt32.ofNat _).toNat = _ ↔ _
    rw [UInt32.toNat_ofNat_of_lt' (show _ < UInt32.size from swap_lt 4 _)]
  rw [hread, toBytes_eq le hp, length_toByteArray le hp, ← hsequence]
  constructor
  · rintro ⟨m', heq, ha, hseq⟩
    cases heq
    exact ⟨hseq, (agrees_iff_payload old m _).mp ha⟩
  · rintro ⟨hseq, hpay⟩
    exact ⟨_, rfl, (agrees_iff_payload old m _).mpr hpay, hseq⟩

theorem other_order_zero : ∃ m' : WireMessage,
    fromByteArray false {} ((withStrings [[65]]).toBytes true) =
      some ((((withStrings [[65]]).toBytes true).length : Int), m') ∧
        m'.Agrees (withStrings [[65]]) ∧ m'.sequenceID = (withStrings [[65]]).sequenceID :=
  (other_order_iff true {} (withStrings [[65]]) (by decide) (by decide) (by decide)).mpr
    ⟨by decide, .inr rfl⟩

/-- The sequence number 1 arrives as 16777216. -/
theorem sequence_number_turned :
    ((fromByteArray false {} (toBytes true { sequenceID := 1 })).map fun r => r.2.sequenceID) =
      some 16777216 := by
  decide +kernel

theorem round_trip_two : ∃ m' : WireMessage,
    fromByteArray true {} ((withStrings [[65], []]).toBytes true) =
      some ((((withStrings [[65], []]).toBytes true).length : Int), m') ∧
        m'.Agrees (withStrings [[65], []]) :=
  (round_trip_iff true {} (withStrings [[65], []]) (by decide) (by decide) (by decide)).1.mpr
    ⟨by decide, .inl (by decide)⟩

/-- One string more than a signed count can tell makes the decoder throw, and an empty payload does
not replace the one that the object has. -/
theorem round_trip_fails :
    fromByteArray true {} ((withStrings (List.replicate 128 [])).toBytes true) = none ∧
    fromByteArray true { payload := [7] } (({} : WireMessage).toBytes true) =
      some (45, { payload := [7] }) := by
  decide +kernel

end WireMessage

end Helics
