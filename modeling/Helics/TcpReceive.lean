import Helics.WireRoundTrip

namespace Helics

open Bytes WireMessage

structure Reception where
  used : Nat := 0
  callback : List WireMessage := []
  protocol : List WireMessage := []

namespace TcpComms

/-- Protocol commands are answered by the communication layer, all others go to the callback. -/
def dispatch (m : WireMessage) (used : Nat) (r : Reception) : Reception :=
  if m.isProtocolCommand then
    { r with used := used + r.used, protocol := m :: r.protocol }
  else { r with used := used + r.used, callback := m :: r.callback }

/-- The loop over the received bytes, which stops at the first incomplete packet. -/
def receiveLoop (le : Bool) : Nat → List UInt8 → Option Reception
  | 0, _ => some {}
  | fuel + 1, data =>
    if data = [] then some {}
    else (depacketize le {} data).bind fun r =>
      if r.1 = 0 then some {}
      else (receiveLoop le fuel (data.drop r.1.toNat)).map (dispatch r.2 r.1.toNat)

def dataReceive (le : Bool) (data : List UInt8) : Option Reception :=
  receiveLoop le data.length data

end TcpComms

/-- The receiving side of a connection: its buffer and how much of it is left over. -/
structure TcpConnection where
  data : List UInt8
  residBufferSize : Nat := 0

namespace TcpConnection

def create (bufferSize : Nat) : TcpConnection := { data := List.replicate bufferSize 0 }

def store (c : TcpConnection) (chunk : List UInt8) : List UInt8 :=
  c.data.take c.residBufferSize ++ (chunk ++ c.data.drop (c.residBufferSize + chunk.length))

/-- The unused bytes are moved to the front of the buffer. -/
def afterUse (data : List UInt8) (total used : Nat) : TcpConnection :=
  if used < total then
    ⟨if 0 < used then (data.take total).drop used ++ data.drop (total - used) else data,
      total - used⟩
  else ⟨List.replicate data.length 0, 0⟩

def handleRead (le : Bool) (c : TcpConnection) (chunk : List UInt8) :
    Option (TcpConnection × Reception) :=
  let total := c.residBufferSize + chunk.length
  (TcpComms.dataReceive le ((c.store chunk).take total)).map fun r =>
    (afterUse (c.store chunk) total r.used, r)

/-- A read never delivers more than the free part of the buffer. -/
def Fits (le : Bool) : TcpConnection → List (List UInt8) → Prop
  | _, [] => True
  | c, chunk :: chunks => c.residBufferSize + chunk.length ≤ c.data.length ∧
      ∀ r, c.handleRead le chunk = some r → Fits le r.1 chunks

instance decidableFits (le : Bool) : ∀ c chunks, Decidable (Fits le c chunks)
  | _, [] => isTrue trivial
  | c, chunk :: chunks =>
    match h : c.handleRead le chunk with
    | none => decidable_of_iff (c.residBufferSize + chunk.length ≤ c.data.length)
        ⟨fun hr => ⟨hr, fun _ hr' => nomatch h.symm.trans hr'⟩, And.left⟩
    | some r =>
      have := decidableFits le r.1 chunks
      decidable_of_iff (c.residBufferSize + chunk.length ≤ c.data.length ∧ Fits le r.1 chunks)
        ⟨fun hr => ⟨hr.1, fun _ hr' => Option.some.inj (h.symm.trans hr') ▸ hr.2⟩,
          fun hr => ⟨hr.1, hr.2 r h⟩⟩

def handleReads (le : Bool) : TcpConnection → List (List UInt8) →
    Option (TcpConnection × List WireMessage)
  | c, [] => some (c, [])
  | c, chunk :: chunks => (c.handleRead le chunk).bind fun r =>
      (handleReads le r.1 chunks).map fun s => (s.1, r.2.callback ++ s.2)

def residual (c : TcpConnection) : List UInt8 := c.data.take c.residBufferSize

end TcpConnection

namespace WireMessage

/-- The messages that a connection with a buffer of `n` bytes can receive. -/
structure Packable (n : Nat) (m : WireMessage) : Prop where
  plain : m.isProtocolCommand = false
  strings : m.stringData.length ≤ 127
  payload : m.payload.length < 16777216
  size : ∀ le, (m.packetize le).length < 16777216
  room : ∀ le, (m.packetize le).length < n

theorem length_packetize_pos (m : WireMessage) (le : Bool) : 0 < (m.packetize le).length := by
  unfold packetize
  rw [List.length_cons]
  omega

theorem length_packetize (le : Bool) {m : WireMessage} (hp : m.payload.length < 16777216) :
    (m.packetize le).length = m.serializedByteCount + 6 := by
  have hbytes : (m.toBytes le).length = m.serializedByteCount := by
    rw [toBytes_eq le hp, length_toByteArray le hp]
  simp [packetize, hbytes]
  omega

theorem Packable.depacketize {m : WireMessage} (h : m.Packable n) (le : Bool) (rest : List UInt8) :
    WireMessage.depacketize le {} (m.packetize le ++ rest) =
      some (((m.packetize le).length : Int), m.received) := by
  have hsize := h.size le
  have hlen := length_packetize le h.payload
  have hc := h.strings
  have hpay : (if m.payload = [] then [] else m.payload) = m.payload := by
    split
    · rename_i hz
      exact hz.symm
    · rfl
  rw [depacketize_packetize le h.payload {} rest (by omega), fromByteArray_toBytes le h.payload,
    readBody_returns le h.payload {} (by omega) (by omega), hpay]
  show some (if (0 : Int) < m.serializedByteCount then _ else _, _) = _
  rw [if_pos (by unfold serializedByteCount; omega)]
  rfl

theorem Packable.depacketize_take {m : WireMessage} (h : m.Packable n) (le : Bool)
    (hk : k < (m.packetize le).length) :
    WireMessage.depacketize le {} ((m.packetize le).take k) = some (0, {}) := by
  have hsize := h.size le
  have hlen := length_packetize le h.payload
  have htake : ((m.packetize le).take k).length = k := by
    rw [List.length_take]
    omega
  unfold WireMessage.depacketize unpack
  rw [htake]
  split
  · rfl
  split
  · rfl
  rename_i hsix
  obtain ⟨j, rfl⟩ : ∃ j, k = j + 4 := ⟨k - 4, by omega⟩
  have hmsize : ofBig3 (((m.packetize le).take (j + 4)).getD 1 0)
      (((m.packetize le).take (j + 4)).getD 2 0) (((m.packetize le).take (j + 4)).getD 3 0) =
        m.serializedByteCount + 4 := ofBig3_big3 (by omega)
  rw [hmsize, if_pos (by omega)]

end WireMessage

namespace TcpComms

def stream (le : Bool) (msgs : List WireMessage) : List UInt8 := (msgs.map (packetize le)).flatten

theorem stream_cons (le : Bool) (m : WireMessage) (msgs : List WireMessage) :
    stream le (m :: msgs) = m.packetize le ++ stream le msgs := rfl

theorem stream_append (le : Bool) (l₁ l₂ : List WireMessage) :
    stream le (l₁ ++ l₂) = stream le l₁ ++ stream le l₂ := by
  unfold stream
  rw [List.map_append, List.flatten_append]

/-- Bytes that are the beginning of the packets to come, but not a whole packet. -/
def Incomplete (le : Bool) (data : List UInt8) (msgs : List WireMessage) : Prop :=
  ∀ m rest, msgs = m :: rest → data.length < (m.packetize le).length

/-- The loop uses all whole packets at the front of the bytes and nothing of the next one. -/
theorem receiveLoop_stream (msgs : List WireMessage)
    (hm : ∀ m ∈ msgs, m.Packable n) (fuel : Nat) (data rest : List UInt8)
    (hf : data.length ≤ fuel) (h : data ++ rest = stream le msgs) :
    ∃ done todo, msgs = done ++ todo ∧
      receiveLoop le fuel data = some
        { used := (stream le done).length, callback := done.map received } ∧
      data = stream le done ++ data.drop (stream le done).length ∧
      Incomplete le (data.drop (stream le done).length) todo := by
  induction msgs generalizing fuel data with
  | nil =>
    obtain ⟨rfl, -⟩ := List.append_eq_nil_iff.mp h
    refine ⟨[], [], rfl, ?_, rfl, fun _ _ h => nomatch h⟩
    cases fuel <;> rfl
  | cons m msgs ih =>
    have hm₀ := hm m List.mem_cons_self
    have hpos := m.length_packetize_pos le
    rw [stream_cons] at h
    by_cases hshort : data.length < (m.packetize le).length
    · -- the next packet is not complete
      refine ⟨[], m :: msgs, rfl, ?_, rfl, ?_⟩
      · have htake : data = (m.packetize le).take data.length := by
          have h' := congrArg (List.take data.length) h
          rwa [List.take_left' rfl, List.take_append_of_le_length hshort.le] at h'
        cases fuel with
        | zero => rfl
        | succ fuel =>
          unfold receiveLoop
          split
          · rfl
          · rw [htake, hm₀.depacketize_take le hshort]
            rfl
      · intro m' rest' heq
        obtain ⟨rfl, -⟩ := List.cons.inj heq
        exact hshort
    · -- a whole packet is used and the loop goes on behind it
      have hsplit : data = m.packetize le ++ data.drop (m.packetize le).length := by
        have h' := congrArg (List.take (m.packetize le).length) h
        rw [List.take_left' rfl, List.take_append_of_le_length (by omega)] at h'
        conv_lhs => rw [← List.take_append_drop (m.packetize le).length data, h']
      obtain ⟨fuel, rfl⟩ : ∃ k, fuel = k + 1 := ⟨fuel - 1, by omega⟩
      have hrest : data.drop (m.packetize le).length ++ rest = stream le msgs := by
        rw [hsplit, List.append_assoc] at h
        exact List.append_cancel_left h
      obtain ⟨done, todo, rfl, hloop, hdata, hinc⟩ :=
        ih (fun m' hm' => hm m' (List.mem_cons_of_mem _ hm'))
        fuel (data.drop (m.packetize le).length) (by rw [List.length_drop]; omega) hrest
      have hne : data ≠ [] := by
        intro hz
        rw [hz] at hshort
        exact hshort hpos
      refine ⟨m :: done, todo, rfl, ?_, ?_, ?_⟩
      · have hdec := hm₀.depacketize le (data.drop (m.packetize le).length)
        rw [← hsplit] at hdec
        have hplain : m.received.isProtocolCommand = false := hm₀.plain
        unfold receiveLoop
        rw [if_neg hne, hdec, Option.bind_some]
        rw [if_neg (by omega), Int.toNat_natCast, hloop, Option.map_some]
        unfold dispatch
        rw [hplain, if_neg Bool.false_ne_true, stream_cons, List.length_append]
        rfl
      · rw [stream_cons, List.length_append, ← List.drop_drop, List.append_assoc, ← hdata]
        exact hsplit
      · rw [stream_cons, List.length_append, ← List.drop_drop]
        exact hinc

end TcpComms

namespace TcpConnection

open TcpComms

theorem length_store {c : TcpConnection} (h : c.residBufferSize + chunk.length ≤ c.data.length) :
    (c.store chunk).length = c.data.length := by
  unfold store
  simp only [List.length_append, List.length_take, List.length_drop]
  omega

theorem take_store {c : TcpConnection} (h : c.residBufferSize + chunk.length ≤ c.data.length) :
    (c.store chunk).take (c.residBufferSize + chunk.length) = c.residual ++ chunk := by
  unfold store residual
  rw [← List.append_assoc]
  apply List.take_left'
  rw [List.length_append, List.length_take]
  omega

theorem residual_afterUse (data : List UInt8) (ht : total ≤ data.length) (hu : used ≤ total) :
    (afterUse data total used).residual = (data.take total).drop used ∧
      (afterUse data total used).data.length = data.length ∧
      (afterUse data total used).residBufferSize = total - used := by
  have hlen : ((data.take total).drop used).length = total - used := by
    rw [List.length_drop, List.length_take]
    omega
  unfold afterUse
  split
  · rename_i hlt
    refine ⟨?_, ?_, rfl⟩
    · unfold residual
      split
      · exact List.take_left' hlen
      · have hz : used = 0 := by omega
        subst hz
        rfl
    · dsimp only
      split
      · rw [List.length_append, hlen, List.length_drop]
        omega
      · rfl
  · have hz : used = total := by omega
    subst hz
    refine ⟨?_, List.length_replicate, (Nat.sub_self _).symm⟩
    rw [List.eq_nil_of_length_eq_zero (hlen.trans (Nat.sub_self _))]
    rfl

/-- The bytes left over are the beginning of the next packet. -/
structure Receiving (le : Bool) (n : Nat) (todo : List WireMessage) (c : TcpConnection) : Prop where
  length : c.data.length = n
  resid : c.residBufferSize ≤ n
  incomplete : Incomplete le c.residual todo

theorem Receiving.length_residual (h : Receiving le n todo c) :
    c.residual.length = c.residBufferSize := by
  unfold residual
  rw [List.length_take, h.length]
  exact Nat.min_eq_left h.resid

/-- One read passes on the messages that it completes. -/
theorem Receiving.handleRead (h : Receiving le n msgs c) (hm : ∀ m ∈ msgs, m.Packable n)
    (hfit : c.residBufferSize + chunk.length ≤ c.data.length)
    (hcut : c.residual ++ (chunk ++ rest) = stream le msgs) :
    ∃ done todo c' r, msgs = done ++ todo ∧ c.handleRead le chunk = some (c', r) ∧
      r.callback = done.map received ∧ Receiving le n todo c' ∧
      c'.residual ++ rest = stream le todo := by
  have htake := take_store hfit
  rw [← List.append_assoc] at hcut
  obtain ⟨done, todo, rfl, hloop, hdata, hinc⟩ := receiveLoop_stream msgs hm
    (c.residual ++ chunk).length (c.residual ++ chunk) rest le_rfl hcut
  have hlen : (c.residual ++ chunk).length = c.residBufferSize + chunk.length := by
    rw [List.length_append, h.length_residual]
  have hused : (stream le done).length ≤ c.residBufferSize + chunk.length := by
    rw [← hlen, hdata, List.length_append]
    omega
  obtain ⟨hres, hbuf, hsize⟩ := residual_afterUse (c.store chunk)
    (by rw [length_store hfit]; exact hfit) hused
  refine ⟨done, todo, afterUse (c.store chunk) (c.residBufferSize + chunk.length)
    (stream le done).length, { used := (stream le done).length, callback := done.map received },
    rfl, ?_, rfl, ⟨?_, ?_, ?_⟩, ?_⟩
  · unfold TcpConnection.handleRead dataReceive
    dsimp only
    rw [htake, hloop]
    rfl
  · rw [hbuf, length_store hfit, h.length]
  · rw [hsize, ← h.length]
    omega
  · rw [hres, htake]
    exact hinc
  · rw [hdata, List.append_assoc, stream_append] at hcut
    rw [hres, htake]
    exact List.append_cancel_left hcut

theorem Receiving.handleReads_rest (chunks : List (List UInt8)) (h : Receiving le n msgs c)
    (hm : ∀ m ∈ msgs, m.Packable n) (hfit : Fits le c chunks)
    (hcut : c.residual ++ (chunks.flatten ++ rest) = stream le msgs) :
    ∃ done todo c', msgs = done ++ todo ∧ c.handleReads le chunks = some (c', done.map received) ∧
      Receiving le n todo c' ∧ c'.residual ++ rest = stream le todo := by
  induction chunks generalizing c msgs with
  | nil => exact ⟨[], msgs, c, rfl, rfl, h, hcut⟩
  | cons chunk chunks ih =>
    obtain ⟨hroom, hnext⟩ := hfit
    rw [List.flatten_cons, List.append_assoc] at hcut
    obtain ⟨done, todo, c', r, rfl, hread, hcall, hrec, hrest⟩ := h.handleRead hm hroom hcut
    have htodo : ∀ m ∈ todo, m.Packable n := fun m hmem => hm m (List.mem_append_right _ hmem)
    obtain ⟨done', todo', c'', rfl, hreads, hrec', hrest'⟩ := ih hrec htodo (hnext _ hread) hrest
    refine ⟨done ++ done', todo', c'', (List.append_assoc ..).symm, ?_, hrec', hrest'⟩
    unfold TcpConnection.handleReads
    rw [hread, Option.bind_some]
    rw [hreads, Option.map_some, hcall, List.map_append]

theorem Receiving.handleReads (chunks : List (List UInt8)) (h : Receiving le n msgs c)
    (hm : ∀ m ∈ msgs, m.Packable n) (hfit : Fits le c chunks)
    (hcut : c.residual ++ chunks.flatten = stream le msgs) :
    ∃ c', c.handleReads le chunks = some (c', msgs.map received) ∧ c'.residBufferSize = 0 := by
  rw [← List.append_nil chunks.flatten] at hcut
  obtain ⟨done, todo, c', rfl, hreads, hrec, hrest⟩ := h.handleReads_rest chunks hm hfit hcut
  rw [List.append_nil] at hrest
  cases todo with
  | nil =>
    rw [List.append_nil]
    refine ⟨c', hreads, ?_⟩
    rw [← hrec.length_residual, hrest]
    rfl
  | cons m todo =>
    have hlt := hrec.incomplete m todo rfl
    rw [hrest, stream_cons, List.length_append] at hlt
    omega

theorem receiving_create (le : Bool) (n : Nat) (msgs : List WireMessage) :
    Receiving le n msgs (create n) :=
  ⟨List.length_replicate, Nat.zero_le n, fun m _ _ => m.length_packetize_pos le⟩

/-- However the packets of a list of messages are cut into reads, the callback gets exactly these
messages in their order, and no bytes are left over. -/
theorem stream_reassembled (le : Bool) (n : Nat) (msgs : List WireMessage)
    (chunks : List (List UInt8)) (hm : ∀ m ∈ msgs, m.Packable n)
    (hcut : chunks.flatten = stream le msgs) (hfit : Fits le (create n) chunks) :
    ∃ c, (create n).handleReads le chunks = some (c, msgs.map received) ∧
      c.residBufferSize = 0 := by
  have hempty : (create n).residual = [] := rfl
  have h : Receiving le n msgs (create n) := by
    refine ⟨List.length_replicate, Nat.zero_le n, ?_⟩
    intro m rest _
    rw [hempty]
    exact m.length_packetize_pos le
  exact h.handleReads chunks hm hfit (by rw [hempty]; exact hcut)

def framed : WireMessage where
  messageAction := cmdDisconnect
  payload := [tailChar1, tailChar2, leadingChar]

def threeReads : List (List UInt8) :=
  [(stream true [framed, framed]).take 10, ((stream true [framed, framed]).drop 10).take 50,
    (stream true [framed, framed]).drop 60]

theorem stream_reassembled_three : ∃ c, (create 100).handleReads true threeReads =
    some (c, [framed.received, framed.received]) ∧ c.residBufferSize = 0 := by
  have hm : framed.Packable 100 :=
    ⟨by decide, by decide, by decide, by decide +kernel, by decide +kernel⟩
  refine stream_reassembled true 100 [framed, framed] threeReads ?_ (by decide +kernel)
    (by decide +kernel)
  intro m hmem
  obtain rfl | hmem := List.mem_cons.mp hmem
  · exact hm
  · obtain rfl := List.mem_singleton.mp hmem
    exact hm

end TcpConnection

end Helics
