import Helics.WireRoundTrip

namespace Helics

open Bytes

namespace WireMessage

/-- The payloads of two objects after the same pass: written by it, or still what they were. -/
def PayloadsMove (m₁ m₂ m₁' m₂' : WireMessage) : Prop :=
  (m₁'.payload = m₂'.payload ∧ m₁'.payload ≠ []) ∨
    (m₁'.payload = m₁.payload ∧ m₂'.payload = m₂.payload)

theorem PayloadsMove.trans (h : PayloadsMove m₁ m₂ m₁' m₂') (h' : PayloadsMove m₁' m₂' m₁'' m₂'') :
    PayloadsMove m₁ m₂ m₁'' m₂'' := by
  rcases h' with hwritten | ⟨h₁, h₂⟩
  · exact .inl hwritten
  · unfold PayloadsMove
    rw [h₁, h₂]
    exact h

/-- Decoding the same bytes into two objects: the same number of bytes is used, and an accepted
message is the same up to its payload. -/
inductive Parallel (m₁ m₂ : WireMessage) : Decoded → Decoded → Prop where
  | throws : Parallel m₁ m₂ none none
  | returns (payload : PayloadsMove m₁ m₂ m₁' m₂')
      (rest : 0 < k → m₁' = { m₂' with payload := m₁'.payload }) :
      Parallel m₁ m₂ (some (k, m₁')) (some (k, m₂'))

theorem Parallel.rejected (hpay : PayloadsMove m₁ m₂ m₁' m₂') (m₁'' m₂'' : WireMessage)
    (h₁ : m₁''.payload = m₁'.payload) (h₂ : m₂''.payload = m₂'.payload) :
    Parallel m₁ m₂ (some (0, m₁'')) (some (0, m₂'')) := by
  apply Parallel.returns
  · exact hpay.trans (.inr ⟨h₁, h₂⟩)
  · intro h
    cases h

theorem Parallel.after (hpay : PayloadsMove m₁ m₂ m₁' m₂') (h : Parallel m₁' m₂' r₁ r₂) :
    Parallel m₁ m₂ r₁ r₂ := by
  cases h with
  | throws => exact .throws
  | returns payload rest => exact .returns (hpay.trans payload) rest

def stringSize (le order : Bool) (data : List UInt8) : Nat :=
  if order then (readNat le 4 data).1 else swap 4 (readNat le 4 data).1

variable (le order : Bool)

theorem readStrings_cons (n : Nat) (slot : List UInt8) (slots : List (List UInt8))
    (tsize : Int) (data : List UInt8) : readStrings le order n (slot :: slots) tsize data =
      if n < addSize tsize (stringSize le order data) then
        (false, addSize tsize (stringSize le order data), slot :: slots) else
        let r := readStrings le order n slots (addSize tsize (stringSize le order data))
          ((data.drop 4).drop (stringSize le order data))
        (r.1, r.2.1, (data.drop 4).take (stringSize le order data) :: r.2.2) :=
  rfl

theorem readStrings_slots (bufferSize : Nat) (slots slots' : List (List UInt8))
    (h : slots.length = slots'.length) (tsize : Int) (data : List UInt8) :
    (readStrings le order bufferSize slots tsize data).1 =
        (readStrings le order bufferSize slots' tsize data).1 ∧
      (readStrings le order bufferSize slots tsize data).2.1 =
        (readStrings le order bufferSize slots' tsize data).2.1 ∧
      ((readStrings le order bufferSize slots' tsize data).1 = true →
        (readStrings le order bufferSize slots tsize data).2.2 =
          (readStrings le order bufferSize slots' tsize data).2.2) := by
  induction slots generalizing slots' tsize data with
  | nil =>
    obtain rfl := List.eq_nil_of_length_eq_zero h.symm
    exact ⟨rfl, rfl, fun _ => rfl⟩
  | cons slot slots ih =>
    cases slots' with
    | nil => cases h
    | cons slot' slots' =>
      rw [readStrings_cons, readStrings_cons]
      split
      · exact ⟨rfl, rfl, nofun⟩
      · obtain ⟨h₁, h₂, h₃⟩ := ih slots' (Nat.succ.inj h) _ _
        exact ⟨h₁, h₂, fun hread => congrArg (List.cons _) (h₃ hread)⟩

/-- The two objects agree in everything that is written before the payload. -/
def SameHead (m₁ m₂ : WireMessage) : Prop :=
  m₁ = { m₂ with payload := m₁.payload, stringData := m₁.stringData }

theorem readStringData_parallel (n tsize : Nat) (data : List UInt8)
    (h : SameHead m₁ m₂) :
    Parallel m₁ m₂ (readStringData le order n m₁ tsize data)
      (readStringData le order n m₂ tsize data) := by
  have hkept : PayloadsMove m₁ m₂ m₁ m₂ := .inr ⟨rfl, rfl⟩
  have hset : ∀ strs, ({ m₁ with stringData := strs } : WireMessage) =
      { m₂ with payload := m₁.payload, stringData := strs } := by
    intro strs
    rw [h]
  have hdone : ∀ (k : Int) strs, Parallel m₁ m₂
      (some (k, if order then { m₁ with stringData := strs }
        else swapBytes { m₁ with stringData := strs }))
      (some (k, if order then { m₂ with stringData := strs }
        else swapBytes { m₂ with stringData := strs })) := by
    intro k strs
    rw [hset]
    cases order
    · exact .returns (.inr ⟨rfl, rfl⟩) (fun _ => rfl)
    · exact .returns (.inr ⟨rfl, rfl⟩) (fun _ => rfl)
  cases data with
  | nil => exact .rejected hkept _ _ rfl rfl
  | cons count data =>
    unfold readStringData
    dsimp only
    split
    · exact .throws
    split
    · exact hdone _ _
    split
    · exact .rejected hkept _ _ rfl rfl
    obtain ⟨h₁, h₂, h₃⟩ := readStrings_slots le order n
      (resize m₁.stringData count.toInt8.toInt.toNat)
      (resize m₂.stringData count.toInt8.toInt.toNat)
      ((length_resize _ _).trans (length_resize _ _).symm)
      (tsize + 4 * count.toInt8.toInt) data
    rw [h₁, h₂]
    split
    · rename_i hread
      rw [h₃ hread]
      exact hdone _ _
    · exact .rejected hkept _ _ rfl rfl

theorem readEventTimes_head (m₁ m₂ : WireMessage) (data : List UInt8) :
    (readEventTimes le (readHeader le order m₁ data).1 (readHeader le order m₁ data).2).2 =
        (readEventTimes le (readHeader le order m₂ data).1 (readHeader le order m₂ data).2).2 ∧
      SameHead (readEventTimes le (readHeader le order m₁ data).1 (readHeader le order m₁ data).2).1
        (readEventTimes le (readHeader le order m₂ data).1 (readHeader le order m₂ data).2).1 := by
  have haction : (readHeader le order m₁ data).1.messageAction =
      (readHeader le order m₂ data).1.messageAction := rfl
  unfold readEventTimes SameHead
  rw [haction]
  split
  · exact ⟨rfl, rfl⟩
  · exact ⟨rfl, rfl⟩

theorem readEventTimes_payload (m : WireMessage) (data : List UInt8) :
    (readEventTimes le (readHeader le order m data).1 (readHeader le order m data).2).1.payload =
      m.payload := by
  unfold readEventTimes
  split
  · rfl
  · rfl

theorem drop_readEventTimes (m : WireMessage) (data : List UInt8) :
    (readEventTimes le (readHeader le order m data).1 (readHeader le order m data).2).2 =
      data.drop (40 + (readHeader le order m data).1.eventTimeSize) := by
  unfold readEventTimes eventTimeSize
  split
  · simp [readHeader, readInt32, readUInt16, readUInt32, readTime, readNat]
  · simp [readHeader, readInt32, readUInt16, readUInt32, readTime, readNat]

theorem readBody_parallel (le : Bool) (m₁ m₂ : WireMessage) (data : List UInt8) :
    Parallel m₁ m₂ (m₁.readBody le data) (m₂.readBody le data) := by
  have hkept : PayloadsMove m₁ m₂ m₁ m₂ := .inr ⟨rfl, rfl⟩
  unfold readBody
  dsimp only
  generalize hsz : ofBig3 (data.getD 1 0) (data.getD 2 0) (data.getD 3 0) = sz
  generalize decide (data.getD 0 0 = orderByte le) = order
  have htimes : (readHeader le order m₁ (data.drop 4)).1.eventTimeSize =
      (readHeader le order m₂ (data.drop 4)).1.eventTimeSize := rfl
  rw [htimes]
  split
  · exact .rejected hkept _ _ rfl rfl
  split
  · exact .rejected hkept _ _ rfl rfl
  rename_i hlong
  obtain ⟨hdata, hhead⟩ := readEventTimes_head le order m₁ m₂ (data.drop 4)
  have hrest := drop_readEventTimes le order m₂ (data.drop 4)
  have h₁ := readEventTimes_payload le order m₁ (data.drop 4)
  have h₂ := readEventTimes_payload le order m₂ (data.drop 4)
  generalize readEventTimes le (readHeader le order m₁ (data.drop 4)).1 _ = t₁ at *
  generalize readEventTimes le (readHeader le order m₂ (data.drop 4)).1 _ = t₂ at *
  rw [hdata]
  unfold readPayload
  split
  · have hwritten : t₂.2.take sz ≠ [] := by
      rw [hrest, ← List.length_pos_iff, List.length_take, List.length_drop, List.length_drop]
      omega
    have hset : SameHead { t₁.1 with payload := t₂.2.take sz }
        { t₂.1 with payload := t₂.2.take sz } := by
      unfold SameHead
      rw [hhead]
    have hstrings := readStringData_parallel le order data.length
      (45 + sz + (readHeader le order m₂ (data.drop 4)).1.eventTimeSize) (t₂.2.drop sz) hset
    apply Parallel.after _ hstrings
    exact .inl ⟨rfl, hwritten⟩
  · exact Parallel.after (.inr ⟨h₁, h₂⟩) (readStringData_parallel le order _ _ _ hhead)

theorem unpack_parallel
    (h : ∀ m₁ m₂ data, Parallel m₁ m₂ (decode m₁ data) (decode m₂ data)) (m₁ m₂ : WireMessage)
    (data : List UInt8) : Parallel m₁ m₂ (unpack decode m₁ data) (unpack decode m₂ data) := by
  have hkept : Parallel m₁ m₂ (some (0, m₁)) (some (0, m₂)) :=
    .rejected (.inr ⟨rfl, rfl⟩) m₁ m₂ rfl rfl
  have hin := h m₁ m₂
    ((data.drop 4).take (ofBig3 (data.getD 1 0) (data.getD 2 0) (data.getD 3 0) - 4))
  unfold unpack
  dsimp only
  repeat' split
  all_goals first
    | exact hkept
    | skip
  generalize decode m₁ _ = r₁ at hin ⊢
  generalize decode m₂ _ = r₂ at hin ⊢
  cases hin with
  | throws => exact .throws
  | @returns m₁' m₂' k payload rest =>
    rw [Option.map_some, Option.map_some]
    apply Parallel.returns payload
    intro hpos
    split at hpos
    · exact rest (by assumption)
    · cases hpos

theorem decodeWithin_succ (le : Bool) (fuel : Nat) (m : WireMessage) (data : List UInt8) :
    decodeWithin le (fuel + 1) m data = if data.length < 45 then m.invalid
      else (unpack (decodeWithin le fuel) m data).bind fun r =>
        if 0 < r.1 then some r else r.2.readBody le data := by
  rw [decodeWithin]
  split
  · rfl
  split
  · rfl
  rename_i hlead
  have hnone : unpack (decodeWithin le fuel) m data = some (0, m) := if_pos hlead
  rw [hnone]
  rfl

theorem decodeWithin_parallel (le : Bool) (fuel : Nat) (m₁ m₂ : WireMessage) (data : List UInt8) :
    Parallel m₁ m₂ (decodeWithin le fuel m₁ data) (decodeWithin le fuel m₂ data) := by
  have hshort : Parallel m₁ m₂ m₁.invalid m₂.invalid := .rejected (.inr ⟨rfl, rfl⟩) _ _ rfl rfl
  induction fuel generalizing m₁ m₂ data with
  | zero =>
    unfold decodeWithin
    split
    · exact hshort
    · exact readBody_parallel le m₁ m₂ data
  | succ fuel ih =>
    rw [decodeWithin_succ, decodeWithin_succ]
    split
    · exact hshort
    have hpacket : Parallel m₁ m₂ (unpack (decodeWithin le fuel) m₁ data)
        (unpack (decodeWithin le fuel) m₂ data) :=
      unpack_parallel (fun m₁ m₂ data =>
        ih m₁ m₂ data (.rejected (.inr ⟨rfl, rfl⟩) _ _ rfl rfl)) m₁ m₂ data
    generalize unpack (decodeWithin le fuel) m₁ data = r₁ at hpacket ⊢
    generalize unpack (decodeWithin le fuel) m₂ data = r₂ at hpacket ⊢
    cases hpacket with
    | throws => exact .throws
    | @returns m₁' m₂' k payload rest =>
      rw [Option.bind_some, Option.bind_some]
      split
      · exact .returns payload rest
      · exact Parallel.after payload (readBody_parallel le m₁' m₂' data)

/-- The payload size that the size bytes of a buffer announce. -/
def announced (data : List UInt8) : Nat := ofBig3 (data.getD 1 0) (data.getD 2 0) (data.getD 3 0)

def Framed (data : List UInt8) : Prop :=
  data.getD 0 0 = leadingChar ∧ 6 ≤ data.length ∧ announced data + 2 ≤ data.length ∧
    data.getD (announced data) 0 = tailChar1 ∧ data.getD (announced data + 1) 0 = tailChar2

instance : DecidablePred Framed := fun _ => inferInstanceAs (Decidable (_ ∧ _))

def framed (data : List UInt8) : List UInt8 := (data.drop 4).take (announced data - 4)

theorem length_framed (data : List UInt8) : (framed data).length ≤ data.length - 4 := by
  unfold framed
  rw [List.length_take, List.length_drop]
  omega

theorem unpack_framed (h : Framed data) (decode : WireMessage → List UInt8 → Decoded)
    (m : WireMessage) : unpack decode m data = (decode m (framed data)).map fun r =>
      (if 0 < r.1 then (announced data : Int) + 2 else 0, r.2) := by
  obtain ⟨hlead, hlong, hsize, htail₁, htail₂⟩ := h
  unfold announced at *
  unfold unpack
  rw [if_neg (not_not.mpr hlead), if_neg (by omega), if_neg (by omega),
    if_neg (not_not.mpr htail₁), if_neg (not_not.mpr htail₂)]
  rfl

theorem unpack_unframed (h : ¬ Framed data) (decode : WireMessage → List UInt8 → Decoded)
    (m : WireMessage) : unpack decode m data = some (0, m) := by
  unfold unpack
  dsimp only
  repeat' split
  all_goals first
    | rfl
    | skip
  rename_i hlead hlong hsize htail₁ htail₂
  exact absurd ⟨not_not.mp hlead, by omega, Nat.not_lt.mp hsize, not_not.mp htail₁,
    not_not.mp htail₂⟩ h

/-- The bytes that are taken for the message: those of the innermost packet that is accepted. -/
def messageBytes (le : Bool) : Nat → List UInt8 → List UInt8
  | 0, data => data
  | fuel + 1, data =>
    if Framed data ∧ (decodeWithin le fuel {} (framed data)).any (fun r => decide (0 < r.1)) then
      messageBytes le fuel (framed data)
    else data

/-- The payload is written exactly if its announced size is not zero. -/
structure PayloadOf (size : Nat) (m m' : WireMessage) : Prop where
  kept : size = 0 → m'.payload = m.payload
  written : 0 < size → m'.payload ≠ []

theorem Framed.announced_pos (h : Framed data) : 0 < announced data := by
  apply Nat.pos_of_ne_zero
  intro hzero
  have htail := h.2.2.2.1
  rw [hzero, h.1] at htail
  exact absurd htail (by decide)

variable {le order : Bool} {m m' : WireMessage} {data : List UInt8} {k : Int}

theorem readStringData_payload (h : readStringData le order n m tsize data = some (k, m')) :
    m'.payload = m.payload := by
  cases data with
  | nil =>
    cases h
    rfl
  | cons count data =>
    unfold readStringData at h
    dsimp only at h
    split at h
    · cases h
    split at h
    · cases h
      cases order <;> rfl
    split at h
    · cases h
      rfl
    split at h
    · cases h
      cases order <;> rfl
    · cases h
      rfl

theorem readBody_payload (h : m.readBody le data = some (k, m')) (hk : 0 < k) :
    PayloadOf (announced data) m m' := by
  unfold readBody at h
  dsimp only at h
  split at h
  · cases h
    exact absurd hk (lt_irrefl 0)
  split at h
  · cases h
    exact absurd hk (lt_irrefl 0)
  rename_i hlong
  have hkept := readEventTimes_payload le (decide (data.getD 0 0 = orderByte le)) m (data.drop 4)
  have hrest := drop_readEventTimes le (decide (data.getD 0 0 = orderByte le)) m (data.drop 4)
  have hpay := readStringData_payload h
  unfold readPayload at hpay
  unfold announced
  constructor
  · intro hzero
    rw [if_neg hzero.not_gt] at hpay
    exact hpay.trans hkept
  · intro hpos
    rw [if_pos hpos] at hpay
    rw [hpay, hrest, ← List.length_pos_iff, List.length_take, List.length_drop, List.length_drop]
    omega

/-- An inner packet that is not accepted may leave its payload behind, but then the outer size
bytes announce a payload as well. -/
theorem decodeWithin_payload (h : decodeWithin le fuel m data = some (k, m')) (hk : 0 < k) :
    PayloadOf (announced (messageBytes le fuel data)) m m' := by
  induction fuel generalizing m m' k data with
  | zero =>
    unfold decodeWithin at h
    split at h
    · cases h
      exact absurd hk (lt_irrefl 0)
    · exact readBody_payload h hk
  | succ fuel ih =>
    rw [decodeWithin_succ] at h
    split at h
    · cases h
      exact absurd hk (lt_irrefl 0)
    unfold messageBytes
    by_cases hframed : Framed data
    · have hfresh := decodeWithin_parallel le fuel {} m (framed data)
      rw [unpack_framed hframed] at h
      generalize hin : decodeWithin le fuel m (framed data) = r at h hfresh
      generalize decodeWithin le fuel {} (framed data) = r₀ at hfresh ⊢
      cases hfresh with
      | throws => cases h
      | @returns m₁ m₂ k' payload rest =>
        rw [Option.map_some, Option.bind_some] at h
        by_cases hk' : 0 < k'
        · rw [if_pos ⟨hframed, decide_eq_true hk'⟩]
          rw [if_pos hk', if_pos (by omega)] at h
          cases h
          exact ih hin hk'
        · rw [if_neg (by simp [hk'])]
          rw [if_neg hk', if_neg (lt_irrefl 0)] at h
          have hpos := hframed.announced_pos
          exact ⟨fun hzero => absurd hzero hpos.ne', (readBody_payload h hk).written⟩
    · rw [if_neg fun hin => hframed hin.1]
      rw [unpack_unframed hframed, Option.bind_some] at h
      exact readBody_payload h hk

/-- What is decoded from an accepted buffer depends on nothing else exactly if the message in it has
a payload, which is so exactly if the size bytes of that message are not all zero. -/
theorem decoding_independent_iff (le : Bool) (data : List UInt8) (k : Int) (m : WireMessage)
    (h : fromByteArray le {} data = some (k, m)) (hk : 0 < k) :
    ((∀ m₁ m₂ : WireMessage, m₁.fromByteArray le data = m₂.fromByteArray le data) ↔
      m.payload ≠ []) ∧
    (m.payload ≠ [] ↔ 0 < announced (messageBytes le data.length data)) := by
  have hpay := decodeWithin_payload h hk
  refine ⟨?_, fun hsome => Nat.pos_of_ne_zero fun hzero => hsome (hpay.kept hzero), hpay.written⟩
  constructor
  · intro hsame hnone
    have hother := decodeWithin_parallel le data.length {} { payload := [0] } data
    have hboth : fromByteArray le { payload := [0] } data = some (k, m) :=
      (hsame _ {}).trans h
    unfold fromByteArray at h hboth
    rw [h, hboth] at hother
    cases hother with
    | returns payload rest =>
      rcases payload with ⟨_, hsome⟩ | ⟨_, hkept⟩
      · exact hsome hnone
      · rw [hnone] at hkept
        cases hkept
  · intro hsome
    have hall : ∀ m' : WireMessage, m'.fromByteArray le data = some (k, m) := by
      intro m'
      have hother := decodeWithin_parallel le data.length {} m' data
      unfold fromByteArray at h ⊢
      rw [h] at hother
      generalize decodeWithin le data.length m' data = r at hother ⊢
      cases hother with
      | @returns _ m₂ _ payload rest =>
        rcases payload with ⟨hwritten, _⟩ | ⟨hkept, _⟩
        · rw [rest hk, hwritten]
        · exact absurd hkept hsome
    intro m₁ m₂
    rw [hall m₁, hall m₂]

theorem decoding_independent_seven : fromByteArray true {} (toBytes true { payload := [7] }) =
      fromByteArray true { payload := [1] } (toBytes true { payload := [7] }) :=
  (decoding_independent_iff true (toBytes true { payload := [7] }) 46 { payload := [7] }
    (by decide +kernel) (by decide)).1.mpr (by decide) {} { payload := [1] }

/-- The payload of the object stays when the message in the buffer has none. -/
theorem old_payload_stays : fromByteArray true {} (toBytes true {}) = some (45, {}) ∧
      fromByteArray true { payload := [7] } (toBytes true {}) = some (45, { payload := [7] }) := by
  decide +kernel

end WireMessage

end Helics
