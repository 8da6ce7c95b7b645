import Helics.WireIndependence

namespace Helics

open Bytes

namespace WireMessage

/-- How many bytes there are and how many the decoder asks for. -/
abbrev Access := Nat × Int

def Inside (a : Access) : Prop := 0 ≤ a.2 ∧ a.2 ≤ a.1

instance : DecidablePred Inside := fun _ => inferInstanceAs (Decidable (_ ∧ _))

def sameOrder (le : Bool) (data : List UInt8) : Bool := decide (data.getD 0 0 = orderByte le)

def fixedSize (le : Bool) (data : List UInt8) : Nat :=
  45 + announced data + (readHeader le (sameOrder le data) {} (data.drop 4)).1.eventTimeSize

def stringCount (le : Bool) (data : List UInt8) : Int :=
  (data.getD (fixedSize le data - 1) 0).toInt8.toInt

def stringAccesses (le order : Bool) (n : Nat) : Nat → Int → List UInt8 → List Access
  | 0, _, _ => []
  | count + 1, tsize, data =>
    (data.length, 4) ::
      if n < addSize tsize (stringSize le order data) then []
      else ((data.drop 4).length, (stringSize le order data : Int)) ::
        stringAccesses le order n count (addSize tsize (stringSize le order data))
          ((data.drop 4).drop (stringSize le order data))

def bodyAccesses (le : Bool) (data : List UInt8) : List Access :=
  let size := fixedSize le data
  let count := stringCount le data
  (data.length, 4) ::
    if data.length < 45 + announced data then []
    else (data.length, 44) ::
      if data.length < size then []
      else (data.length, (size : Int)) :: (data.length, count) ::
        if data.length < size + 4 * count.toNat then []
        else stringAccesses le (sameOrder le data) data.length count.toNat
          ((size + 4 * count.toNat : Nat) : Int) (data.drop size)

def frameAccesses (data : List UInt8) : List Access :=
  (data.length, 1) ::
    if data.getD 0 0 ≠ leadingChar then []
    else if data.length < 6 then []
    else (data.length, 4) ::
      if data.length < announced data + 2 then []
      else (data.length, (announced data + 1 : Int)) ::
        if data.getD (announced data) 0 ≠ tailChar1 then []
        else [(data.length, (announced data + 2 : Int))]

def packetAccesses (inner : List UInt8 → List Access) (data : List UInt8) : List Access :=
  frameAccesses data ++ if Framed data then inner (framed data) else []

/-- The decoder has returned without taking the buffer for a message. -/
def Rejects (r : Decoded) : Prop := ∃ x ∈ r, x.1 ≤ 0

def Accepts (r : Decoded) : Prop := ∃ x ∈ r, 0 < x.1

instance : DecidablePred Rejects := fun _ => inferInstanceAs (Decidable (∃ _ ∈ _, _))

instance : DecidablePred Accepts := fun _ => inferInstanceAs (Decidable (∃ _ ∈ _, _))

def decodeAccesses (le : Bool) : Nat → WireMessage → List UInt8 → List Access
  | 0, _, data => if data.length < 45 then [] else bodyAccesses le data
  | fuel + 1, m, data =>
    if data.length < 45 then []
    else packetAccesses (decodeAccesses le fuel m) data ++
      if Rejects (unpack (decodeWithin le fuel) m data) then bodyAccesses le data else []

/-- Nothing is used and the command is marked, or as much is used as there is. -/
def Settled (n : Nat) (r : Decoded) : Prop :=
  ∃ x ∈ r, (x.1 = 0 ∧ x.2.messageAction = cmdInvalid) ∨ (0 < x.1 ∧ x.1 ≤ n)

instance (n : Nat) : DecidablePred (Settled n) := fun _ => inferInstanceAs (Decidable (∃ _ ∈ _, _))

/-- Safe decoding of a buffer; one that starts like a packet has to be one. -/
def Safe (le : Bool) (m : WireMessage) (data : List UInt8) : Prop :=
  (∀ a ∈ decodeAccesses le data.length m data, Inside a) ∧
    Settled data.length (m.fromByteArray le data) ∧
    (data.getD 0 0 = leadingChar → Accepts (m.fromByteArray le data) →
      Accepts (m.depacketize le data))

def PacketSafe (le : Bool) (m : WireMessage) (data : List UInt8) : Prop :=
  (∀ a ∈ packetAccesses (fun inner => decodeAccesses le inner.length m inner) data, Inside a) ∧
    Settled data.length (m.depacketize le data)

/-- The comparison with the length of the buffer sees that the total is too large. -/
def Caught (n total : Nat) : Prop := n < total % 4294967296 ∧ total % 4294967296 < 2147483648

/-- Every total leaves room for the lengths that follow it, up to the first that is caught. -/
def LengthsFit (le order : Bool) (n : Nat) : Nat → Nat → List UInt8 → Prop
  | 0, _, _ => True
  | count + 1, tsize, data =>
    tsize ≤ n + 4 * count ∧ (Caught n (tsize + stringSize le order data) ∨
      (tsize + stringSize le order data ≤ n + 4 * count ∧
        LengthsFit le order n count (tsize + stringSize le order data)
          ((data.drop 4).drop (stringSize le order data))))

/-- The number of strings is not negative or beyond the buffer, and their lengths fit. -/
def BodyFits (le : Bool) (data : List UInt8) : Prop :=
  fixedSize le data ≤ data.length →
    0 ≤ stringCount le data ∧ stringCount le data ≤ data.length ∧
    (fixedSize le data + 4 * (stringCount le data).toNat ≤ data.length →
      LengthsFit le (sameOrder le data) data.length (stringCount le data).toNat
        (fixedSize le data + 4 * (stringCount le data).toNat) (data.drop (fixedSize le data)))

/-- Each of the strings lies inside the rest of the buffer. -/
def StringsInside (le order : Bool) : Nat → List UInt8 → Prop
  | 0, _ => True
  | count + 1, data => 4 + stringSize le order data ≤ data.length ∧
    StringsInside le order count ((data.drop 4).drop (stringSize le order data))

/-- The bytes hold a message from the first one on: the header, the payload and all the strings. -/
def PlainMessage (le : Bool) (data : List UInt8) : Prop :=
  fixedSize le data ≤ data.length ∧
    StringsInside le (sameOrder le data) (stringCount le data).toNat (data.drop (fixedSize le data))

/-- The bytes hold a message, in frames or not. -/
def HoldsMessage (le : Bool) : Nat → List UInt8 → Prop
  | 0, data => 45 ≤ data.length ∧ PlainMessage le data
  | fuel + 1, data => 45 ≤ data.length ∧
    (Framed data ∧ HoldsMessage le fuel (framed data) ∨ PlainMessage le data)

/-- A complete frame around a message. -/
def Packet (le : Bool) (data : List UInt8) : Prop :=
  Framed data ∧ HoldsMessage le (data.length - 1) (framed data)

/-- Whatever is read as a message, in the frames and outside of them, fits. -/
def Fits (le : Bool) : Nat → List UInt8 → Prop
  | 0, data => 45 ≤ data.length → BodyFits le data
  | fuel + 1, data => 45 ≤ data.length →
    (Framed data → Fits le fuel (framed data)) ∧
      (¬ (Framed data ∧ HoldsMessage le fuel (framed data)) → BodyFits le data)

theorem inside_mk (n : Nat) (k : Int) : Inside (n, k) ↔ 0 ≤ k ∧ k ≤ n := Iff.rfl

theorem caught_iff (n total : Nat) :
    (n : Int) < (total : Int).bmod 4294967296 ↔ Caught n total := by
  unfold Caught
  rw [Int.bmod_def]
  split <;> omega

theorem addSize_bmod (tsize ssize : Nat) : addSize ((tsize : Int).bmod 4294967296) ssize =
    ((tsize + ssize : Nat) : Int).bmod 4294967296 := by
  unfold addSize
  rw [Int.bmod_add_bmod, Int.natCast_add]

section
variable {le order : Bool} {n : Nat}

theorem inside_strings_iff (hdata : tsize + data.length = n + 4 * count) :
    (∀ a ∈ stringAccesses le order n count ((tsize : Int).bmod 4294967296) data, Inside a) ↔
      LengthsFit le order n count tsize data := by
  induction count generalizing tsize data with
  | zero => exact iff_of_true nofun trivial
  | succ count ih =>
    have hlength : Inside (data.length, 4) ↔ tsize ≤ n + 4 * count := by
      rw [inside_mk]
      omega
    have hstring : Inside ((data.drop 4).length, (stringSize le order data : Int)) ↔
        tsize + stringSize le order data ≤ n + 4 * count ∨ stringSize le order data = 0 := by
      rw [inside_mk, List.length_drop]
      omega
    unfold stringAccesses LengthsFit
    rw [addSize_bmod, List.forall_mem_cons, hlength, and_congr_right_iff]
    intro hle
    split
    · rename_i hcaught
      exact iff_of_true nofun (.inl ((caught_iff _ _).mp hcaught))
    rename_i hcaught
    rw [or_iff_right (mt (caught_iff _ _).mpr hcaught), List.forall_mem_cons, hstring]
    rw [or_iff_left_of_imp (by omega), and_congr_right_iff]
    intro hfit
    apply ih
    rw [List.length_drop, List.length_drop]
    omega

theorem LengthsFit.total (hn : n < 2147483648) (h : LengthsFit le order n slots.length tsize data)
    (hdata : tsize + data.length = n + 4 * slots.length)
    (hread : (readStrings le order n slots ((tsize : Int).bmod 4294967296) data).1 = true) :
    (tsize : Int) ≤ (readStrings le order n slots ((tsize : Int).bmod 4294967296) data).2.1 ∧
      (readStrings le order n slots ((tsize : Int).bmod 4294967296) data).2.1 ≤ n := by
  induction slots generalizing tsize data with
  | nil =>
    rw [List.length_nil] at hdata
    have hsmall : (tsize : Int).bmod 4294967296 = tsize := Int.bmod_eq_of_le (by omega) (by omega)
    unfold readStrings
    dsimp only
    omega
  | cons slot slots ih =>
    rw [readStrings_cons, addSize_bmod] at hread ⊢
    split at hread
    · cases hread
    rename_i hcaught
    rw [if_neg hcaught]
    rw [caught_iff] at hcaught
    obtain ⟨_, hfit, hrest⟩ := h.imp_right (Or.resolve_left · hcaught)
    rw [List.length_cons] at hdata
    obtain ⟨hlow, hhigh⟩ := ih hrest
      (by rw [List.length_drop, List.length_drop]; omega) hread
    exact ⟨by dsimp only; omega, hhigh⟩

end

theorem StringsInside.length_le (h : StringsInside le order count data) :
    4 * count ≤ data.length := by
  induction count generalizing data with
  | zero => omega
  | succ count ih =>
    have hrest := ih h.2
    have hfirst := h.1
    rw [List.length_drop, List.length_drop] at hrest
    omega

/-- The strings are read to the end exactly if all of them are there. -/
theorem LengthsFit.read_iff (hn : n < 2147483648)
    (h : LengthsFit le order n slots.length tsize data)
    (hdata : tsize + data.length = n + 4 * slots.length) :
    (readStrings le order n slots ((tsize : Int).bmod 4294967296) data).1 = true ↔
      StringsInside le order slots.length data := by
  induction slots generalizing tsize data with
  | nil => exact iff_of_true rfl trivial
  | cons slot slots ih =>
    rw [List.length_cons] at hdata
    have hrest : ((data.drop 4).drop (stringSize le order data)).length =
        data.length - 4 - stringSize le order data := by
      rw [List.length_drop, List.length_drop]
    rw [readStrings_cons, addSize_bmod]
    split
    · rename_i hcaught
      refine iff_of_false nofun fun hin => ?_
      have hlen := StringsInside.length_le hin.2
      have hfirst := hin.1
      have hover := ((caught_iff _ _).mp hcaught).1
      rw [Nat.mod_eq_of_lt (by omega)] at hover
      omega
    · rename_i hcaught
      rw [caught_iff] at hcaught
      obtain ⟨_, hfit, hnext⟩ := h.imp_right (Or.resolve_left · hcaught)
      rw [ih hnext (by omega)]
      exact (and_iff_right (by omega)).symm

theorem fixedSize_ge (le : Bool) (data : List UInt8) : 45 + announced data ≤ fixedSize le data :=
  Nat.le_add_right _ _

theorem inside_body_iff (le : Bool) (h : 45 ≤ data.length) (hn : data.length < 2147483648) :
    (∀ a ∈ bodyAccesses le data, Inside a) ↔ BodyFits le data := by
  have hsize := fixedSize_ge le data
  have hfour : Inside (data.length, 4) := (inside_mk _ _).mpr ⟨by omega, by omega⟩
  have hheader : Inside (data.length, 44) := (inside_mk _ _).mpr ⟨by omega, by omega⟩
  unfold bodyAccesses BodyFits
  rw [List.forall_mem_cons, and_iff_right hfour]
  by_cases hshort : data.length < fixedSize le data
  · apply iff_of_true _ (fun hle => absurd hle (by omega))
    split
    · nofun
    · exact List.forall_mem_singleton.mpr hheader
  have hfixed : Inside (data.length, (fixedSize le data : Int)) :=
    (inside_mk _ _).mpr ⟨by omega, by omega⟩
  rw [if_neg (by omega), if_neg hshort, List.forall_mem_cons, List.forall_mem_cons,
    List.forall_mem_cons, and_iff_right hheader, and_iff_right hfixed,
    imp_iff_right (by omega), ← and_assoc]
  apply and_congr Iff.rfl
  split
  · rename_i hlong
    exact iff_of_true nofun (fun hle => absurd hle (by omega))
  · rename_i hlong
    rw [imp_iff_right (by omega), ← inside_strings_iff (by rw [List.length_drop]; omega),
      Int.bmod_eq_of_le (by omega) (by omega)]

theorem readBody_strings (le : Bool) (m : WireMessage) (data : List UInt8) :
    ∃ m', m.readBody le data = if data.length < fixedSize le data then invalid m'
      else readStringData le (sameOrder le data) data.length m' (fixedSize le data)
        (data.drop (fixedSize le data - 1)) := by
  have hsize := fixedSize_ge le data
  have htimes := drop_readEventTimes le (sameOrder le data) m (data.drop 4)
  have hdrop : ∀ t : WireMessage × List UInt8,
      t.2 = (data.drop 4).drop
        (40 + (readHeader le (sameOrder le data) m (data.drop 4)).1.eventTimeSize) →
      (readPayload t.1 (announced data) t.2).2 = data.drop (fixedSize le data - 1) := by
    intro t ht
    have hpayload : (readPayload t.1 (announced data) t.2).2 = t.2.drop (announced data) := by
      unfold readPayload
      split
      · rfl
      · rename_i hzero
        rw [Nat.eq_zero_of_not_pos hzero]
        rfl
    rw [hpayload, ht, List.drop_drop, List.drop_drop]
    congr 1
    show _ = 45 + announced data +
      (readHeader le (sameOrder le data) m (data.drop 4)).1.eventTimeSize - 1
    omega
  unfold readBody
  dsimp only
  split
  · rename_i hshort
    exact ⟨m, (if_pos (Nat.lt_of_lt_of_le hshort hsize)).symm⟩
  split
  · rename_i hshort
    exact ⟨_, (if_pos hshort).symm⟩
  · rename_i hlong
    exact ⟨_, ((if_neg hlong).trans (by rw [← hdrop _ htimes]; rfl)).symm⟩

/-- A message is accepted with the bytes that it takes, and anything else is marked as invalid. -/
inductive Outcome (n : Nat) (holds : Prop) : Decoded → Prop
  | accepted {k : Int} (h : holds) (hpos : 0 < k) (hle : k ≤ n) : Outcome n holds (some (k, m))
  | rejected (h : ¬ holds) (m : WireMessage) : Outcome n holds m.invalid

theorem Outcome.settled (h : Outcome n holds r) : Settled n r := by
  cases h with
  | accepted _ hpos hle => exact ⟨_, rfl, .inr ⟨hpos, hle⟩⟩
  | rejected _ m => exact ⟨_, rfl, .inl ⟨rfl, rfl⟩⟩

theorem Outcome.accepts_iff (h : Outcome n holds r) : Accepts r ↔ holds := by
  cases h with
  | accepted h hpos _ => exact iff_of_true ⟨_, rfl, hpos⟩ h
  | rejected h m => exact iff_of_false (by simp [Accepts, invalid]) h

theorem readStringData_outcome {count : UInt8} (hn : n < 2147483648)
    (hcount : count.toInt8.toInt = (c : Nat)) (hsize : 0 < tsize) (hdata : tsize + data.length = n)
    (hfit : tsize + 4 * c ≤ n → LengthsFit le order n c (tsize + 4 * c) data) (m : WireMessage) :
    Outcome n (StringsInside le order c data)
      (readStringData le order n m tsize (count :: data)) := by
  unfold readStringData
  dsimp only
  rw [hcount, if_neg (by omega), Int.toNat_natCast]
  split
  · rename_i hzero
    obtain rfl : c = 0 := by omega
    exact .accepted trivial (by omega) (by omega)
  split
  · exact .rejected (fun hin => absurd hin.length_le (by omega)) _
  have hsum : (tsize : Int) + 4 * c = ((tsize + 4 * c : Nat) : Int).bmod 4294967296 := by
    rw [Int.bmod_eq_of_le (by omega) (by omega)]
    omega
  have hlen := length_resize m.stringData c
  have hlengths : LengthsFit le order n (resize m.stringData c).length (tsize + 4 * c) data := by
    rw [hlen]
    exact hfit (by omega)
  have hread := hlengths.read_iff hn (by rw [hlen]; omega)
  rw [hlen] at hread
  rw [hsum]
  split
  · rename_i hall
    obtain ⟨hlow, hhigh⟩ := hlengths.total hn (by rw [hlen]; omega) hall
    exact .accepted (hread.mp hall) (by omega) hhigh
  · rename_i hall
    exact .rejected (mt hread.mpr hall) _

theorem BodyFits.outcome (h : BodyFits le data) (hn : data.length < 2147483648)
    (m : WireMessage) : Outcome data.length (PlainMessage le data) (m.readBody le data) := by
  obtain ⟨m', hread⟩ := readBody_strings le m data
  have hsize := fixedSize_ge le data
  unfold PlainMessage
  rw [hread]
  split
  · exact .rejected (fun hplain => absurd hplain.1 (by omega)) _
  obtain ⟨hpos, _, hfit⟩ := h (by omega)
  have hcount : data.drop (fixedSize le data - 1) =
      data.getD (fixedSize le data - 1) 0 :: data.drop (fixedSize le data) := by
    rw [List.drop_eq_getElem_cons (by omega), ← List.getD_eq_getElem _ 0 (by omega),
      Nat.sub_add_cancel (by omega)]
  rw [hcount, and_iff_right (by omega)]
  exact readStringData_outcome hn (Int.toNat_of_nonneg hpos).symm (by omega)
    (by rw [List.length_drop]; omega) hfit m'

theorem inside_frame_iff (data : List UInt8) :
    (∀ a ∈ frameAccesses data, Inside a) ↔ data ≠ [] := by
  have hfirst : Inside (data.length, 1) ↔ data ≠ [] := by
    rw [inside_mk, ← List.length_pos_iff]
    omega
  unfold frameAccesses
  rw [List.forall_mem_cons, hfirst]
  apply and_iff_left
  split
  · nofun
  split
  · nofun
  rw [List.forall_mem_cons, inside_mk]
  refine ⟨by omega, ?_⟩
  split
  · nofun
  rw [List.forall_mem_cons, inside_mk]
  refine ⟨by omega, ?_⟩
  split
  · nofun
  · rw [List.forall_mem_singleton, inside_mk]
    omega

theorem inside_packet_iff (inner : List UInt8 → List Access) (data : List UInt8) :
    (∀ a ∈ packetAccesses inner data, Inside a) ↔
      data ≠ [] ∧ (Framed data → ∀ a ∈ inner (framed data), Inside a) := by
  unfold packetAccesses
  rw [List.forall_mem_append, inside_frame_iff]
  apply and_congr_right
  intro _
  split
  · rename_i hframed
    exact (imp_iff_right hframed).symm
  · rename_i hframed
    exact iff_of_true nofun (fun h => absurd h hframed)

/-- A frame is opened and what it holds is decoded, or nothing happens. -/
theorem unpack_outcome
    (h : Framed data → Outcome n holds (decode m (framed data))) :
    ∃ r, unpack decode m data = some r ∧ (0 < r.1 ↔ Framed data ∧ holds) ∧
      (0 < r.1 → r.1 ≤ data.length) ∧ (Framed data → r.1 ≤ 0 → r.1 = 0 ∧
        r.2.messageAction = cmdInvalid) := by
  by_cases hframed : Framed data
  · have hsize := hframed.2.2.1
    rw [unpack_framed hframed]
    generalize decode m (framed data) = r at h
    cases h hframed with
    | accepted hin hpos _ =>
      refine ⟨_, rfl, ?_⟩
      dsimp only
      rw [if_pos hpos]
      exact ⟨iff_of_true (by omega) ⟨hframed, hin⟩, fun _ => by omega, fun _ hle => by omega⟩
    | rejected hout m' =>
      exact ⟨_, rfl, iff_of_false (Int.lt_irrefl 0) fun hin => hout hin.2,
        fun hpos => absurd hpos (Int.lt_irrefl 0), fun _ _ => ⟨rfl, rfl⟩⟩
  · exact ⟨_, unpack_unframed hframed _ m,
      iff_of_false (Int.lt_irrefl 0) fun hin => hframed hin.1,
      fun hpos => absurd hpos (Int.lt_irrefl 0), fun h => absurd h hframed⟩

theorem Fits.outcome (h : Fits le fuel data) (hn : data.length < 2147483648) (m : WireMessage) :
    Outcome data.length (HoldsMessage le fuel data) (decodeWithin le fuel m data) := by
  induction fuel generalizing data with
  | zero =>
    unfold decodeWithin HoldsMessage
    split
    · exact .rejected (fun hholds => absurd hholds.1 (by omega)) _
    · rw [and_iff_right (by omega)]
      exact (h (by omega)).outcome hn m
  | succ fuel ih =>
    rw [decodeWithin_succ]
    unfold HoldsMessage
    split
    · exact .rejected (fun hholds => absurd hholds.1 (by omega)) _
    obtain ⟨hin, hbody⟩ := h (by omega)
    have hinner := length_framed data
    obtain ⟨r, hr, hpos, hle, -⟩ := unpack_outcome (m := m)
      fun hframed => ih (hin hframed) (by omega)
    rw [hr, Option.bind_some, and_iff_right (by omega)]
    split
    · rename_i hyes
      exact .accepted (.inl (hpos.mp hyes)) hyes (hle hyes)
    · rename_i hno
      rw [or_iff_right (mt hpos.mpr hno)]
      exact (hbody (mt hpos.mpr hno)).outcome hn r.2

theorem rejects_unpack_iff (h : Framed data → Fits le fuel (framed data))
    (hn : data.length < 2147483648) (m : WireMessage) :
    Rejects (unpack (decodeWithin le fuel) m data) ↔
      ¬ (Framed data ∧ HoldsMessage le fuel (framed data)) := by
  have hinner := length_framed data
  obtain ⟨r, hr, hpos, -⟩ := unpack_outcome (m := m)
    fun hframed => (h hframed).outcome (by omega) m
  rw [← hpos, hr]
  simp [Rejects]

theorem inside_iff_fits (le : Bool) (fuel : Nat) (m : WireMessage) (data : List UInt8)
    (hn : data.length < 2147483648) :
    (∀ a ∈ decodeAccesses le fuel m data, Inside a) ↔ Fits le fuel data := by
  induction fuel generalizing data with
  | zero =>
    unfold decodeAccesses Fits
    split
    · rename_i hshort
      exact iff_of_true nofun (fun h => absurd h (by omega))
    · rw [inside_body_iff le (by omega) hn, imp_iff_right (by omega)]
  | succ fuel ih =>
    unfold decodeAccesses Fits
    split
    · rename_i hshort
      exact iff_of_true nofun (fun h => absurd h (by omega))
    rename_i hlong
    have hsome : data ≠ [] := List.length_pos_iff.mp (by omega)
    have hinner := length_framed data
    rw [imp_iff_right (by omega), List.forall_mem_append, inside_packet_iff, and_iff_right hsome,
      ih (framed data) (by omega), and_congr_right_iff]
    intro hframes
    have hrejects := rejects_unpack_iff hframes hn m
    split
    · rename_i hno
      rw [inside_body_iff le (by omega) hn, imp_iff_right (hrejects.mp hno)]
    · rename_i hno
      exact iff_of_true nofun (fun h => absurd (hrejects.mpr h) hno)

variable (le : Bool) (m : WireMessage)

theorem decodeWithin_fuel (h : data.length ≤ fuel)
    (h' : data.length ≤ fuel') : decodeWithin le fuel m data = decodeWithin le fuel' m data := by
  induction fuel generalizing fuel' data with
  | zero =>
    cases fuel' with
    | zero => rfl
    | succ fuel' =>
      unfold decodeWithin
      rw [if_pos (by omega), if_pos (by omega)]
  | succ fuel ih =>
    cases fuel' with
    | zero =>
      unfold decodeWithin
      rw [if_pos (by omega), if_pos (by omega)]
    | succ fuel' =>
      have hinner := length_framed data
      have hpacket : unpack (decodeWithin le fuel) m data =
        unpack (decodeWithin le fuel') m data := by
        by_cases hframed : Framed data
        · have hsame : decodeWithin le fuel m (framed data) =
            decodeWithin le fuel' m (framed data) :=
            ih (by omega) (by omega)
          rw [unpack_framed hframed, unpack_framed hframed, hsame]
        · rw [unpack_unframed hframed, unpack_unframed hframed]
      rw [decodeWithin_succ, decodeWithin_succ, hpacket]

theorem depacketize_eq (data : List UInt8) :
    m.depacketize le data = unpack (decodeWithin le (data.length - 1)) m data := by
  have hinner := length_framed data
  unfold depacketize
  by_cases hframed : Framed data
  · rw [unpack_framed hframed, unpack_framed hframed]
    exact congrArg (Option.map _) (decodeWithin_fuel le m le_rfl (by omega))
  · rw [unpack_unframed hframed, unpack_unframed hframed]

theorem depacketize_settled_iff (h : Framed data → Fits le (framed data).length (framed data))
    (hn : data.length < 2147483648) :
    Settled data.length (m.depacketize le data) ↔ Framed data ∨ m.messageAction = cmdInvalid := by
  have hinner := length_framed data
  obtain ⟨r, hr, -, hle, hzero⟩ := unpack_outcome (m := m)
    fun hframed => (h hframed).outcome (by omega) m
  by_cases hframed : Framed data
  · refine iff_of_true ⟨r, hr, ?_⟩ (.inl hframed)
    by_cases hyes : 0 < r.1
    · exact .inr ⟨hyes, hle hyes⟩
    · exact .inl (hzero hframed (by omega))
  · unfold depacketize
    rw [unpack_unframed hframed, or_iff_right hframed]
    simp [Settled]

theorem accepts_packet_iff (h : Fits le data.length data) (hn : data.length < 2147483648) :
    (Accepts (m.fromByteArray le data) → Accepts (m.depacketize le data)) ↔
      (45 ≤ data.length → Packet le data ∨ ¬ PlainMessage le data) := by
  have hall : Accepts (m.fromByteArray le data) ↔ HoldsMessage le data.length data :=
    (h.outcome hn m).accepts_iff
  rw [hall]
  by_cases hlong : 45 ≤ data.length
  · have hinner := length_framed data
    rw [show data.length = (data.length - 1) + 1 by omega] at h
    obtain ⟨r, hr, hpos, -⟩ := unpack_outcome (m := m)
      fun hframed => ((h hlong).1 hframed).outcome (by omega) m
    have hpacket : Accepts (m.depacketize le data) ↔ Packet le data := by
      rw [depacketize_eq, hr]
      exact Iff.trans (by simp [Accepts]) hpos
    have hholds : HoldsMessage le data.length data ↔ Packet le data ∨ PlainMessage le data := by
      rw [show data.length = (data.length - 1) + 1 by omega]
      exact and_iff_right hlong
    rw [hpacket, hholds, imp_iff_right hlong]
    tauto
  · refine iff_of_true (fun hholds => ?_) fun hlong' => absurd hlong' hlong
    cases hlen : data.length with
    | zero => exact absurd (hlen ▸ hholds).1 hlong
    | succ fuel => exact absurd (hlen ▸ hholds).1 hlong

end WireMessage

end Helics
