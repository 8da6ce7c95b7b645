import Mathlib.Algebra.GroupWithZero.Nat
import Mathlib.Tactic.Common

namespace Helics

namespace Base64Codec

def base64Chars : List UInt8 :=
  "ABCDEFGHIJKLMNOPQRSTUVWXYZabcdefghijklmnopqrstuvwxyz0123456789+/".toList.map
    fun c => UInt8.ofNat c.toNat

/-- The table of `base64Mapper`: three runs of characters and two single ones. -/
def b64Map (c : UInt8) : UInt8 :=
  if 65 ≤ c ∧ c ≤ 90 then c - 65
  else if 97 ≤ c ∧ c ≤ 122 then c - 97 + 26
  else if 48 ≤ c ∧ c ≤ 57 then c - 48 + 52
  else if c = 43 then 62
  else if c = 47 then 63
  else 0xff

def isBase64 (c : UInt8) : Bool := decide (b64Map c < 0xff)

def sextet1 (a : UInt8) : UInt8 := (a &&& 0xfc) >>> 2
def sextet2 (a b : UInt8) : UInt8 := ((a &&& 0x03) <<< 4) + ((b &&& 0xf0) >>> 4)
def sextet3 (b c : UInt8) : UInt8 := ((b &&& 0x0f) <<< 2) + ((c &&& 0xc0) >>> 6)
def sextet4 (c : UInt8) : UInt8 := c &&& 0x3f

def charAt (i : UInt8) : UInt8 := base64Chars.getD i.toNat 0

/-- The last group is filled with zeros, and what stands for them with padding. -/
def base64Encode : List UInt8 → List UInt8
  | [] => []
  | [a] => [charAt (sextet1 a), charAt (sextet2 a 0), 61, 61]
  | [a, b] => [charAt (sextet1 a), charAt (sextet2 a b), charAt (sextet3 b 0), 61]
  | a :: b :: c :: rest =>
    charAt (sextet1 a) :: charAt (sextet2 a b) :: charAt (sextet3 b c) :: charAt (sextet4 c) ::
      base64Encode rest

def octet1 (x y : UInt8) : UInt8 := (x <<< 2) + ((y &&& 0x30) >>> 4)
def octet2 (y z : UInt8) : UInt8 := ((y &&& 0xf) <<< 4) + ((z &&& 0x3c) >>> 2)
def octet3 (z w : UInt8) : UInt8 := ((z &&& 0x3) <<< 6) + w

/-- A group of fewer than four characters has one byte less than characters. -/
def decodeTail : List UInt8 → List UInt8
  | [x, y] => [octet1 (b64Map x) (b64Map y)]
  | [x, y, z] => [octet1 (b64Map x) (b64Map y), octet2 (b64Map y) (b64Map z)]
  | _ => []

def decodeGroups : List UInt8 → List UInt8
  | x :: y :: z :: w :: rest =>
    octet1 (b64Map x) (b64Map y) :: octet2 (b64Map y) (b64Map z) :: octet3 (b64Map z) (b64Map w) ::
      decodeGroups rest
  | tail => decodeTail tail

def isCoded (c : UInt8) : Bool := c != 61 && isBase64 c

/-- The loop of `base64_decode` and `base64_decode_to_string` ends at the first character that does
not belong to the coding, or at the end of the string. -/
def base64Decode (encoded : List UInt8) (offset : Nat) : List UInt8 :=
  decodeGroups ((encoded.drop offset).takeWhile isCoded)

/-- The groups are stored from an index on; one that does not fit is cut, and ends the loop unless
nothing of it fits. -/
def storeGroups (maxSize : Nat) : Nat → List UInt8 → List UInt8
  | index, x :: y :: z :: w :: rest =>
    if index + 2 < maxSize then
      octet1 (b64Map x) (b64Map y) :: octet2 (b64Map y) (b64Map z) ::
        octet3 (b64Map z) (b64Map w) :: storeGroups maxSize (index + 3) rest
    else if index + 1 < maxSize then
      [octet1 (b64Map x) (b64Map y), octet2 (b64Map y) (b64Map z)]
    else if index < maxSize then [octet1 (b64Map x) (b64Map y)]
    else storeGroups maxSize index rest
  | index, tail => (decodeTail tail).take (maxSize - index)

def base64DecodeInto (encoded : List UInt8) (maxSize : Nat) : List UInt8 :=
  storeGroups maxSize 0 (encoded.takeWhile isCoded)

theorem forall_byte {P : UInt8 → Prop} (h : ∀ n < 256, P (.ofNat n)) (a : UInt8) : P a :=
  a.ofNat_toNat ▸ h a.toNat a.toNat_lt

theorem encoded_bits : ∀ a : UInt8,
    ((a &&& 0xfc) >>> 2).toNat = a.toNat / 4 ∧ ((a &&& 0x03) <<< 4).toNat = a.toNat % 4 * 16 ∧
    ((a &&& 0xf0) >>> 4).toNat = a.toNat / 16 ∧ ((a &&& 0x0f) <<< 2).toNat = a.toNat % 16 * 4 ∧
    ((a &&& 0xc0) >>> 6).toNat = a.toNat / 64 ∧ (a &&& 0x3f).toNat = a.toNat % 64 :=
  forall_byte (by decide +kernel)

theorem decoded_bits : ∀ x : UInt8,
    (x <<< 2).toNat = x.toNat * 4 % 256 ∧ ((x &&& 0x30) >>> 4).toNat = x.toNat / 16 % 4 ∧
    ((x &&& 0xf) <<< 4).toNat = x.toNat % 16 * 16 ∧
    ((x &&& 0x3c) >>> 2).toNat = x.toNat / 4 % 16 ∧ ((x &&& 0x3) <<< 6).toNat = x.toNat % 4 * 64 :=
  forall_byte (by decide +kernel)

theorem charAt_coded : ∀ i : UInt8, i.toNat < 64 →
    isCoded (charAt i) = true ∧ b64Map (charAt i) = i :=
  forall_byte (by decide +kernel)

theorem toNat_sextet1 (a : UInt8) : (sextet1 a).toNat = a.toNat / 4 := (encoded_bits a).1

theorem toNat_sextet2 (a b : UInt8) : (sextet2 a b).toNat = a.toNat % 4 * 16 + b.toNat / 16 := by
  have hb := b.toNat_lt
  unfold sextet2
  rw [UInt8.toNat_add, (encoded_bits a).2.1, (encoded_bits b).2.2.1]
  omega

theorem toNat_sextet3 (b c : UInt8) : (sextet3 b c).toNat = b.toNat % 16 * 4 + c.toNat / 64 := by
  have hc := c.toNat_lt
  unfold sextet3
  rw [UInt8.toNat_add, (encoded_bits b).2.2.2.1, (encoded_bits c).2.2.2.2.1]
  omega

theorem toNat_sextet4 (c : UInt8) : (sextet4 c).toNat = c.toNat % 64 := (encoded_bits c).2.2.2.2.2

theorem octet1_sextets (a b : UInt8) : octet1 (sextet1 a) (sextet2 a b) = a := by
  have ha := a.toNat_lt
  have hb := b.toNat_lt
  apply UInt8.toNat.inj
  unfold octet1
  rw [UInt8.toNat_add, (decoded_bits _).1, (decoded_bits _).2.1, toNat_sextet1, toNat_sextet2]
  omega

theorem octet2_sextets (a b c : UInt8) : octet2 (sextet2 a b) (sextet3 b c) = b := by
  have hb := b.toNat_lt
  have hc := c.toNat_lt
  apply UInt8.toNat.inj
  unfold octet2
  rw [UInt8.toNat_add, (decoded_bits _).2.2.1, (decoded_bits _).2.2.2.1, toNat_sextet2,
    toNat_sextet3]
  omega

theorem octet3_sextets (b c : UInt8) : octet3 (sextet3 b c) (sextet4 c) = c := by
  have hc := c.toNat_lt
  apply UInt8.toNat.inj
  unfold octet3
  rw [UInt8.toNat_add, (decoded_bits _).2.2.2.2, toNat_sextet3, toNat_sextet4]
  omega

section
variable (a b c : UInt8)

theorem charAt_sextet1 : isCoded (charAt (sextet1 a)) = true ∧
    b64Map (charAt (sextet1 a)) = sextet1 a := by
  have ha := a.toNat_lt
  exact charAt_coded _ (by rw [toNat_sextet1]; omega)

theorem charAt_sextet2 : isCoded (charAt (sextet2 a b)) = true ∧
    b64Map (charAt (sextet2 a b)) = sextet2 a b := by
  have hb := b.toNat_lt
  exact charAt_coded _ (by rw [toNat_sextet2]; omega)

theorem charAt_sextet3 : isCoded (charAt (sextet3 b c)) = true ∧
    b64Map (charAt (sextet3 b c)) = sextet3 b c := by
  have hc := c.toNat_lt
  exact charAt_coded _ (by rw [toNat_sextet3]; omega)

theorem charAt_sextet4 : isCoded (charAt (sextet4 c)) = true ∧
    b64Map (charAt (sextet4 c)) = sextet4 c :=
  charAt_coded _ (by rw [toNat_sextet4]; omega)

end

theorem decodeGroups_encode (post : List UInt8) (h : ∀ c ∈ post.head?, isCoded c = false)
    (bytes : List UInt8) :
    decodeGroups ((base64Encode bytes ++ post).takeWhile isCoded) = bytes := by
  have hpad : isCoded 61 = false := rfl
  induction bytes using base64Encode.induct with
  | case1 =>
    cases post with
    | nil => rfl
    | cons c post =>
      have hc : isCoded c = false := h c rfl
      simp [base64Encode, hc, decodeGroups, decodeTail]
  | case2 a =>
    simp [base64Encode, charAt_sextet1, charAt_sextet2, hpad, decodeGroups, decodeTail,
      octet1_sextets]
  | case3 a b =>
    simp [base64Encode, charAt_sextet1, charAt_sextet2, charAt_sextet3, hpad, decodeGroups,
      decodeTail, octet1_sextets, octet2_sextets]
  | case4 a b c rest ih =>
    simp [base64Encode, charAt_sextet1, charAt_sextet2, charAt_sextet3, charAt_sextet4,
      decodeGroups, octet1_sextets, octet2_sextets, octet3_sextets, ih]

/-- Any bytes are read back from their coding inside of a string, if no character of the coding
follows it. -/
theorem decode_inverts_encode (pre bytes post : List UInt8)
    (h : ∀ c ∈ post.head?, isCoded c = false) :
    base64Decode (pre ++ (base64Encode bytes ++ post)) pre.length = bytes := by
  unfold base64Decode
  rw [List.drop_left]
  exact decodeGroups_encode post h bytes

-- a payload in the text of a message, between "b64[" and the closing bracket
theorem bracketed_payload_decoded :
    base64Decode ([98, 54, 52, 91] ++ (base64Encode [0, 255, 7, 61] ++ [93])) 4 = [0, 255, 7, 61] :=
  decode_inverts_encode [98, 54, 52, 91] [0, 255, 7, 61] [93] (by rintro c ⟨⟩; rfl)

/-- The coding has whole groups of the alphabet, the last with at most two signs of padding. -/
theorem encode_well_formed (bytes : List UInt8) :
    (base64Encode bytes).length = 4 * ((bytes.length + 2) / 3) ∧
    ∃ body k, base64Encode bytes = body ++ List.replicate k 61 ∧ k ≤ 2 ∧
      body.all isCoded = true := by
  induction bytes using base64Encode.induct with
  | case1 => exact ⟨rfl, [], 0, rfl, by decide, rfl⟩
  | case2 a =>
    refine ⟨by simp [base64Encode], [_, _], 2, rfl, by decide, ?_⟩
    simp [charAt_sextet1, charAt_sextet2]
  | case3 a b =>
    refine ⟨by simp [base64Encode], [_, _, _], 1, rfl, by decide, ?_⟩
    simp [charAt_sextet1, charAt_sextet2, charAt_sextet3]
  | case4 a b c rest ih =>
    obtain ⟨hlen, body, k, hbody, hk, hall⟩ := ih
    refine ⟨?_, _ :: _ :: _ :: _ :: body, k, by rw [base64Encode, hbody]; rfl, hk, ?_⟩
    · simp only [base64Encode, List.length_cons, hlen]
      omega
    · simp [charAt_sextet1, charAt_sextet2, charAt_sextet3, charAt_sextet4, hall]

theorem storeGroups_eq (maxSize index : Nat) (l : List UInt8) :
    storeGroups maxSize index l = (decodeGroups l).take (maxSize - index) := by
  fun_induction storeGroups maxSize index l with
  | case1 index x y z w rest h ih =>
    obtain ⟨k, hk⟩ : ∃ k, maxSize - index = k + 3 := ⟨maxSize - index - 3, by omega⟩
    rw [ih, hk, show maxSize - (index + 3) = k by omega]
    rfl
  | case2 index x y z w rest h h' => rw [show maxSize - index = 2 by omega]; rfl
  | case3 index x y z w rest h h' h'' => rw [show maxSize - index = 1 by omega]; rfl
  | case4 index x y z w rest h h' h'' ih => rw [ih, show maxSize - index = 0 by omega]; rfl
  | case5 index tail hne => rw [decodeGroups.eq_2 tail hne]

/-- The bounded decoder stores the first bytes of the result, as many as there is room for. -/
theorem decodeInto_eq_take (encoded : List UInt8) (maxSize : Nat) :
    base64DecodeInto encoded maxSize = (base64Decode encoded 0).take maxSize :=
  storeGroups_eq maxSize 0 _

end Base64Codec

end Helics
