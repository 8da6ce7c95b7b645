import Mathlib.Data.List.DropRight
import Helics.Base64Codec

namespace Helics

abbrev Text := List UInt8

def asciiText (l : List Char) : Text := l.map Char.toUInt8

def isWhiteSpace (c : UInt8) : Bool :=
  (asciiText [' ', '\t', '\n', '\r', ')'] ++ [7, 11, 12, 0]).contains c

def trimString (t : Text) : Text := (t.rdropWhile isWhiteSpace).dropWhile isWhiteSpace

/-- A base64 coding of bytes. -/
structure Base64 where
  encode : Text → Text
  decodeToString : Text → Text

def Base64Codec.coding : Base64 := ⟨base64Encode, fun s => base64Decode s 0⟩

namespace Payload

def quote : UInt8 := '"'.toUInt8

def apostrophe : UInt8 := '\''.toUInt8

def bracket : UInt8 := ']'.toUInt8

variable (b64 : Base64)

def Recorder.encode (bytes : Text) : Text :=
  asciiText ['b', '6', '4', '['] ++ b64.encode bytes ++ [bracket]

def opensAt (s : Text) (pos : Nat) : Bool :=
  decide ((s.drop pos).take 3 = asciiText ['6', '4', '['])

/-- The comparisons throw where the position is beyond the end of the string. -/
def wrapperFrom (s : Text) (pos : Nat) (closed : Bool) : Option Nat :=
  if s.length < pos then none
  else if opensAt s pos && closed then some (pos + 3)
  else if s.length < pos + 3 then none
  else if opensAt s (pos + 3) && closed then some (pos + 6)
  else some 0

def hasB64Wrapper (s : Text) : Option Nat :=
  if s.head? = some quote then wrapperFrom s 2 (decide (s[s.length - 2]? = some bracket))
  else wrapperFrom s 1 (decide (s.getLast? = some bracket))

def isQuote (c : UInt8) : Bool := c = quote || c = apostrophe || c = 96

def removeQuotes (s : Text) : Text :=
  let newString := trimString s
  match newString.head? with
  | none => newString
  | some c =>
    if isQuote c && decide (newString.getLast? = some c) then newString.dropLast.drop 1
    else newString

/-- What is between the opening of a wrapper and its end. -/
def wrapped (s : Text) (offset : Nat) : Text :=
  ((if s.getLast? = some quote then s.dropLast else s).dropLast).drop offset

def startsQuoted (s : Text) : Bool := decide (s.head? = some quote ∨ s.head? = some apostrophe)

def decode (s : Text) : Option Text :=
  if s = [] then some []
  else match hasB64Wrapper s with
    | none => none
    | some 0 => some (if startsQuoted s then removeQuotes s else s)
    | some offset => some (b64.decodeToString (wrapped s offset))

def Quoted (s : Text) : Prop := ∃ q t, (q = quote ∨ q = apostrophe) ∧ s = q :: t ++ [q]

/-- Decoding a string: it does not throw, it inverts the encoding, and it leaves others alone. -/
structure DecodesRight (s : Text) : Prop where
  total : decode b64 s ≠ none
  inverts : ∀ bytes, s = Recorder.encode b64 bytes ∨
    s = quote :: Recorder.encode b64 bytes ++ [quote] →
    decode b64 s = some bytes
  unchanged : ¬ Quoted s → (∀ bytes, s ≠ Recorder.encode b64 bytes) → decode b64 s = some s

def needed (s : Text) : Nat := if s.head? = some quote then 5 else 4

/-- A string that is changed: it looks like a wrapper, or it starts with a quotation mark and ends
with white space. -/
def Altered (s : Text) : Prop :=
  match hasB64Wrapper s with
  | none => False
  | some 0 => startsQuoted s = true ∧ trimString s ≠ s
  | some offset => b64.decodeToString (wrapped s offset) ≠ s

theorem opensAt_length (h : opensAt s pos = true) : pos + 3 ≤ s.length := by
  have hl := congrArg List.length (of_decide_eq_true h)
  simp only [asciiText, List.length_take, List.length_drop, List.length_map, List.length_cons,
    List.length_nil] at hl
  omega

theorem wrapperFrom_eq_none : wrapperFrom s pos closed = none ↔ s.length < pos + 3 := by
  unfold wrapperFrom
  split
  · exact iff_of_true rfl (by omega)
  split
  · rename_i h
    have hl := opensAt_length (Bool.and_eq_true_iff.mp h).1
    exact iff_of_false (Option.some_ne_none _) (by omega)
  split
  · rename_i h
    exact iff_of_true rfl h
  split
  all_goals exact iff_of_false (Option.some_ne_none _) ‹_›

theorem hasB64Wrapper_eq_none : hasB64Wrapper s = none ↔ s.length < needed s := by
  unfold hasB64Wrapper needed
  split <;> exact wrapperFrom_eq_none

theorem wrapperFrom_opening (h : opensAt s pos = true) :
    wrapperFrom s pos true = some (pos + 3) := by
  have hl := opensAt_length h
  unfold wrapperFrom
  rw [if_neg (by omega), h]
  rfl

section
variable (h : ∀ bytes, b64.decodeToString (b64.encode bytes) = bytes) (bytes : Text)
include h

theorem decode_encode : decode b64 (Recorder.encode b64 bytes) = some bytes := by
  have hlast : (Recorder.encode b64 bytes).getLast? = some bracket := List.getLast?_concat
  have hoff : hasB64Wrapper (Recorder.encode b64 bytes) = some 4 := by
    unfold hasB64Wrapper
    have hfirst : (Recorder.encode b64 bytes).head? ≠ some quote :=
      show some 'b'.toUInt8 ≠ some quote by decide
    rw [if_neg hfirst, hlast]
    exact wrapperFrom_opening rfl
  have hinner : wrapped (Recorder.encode b64 bytes) 4 = b64.encode bytes := by
    unfold wrapped
    rw [hlast, if_neg (by decide)]
    unfold Recorder.encode
    rw [List.dropLast_concat]
    rfl
  unfold decode
  rw [if_neg (by simp [Recorder.encode]), hoff]
  simp only [hinner, h]

theorem decode_quoted : decode b64 (quote :: Recorder.encode b64 bytes ++ [quote]) =
    some bytes := by
  have hclosed : quote :: Recorder.encode b64 bytes =
      quote :: asciiText ['b', '6', '4', '['] ++ b64.encode bytes ++ [bracket] := rfl
  have hoff : hasB64Wrapper (quote :: Recorder.encode b64 bytes ++ [quote]) = some 5 := by
    have hend : (quote :: Recorder.encode b64 bytes ++ [quote])[
        (quote :: Recorder.encode b64 bytes ++ [quote]).length - 2]? = some bracket := by
      simp [Recorder.encode, asciiText]
    unfold hasB64Wrapper
    rw [if_pos (by rfl), hend]
    exact wrapperFrom_opening rfl
  have hinner : wrapped (quote :: Recorder.encode b64 bytes ++ [quote]) 5 = b64.encode bytes := by
    unfold wrapped
    rw [List.getLast?_concat, if_pos rfl, List.dropLast_concat, hclosed, List.dropLast_concat]
    rfl
  unfold decode
  rw [if_neg (by simp), hoff]
  simp only [hinner, h]

end

theorem trimString_sublist (s : Text) : (trimString s).Sublist s :=
  (List.dropWhile_suffix _).sublist.trans (List.rdropWhile_prefix _ _).sublist

theorem length_removeQuotes_le (s : Text) : (removeQuotes s).length ≤ (trimString s).length := by
  unfold removeQuotes
  dsimp only
  split
  · rfl
  split
  · rw [List.length_drop, List.length_dropLast]
    omega
  · rfl

theorem removeQuotes_eq_self (hq : ¬ Quoted s) (hs : startsQuoted s = true) (hl : 4 ≤ s.length) :
    removeQuotes s = s ↔ trimString s = s := by
  constructor
  · intro h
    refine (trimString_sublist s).eq_of_length_le ?_
    exact (congrArg List.length h).symm.le.trans (length_removeQuotes_le s)
  · intro h
    unfold removeQuotes
    dsimp only
    rw [h]
    split
    · rfl
    rename_i c hc
    refine if_neg fun hend => hq ?_
    obtain ⟨_, hend⟩ := Bool.and_eq_true_iff.mp hend
    obtain ⟨t, ht⟩ := List.getLast?_eq_some_iff.mp (of_decide_eq_true hend)
    have hcq : c = quote ∨ c = apostrophe := by simpa [startsQuoted, hc] using hs
    cases t with
    | nil =>
      rw [ht] at hl
      simp at hl
    | cons d t =>
      rw [ht] at hc
      cases hc
      exact ⟨_, t, hcq, ht⟩

theorem decode_eq_self (hq : ¬ Quoted s) (hl : needed s ≤ s.length) :
    decode b64 s = some s ↔ ¬ Altered b64 s := by
  have hl4 : 4 ≤ s.length := hl.trans' (by unfold needed; split <;> omega)
  unfold decode Altered
  rw [if_neg (by rintro rfl; simp at hl4)]
  split
  · rename_i hn
    exact absurd hl (not_le.mpr (hasB64Wrapper_eq_none.mp hn))
  · rw [Option.some.injEq]
    split
    · rename_i hs
      rw [removeQuotes_eq_self hq hs hl4]
      simp [hs]
    · rename_i hs
      simp [hs]
  · rw [Option.some.injEq, not_not]

/-- Decoding is right for the empty string and for strings that are long enough for the
comparisons, unless an unquoted string that was not encoded is changed. -/
theorem decodes_right_iff (h : ∀ bytes, b64.decodeToString (b64.encode bytes) = bytes) (s : Text) :
    DecodesRight b64 s ↔ s = [] ∨ (needed s ≤ s.length ∧
      (Quoted s ∨ (∃ bytes, s = Recorder.encode b64 bytes) ∨ ¬ Altered b64 s)) := by
  by_cases hnil : s = []
  · subst hnil
    refine iff_of_true ⟨by simp [decode], fun bytes hs => ?_, fun _ _ => rfl⟩ (.inl rfl)
    simp [Recorder.encode] at hs
  rw [or_iff_right hnil]
  constructor
  · intro hd
    have hl : needed s ≤ s.length := by
      refine not_lt.mp fun hlt => hd.total ?_
      unfold decode
      rw [if_neg hnil, hasB64Wrapper_eq_none.mpr hlt]
    refine ⟨hl, or_iff_not_imp_left.mpr fun hq => or_iff_not_imp_left.mpr fun he => ?_⟩
    exact (decode_eq_self b64 hq hl).mp (hd.unchanged hq (not_exists.mp he))
  · rintro ⟨hl, hcase⟩
    refine ⟨?_, ?_, fun hq he => ?_⟩
    · unfold decode
      rw [if_neg hnil]
      split
      · rename_i hn
        exact absurd hl (not_le.mpr (hasB64Wrapper_eq_none.mp hn))
      all_goals exact Option.some_ne_none _
    · rintro bytes (rfl | rfl)
      · exact decode_encode b64 h bytes
      · exact decode_quoted b64 h bytes
    · obtain hq' | ⟨bytes, he'⟩ | ha := hcase
      · exact absurd hq' hq
      · exact absurd he' (he bytes)
      · exact (decode_eq_self b64 hq hl).mpr ha

theorem coding_inverse (bytes : Text) :
    Base64Codec.coding.decodeToString (Base64Codec.coding.encode bytes) = bytes := by
  have h := Base64Codec.decodeGroups_encode [] (fun _ hc => nomatch hc) bytes
  rw [List.append_nil] at h
  exact h

theorem length_decodeGroups_le (l : Text) : (Base64Codec.decodeGroups l).length ≤ l.length := by
  fun_induction Base64Codec.decodeGroups l with
  | case1 x y z w rest ih =>
    simp only [List.length_cons]
    omega
  | case2 l _ =>
    unfold Base64Codec.decodeTail
    split <;> simp

theorem length_wrapped_le (s : Text) (offset : Nat) :
    (wrapped s (offset + 1)).length ≤ s.length - 1 := by
  unfold wrapped
  rw [List.length_drop, List.length_dropLast]
  split
  · rw [List.length_dropLast]
    omega
  · omega

/-- This coding changes whatever looks like a wrapper, since the decoded bytes are fewer. -/
theorem altered_of_wrapper (h : hasB64Wrapper s = some (k + 1)) :
    Altered Base64Codec.coding s := by
  have hpos : 0 < s.length := List.length_pos_iff.mpr (by rintro rfl; cases h)
  unfold Altered
  rw [h]
  intro heq
  have hfew := (length_decodeGroups_le _).trans
    (List.takeWhile_sublist Base64Codec.isCoded (l := wrapped s (k + 1))).length_le
  have hsame : (Base64Codec.coding.decodeToString (wrapped s (k + 1))).length = s.length :=
    congrArg List.length heq
  have hwrapped := length_wrapped_le s k
  exact absurd (hsame.symm.le.trans (hfew.trans hwrapped)) (by omega)

theorem decodes_right_encoded :
    DecodesRight Base64Codec.coding (Recorder.encode Base64Codec.coding [7]) :=
  (decodes_right_iff Base64Codec.coding coding_inverse _).mpr
    (.inr ⟨by decide +kernel, .inr (.inl ⟨[7], rfl⟩)⟩)

/-- Three characters are too few for the comparisons, and any wrapper of the same form as an
encoded one is decoded. -/
theorem short_payload_throws : decode Base64Codec.coding (asciiText ['a', 'b', 'c']) = none ∧
    decode Base64Codec.coding (asciiText ['x', '6', '4', '[', ']']) = some [] ∧
    Altered Base64Codec.coding (asciiText ['x', '6', '4', '[', ']']) :=
  ⟨by decide +kernel, by decide +kernel, altered_of_wrapper (k := 3) (by decide +kernel)⟩

end Payload

end Helics
