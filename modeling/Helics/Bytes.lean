import Mathlib.Algebra.GroupWithZero.Nat
import Mathlib.Data.List.Basic

namespace Bytes

/-- The lowest `n` bytes of a number, the lowest first. -/
def little : Nat → Nat → List UInt8
  | 0, _ => []
  | n + 1, v => UInt8.ofNat v :: little n (v / 256)

def ofLittle : List UInt8 → Nat
  | [] => 0
  | b :: bs => b.toNat + 256 * ofLittle bs

@[simp] theorem length_little (n v : Nat) : (little n v).length = n := by
  induction n generalizing v with
  | zero => rfl
  | succ n ih => rw [little, List.length_cons, ih]

theorem ofLittle_little (h : v < 256 ^ n) : ofLittle (little n v) = v := by
  induction n generalizing v with
  | zero =>
    rw [Nat.pow_zero] at h
    rw [little, ofLittle]
    omega
  | succ n ih =>
    have hq : v / 256 < 256 ^ n :=
      Nat.div_lt_of_lt_mul (by rw [Nat.pow_succ, Nat.mul_comm] at h; exact h)
    rw [little, ofLittle, ih hq, UInt8.toNat_ofNat']
    omega

/-- The bytes of a number in the memory of a machine that may be little endian. -/
def native (le : Bool) (n v : Nat) : List UInt8 :=
  if le then little n v else (little n v).reverse

def ofNative (le : Bool) (bs : List UInt8) : Nat :=
  if le then ofLittle bs else ofLittle bs.reverse

@[simp] theorem length_native (le : Bool) (n v : Nat) : (native le n v).length = n := by
  cases le
  · exact (List.length_reverse).trans (length_little n v)
  · exact length_little n v

def swap (n v : Nat) : Nat := ofLittle (little n v).reverse

def readNat (le : Bool) (n : Nat) (data : List UInt8) : Nat × List UInt8 :=
  (ofNative le (data.take n), data.drop n)

theorem ofLittle_lt (bs : List UInt8) : ofLittle bs < 256 ^ bs.length := by
  induction bs with
  | nil => exact Nat.one_pos
  | cons b bs ih =>
    have hb := b.toNat_lt
    rw [ofLittle, List.length_cons, Nat.pow_succ]
    omega

theorem little_ofLittle (bs : List UInt8) : little bs.length (ofLittle bs) = bs := by
  induction bs with
  | nil => rfl
  | cons b bs ih =>
    have hb := b.toNat_lt
    have hquot : (b.toNat + 256 * ofLittle bs) / 256 = ofLittle bs := by omega
    have hlow : UInt8.ofNat (b.toNat + 256 * ofLittle bs) = b := by
      apply UInt8.toNat_inj.mp
      rw [UInt8.toNat_ofNat']
      omega
    rw [ofLittle, List.length_cons, little, hquot, hlow, ih]

theorem swap_lt (n v : Nat) : swap n v < 256 ^ n := by
  have hlt := ofLittle_lt (little n v).reverse
  rw [List.length_reverse, length_little] at hlt
  exact hlt

theorem swap_swap (h : v < 256 ^ n) : swap n (swap n v) = v := by
  have hback := little_ofLittle (little n v).reverse
  rw [List.length_reverse, length_little] at hback
  unfold swap
  rw [hback, List.reverse_reverse, ofLittle_little h]

def reader (le same : Bool) : Bool := if same then le else !le

/-- What a machine reads where the other one has written a number. -/
def turn (same : Bool) (n v : Nat) : Nat := if same then v else swap n v

theorem readNat_append (le same : Bool) (h : v < 256 ^ n) (rest : List UInt8) :
    readNat (reader le same) n (native le n v ++ rest) = (turn same n v, rest) := by
  unfold readNat
  rw [List.take_left' (length_native le n v), List.drop_left' (length_native le n v)]
  congr 1
  cases le <;> cases same
  · rfl
  · show ofLittle (little n v).reverse.reverse = v
    rw [List.reverse_reverse]
    exact ofLittle_little h
  · rfl
  · exact ofLittle_little h

def big3 (v : Nat) : List UInt8 := [UInt8.ofNat (v / 65536), UInt8.ofNat (v / 256), UInt8.ofNat v]

@[simp] theorem length_big3 (v : Nat) : (big3 v).length = 3 := rfl

def ofBig3 (a b c : UInt8) : Nat := 65536 * a.toNat + 256 * b.toNat + c.toNat

theorem ofBig3_big3 (h : v < 16777216) :
    ofBig3 (UInt8.ofNat (v / 65536)) (UInt8.ofNat (v / 256)) (UInt8.ofNat v) = v := by
  unfold ofBig3
  rw [UInt8.toNat_ofNat', UInt8.toNat_ofNat', UInt8.toNat_ofNat']
  omega

end Bytes
