import Mathlib.Algebra.GroupWithZero.Nat
import Mathlib.Order.Lattice
import Mathlib.Tactic.Common

namespace Helics

/-- A simulation time, held as a signed 64-bit count of nanoseconds. -/
@[ext] structure Time where
  ns : Int
  lower : -9223372036854775808 ≤ ns
  upper : ns < 9223372036854775808

namespace Time

instance : LE Time := ⟨fun a b => a.ns ≤ b.ns⟩

instance : LT Time := ⟨fun a b => a.ns < b.ns⟩

instance : DecidableEq Time := fun a b =>
  if h : a.ns = b.ns then isTrue (Time.ext h) else isFalse (fun he => h (congrArg ns he))

instance decidableLE : DecidableLE Time := fun a b => inferInstanceAs (Decidable (a.ns ≤ b.ns))

instance decidableLT : DecidableLT Time := fun a b => inferInstanceAs (Decidable (a.ns < b.ns))

theorem le_def (a b : Time) : a ≤ b ↔ a.ns ≤ b.ns := Iff.rfl

theorem lt_def (a b : Time) : a < b ↔ a.ns < b.ns := Iff.rfl

theorem eq_def (a b : Time) : a = b ↔ a.ns = b.ns := Time.ext_iff

instance : LinearOrder Time where
  le_refl a := Int.le_refl a.ns
  le_trans _ _ _ := Int.le_trans
  lt_iff_le_not_ge a b := by simp only [le_def, lt_def]; omega
  le_antisymm _ _ h₁ h₂ := Time.ext (Int.le_antisymm h₁ h₂)
  le_total a b := Int.le_total a.ns b.ns
  toDecidableLE := decidableLE
  toDecidableEq := inferInstance
  toDecidableLT := decidableLT

/-- The count that a 64-bit register holds after an operation with exact result `z`. -/
def wrap (z : Int) : Time where
  ns := z.bmod 18446744073709551616
  lower := by
    have h := Int.le_bmod (x := z) (m := 18446744073709551616) (by decide)
    omega
  upper := by
    have h := Int.bmod_lt (x := z) (m := 18446744073709551616) (by decide)
    omega

theorem ns_wrap (h₁ : -9223372036854775808 ≤ z) (h₂ : z < 9223372036854775808) : (wrap z).ns = z :=
  Int.bmod_eq_of_le (by omega) (by omega)

theorem wrap_ns (t : Time) : wrap t.ns = t :=
  Time.ext (ns_wrap t.lower t.upper)

instance : Add Time := ⟨fun a b => wrap (a.ns + b.ns)⟩

instance : Sub Time := ⟨fun a b => wrap (a.ns - b.ns)⟩

def zero : Time := wrap 0

def epsilon : Time := wrap 1

def negEpsilon : Time := wrap (-1)

def maxVal : Time := wrap 9223372036854775807

def minVal : Time := wrap (-9223372036854775807)

/-- The value `-1` that a time is assigned where it cannot be trusted: minus one second. -/
def untrusted : Time := wrap (-1000000000)

@[simp] theorem ns_zero : zero.ns = 0 := rfl

@[simp] theorem ns_epsilon : epsilon.ns = 1 := rfl

@[simp] theorem ns_maxVal : maxVal.ns = 9223372036854775807 := rfl

theorem ns_add_of_fits (h₁ : -9223372036854775808 ≤ a.ns + b.ns)
    (h₂ : a.ns + b.ns < 9223372036854775808) : (a + b : Time).ns = a.ns + b.ns :=
  ns_wrap h₁ h₂

@[simp] theorem add_zero (t : Time) : t + zero = t := by
  apply Time.ext
  have h := ns_add_of_fits (a := t) (b := zero)
  simp only [ns_zero, Int.add_zero] at h
  exact h t.lower t.upper

@[simp] theorem zero_add (t : Time) : zero + t = t := by
  apply Time.ext
  have h := ns_add_of_fits (a := zero) (b := t)
  simp only [ns_zero, Int.zero_add] at h
  exact h t.lower t.upper

theorem le_maxVal (t : Time) : t ≤ maxVal := by
  have h := t.upper
  simp only [le_def, ns_maxVal]
  omega

theorem eq_maxVal (h : maxVal ≤ t) : t = maxVal :=
  le_antisymm t.le_maxVal h

end Time

end Helics
