import Mathlib.Order.Bounds.Basic
import Mathlib.Tactic.Common

namespace Grid

variable {a b k p t u : Int}

def ceilDiv (a p : Int) : Int := -((-a) / p)

section
variable (hp : 0 < p)
include hp

theorem ceilDiv_le_iff : ceilDiv a p ≤ k ↔ a ≤ k * p := by
  have h := Int.le_ediv_iff_mul_le (a := -k) (b := -a) hp
  rw [Int.neg_mul] at h
  unfold ceilDiv
  omega

theorem le_ceilDiv_mul (a : Int) : a ≤ ceilDiv a p * p :=
  (ceilDiv_le_iff hp).mp le_rfl

theorem lt_ceilDiv_iff : k < ceilDiv a p ↔ k * p < a := by
  have h := ceilDiv_le_iff (a := a) (k := k) hp
  omega

def upFrom (b p t : Int) : Set Int := {z | ∃ k : Int, 1 ≤ k ∧ z = b + k * p ∧ t ≤ z}

def alignUp (b p t : Int) : Int := b + max 1 (ceilDiv (t - b) p) * p

theorem le_alignUp (b t : Int) : t ≤ alignUp b p t := by
  have h₁ := le_ceilDiv_mul hp (t - b)
  have h₂ := Int.mul_le_mul_of_nonneg_right (le_max_right 1 (ceilDiv (t - b) p)) hp.le
  unfold alignUp
  omega

theorem alignUp_le (hk : 1 ≤ k) (ht : t ≤ b + k * p) : alignUp b p t ≤ b + k * p := by
  have hc : ceilDiv (t - b) p ≤ k := (ceilDiv_le_iff hp).mpr (by omega)
  have h := Int.mul_le_mul_of_nonneg_right (max_le hk hc) hp.le
  unfold alignUp
  omega

theorem isLeast_alignUp (b t : Int) : IsLeast (upFrom b p t) (alignUp b p t) := by
  constructor
  · exact ⟨_, le_max_left _ _, rfl, le_alignUp hp b t⟩
  · rintro z ⟨k, hk, rfl, ht⟩
    exact alignUp_le hp hk ht

theorem alignUp_mono (b : Int) (h : t ≤ u) : alignUp b p t ≤ alignUp b p u :=
  alignUp_le hp (le_max_left _ _) (h.trans (le_alignUp hp b u))

theorem step_le_alignUp (b t : Int) : b + p ≤ alignUp b p t := by
  have h := Int.mul_le_mul_of_nonneg_right (le_max_left 1 (ceilDiv (t - b) p)) hp.le
  unfold alignUp
  omega

theorem alignUp_near (h : t ≤ b + p) : alignUp b p t = b + p :=
  le_antisymm (by simpa using alignUp_le hp le_rfl (by simpa using h)) (step_le_alignUp hp b t)

theorem alignUp_far (h : b + p < t) : alignUp b p t = b + ceilDiv (t - b) p * p := by
  have h₁ : 1 < ceilDiv (t - b) p := (lt_ceilDiv_iff hp).mpr (by omega)
  unfold alignUp
  rw [max_eq_right h₁.le]

theorem add_step_le_alignUp (hx : b + k * p < t) : b + k * p + p ≤ alignUp b p t := by
  have h := lt_of_lt_of_le hx (le_alignUp hp b t)
  unfold alignUp at h ⊢
  have hk : k < max 1 (ceilDiv (t - b) p) :=
    Int.lt_of_mul_lt_mul_right (by omega : k * p < max 1 (ceilDiv (t - b) p) * p) hp.le
  have hm := Int.mul_le_mul_of_nonneg_right (show k + 1 ≤ _ from hk) hp.le
  rw [Int.add_mul, Int.one_mul] at hm
  omega

end

theorem dvd_alignUp_sub (b p t : Int) : p ∣ alignUp b p t - b :=
  ⟨max 1 (ceilDiv (t - b) p), by unfold alignUp; rw [Int.mul_comm]; omega⟩

end Grid
