import Mathlib.Order.Lattice
import Mathlib.Order.MinMax
import Mathlib.Tactic.Common

namespace Lookahead

variable {T : Type} [LinearOrder T]

/-- The earliest stamp that can still come out of a link whose sender is at the given floor. -/
def earliest (stamp : α → Option T) (floor : T) : List α → T
  | [] => floor
  | m :: l => match stamp m with
    | some t => min t (earliest stamp floor l)
    | none => earliest stamp floor l

/-- Every promise in the link is kept by all that follows it. -/
def Sound (stamp : α → Option T) (promise : α → T) (floor : T) : List α → Prop
  | [] => True
  | m :: l => promise m ≤ earliest stamp floor l ∧ Sound stamp promise floor l

variable {stamp : α → Option T} {promise : α → T} {floor floor' : T}

theorem earliest_le_floor (l : List α) : earliest stamp floor l ≤ floor := by
  induction l with
  | nil => exact le_rfl
  | cons m l ih =>
    unfold earliest
    cases stamp m with
    | none => exact ih
    | some t => exact le_trans (min_le_right _ _) ih

theorem earliest_le_tail (m : α) (l : List α) :
    earliest stamp floor (m :: l) ≤ earliest stamp floor l := by
  rw [earliest]
  cases stamp m with
  | none => exact le_rfl
  | some t => exact min_le_right _ _

theorem earliest_le_stamp (h : stamp m = some t) (l : List α) :
    earliest stamp floor (m :: l) ≤ t := by
  rw [earliest, h]
  exact min_le_left _ _

theorem earliest_le_of_mem (hm : m ∈ l) (h : stamp m = some t) : earliest stamp floor l ≤ t := by
  induction l with
  | nil => cases hm
  | cons x l ih =>
    obtain rfl | hm := List.mem_cons.mp hm
    · exact earliest_le_stamp h l
    · exact (earliest_le_tail x l).trans (ih hm)

theorem earliest_append (l l' : List α) :
    earliest stamp floor (l ++ l') = earliest stamp (earliest stamp floor l') l := by
  induction l with
  | nil => rfl
  | cons m l ih =>
    simp only [List.cons_append, earliest]
    rw [ih]

theorem le_earliest (hf : floor ≤ floor') (l : List α)
    (h : ∀ m ∈ l, ∀ t, stamp m = some t → floor ≤ t) : floor ≤ earliest stamp floor' l := by
  induction l with
  | nil => exact hf
  | cons m l ih =>
    have hl := ih fun m' hm' => h m' (List.mem_cons_of_mem _ hm')
    rw [earliest]
    cases hm : stamp m with
    | none => exact hl
    | some t => exact le_min (h m List.mem_cons_self t hm) hl

theorem earliest_le_append (hf : floor ≤ floor') (l l' : List α)
    (h : ∀ m ∈ l', ∀ t, stamp m = some t → floor ≤ t) :
    earliest stamp floor l ≤ earliest stamp floor' (l ++ l') := by
  rw [earliest_append]
  induction l with
  | nil => exact (le_earliest hf l' h)
  | cons m l ih =>
    unfold earliest
    cases stamp m with
    | none => exact ih
    | some t => exact min_le_min le_rfl ih

theorem Sound.tail (h : Sound stamp promise floor (m :: l)) : Sound stamp promise floor l := h.2

theorem Sound.append (h : Sound stamp promise floor l) (hf : floor ≤ floor')
    (hl : ∀ m ∈ l', ∀ t, stamp m = some t → floor ≤ t) (h' : Sound stamp promise floor' l') :
    Sound stamp promise floor' (l ++ l') := by
  induction l with
  | nil => exact h'
  | cons m l ih =>
    obtain ⟨hm, ht⟩ := h
    exact ⟨le_trans hm (earliest_le_append hf l l' hl), ih ht⟩

theorem Sound.of_floor (l : List α)
    (h : ∀ m ∈ l, promise m ≤ floor ∧ ∀ t, stamp m = some t → floor ≤ t) :
    Sound stamp promise floor l := by
  induction l with
  | nil => trivial
  | cons m l ih =>
    have hl : ∀ m' ∈ l, promise m' ≤ floor ∧ ∀ t, stamp m' = some t → floor ≤ t :=
      fun m' hm' => h m' (List.mem_cons_of_mem _ hm')
    have hfloor := le_earliest le_rfl l fun m' hm' => (hl m' hm').2
    exact ⟨(h m List.mem_cons_self).1.trans hfloor, ih hl⟩

end Lookahead
