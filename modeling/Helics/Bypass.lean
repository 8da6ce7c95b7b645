import Mathlib.Logic.Relation

namespace Bypass

open Relation (TransGen ReflTransGen)

variable {α : Type*}

/-- A relation in which one vertex has been taken out and its neighbours have been joined by the
edges of a third relation. Vertices outside of `V` may gain incoming edges but lead nowhere. -/
structure TakenOut (V : α → Prop) (n : α) (joined before after : α → α → Prop) : Prop where
  outside : ¬ V n
  edge : ∀ x y, V x → V y → x ≠ y → (after x y ↔ before x y ∨ joined x y)
  into : ∀ x, V x → after x n → before x n
  out : ∀ y, V y → after n y → before n y
  target_before : ∀ x y, before x y → V y ∨ y = n
  source_after : ∀ x y, after x y → V x ∨ x = n

def Balanced (V : α → Prop) (n : α) (joined before : α → α → Prop) : Prop :=
  ∀ x y, V x → V y → x ≠ y → (joined x y ↔ before x n ∧ before n y)

def SameReach (V : α → Prop) (before after : α → α → Prop) : Prop :=
  ∀ x y, V x → V y → x ≠ y → (TransGen before x y ↔ TransGen after x y)

variable {V : α → Prop} {n : α} {joined before after : α → α → Prop}

theorem transGen_of_ne (h : ReflTransGen r x y) (hne : x ≠ y) :
    TransGen r x y := by
  cases Relation.reflTransGen_iff_eq_or_transGen.mp h with
  | inl heq => exact absurd heq.symm hne
  | inr h => exact h

section
variable (h : TakenOut V n joined before after)
include h

section
variable (hb : Balanced V n joined before)
include hb

/-- From the end of a path backwards: what the start reaches it still reaches, and what the removed
vertex reached its former predecessors still reach. -/
theorem TakenOut.keeps (hy : V y) (hpath : ReflTransGen before x y) :
    (V x → ReflTransGen after x y) ∧ (x = n → ∀ z, V z → before z n → ReflTransGen after z y) := by
  induction hpath using ReflTransGen.head_induction_on with
  | refl =>
    constructor
    · intro _
      exact .refl
    · rintro rfl
      exact absurd hy h.outside
  | @head x w hxw _ ih =>
    cases h.target_before x w hxw with
    | inr hw =>
      subst hw
      constructor
      · intro hx
        exact ih.2 rfl x hx hxw
      · intro _
        exact ih.2 rfl
    | inl hw =>
      constructor
      · intro hx
        by_cases heq : x = w
        · rw [heq]
          exact ih.1 hw
        · exact .head ((h.edge x w hx hw heq).mpr (.inl hxw)) (ih.1 hw)
      · rintro rfl z hz hzn
        by_cases heq : z = w
        · rw [heq]
          exact ih.1 hw
        · have hjoin := (hb z w hz hw heq).mpr ⟨hzn, hxw⟩
          exact .head ((h.edge z w hz hw heq).mpr (.inr hjoin)) (ih.1 hw)

theorem TakenOut.edge_reach
    (hx : V x ∨ x = n) (hw : V w ∨ w = n) (hxw : after x w) : ReflTransGen before x w := by
  by_cases heq : x = w
  · rw [heq]
  cases hx with
  | inl hx =>
    cases hw with
    | inl hw =>
      cases (h.edge x w hx hw heq).mp hxw with
      | inl hold => exact .single hold
      | inr hjoin =>
        obtain ⟨hxn, hnw⟩ := (hb x w hx hw heq).mp hjoin
        exact .head hxn (.single hnw)
    | inr hw =>
      subst hw
      exact .single (h.into x hx hxw)
  | inr hx =>
    subst hx
    cases hw with
    | inl hw => exact .single (h.out w hw hxw)
    | inr hw => exact absurd hw.symm heq

theorem TakenOut.adds_nothing (hy : V y) (hpath : ReflTransGen after x y)
    (hx : V x ∨ x = n) : ReflTransGen before x y := by
  induction hpath using ReflTransGen.head_induction_on with
  | refl => exact .refl
  | @head x w hxw hrest ih =>
    have hw : V w ∨ w = n := by
      cases Relation.ReflTransGen.cases_head hrest with
      | inl heq => exact .inl (heq ▸ hy)
      | inr hnext =>
        obtain ⟨v, hwv, _⟩ := hnext
        exact h.source_after w v hwv
    exact (h.edge_reach hb hx hw hxw).trans (ih hw)

theorem TakenOut.sameReach : SameReach V before after := by
  intro x y hx hy hne
  constructor
  · intro hpath
    exact transGen_of_ne ((h.keeps hb hy hpath.to_reflTransGen).1 hx) hne
  · intro hpath
    exact transGen_of_ne (h.adds_nothing hb hy hpath.to_reflTransGen (.inl hx)) hne

end

end

structure Star (n : α) (before : α → α → Prop) : Prop where
  edge : ∀ x y, before x y → x = n ∨ y = n

theorem Star.transGen_iff (h : Star n before) (hx : x ≠ n) (hy : y ≠ n) :
    TransGen before x y ↔ before x n ∧ before n y := by
  constructor
  · intro hpath
    constructor
    · cases Relation.TransGen.head'_iff.mp hpath with
      | intro w hw =>
        cases h.edge x w hw.1 with
        | inl heq => exact absurd heq hx
        | inr heq => exact heq ▸ hw.1
    · cases Relation.TransGen.tail'_iff.mp hpath with
      | intro w hw =>
        cases h.edge w y hw.2 with
        | inl heq => exact heq ▸ hw.2
        | inr heq => exact absurd heq hy
  · rintro ⟨hxn, hny⟩
    exact .head hxn (.single hny)

theorem transGen_pair
    (hedge : ∀ v w, r v w → v ≠ w → (v = p ∧ w = q) ∨ (v = q ∧ w = p))
    (hpath : TransGen r x y) (hne : x ≠ y) : r x y := by
  induction hpath with
  | single h => exact h
  | @tail w y _ hwy ih =>
    by_cases hxw : x = w
    · rw [hxw]
      exact hwy
    by_cases hwy' : w = y
    · rw [← hwy']
      exact ih hxw
    have hfirst := hedge x w (ih hxw) hxw
    have hlast := hedge w y hwy hwy'
    exfalso
    grind

def Blocked (V : α → Prop) (n : α) (after : α → α → Prop) : Prop :=
  (∀ x, V x → ¬ after x n) ∨ ∀ y, V y → ¬ after n y

def Within (V : α → Prop) (r : α → α → Prop) (x y : α) : Prop := V x ∧ V y ∧ r x y

theorem within_of_no_entry (hsource : ∀ x y, after x y → V x ∨ x = n)
    (hin : ∀ x, V x → ¬ after x n) (hx : V x) (hpath : TransGen after x y) :
    y ≠ n ∧ (V y → TransGen (Within V after) x y) := by
  induction hpath with
  | @single y hxy =>
    constructor
    · rintro rfl
      exact hin x hx hxy
    · intro hy
      exact .single ⟨hx, hy, hxy⟩
  | @tail w y _ hwy ih =>
    have hw : V w := (hsource w y hwy).resolve_right ih.1
    constructor
    · rintro rfl
      exact hin w hw hwy
    · intro hy
      exact .tail (ih.2 hw) ⟨hw, hy, hwy⟩

theorem within_of_no_exit (hsource : ∀ x y, after x y → V x ∨ x = n)
    (hout : ∀ y, V y → ¬ after n y) (hy : V y) (hpath : TransGen after x y) :
    V x ∧ TransGen (Within V after) x y := by
  induction hpath using TransGen.head_induction_on with
  | @single x hxy =>
    have hx : V x := by
      cases hsource x y hxy with
      | inl hx => exact hx
      | inr heq => exact absurd (heq ▸ hxy) (hout y hy)
    exact ⟨hx, .single ⟨hx, hy, hxy⟩⟩
  | @head x w hxw _ ih =>
    have hx : V x := by
      cases hsource x w hxw with
      | inl hx => exact hx
      | inr heq => exact absurd (heq ▸ hxw) (hout w ih.1)
    exact ⟨hx, .head ⟨hx, ih.1, hxw⟩ ih.2⟩

theorem TakenOut.within (h : TakenOut V n joined before after) (hblock : Blocked V n after)
    (hx : V x) (hy : V y) (hpath : TransGen after x y) : TransGen (Within V after) x y := by
  cases hblock with
  | inl hin => exact (within_of_no_entry h.source_after hin hx hpath).2 hy
  | inr hout => exact (within_of_no_exit h.source_after hout hy hpath).2

/-- A star whose hub is taken out keeps its reachability only if the new edges are the former
connections through the hub. -/
theorem TakenOut.balanced (h : TakenOut V n joined before after) (hstar : Star n before)
    (hblock : Blocked V n after)
    (hpair : ∀ v w, v ≠ w → joined v w → (v = p ∧ w = q) ∨ (v = q ∧ w = p))
    (hreach : SameReach V before after) : Balanced V n joined before := by
  have hoff : ∀ v, V v → v ≠ n := by
    rintro v hv rfl
    exact h.outside hv
  have hjoin : ∀ v w, V v → V w → v ≠ w → after v w → joined v w := by
    intro v w hv hw hne hvw
    cases (h.edge v w hv hw hne).mp hvw with
    | inl hold =>
      cases hstar.edge v w hold with
      | inl heq => exact absurd heq (hoff v hv)
      | inr heq => exact absurd heq (hoff w hw)
    | inr hnew => exact hnew
  intro x y hx hy hne
  rw [← hstar.transGen_iff (hoff x hx) (hoff y hy), hreach x y hx hy hne]
  constructor
  · intro hxy
    exact .single ((h.edge x y hx hy hne).mpr (.inr hxy))
  · intro hpath
    have hedge : ∀ v w, Within V after v w → v ≠ w → (v = p ∧ w = q) ∨ (v = q ∧ w = p) := by
      rintro v w ⟨hv, hw, hvw⟩ hvw'
      exact hpair v w hvw' (hjoin v w hv hw hvw' hvw)
    exact hjoin x y hx hy hne (transGen_pair hedge (h.within hblock hx hy hpath) hne).2.2

end Bypass
