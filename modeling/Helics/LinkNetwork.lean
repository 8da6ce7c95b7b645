import Mathlib.Data.List.Perm.Basic
import Mathlib.Algebra.BigOperators.Group.List.Basic
import Mathlib.Algebra.GroupWithZero.Nat
import Mathlib.Tactic.Common

namespace LinkNetwork

variable {L M : Type*}

def total (w : L × M → Nat) (flight : List (L × M)) : Nat := (flight.map w).sum

variable (w : L × M → Nat)

@[simp] theorem total_nil : total w [] = 0 := rfl

@[simp] theorem total_append (fl fl' : List (L × M)) :
    total w (fl ++ fl') = total w fl + total w fl' := by
  unfold total
  rw [List.map_append, List.sum_append]

theorem total_cons (x : L × M) (fl : List (L × M)) : total w (x :: fl) = w x + total w fl := by
  unfold total
  rw [List.map_cons, List.sum_cons]

variable [DecidableEq L]

def takeFirst (link : L) : List (L × M) → Option (M × List (L × M))
  | [] => none
  | (l, m) :: rest =>
    if l = link then some (m, rest)
    else (takeFirst link rest).map fun r => (r.1, (l, m) :: r.2)

variable {flight : List (L × M)}

theorem takeFirst_eq_some (h : takeFirst link flight = some (m, rest)) :
    ∃ before after, flight = before ++ (link, m) :: after ∧ rest = before ++ after ∧
      ∀ x ∈ before, x.1 ≠ link := by
  induction flight generalizing rest with
  | nil => cases h
  | cons x flight ih =>
    obtain ⟨l, m'⟩ := x
    unfold takeFirst at h
    split at h
    · rename_i hl
      cases h
      exact ⟨[], flight, by rw [hl]; rfl, rfl, fun x hx => absurd hx List.not_mem_nil⟩
    rename_i hl
    obtain ⟨⟨m₁, rest₁⟩, hr, heq⟩ := Option.map_eq_some_iff.mp h
    cases heq
    obtain ⟨before, after, rfl, rfl, hbefore⟩ := ih hr
    refine ⟨(l, m') :: before, after, rfl, rfl, ?_⟩
    intro x hx
    rcases List.mem_cons.mp hx with rfl | hx
    · exact hl
    · exact hbefore x hx

theorem takeFirst_perm (h : takeFirst link flight = some (m, rest)) :
    flight.Perm ((link, m) :: rest) := by
  obtain ⟨before, after, rfl, rfl, _⟩ := takeFirst_eq_some h
  exact List.perm_middle

theorem exists_takeFirst (h : flight ≠ []) :
    ∃ link m rest, takeFirst link flight = some (m, rest) := by
  obtain ⟨⟨l, m⟩, rest, rfl⟩ := List.exists_cons_of_ne_nil h
  exact ⟨l, m, rest, if_pos rfl⟩

theorem total_takeFirst (h : takeFirst link flight = some (m, rest))
    (w : L × M → Nat) : total w flight = w (link, m) + total w rest := by
  unfold total
  rw [((takeFirst_perm h).map w).sum_eq, List.map_cons, List.sum_cons]

theorem mem_of_takeFirst (h : takeFirst link flight = some (m, rest)) : (link, m) ∈ flight := by
  rw [(takeFirst_perm h).mem_iff]
  exact List.mem_cons_self

theorem mem_rest (h : takeFirst link flight = some (m, rest)) (hx : x ∈ rest) : x ∈ flight := by
  rw [(takeFirst_perm h).mem_iff]
  exact List.mem_cons_of_mem _ hx

omit [DecidableEq L] in
def Ordered (P : List (L × M) → L × M → Prop) (flight : List (L × M)) : Prop :=
  ∀ before x after, flight = before ++ x :: after → P before x

omit [DecidableEq L] in
theorem Ordered.nil (P : List (L × M) → L × M → Prop) : Ordered P [] := by
  intro before x after h
  exact absurd h.symm (by simp)

omit [DecidableEq L] in
theorem Ordered.append (h : Ordered P fl)
    (hnew : ∀ before x after, new = before ++ x :: after → P (fl ++ before) x) :
    Ordered P (fl ++ new) := by
  intro before x after heq
  rcases List.append_eq_append_iff.mp heq with ⟨part, rfl, hsplit⟩ | ⟨part, hsplit, hrest⟩
  · exact hnew part x after hsplit
  cases part with
  | nil =>
    rw [List.append_nil] at hsplit
    have hx := hnew [] x after hrest.symm
    rw [List.append_nil, hsplit] at hx
    exact hx
  | cons y part =>
    obtain ⟨rfl, _⟩ := List.cons_eq_cons.mp hrest
    exact h before x part hsplit

theorem Ordered.take {fl : List (L × M)} (h : Ordered P fl)
    (htake : takeFirst link fl = some (m, rest))
    (hPQ : ∀ before before' x, (∀ y ∈ before', y ∈ before ∨ y = (link, m)) → P before' x →
      Q before x) : Ordered Q rest := by
  obtain ⟨b₀, a₀, rfl, rfl, _⟩ := takeFirst_eq_some htake
  intro before x after heq
  rcases List.append_eq_append_iff.mp heq with ⟨part, rfl, hsplit⟩ | ⟨part, hsplit, hrest⟩
  · apply hPQ _ (b₀ ++ (link, m) :: part) x _ (h _ x after (by rw [hsplit]; simp))
    intro y hy
    rcases List.mem_append.mp hy with hy | hy
    · exact .inl (List.mem_append_left _ hy)
    · rcases List.mem_cons.mp hy with hy | hy
      · exact .inr hy
      · exact .inl (List.mem_append_right _ hy)
  · cases part with
    | nil =>
      rw [List.append_nil] at hsplit
      subst hsplit
      apply hPQ _ (b₀ ++ [(link, m)]) x _
        (h _ x after (by rw [show a₀ = x :: after from hrest.symm]; simp))
      intro y hy
      exact (List.mem_append.mp hy).imp_right List.mem_singleton.mp
    | cons y part =>
      obtain ⟨rfl, rfl⟩ := List.cons_eq_cons.mp hrest
      apply hPQ _ before x (fun y hy => .inl hy)
      exact h before x (part ++ (link, m) :: a₀) (by rw [hsplit]; simp)

theorem Ordered.first {fl : List (L × M)} (h : Ordered P fl)
    (htake : takeFirst link fl = some (m, rest)) :
    ∃ before, P before (link, m) ∧ ∀ y ∈ before, y.1 ≠ link := by
  obtain ⟨before, after, rfl, _, hbefore⟩ := takeFirst_eq_some htake
  exact ⟨before, h before (link, m) after rfl, hbefore⟩

end LinkNetwork
