import Helics.ActionMessage
import Mathlib.Data.Finset.Lattice.Fold
import Mathlib.Logic.Function.Iterate
import Mathlib.Order.Lattice.Nat
import Mathlib.Order.SuccPred.Basic

namespace Helics

structure BrokerTree where
  root : GlobalId
  nodes : Finset GlobalId
  isCore : GlobalId → Bool
  parent : GlobalId → GlobalId
  depth : GlobalId → Nat
  root_mem : root ∈ nodes
  root_broker : isCore root = false
  depth_root : depth root = 0
  parent_mem : ∀ n ∈ nodes, n ≠ root → parent n ∈ nodes
  parent_broker : ∀ n ∈ nodes, n ≠ root → isCore (parent n) = false
  depth_parent : ∀ n ∈ nodes, n ≠ root → depth n = depth (parent n) + 1

namespace BrokerTree

variable {t : BrokerTree}

def Below (t : BrokerTree) (a n : GlobalId) : Prop := ∃ k < t.depth n, t.parent^[k + 1] n = a

instance (t : BrokerTree) (a n : GlobalId) : Decidable (t.Below a n) :=
  inferInstanceAs (Decidable (∃ k < t.depth n, t.parent^[k + 1] n = a))

theorem not_below_root (a : GlobalId) : ¬ t.Below a t.root := by
  rintro ⟨k, hk, -⟩
  rw [t.depth_root] at hk
  exact Nat.not_lt_zero k hk

theorem below_iff (hn : n ∈ t.nodes) (hr : n ≠ t.root) :
    t.Below a n ↔ t.parent n = a ∨ t.Below a (t.parent n) := by
  constructor
  · rintro ⟨k, hk, heq⟩
    cases k with
    | zero => exact .inl heq
    | succ k =>
      rw [t.depth_parent n hn hr] at hk
      exact .inr ⟨k, Nat.lt_of_succ_lt_succ hk, heq⟩
  · rintro (heq | ⟨k, hk, heq⟩)
    · exact ⟨0, by rw [t.depth_parent n hn hr]; exact Nat.succ_pos _, heq⟩
    · exact ⟨k + 1, by rw [t.depth_parent n hn hr]; exact Nat.succ_lt_succ hk, heq⟩

/-- Induction along the way to the root. -/
@[elab_as_elim]
theorem climb {motive : (n : GlobalId) → n ∈ t.nodes → Prop} (root : motive t.root t.root_mem)
    (step : ∀ n hn hr, motive (t.parent n) (t.parent_mem n hn hr) → motive n hn)
    (hn : n ∈ t.nodes) : motive n hn := by
  induction hd : t.depth n generalizing n with
  | zero =>
    by_cases hr : n = t.root
    · subst hr
      exact root
    · rw [t.depth_parent n hn hr] at hd
      cases hd
  | succ d ih =>
    by_cases hr : n = t.root
    · subst hr
      exact root
    · rw [t.depth_parent n hn hr] at hd
      exact step n hn hr (ih (t.parent_mem n hn hr) (Nat.succ.inj hd))

theorem below_root (hn : n ∈ t.nodes) (hr : n ≠ t.root) : t.Below t.root n := by
  induction hn using climb with
  | root => exact absurd rfl hr
  | step n hn hr' ih =>
    rw [below_iff hn hr']
    by_cases hp : t.parent n = t.root
    · exact .inl hp
    · exact .inr (ih hp)

theorem Below.above (h : t.Below a n) (hn : n ∈ t.nodes) :
    a ∈ t.nodes ∧ t.isCore a = false ∧ t.depth a < t.depth n := by
  induction hn using climb with
  | root => exact absurd h (not_below_root a)
  | step n hn hr ih =>
    have hd := t.depth_parent n hn hr
    obtain rfl | h := (below_iff hn hr).mp h
    · exact ⟨t.parent_mem n hn hr, t.parent_broker n hn hr, by omega⟩
    · obtain ⟨hmem, hbroker, hlt⟩ := ih h
      exact ⟨hmem, hbroker, by omega⟩

theorem Below.trans (h : t.Below a b) (h' : t.Below b n) (hn : n ∈ t.nodes) : t.Below a n := by
  induction hn using climb with
  | root => exact absurd h' (not_below_root b)
  | step n hn hr ih =>
    rw [below_iff hn hr]
    obtain rfl | h' := (below_iff hn hr).mp h'
    · exact .inr h
    · exact .inr (ih h')

theorem Below.chain (h : t.Below a n) (h' : t.Below b n) (hn : n ∈ t.nodes) :
    a = b ∨ t.Below a b ∨ t.Below b a := by
  induction hn using climb with
  | root => exact absurd h (not_below_root a)
  | step n hn hr ih =>
    obtain rfl | h := (below_iff hn hr).mp h
    · obtain rfl | h' := (below_iff hn hr).mp h'
      · exact .inl rfl
      · exact .inr (.inr h')
    · obtain rfl | h' := (below_iff hn hr).mp h'
      · exact .inr (.inl h)
      · exact ih h h'

def back (t : BrokerTree) (n d : GlobalId) : Nat :=
  if n = d ∨ t.Below n d then t.depth d - t.depth n else t.depth n + t.depth d + 1

structure Toward (t : BrokerTree) (n d c : GlobalId) : Prop where
  mem : c ∈ t.nodes
  broker : c ≠ d → t.isCore c = false
  nearer : t.back c d < t.back n d

theorem toward_child (hc : c ∈ t.nodes) (hr : c ≠ t.root) (hp : t.parent c = n)
    (hd : d ∈ t.nodes) (h : c = d ∨ t.Below c d) : t.Toward n d c := by
  have hdepth := t.depth_parent c hc hr
  rw [hp] at hdepth
  have hle : t.depth c ≤ t.depth d := by
    obtain rfl | h := h
    · exact le_rfl
    · exact (h.above hd).2.2.le
  have hn : t.Below n d := by
    have hbelow : t.Below n c := (below_iff hc hr).mpr (.inl hp)
    obtain rfl | h := h
    · exact hbelow
    · exact hbelow.trans h hd
  refine ⟨hc, fun hne => ((h.resolve_left hne).above hd).2.1, ?_⟩
  unfold back
  rw [if_pos h, if_pos (.inr hn)]
  omega

theorem toward_parent (hn : n ∈ t.nodes) (hr : n ≠ t.root) (hne : n ≠ d) (h : ¬ t.Below n d) :
    t.Toward n d (t.parent n) := by
  have hdepth := t.depth_parent n hn hr
  refine ⟨t.parent_mem n hn hr, fun _ => t.parent_broker n hn hr, ?_⟩
  unfold back
  rw [if_neg (not_or.mpr ⟨hne, h⟩)]
  split <;> omega

def height (t : BrokerTree) : Nat := t.nodes.sup t.depth

theorem depth_le_height (hn : n ∈ t.nodes) : t.depth n ≤ t.height :=
  Finset.le_sup hn

theorem back_le (hn : n ∈ t.nodes) (hd : d ∈ t.nodes) : t.back n d ≤ 2 * t.height + 1 := by
  have hn := depth_le_height hn
  have hd := depth_le_height hd
  unfold back
  split <;> omega

end BrokerTree

end Helics
