import Mathlib.Data.List.Basic
import Mathlib.Tactic.Common

namespace Invariants

theorem foldl_invariant {P : β → List α → Prop} (hinit : P b [])
    (hstep : ∀ c pre x, P c pre → P (f c x) (pre ++ [x])) (l : List α) : P (l.foldl f b) l := by
  suffices h : ∀ pre c, P c pre → P (l.foldl f c) (pre ++ l) by
    simpa using h [] b hinit
  induction l with
  | nil => intro pre c hc; simpa using hc
  | cons x l ih =>
    intro pre c hc
    have h := ih (pre ++ [x]) (f c x) (hstep c pre x hc)
    simpa only [List.foldl_cons, List.append_assoc, List.singleton_append] using h

inductive Run (step : σ → ι → σ → Prop) : σ → List ι → σ → Prop
  | nil (s) : Run step s [] s
  | cons (h : step s i t) (r : Run step t l u) : Run step s (i :: l) u

variable {step : σ → ι → σ → Prop}

theorem Run.invariant {P : σ → Prop}
    (hstep : ∀ s i t, P s → step s i t → P t) (r : Run step s l t) (h : P s) : P t := by
  induction r with
  | nil => exact h
  | cons hs _ ih => exact ih (hstep _ _ _ h hs)

theorem Run.mono (h : ∀ s i t, step s i t → step' s i t)
    (r : Run step s l t) : Run step' s l t := by
  induction r with
  | nil => exact .nil _
  | cons hs _ ih => exact .cons (h _ _ _ hs) ih

theorem Run.append (r : Run step s l t) (r' : Run step t l' u) : Run step s (l ++ l') u := by
  induction r with
  | nil => exact r'
  | cons hs _ ih => exact .cons hs (ih r')

theorem Run.history {P : List ι → σ → Prop} (r : Run step s l t) (hinit : P [] s)
    (hstep : ∀ l₁ u i v l₂, Run step s l₁ u → step u i v → Run step v l₂ t → l = l₁ ++ i :: l₂ →
      P l₁ u → P (l₁ ++ [i]) v) : P l t := by
  suffices h : ∀ l₁ u l₂, Run step s l₁ u → Run step u l₂ t → l = l₁ ++ l₂ → P l₁ u → P l t from
    h [] s l (.nil s) r rfl hinit
  intro l₁ u l₂ hpast hrest
  induction hrest generalizing l₁ with
  | nil u =>
    intro hl h
    rw [hl, List.append_nil]
    exact h
  | @cons u i v l₂ _ hone hrest ih =>
    intro hl h
    refine ih r hstep (l₁ ++ [i]) (hpast.append (.cons hone (.nil v))) (by rw [hl]; simp) ?_
    exact hstep l₁ u i v l₂ hpast hone hrest hl h

def execute (step : σ → ι → Option σ) (s : σ) : List ι → Option σ
  | [] => some s
  | i :: l => (step s i).bind fun t => execute step t l

theorem Run.of_execute {step : σ → ι → Option σ} (h : execute step s l = some t) :
    Run (fun s i t => step s i = some t) s l t := by
  induction l generalizing s with
  | nil =>
    obtain rfl := Option.some.inj h
    exact .nil _
  | cons i l ih =>
    obtain ⟨u, hu, ht⟩ := Option.bind_eq_some_iff.mp h
    exact .cons hu (ih ht)

end Invariants
