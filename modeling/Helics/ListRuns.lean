import Mathlib.Data.List.Basic
import Mathlib.Order.Bounds.Defs
import Mathlib.Order.Lattice
import Mathlib.Tactic.Common

namespace ListRuns

/-- The elements with a property stand at the front of the list. -/
def Leading (p : α → Bool) (l : List α) : Prop := l.Pairwise fun a b => p b = true → p a = true

theorem Leading.tail (h : Leading p (a :: l)) : Leading p l := (List.pairwise_cons.mp h).2

theorem Leading.none_after (h : Leading p (a :: l)) (ha : p a = false) : ∀ b ∈ l, p b = false := by
  intro b hb
  by_contra hno
  have hpa := (List.pairwise_cons.mp h).1 b hb (by simpa using hno)
  exact Bool.false_ne_true (ha.symm.trans hpa)

theorem Leading.takeWhile (h : Leading p l) : l.takeWhile p = l.filter p := by
  induction l with
  | nil => rfl
  | cons a l ih =>
    cases ha : p a with
    | true => rw [List.takeWhile_cons_of_pos ha, List.filter_cons_of_pos ha, ih h.tail]
    | false =>
      have hno : ∀ b ∈ l, ¬ p b = true := fun b hb => Bool.eq_false_iff.mp (h.none_after ha b hb)
      rw [List.takeWhile_cons_of_neg (Bool.eq_false_iff.mp ha),
        List.filter_cons_of_neg (Bool.eq_false_iff.mp ha), List.filter_eq_nil_iff.mpr hno]

theorem Leading.dropWhile (h : Leading p l) : l.dropWhile p = l.filter fun a => !p a := by
  induction l with
  | nil => rfl
  | cons a l ih =>
    cases ha : p a with
    | true => rw [List.dropWhile_cons_of_pos ha, List.filter_cons_of_neg (by simp [ha]), ih h.tail]
    | false =>
      have hall : ∀ b ∈ a :: l, (!p b) = true := by
        intro b hb
        obtain rfl | hb := List.mem_cons.mp hb
        · rw [ha]
          rfl
        · rw [h.none_after ha b hb]
          rfl
      rw [List.dropWhile_cons_of_neg (Bool.eq_false_iff.mp ha), List.filter_eq_self.mpr hall]

/-- The last element of the run of a property that follows an element, and what comes after the
run. -/
def scan (p : α → Bool) (last : α) : List α → α × List α
  | [] => (last, [])
  | a :: l => if p a then scan p a l else (last, a :: l)

theorem scan_eq (p : α → Bool) (last : α) (l : List α) :
    scan p last l = ((l.takeWhile p).getLast?.getD last, l.dropWhile p) := by
  induction l generalizing last with
  | nil => rfl
  | cons a l ih =>
    unfold scan
    split
    · rename_i ha
      rw [ih, List.takeWhile_cons_of_pos ha, List.dropWhile_cons_of_pos ha, List.getLast?_cons]
      rfl
    · rename_i ha
      rw [List.takeWhile_cons_of_neg ha, List.dropWhile_cons_of_neg ha]
      rfl

theorem scan_suffix (p : α → Bool) (last : α) (l : List α) : (scan p last l).2 <:+ l := by
  rw [scan_eq]
  exact List.dropWhile_suffix p

theorem Leading.scan (h : Leading p (a :: l)) (ha : p a = true) :
    some (ListRuns.scan p a l).1 = ((a :: l).filter p).getLast? ∧
      (ListRuns.scan p a l).2 = (a :: l).filter fun b => !p b := by
  rw [scan_eq, List.filter_cons_of_pos ha, List.filter_cons_of_neg (by simp [ha]),
    h.tail.takeWhile, h.tail.dropWhile]
  refine ⟨?_, rfl⟩
  rw [List.getLast?_cons]

/-- A scan that goes on with a second property splits the list by either of them. -/
theorem Leading.scan_scan (h : Leading p (a :: l)) (ha : p a = true)
    (h' : Leading p' ((a :: l).filter fun b => !p b)) :
    some (ListRuns.scan p' (ListRuns.scan p a l).1 (ListRuns.scan p a l).2).1 =
        ((a :: l).filter fun b => p b || p' b).getLast? ∧
      (ListRuns.scan p' (ListRuns.scan p a l).1 (ListRuns.scan p a l).2).2 =
        (a :: l).filter fun b => !(p b || p' b) := by
  obtain ⟨hlast, hrest⟩ := h.scan ha
  have hsplit : (a :: l).filter (fun b => p b || p' b) =
      (a :: l).filter p ++ ((a :: l).filter fun b => !p b).filter p' := by
    have hparts : a :: l = (a :: l).filter p ++ (a :: l).filter fun b => !p b := by
      rw [← h.takeWhile, ← h.dropWhile, List.takeWhile_append_dropWhile]
    calc (a :: l).filter (fun b => p b || p' b)
        = ((a :: l).filter p ++ (a :: l).filter fun b => !p b).filter (fun b => p b || p' b) := by
          rw [← hparts]
      _ = (a :: l).filter p ++ ((a :: l).filter fun b => !p b).filter p' := by
          rw [List.filter_append, List.filter_filter, List.filter_filter, List.filter_filter]
          congr 1
          · exact List.filter_congr fun b _ => by cases p b <;> simp
          · exact List.filter_congr fun b _ => by cases p b <;> simp
  rw [scan_eq, hrest, h'.takeWhile, h'.dropWhile, hsplit, List.getLast?_append, ← hlast]
  refine ⟨?_, ?_⟩
  · cases (((a :: l).filter fun b => !p b).filter p').getLast? <;> rfl
  · dsimp only
    rw [List.filter_filter]
    refine List.filter_congr fun b _ => ?_
    rw [Bool.not_or, Bool.and_comm]

section Least
variable [LinearOrder β] (p : α → Bool) (key : α → β)

def lower (first : β) (a : α) : β := if p a then if key a < first then key a else first else first

/-- The loop that looks for the smallest key below a bound among the elements with a property. -/
def least (bound : β) (l : List α) : β := l.foldl (lower p key) bound

theorem lower_le (first : β) (a : α) : lower p key first a ≤ first := by
  unfold lower
  split
  · split
    · exact le_of_lt ‹_›
    · exact le_rfl
  · exact le_rfl

theorem lower_le_key (first : β) (ha : p a = true) : lower p key first a ≤ key a := by
  rw [lower, if_pos ha]
  split
  · exact le_rfl
  · exact not_lt.mp ‹_›

theorem lower_cases (first : β) (a : α) :
    lower p key first a = first ∨ p a = true ∧ lower p key first a = key a := by
  unfold lower
  split
  · split
    · exact .inr ⟨‹_›, rfl⟩
    · exact .inl rfl
  · exact .inl rfl

theorem isLeast_least (bound : β) (l : List α) :
    IsLeast {b | b = bound ∨ ∃ a ∈ l, p a = true ∧ b = key a} (least p key bound l) := by
  induction l generalizing bound with
  | nil =>
    refine ⟨.inl rfl, ?_⟩
    rintro b (rfl | ⟨a, ha, -⟩)
    · exact le_rfl
    · exact absurd ha List.not_mem_nil
  | cons a l ih =>
    -- the first element is compared before the others, so it moves into the bound
    obtain ⟨hmem, hle⟩ := ih (lower p key bound a)
    have hbound : least p key bound (a :: l) ≤ lower p key bound a := hle (.inl rfl)
    constructor
    · obtain hb | ⟨x, hx, hpx, hb⟩ := hmem
      · obtain hlow | ⟨hpa, hlow⟩ := lower_cases p key bound a
        · exact .inl (hb.trans hlow)
        · exact .inr ⟨a, List.mem_cons_self, hpa, hb.trans hlow⟩
      · exact .inr ⟨x, List.mem_cons_of_mem a hx, hpx, hb⟩
    · rintro b (rfl | ⟨x, hx, hpx, rfl⟩)
      · exact le_trans hbound (lower_le p key b a)
      · obtain rfl | hx := List.mem_cons.mp hx
        · exact le_trans hbound (lower_le_key p key bound hpx)
        · exact hle (.inr ⟨x, hx, hpx, rfl⟩)

/-- When the key of an element stands for the smallest of its contents, the loop over the keys from
a bound on finds the smallest content from there on exactly if no element with a smaller key hides
it. -/
theorem isLeast_contents_iff (contents : α → Set β) (low : β) (htop : ∀ b, b ≤ top)
    (l : List α)
    (hkey : ∀ a ∈ l, (∀ b ∈ contents a, key a ≤ b) ∧ (key a = top ∨ key a ∈ contents a)) :
    IsLeast {b | b = top ∨ low ≤ b ∧ ∃ a ∈ l, b ∈ contents a}
        (least (fun a => decide (low ≤ key a)) key top l) ↔
      ∀ a ∈ l, key a < low → ∀ b ∈ contents a, low ≤ b →
        b = top ∨ ∃ a' ∈ l, low ≤ key a' ∧ key a' ≤ b := by
  obtain ⟨hmem, hle⟩ := isLeast_least (fun a => decide (low ≤ key a)) key top l
  have hlekey : ∀ a ∈ l, low ≤ key a → least (fun a => decide (low ≤ key a)) key top l ≤ key a :=
    fun a ha h => hle (.inr ⟨a, ha, decide_eq_true h, rfl⟩)
  constructor
  · rintro ⟨-, hlow⟩ a ha - b hb hlb
    have hlb' : least (fun a => decide (low ≤ key a)) key top l ≤ b := hlow (.inr ⟨hlb, a, ha, hb⟩)
    obtain htop' | ⟨a', ha', hp, hk⟩ := hmem
    · exact .inl (le_antisymm (htop b) (htop' ▸ hlb'))
    · exact .inr ⟨a', ha', of_decide_eq_true hp, hk ▸ hlb'⟩
  · intro hshown
    constructor
    · obtain htop' | ⟨a, ha, hp, hk⟩ := hmem
      · exact .inl htop'
      · obtain hkt | hkm := (hkey a ha).2
        · exact .inl (hk.trans hkt)
        · exact .inr ⟨hk ▸ of_decide_eq_true hp, a, ha, hk ▸ hkm⟩
    · rintro b (rfl | ⟨hlb, a, ha, hb⟩)
      · exact htop _
      obtain hlt | hge := lt_or_ge (key a) low
      · obtain rfl | ⟨a', ha', hk, hkb⟩ := hshown a ha hlt b hb hlb
        · exact htop _
        · exact le_trans (hlekey a' ha' hk) hkb
      · exact le_trans (hlekey a ha hge) ((hkey a ha).1 b hb)

end Least

end ListRuns
