import Mathlib.Order.Lattice
import Mathlib.Data.List.Basic

namespace SortedTable

/-- A vector kept strictly increasing in a key and searched by binary search. -/
structure Table (α : Type) (κ : Type) [LinearOrder κ] (key : α → κ) where
  entries : List α
  sorted : entries.Pairwise (fun a b => key a < key b)

section
variable {α κ : Type} [LinearOrder κ] {key : α → κ}

/-- The part of the table starting at the first entry whose key is not below `k`. -/
def lowerBound (key : α → κ) (k : κ) (l : List α) : List α :=
  l.dropWhile (fun a => decide (key a < k))

theorem lowerBound_head (hl : l.Pairwise (fun a b => key a < key b)) (ha : a ∈ l)
    (hk : key a = k) : ∃ r, lowerBound key k l = a :: r := by
  induction l with
  | nil => cases ha
  | cons b l ih =>
    obtain ⟨hb, hl⟩ := List.pairwise_cons.mp hl
    rcases List.mem_cons.mp ha with he | ha'
    · subst a
      refine ⟨l, ?_⟩
      simp only [lowerBound, List.dropWhile_cons, hk, lt_self_iff_false, decide_false,
        Bool.false_eq_true, ↓reduceIte]
    · have hlt := hb a ha'
      rw [hk] at hlt
      simpa only [lowerBound, List.dropWhile_cons, hlt, decide_true, ↓reduceIte] using ih hl ha'

theorem mem_lowerBound (h : a ∈ lowerBound key k l) : a ∈ l :=
  (List.dropWhile_suffix _).subset h

def Table.find? (t : Table α κ key) (k : κ) : Option α :=
  match lowerBound key k t.entries with
  | [] => none
  | a :: _ => if key a = k then some a else none

variable (t : Table α κ key)

theorem Table.find?_eq_some : t.find? k = some a ↔ a ∈ t.entries ∧ key a = k := by
  constructor
  · intro h
    unfold Table.find? at h
    split at h
    · cases h
    rename_i b r he
    split at h
    · rename_i hk
      cases h
      exact ⟨mem_lowerBound (by rw [he]; exact List.mem_cons_self), hk⟩
    · cases h
  · rintro ⟨ha, hk⟩
    obtain ⟨r, hr⟩ := lowerBound_head t.sorted ha hk
    simp only [Table.find?, hr, hk, ↓reduceIte]

theorem Table.find?_eq_none : t.find? k = none ↔ ∀ a ∈ t.entries, key a ≠ k := by
  constructor
  · intro h a ha hk
    rw [(t.find?_eq_some).mpr ⟨ha, hk⟩] at h
    cases h
  · intro h
    cases hf : t.find? k with
    | none => rfl
    | some a =>
      obtain ⟨ha, hk⟩ := t.find?_eq_some.mp hf
      exact (h a ha hk).elim

def insertEntry (key : α → κ) (x : α) : List α → List α
  | [] => [x]
  | a :: l => if key a < key x then a :: insertEntry key x l else
      if key a = key x then a :: l else x :: a :: l

theorem mem_insertEntry (h : a ∈ insertEntry key x l) : a = x ∨ a ∈ l := by
  induction l with
  | nil => exact .inl (List.mem_singleton.mp h)
  | cons b l ih =>
    simp only [insertEntry] at h
    split at h
    · rcases List.mem_cons.mp h with he | h
      · exact .inr (he ▸ List.mem_cons_self)
      · exact (ih h).imp_right (List.mem_cons_of_mem _)
    · split at h
      · exact .inr h
      · exact List.mem_cons.mp h

theorem insertEntry_sorted (h : l.Pairwise (fun a b => key a < key b)) :
    (insertEntry key x l).Pairwise (fun a b => key a < key b) := by
  induction l with
  | nil => exact List.pairwise_singleton _ _
  | cons b l ih =>
    obtain ⟨hb, hl⟩ := List.pairwise_cons.mp h
    simp only [insertEntry]
    split
    · rename_i hlt
      refine List.pairwise_cons.mpr ⟨?_, ih hl⟩
      intro a ha
      rcases mem_insertEntry ha with rfl | ha
      · exact hlt
      · exact hb a ha
    · split
      · exact h
      rename_i hge hne
      have hlt : key x < key b := lt_of_le_of_ne (not_lt.mp hge) (Ne.symm hne)
      refine List.pairwise_cons.mpr ⟨?_, h⟩
      intro a ha
      rcases List.mem_cons.mp ha with rfl | ha
      · exact hlt
      · exact hlt.trans (hb a ha)

def Table.insert (t : Table α κ key) (x : α) : Table α κ key :=
  ⟨insertEntry key x t.entries, insertEntry_sorted t.sorted⟩

def Table.erase (t : Table α κ key) (k : κ) : Table α κ key :=
  ⟨t.entries.filter (fun a => decide (key a ≠ k)), t.sorted.filter _⟩

theorem Table.mem_erase : a ∈ (t.erase k).entries ↔ a ∈ t.entries ∧ key a ≠ k := by
  simp only [Table.erase, List.mem_filter, decide_eq_true_eq]

def Table.map (t : Table α κ key) (f : α → α) (hf : ∀ a, key (f a) = key a) : Table α κ key :=
  ⟨t.entries.map f, by
    rw [List.pairwise_map]
    exact t.sorted.imp (fun h => by rw [hf, hf]; exact h)⟩

def Table.keys (t : Table α κ key) : List κ := t.entries.map key

theorem Table.mem_keys_insert (x : α) : k ∈ (t.insert x).keys ↔ k = key x ∨ k ∈ t.keys := by
  obtain ⟨l, _⟩ := t
  simp only [Table.insert, Table.keys]
  induction l with
  | nil => simp [insertEntry]
  | cons a l ih =>
    simp only [insertEntry]
    split
    · simp only [List.map_cons, List.mem_cons, ih (List.pairwise_cons.mp ‹_›).2]
      exact or_left_comm
    split
    · rename_i heq
      simp only [List.map_cons, List.mem_cons, heq]
      exact (or_iff_right_of_imp .inl).symm
    · simp only [List.map_cons, List.mem_cons]

theorem Table.mem_keys_erase : k ∈ (t.erase k').keys ↔ k ∈ t.keys ∧ k ≠ k' := by
  simp only [Table.keys, List.mem_map, Table.mem_erase]
  constructor
  · rintro ⟨a, ⟨ha, hne⟩, rfl⟩
    exact ⟨⟨a, ha, rfl⟩, hne⟩
  · rintro ⟨⟨a, ha, rfl⟩, hne⟩
    exact ⟨a, ⟨ha, hne⟩, rfl⟩

variable (f : α → α)

section
variable (hf : ∀ a, key (f a) = key a)
include hf

theorem Table.keys_map : (t.map f hf).keys = t.keys := by
  unfold Table.keys Table.map
  rw [List.map_map]
  exact List.map_congr_left fun a _ => hf a

theorem Table.mem_map : b ∈ (t.map f hf).entries ↔ ∃ a ∈ t.entries, f a = b :=
  List.mem_map

def Table.modify (t : Table α κ key) (k : κ) (f : α → α) (hf : ∀ a, key (f a) = key a) :
    Table α κ key :=
  t.map (fun a => if key a = k then f a else a) (by
    intro a
    split
    · exact hf a
    · rfl)

theorem Table.keys_modify : (t.modify k f hf).keys = t.keys :=
  t.keys_map _ _

theorem Table.mem_modify : b ∈ (t.modify k f hf).entries ↔
      (∃ a ∈ t.entries, key a = k ∧ b = f a) ∨ (b ∈ t.entries ∧ key b ≠ k) := by
  rw [Table.modify, Table.mem_map]
  constructor
  · rintro ⟨a, ha, he⟩
    split at he
    · rename_i hk
      exact .inl ⟨a, ha, hk, he.symm⟩
    · rename_i hk
      subst he
      exact .inr ⟨ha, hk⟩
  · rintro (⟨a, ha, hk, he⟩ | ⟨hb, hk⟩)
    · exact ⟨a, ha, by rw [if_pos hk, he]⟩
    · exact ⟨b, hb, if_neg hk⟩

end

end

end SortedTable
