import Helics.SortedTable

namespace SortedTable

variable {α κ : Type} [LinearOrder κ]

/-- The part of a vector before the place that `lower_bound` finds. -/
def below (key : α → κ) (k : κ) (l : List α) : List α :=
  l.takeWhile (fun a => decide (key a < k))

/-- Inserts an entry at its place and says whether its key was absent. -/
def addEntry (key : α → κ) (x : α) (l : List α) : Bool × List α :=
  if l = [] then (true, [x])
  else match lowerBound key (key x) l with
    | [] => (true, l ++ [x])
    | a :: r => if key a = key x then (false, l) else (true, below key (key x) l ++ x :: a :: r)

def replaceEntry (key : α → κ) (k : κ) (f : α → List α) (l : List α) : List α :=
  match lowerBound key k l with
  | [] => l
  | a :: r => if key a = k then below key k l ++ f a ++ r else l

def removeEntry (key : α → κ) (k : κ) (l : List α) : List α := replaceEntry key k (fun _ => []) l

def modifyEntry (key : α → κ) (k : κ) (f : α → α) (l : List α) : List α :=
  replaceEntry key k (fun a => [f a]) l

variable {key : α → κ}

theorem below_append (k : κ) (l : List α) : below key k l ++ lowerBound key k l = l :=
  List.takeWhile_append_dropWhile

theorem lowerBound_cons_lt (h : key a < k) : lowerBound key k (a :: l) = lowerBound key k l := by
  simp only [lowerBound, List.dropWhile_cons, h, decide_true, if_true]

theorem below_cons_lt (h : key a < k) : below key k (a :: l) = a :: below key k l := by
  simp only [below, List.takeWhile_cons, h, decide_true, if_true]

theorem lowerBound_cons_ge (h : k ≤ key a) : lowerBound key k (a :: l) = a :: l := by
  simp only [lowerBound, List.dropWhile_cons, h.not_gt, decide_false, Bool.false_eq_true, if_false]

theorem below_cons_ge (h : k ≤ key a) : below key k (a :: l) = [] := by
  simp only [below, List.takeWhile_cons, h.not_gt, decide_false, Bool.false_eq_true, if_false]

theorem insertEntry_eq (h : ∀ a ∈ l, key a ≠ key x) :
    insertEntry key x l = below key (key x) l ++ x :: lowerBound key (key x) l := by
  induction l with
  | nil => rfl
  | cons a l ih =>
    unfold insertEntry
    by_cases hlt : key a < key x
    · rw [if_pos hlt, ih fun b hb => h b (List.mem_cons_of_mem a hb), below_cons_lt hlt,
        lowerBound_cons_lt hlt]
      rfl
    · rw [if_neg hlt, if_neg (h a List.mem_cons_self), below_cons_ge (not_lt.mp hlt),
        lowerBound_cons_ge (not_lt.mp hlt)]
      rfl

theorem replaceEntry_eq (hl : l.Pairwise fun a b => key a < key b) (k : κ) (f : α → List α) :
    replaceEntry key k f l = l.flatMap fun a => if key a = k then f a else [a] := by
  induction l with
  | nil => rfl
  | cons a l ih =>
    obtain ⟨ha, hl⟩ := List.pairwise_cons.mp hl
    unfold replaceEntry at *
    rw [List.flatMap_cons]
    by_cases hlt : key a < k
    · rw [lowerBound_cons_lt hlt, below_cons_lt hlt, if_neg hlt.ne, ← ih hl]
      split
      · rfl
      · split <;> rfl
    · have hge := not_lt.mp hlt
      have hrest : (l.flatMap fun b => if key b = k then f b else [b]) = l := by
        rw [List.flatMap_congr fun b hb => if_neg (hge.trans_lt (ha b hb)).ne']
        exact List.flatMap_singleton' l
      rw [lowerBound_cons_ge hge, below_cons_ge hge, hrest]
      dsimp only
      split <;> rfl

variable (t : Table α κ key)

theorem Table.addEntry_entries (x : α) : addEntry key x t.entries =
    if (t.find? (key x)).isSome then (false, t.entries) else (true, (t.insert x).entries) := by
  cases hf : t.find? (key x) with
  | some a =>
    obtain ⟨ha, hk⟩ := t.find?_eq_some.mp hf
    obtain ⟨r, hr⟩ := lowerBound_head t.sorted ha hk
    unfold addEntry
    rw [if_neg (List.ne_nil_of_mem ha), hr]
    exact if_pos hk
  | none =>
    have habs := t.find?_eq_none.mp hf
    have hins : (t.insert x).entries = _ := insertEntry_eq habs
    unfold addEntry
    split
    · rename_i hnil
      rw [hins, hnil]
      rfl
    · split
      · rename_i hlb
        have hb : below key (key x) t.entries ++ _ = _ := below_append (key x) t.entries
        rw [hlb, List.append_nil] at hb
        rw [hins, hlb, hb]
        rfl
      · rename_i a r hlb
        rw [if_neg (habs a (mem_lowerBound (hlb ▸ List.mem_cons_self))), hins, hlb]
        rfl

theorem Table.removeEntry_entries (k : κ) : removeEntry key k t.entries = (t.erase k).entries := by
  refine (replaceEntry_eq t.sorted k _).trans ?_
  unfold Table.erase
  dsimp only
  induction t.entries with
  | nil => rfl
  | cons a l ih =>
    rw [List.flatMap_cons, List.filter_cons, ih]
    by_cases h : key a = k <;> simp [h]

theorem Table.modifyEntry_entries (k : κ) (f : α → α) (hf : ∀ a, key (f a) = key a) :
    modifyEntry key k f t.entries = (t.modify k f hf).entries := by
  refine (replaceEntry_eq t.sorted k _).trans ?_
  unfold Table.modify Table.map
  dsimp only
  rw [List.map_eq_flatMap]
  refine List.flatMap_congr fun a _ => ?_
  split <;> rfl

theorem Table.mem_keys : k ∈ t.keys ↔ (t.find? k).isSome = true := by
  rw [Option.isSome_iff_exists, Table.keys, List.mem_map]
  exact exists_congr fun a => t.find?_eq_some.symm

/-- A vector with the entries of a table, and a copy of their keys in any order. -/
structure Kept (l : List α) (copy : List κ) (t : Table α κ key) : Prop where
  entries : l = t.entries
  nodup : copy.Nodup
  mem : ∀ k, k ∈ copy ↔ k ∈ t.keys

variable {t}

theorem Kept.add (h : Kept l copy t) (x : α) :
    (key x ∉ t.keys ∧ addEntry key x l = (true, (t.insert x).entries) ∧
      Kept (t.insert x).entries (copy ++ [key x]) (t.insert x)) ∨
    (key x ∈ t.keys ∧ addEntry key x l = (false, l)) := by
  have he := t.addEntry_entries x
  rw [← h.entries] at he
  by_cases hk : key x ∈ t.keys
  · rw [if_pos (t.mem_keys.mp hk)] at he
    exact .inr ⟨hk, he⟩
  · rw [if_neg fun hs => hk (t.mem_keys.mpr hs)] at he
    refine .inl ⟨hk, he, rfl, ?_, fun k => ?_⟩
    · refine List.nodup_append.mpr ⟨h.nodup, List.pairwise_singleton _ _, fun a ha b hb => ?_⟩
      rw [List.mem_singleton.mp hb]
      exact fun hab => hk ((h.mem _).mp (hab ▸ ha))
    · rw [t.mem_keys_insert, List.mem_append, List.mem_singleton, h.mem, or_comm]

theorem Kept.remove [DecidableEq κ] (h : Kept l copy t) (k : κ) :
    Kept (removeEntry key k l) (copy.erase k) (t.erase k) := by
  refine ⟨by rw [h.entries, t.removeEntry_entries], h.nodup.erase k, fun k' => ?_⟩
  rw [h.nodup.mem_erase_iff, t.mem_keys_erase, h.mem, and_comm]

theorem Kept.modify (h : Kept l copy t) (k : κ) (f : α → α) (hf : ∀ a, key (f a) = key a) :
    Kept (modifyEntry key k f l) copy (t.modify k f hf) := by
  refine ⟨by rw [h.entries, t.modifyEntry_entries k f hf], h.nodup, fun k' => ?_⟩
  rw [h.mem, t.keys_modify]

end SortedTable
