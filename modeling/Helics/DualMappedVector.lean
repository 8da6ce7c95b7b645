import Mathlib.Data.List.Basic
import Mathlib.Tactic.Common

/-- A vector with two search indices, by the operations and the laws that its users rely on.
The container itself is no part of the program: it is a parameter of everything that uses it. -/
class DualMapped (κ ι : Type) where
  Vector : Type → Type
  data {α : Type} : Vector α → List α
  indexOfName {α : Type} : Vector α → κ → Option Nat
  indexOfId {α : Type} : Vector α → ι → Option Nat
  empty {α : Type} : Vector α
  insert {α : Type} : Vector α → κ → Option ι → α → Option (Vector α)
  modify {α : Type} : Vector α → Nat → (α → α) → Vector α
  map {α : Type} : Vector α → (α → α) → Vector α
  addSearchTerm {α : Type} : Vector α → ι → κ → Vector α
  addSearchTermForIndex {α : Type} : Vector α → ι → Nat → Vector α
  indexOfName_lt {α : Type} {v : Vector α} {k : κ} {i : Nat} :
    indexOfName v k = some i → i < (data v).length
  indexOfId_lt {α : Type} {v : Vector α} {id : ι} {i : Nat} :
    indexOfId v id = some i → i < (data v).length
  /-- An entry under a name alone is refused exactly when the name is known. -/
  insert_isSome {α : Type} (v : Vector α) (k : κ) (a : α) :
    (insert v k none a).isSome = !(indexOfName v k).isSome
  data_insert {α : Type} {v w : Vector α} {k : κ} {id : Option ι} {a : α} :
    insert v k id a = some w → data w = data v ++ [a]
  indexOfId_insert {α : Type} {v w : Vector α} {k : κ} {a : α} :
    insert v k none a = some w → indexOfId w = indexOfId v
  data_modify {α : Type} (v : Vector α) (i : Nat) (f : α → α) :
    data (modify v i f) = (data v).modify i f
  indexOfId_modify {α : Type} (v : Vector α) (i : Nat) (f : α → α) :
    indexOfId (modify v i f) = indexOfId v
  data_map {α : Type} (v : Vector α) (f : α → α) : data (map v f) = (data v).map f
  indexOfId_map {α : Type} (v : Vector α) (f : α → α) : indexOfId (map v f) = indexOfId v
  /-- A further search term leaves the terms in use as they are. -/
  indexOfId_addSearchTerm {α : Type} {v : Vector α} {id' : ι} {i : Nat} (id : ι) (k : κ) :
    indexOfId v id' = some i → indexOfId (addSearchTerm v id k) id' = some i

namespace DualMapped

theorem all_modify {l : List α}
    (h : ∀ a, l[i]? = some a → p (f a) = p a) : (l.modify i f).all p = l.all p := by
  induction l generalizing i with
  | nil => rw [List.modify_nil]
  | cons a l ih =>
    cases i with
    | zero => rw [List.modify_zero_cons, List.all_cons, List.all_cons, h a rfl]
    | succ i => rw [List.modify_succ_cons, List.all_cons, List.all_cons, ih h]

theorem all_modify_eq_false {l : List α} (hx : l[i]? = some x)
    (h : p (f x) = false) : (l.modify i f).all p = false := by
  induction l generalizing i with
  | nil => cases hx
  | cons a l ih =>
    cases i with
    | zero =>
      obtain rfl := Option.some.inj hx
      rw [List.modify_zero_cons, List.all_cons, h, Bool.false_and]
    | succ i => rw [List.modify_succ_cons, List.all_cons, ih hx, Bool.and_false]

namespace Vector

export DualMapped (data indexOfName indexOfId empty insert modify map addSearchTerm
  addSearchTermForIndex)

variable {α κ ι : Type} [DualMapped κ ι]

def size (v : Vector κ ι α) : Nat := v.data.length

def findName (v : Vector κ ι α) (k : κ) : Option α := (v.indexOfName k).bind (v.data[·]?)

def findId (v : Vector κ ι α) (id : ι) : Option α := (v.indexOfId id).bind (v.data[·]?)

/-- The insertion whose outcome is not looked at. -/
def add (v : Vector κ ι α) (k : κ) (id : Option ι) (a : α) : Vector κ ι α :=
  (v.insert k id a).getD v

def modifyName (v : Vector κ ι α) (k : κ) (f : α → α) : Vector κ ι α :=
  (v.indexOfName k).elim v (v.modify · f)

def modifyId (v : Vector κ ι α) (id : ι) (f : α → α) : Vector κ ι α :=
  (v.indexOfId id).elim v (v.modify · f)

variable (v : Vector κ ι α)

theorem findName_isSome (k : κ) : (v.findName k).isSome = (v.indexOfName k).isSome := by
  cases h : v.indexOfName k with
  | none => simp [findName, h]
  | some i => simp [findName, h, indexOfName_lt h]

theorem findId_isSome (id : ι) : (v.findId id).isSome = (v.indexOfId id).isSome := by
  cases h : v.indexOfId id with
  | none => simp [findId, h]
  | some i => simp [findId, h, indexOfId_lt h]

variable {v} in
theorem size_add (h : (v.indexOfName k).isSome = false) (a : α) :
    (v.add k none a).size = v.size + 1 := by
  have hsome := insert_isSome v k a
  rw [h] at hsome
  obtain ⟨w, hw⟩ := Option.isSome_iff_exists.mp hsome
  rw [add, hw, size, Option.getD_some, data_insert hw, List.length_append, size]
  rfl

theorem indexOfId_add (k : κ) (a : α) : (v.add k none a).indexOfId = v.indexOfId := by
  unfold add
  cases h : v.insert k none a with
  | none => rfl
  | some w => exact indexOfId_insert h

theorem size_modify (i : Nat) (f : α → α) : (v.modify i f).size = v.size := by
  rw [size, data_modify, List.length_modify, size]

theorem indexOfId_modifyName (k : κ) (f : α → α) : (v.modifyName k f).indexOfId = v.indexOfId := by
  unfold modifyName
  cases v.indexOfName k with
  | none => rfl
  | some i => exact indexOfId_modify v i f

end Vector

/-- The container as a list of entries and two lists of search terms. -/
structure ListVector (κ ι α : Type) where
  data : List α
  names : List (κ × Nat)
  ids : List (ι × Nat)
  names_lt : ∀ p ∈ names, p.2 < data.length
  ids_lt : ∀ p ∈ ids, p.2 < data.length

def position [DecidableEq κ] (l : List (κ × Nat)) (k : κ) : Option Nat :=
  (l.find? (fun p => decide (p.1 = k))).map Prod.snd

theorem position_mem [DecidableEq κ] {l : List (κ × Nat)} (h : position l k = some i) :
    (k, i) ∈ l := by
  obtain ⟨p, hp, rfl⟩ := Option.map_eq_some_iff.mp h
  have hk : p.1 = k := by simpa using List.find?_some hp
  rw [← hk]
  exact List.mem_of_find?_eq_some hp

theorem position_append_of_some [DecidableEq κ] (h : position l k = some i)
    (m : List (κ × Nat)) : position (l ++ m) k = some i := by
  obtain ⟨p, hp, rfl⟩ := Option.map_eq_some_iff.mp h
  simp [position, List.find?_append, hp]

namespace ListVector

variable {α κ ι : Type}

def push (v : ListVector κ ι α) (k : κ) (id : Option ι) (a : α) : ListVector κ ι α where
  data := v.data ++ [a]
  names := v.names ++ [(k, v.data.length)]
  ids := v.ids ++ (id.map (·, v.data.length)).toList
  names_lt := by
    intro p hp
    rw [List.length_append, List.length_singleton]
    cases List.mem_append.mp hp with
    | inl h => exact Nat.lt_succ_of_lt (v.names_lt p h)
    | inr h =>
      obtain rfl := List.mem_singleton.mp h
      exact Nat.lt_succ_self _
  ids_lt := by
    intro p hp
    rw [List.length_append, List.length_singleton]
    cases List.mem_append.mp hp with
    | inl h => exact Nat.lt_succ_of_lt (v.ids_lt p h)
    | inr h =>
      cases id with
      | none => cases h
      | some id =>
        obtain rfl := List.mem_singleton.mp h
        exact Nat.lt_succ_self _

def mapData (v : ListVector κ ι α) (g : List α → List α) (hg : (g v.data).length = v.data.length) :
    ListVector κ ι α where
  data := g v.data
  names := v.names
  ids := v.ids
  names_lt := by rw [hg]; exact v.names_lt
  ids_lt := by rw [hg]; exact v.ids_lt

def addId (v : ListVector κ ι α) (id : ι) (i : Nat) : ListVector κ ι α :=
  if h : i < v.data.length then
    { v with
      ids := v.ids ++ [(id, i)]
      ids_lt := by
        intro p hp
        cases List.mem_append.mp hp with
        | inl hm => exact v.ids_lt p hm
        | inr hm =>
          obtain rfl := List.mem_singleton.mp hm
          exact h }
  else v

theorem position_addId [DecidableEq ι] {v : ListVector κ ι α} (id : ι) (i : Nat)
    (h : position v.ids id' = some j) : position (v.addId id i).ids id' = some j := by
  unfold addId
  split
  · exact position_append_of_some h _
  · exact h

end ListVector

@[reducible] def listVectors {κ ι : Type} [DecidableEq κ] [DecidableEq ι] : DualMapped κ ι where
  Vector := ListVector κ ι
  data v := v.data
  indexOfName v := position v.names
  indexOfId v := position v.ids
  empty := ⟨[], [], [], by simp, by simp⟩
  insert v k id a :=
    if (position v.names k).isSome ∧ id.all (fun id => (position v.ids id).isSome) then none
    else some (v.push k id a)
  modify v i f := v.mapData (·.modify i f) (List.length_modify f v.data i)
  map v f := v.mapData (·.map f) (List.length_map f)
  addSearchTerm v id k := (position v.names k).elim v (v.addId id)
  addSearchTermForIndex v id i := v.addId id i
  indexOfName_lt h := ListVector.names_lt _ _ (position_mem h)
  indexOfId_lt h := ListVector.ids_lt _ _ (position_mem h)
  insert_isSome v k a := by
    cases h : (position v.names k).isSome with
    | true => simp
    | false => simp
  data_insert h := by
    split at h
    · cases h
    · cases h
      rfl
  indexOfId_insert {α v w k a} h := by
    split at h
    · cases h
    · cases h
      exact congrArg position (List.append_nil v.ids)
  data_modify v i f := rfl
  indexOfId_modify v i f := rfl
  data_map v f := rfl
  indexOfId_map v f := rfl
  indexOfId_addSearchTerm {α v id' i} id k h := by
    cases position v.names k with
    | none => exact h
    | some j => exact ListVector.position_addId id j h

end DualMapped
