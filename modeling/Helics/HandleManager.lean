import Helics.ActionMessage

namespace Helics

inductive HandleType where
  | unknown
  | publication
  | input
  | endpoint
  | filter
deriving DecidableEq, Repr

def HandleType.code : HandleType → Int
  | .unknown => 117
  | .publication => 112
  | .input => 105
  | .endpoint => 101
  | .filter => 102

/-- The type that a 16-bit number means after its conversion to a character. -/
def HandleType.ofCode (code : UInt16) : HandleType :=
  match code.toNat % 256 with
  | 112 => .publication
  | 105 => .input
  | 101 => .endpoint
  | 102 => .filter
  | _ => .unknown

def HandleType.nameStart : HandleType → String
  | .unknown => "_handle_"
  | .publication => "_pub_"
  | .input => "_input_"
  | .endpoint => "_ept_"
  | .filter => "_filter_"

/-- The record of an interface; for a filter, `type` and `units` are its input and output types. -/
structure HandleInfo where
  handle : GlobalHandle := {}
  handleType : HandleType := .unknown
  flags : UInt16 := 0
  key : String := ""
  type : String := ""
  units : String := ""
deriving DecidableEq

section Maps

variable {κ : Type*} [BEq κ] [LawfulBEq κ]

def emplaceKey (l : List (κ × Nat)) (k : κ) (i : Nat) : List (κ × Nat) :=
  if (l.lookup k).isSome then l else l ++ [(k, i)]

theorem lookup_emplaceKey (l : List (κ × Nat)) (k k' : κ) (i : Nat) :
    (emplaceKey l k i).lookup k' = (l.lookup k').or (if k' == k then some i else none) := by
  unfold emplaceKey
  split
  · rename_i hk
    cases heq : k' == k with
    | false => simp
    | true =>
      obtain ⟨j, hj⟩ := Option.isSome_iff_exists.mp hk
      rw [eq_of_beq heq, hj]
      rfl
  · rw [List.lookup_append]
    cases heq : k' == k with
    | false => simp [List.lookup_cons, heq]
    | true => simp [List.lookup_cons, heq]

omit [LawfulBEq κ] in
theorem mem_emplaceKey {l : List (κ × Nat)} (h : p ∈ emplaceKey l k i) : p ∈ l ∨ p = (k, i) := by
  unfold emplaceKey at h
  split at h
  · exact .inl h
  · exact (List.mem_append.mp h).imp_right List.mem_singleton.mp

theorem mem_of_lookup {l : List (κ × β)} (h : l.lookup k = some v) :
    (k, v) ∈ l := by
  obtain ⟨l₁, l₂, rfl, -⟩ := List.lookup_eq_some_iff.mp h
  exact List.mem_append_right _ List.mem_cons_self

end Maps

structure HandleManager where
  handles : List HandleInfo
  names : List ((HandleType × String) × Nat)
  uniqueIds : List (GlobalHandle × Nat)
  names_bound : ∀ p ∈ names, p.2 < handles.length
  ids_bound : ∀ p ∈ uniqueIds, p.2 < handles.length

namespace HandleManager

def empty : HandleManager where
  handles := []
  names := []
  uniqueIds := []
  names_bound := by simp
  ids_bound := by simp

instance : Inhabited HandleManager := ⟨empty⟩

def find (m : HandleManager) (what : HandleType) (name : String) : Option HandleInfo :=
  (m.names.lookup (what, name)).bind (m.handles[·]?)

def getPublication (m : HandleManager) (name : String) : Option HandleInfo :=
  m.find .publication name

def getInput (m : HandleManager) (name : String) : Option HandleInfo := m.find .input name

def getEndpoint (m : HandleManager) (name : String) : Option HandleInfo := m.find .endpoint name

def getFilter (m : HandleManager) (name : String) : Option HandleInfo := m.find .filter name

def findHandle (m : HandleManager) (handle : GlobalHandle) : Option HandleInfo :=
  (m.uniqueIds.lookup handle).bind (m.handles[·]?)

def getHandleInfo (m : HandleManager) (handle : InterfaceHandle) : Option HandleInfo :=
  if 0 ≤ handle then m.handles[handle.toNat]? else none

/-- An entry is found by its name, unless it has no type, and always by its global handle. -/
def searchName (names : List ((HandleType × String) × Nat)) (info : HandleInfo) (index : Nat) :
    List ((HandleType × String) × Nat) :=
  match info.handleType with
  | .unknown => names
  | .filter => if info.key = "" then names else emplaceKey names (.filter, info.key) index
  | what => emplaceKey names (what, info.key) index

theorem mem_searchName {names : List ((HandleType × String) × Nat)}
    (h : p ∈ searchName names info index) :
    p ∈ names ∨ p = ((info.handleType, info.key), index) := by
  unfold searchName at h
  cases hwhat : info.handleType with
  | unknown => rw [hwhat] at h; exact .inl h
  | filter =>
    rw [hwhat] at h
    dsimp only at h
    split at h
    · exact .inl h
    · exact mem_emplaceKey h
  | publication | input | endpoint => rw [hwhat] at h; exact mem_emplaceKey h

theorem lookup_searchName {names : List ((HandleType × String) × Nat)}
    (htype : info.handleType ≠ .unknown) (hkey : info.key ≠ "") (index : Nat)
    (k : HandleType × String) : (searchName names info index).lookup k =
      (names.lookup k).or (if k = (info.handleType, info.key) then some index else none) := by
  unfold searchName
  cases hwhat : info.handleType with
  | unknown => exact absurd hwhat htype
  | filter =>
    rw [if_neg hkey, lookup_emplaceKey]
    simp only [beq_iff_eq]
  | publication | input | endpoint =>
    rw [lookup_emplaceKey]
    simp only [beq_iff_eq]

def generateName (m : HandleManager) (what : HandleType) : String :=
  what.nameStart ++ toString m.handles.length

def push (m : HandleManager) (info : HandleInfo) : HandleManager where
  handles := m.handles ++ [info]
  names := searchName m.names info m.handles.length
  uniqueIds := emplaceKey m.uniqueIds info.handle m.handles.length
  names_bound := by
    intro p hp
    rw [List.length_append, List.length_singleton]
    rcases mem_searchName hp with hp | rfl
    · exact Nat.lt_succ_of_lt (m.names_bound p hp)
    · exact Nat.lt_succ_self _
  ids_bound := by
    intro p hp
    rw [List.length_append, List.length_singleton]
    rcases mem_emplaceKey hp with hp | rfl
    · exact Nat.lt_succ_of_lt (m.ids_bound p hp)
    · exact Nat.lt_succ_self _

def newInfo (m : HandleManager) (handle : GlobalHandle) (what : HandleType)
    (key type units : String)
    (flags : UInt16) : HandleInfo where
  handle := handle
  handleType := what
  flags := flags
  key := if key = "" then m.generateName what else key
  type := type
  units := units

def addHandle (m : HandleManager) (handle : GlobalHandle) (what : HandleType)
    (key type units : String) (flags : UInt16) : HandleManager :=
  m.push (m.newInfo handle what key type units flags)

def localHandle (m : HandleManager) (fed : GlobalId) : GlobalHandle := ⟨fed, m.handles.length⟩

/-- An entry at a given position, after blank entries if the table is too short. -/
def addHandleAtIndex (m : HandleManager) (info : HandleInfo) (index : Int) : HandleManager :=
  if index = m.handles.length then m.push info
  else if 0 ≤ index then
    let extended := m.handles ++ List.replicate (index.toNat + 1 - m.handles.length)
      ({} : HandleInfo)
    { handles := extended.set index.toNat info
      names := searchName m.names info index.toNat
      uniqueIds := emplaceKey m.uniqueIds info.handle index.toNat
      names_bound := by
        intro p hp
        have hlen : (extended.set index.toNat info).length =
            m.handles.length + (index.toNat + 1 - m.handles.length) := by
          rw [List.length_set, List.length_append, List.length_replicate]
        rcases mem_searchName hp with hp | rfl
        · have := m.names_bound p hp
          omega
        · dsimp only
          omega
      ids_bound := by
        intro p hp
        have hlen : (extended.set index.toNat info).length =
            m.handles.length + (index.toNat + 1 - m.handles.length) := by
          rw [List.length_set, List.length_append, List.length_replicate]
        rcases mem_emplaceKey hp with hp | rfl
        · have := m.ids_bound p hp
          omega
        · dsimp only
          omega }
  else m

/-- The entry becomes blank and is no longer found. -/
def removeHandle (m : HandleManager) (handle : GlobalHandle) : HandleManager :=
  match m.uniqueIds.lookup handle with
  | none => m
  | some index =>
    let info := (m.handles[index]?).getD {}
    { handles := m.handles.set index {}
      names := if info.key = "" then m.names
        else m.names.filter (fun p => decide (p.1 ≠ (info.handleType, info.key)))
      uniqueIds := m.uniqueIds.filter (fun p => decide (p.1 ≠ handle))
      names_bound := by
        intro p hp
        rw [List.length_set]
        split at hp
        · exact m.names_bound p hp
        · exact m.names_bound p (List.mem_filter.mp hp).1
      ids_bound := by
        intro p hp
        rw [List.length_set]
        exact m.ids_bound p (List.mem_filter.mp hp).1 }

def modifyFlags (m : HandleManager) (index : Nat) (f : UInt16 → UInt16) : HandleManager where
  handles := m.handles.modify index (fun info => { info with flags := f info.flags })
  names := m.names
  uniqueIds := m.uniqueIds
  names_bound := by rw [List.length_modify]; exact m.names_bound
  ids_bound := by rw [List.length_modify]; exact m.ids_bound

theorem find_isSome_iff (m : HandleManager) (what : HandleType) (name : String) :
    (m.find what name).isSome = (m.names.lookup (what, name)).isSome := by
  unfold find
  cases h : m.names.lookup (what, name) with
  | none => rfl
  | some i =>
    have hi := m.names_bound _ (mem_of_lookup h)
    simp [List.getElem?_eq_getElem hi]

theorem find_push_of_some {m : HandleManager} (h : m.find what name = some info)
    (new : HandleInfo) (htype : new.handleType ≠ .unknown) (hkey : new.key ≠ "") :
    (m.push new).find what name = some info := by
  unfold find at h
  obtain ⟨i, hi, hget⟩ := Option.bind_eq_some_iff.mp h
  unfold find push
  rw [lookup_searchName htype hkey, hi]
  rw [Option.some_or, Option.bind_some,
    List.getElem?_append_left (m.names_bound _ (mem_of_lookup hi))]
  exact hget

theorem find_push_of_none {m : HandleManager} (h : m.find what name = none)
    (new : HandleInfo) (htype : new.handleType ≠ .unknown) (hkey : new.key ≠ "") :
    (m.push new).find what name =
      if (what, name) = (new.handleType, new.key) then some new else none := by
  have hnone : m.names.lookup (what, name) = none := by
    have hsome := m.find_isSome_iff what name
    rw [h] at hsome
    exact Option.isNone_iff_eq_none.mp (by simpa using hsome.symm)
  unfold find push
  rw [lookup_searchName htype hkey, hnone, Option.none_or]
  split
  · rw [Option.bind_some, List.getElem?_append_right (Nat.le_refl _), Nat.sub_self]
    rfl
  · rfl

theorem find_push_cases {m : HandleManager} (htype : new.handleType ≠ .unknown)
    (hkey : new.key ≠ "") (h : (m.push new).find what name = some info) :
    m.find what name = some info ∨
      (m.find what name = none ∧ what = new.handleType ∧ name = new.key ∧ info = new) := by
  cases hold : m.find what name with
  | some old =>
    rw [find_push_of_some hold new htype hkey] at h
    exact .inl h
  | none =>
    rw [find_push_of_none hold new htype hkey] at h
    split at h
    · rename_i heq
      exact .inr ⟨rfl, (Prod.mk.inj heq).1, (Prod.mk.inj heq).2, (Option.some.inj h).symm⟩
    · cases h

theorem findHandle_ne_none_iff (m : HandleManager) (handle : GlobalHandle) :
    m.findHandle handle ≠ none ↔ (m.uniqueIds.lookup handle).isSome = true := by
  unfold findHandle
  cases h : m.uniqueIds.lookup handle with
  | none => simp
  | some i =>
    have hi := m.ids_bound _ (mem_of_lookup h)
    simp [List.getElem?_eq_getElem hi]

theorem findHandle_emplaced {m m' : HandleManager} (h : m'.uniqueIds = emplaceKey m.uniqueIds k i)
    (handle : GlobalHandle) :
    m'.findHandle handle ≠ none ↔ m.findHandle handle ≠ none ∨ handle = k := by
  rw [findHandle_ne_none_iff, findHandle_ne_none_iff, h, lookup_emplaceKey, Option.isSome_or,
    Bool.or_eq_true]
  apply or_congr Iff.rfl
  cases heq : handle == k with
  | true => simpa using eq_of_beq heq
  | false => simpa using ne_of_beq_false heq

theorem findHandle_push_ne_none (m : HandleManager) (new : HandleInfo) (handle : GlobalHandle) :
    (m.push new).findHandle handle ≠ none ↔ m.findHandle handle ≠ none ∨ handle = new.handle :=
  findHandle_emplaced rfl handle

section AtIndex

variable (m : HandleManager) (info : HandleInfo) (i : Nat)

theorem names_addHandleAtIndex : (m.addHandleAtIndex info i).names = searchName m.names info i := by
  unfold addHandleAtIndex
  split
  · rename_i hi
    rw [Int.ofNat_inj.mp hi]
    rfl
  · rw [if_pos (Int.natCast_nonneg i)]
    rfl

theorem uniqueIds_addHandleAtIndex :
    (m.addHandleAtIndex info i).uniqueIds = emplaceKey m.uniqueIds info.handle i := by
  unfold addHandleAtIndex
  split
  · rename_i hi
    rw [Int.ofNat_inj.mp hi]
    rfl
  · rw [if_pos (Int.natCast_nonneg i)]
    rfl

theorem getElem_addHandleAtIndex (j : Nat) : (m.addHandleAtIndex info i).handles[j]? =
    if j = i then some info
    else if j < i ∧ m.handles.length ≤ j then some {} else m.handles[j]? := by
  unfold addHandleAtIndex
  split
  · rename_i hi
    have hlen := Int.ofNat_inj.mp hi
    subst hlen
    show (m.handles ++ [info])[j]? = _
    split
    · rename_i hj
      rw [hj, List.getElem?_append_right (Nat.le_refl _), Nat.sub_self]
      rfl
    rename_i hj
    rw [if_neg (by omega)]
    by_cases hlt : j < m.handles.length
    · rw [List.getElem?_append_left hlt]
    · rw [List.getElem?_eq_none (by simp; omega), List.getElem?_eq_none (by omega)]
  · rename_i hi
    have hne : i ≠ m.handles.length := fun h => hi (by rw [h])
    rw [if_pos (Int.natCast_nonneg i)]
    dsimp only [Int.toNat_natCast]
    split
    · rename_i hj
      rw [hj, List.getElem?_set_self (by simp; omega)]
    rename_i hj
    rw [List.getElem?_set_ne (Ne.symm hj)]
    split
    · rename_i hblank
      rw [List.getElem?_append_right hblank.2, List.getElem?_replicate, if_pos (by omega)]
    rename_i hold
    by_cases hlt : j < m.handles.length
    · rw [List.getElem?_append_left hlt]
    · rw [List.getElem?_eq_none (by simp; omega), List.getElem?_eq_none (by omega)]

theorem findHandle_addHandleAtIndex (handle : GlobalHandle) :
    (m.addHandleAtIndex info i).findHandle handle ≠ none ↔
      m.findHandle handle ≠ none ∨ handle = info.handle :=
  findHandle_emplaced (uniqueIds_addHandleAtIndex m info i) handle

end AtIndex

end HandleManager

inductive InterfaceAction where
  | cmdRegPub
  | cmdRegInput
  | cmdRegEndpoint
  | cmdRegFilter
  | cmdDataLink
  | cmdFilterLink
  | cmdAddNamedPublication
  | cmdAddNamedInput
  | cmdAddNamedEndpoint
  | cmdAddNamedFilter
  | cmdRemoveNamedPublication
  | cmdRemoveNamedInput
  | cmdRemoveNamedEndpoint
  | cmdRemoveNamedFilter
  | cmdAddSubscriber
  | cmdAddPublisher
  | cmdAddEndpoint
  | cmdAddFilter
  | cmdRemoveSubscriber
  | cmdRemovePublication
  | cmdRemoveEndpoint
  | cmdRemoveFilter
  | cmdCloseInterface
deriving DecidableEq, Repr

def namelessInterfaceFlag : UInt16 := 15

def hasSourceFilterFlag : UInt16 := 8

def hasDestFilterFlag : UInt16 := 13

def hasNonCloningDestFilterFlag : UInt16 := 14

def typeStringLoc : Nat := 0

def unitStringLoc : Nat := 1

def typeOutStringLoc : Nat := 1

structure InterfaceMessage where
  action : InterfaceAction
  source : GlobalHandle := ⟨parentBrokerId, invalidHandle⟩
  dest : GlobalHandle := ⟨parentBrokerId, invalidHandle⟩
  messageID : Int := 0
  counter : UInt16 := 0
  flags : UInt16 := 0
  actionTime : Time := .zero
  name : String := ""
  stringData : List String := []
deriving DecidableEq

namespace InterfaceMessage

def swapSourceDest (m : InterfaceMessage) : InterfaceMessage :=
  { m with source := m.dest, dest := m.source }

def getString (m : InterfaceMessage) (index : Nat) : String := m.stringData.getD index ""

def withTypes (m : InterfaceMessage) (typeIn typeOut : String) : InterfaceMessage :=
  if typeIn ≠ "" ∨ typeOut ≠ "" then { m with stringData := [typeIn, typeOut] } else m

theorem withTypes_eq (m : InterfaceMessage) (typeIn typeOut : String) :
    m.withTypes typeIn typeOut = { m with
      stringData := (m.withTypes typeIn typeOut).stringData } := by
  unfold withTypes
  split <;> rfl

theorem getString_withTypes {m : InterfaceMessage} (h : m.stringData = [])
    (typeIn typeOut : String) :
    (m.withTypes typeIn typeOut).getString 0 = typeIn ∧
      (m.withTypes typeIn typeOut).getString 1 = typeOut := by
  unfold withTypes
  split
  · exact ⟨rfl, rfl⟩
  rename_i hnone
  obtain ⟨hin, hout⟩ := not_or.mp hnone
  rw [not_not.mp hin, not_not.mp hout]
  unfold getString
  rw [h]
  exact ⟨rfl, rfl⟩

end InterfaceMessage

/-- What the handling of an interface command does to the outside, in order. -/
inductive InterfaceEffect where
  | transmit (route : RouteId) (msg : InterfaceMessage)
  | addAction (fed : GlobalId) (msg : InterfaceMessage)
  | command (route : RouteId) (cmd : ActionMessage)
  | federateCommand (fed : GlobalId) (cmd : ActionMessage)
  | nullDereference
deriving DecidableEq

end Helics
