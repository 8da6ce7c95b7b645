import Helics.FilterClosing

namespace Helics

theorem lookup_replace [BEq κ] [LawfulBEq κ] [DecidableEq κ] (l : List (κ × α)) (k k' : κ) (v : α) :
    (l.filter (fun p => decide (p.1 ≠ k)) ++ [(k, v)]).lookup k' =
      if k' = k then some v else l.lookup k' := by
  induction l with
  | nil =>
    by_cases hk : k' = k
    · simp [hk]
    · have hne : (k' == k) = false := beq_eq_false_iff_ne.mpr hk
      simp [hk, List.lookup_cons, hne]
  | cons p l ih =>
    by_cases hp : p.1 = k
    · rw [List.filter_cons_of_neg (by simpa using hp), ih]
      split
      · rfl
      · rename_i hk
        have hne : (k' == p.1) = false := beq_eq_false_iff_ne.mpr (hp ▸ hk)
        rw [List.lookup_cons, hne]
    · rw [List.filter_cons_of_pos (by simpa using hp), List.cons_append, List.lookup_cons, ih,
        List.lookup_cons]
      by_cases hk : k' = p.1
      · have hne : k' ≠ k := hk ▸ hp
        simp [hk, hp]
      · have hne : (k' == p.1) = false := beq_eq_false_iff_ne.mpr hk
        rw [hne]

namespace InterfaceCore

variable (c : InterfaceCore)

theorem lookup_setFilterCoordinator (handle handle' : InterfaceHandle)
    (coordinator : EndpointFilters) :
    (c.setFilterCoordinator handle coordinator).filterCoord.lookup handle' =
      if handle' = handle then some coordinator else c.filterCoord.lookup handle' :=
  lookup_replace c.filterCoord handle handle' coordinator

def filtersOf (c : InterfaceCore) (handle : InterfaceHandle) : EndpointFilters :=
  (c.filterCoord.lookup handle).getD .empty

def isConnected (c : InterfaceCore) (filt : GlobalHandle) : Bool :=
  ((c.findFilter filt).map (fun f => !checkActionFlag f.flags disconnectedFlag)).getD false

/-- The filters that process the messages from an endpoint, and those for the messages to it. -/
def appliedFilters (c : InterfaceCore) (handle : InterfaceHandle) :
    List GlobalHandle × Option GlobalHandle × List GlobalHandle :=
  ((c.filtersOf handle).sourceFilters.filter c.isConnected,
    (c.filtersOf handle).destFilter.filter c.isConnected,
    (c.filtersOf handle).cloningDestFilters.filter c.isConnected)

def Applies (c : InterfaceCore) (handle : InterfaceHandle) (filt : GlobalHandle) : Prop :=
  filt ∈ (c.appliedFilters handle).1 ∨ (c.appliedFilters handle).2.1 = some filt ∨
    filt ∈ (c.appliedFilters handle).2.2

def Attached (c : InterfaceCore) (handle : InterfaceHandle) (filt : GlobalHandle) : Prop :=
  (c.filtersOf handle).destFilter = some filt ∨ filt ∈ (c.filtersOf handle).allSourceFilters ∨
    filt ∈ (c.filtersOf handle).cloningDestFilters

theorem applies_iff (handle : InterfaceHandle) (filt : GlobalHandle) :
    c.Applies handle filt ↔ c.isConnected filt = true ∧
      (filt ∈ (c.filtersOf handle).sourceFilters ∨ (c.filtersOf handle).destFilter = some filt ∨
        filt ∈ (c.filtersOf handle).cloningDestFilters) := by
  unfold Applies appliedFilters
  rw [List.mem_filter, List.mem_filter, Option.filter_eq_some_iff]
  tauto

theorem Applies.attached (h : c.Applies handle filt) :
    c.Attached handle filt := by
  rcases ((c.applies_iff handle filt).mp h).2 with hsource | hdest | hclone
  · exact .inr (.inl ((c.filtersOf handle).sourceFilters_subset filt hsource))
  · exact .inl hdest
  · exact .inr (.inr hclone)

theorem filtersOf_of_getFilterCoordinator {c : InterfaceCore}
    (h : c.getFilterCoordinator handle = some coordinator) : c.filtersOf handle = coordinator := by
  unfold getFilterCoordinator at h
  unfold filtersOf
  cases hl : c.filterCoord.lookup handle with
  | some stored =>
    rw [hl] at h
    exact Option.some.inj h
  | none =>
    rw [hl] at h
    dsimp only at h
    split at h
    · exact Option.some.inj h
    · cases h

theorem filtersOf_setFilterCoordinator (handle handle' : InterfaceHandle)
    (coordinator : EndpointFilters) :
    (c.setFilterCoordinator handle coordinator).filtersOf handle' =
      if handle' = handle then coordinator else c.filtersOf handle' := by
  unfold filtersOf
  rw [lookup_setFilterCoordinator]
  split
  · rfl
  · rfl

theorem isConnected_marked (filt filt' : GlobalHandle) : (c.modifyFilter filt (fun f => { f with
        flags := setActionFlag f.flags disconnectedFlag })).isConnected filt' = true ↔
      c.isConnected filt' = true ∧ filt' ≠ filt := by
  unfold isConnected
  rw [findFilter_modifyFilter (f := fun f : FilterRecord => { f with
    flags := setActionFlag f.flags disconnectedFlag }) (fun _ => rfl)]
  by_cases hfilt : filt' = filt
  · rw [if_pos hfilt]
    cases c.findFilter filt with
    | none => simp [hfilt]
    | some f => simp [hfilt, checkActionFlag_disconnected]
  · simp [hfilt]

theorem processCommand_removeFilter
    (hact : cmd.action = .cmdRemoveFilter) :
    (∀ handle, (c.processCommand cmd).1.filtersOf handle = c.filtersOf handle) ∧
      ∀ filt, (c.processCommand cmd).1.isConnected filt = true ↔ c.isConnected filt = true ∧
        ¬ (c.Attached cmd.dest.handle cmd.source ∧ filt = cmd.source) := by
  have hstep : c.processCommand cmd = c.removeTargetFromInterface cmd := by
    unfold processCommand
    rw [hact]
  rw [hstep]
  unfold removeTargetFromInterface
  rw [if_pos hact]
  unfold Attached
  cases hco : c.getFilterCoordinator cmd.dest.handle with
  | none =>
    have hnone : c.filtersOf cmd.dest.handle = {} := by
      unfold getFilterCoordinator at hco
      unfold filtersOf
      cases hl : c.filterCoord.lookup cmd.dest.handle with
      | none => rfl
      | some stored => rw [hl] at hco; cases hco
    rw [hnone]
    simp
  | some coordinator =>
    have hfilters := filtersOf_of_getFilterCoordinator hco
    have hset : ∀ handle, (c.setFilterCoordinator cmd.dest.handle coordinator).filtersOf handle =
        c.filtersOf handle := by
      intro handle
      rw [filtersOf_setFilterCoordinator]
      split
      · rename_i heq
        rw [heq, hfilters]
      · rfl
    rw [hfilters]
    unfold closeFilter
    dsimp only
    split
    · rename_i hattached
      refine ⟨hset, ?_⟩
      intro filt
      rw [isConnected_marked]
      simp only [hattached, true_and]
      rfl
    · rename_i hfree
      refine ⟨hset, ?_⟩
      intro filt
      simp only [hfree, false_and, not_false_iff, and_true]
      rfl

def DetachesOnly (c : InterfaceCore) (cmd : InterfaceMessage) : Prop :=
  (∀ handle, handle ≠ cmd.dest.handle →
      (c.processCommand cmd).1.appliedFilters handle = c.appliedFilters handle) ∧
    ¬ (c.processCommand cmd).1.Applies cmd.dest.handle cmd.source

/-- Taking a filter from an endpoint it is attached to leaves the other endpoints alone exactly if
the filter is applied at none of them. -/
theorem detachesOnly_iff (c : InterfaceCore) (cmd : InterfaceMessage)
    (hact : cmd.action = .cmdRemoveFilter) :
    c.DetachesOnly cmd ↔ (c.Attached cmd.dest.handle cmd.source →
      ∀ handle, handle ≠ cmd.dest.handle → ¬ c.Applies handle cmd.source) := by
  obtain ⟨hfilters, hconnected⟩ := processCommand_removeFilter (c := c) hact
  constructor
  · intro h hattached handle hne happlies
    have hafter : (c.processCommand cmd).1.Applies handle cmd.source := by
      unfold Applies
      rw [h.1 handle hne]
      exact happlies
    have hstill := ((applies_iff _ handle cmd.source).mp hafter).1
    exact ((hconnected cmd.source).mp hstill).2 ⟨hattached, rfl⟩
  · intro h
    constructor
    · intro handle hne
      have hsame : ∀ filt, (filt ∈ (c.filtersOf handle).sourceFilters ∨
          (c.filtersOf handle).destFilter = some filt ∨
          filt ∈ (c.filtersOf handle).cloningDestFilters) →
          (c.processCommand cmd).1.isConnected filt = c.isConnected filt := by
        intro filt hmem
        rw [Bool.eq_iff_iff, hconnected]
        constructor
        · exact And.left
        · intro hconn
          refine ⟨hconn, ?_⟩
          rintro ⟨hattached, rfl⟩
          exact h hattached handle hne ((c.applies_iff handle _).mpr ⟨hconn, hmem⟩)
      unfold appliedFilters
      rw [hfilters, List.filter_congr (fun filt hf => hsame filt (.inl hf)),
        List.filter_congr (fun filt hf => hsame filt (.inr (.inr hf)))]
      cases hdest : (c.filtersOf handle).destFilter with
      | none => rfl
      | some filt =>
        rw [Option.filter_some, Option.filter_some, hsame filt (.inr (.inl hdest))]
    · intro happlies
      have hstill := ((hconnected cmd.source).mp ((applies_iff _ _ _).mp happlies).1).2
      apply hstill
      refine ⟨?_, rfl⟩
      have hattached := happlies.attached
      unfold Attached at hattached ⊢
      rw [hfilters] at hattached
      exact hattached

def sharingCore (handles : List InterfaceHandle) : InterfaceCore where
  globalBrokerIdLocal := globalBrokerIdShift
  filters := [{ coreId := globalBrokerIdShift, handle := 9 }]
  filterCoord := handles.map (fun handle => (handle,
    { EndpointFilters.empty with
      hasDestFilters := true, destFilter := some ⟨globalBrokerIdShift, 9⟩ }))

def detachFromFirst : InterfaceMessage :=
  { action := .cmdRemoveFilter, source := ⟨globalBrokerIdShift, 9⟩,
    dest := ⟨globalFederateIdShift, 0⟩ }

theorem detachesOnly_single : (sharingCore [0]).DetachesOnly detachFromFirst :=
  (detachesOnly_iff (sharingCore [0]) detachFromFirst rfl).mpr (by
    rintro _ handle hne happlies
    have hnone : (sharingCore [0]).filtersOf handle = {} := by
      have hbeq : (handle == 0) = false := beq_eq_false_iff_ne.mpr hne
      unfold filtersOf sharingCore
      rw [List.map_cons, List.lookup_cons, hbeq]
      rfl
    have hmem := ((applies_iff _ _ _).mp happlies).2
    rw [hnone] at hmem
    simp at hmem)

/-- The second endpoint loses the filter too. -/
theorem second_endpoint_detached : ¬ (sharingCore [0, 1]).DetachesOnly detachFromFirst := by
  intro h
  have hsame := h.1 1 (by decide)
  exact absurd (congrArg (fun applied => applied.2.1) hsame) (by decide)

end InterfaceCore

end Helics
