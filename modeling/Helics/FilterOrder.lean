import Helics.InterfaceCore

namespace Helics

def globalMatchStrings : List String := ["any", "all", "data", "string", "block"]

def isDefaultType (type : String) : Bool := decide (type.toList.take 3 = ['d', 'e', 'f'])

def matchingTypes (type1 type2 : String) : Bool :=
  if type1 = type2 then true
  else if type1 = "" ∨ type2 = "" then true
  else if isDefaultType type1 ∨ isDefaultType type2 then true
  else decide (type1 ∈ globalMatchStrings) || decide (type2 ∈ globalMatchStrings)

/-- The variables of the ordering loop beside the marks of the filters. -/
structure FilterSort where
  sourceFilters : List FilterRecord := []
  currentType : String
  someUnused : Bool := false
  usedMore : Bool := false

namespace FilterSort

def takes (s : FilterSort) (firstPass : Bool) (filt : FilterRecord) : Bool :=
  if firstPass then filt.cloning else matchingTypes filt.inputType s.currentType

def use (s : FilterSort) (firstPass : Bool) (filt : FilterRecord) : FilterSort :=
  { s with
    sourceFilters := s.sourceFilters ++ [filt]
    usedMore := true
    currentType := if firstPass then s.currentType else filt.outputType }

def sweep (firstPass : Bool) :
    List (FilterRecord × Bool) → FilterSort → List (FilterRecord × Bool) × FilterSort
  | [], s => ([], s)
  | (filt, true) :: rest, s =>
    let swept := sweep firstPass rest s
    ((filt, true) :: swept.1, swept.2)
  | (filt, false) :: rest, s =>
    if s.takes firstPass filt then
      let swept := sweep firstPass rest (s.use firstPass filt)
      ((filt, true) :: swept.1, swept.2)
    else
      let swept := sweep firstPass rest { s with someUnused := true }
      ((filt, false) :: swept.1, swept.2)

def unused (l : List (FilterRecord × Bool)) : List FilterRecord :=
  (l.filter (fun p => !p.2)).map Prod.fst

@[simp] theorem unused_nil : unused [] = [] := rfl

@[simp] theorem unused_used (filt : FilterRecord) (l : List (FilterRecord × Bool)) :
    unused ((filt, true) :: l) = unused l := rfl

@[simp] theorem unused_open (filt : FilterRecord) (l : List (FilterRecord × Bool)) :
    unused ((filt, false) :: l) = filt :: unused l := rfl

theorem unused_unmarked (l : List FilterRecord) : unused (l.map (fun f => (f, false))) = l := by
  induction l with
  | nil => rfl
  | cons filt l ih => rw [List.map_cons, unused_open, ih]

theorem sweep_someUnused (firstPass : Bool) (l : List (FilterRecord × Bool)) (s : FilterSort) :
    (sweep firstPass l s).2.someUnused =
      (s.someUnused || !(unused (sweep firstPass l s).1).isEmpty) := by
  fun_induction sweep firstPass l s with
  | case1 s => simp
  | case2 filt rest s swept ih => exact ih
  | case3 filt rest s htakes swept ih => exact ih
  | case4 filt rest s htakes swept ih => rw [ih]; simp

theorem sweep_first (l : List (FilterRecord × Bool)) (s : FilterSort) :
    (sweep true l s).2.sourceFilters = s.sourceFilters ++ (unused l).filter FilterRecord.cloning ∧
      unused (sweep true l s).1 = (unused l).filter (fun f => !f.cloning) ∧
      (sweep true l s).2.currentType = s.currentType := by
  fun_induction sweep true l s with
  | case1 s => simp
  | case2 filt rest s swept ih => exact ih
  | case3 filt rest s htakes swept ih =>
    have hcloning : filt.cloning = true := htakes
    obtain ⟨hout, hleft, htype⟩ := ih
    refine ⟨?_, ?_, htype⟩
    · rw [hout, unused_open, List.filter_cons_of_pos hcloning]
      exact List.append_assoc _ _ _
    · rw [unused_used, hleft, unused_open, List.filter_cons_of_neg (by simp [hcloning])]
  | case4 filt rest s htakes swept ih =>
    have hcloning : filt.cloning = false := Bool.eq_false_iff.mpr htakes
    obtain ⟨hout, hleft, htype⟩ := ih
    refine ⟨?_, ?_, htype⟩
    · rw [hout, unused_open, List.filter_cons_of_neg (by simp [hcloning])]
    · rw [unused_open, hleft, unused_open, List.filter_cons_of_pos (by simp [hcloning])]

end FilterSort

/-- Each filter takes what the one before it puts out, the first one the given type. -/
def Chained : String → List FilterRecord → Prop
  | _, [] => True
  | type, filt :: filts =>
    matchingTypes filt.inputType type = true ∧ Chained filt.outputType filts

def chainType : String → List FilterRecord → String
  | type, [] => type
  | _, filt :: filts => chainType filt.outputType filts

theorem chainType_append (type : String) (l l' : List FilterRecord) :
    chainType type (l ++ l') = chainType (chainType type l) l' := by
  induction l generalizing type with
  | nil => rfl
  | cons filt l ih => exact ih _

theorem Chained.append (h : Chained type l) (h' : Chained (chainType type l) l') :
    Chained type (l ++ l') := by
  induction l generalizing type with
  | nil => exact h'
  | cons filt l ih => exact ⟨h.1, ih h.2 h'⟩

namespace FilterSort

structure Extended (s s' : FilterSort) (l l' : List (FilterRecord × Bool))
    (taken : List FilterRecord) : Prop where
  sourceFilters : s'.sourceFilters = s.sourceFilters ++ taken
  drawn : (taken ++ unused l').Perm (unused l)
  chained : Chained s.currentType taken
  currentType : s'.currentType = chainType s.currentType taken
  stuck : taken = [] → ∀ f ∈ unused l', matchingTypes f.inputType s.currentType = false

theorem sweep_later (l : List (FilterRecord × Bool)) (s : FilterSort) :
    ∃ taken, Extended s (sweep false l s).2 l (sweep false l s).1 taken ∧
      (sweep false l s).2.usedMore = (s.usedMore || !taken.isEmpty) := by
  fun_induction sweep false l s with
  | case1 s =>
    refine ⟨[], ⟨?_, .refl _, trivial, rfl, ?_⟩, ?_⟩
    · simp
    · intro _ f hf
      cases hf
    · simp
  | case2 filt rest s swept ih =>
    obtain ⟨taken, hext, hused⟩ := ih
    exact ⟨taken, ⟨hext.sourceFilters, hext.drawn, hext.chained, hext.currentType, hext.stuck⟩,
      hused⟩
  | case3 filt rest s htakes swept ih =>
    have hmatch : matchingTypes filt.inputType s.currentType = true := htakes
    obtain ⟨taken, hext, hused⟩ := ih
    refine ⟨filt :: taken, ⟨?_, ?_, ⟨hmatch, hext.chained⟩, hext.currentType, ?_⟩, ?_⟩
    · rw [hext.sourceFilters]
      exact List.append_assoc _ _ _
    · exact hext.drawn.cons filt
    · intro hnil
      cases hnil
    · rw [hused]
      simp [use]
  | case4 filt rest s htakes swept ih =>
    have hmatch : matchingTypes filt.inputType s.currentType = false := Bool.eq_false_iff.mpr htakes
    obtain ⟨taken, hext, hused⟩ := ih
    refine ⟨taken, ⟨hext.sourceFilters, ?_, hext.chained, hext.currentType, ?_⟩, hused⟩
    · rw [unused_open, unused_open]
      exact List.perm_middle.trans (hext.drawn.cons filt)
    · intro hnil f hf
      rcases List.mem_cons.mp hf with rfl | hf
      · exact hmatch
      · exact hext.stuck hnil f hf

theorem sweep_later_shrinks
    (hnew : s.usedMore = false) (hused : (sweep false l s).2.usedMore = true) :
    (unused (sweep false l s).1).length < (unused l).length := by
  obtain ⟨taken, hext, htaken⟩ := sweep_later l s
  have hlen := hext.drawn.length_eq
  rw [List.length_append] at hlen
  rw [hused, hnew, Bool.false_or] at htaken
  cases taken with
  | nil => cases htaken
  | cons filt taken =>
    rw [List.length_cons] at hlen
    omega

/-- The passes after the first one, until one of them marks nothing or leaves nothing. -/
def passes (l : List (FilterRecord × Bool)) (s : FilterSort) :
    List (FilterRecord × Bool) × FilterSort :=
  let swept := sweep false l { s with someUnused := false, usedMore := false }
  if _ : swept.2.someUnused = true ∧ swept.2.usedMore = true then passes swept.1 swept.2 else swept
termination_by (unused l).length
decreasing_by
  rename_i hgo
  exact sweep_later_shrinks rfl hgo.2

/-- The passes end when no filter without a mark fits the type that the chain puts out. -/
theorem passes_extend (l : List (FilterRecord × Bool)) (s : FilterSort) :
    ∃ taken, (passes l s).2.sourceFilters = s.sourceFilters ++ taken ∧
      (taken ++ unused (passes l s).1).Perm (unused l) ∧ Chained s.currentType taken ∧
      ∀ f ∈ unused (passes l s).1,
        matchingTypes f.inputType (chainType s.currentType taken) = false := by
  fun_induction passes l s with
  | case1 l s swept hgo ih =>
    obtain ⟨taken, hext, _⟩ := sweep_later l { s with someUnused := false, usedMore := false }
    obtain ⟨more, hout, hdrawn, hchain, hstuck⟩ := ih
    refine ⟨taken ++ more, ?_, ?_, ?_, ?_⟩
    · rw [hout, hext.sourceFilters, List.append_assoc]
    · rw [List.append_assoc]
      exact (hdrawn.append_left taken).trans hext.drawn
    · apply hext.chained.append
      rw [← hext.currentType]
      exact hchain
    · rw [chainType_append]
      rw [hext.currentType] at hstuck
      exact hstuck
  | case2 l s swept hstop =>
    obtain ⟨taken, hext, hused⟩ := sweep_later l { s with someUnused := false, usedMore := false }
    refine ⟨taken, hext.sourceFilters, hext.drawn, hext.chained, ?_⟩
    intro f hf
    have hsome := sweep_someUnused false l { s with someUnused := false, usedMore := false }
    cases htaken : taken with
    | nil => exact hext.stuck htaken f hf
    | cons filt rest =>
      -- The pass took a filter, so it can only be the last one if it left nothing.
      rw [htaken] at hused
      have hnone : swept.2.someUnused ≠ true := fun h => hstop ⟨h, hused⟩
      rw [show swept.2.someUnused = _ from hsome, Bool.false_or] at hnone
      cases hleft : unused (sweep false l { s with someUnused := false, usedMore := false }).1 with
      | nil => rw [hleft] at hf; cases hf
      | cons g gs => rw [hleft] at hnone; exact absurd rfl hnone

end FilterSort

def sortFilters (endpointType : String) (filters : List FilterRecord) :
    List (FilterRecord × Bool) × FilterSort :=
  let first := FilterSort.sweep true (filters.map (fun f => (f, false)))
    { currentType := endpointType }
  if first.2.someUnused then FilterSort.passes first.1 first.2 else first

def organizedFilters (endpointType : String) (filters : List FilterRecord) : List FilterRecord :=
  (sortFilters endpointType filters).2.sourceFilters

def unplacedFilters (endpointType : String) (filters : List FilterRecord) : List FilterRecord :=
  FilterSort.unused (sortFilters endpointType filters).1

/-- The cloning filters come first, then a chain of the others that cannot be continued. -/
theorem sortFilters_spec (endpointType : String) (filters : List FilterRecord) :
    ∃ chain, organizedFilters endpointType filters = filters.filter FilterRecord.cloning ++ chain ∧
      (chain ++ unplacedFilters endpointType filters).Perm (filters.filter (fun f => !f.cloning)) ∧
      Chained endpointType chain ∧ ∀ f ∈ unplacedFilters endpointType filters,
        matchingTypes f.inputType (chainType endpointType chain) = false := by
  obtain ⟨hout, hleft, htype⟩ := FilterSort.sweep_first (filters.map (fun f => (f, false)))
    { currentType := endpointType }
  have hsome := FilterSort.sweep_someUnused true (filters.map (fun f => (f, false)))
    { currentType := endpointType }
  rw [FilterSort.unused_unmarked] at hout hleft
  unfold organizedFilters unplacedFilters sortFilters
  dsimp only
  split
  · obtain ⟨taken, htaken, hdrawn, hchain, hstuck⟩ := FilterSort.passes_extend
      (FilterSort.sweep true (filters.map (fun f => (f, false))) { currentType := endpointType }).1
      (FilterSort.sweep true (filters.map (fun f => (f, false))) { currentType := endpointType }).2
    rw [htype] at hchain hstuck
    rw [hleft] at hdrawn
    refine ⟨taken, ?_, hdrawn, hchain, hstuck⟩
    rw [htaken, hout]
    rfl
  · rename_i hdone
    rw [hsome, Bool.false_or, hleft] at hdone
    have hnil : filters.filter (fun f => !f.cloning) = [] := by simpa using hdone
    refine ⟨[], ?_, ?_, trivial, ?_⟩
    · rw [hout, List.append_nil]
      rfl
    · rw [hleft, hnil]
      exact .refl _
    · intro f hf
      rw [hleft, hnil] at hf
      cases hf

theorem sortFilters_perm (endpointType : String) (filters : List FilterRecord) :
    (organizedFilters endpointType filters ++ unplacedFilters endpointType filters).Perm
      filters := by
  obtain ⟨chain, hout, hdrawn, _, _⟩ := sortFilters_spec endpointType filters
  rw [hout, List.append_assoc]
  exact (hdrawn.append_left _).trans (List.filter_append_perm FilterRecord.cloning filters)

theorem mem_of_mem_organizedFilters (h : f ∈ organizedFilters endpointType filters) : f ∈ filters :=
  (sortFilters_perm endpointType filters).subset (List.mem_append_left _ h)

namespace InterfaceCore

theorem globalHandle_of_findFilter {c : InterfaceCore} (h : c.findFilter handle = some f) :
    f.globalHandle = handle := by
  have hfound := List.find?_some h
  exact of_decide_eq_true hfound

def sourceRecords (c : InterfaceCore) (coordinator : EndpointFilters) : List FilterRecord :=
  coordinator.allSourceFilters.filterMap c.findFilter

theorem sourceRecords_handles (c : InterfaceCore) (coordinator : EndpointFilters) :
    ((c.sourceRecords coordinator).map FilterRecord.globalHandle).Sublist
      coordinator.allSourceFilters := by
  unfold sourceRecords
  induction coordinator.allSourceFilters with
  | nil => exact .slnil
  | cons handle handles ih =>
    rw [List.filterMap_cons]
    split
    · exact ih.cons handle
    · rename_i f hf
      rw [List.map_cons, globalHandle_of_findFilter hf]
      exact ih.cons_cons handle

def organizeCoordinator (c : InterfaceCore) (endpointType : String)
    (coordinator : EndpointFilters) : EndpointFilters :=
  if coordinator.allSourceFilters = [] then coordinator
  else { coordinator with
    sourceFilters := (organizedFilters endpointType (c.sourceRecords coordinator)).map
      FilterRecord.globalHandle
    sourceFilters_subset := by
      intro handle h
      obtain ⟨f, hf, rfl⟩ := List.mem_map.mp h
      exact (c.sourceRecords_handles coordinator).subset
        (List.mem_map_of_mem (mem_of_mem_organizedFilters hf)) }

def organizeFilterOperations (c : InterfaceCore) : InterfaceCore :=
  { c with filterCoord := c.filterCoord.map (fun entry =>
      (entry.1, match c.handles.getHandleInfo entry.1 with
        | none => entry.2
        | some info => c.organizeCoordinator info.type entry.2)) }

theorem organizeCoordinator_sourceFilters (c : InterfaceCore) (endpointType : String)
    (coordinator : EndpointFilters) :
    (c.organizeCoordinator endpointType coordinator).sourceFilters =
      (organizedFilters endpointType (c.sourceRecords coordinator)).map
        FilterRecord.globalHandle := by
  unfold organizeCoordinator
  split
  · rename_i hnil
    have hnone : coordinator.sourceFilters = [] := by
      apply List.eq_nil_iff_forall_not_mem.mpr
      intro handle hmem
      have hall := coordinator.sourceFilters_subset handle hmem
      rw [hnil] at hall
      cases hall
    have hrecords : c.sourceRecords coordinator = [] := by
      unfold sourceRecords
      rw [hnil]
      rfl
    have hempty : organizedFilters endpointType [] = [] := rfl
    rw [hnone, hrecords, hempty]
    rfl
  · rfl

/-- The ordering of the source filters of an endpoint is sound and cannot be continued: the cloning
filters come first, the others form a chain of types, and no filter that is left fits its end. -/
theorem organizeFilterOperations_sound_maximal (c : InterfaceCore) (handle : InterfaceHandle)
    (info : HandleInfo) (coordinator : EndpointFilters)
    (hinfo : c.handles.getHandleInfo handle = some info)
    (hmem : (handle, coordinator) ∈ c.filterCoord) :
    ∃ coordinator', (handle, coordinator') ∈ c.organizeFilterOperations.filterCoord ∧
      ∃ chain unused : List FilterRecord, coordinator'.sourceFilters =
          ((c.sourceRecords coordinator).filter FilterRecord.cloning ++ chain).map
            FilterRecord.globalHandle ∧
        (((c.sourceRecords coordinator).filter FilterRecord.cloning ++ chain) ++ unused).Perm
          (c.sourceRecords coordinator) ∧
        (coordinator.allSourceFilters.Nodup → coordinator'.sourceFilters.Nodup) ∧
        (∀ f ∈ chain, f.cloning = false) ∧ Chained info.type chain ∧
        ∀ f ∈ unused, matchingTypes f.inputType (chainType info.type chain) = false := by
  refine ⟨c.organizeCoordinator info.type coordinator, ?_, ?_⟩
  · apply List.mem_map.mpr
    refine ⟨_, hmem, ?_⟩
    rw [hinfo]
  · obtain ⟨chain, hout, hdrawn, hchain, hstuck⟩ :=
      sortFilters_spec info.type (c.sourceRecords coordinator)
    have hperm := sortFilters_perm info.type (c.sourceRecords coordinator)
    rw [organizeCoordinator_sourceFilters, hout] at *
    refine ⟨chain, unplacedFilters info.type (c.sourceRecords coordinator), rfl, hperm, ?_, ?_,
      hchain, hstuck⟩
    · intro hnodup
      have hall := (c.sourceRecords_handles coordinator).nodup hnodup
      have hplaced := (hperm.map FilterRecord.globalHandle).nodup_iff.mpr hall
      rw [List.map_append] at hplaced
      exact (List.nodup_append.mp hplaced).1
    · intro f hf
      have hopen := hdrawn.subset (List.mem_append_left _ hf)
      simpa using (List.mem_filter.mp hopen).2

/-- Of the filters of the endpoint the last fits its type, the second what that one makes of it, the
first clones and the third fits neither. -/
def filteringCore : InterfaceCore :=
  let filt (handle : InterfaceHandle) (i o : String) (cloning : Bool) : FilterRecord :=
    { coreId := globalBrokerIdShift, handle, inputType := i, outputType := o, cloning }
  let filters := [filt 1 "" "" true, filt 2 "celsius" "kelvin" false,
    filt 3 "volt" "volt" false, filt 4 "double" "celsius" false]
  { handles := HandleManager.empty.addHandle ⟨globalFederateIdShift, 0⟩ .endpoint "e" "double" "" 0
    filters
    filterCoord := [(0, { allSourceFilters := filters.map FilterRecord.globalHandle })] }

theorem filteringCore_organized :
    ∃ coordinator', (0, coordinator') ∈ filteringCore.organizeFilterOperations.filterCoord ∧
      ∃ chain unused : List FilterRecord, coordinator'.sourceFilters =
          (filteringCore.filters.filter FilterRecord.cloning ++ chain).map
            FilterRecord.globalHandle ∧
        ((filteringCore.filters.filter FilterRecord.cloning ++ chain) ++ unused).Perm
          filteringCore.filters ∧
        ((filteringCore.filters.map FilterRecord.globalHandle).Nodup →
          coordinator'.sourceFilters.Nodup) ∧
        (∀ f ∈ chain, f.cloning = false) ∧ Chained "double" chain ∧
        ∀ f ∈ unused, matchingTypes f.inputType (chainType "double" chain) = false :=
  organizeFilterOperations_sound_maximal filteringCore 0 _ _ rfl List.mem_cons_self

end InterfaceCore

end Helics
