import Helics.FilterAttachment

namespace Helics

open InterfaceMessage

def InterfaceMessage.isCloning (cmd : InterfaceMessage) : Bool :=
  checkActionFlag cmd.flags cloneFlag

def errorReplies (effects : List InterfaceEffect) : List ActionMessage :=
  effects.filterMap fun
    | .command _ cmd | .federateCommand _ cmd =>
      if cmd.messageAction = .cmdError then some cmd else none
    | _ => none

theorem errorReplies_append (e e' : List InterfaceEffect) :
    errorReplies (e ++ e') = errorReplies e ++ errorReplies e' :=
  List.filterMap_append

namespace InterfaceCore

theorem errorReplies_dependentNotice (c : InterfaceCore) (cmd : InterfaceMessage) :
    errorReplies (c.dependentNotice cmd) = [] := by
  unfold dependentNotice
  split
  · rfl
  · rfl

/-- What is known of a core while it registers the destination filters of an endpoint. -/
structure Registering (own higher : GlobalId) (handle : InterfaceHandle) (key : String)
    (c : InterfaceCore) (coordinator : EndpointFilters) : Prop where
  own : c.globalBrokerIdLocal = own
  higher : c.higherBrokerId = higher
  endpoint : ∃ info, c.loopEndpoint handle = some info ∧ info.key = key
  coordinator : c.getFilterCoordinator handle = some coordinator

structure DestFilterCommand (handle : InterfaceHandle) (cmd : InterfaceMessage) : Prop where
  action : cmd.action = .cmdAddFilter
  destination : checkActionFlag cmd.flags destinationTarget = true
  dest : cmd.dest.handle = handle

/-- The reply for a filter of this core would go to the core itself, which drops it. -/
def replies (own : GlobalId) (key : String) (cmds : List InterfaceMessage) : List ActionMessage :=
  (cmds.filter (fun cmd => !cmd.isCloning && decide (cmd.source.fedId ≠ own))).map
    (fun cmd => duplicateDestFilter cmd { key := key })

theorem errorReplies_routeCommand {c : InterfaceCore}
    (hparent : c.globalBrokerIdLocal ≠ parentBrokerId)
    (hhigher : c.globalBrokerIdLocal ≠ c.higherBrokerId) (cmd : InterfaceMessage)
    (info : HandleInfo) : errorReplies (c.routeCommand (duplicateDestFilter cmd info)) =
      if cmd.source.fedId = c.globalBrokerIdLocal then []
      else [duplicateDestFilter cmd { key := info.key }] := by
  have hdest : (duplicateDestFilter cmd info).destId = cmd.source.fedId := rfl
  unfold routeCommand
  rw [hdest]
  by_cases hown : cmd.source.fedId = c.globalBrokerIdLocal
  · rw [if_pos hown, if_neg, if_pos hown]
    · rfl
    · rw [hown]
      rintro (h | h)
      · exact hparent h
      · exact hhigher h
  · rw [if_neg hown, if_neg hown]
    split
    · rfl
    · split
      · rfl
      · rfl

theorem getFilterCoordinator_setFilterCoordinator (c : InterfaceCore) (handle : InterfaceHandle)
    (coordinator : EndpointFilters) :
    (c.setFilterCoordinator handle coordinator).getFilterCoordinator handle = some coordinator := by
  unfold getFilterCoordinator
  rw [lookup_setFilterCoordinator, if_pos rfl]

theorem loopEndpoint_relabeled {c c' : InterfaceCore} (h : Relabeled c.loopHandles c'.loopHandles)
    (hept : ∃ info, c.loopEndpoint handle = some info ∧ info.key = key) :
    ∃ info, c'.loopEndpoint handle = some info ∧ info.key = key := by
  obtain ⟨info, hinfo, hkey⟩ := hept
  unfold loopEndpoint HandleManager.getHandleInfo at hinfo ⊢
  obtain ⟨hget, htype⟩ := Option.filter_eq_some_iff.mp hinfo
  split at hget
  · rename_i hpos
    obtain ⟨info', hget', hlike⟩ := h.kept hget
    refine ⟨info', ?_, hlike.key.trans hkey⟩
    rw [if_pos hpos, Option.filter_eq_some_iff, hlike.handleType]
    exact ⟨hget', htype⟩
  · cases hget

/-- What the coordinator of the endpoint becomes with one more destination filter. -/
def withDestFilter (coordinator : EndpointFilters) (cmd : InterfaceMessage) : EndpointFilters :=
  if cmd.isCloning then { coordinator with
    hasDestFilters := true
    cloningDestFilters := coordinator.cloningDestFilters ++ [cmd.source] }
  else if coordinator.hasDestFilters then coordinator
  else { coordinator with hasDestFilters := true, destFilter := some cmd.source }

section

variable {own higher : GlobalId} {handle : InterfaceHandle} {key : String} {c : InterfaceCore}
  {coordinator : EndpointFilters} {cmd : InterfaceMessage} {cmds : List InterfaceMessage}

theorem Registering.processCommand (hparent : own ≠ parentBrokerId) (hhigher : own ≠ higher)
    (h : Registering own higher handle key c coordinator) (hcmd : DestFilterCommand handle cmd)
    (hclone : cmd.source ∉ coordinator.cloningDestFilters)
    (hdest : coordinator.destFilter ≠ some cmd.source) :
    Registering own higher handle key (c.processCommand cmd).1 (withDestFilter coordinator cmd) ∧
      errorReplies (c.processCommand cmd).2 =
        if coordinator.hasDestFilters then replies own key [cmd] else [] := by
  obtain ⟨rfl, rfl, ⟨info, hinfo, rfl⟩, hco⟩ := h
  obtain ⟨haction, hdestination, rfl⟩ := hcmd
  have hstep : c.processCommand cmd = c.addTargetToInterface cmd := by
    unfold InterfaceCore.processCommand
    rw [haction]
  have hadd : c.addTargetToInterface cmd = ((c.processFilterInfo cmd).1,
      (c.processFilterInfo cmd).2 ++ (c.processFilterInfo cmd).1.dependentNotice cmd) :=
    if_pos haction
  have hsame := c.kept_addTargetToInterface cmd
  have hept := loopEndpoint_relabeled hsame.loop ⟨info, hinfo, rfl⟩
  have hpresent : destFilterPresent coordinator cmd = false := by
    unfold destFilterPresent
    split
    · exact decide_eq_false hclone
    · exact decide_eq_false hdest
  have hinfo' : c.processFilterInfo cmd = c.addDestFilter coordinator cmd := by
    unfold processFilterInfo
    rw [hco]
    dsimp only
    rw [if_pos hdestination, hpresent, if_neg (by decide)]
  suffices hrecorded : (c.addDestFilter coordinator cmd).1.getFilterCoordinator cmd.dest.handle =
      some (withDestFilter coordinator cmd) ∧
      errorReplies (c.addDestFilter coordinator cmd).2 =
        if coordinator.hasDestFilters then replies c.globalBrokerIdLocal info.key [cmd] else [] by
    rw [hstep]
    refine ⟨⟨hsame.id, hsame.higher, hept, ?_⟩, ?_⟩
    · rw [hadd, hinfo']
      exact hrecorded.1
    · rw [hadd, errorReplies_append, errorReplies_dependentNotice, List.append_nil, hinfo']
      exact hrecorded.2
  have hcloning : checkActionFlag cmd.flags cloneFlag = cmd.isCloning := rfl
  unfold addDestFilter withDestFilter replies
  rw [hcloning, hinfo]
  cases hc : cmd.isCloning with
  | true =>
    refine ⟨getFilterCoordinator_setFilterCoordinator _ _ _, ?_⟩
    simp [hc, errorReplies]
  | false =>
    cases hhas : coordinator.hasDestFilters with
    | true =>
      refine ⟨hco, ?_⟩
      simp only [Bool.not_false, Bool.and_true]
      rw [errorReplies_routeCommand hparent hhigher]
      by_cases hown : cmd.source.fedId = c.globalBrokerIdLocal
      · simp [hown]
      · simp [hown, hc]
    | false => exact ⟨getFilterCoordinator_setFilterCoordinator _ _ _, rfl⟩

def NewTo (coordinator : EndpointFilters) (filt : GlobalHandle) : Prop :=
  filt ∉ coordinator.cloningDestFilters ∧ coordinator.destFilter ≠ some filt

theorem newTo_withDestFilter (h : NewTo coordinator filt) (hne : cmd.source ≠ filt) :
    NewTo (withDestFilter coordinator cmd) filt := by
  unfold NewTo withDestFilter at *
  split
  · simp only [List.mem_append, List.mem_singleton, not_or]
    exact ⟨⟨h.1, hne.symm⟩, h.2⟩
  · split
    · exact h
    · exact ⟨h.1, fun heq => hne (Option.some.inj heq)⟩

theorem hasDestFilters_withDestFilter (coordinator : EndpointFilters) (cmd : InterfaceMessage) :
    (withDestFilter coordinator cmd).hasDestFilters = true := by
  unfold withDestFilter
  split
  · rfl
  · split
    · assumption
    · rfl

theorem replies_cons (own : GlobalId) (key : String) (cmd : InterfaceMessage)
    (cmds : List InterfaceMessage) :
    replies own key (cmd :: cmds) = replies own key [cmd] ++ replies own key cmds := by
  unfold replies
  rw [← List.map_append, ← List.filter_append]
  rfl

theorem Registering.processCommands (hparent : own ≠ parentBrokerId) (hhigher : own ≠ higher)
    (h : Registering own higher handle key c coordinator)
    (hcmds : ∀ cmd ∈ cmds, DestFilterCommand handle cmd) (hnodup : (cmds.map source).Nodup)
    (hnew : ∀ cmd ∈ cmds, NewTo coordinator cmd.source) :
    Registering own higher handle key (c.processCommands cmds).1
        (cmds.foldl withDestFilter coordinator) ∧ errorReplies (c.processCommands cmds).2 =
        replies own key (if coordinator.hasDestFilters then cmds else cmds.drop 1) := by
  induction cmds generalizing c coordinator with
  | nil => exact ⟨h, by split <;> rfl⟩
  | cons cmd cmds ih =>
    rw [List.map_cons, List.nodup_cons] at hnodup
    obtain ⟨hclone, hdest⟩ := hnew cmd List.mem_cons_self
    obtain ⟨hnext, herror⟩ := h.processCommand hparent hhigher (hcmds cmd List.mem_cons_self)
      hclone hdest
    obtain ⟨hfinal, herrors⟩ := ih hnext
      (fun cmd' hcmd' => hcmds cmd' (List.mem_cons_of_mem _ hcmd')) hnodup.2 (by
        intro cmd' hcmd'
        apply newTo_withDestFilter (hnew cmd' (List.mem_cons_of_mem _ hcmd'))
        intro heq
        exact hnodup.1 (heq ▸ List.mem_map_of_mem hcmd'))
    rw [hasDestFilters_withDestFilter, if_pos rfl] at herrors
    have hsplit : errorReplies (c.processCommands (cmd :: cmds)).2 = _ := errorReplies_append _ _
    refine ⟨hfinal, ?_⟩
    rw [hsplit, herror, herrors]
    split
    · rw [← replies_cons]
    · rfl

end

def nonCloning (cmds : List InterfaceMessage) : List InterfaceMessage :=
  cmds.filter (fun cmd => !cmd.isCloning)

theorem foldl_withDestFilter (cmds : List InterfaceMessage) (coordinator : EndpointFilters) :
    (cmds.foldl withDestFilter coordinator).cloningDestFilters = coordinator.cloningDestFilters ++
        (cmds.filter isCloning).map source ∧ (cmds.foldl withDestFilter coordinator).destFilter =
        if coordinator.hasDestFilters then coordinator.destFilter
        else ((cmds.head?.filter (fun cmd => !cmd.isCloning)).map source).or
          coordinator.destFilter := by
  induction cmds generalizing coordinator with
  | nil => simp
  | cons cmd cmds ih =>
    rw [List.foldl_cons, (ih _).1, (ih _).2, hasDestFilters_withDestFilter, if_pos rfl]
    unfold withDestFilter
    cases hc : cmd.isCloning with
    | true => simp [hc, Option.filter_some]
    | false =>
      cases hhas : coordinator.hasDestFilters with
      | true => simp [hc]
      | false => simp [hc, Option.filter_some]

/-- The result that does not depend on the order of the commands as long as at most one filter does
not clone: it is kept and so are all the cloning ones. Each further filter gets an error reply. -/
def RegistersDestFilters (c : InterfaceCore) (handle : InterfaceHandle) (key : String)
    (cmds : List InterfaceMessage) : Prop :=
  ∃ final, (c.processCommands cmds).1.getFilterCoordinator handle = some final ∧
    final.destFilter = (nonCloning cmds).head?.map source ∧
    (∀ filt, filt ∈ final.cloningDestFilters ↔
      ∃ cmd ∈ cmds, cmd.isCloning = true ∧ cmd.source = filt) ∧
    errorReplies (c.processCommands cmds).2 =
      ((nonCloning cmds).drop 1).map (fun cmd => duplicateDestFilter cmd { key := key })

theorem replies_eq_filter (own : GlobalId) (key : String) (cmds : List InterfaceMessage) :
    replies own key cmds = ((nonCloning cmds).filter
      (fun cmd => decide (cmd.source.fedId ≠ own))).map
      (fun cmd => duplicateDestFilter cmd { key := key }) := by
  unfold replies nonCloning
  rw [List.filter_filter]
  congr 2
  funext cmd
  exact Bool.and_comm _ _

theorem replies_eq_iff (own : GlobalId) (key : String) (cmds : List InterfaceMessage) :
    replies own key cmds = (nonCloning cmds).map
      (fun cmd => duplicateDestFilter cmd { key := key }) ↔
      ∀ cmd ∈ nonCloning cmds, cmd.source.fedId ≠ own := by
  rw [replies_eq_filter]
  constructor
  · intro heq cmd hcmd
    have hlength := congrArg List.length heq
    rw [List.length_map, List.length_map] at hlength
    have hself := List.filter_eq_self.mp (List.filter_sublist.eq_of_length hlength)
    exact of_decide_eq_true (hself cmd hcmd)
  · intro hremote
    rw [List.filter_eq_self.mpr (fun cmd hcmd => decide_eq_true (hremote cmd hcmd))]

/-- Destination filters are registered as they should be exactly if the filters all clone or the
first one does not, and the filters that are refused belong to other cores. -/
theorem registersDestFilters_iff (c : InterfaceCore) (handle : InterfaceHandle) (info : HandleInfo)
    (coordinator : EndpointFilters) (cmds : List InterfaceMessage)
    (hparent : c.globalBrokerIdLocal ≠ parentBrokerId)
    (hhigher : c.globalBrokerIdLocal ≠ c.higherBrokerId) (hinfo : c.loopEndpoint handle = some info)
    (hco : c.getFilterCoordinator handle = some coordinator)
    (hnone : coordinator.hasDestFilters = false) (hdest : coordinator.destFilter = none)
    (hclone : coordinator.cloningDestFilters = [])
    (hcmds : ∀ cmd ∈ cmds, DestFilterCommand handle cmd) (hnodup : (cmds.map source).Nodup) :
    c.RegistersDestFilters handle info.key cmds ↔
      (nonCloning cmds = [] ∨ ∃ cmd, cmds.head? = some cmd ∧ cmd.isCloning = false) ∧
        ∀ cmd ∈ (nonCloning cmds).drop 1, cmd.source.fedId ≠ c.globalBrokerIdLocal := by
  obtain ⟨hfinal, herrors⟩ := Registering.processCommands hparent hhigher
    ⟨rfl, rfl, ⟨info, hinfo, rfl⟩, hco⟩ hcmds hnodup
    (fun cmd _ => ⟨by rw [hclone]; exact List.not_mem_nil, by rw [hdest]; exact nofun⟩)
  obtain ⟨hcloning, hkept⟩ := foldl_withDestFilter cmds coordinator
  rw [hnone, if_neg (by decide)] at herrors hkept
  rw [hdest, Option.or_none] at hkept
  rw [hclone, List.nil_append] at hcloning
  have hrecorded : c.RegistersDestFilters handle info.key cmds ↔
      (cmds.head?.filter (fun cmd => !cmd.isCloning)).map source =
          (nonCloning cmds).head?.map source ∧
        replies c.globalBrokerIdLocal info.key (cmds.drop 1) =
          ((nonCloning cmds).drop 1).map
            (fun cmd => duplicateDestFilter cmd { key := info.key }) := by
    unfold RegistersDestFilters
    rw [hfinal.coordinator, herrors]
    constructor
    · rintro ⟨final, hsome, hd, _, he⟩
      rw [← Option.some.inj hsome, hkept] at hd
      exact ⟨hd, he⟩
    · rintro ⟨hd, he⟩
      refine ⟨_, rfl, hkept.trans hd, ?_, he⟩
      intro filt
      rw [hcloning]
      simp [and_assoc]
  rw [hrecorded]
  cases cmds with
  | nil => simp [nonCloning, replies]
  | cons cmd rest =>
    cases hc : cmd.isCloning with
    | true =>
      have hrest : nonCloning (cmd :: rest) = nonCloning rest :=
        List.filter_cons_of_neg (by rw [hc]; decide)
      rw [hrest, List.drop_one, List.tail_cons]
      cases hn : nonCloning rest with
      | nil => simp [replies_eq_filter, hn, hc, Option.filter_some]
      | cons x xs => simp [hc, Option.filter_some]
    | false =>
      have hrest : nonCloning (cmd :: rest) = cmd :: nonCloning rest :=
        List.filter_cons_of_pos (by rw [hc]; rfl)
      rw [hrest, List.drop_one, List.tail_cons, List.drop_one, List.tail_cons, replies_eq_iff]
      simp [hc, Option.filter_some]

def registeringCore : InterfaceCore where
  globalBrokerIdLocal := globalBrokerIdShift
  loopHandles := HandleManager.empty.push
    { handle := ⟨globalFederateIdShift, 0⟩, handleType := .endpoint, key := "e" }

def attachDestFilter (filt : InterfaceHandle) (cloning : Bool) : InterfaceMessage :=
  let flags := setActionFlag 0 destinationTarget
  { action := .cmdAddFilter, source := ⟨globalBrokerIdShift + 1, filt⟩,
    dest := ⟨globalFederateIdShift, 0⟩,
    flags := if cloning then setActionFlag flags cloneFlag else flags }

/-- Two filters that do not clone around one that does: the second of the two is refused. -/
def plainFirst : List InterfaceMessage :=
  [attachDestFilter 0 false, attachDestFilter 1 true, attachDestFilter 2 false]

theorem plain_filter_registered : registeringCore.RegistersDestFilters 0 "e" plainFirst := by
  apply (registersDestFilters_iff registeringCore 0
    { handle := ⟨globalFederateIdShift, 0⟩, handleType := .endpoint, key := "e" } {}
    plainFirst (by decide) (by decide) rfl rfl rfl rfl rfl ?_ (by decide)).mpr
  · exact ⟨.inr ⟨_, rfl, by decide⟩, by decide⟩
  · intro cmd hcmd
    simp only [plainFirst, List.mem_cons, List.not_mem_nil, or_false] at hcmd
    obtain rfl | rfl | rfl := hcmd
    all_goals exact ⟨rfl, by decide, rfl⟩

/-- After a cloning filter the only filter that does not clone is refused. -/
theorem plain_filter_after_clone_refused : ¬ registeringCore.RegistersDestFilters 0 "e"
    [attachDestFilter 0 true, attachDestFilter 1 false] := by
  rintro ⟨final, hfinal, hdest, _⟩
  have hstored : ((registeringCore.processCommands
      [attachDestFilter 0 true, attachDestFilter 1 false]).1.getFilterCoordinator 0).bind
        EndpointFilters.destFilter = none := by decide
  rw [hfinal] at hstored
  exact absurd (hdest.symm.trans hstored) (by decide)

end InterfaceCore

end Helics
