import Helics.DestFilterRuns

namespace Helics

open CoreEffect

section
variable [DualMapped String GlobalId]

namespace CommonCore

/-- A destination filter of another core is sent the message, one of this core is applied to it. -/
def Sees (own : GlobalId) (message : Message) (filt : FilterInfo) (e : CoreEffect) : Prop :=
  if filt.coreId = own then e = .applyFilter filt.globalHandle message
  else ∃ cmd, e.carried = some cmd ∧ cmd.messageAction = .cmdSendForFilter ∧
    cmd.getDest = filt.globalHandle ∧ createMessageFromCommand cmd = message

def isWatching (own : GlobalId) (filt : FilterInfo) : Bool :=
  !filt.disconnected && (decide (filt.coreId ≠ own) || filt.filterOp.isSome)

/-- The filters of this core are recorded at the endpoint as they are registered. -/
def Registered (c : CommonCore) (filts : List FilterInfo) : Prop :=
  ∀ filt ∈ filts, filt.coreId = c.globalBrokerIdLocal →
    c.findFilter filt.globalHandle = some filt ∧ filt.cloning = true

theorem cloneToDestFilter_spec (c : CommonCore) (m : ActionMessage) (filt : FilterInfo) :
    (c.cloneToDestFilter m filt).1 = c ∧ ∀ e ∈ (c.cloneToDestFilter m filt).2, ∀ cmd,
      e.carried = some cmd → cmd.messageAction = .cmdSendForFilter := by
  unfold cloneToDestFilter
  split
  · exact ⟨rfl, List.forall_mem_nil _⟩
  split
  · split
    · refine ⟨rfl, ?_⟩
      split
      · rw [List.forall_mem_singleton]
        intro cmd hcmd
        cases hcmd
      · exact List.forall_mem_nil _
    · exact ⟨rfl, List.forall_mem_nil _⟩
  · rename_i hremote
    obtain ⟨e, he, hcarries⟩ := route_away (m := { m with
      messageAction := .cmdSendForFilter
      destId := filt.coreId
      destHandle := filt.handle }) hremote false
    rw [routeMessage, he, List.forall_mem_singleton]
    refine ⟨rfl, ?_⟩
    intro cmd hcmd
    rw [carried_of_carries hcarries] at hcmd
    cases hcmd
    rfl

theorem cloneToDestFilters_spec (c : CommonCore) (m : ActionMessage) (filts : List FilterInfo) :
    (c.cloneToDestFilters m filts).1 = c ∧ ∀ e ∈ (c.cloneToDestFilters m filts).2, ∀ cmd,
      e.carried = some cmd → cmd.messageAction = .cmdSendForFilter := by
  induction filts with
  | nil => exact ⟨rfl, List.forall_mem_nil _⟩
  | cons filt filts ih =>
    obtain ⟨hstate, hfirst⟩ := c.cloneToDestFilter_spec m filt
    unfold cloneToDestFilters
    dsimp only
    rw [hstate, List.forall_mem_append]
    exact ⟨ih.1, hfirst, ih.2⟩

theorem cloneToDestFilter_sees (m : ActionMessage) (h : Registered c [filt]) :
    (isWatching c.globalBrokerIdLocal filt = false ∧ (c.cloneToDestFilter m filt).2 = []) ∨
      (isWatching c.globalBrokerIdLocal filt = true ∧ ∃ e, (c.cloneToDestFilter m filt).2 = [e] ∧
        Sees c.globalBrokerIdLocal (createMessageFromCommand m) filt e) := by
  unfold cloneToDestFilter isWatching
  cases hgone : filt.disconnected with
  | true => exact .inl ⟨rfl, rfl⟩
  | false =>
    rw [if_neg (by decide)]
    by_cases hown : filt.coreId = c.globalBrokerIdLocal
    · obtain ⟨hfind, hcloning⟩ := h filt (List.mem_singleton_self filt) hown
      have hfind' : c.findFilter ⟨c.globalBrokerIdLocal, filt.handle⟩ = some filt := by
        rw [← hown]
        exact hfind
      rw [if_pos hown, hfind']
      cases hop : filt.filterOp with
      | none => exact .inl ⟨by simp [hown], by simp [hop]⟩
      | some op =>
        refine .inr ⟨by simp, .applyFilter filt.globalHandle (createMessageFromCommand m),
          by simp [hop, hcloning], ?_⟩
        unfold Sees
        rw [if_pos hown]
    · obtain ⟨e, he, hc⟩ := route_away (m := { m with
        messageAction := .cmdSendForFilter
        destId := filt.coreId
        destHandle := filt.handle }) hown false
      rw [if_neg hown]
      refine .inr ⟨by simp [hown], e, congrArg Prod.snd he, ?_⟩
      unfold Sees
      rw [if_neg hown]
      exact ⟨_, carried_of_carries hc, rfl, rfl, rfl⟩

theorem cloneToDestFilters_sees (m : ActionMessage) (h : Registered c filts) :
    List.Forall₂ (Sees c.globalBrokerIdLocal (createMessageFromCommand m))
      (filts.filter (isWatching c.globalBrokerIdLocal)) (c.cloneToDestFilters m filts).2 := by
  induction filts with
  | nil => exact .nil
  | cons filt filts ih =>
    have hrest := ih fun filt' hmem => h filt' (List.mem_cons_of_mem _ hmem)
    have hfirst : Registered c [filt] := fun filt' hmem =>
      h filt' (List.mem_singleton.mp hmem ▸ List.mem_cons_self)
    unfold cloneToDestFilters
    dsimp only
    rw [(c.cloneToDestFilter_spec m filt).1]
    obtain ⟨hskip, hnone⟩ | ⟨hwatch, e, hone, hsees⟩ := cloneToDestFilter_sees m hfirst
    · rw [List.filter_cons_of_neg (by rw [hskip]; decide), hnone]
      exact hrest
    · rw [List.filter_cons_of_pos hwatch, hone]
      exact .cons hsees hrest

end CommonCore

def FilterInfo.filtered (filt : FilterInfo) (message : Message) : Option Message :=
  match filt.filterOp with
  | some op => op message
  | none => some message

def FilterInfo.applied (filt : FilterInfo) (message : Message) : List CoreEffect :=
  if filt.filterOp.isSome then [.applyFilter filt.globalHandle message] else []

namespace CommonCore

/-- A message for a local endpoint that has a connected destination filter of the same core. -/
structure LocallyFiltered (c : CommonCore) (m : ActionMessage) (ept : BasicHandleInfo)
    (ffunc : FilterCoordinator) (filt : FilterInfo) : Prop where
  action : m.messageAction = .cmdSendMessage
  destination : c.destinationOf m = some ept
  localFederate : c.isLocal ept.getFederateId = true
  flag : ept.hasDestFilterFlag = true
  coordinator : c.getFilterCoordinator ept.getInterfaceHandle = some ffunc
  filter : ffunc.destFilter = some filt
  connected : filt.disconnected = false
  here : filt.coreId = c.globalBrokerIdLocal
  registered : c.Registered ffunc.cloningDestFilters

/-- A dropped message ends with the filter. Another one is seen by all that watch and then handed to
the federate once. -/
def DropsOrDelivers (c : CommonCore) (m : ActionMessage) (ept : BasicHandleInfo)
    (ffunc : FilterCoordinator) (filt : FilterInfo) : Prop :=
  let message := createMessageFromCommand m
  let mark := if m.destId = parentBrokerId then [deliver m] else []
  match filt.filtered message with
  | none => c.deliverMessage m = (c, mark ++ filt.applied message)
  | some message' => ∃ copies cmd,
      (c.deliverMessage m).2 = mark ++ filt.applied message ++ copies ++
        [.timeMessage cmd, .addAction ept.getFederateId cmd] ∧
      List.Forall₂ (Sees c.globalBrokerIdLocal message')
        (ffunc.cloningDestFilters.filter (isWatching c.globalBrokerIdLocal)) copies ∧
      cmd.messageAction = .cmdSendMessage ∧ createMessageFromCommand cmd = message'

theorem deliverMessage_filtered (h : LocallyFiltered c m ept ffunc filt) : c.deliverMessage m =
      let message := createMessageFromCommand m
      let mark := if m.destId = parentBrokerId then [deliver m] else []
      match filt.filtered message with
      | none => (c, mark ++ (filt.applied message ++ [.nullDereference]))
      | some message' =>
        let rest := c.deliverToEndpoint (moveInfo m message') ept
        (rest.1, mark ++ (filt.applied message ++
          (c.cloneToDestFilters (moveInfo m message') ffunc.cloningDestFilters).2 ++ rest.2)) := by
  have hlocal : (if ept.hasDestFilterFlag then
      c.getFilterCoordinator ept.getInterfaceHandle else none) =
      some ffunc := (if_pos h.flag).trans h.coordinator
  have hfilter : ffunc.destFilter.filter (fun filt => !filt.disconnected) = some filt := by
    rw [h.filter, Option.filter_some, h.connected]
    rfl
  unfold deliverMessage
  rw [h.action]
  rw [h.destination]
  dsimp only
  unfold deliverLocally
  rw [hlocal]
  dsimp only
  rw [hfilter]
  dsimp only
  rw [if_neg (not_not.mpr h.here)]
  unfold FilterInfo.filtered FilterInfo.applied
  cases filt.filterOp with
  | none =>
    dsimp only
    rw [(cloneToDestFilters_spec _ _ _).1]
    rfl
  | some op =>
    dsimp only
    cases op (createMessageFromCommand m) with
    | none => rfl
    | some message' =>
      dsimp only
      rw [(cloneToDestFilters_spec _ _ _).1]
      rfl

/-- Delivery through a local filter is right exactly for the messages that the filter does not
drop. -/
theorem drops_or_delivers_iff (h : LocallyFiltered c m ept ffunc filt) :
    DropsOrDelivers c m ept ffunc filt ↔
      (filt.filtered (createMessageFromCommand m)).isSome = true := by
  unfold DropsOrDelivers
  rw [deliverMessage_filtered h]
  dsimp only
  cases filt.filtered (createMessageFromCommand m) with
  | none => simp
  | some message' =>
    refine iff_of_true ⟨_, if m.destId = parentBrokerId then
      (moveInfo m message').setDestination ept.handle else moveInfo m message', ?_,
      cloneToDestFilters_sees (moveInfo m message') h.registered, ?_⟩ rfl
    · unfold deliverToEndpoint
      dsimp only
      rw [if_pos h.localFederate, List.append_assoc, List.append_assoc, List.append_assoc]
      rfl
    · split
      · exact ⟨rfl, rfl⟩
      · exact ⟨rfl, rfl⟩

end CommonCore

end

namespace CommonCore

section
attribute [local instance] DualMapped.listVectors

/-- The filter of the endpoint is watched by a filter of the same core and by one of another. -/
def ownFilter (op : Message → Option Message) : FilterInfo :=
  { coreId := 1879048193, handle := 7, filterOp := some op }

def ownClone : FilterInfo :=
  { coreId := 1879048193, handle := 8, cloning := true, filterOp := some some }

def farClone : FilterInfo := { coreId := 1879048195, handle := 9, cloning := true }

def watchedBy (op : Message → Option Message) : FilterCoordinator :=
  { destFilter := some (ownFilter op), cloningDestFilters := [ownClone, farClone] }

def coreFiltering (op : Message → Option Message) : CommonCore :=
  { coreWithDestFilter with filterCoord := [(0, watchedBy op)], filters := [ownClone] }

def filteredEndpoint : BasicHandleInfo :=
  { handle := ⟨131072, 0⟩, key := "ept", hasDestFilterFlag := true }

theorem locallyFiltered_coreFiltering (op : Message → Option Message) :
    LocallyFiltered (coreFiltering op) messageToEndpoint filteredEndpoint (watchedBy op)
      (ownFilter op) where
  action := rfl
  destination := rfl
  localFederate := rfl
  flag := rfl
  coordinator := rfl
  filter := rfl
  connected := rfl
  here := rfl
  registered := by
    intro filt hfilt hown
    rcases List.mem_pair.mp hfilt with rfl | rfl
    · exact ⟨rfl, rfl⟩
    · exact absurd (show (1879048195 : GlobalId) = 1879048193 from hown) (by decide)

theorem drops_or_delivers_passed :
    DropsOrDelivers (coreFiltering fun message => some { message with data := "new" })
      messageToEndpoint filteredEndpoint
        (watchedBy fun message => some { message with data := "new" })
      (ownFilter fun message => some { message with data := "new" }) :=
  (drops_or_delivers_iff (locallyFiltered_coreFiltering _)).mpr rfl

/-- The message that the operator has dropped is looked at all the same. -/
theorem dropped_message_dereferenced :
    ((coreFiltering fun _ => none).deliverMessage messageToEndpoint).2 =
      [.deliver messageToEndpoint, .applyFilter ⟨1879048193, 7⟩
        (createMessageFromCommand messageToEndpoint), .nullDereference] :=
  rfl

end

section
variable [DualMapped String GlobalId]

/-- Every message that reaches the queue of a federate has been shown to the clock of the core
before, as a message for this federate. -/
def ClockSees (c : CommonCore) (res : CommonCore × List CoreEffect) : Prop :=
  ∀ fed m, .addAction fed m ∈ res.2 → m.messageAction = .cmdSendMessage →
    ∃ m', [.timeMessage m', .addAction fed m].Sublist res.2 ∧ m'.messageAction = .cmdSendMessage ∧
      m'.destId = fed ∧ m'.actionTime = m.actionTime ∧
      res.1.timeCoord = (c.timeCoord.processTimeMessage m').2

def Quiet : CoreEffect → Prop
  | .addAction _ m => m.messageAction ≠ .cmdSendMessage
  | _ => True

theorem clockSees_of_quiet (h : ∀ e ∈ res.2, Quiet e) : ClockSees c res :=
  fun _ _ hmem hsend => absurd hsend (h _ hmem)

omit [DualMapped String GlobalId] in
theorem quiet_of_carried (h : ∀ m, e.carried = some m → m.messageAction ≠ .cmdSendMessage) :
    Quiet e := by
  cases e with
  | addAction fed m => exact h m rfl
  | _ => trivial

theorem quiet_cloneToDestFilters (c : CommonCore) (m : ActionMessage) (filts : List FilterInfo) :
    ∀ e ∈ (c.cloneToDestFilters m filts).2, Quiet e := by
  intro e he
  apply quiet_of_carried
  intro cmd hcmd hsend
  rw [(c.cloneToDestFilters_spec m filts).2 e he cmd hcmd] at hsend
  cases hsend

theorem ClockSees.after (h : ClockSees c res) (hpre : ∀ e ∈ pre, Quiet e) :
    ClockSees c (res.1, pre ++ res.2) := by
  intro fed m hmem hsend
  cases List.mem_append.mp hmem with
  | inl hin => exact absurd hsend (hpre _ hin)
  | inr hin =>
    obtain ⟨m', hbefore, hshown⟩ := h fed m hin hsend
    exact ⟨m', hbefore.trans (List.sublist_append_right pre res.2), hshown⟩

theorem clockSees_deliverToEndpoint (c : CommonCore)
    (hdest : m.destId = parentBrokerId ∨ m.destId = ept.getFederateId) :
    ClockSees c (c.deliverToEndpoint m ept) := by
  intro fed m' hmem hsend
  unfold deliverToEndpoint at hmem ⊢
  dsimp only at hmem ⊢
  generalize hset : (if m.destId = parentBrokerId then m.setDestination ept.handle else m) =
    sent at *
  have hsent : sent.destId = ept.getFederateId := by
    rw [← hset]
    split
    · rfl
    · rename_i hroot
      exact hdest.resolve_left hroot
  cases List.mem_cons.mp hmem with
  | inl h => cases h
  | inr h =>
    split at h
    · obtain ⟨rfl, rfl⟩ := addAction.inj (List.mem_singleton.mp h)
      rename_i hlocal
      rw [if_pos hlocal]
      exact ⟨m', .refl _, hsend, hsent, rfl, rfl⟩
    · cases h

theorem destId_of_destinationOf {c : CommonCore} (h : c.destinationOf m = some ept) :
    m.destId = parentBrokerId ∨ m.destId = ept.getFederateId := by
  unfold destinationOf findHandle at h
  split at h
  · rename_i hroot
    exact .inl hroot
  · have hfound := List.find?_some h
    exact .inr (congrArg GlobalHandle.fedId (of_decide_eq_true hfound)).symm

section
variable (c : CommonCore)
include c

theorem requestDestFilter_quiet (m : ActionMessage) (ept : BasicHandleInfo)
    (h : filt.coreId ≠ c.globalBrokerIdLocal) :
    ∀ e ∈ (c.requestDestFilter m ept filt).2, Quiet e := by
  unfold requestDestFilter
  dsimp only
  split
  · obtain ⟨e, he, hcarries⟩ := route_away (c := c.noteDestRequest ept.getFederateId
      (nextMessageId c.messageCounter)) (m := destFilterRequest m ept filt
      (nextMessageId c.messageCounter)) h true
    rw [routeMovedMessage, he, List.forall_mem_cons, List.forall_mem_singleton]
    refine ⟨nofun, quiet_of_carried ?_⟩
    intro cmd hcmd hsend
    rw [carried_of_carries hcarries] at hcmd
    cases hcmd
    cases hsend
  · rw [List.forall_mem_singleton]
    trivial

theorem clockSees_deliverLocally
    (hdest : m.destId = parentBrokerId ∨ m.destId = ept.getFederateId) :
    ClockSees c (c.deliverLocally m ept) := by
  have hcloned : ∀ (m' : ActionMessage) filts, m'.destId = m.destId →
      ClockSees c (((c.cloneToDestFilters m' filts).1.deliverToEndpoint m' ept).1,
        (c.cloneToDestFilters m' filts).2 ++
          ((c.cloneToDestFilters m' filts).1.deliverToEndpoint m' ept).2) := by
    intro m' filts hdest'
    rw [(c.cloneToDestFilters_spec m' filts).1]
    exact (clockSees_deliverToEndpoint c (hdest' ▸ hdest)).after
      (quiet_cloneToDestFilters c m' filts)
  unfold deliverLocally
  split
  · exact clockSees_deliverToEndpoint c hdest
  split
  · exact hcloned m _ rfl
  split
  · rename_i hremote
    exact clockSees_of_quiet (requestDestFilter_quiet c m ept hremote)
  rename_i filt _ _
  have happlied : ∀ e ∈ (match filt.filterOp with
      | some op => ([applyFilter filt.globalHandle (createMessageFromCommand m)],
        op (createMessageFromCommand m))
      | none => ([], some (createMessageFromCommand m))).1, Quiet e := by
    split
    · rw [List.forall_mem_singleton]
      trivial
    · exact List.forall_mem_nil _
  dsimp only
  split
  · apply clockSees_of_quiet
    rw [List.forall_mem_append, List.forall_mem_singleton]
    exact ⟨happlied, trivial⟩
  · rename_i message' _
    rw [List.append_assoc]
    exact (hcloned (moveInfo m message') _ rfl).after happlied

theorem clockSees_deliverMessage (m : ActionMessage) : ClockSees c (c.deliverMessage m) := by
  have hmark : ∀ e ∈ (if m.destId = parentBrokerId then [deliver m] else []), Quiet e := by
    split
    · rw [List.forall_mem_singleton]
      trivial
    · exact List.forall_mem_nil _
  unfold deliverMessage
  split
  · dsimp only
    split
    · apply clockSees_of_quiet
      rw [List.forall_mem_append, List.forall_mem_singleton]
      exact ⟨hmark, trivial⟩
    · rename_i hept
      exact (clockSees_deliverLocally c (destId_of_destinationOf hept)).after hmark
  · apply clockSees_of_quiet
    rw [List.forall_mem_singleton]
    trivial

/-- A remote filter has returned a message whose federate takes commands. -/
def ReturnsToQueue (c : CommonCore) (cmd : ActionMessage) : Prop :=
  ∃ ept ffunc fed, c.endpointByHandle cmd.destHandle = some ept ∧
    (ept.getFederateId, cmd.messageID) ∈ c.ongoingDestFilterProcesses ∧
    cmd.messageAction = .cmdDestFilterResult ∧
    c.getFilterCoordinator ept.getInterfaceHandle = some ffunc ∧
    cmd.destId ≠ parentBrokerId ∧ cmd.destId ≠ c.higherBrokerId ∧
    cmd.destId ≠ c.globalBrokerIdLocal ∧
    c.loopFederates.findId cmd.destId = some fed ∧ fed.finished = false

theorem quiet_routeMovedMessage_iff (h : cmd.messageAction = .cmdSendMessage) :
    (∀ e ∈ (c.routeMovedMessage cmd).2, Quiet e) ↔ ¬ ∃ fed, cmd.destId ≠ parentBrokerId ∧
      cmd.destId ≠ c.higherBrokerId ∧ cmd.destId ≠ c.globalBrokerIdLocal ∧
      c.loopFederates.findId cmd.destId = some fed ∧ fed.finished = false := by
  unfold routeMovedMessage route
  split
  · rename_i hup
    apply iff_of_true (List.forall_mem_singleton.mpr trivial)
    rintro ⟨_, hroot, hhigher, _⟩
    exact hup.elim hroot hhigher
  rename_i hup
  rw [not_or] at hup
  split
  · rename_i hown
    have hnone : (c.processCommandsForCore cmd).2 = [] := by
      unfold processCommandsForCore
      rw [h]
      rfl
    rw [hnone]
    apply iff_of_true (List.forall_mem_nil _)
    rintro ⟨_, _, _, hother, _⟩
    exact hother hown
  · rename_i hown
    split
    · rename_i fed hfed
      rw [List.forall_mem_singleton]
      unfold toFederate
      cases hdone : fed.finished with
      | true =>
        apply iff_of_true trivial
        rintro ⟨_, _, _, _, hfed', hopen⟩
        rw [hfed] at hfed'
        cases hfed'
        rw [hdone] at hopen
        cases hopen
      | false =>
        apply iff_of_false
        · intro hquiet
          exact hquiet h
        · intro hnone
          exact hnone ⟨fed, hup.1, hup.2, hown, hfed, hdone⟩
    · rename_i hfed
      apply iff_of_true (List.forall_mem_singleton.mpr trivial)
      rintro ⟨_, _, _, _, hfed', _⟩
      rw [hfed] at hfed'
      cases hfed'

theorem untimed_routeMovedMessage (h : cmd.messageAction = .cmdSendMessage) :
    .timeMessage m ∉ (c.routeMovedMessage cmd).2 := by
  have hnone : (c.processCommandsForCore cmd).2 = [] := by
    unfold processCommandsForCore
    rw [h]
    rfl
  unfold routeMovedMessage route
  split
  · simp
  split
  · rw [hnone]
    exact List.not_mem_nil
  split
  · unfold toFederate
    split
    · simp
    · simp
  · simp

end

theorem unblock_effects (c c' : CommonCore)
    (h : e ∈ (c.routeMessage (c'.removeTimeBlock fed mid)).2) :
    Quiet e ∧ ∀ m, e = .timeMessage m → m.messageAction ≠ .cmdSendMessage := by
  rcases mem_route h with hcarries | hmade
  · have hcarried := carried_of_carries hcarries
    refine ⟨quiet_of_carried ?_, ?_⟩
    · intro m hm hsend
      rw [hcarried] at hm
      cases hm
      cases hsend
    · rintro m rfl hsend
      cases hcarried
      cases hsend
  · cases e with
    | addAction fed' m =>
      refine ⟨?_, fun _ h => by cases h⟩
      intro hsend
      simp [CoreMade, hsend, isDependencyCommand] at hmade
    | timeMessage m => cases hmade
    | _ => exact ⟨trivial, fun _ h => by cases h⟩

theorem clockSees_iff_quiet (h : ∀ m, .timeMessage m ∈ res.2 → m.messageAction ≠ .cmdSendMessage) :
    ClockSees c res ↔ ∀ e ∈ res.2, Quiet e := by
  constructor
  · intro hsees e he
    cases e with
    | addAction fed m =>
      intro hsend
      obtain ⟨m', hbefore, hact, _⟩ := hsees fed m he hsend
      exact h m' (hbefore.subset List.mem_cons_self) hact
    | _ => trivial
  · exact clockSees_of_quiet

theorem clockSees_finishDestFilterReturn_iff (c : CommonCore) (fed : GlobalId)
    (ffunc : FilterCoordinator) (h : cmd.messageAction ≠ .cmdSendMessage) :
    ClockSees c (c.finishDestFilterReturn fed ffunc cmd) ↔ ¬ ∃ fed, cmd.destId ≠ parentBrokerId ∧
      cmd.destId ≠ c.higherBrokerId ∧ cmd.destId ≠ c.globalBrokerIdLocal ∧
      c.loopFederates.findId cmd.destId = some fed ∧ fed.finished = false := by
  obtain ⟨hstate, hcopies⟩ := c.cloneToDestFilters_spec cmd ffunc.cloningDestFilters
  have hquiet := c.quiet_cloneToDestFilters cmd ffunc.cloningDestFilters
  unfold finishDestFilterReturn
  dsimp only
  rw [hstate]
  generalize hsent : ({ c with timeCoord := (c.timeCoord.processTimeMessage cmd).2 } :
    CommonCore).routeMovedMessage (cmd.setAction .cmdSendMessage) = sent
  have huntimed : ∀ m, .timeMessage m ∉ sent.2 := fun m => hsent ▸ untimed_routeMovedMessage _ rfl
  have hsend : (cmd.setAction .cmdSendMessage).messageAction = .cmdSendMessage := rfl
  have hiff := quiet_routeMovedMessage_iff
    { c with timeCoord := (c.timeCoord.processTimeMessage cmd).2 } hsend
  rw [hsent] at hiff
  rw [clockSees_iff_quiet]
  · dsimp only
    rw [List.forall_mem_append, List.forall_mem_append, List.forall_mem_append,
      List.forall_mem_singleton, and_iff_left fun e he => (unblock_effects _ _ he).1,
      and_iff_right ⟨hquiet, trivial⟩]
    exact hiff
  · intro m hmem
    simp only [List.mem_append, List.mem_singleton] at hmem
    obtain ((hmem | hmem) | hmem) | hmem := hmem
    · intro hsend
      rw [hcopies _ hmem m rfl] at hsend
      cases hsend
    · cases hmem
      exact h
    · exact absurd hmem (huntimed m)
    · exact (unblock_effects _ _ hmem).2 m rfl

/-- The clock of the core sees every message that is delivered directly or through a filter of the
same core. It misses exactly those that a filter of another core returns to a federate that takes
commands. -/
theorem clock_sees_iff (c : CommonCore) (m cmd : ActionMessage)
    (h : cmd.messageAction = .cmdDestFilterResult ∨ cmd.messageAction = .cmdNullDestMessage) :
    ClockSees c (c.deliverMessage m) ∧
      (ClockSees c (c.processDestFilterReturn cmd) ↔ ¬ c.ReturnsToQueue cmd) := by
  refine ⟨clockSees_deliverMessage c m, ?_⟩
  have hact : cmd.messageAction ≠ .cmdSendMessage := by
    rcases h with h | h <;> rw [h] <;> decide
  unfold processDestFilterReturn ReturnsToQueue
  split
  · rename_i hnone
    apply iff_of_true (clockSees_of_quiet (List.forall_mem_nil _))
    rintro ⟨_, _, _, hept, _⟩
    rw [hnone] at hept
    cases hept
  · rename_i ept hept
    dsimp only
    split
    · rename_i hongoing
      split
      · rename_i hdropped
        apply iff_of_true (clockSees_of_quiet fun e he => (unblock_effects _ _ he).1)
        rintro ⟨_, _, _, _, _, hresult, _⟩
        rw [hdropped] at hresult
        cases hresult
      · rename_i hdropped
        have hresult := h.resolve_right hdropped
        have hcoord : (c.eraseDestRequest ept.getFederateId cmd.messageID).getFilterCoordinator
            ept.getInterfaceHandle = c.getFilterCoordinator ept.getInterfaceHandle := rfl
        rw [hcoord]
        split
        · rename_i hnone
          apply iff_of_true (clockSees_of_quiet (List.forall_mem_singleton.mpr trivial))
          rintro ⟨_, _, _, hept', _, _, hffunc, _⟩
          rw [hept] at hept'
          cases hept'
          rw [hnone] at hffunc
          cases hffunc
        · rename_i ffunc hffunc
          have hiff := clockSees_finishDestFilterReturn_iff
            (c.eraseDestRequest ept.getFederateId cmd.messageID) ept.getFederateId ffunc hact
          refine hiff.trans (not_congr ⟨?_, ?_⟩)
          · rintro ⟨fed, hfed⟩
            exact ⟨ept, ffunc, fed, hept, hongoing, hresult, hffunc, hfed⟩
          · rintro ⟨_, _, fed, _, _, _, _, hfed⟩
            exact ⟨fed, hfed⟩
    · rename_i hongoing
      apply iff_of_true (clockSees_of_quiet (List.forall_mem_nil _))
      rintro ⟨_, _, _, hept', hin, _⟩
      rw [hept] at hept'
      cases hept'
      exact hongoing hin

end

attribute [local instance] DualMapped.listVectors

theorem clock_sees_unknown : ClockSees coreWithDestFilter
    (coreWithDestFilter.processDestFilterReturn destReply) := by
  apply (clock_sees_iff coreWithDestFilter messageToEndpoint destReply (.inl rfl)).2.mpr
  rintro ⟨_, _, _, _, hin, _⟩
  cases hin

/-- The clock has no part in the message that the remote filter returns. -/
theorem returned_message_unseen : let c := (coreWithDestFilter.deliverMessage messageToEndpoint).1
    (c.processDestFilterReturn destReply).2 =
        [.timeMessage destReply, .addAction 131072 (destReply.setAction .cmdSendMessage),
          .addAction 131072 (c.removeTimeBlock 131072 55)] ∧
      ¬ ClockSees c (c.processDestFilterReturn destReply) := by
  refine ⟨rfl, ?_⟩
  intro hsees
  obtain ⟨m', hbefore, hact, _⟩ := hsees 131072 (destReply.setAction .cmdSendMessage)
    (List.mem_cons_of_mem _ List.mem_cons_self) rfl
  have hmem := hbefore.subset List.mem_cons_self
  change _ ∈ [timeMessage destReply, .addAction 131072 _, .addAction 131072 _] at hmem
  simp only [List.mem_cons, List.not_mem_nil, or_false, reduceCtorEq, timeMessage.injEq]
    at hmem
  subst hmem
  cases hact

end CommonCore

end Helics
