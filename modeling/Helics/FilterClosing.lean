import Helics.CoreTables
import Helics.FilterOrder
import Mathlib.Data.List.Nodup

namespace Helics

open FederateInterfaces InterfaceCore HandleManager

def queuedFor (fed : GlobalId) (effects : List InterfaceEffect) : List InterfaceMessage :=
  effects.filterMap fun
    | .addAction id msg => if id = fed then some msg else none
    | _ => none

namespace InterfaceCore

def processCommands (c : InterfaceCore) :
    List InterfaceMessage → InterfaceCore × List InterfaceEffect
  | [] => (c, [])
  | cmd :: cmds =>
    let first := c.processCommand cmd
    let rest := first.1.processCommands cmds
    (rest.1, first.2 ++ rest.2)

end InterfaceCore

namespace FederateInterfaces

def processQueue (f : FederateInterfaces) :
    List InterfaceMessage → FederateInterfaces × List InterfaceMessage
  | [] => (f, [])
  | cmd :: cmds =>
    let first := f.processActionMessage cmd
    let rest := first.1.processQueue cmds
    (rest.1, first.2 ++ rest.2)

def Idle (f : FederateInterfaces) (handle : InterfaceHandle) : HandleType → Prop
  | .publication => ∀ pub, f.getPublication handle = some pub → pub.subscribers = []
  | .input => ∀ inp, f.getInput handle = some inp → inp.inputSources = []
  | .endpoint => ∀ ept, f.getEndpoint handle = some ept → ept.messageQueue = []
  | _ => True

end FederateInterfaces

def ToldOnce (action : InterfaceAction) (source : GlobalHandle) (partners : List GlobalHandle)
    (sent : List InterfaceMessage) : Prop :=
  ∀ p ∈ partners,
    (sent.filter (fun m => decide (m.action = action ∧ m.source = source ∧ m.dest = p))).length = 1

def PartnersTold (f : FederateInterfaces) (handle : InterfaceHandle)
    (sent : List InterfaceMessage) : HandleType → Prop
  | .publication => ∀ pub, f.getPublication handle = some pub →
      ToldOnce .cmdRemovePublication pub.id pub.subscribers sent
  | .input => ∀ inp, f.getInput handle = some inp →
      ToldOnce .cmdRemoveSubscriber inp.id inp.inputSources sent
  | _ => True

namespace InterfaceCore

def close (c : InterfaceCore) (f : FederateInterfaces) (handle : InterfaceHandle) :
    Option (FederateInterfaces × List InterfaceMessage) :=
  (c.closeHandle handle).map fun closed =>
    f.processQueue (queuedFor f.globalId (closed.1.processCommands closed.2).2)

def CloseReaches (c : InterfaceCore) (f : FederateInterfaces) (handle : InterfaceHandle)
    (what : HandleType) : Prop :=
  ∃ closed, c.close f handle = some closed ∧ PartnersTold f handle closed.2 what ∧
    closed.1.Idle handle what

def Inert (f : FederateInterfaces) (cmd : InterfaceMessage) : Prop :=
  f.processActionMessage cmd = (f, [])

theorem processQueue_inert
    (h : ∀ cmd ∈ cmds, Inert f cmd) : f.processQueue cmds = (f, []) := by
  induction cmds with
  | nil => rfl
  | cons cmd cmds ih =>
    have hone : f.processActionMessage cmd = (f, []) := h cmd List.mem_cons_self
    rw [processQueue, hone]
    exact ih (fun cmd' hcmd' => h cmd' (List.mem_cons_of_mem _ hcmd'))

theorem inert_of_counter (hact : cmd.action = .cmdCloseInterface)
    (hcounter : cmd.counter = 0) (f : FederateInterfaces) : Inert f cmd := by
  unfold Inert processActionMessage
  rw [hact, hcounter]
  dsimp only
  split
  · rfl
  · rfl

theorem mem_queuedFor : m ∈ queuedFor fed effects ↔ .addAction fed m ∈ effects := by
  unfold queuedFor
  rw [List.mem_filterMap]
  constructor
  · rintro ⟨e, he, hm⟩
    cases e with
    | addAction id msg =>
      dsimp only at hm
      split at hm
      · rename_i hid
        cases hm
        rw [← hid]
        exact he
      · cases hm
    | transmit | command | federateCommand | nullDereference => cases hm
  · intro he
    exact ⟨_, he, if_pos rfl⟩

variable {c : InterfaceCore}

theorem addAction_routeMessage (h : .addAction fed m ∈ c.routeMessage msg) : m = msg := by
  unfold routeMessage at h
  split at h
  · cases List.mem_singleton.mp h
  split at h
  · cases h
  split at h
  · cases List.mem_singleton.mp h
    rfl
  · cases List.mem_singleton.mp h

theorem addAction_disconnectFilter
    (h : .addAction fed m ∈ (c.disconnectFilter handle filt).2) : m.action = .cmdRemoveFilter := by
  unfold disconnectFilter at h
  obtain ⟨target, _, hroute⟩ := List.mem_flatMap.mp h
  rw [addAction_routeMessage hroute]

theorem addAction_disconnectInterface (h : .addAction fed m ∈ (c.disconnectInterface cmd).2) :
    m = cmd ∨ m.action = .cmdRemoveFilter := by
  unfold disconnectInterface at h
  cases hinfo : c.loopHandles.getHandleInfo cmd.source.handle with
  | none => rw [hinfo] at h; cases h
  | some info =>
    rw [hinfo] at h
    dsimp only at h
    split at h
    · cases h
    rcases List.mem_append.mp h with h | h
    · split at h
      · split at h
        · exact .inr (addAction_disconnectFilter h)
        · cases h
      split at h
      · cases List.mem_singleton.mp h
        exact .inl rfl
      · cases h
    · split at h
      · cases h
      · cases List.mem_singleton.mp h

theorem close_eq (hinfo : c.handles.getHandleInfo handle = some info)
    (f : FederateInterfaces) : c.close f handle = some (f, []) := by
  unfold close closeHandle
  rw [hinfo, Option.map_some, Option.map_some]
  congr 1
  apply processQueue_inert
  intro cmd hcmd
  rw [mem_queuedFor] at hcmd
  split at hcmd
  · cases hcmd
  unfold processCommands at hcmd
  rcases List.mem_append.mp hcmd with hcmd | hcmd
  · rcases addAction_disconnectInterface hcmd with rfl | hremove
    · exact inert_of_counter rfl rfl f
    · unfold Inert processActionMessage
      rw [hremove]
  · cases hcmd

theorem toldOnce_nil_iff {partners : List GlobalHandle} :
    ToldOnce action source partners [] ↔ partners = [] := by
  constructor
  · intro h
    cases partners with
    | nil => rfl
    | cons p ps => exact absurd (h p List.mem_cons_self) (Nat.zero_ne_one)
  · rintro rfl p hp
    cases hp

theorem partnersTold_nil (h : f.Idle handle what) :
    PartnersTold f handle [] what := by
  cases what with
  | publication => exact fun pub hpub => toldOnce_nil_iff.mpr (h pub hpub)
  | input => exact fun inp hinp => toldOnce_nil_iff.mpr (h inp hinp)
  | unknown | endpoint | filter => trivial

/-- Closing an interface reaches its partners exactly if it has none. -/
theorem close_reaches_iff (c : InterfaceCore) (f : FederateInterfaces) (handle : InterfaceHandle)
    (info : HandleInfo) (hinfo : c.handles.getHandleInfo handle = some info) :
    c.CloseReaches f handle info.handleType ↔ f.Idle handle info.handleType := by
  unfold CloseReaches
  rw [close_eq hinfo f]
  constructor
  · rintro ⟨closed, heq, _, hidle⟩
    cases heq
    exact hidle
  · intro hidle
    exact ⟨_, rfl, partnersTold_nil hidle, hidle⟩

def publishingCore : InterfaceCore :=
  let made := createBasicHandle
    { globalBrokerIdLocal := globalBrokerIdShift + 1, loopFederates := [globalFederateIdShift] }
    globalFederateIdShift .publication "p" "double" "" 0
  made.1.copyHandle 0

def publisher (subscribers : List GlobalHandle) : FederateInterfaces where
  globalId := globalFederateIdShift
  publications := [{ id := ⟨globalFederateIdShift, 0⟩, subscribers := subscribers }]

theorem close_reaches_nobody : publishingCore.CloseReaches (publisher []) 0 .publication :=
  (close_reaches_iff publishingCore (publisher []) 0 _ rfl).mpr (by
    intro pub hpub
    cases hpub
    rfl)

/-- The subscriber of a closed publication is not told and stays in the list. -/
theorem subscriber_not_told :
    ¬ publishingCore.CloseReaches (publisher [⟨globalFederateIdShift + 1, 0⟩]) 0 .publication := by
  rintro ⟨closed, hclosed, _, hidle⟩
  have hsame : publishingCore.close (publisher [⟨globalFederateIdShift + 1, 0⟩]) 0 =
      some (publisher [⟨globalFederateIdShift + 1, 0⟩], []) := close_eq rfl _
  rw [hsame] at hclosed
  cases hclosed
  exact absurd (hidle _ rfl) (by decide)

end InterfaceCore

theorem checkActionFlag_disconnected (flags : UInt16) :
    checkActionFlag (setActionFlag flags disconnectedFlag) disconnectedFlag = true := by
  unfold checkActionFlag setActionFlag
  rw [or_and_distrib, UInt16.and_self, bne_iff_ne]
  intro hzero
  have hbits := congrArg UInt16.toBitVec hzero
  rw [UInt16.toBitVec_or, UInt16.toBitVec_zero, BitVec.or_eq_zero_iff] at hbits
  exact absurd hbits.2 (by decide)

theorem find?_modify_findIdx [DecidableEq κ] {key : α → κ}
    (hkey : ∀ a, key (f a) = key a) (l : List α) (k k' : κ) :
    (l.modify (l.findIdx (fun a => decide (key a = k))) f).find? (fun a => decide (key a = k')) =
      if k' = k then (l.find? (fun a => decide (key a = k))).map f
      else l.find? (fun a => decide (key a = k')) := by
  induction l with
  | nil => simp
  | cons a l ih =>
    rw [List.findIdx_cons]
    by_cases hk : key a = k
    · by_cases hk' : k' = k
      · subst hk hk'
        simp [hkey]
      have hne : key (f a) ≠ k' := by
        rw [hkey, hk]
        exact fun h => hk' h.symm
      have hne' : key a ≠ k' := by
        rw [hk]
        exact fun h => hk' h.symm
      have hskip : (a :: l).find? (fun a => decide (key a = k')) =
          l.find? (fun a => decide (key a = k')) := List.find?_cons_of_neg (by simpa using hne')
      rw [hskip]
      simp [hk, hk', hne]
    · by_cases hk' : k' = k
      · subst hk'
        simp [hk, ih]
      · by_cases hak : key a = k'
        · simp [hk', hak]
        · simp [hk, hk', hak, ih]

def sentMessages (effects : List InterfaceEffect) : List InterfaceMessage :=
  effects.filterMap fun
    | .transmit _ msg | .addAction _ msg => some msg
    | _ => none

theorem sentMessages_append (e e' : List InterfaceEffect) :
    sentMessages (e ++ e') = sentMessages e ++ sentMessages e' :=
  List.filterMap_append

namespace InterfaceCore

variable {c : InterfaceCore}

theorem findFilter_modifyFilter
    (hkey : ∀ filt, (f filt).globalHandle = filt.globalHandle) (handle handle' : GlobalHandle) :
    (c.modifyFilter handle f).findFilter handle' =
      if handle' = handle then (c.findFilter handle).map f else c.findFilter handle' :=
  find?_modify_findIdx hkey c.filters handle handle'

theorem getHandleInfo_setLoopFlag
    (h : c.loopHandles.getHandleInfo handle = some info) (flag : UInt16) :
    (c.setLoopFlag handle flag).loopHandles.getHandleInfo handle =
      some { info with flags := setActionFlag info.flags flag } := by
  unfold getHandleInfo at h ⊢
  split at h
  · rename_i hpos
    rw [if_pos hpos]
    unfold setLoopFlag modifyFlags
    rw [List.getElem?_modify, h]
    simp
  · cases h

theorem sentMessages_routeMessage
    (h : msg.dest.fedId ≠ c.globalBrokerIdLocal) : sentMessages (c.routeMessage msg) = [msg] := by
  unfold routeMessage
  rw [if_neg h]
  split
  · rfl
  · split
    · rfl
    · rfl

def removeFilterFor (filt target : GlobalHandle) : InterfaceMessage :=
  { action := .cmdRemoveFilter, source := filt, dest := target }

theorem sentMessages_removals {targets : List GlobalHandle}
    (h : ∀ target ∈ targets, target.fedId ≠ c.globalBrokerIdLocal) (filt : GlobalHandle) :
    sentMessages (targets.flatMap (fun target => c.routeMessage (removeFilterFor filt target))) =
      targets.map (removeFilterFor filt) := by
  induction targets with
  | nil => rfl
  | cons target targets ih =>
    rw [List.flatMap_cons, sentMessages_append, ih (fun t ht => h t (List.mem_cons_of_mem _ ht)),
      sentMessages_routeMessage (h target List.mem_cons_self)]
    rfl

end InterfaceCore

theorem toldOnce_removals (filt : GlobalHandle) (partners targets : List GlobalHandle)
    (rest : List InterfaceMessage) (hrest : ∀ m ∈ rest, m.action ≠ .cmdRemoveFilter) :
    ToldOnce .cmdRemoveFilter filt partners
        (targets.map (removeFilterFor filt) ++ rest) ↔
      ∀ p ∈ partners, targets.count p = 1 := by
  have hcount : ∀ p, ((targets.map (removeFilterFor filt) ++ rest).filter (fun m =>
      decide (m.action = .cmdRemoveFilter ∧ m.source = filt ∧ m.dest = p))).length =
        targets.count p := by
    intro p
    have hnone : rest.filter (fun m =>
        decide (m.action = .cmdRemoveFilter ∧ m.source = filt ∧ m.dest = p)) = [] := by
      apply List.filter_eq_nil_iff.mpr
      intro m hm hdec
      exact hrest m hm (of_decide_eq_true hdec).1
    rw [List.filter_append, hnone, List.append_nil]
    induction targets with
    | nil => rfl
    | cons target targets ih =>
      by_cases htarget : target = p
      · subst htarget
        rw [List.map_cons, List.filter_cons_of_pos (by simp [removeFilterFor]),
          List.length_cons, ih, List.count_cons_self]
      · rw [List.map_cons, List.filter_cons_of_neg (by simp [removeFilterFor, htarget]),
          ih, List.count_cons_of_ne htarget]
  unfold ToldOnce
  constructor
  · intro h p hp
    rw [← hcount p]
    exact h p hp
  · intro h p hp
    rw [hcount p]
    exact h p hp

theorem count_closed_iff [DecidableEq α] (sources dests : List α) :
    (∀ p ∈ sources ++ dests,
        (sources ++ dests.filter (fun t => decide (t ∈ sources))).count p = 1) ↔
      dests = [] ∧ sources.Nodup := by
  constructor
  · intro h
    have hdest : dests = [] := by
      apply List.eq_nil_iff_forall_not_mem.mpr
      intro p hp
      have hone := h p (List.mem_append_right _ hp)
      rw [List.count_append] at hone
      by_cases hsource : p ∈ sources
      · have hkept := List.count_filter (p := fun t => decide (t ∈ sources)) (l := dests)
          (a := p) (by simpa using hsource)
        have hpos := List.count_pos_iff.mpr hsource
        have hpos' := List.count_pos_iff.mpr hp
        omega
      · have hkept : p ∉ dests.filter (fun t => decide (t ∈ sources)) :=
          fun hmem => hsource (of_decide_eq_true (List.mem_filter.mp hmem).2)
        rw [List.count_eq_zero.mpr hsource, List.count_eq_zero.mpr hkept] at hone
        cases hone
    subst hdest
    rw [List.append_nil, List.filter_nil, List.append_nil] at h
    exact ⟨rfl, List.nodup_iff_count_eq_one.mpr h⟩
  · rintro ⟨rfl, hnodup⟩
    rw [List.append_nil, List.filter_nil, List.append_nil]
    exact List.nodup_iff_count_eq_one.mp hnodup

namespace InterfaceCore

/-- Closing a filter tells each endpoint of its two lists once and empties the lists, and closing it
again does nothing. -/
def ClosesFilter (c : InterfaceCore) (cmd : InterfaceMessage) (filt : FilterRecord) : Prop :=
  ToldOnce .cmdRemoveFilter cmd.source (filt.sourceTargets ++ filt.destTargets)
      (sentMessages (c.processCommand cmd).2) ∧
    (∃ filt', (c.processCommand cmd).1.findFilter cmd.source = some filt' ∧
      filt'.sourceTargets = [] ∧ filt'.destTargets = []) ∧
    ((c.processCommand cmd).1.processCommand cmd).2 = []

variable {c : InterfaceCore}

theorem findFilter_disconnectFilter (h : c.findFilter handle = some filt) :
    (c.disconnectFilter handle filt).1.findFilter handle = some { filt with
      sourceTargets := []
      destTargets := []
      flags := setActionFlag filt.flags disconnectedFlag } := by
  have hfound := findFilter_modifyFilter (c := c) (f := fun f => { f with
    sourceTargets := []
    destTargets := []
    flags := setActionFlag f.flags disconnectedFlag }) (fun _ => rfl) handle handle
  rw [if_pos rfl, h] at hfound
  unfold disconnectFilter
  rw [globalHandle_of_findFilter h]
  exact hfound

theorem processCommand_closeFilter (hact : cmd.action = .cmdCloseInterface)
    (hinfo : c.loopHandles.getHandleInfo cmd.source.handle = some info)
    (hhandle : info.handle = cmd.source)
    (hopen : checkActionFlag info.flags disconnectedFlag = false)
    (hown : cmd.source.fedId = c.globalBrokerIdLocal)
    (hfilt : c.findFilter cmd.source = some filt) :
    c.processCommand cmd =
      (((c.setLoopFlag cmd.source.handle disconnectedFlag).disconnectFilter cmd.source filt).1,
        ((c.setLoopFlag cmd.source.handle disconnectedFlag).disconnectFilter cmd.source filt).2 ++
          if checkActionFlag info.flags namelessInterfaceFlag then []
          else [.transmit parentRouteId cmd]) := by
  unfold processCommand
  rw [hact]
  unfold disconnectInterface
  rw [hinfo]
  dsimp only
  rw [hopen, if_neg (by decide), hhandle, if_pos hown, hfilt]

theorem processCommand_closed (hact : cmd.action = .cmdCloseInterface)
    (hinfo : c.loopHandles.getHandleInfo cmd.source.handle = some info)
    (hclosed : checkActionFlag info.flags disconnectedFlag = true) :
    c.processCommand cmd = (c, []) := by
  unfold processCommand
  rw [hact]
  unfold disconnectInterface
  rw [hinfo]
  dsimp only
  rw [hclosed, if_pos rfl]

/-- Closing a filter reaches its endpoints exactly if it has no destination targets and no source
target twice: the test for the targets in both lists is the wrong way round. -/
theorem closesFilter_iff (c : InterfaceCore) (cmd : InterfaceMessage) (info : HandleInfo)
    (filt : FilterRecord) (hact : cmd.action = .cmdCloseInterface)
    (hinfo : c.loopHandles.getHandleInfo cmd.source.handle = some info)
    (hhandle : info.handle = cmd.source)
    (hopen : checkActionFlag info.flags disconnectedFlag = false)
    (hown : cmd.source.fedId = c.globalBrokerIdLocal) (hfilt : c.findFilter cmd.source = some filt)
    (htargets : ∀ target ∈ filt.sourceTargets ++ filt.destTargets,
      target.fedId ≠ c.globalBrokerIdLocal) :
    c.ClosesFilter cmd filt ↔ filt.destTargets = [] ∧ filt.sourceTargets.Nodup := by
  have hsent : sentMessages (c.processCommand cmd).2 =
      (filt.sourceTargets ++ filt.destTargets.filter
        (fun target => decide (target ∈ filt.sourceTargets))).map (removeFilterFor cmd.source) ++
      if checkActionFlag info.flags namelessInterfaceFlag then [] else [cmd] := by
    rw [processCommand_closeFilter hact hinfo hhandle hopen hown hfilt, sentMessages_append]
    congr 1
    · apply sentMessages_removals
      intro target htarget
      apply htargets target
      rcases List.mem_append.mp htarget with h | h
      · exact List.mem_append_left _ h
      · exact List.mem_append_right _ (List.mem_filter.mp h).1
    · split
      · rfl
      · rfl
  have hrest : ∀ m ∈ (if checkActionFlag info.flags namelessInterfaceFlag then [] else [cmd]),
      m.action ≠ .cmdRemoveFilter := by
    intro m hm
    split at hm
    · cases hm
    · rw [List.mem_singleton.mp hm, hact]
      decide
  have htold := (toldOnce_removals cmd.source (filt.sourceTargets ++ filt.destTargets) _ _
    hrest).trans (count_closed_iff filt.sourceTargets filt.destTargets)
  unfold ClosesFilter
  rw [hsent, htold]
  constructor
  · exact And.left
  · intro hcond
    refine ⟨hcond, ?_, ?_⟩
    · rw [processCommand_closeFilter hact hinfo hhandle hopen hown hfilt]
      exact ⟨_, findFilter_disconnectFilter hfilt, rfl, rfl⟩
    · rw [processCommand_closeFilter hact hinfo hhandle hopen hown hfilt]
      have hmarked : ((c.setLoopFlag cmd.source.handle disconnectedFlag).disconnectFilter
          cmd.source filt).1.loopHandles.getHandleInfo cmd.source.handle = _ :=
        getHandleInfo_setLoopFlag hinfo disconnectedFlag
      exact congrArg Prod.snd (processCommand_closed hact hmarked (checkActionFlag_disconnected _))

def closingCore (sources dests : List GlobalHandle) : InterfaceCore where
  globalBrokerIdLocal := globalBrokerIdShift
  loopHandles := empty.addHandle ⟨globalBrokerIdShift, 0⟩ .filter "f" "" "" 0
  filters := [{ coreId := globalBrokerIdShift, handle := 0, sourceTargets := sources,
                destTargets := dests }]

def closeOwnFilter : InterfaceMessage :=
  { action := .cmdCloseInterface, source := ⟨globalBrokerIdShift, 0⟩ }

theorem closesFilter_one_source : (closingCore [⟨globalFederateIdShift, 0⟩] []).ClosesFilter
    closeOwnFilter
    { coreId := globalBrokerIdShift, handle := 0, sourceTargets := [⟨globalFederateIdShift, 0⟩] } :=
  (closesFilter_iff _ closeOwnFilter _ _ rfl rfl rfl (by decide) rfl rfl (by decide)).mpr
    ⟨rfl, List.nodup_singleton _⟩

/-- An endpoint that is only a destination target is not told. -/
theorem destination_target_not_told : ¬ (closingCore [] [⟨globalFederateIdShift, 0⟩]).ClosesFilter
    closeOwnFilter
    { coreId := globalBrokerIdShift, handle := 0,
      destTargets := [⟨globalFederateIdShift, 0⟩] } := by
  rintro ⟨htold, _⟩
  have hnone : sentMessages ((closingCore [] [⟨globalFederateIdShift, 0⟩]).processCommand
      closeOwnFilter).2 = [closeOwnFilter] := rfl
  rw [hnone] at htold
  exact absurd (htold ⟨globalFederateIdShift, 0⟩ List.mem_cons_self) (by decide)

end InterfaceCore

end Helics
