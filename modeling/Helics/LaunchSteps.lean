import Helics.LaunchTables
import Helics.Invariants

namespace Helics

open TimeCoordinator (Retabled Tables)

namespace FederateState

/-- A federate that does not iterate, and whose coordinator has asked to enter execution before it
looks for the entry. -/
structure Launchable (f : FederateState) : Prop where
  sourceId : f.timeCoord.sourceId = f.globalId
  iterating : f.timeCoord.iterating = false
  executing : f.state = .executing → f.timeCoord.executionMode = true
  asked : f.timeCoord.executionMode = true ∨ f.state = .initializing ∧ f.timeGrantedMode = false →
    f.timeCoord.checkingExec = true

def Honest (f : FederateState) (m : ActionMessage) : Prop :=
  m.sourceId = f.globalId ∧ (m.messageAction = .cmdExecRequest ∨
    (m.messageAction = .cmdExecGrant ∨ m.messageAction = .cmdTimeRequest ∨
      m.messageAction = .cmdTimeGrant) ∧ f.timeCoord.executionMode = true ∨
    (m.messageAction = .cmdDisconnect ∨ m.messageAction = .cmdDisconnectFed) ∧
      f.state ≠ .initializing)

/-- What the processing of at most one command does to a federate. -/
structure Progress (cmd : Option ActionMessage) (f f' : FederateState) (out : List ActionMessage) :
    Prop where
  globalId : f'.globalId = f.globalId
  launchable : f'.Launchable
  state : f'.state = .initializing → f.state = .initializing
  execution : f.timeCoord.executionMode = true → f'.timeCoord.executionMode = true
  checking : f.timeCoord.checkingExec = true → f'.timeCoord.checkingExec = true
  tables : ∃ ms, (∀ m ∈ ms, cmd = some m ∨ m = f.timeCoord.ownBye ∧ f'.state ≠ .initializing) ∧
    Tables ms f.timeCoord f'.timeCoord
  asks : f.timeCoord.checkingExec = false → f'.timeCoord.checkingExec = true →
    ∀ k ∈ f'.timeCoord.dependents.entries,
      ∃ m ∈ out, m.messageAction = .cmdExecRequest ∧ m.destId = k
  honest : ∀ m ∈ out, f'.Honest m
  entry : f.timeCoord.executionMode = false → f'.timeCoord.executionMode = true →
    f.state = .initializing ∧ f.timeGrantedMode = false ∧
    f'.timeCoord.dependencies.checkIfReadyForExecEntry false = true ∧
    ∃ ms, (∀ m ∈ ms, cmd = some m) ∧ Tables ms f.timeCoord f'.timeCoord

section
variable {f f' : FederateState} (hf : f.Launchable)
include hf

theorem Launchable.keepsMode (h : Retabled ms f.timeCoord f'.timeCoord)
    (hms : ∀ m ∈ ms, cmd = some m ∨ m = f.timeCoord.ownBye ∧ f'.state ≠ .initializing)
    (hg : f'.globalId = f.globalId) (hs : f'.state = .initializing → f.state = .initializing)
    (hx : f'.state = .executing → f.state = .executing)
    (ht : f'.state = .initializing → f'.timeGrantedMode = false →
      f.timeCoord.checkingExec = true) (hout : ∀ m ∈ out, f'.Honest m) : Progress cmd f f' out where
  globalId := hg
  launchable :=
    { sourceId := h.sourceId.trans (hf.sourceId.trans hg.symm)
      iterating := h.iterating.trans hf.iterating
      executing := fun he => h.executionMode.trans (hf.executing (hx he))
      asked := by
        rw [h.executionMode, h.checkingExec]
        rintro (he | ⟨hi, hm⟩)
        · exact hf.asked (.inl he)
        · exact ht hi hm }
  state := hs
  execution := fun he => h.executionMode.trans he
  checking := fun hc => h.checkingExec.trans hc
  tables := ⟨ms, hms, h.toTables⟩
  asks := by
    intro hno hyes
    rw [h.checkingExec, hno] at hyes
    cases hyes
  honest := hout
  entry := by
    intro hno hyes
    rw [h.executionMode, hno] at hyes
    cases hyes

theorem Launchable.stays : Progress cmd f f [] :=
  hf.keepsMode (Retabled.refl _) (fun _ hm => absurd hm List.not_mem_nil) rfl id id
    (fun hi hm => hf.asked (.inr ⟨hi, hm⟩)) fun _ hm => absurd hm List.not_mem_nil

theorem Launchable.record (cmd : ActionMessage) :
    Launchable { f with timeCoord := (f.timeCoord.processTimeMessage cmd).2.1 } := by
  have h := f.timeCoord.processTimeMessage_retabled cmd
  refine ⟨h.sourceId.trans hf.sourceId, h.iterating.trans hf.iterating,
    fun he => h.executionMode.trans (hf.executing he), fun ha => ?_⟩
  rw [h.checkingExec]
  rw [h.executionMode] at ha
  exact hf.asked ha

end

variable {cmd : ActionMessage}

theorem Progress.afterRecord
    (h : Progress none { f with timeCoord := (f.timeCoord.processTimeMessage cmd).2.1 } f' out) :
    Progress (some cmd) f f' out := by
  have hrec := f.timeCoord.processTimeMessage_retabled cmd
  have hbye : TimeCoordinator.ownBye (f.timeCoord.processTimeMessage cmd).2.1 =
      f.timeCoord.ownBye := by
    unfold TimeCoordinator.ownBye
    rw [hrec.sourceId]
  refine { h with execution := ?_, checking := ?_, tables := ?_, asks := ?_, entry := ?_ }
  · exact fun he => h.execution (hrec.executionMode.trans he)
  · exact fun hc => h.checking (hrec.checkingExec.trans hc)
  · obtain ⟨ms, hms, ht⟩ := h.tables
    refine ⟨[cmd] ++ ms, fun m hm => ?_, hrec.toTables.trans ht⟩
    obtain hm | hm := List.mem_append.mp hm
    · exact .inl (congrArg some (List.mem_singleton.mp hm).symm)
    · obtain hnone | ⟨heq, hs⟩ := hms m hm
      · cases hnone
      · exact .inr ⟨heq.trans hbye, hs⟩
  · exact fun hno => h.asks (hrec.checkingExec.trans hno)
  · intro hno hyes
    obtain ⟨hi, hm, hready, ms, hms, ht⟩ := h.entry (hrec.executionMode.trans hno) hyes
    refine ⟨hi, hm, hready, [cmd] ++ ms, fun m hm => ?_, hrec.toTables.trans ht⟩
    obtain hm | hm := List.mem_append.mp hm
    · exact congrArg some (List.mem_singleton.mp hm).symm
    · cases hms m hm

variable {f : FederateState}

section
variable {f : FederateState} (hf : f.Launchable)
include hf

theorem Launchable.execCheck :
    Progress none f f.execCheck.2.1 f.execCheck.2.2 := by
  unfold FederateState.execCheck
  split
  · rename_i hmode
    have hask := hf.asked (.inr hmode)
    unfold TimeCoordinator.checkExecEntry
    rw [hf.iterating]
    split
    · exact hf.stays
    split
    · exact hf.stays
    rename_i hready
    -- a federate that does not iterate enters execution as soon as its dependencies are ready
    have htables : Tables [] f.timeCoord f.timeCoord.enterExecution.1 :=
      { (Retabled.refl f.timeCoord).toTables with }
    rw [if_neg (fun h => Bool.false_ne_true h.1)]
    refine ⟨rfl, ⟨hf.sourceId, hf.iterating, fun _ => rfl, fun _ => hask⟩, ?_, fun _ => rfl,
      fun _ => hask, ⟨[], fun _ hm => absurd hm List.not_mem_nil, htables⟩, ?_, ?_, ?_⟩
    · exact fun h => nomatch h
    · intro hno
      rw [hask] at hno
      cases hno
    · intro m hm
      obtain ⟨k, -, rfl⟩ := List.mem_map.mp hm
      exact ⟨hf.sourceId, .inr (.inl ⟨.inl rfl, rfl⟩)⟩
    · intro _ _
      have hready' : f.timeCoord.dependencies.checkIfReadyForExecEntry false = true := by
        simpa using hready
      exact ⟨hmode.1, hmode.2, hready', [],
        fun _ hm => absurd hm List.not_mem_nil, htables⟩
  · exact hf.stays

theorem Launchable.timeCheck :
    Progress none f f.timeCheck.2.1 f.timeCheck.2.2 := by
  unfold FederateState.timeCheck
  split
  · rename_i hmode
    obtain ⟨htab, hsend⟩ := TimeCoordinator.checkTimeGrant_retabled hf.iterating
    have hne : f.state ≠ .initializing := by
      rw [hmode.1]
      exact fun h => nomatch h
    have hhonest {f' : FederateState} (hg : f'.globalId = f.globalId) (hs : f'.state = f.state)
        (hc : f'.timeCoord = f.timeCoord.checkTimeGrant.2.1) :
        ∀ m ∈ f.timeCoord.checkTimeGrant.2.2, f'.Honest m := by
      intro m hm
      obtain ⟨hsource, hkind⟩ | ⟨hsource, hkind⟩ := hsend m hm
      · refine ⟨hsource.trans (hf.sourceId.trans hg.symm), .inr (.inl ⟨.inr hkind, ?_⟩)⟩
        rw [hc, htab.executionMode]
        exact hf.executing hmode.1
      · exact ⟨hsource.trans (hf.sourceId.trans hg.symm), .inr (.inr ⟨.inl hkind, hs ▸ hne⟩)⟩
    have hbye : ∀ m ∈ [f.timeCoord.ownBye], none = some m ∨ m = f.timeCoord.ownBye ∧
        f.state ≠ .initializing := fun m hm => .inr ⟨List.mem_singleton.mp hm, hne⟩
    dsimp only
    split
    · exact hf.keepsMode htab hbye rfl id id (fun hi => absurd hi hne) (hhonest rfl rfl rfl)
    · exact hf.keepsMode htab hbye rfl id id (fun hi => absurd hi hne) (hhonest rfl rfl rfl)
  · exact hf.stays

theorem Launchable.processThen (hcmd : cmd.messageAction ≠ .cmdForceTimeGrant)
   
    (hcheck : ∀ f : FederateState, f.Launchable → Progress none f (check f).2.1 (check f).2.2) :
    Progress (some cmd) f (f.processThen cmd check).2.1 (f.processThen cmd check).2.2 := by
  have hquiet : (f.timeCoord.processTimeMessage cmd).2.2 = [] := by
    unfold TimeCoordinator.processTimeMessage
    split
    case h_3 h => exact absurd h hcmd
    all_goals rfl
  have hrec := hf.record cmd
  unfold FederateState.processThen
  dsimp only
  rw [hquiet]
  split
  · exact hrec.stays.afterRecord
  · exact hrec.stays.afterRecord
  · rw [List.nil_append]
    exact (hcheck _ hrec).afterRecord

theorem Launchable.startExecRequest (hcmd : iterationOf cmd = .noIterations) :
    Progress none f (f.startExecRequest cmd).1 (f.startExecRequest cmd).2 := by
  unfold FederateState.startExecRequest TimeCoordinator.enteringExecMode
  rw [hcmd]
  split
  · rename_i hmode
    exact hf.keepsMode (Retabled.refl _) (fun _ hm => absurd hm List.not_mem_nil) rfl id id
      (fun _ _ => hf.asked (.inl hmode)) fun _ hm => absurd hm List.not_mem_nil
  rename_i hmode
  refine ⟨rfl, ⟨hf.sourceId, rfl, fun he => absurd (hf.executing he) hmode, fun _ => rfl⟩, id, id,
    fun _ => rfl, ⟨[], fun _ hm => absurd hm List.not_mem_nil,
      { (Retabled.refl f.timeCoord).toTables with }⟩, ?_, ?_, ?_⟩
  · exact fun _ _ k hk => ⟨_, List.mem_map_of_mem hk, rfl, rfl⟩
  · intro m hm
    obtain ⟨k, -, rfl⟩ := List.mem_map.mp hm
    exact ⟨hf.sourceId, .inl rfl⟩
  · exact fun _ hyes => absurd hyes hmode

theorem Launchable.stepping {f' : FederateState}
    (hg : f'.globalId = f.globalId) (hm : f'.timeCoord.executionMode = true)
    (h : f.timeCoord.Stepping m) : f'.Honest m :=
  ⟨h.1.trans (hf.sourceId.trans hg.symm), .inr (.inl ⟨.inr h.2, hm⟩)⟩

theorem Launchable.startTimeRequest
    (hcmd : iterationOf cmd = .noIterations) (hmode : f.timeCoord.executionMode = true)
    (v w : Time) :
    Progress none f (f.startTimeRequest cmd v w).1 (f.startTimeRequest cmd v w).2 := by
  unfold FederateState.startTimeRequest
  rw [hcmd]
  have htab := TimeCoordinator.timeRequest_retabled hf.iterating cmd.actionTime v w
  exact hf.keepsMode htab (fun _ hm => absurd hm List.not_mem_nil) rfl id id
    (fun _ _ => hf.asked (.inl hmode)) fun m hm =>
      hf.stepping rfl (htab.executionMode.trans hmode) (TimeCoordinator.stepping_timeRequest hm)

theorem Launchable.withCoordinator
    (htab : Retabled [] f.timeCoord r.1)
    (hout : ∀ m ∈ r.2, f.timeCoord.Stepping m ∧ f.timeCoord.executionMode = true) :
    Progress none f (f.withCoordinator r).1 (f.withCoordinator r).2 :=
  hf.keepsMode htab (fun _ hm => absurd hm List.not_mem_nil) rfl id id
    (fun hi hm => hf.asked (.inr ⟨hi, hm⟩)) fun m hm =>
      hf.stepping rfl (htab.executionMode.trans (hout m hm).2) (hout m hm).1

theorem Launchable.receivePublication (cmd : ActionMessage) :
    Progress none f (f.receivePublication cmd).1 (f.receivePublication cmd).2 := by
  unfold FederateState.receivePublication
  split
  · exact hf.stays
  split
  · exact hf.stays
  rename_i input _ _
  have hfold := Invariants.foldl_invariant
    (f := fun (r : TimeCoordinator × List ActionMessage) (_ : GlobalHandle) =>
      ((r.1.updateValueTime cmd.actionTime).1, r.2 ++ (r.1.updateValueTime cmd.actionTime).2))
    (P := fun r _ => Retabled [] f.timeCoord r.1 ∧
      ∀ m ∈ r.2, f.timeCoord.Stepping m ∧ f.timeCoord.executionMode = true)
    (b := (f.timeCoord, [])) ⟨.refl _, fun _ hm => absurd hm List.not_mem_nil⟩
    (by
      rintro r _ _ ⟨htab, hout⟩
      refine ⟨htab.trans (r.1.updateValueTime_retabled _), fun m hm => ?_⟩
      obtain hm | hm := List.mem_append.mp hm
      · exact hout m hm
      · obtain ⟨⟨hsource, hkind⟩, hmode⟩ := TimeCoordinator.stepping_updateValueTime hm
        exact ⟨⟨hsource.trans htab.sourceId, hkind⟩, htab.executionMode ▸ hmode⟩)
    (input.inputSources.filter fun src => decide (src = cmd.getSource))
  exact hf.withCoordinator hfold.1 hfold.2

theorem Launchable.receiveMessage (cmd : ActionMessage) :
    Progress none f (f.receiveMessage cmd).1 (f.receiveMessage cmd).2 := by
  unfold FederateState.receiveMessage
  split
  · exact hf.withCoordinator (f.timeCoord.updateMessageTime_retabled _) fun m hm =>
      TimeCoordinator.stepping_updateMessageTime hm
  · exact hf.stays

theorem Launchable.leaves
    (hi : s ≠ .initializing) (hx : s ≠ .executing)
    (hout : ∀ m ∈ out, m ∈ f.timeCoord.disconnect.2 ∨ m.sourceId = f.globalId ∧
      (m.messageAction = .cmdDisconnect ∨ m.messageAction = .cmdDisconnectFed)) :
    Progress none f { f with timeCoord := f.timeCoord.disconnect.1, state := s } out := by
  refine hf.keepsMode f.timeCoord.disconnect_retabled
    (fun m hm => .inr ⟨List.mem_singleton.mp hm, hi⟩) rfl (fun h => absurd h hi)
    (fun h => absurd h hx) (fun h => absurd h hi) fun m hm => ?_
  obtain hm | ⟨hsource, hkind⟩ := hout m hm
  · obtain ⟨hsource, hkind⟩ := TimeCoordinator.disconnect_sends hm
    exact ⟨hsource.trans hf.sourceId, .inr (.inr ⟨.inl hkind, hi⟩)⟩
  · exact ⟨hsource, .inr (.inr ⟨hkind, hi⟩)⟩

theorem Launchable.ends
    (hi : s ≠ .initializing) (hx : s ≠ .executing) : Progress none f { f with state := s } [] :=
  hf.keepsMode (Retabled.refl _) (fun _ hm => absurd hm List.not_mem_nil) rfl
    (fun h => absurd h hi) (fun h => absurd h hx) (fun h => absurd h hi)
    fun _ hm => absurd hm List.not_mem_nil

theorem Launchable.stop : Progress none f f.stop.2.1 f.stop.2.2 :=
  hf.leaves nofun nofun fun _ hm => .inl hm

theorem Launchable.acknowledgeDisconnect (cmd : ActionMessage) :
    Progress none f (f.acknowledgeDisconnect cmd).2.1 (f.acknowledgeDisconnect cmd).2.2 := by
  unfold FederateState.acknowledgeDisconnect
  split
  · split
    · exact hf.ends nofun nofun
    · exact hf.stop
  · exact hf.stays

theorem Launchable.processOwnDisconnect
    (hcmd : cmd.messageAction = .cmdDisconnect ∨ cmd.messageAction = .cmdDisconnectFed)
    (hown : cmd.sourceId = f.globalId) :
    Progress none f (f.processDisconnect cmd).2.1 (f.processDisconnect cmd).2.2 := by
  unfold FederateState.processDisconnect
  rw [if_pos hown]
  split
  · exact hf.stays
  refine hf.leaves (s := .terminating) nofun nofun fun m hm => ?_
  obtain hm | hm := List.mem_append.mp hm
  · exact .inl hm
  · rw [List.mem_singleton.mp hm]
    exact .inr ⟨hown, hcmd⟩

theorem Launchable.processDisconnect
    (hcmd : cmd.messageAction = .cmdDisconnect ∨ cmd.messageAction = .cmdDisconnectFed) :
    Progress (some cmd) f (f.processDisconnect cmd).2.1 (f.processDisconnect cmd).2.2 := by
  by_cases hown : cmd.sourceId = f.globalId
  · refine { (hf.processOwnDisconnect hcmd hown) with tables := ?_, entry := ?_ }
    · obtain ⟨ms, hms, ht⟩ := (hf.processOwnDisconnect hcmd hown).tables
      exact ⟨ms, fun m hm => .inr ((hms m hm).resolve_left nofun), ht⟩
    · intro hno hyes
      obtain ⟨hi, hm, hready, ms, hms, ht⟩ := (hf.processOwnDisconnect hcmd hown).entry hno hyes
      exact ⟨hi, hm, hready, ms, fun m hm => (nomatch hms m hm), ht⟩
  unfold FederateState.processDisconnect
  rw [if_neg hown]
  refine hf.processThen ?_ fun f hf => hf.timeCheck
  obtain hcmd | hcmd := hcmd
  · rw [hcmd]
    exact nofun
  · rw [hcmd]
    exact nofun

theorem Launchable.processTimeBlock
    (hcmd : cmd.messageAction ≠ .cmdForceTimeGrant) :
    Progress (some cmd) f (f.processTimeBlock cmd).2.1 (f.processTimeBlock cmd).2.2 := by
  refine hf.processThen hcmd fun f hf => ?_
  split
  · exact hf.execCheck
  · exact hf.timeCheck
  · exact hf.stays

theorem Launchable.forceTimeGrant
    (hcmd : cmd.messageAction = .cmdForceTimeGrant) (hs : f.state = .executing) :
    Progress (some cmd) f (f.forceTimeGrant cmd).2.1 (f.forceTimeGrant cmd).2.2 := by
  have hne : f.state ≠ .initializing := by
    rw [hs]
    exact nofun
  unfold FederateState.forceTimeGrant
  split
  · exact hf.stays
  have htab := f.timeCoord.processTimeMessage_retabled cmd
  refine hf.keepsMode htab (fun m hm => .inl (congrArg some (List.mem_singleton.mp hm).symm)) rfl
    id id (fun h => absurd h hne) fun m hm => ?_
  refine hf.stepping rfl (htab.executionMode.trans (hf.executing hs)) ?_
  unfold TimeCoordinator.processTimeMessage TimeCoordinator.forceTimeGrant at hm
  simp only [hcmd] at hm
  split at hm
  · obtain ⟨k, -, rfl⟩ := List.mem_map.mp hm
    exact ⟨rfl, .inr rfl⟩
  · exact absurd hm List.not_mem_nil

end

end FederateState

end Helics
