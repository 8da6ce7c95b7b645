import Helics.CoreCommands

namespace Helics

variable [DualMapped String GlobalId]

namespace CommonCore

/-- What routing leaves alone: identities, interfaces, filters and all queues and counters. -/
structure Frame (c c' : CommonCore) : Prop where
  own : c'.globalBrokerIdLocal = c.globalBrokerIdLocal
  higher : c'.higherBrokerId = c.higherBrokerId
  ids : c'.loopFederates.indexOfId = c.loopFederates.indexOfId
  endpoints : c'.endpoints = c.endpoints
  filterCoord : c'.filterCoord = c.filterCoord
  filters : c'.filters = c.filters
  ongoing : c'.ongoingFilterProcesses = c.ongoingFilterProcesses
  ongoingDest : c'.ongoingDestFilterProcesses = c.ongoingDestFilterProcesses
  parked : c'.delayedTimingMessages = c.delayedTimingMessages
  held : c'.delayTransmitQueue = c.delayTransmitQueue
  counter : c'.messageCounter = c.messageCounter

theorem Frame.refl (c : CommonCore) : Frame c c := by
  constructor <;> rfl

theorem Frame.trans (h : Frame c c') (h' : Frame c' c'') : Frame c c'' :=
  ⟨h'.own.trans h.own, h'.higher.trans h.higher, h'.ids.trans h.ids,
    h'.endpoints.trans h.endpoints, h'.filterCoord.trans h.filterCoord, h'.filters.trans h.filters,
    h'.ongoing.trans h.ongoing, h'.ongoingDest.trans h.ongoingDest, h'.parked.trans h.parked,
    h'.held.trans h.held, h'.counter.trans h.counter⟩

theorem isLocal_eq {c c' : CommonCore} (h : c'.loopFederates.indexOfId = c.loopFederates.indexOfId)
    (fed : GlobalId) : c'.isLocal fed = c.isLocal fed := by
  unfold isLocal
  rw [h]

theorem Frame.isLocal (h : Frame c c') (fed : GlobalId) : c'.isLocal fed = c.isLocal fed :=
  isLocal_eq h.ids fed

theorem Frame.hasOngoing (h : Frame c c') (fed : GlobalId) :
    c'.hasOngoing fed = c.hasOngoing fed := by
  unfold CommonCore.hasOngoing
  rw [h.ongoing]

variable (c : CommonCore)

theorem frame_timeCoord (t : ForwardingTimeCoordinator) : Frame c { c with timeCoord := t } := by
  constructor <;> rfl

theorem frame_brokerState (s : BrokerState) : Frame c { c with brokerState := s } := by
  constructor <;> rfl

theorem frame_modifyFederate (i : Nat) (f : LoopFederate → LoopFederate) :
    Frame c { c with loopFederates := c.loopFederates.modify i f } :=
  { Frame.refl c with ids := DualMapped.indexOfId_modify _ i f }

theorem frame_checkAndProcessDisconnect : Frame c c.checkAndProcessDisconnect.2.1 := by
  unfold checkAndProcessDisconnect
  split
  · exact .refl c
  · split
    · constructor <;> rfl
    · exact .refl c

theorem frame_checkExecEntry : Frame c c.checkExecEntry.1 := by
  constructor <;> rfl

variable (cmd : ActionMessage)

theorem frame_coordinate : Frame c (c.coordinate cmd).1 := by
  unfold coordinate
  dsimp only
  split
  · exact (c.frame_timeCoord _).trans (frame_checkExecEntry _)
  · split
    · exact c.frame_timeCoord _
    · exact c.frame_timeCoord _

theorem frame_higherDisconnect : Frame c c.higherDisconnect.1 := by
  unfold higherDisconnect
  split
  · constructor <;> rfl
  · exact c.frame_brokerState _

theorem frame_processCommandsForCore : Frame c (c.processCommandsForCore cmd).1 := by
  unfold processCommandsForCore
  split
  · have htold := c.frame_coordinate cmd
    split
    · split
      · exact htold.trans (frame_higherDisconnect _)
      · exact htold.trans (frame_checkAndProcessDisconnect _)
    · exact htold
  · split
    · exact c.frame_timeCoord _
    · exact .refl c

theorem frame_route (moved : Bool) : Frame c (c.route cmd moved).1 := by
  unfold route
  split
  · exact .refl c
  split
  · exact c.frame_processCommandsForCore cmd
  · split
    · exact .refl c
    · exact .refl c

theorem frame_routeMessageTo (dest : GlobalId) : Frame c (c.routeMessageTo cmd dest).1 := by
  unfold routeMessageTo
  split
  · exact .refl c
  · exact c.frame_route _ _

theorem frame_routeAll (cmds : List ActionMessage) : Frame c (c.routeAll cmds).1 := by
  induction cmds generalizing c with
  | nil => exact .refl c
  | cons cmd cmds ih => exact (c.frame_route cmd false).trans (ih _)

theorem frame_routeAllTo (cmds : List (ActionMessage × GlobalId)) :
    Frame c (c.routeAllTo cmds).1 := by
  induction cmds generalizing c with
  | nil => exact .refl c
  | cons first cmds ih => exact (c.frame_routeMessageTo _ _).trans (ih _)

theorem frame_checkDependencies : Frame c c.checkDependencies.1 := by
  have htrim : Frame c c.trimDependencies.1 := c.frame_timeCoord _
  unfold checkDependencies
  dsimp only
  split
  · exact htrim
  split
  · exact htrim.trans ⟨rfl, rfl, rfl, rfl, rfl, rfl, rfl, rfl, rfl, rfl, rfl⟩
  split
  · refine htrim.trans (Frame.trans ?_ (frame_routeAllTo _ _))
    constructor <;> rfl
  · exact htrim

theorem frame_cloneToDestFilter (m : ActionMessage) (filt : FilterInfo) :
    Frame c (c.cloneToDestFilter m filt).1 := by
  unfold cloneToDestFilter
  split
  · exact .refl c
  split
  · split
    · exact .refl c
    · exact .refl c
  · exact c.frame_route _ _

theorem frame_cloneToDestFilters (m : ActionMessage) (filts : List FilterInfo) :
    Frame c (c.cloneToDestFilters m filts).1 := by
  induction filts generalizing c with
  | nil => exact .refl c
  | cons filt filts ih => exact (c.frame_cloneToDestFilter m filt).trans (ih _)

theorem frame_finishDestFilterReturn (fed : GlobalId)
    (filtFunc : FilterCoordinator) (cmd : ActionMessage) :
    Frame c (c.finishDestFilterReturn fed filtFunc cmd).1 :=
  ((c.frame_cloneToDestFilters _ _).trans (frame_timeCoord _ _)).trans
    ((frame_route _ _ _).trans (frame_route _ _ _))

theorem frame_routeToDependents : Frame c (c.routeToDependents cmd).1 := c.frame_routeAllTo _

theorem frame_execCommand (hp : c.parks cmd = false) : Frame c (c.processExecCommand cmd).1 := by
  unfold processExecCommand
  rw [if_neg (ne_true_of_eq_false hp)]
  split
  · dsimp only
    split
    · exact c.frame_timeCoord _
    · exact (c.frame_timeCoord _).trans (frame_checkExecEntry _)
  · split
    · exact c.frame_routeToDependents cmd
    · exact c.frame_route cmd false

theorem frame_timeCommand (hp : c.parks cmd = false) : Frame c (c.processTimeCommand cmd).1 := by
  unfold processTimeCommand
  rw [if_neg (ne_true_of_eq_false hp)]
  split
  · exact c.frame_routeToDependents cmd
  · exact c.frame_route cmd false

theorem frame_acknowledgeDisconnect : Frame c (c.acknowledgeDisconnect cmd).1 := by
  unfold acknowledgeDisconnect
  split
  · exact .refl c
  · exact c.frame_route _ _

theorem frame_fedDisconnect : Frame c (c.processFedDisconnect cmd).1 := by
  unfold processFedDisconnect
  split
  · exact c.frame_route cmd false
  split
  · split
    · exact .refl c
    dsimp only
    split
    · exact ((c.frame_modifyFederate _ _).trans (frame_checkAndProcessDisconnect _)).trans
        (frame_acknowledgeDisconnect _ cmd)
    · exact (c.frame_modifyFederate _ _).trans (frame_checkAndProcessDisconnect _)
  · exact .refl c

theorem frame_processStop : Frame c c.processStop.1 := by
  unfold processStop sendDisconnect
  split
  · split
    · constructor <;> rfl
    · exact c.frame_brokerState _
  · exact .refl c

theorem frame_pub : Frame c (c.processPub cmd).1 := by
  unfold processPub
  split
  · exact c.frame_routeAll _
  · exact c.frame_route cmd false

theorem frame_searchDependency : Frame c (c.searchDependency cmd).1 := by
  unfold searchDependency
  split
  · exact c.frame_routeAll _
  · exact .refl c

theorem frame_error : Frame c (c.processError cmd).1 := by
  unfold processError
  split
  · exact .refl c
  · exact c.frame_route cmd false

theorem frame_init : Frame c (c.processInit cmd).1 := by
  unfold processInit
  split
  · exact .refl c
  dsimp only
  split
  · exact ((c.frame_modifyFederate _ _).trans (frame_brokerState _ _)).trans
      (frame_checkDependencies _)
  · exact c.frame_modifyFederate _ _

theorem frame_initGrant : Frame c (c.processInitGrant cmd).1 := by
  unfold processInitGrant checkExecEntry
  dsimp only
  split
  · split
    · constructor <;> rfl
    · constructor <;> rfl
  · exact .refl c

def isFilterCommand : Action → Bool
  | .cmdSendMessage | .cmdSendForFilter | .cmdSendForFilterAndReturn
  | .cmdSendForDestFilterAndReturn | .cmdNullMessage | .cmdFilterResult | .cmdDestFilterResult
  | .cmdNullDestMessage => true
  | _ => false

def isParkable : Action → Bool
  | .cmdExecRequest | .cmdExecGrant | .cmdTimeRequest | .cmdTimeGrant => true
  | _ => false

/-- Only messages and the commands that are parked reach beyond the frame. -/
theorem frame_processCommand (hf : isFilterCommand cmd.messageAction = false)
    (hp : isParkable cmd.messageAction = true → c.parks cmd = false) :
    Frame c (c.processCommand cmd).1 := by
  unfold processCommand
  split
  case h_1 => exact c.frame_checkAndProcessDisconnect
  case h_2 | h_4 => exact c.frame_processStop
  case h_3 => exact (c.frame_timeCoord _).trans (frame_checkAndProcessDisconnect _)
  case h_5 ha | h_6 ha => exact c.frame_execCommand cmd (hp (by rw [ha]; rfl))
  case h_7 ha | h_8 ha => exact c.frame_timeCommand cmd (hp (by rw [ha]; rfl))
  case h_9 | h_10 => exact c.frame_fedDisconnect cmd
  case h_11 => exact .refl c
  case h_12 => exact c.frame_searchDependency cmd
  case h_13 | h_14 | h_15 | h_16 | h_17 | h_18 => exact c.frame_route cmd false
  case h_26 => exact c.frame_pub cmd
  case h_27 | h_28 =>
    split
    · exact .refl c
    · exact c.frame_route cmd false
  case h_29 => exact c.frame_error cmd
  case h_30 => exact c.frame_init cmd
  case h_31 => exact c.frame_initGrant cmd
  case h_33 => exact .refl c
  all_goals simp_all [isFilterCommand]

variable {cmd}

theorem processCommand_parkable (h : isParkable cmd.messageAction = true) :
    c.processCommand cmd = c.processExecCommand cmd ∨
      c.processCommand cmd = c.processTimeCommand cmd := by
  unfold processCommand
  split
  case h_5 | h_6 => exact .inl rfl
  case h_7 | h_8 => exact .inr rfl
  all_goals simp_all [isParkable]

variable {c : CommonCore}

theorem processCommand_park (h : isParkable cmd.messageAction = true)
    (hp : c.parks cmd = true) : c.processCommand cmd = c.park cmd := by
  obtain he | he := c.processCommand_parkable h
  · rw [he, processExecCommand, if_pos hp]
  · rw [he, processTimeCommand, if_pos hp]

variable (cmd)

theorem ids_regFed : (c.regFed cmd).1.loopFederates.indexOfId = c.loopFederates.indexOfId := by
  have hids := c.loopFederates.indexOfId_add cmd.name { name := cmd.name }
  unfold regFed
  split
  · exact hids
  · exact hids

theorem isLocal_fedAck (h : c.isLocal fed = true) (cmd : ActionMessage) :
    (c.fedAck cmd).1.isLocal fed = true := by
  unfold fedAck
  split
  · exact h
  split
  · exact h
  obtain ⟨i, hi⟩ := Option.isSome_iff_exists.mp h
  apply Option.isSome_iff_exists.mpr
  refine ⟨i, DualMapped.indexOfId_addSearchTerm _ _ ?_⟩
  rw [DualMapped.Vector.indexOfId_modifyName]
  exact hi

def CoreMade (own : GlobalId) : CoreEffect → Prop
  | .addActionMessage _ => True
  | .transmit _ m => m.sourceId = own ∧ m.messageAction = .cmdDisconnect
  | .addAction _ m =>
    m.messageAction = .cmdDisconnectFedAck ∨ m.messageAction = .cmdStop ∨
      m.messageAction = .cmdError ∨ isDependencyCommand m.messageAction = true
  | _ => False

def Carries (cmd : ActionMessage) : CoreEffect → Prop
  | .transmit _ m => m = cmd
  | .addAction _ m => m = cmd
  | .postTermination _ m => m = cmd
  | .timeMessage m => m = cmd
  | _ => False

omit [DualMapped String GlobalId] in
theorem coreMade_coreQueued (h : e ∈ coreQueued msgs) : CoreMade own e := by
  obtain ⟨m, _, rfl⟩ := List.mem_map.mp h
  trivial

theorem coreMade_checkAndProcessDisconnect
    (h : e ∈ c.checkAndProcessDisconnect.2.2) : CoreMade c.globalBrokerIdLocal e := by
  unfold checkAndProcessDisconnect at h
  split at h
  · cases h
  split at h
  · cases List.mem_append.mp h with
    | inl hq => exact coreMade_coreQueued hq
    | inr ht =>
      obtain rfl := List.mem_singleton.mp ht
      exact ⟨rfl, rfl⟩
  · cases h

theorem coreMade_higherDisconnect (h : e ∈ c.higherDisconnect.2) :
    CoreMade own e := by
  unfold higherDisconnect at h
  simp only [List.mem_append] at h
  obtain (h | h) | h := h
  · split at h
    · exact coreMade_coreQueued h
    · cases h
  · obtain ⟨fed, _, rfl⟩ := List.mem_map.mp h
    exact .inl rfl
  · obtain rfl := List.mem_singleton.mp h
    trivial

theorem coordinate_effects (own : GlobalId) (c : CommonCore) (cmd : ActionMessage) :
    ∃ es, (c.coordinate cmd).2 = .timeMessage cmd :: es ∧ ∀ e ∈ es, CoreMade own e := by
  unfold coordinate
  dsimp only
  split
  · exact ⟨_, rfl, fun e he => coreMade_coreQueued he⟩
  · split
    · exact ⟨_, rfl, fun e he => coreMade_coreQueued he⟩
    · exact ⟨[], rfl, fun e he => absurd he List.not_mem_nil⟩

theorem processCommandsForCore_effects :
    (isTimingCommand cmd.messageAction = false ∧ (c.processCommandsForCore cmd).2 = []) ∨
      ∃ es, (c.processCommandsForCore cmd).2 = .timeMessage cmd :: es ∧
        ∀ e ∈ es, CoreMade c.globalBrokerIdLocal e := by
  unfold processCommandsForCore
  dsimp only
  split
  · obtain ⟨es, hes, hmade⟩ := coordinate_effects c.globalBrokerIdLocal c cmd
    right
    split
    · split
      · refine ⟨es ++ _, by rw [hes]; rfl, ?_⟩
        intro e he
        cases List.mem_append.mp he with
        | inl h => exact hmade e h
        | inr h => exact coreMade_higherDisconnect h
      · refine ⟨es ++ _, by rw [hes]; rfl, ?_⟩
        intro e he
        cases List.mem_append.mp he with
        | inl h => exact hmade e h
        | inr h =>
          have hm := coreMade_checkAndProcessDisconnect h
          rw [(c.frame_coordinate cmd).own] at hm
          exact hm
    · exact ⟨es, hes, hmade⟩
  case isFalse h =>
    left
    refine ⟨by simpa using h, ?_⟩
    split
    · rfl
    · rfl

theorem route_effects (moved : Bool) :
    (isTimingCommand cmd.messageAction = false ∧ (c.route cmd moved).2 = []) ∨
      ∃ e es, (c.route cmd moved).2 = e :: es ∧ Carries cmd e ∧
        ∀ e' ∈ es, CoreMade c.globalBrokerIdLocal e' := by
  unfold route
  split
  · exact .inr ⟨_, [], rfl, rfl, fun e' he' => absurd he' List.not_mem_nil⟩
  split
  · obtain h | ⟨es, hes, hmade⟩ := c.processCommandsForCore_effects cmd
    · exact .inl h
    · exact .inr ⟨_, es, hes, rfl, hmade⟩
  split
  · refine .inr ⟨_, [], rfl, ?_, fun e' he' => absurd he' List.not_mem_nil⟩
    unfold toFederate
    split
    · rfl
    · rfl
  · exact .inr ⟨_, [], rfl, rfl, fun e' he' => absurd he' List.not_mem_nil⟩

variable {cmd}

theorem mem_route (h : e ∈ (c.route cmd moved).2) :
    Carries cmd e ∨ CoreMade c.globalBrokerIdLocal e := by
  obtain ⟨_, hn⟩ | ⟨e₀, es, hes, hc, hm⟩ := c.route_effects cmd moved
  · rw [hn] at h
    cases h
  rw [hes] at h
  cases List.mem_cons.mp h with
  | inl he => exact .inl (he ▸ hc)
  | inr he => exact .inr (hm e he)

/-- A class of effects that contains what the core makes itself and whatever carries a message
of the class `A`, which contains the dependency messages and the acknowledgements of the core. -/
structure EffectClass (own : GlobalId) (A : ActionMessage → Prop) (E : CoreEffect → Prop) :
    Prop where
  made : ∀ e, CoreMade own e → E e
  carry : ∀ m e, Carries m e → A m → E e
  dependency : ∀ m, isDependencyCommand m.messageAction = true → A m
  ack : ∀ m, m.messageAction = .cmdDisconnectFedAck → A m
  readdress : ∀ m id handle, A m → A { m with destId := id, destHandle := handle }
  adopt : ∀ m, A m → A { m with sourceId := own }
  leave : ∀ m, m.messageAction = .cmdDisconnect ∨ m.messageAction = .cmdDisconnectFed → A m →
    A (m.setAction .cmdDisconnectFed)

section
variable {own : GlobalId} {A : ActionMessage → Prop} {E : CoreEffect → Prop} {c : CommonCore}
  (hE : EffectClass own A E)
include hE

theorem effects_trimDependencies (h : e ∈ c.trimDependencies.2) : E e := by
  apply hE.made
  cases List.mem_append.mp h with
  | inl ho =>
    obtain ⟨fed, _, rfl⟩ := List.mem_map.mp ho
    exact .inr (.inr (.inr rfl))
  | inr hs =>
    obtain ⟨fed, _, rfl⟩ := List.mem_map.mp hs
    exact .inr (.inr (.inr rfl))

theorem effects_sendDisconnect (h : e ∈ c.sendDisconnect.2) : E e := by
  have hstop (hs : e ∈ (c.loopFederates.data.filter (fun fed => !fed.finished)).map (fun fed =>
      CoreEffect.addAction fed.globalId
        { messageAction := .cmdStop, sourceId := c.globalBrokerIdLocal })) : E e := by
    obtain ⟨fed, _, rfl⟩ := List.mem_map.mp hs
    exact hE.made _ (.inr (.inl rfl))
  unfold sendDisconnect at h
  split at h
  · cases List.mem_append.mp h with
    | inl hs => exact hstop hs
    | inr hq => exact hE.made e (coreMade_coreQueued hq)
  · exact hstop h

theorem effects_coreDisconnectAck (h : e ∈ c.processCoreDisconnectAck cmd) : E e := by
  unfold processCoreDisconnectAck at h
  split at h
  · cases List.mem_append.mp h with
    | inl ha =>
      obtain ⟨fed, _, rfl⟩ := List.mem_map.mp ha
      exact hE.made _ (.inl rfl)
    | inr hs =>
      obtain rfl := List.mem_singleton.mp hs
      exact hE.made _ trivial
  · cases h

theorem effects_initGrant (hcmd : A cmd) (h : e ∈ (c.processInitGrant cmd).2) : E e := by
  have hgrant (hg : e ∈ c.loopFederates.data.map (fun fed => .addAction fed.globalId cmd)) :
      E e := by
    obtain ⟨fed, _, rfl⟩ := List.mem_map.mp hg
    exact hE.carry cmd _ rfl hcmd
  unfold processInitGrant at h
  split at h
  · dsimp only at h
    split at h
    · simp only [List.mem_append] at h
      obtain (h | h) | h := h
      · exact hgrant h
      · exact hE.made e (coreMade_coreQueued h)
      · exact hE.made e (coreMade_coreQueued h)
    · simp only [List.mem_append] at h
      obtain ((h | h) | h) | h := h
      · exact hgrant h
      · exact hE.made e (coreMade_coreQueued h)
      · exact hE.made e (coreMade_coreQueued h)
      · exact hE.made e (coreMade_coreQueued h)
  · cases h

variable (hown : c.globalBrokerIdLocal = own)
include hown

theorem effects_route (hcmd : A cmd) (h : e ∈ (c.route cmd moved).2) : E e := by
  cases mem_route h with
  | inl hc => exact hE.carry cmd e hc hcmd
  | inr hm =>
    rw [hown] at hm
    exact hE.made e hm

theorem effects_routeAll (hcmds : ∀ cmd ∈ cmds, A cmd) (h : e ∈ (c.routeAll cmds).2) : E e := by
  induction cmds generalizing c with
  | nil => cases h
  | cons cmd cmds ih =>
    cases List.mem_append.mp h with
    | inl hf => exact effects_route hE hown (hcmds cmd List.mem_cons_self) hf
    | inr hr =>
      refine ih ((c.frame_route cmd false).own.trans hown) ?_ hr
      intro cmd' hcmd'
      exact hcmds cmd' (List.mem_cons_of_mem _ hcmd')

theorem effects_routeAllTo
    (hcmds : ∀ p ∈ cmds, A { p.1 with destId := p.2 }) (h : e ∈ (c.routeAllTo cmds).2) : E e := by
  induction cmds generalizing c with
  | nil => cases h
  | cons p cmds ih =>
    cases List.mem_append.mp h with
    | inl hf =>
      unfold routeMessageTo at hf
      split at hf
      · cases hf
      · exact effects_route hE hown (hcmds p List.mem_cons_self) hf
    | inr hr =>
      refine ih ((c.frame_routeMessageTo p.1 p.2).own.trans hown) ?_ hr
      intro p' hp'
      exact hcmds p' (List.mem_cons_of_mem _ hp')

theorem effects_checkAndProcessDisconnect (h : e ∈ c.checkAndProcessDisconnect.2.2) : E e := by
  have hm := coreMade_checkAndProcessDisconnect h
  rw [hown] at hm
  exact hE.made e hm

theorem effects_bypassCore (h : e ∈ (c.bypassCore fed brk observer source).2) : E e := by
  refine effects_routeAllTo hE (by exact hown) (fun p hp => hE.dependency _ ?_) h
  revert p
  cases observer <;> cases source <;> simp [removalMessages, isDependencyCommand]

theorem effects_checkDependencies (h : e ∈ c.checkDependencies.2) : E e := by
  have hown' : c.trimDependencies.1.globalBrokerIdLocal = own := hown
  unfold checkDependencies at h
  dsimp only at h
  split at h
  · exact effects_trimDependencies hE h
  split at h
  · exact effects_trimDependencies hE h
  split at h
  · cases List.mem_append.mp h with
    | inl ht => exact effects_trimDependencies hE ht
    | inr hb => exact effects_bypassCore hE hown' hb
  · exact effects_trimDependencies hE h

theorem effects_processStop (h : e ∈ c.processStop.2) : E e := by
  unfold processStop at h
  split at h
  · cases List.mem_append.mp h with
    | inl hs => exact effects_sendDisconnect hE hs
    | inr ht =>
      obtain rfl := List.mem_singleton.mp ht
      exact hE.made _ ⟨hown, rfl⟩
  · cases h

section
variable (hcmd : A cmd)
include hcmd

theorem effects_routeToDependents (h : e ∈ (c.routeToDependents cmd).2) : E e := by
  refine effects_routeAllTo hE hown ?_ h
  intro p hp
  obtain ⟨dep, _, rfl⟩ := List.mem_map.mp hp
  exact hE.readdress cmd dep cmd.destHandle hcmd

theorem effects_execCommand (h : e ∈ (c.processExecCommand cmd).2) : E e := by
  unfold processExecCommand at h
  split at h
  · cases h
  split at h
  · cases List.mem_cons.mp h with
    | inl ht =>
      obtain rfl := ht
      exact hE.carry cmd _ rfl hcmd
    | inr hr =>
      split at hr
      · cases hr
      · exact hE.made e (coreMade_coreQueued hr)
  · split at h
    · exact effects_routeToDependents hE hown hcmd h
    · exact effects_route hE hown hcmd h

theorem effects_timeCommand (h : e ∈ (c.processTimeCommand cmd).2) : E e := by
  unfold processTimeCommand at h
  split at h
  · cases h
  · split at h
    · exact effects_routeToDependents hE hown hcmd h
    · exact effects_route hE hown hcmd h

theorem effects_fedDisconnect
    (hact : cmd.messageAction = .cmdDisconnect ∨ cmd.messageAction = .cmdDisconnectFed)
    (h : e ∈ (c.processFedDisconnect cmd).2) : E e := by
  unfold processFedDisconnect at h
  split at h
  · exact effects_route hE hown hcmd h
  split at h
  · split at h
    · cases h
    dsimp only at h
    split at h
    · simp only [List.mem_append, List.mem_singleton] at h
      obtain (h | rfl) | h := h
      · exact effects_checkAndProcessDisconnect hE (by exact hown) h
      · exact hE.carry _ _ rfl (hE.leave cmd hact hcmd)
      · unfold acknowledgeDisconnect at h
        split at h
        · cases h
        · refine effects_route hE ?_ (hE.ack _ rfl) h
          exact (frame_checkAndProcessDisconnect _).own.trans hown
    · exact effects_checkAndProcessDisconnect hE (by exact hown) h
  · cases h

theorem effects_broadcastDisconnect (h : e ∈ (c.processBroadcastDisconnect cmd).2) : E e := by
  unfold processBroadcastDisconnect at h
  simp only [List.mem_append, List.mem_singleton] at h
  obtain (rfl | h) | h := h
  · exact hE.carry cmd _ rfl hcmd
  · obtain ⟨fed, _, rfl⟩ := List.mem_map.mp h
    exact hE.carry cmd _ rfl hcmd
  · exact effects_checkAndProcessDisconnect hE (by exact hown) h

theorem effects_searchDependency (h : e ∈ (c.searchDependency cmd).2) : E e := by
  unfold searchDependency at h
  split at h
  · refine effects_routeAll hE hown ?_ h
    intro m hm
    apply hE.dependency
    simp only [List.mem_cons, List.not_mem_nil, or_false] at hm
    obtain rfl | rfl := hm
    · rfl
    · rfl
  · obtain rfl := List.mem_singleton.mp h
    exact hE.carry cmd _ rfl hcmd

theorem effects_pub (h : e ∈ (c.processPub cmd).2) : E e := by
  unfold processPub at h
  split at h
  · refine effects_routeAll hE hown ?_ h
    intro m hm
    obtain ⟨dest, _, rfl⟩ := List.mem_map.mp hm
    exact hE.readdress cmd dest.fedId dest.handle hcmd
  · exact effects_route hE hown hcmd h

theorem effects_error (h : e ∈ (c.processError cmd).2) : E e := by
  unfold processError at h
  split at h
  · dsimp only at h
    split at h
    · obtain ⟨fed, _, rfl⟩ := List.mem_map.mp h
      exact hE.made _ (.inr (.inr (.inl rfl)))
    · cases h
  · exact effects_route hE hown hcmd h

theorem effects_init (h : e ∈ (c.processInit cmd).2) : E e := by
  unfold processInit at h
  split at h
  · cases h
  dsimp only at h
  split at h
  · cases List.mem_append.mp h with
    | inl hc => exact effects_checkDependencies hE (by exact hown) hc
    | inr ht =>
      obtain rfl := List.mem_singleton.mp ht
      rw [hown]
      exact hE.carry _ _ rfl (hE.adopt cmd hcmd)
  · cases h

/-- Everything a command other than a message causes belongs to the class of the command. -/
theorem effects_processCommand
    (hf : isFilterCommand cmd.messageAction = false) (h : e ∈ (c.processCommand cmd).2) : E e := by
  unfold processCommand at h
  split at h
  case h_1 => exact effects_checkAndProcessDisconnect hE hown h
  case h_2 =>
    cases List.mem_append.mp h with
    | inl hs => exact effects_processStop hE hown hs
    | inr hq =>
      obtain rfl := List.mem_singleton.mp hq
      exact hE.made _ trivial
  case h_3 => exact effects_broadcastDisconnect hE hown hcmd h
  case h_4 => exact effects_processStop hE hown h
  case h_5 | h_6 => exact effects_execCommand hE hown hcmd h
  case h_7 | h_8 => exact effects_timeCommand hE hown hcmd h
  case h_9 ha => exact effects_fedDisconnect hE hown hcmd (.inl ha) h
  case h_10 ha => exact effects_fedDisconnect hE hown hcmd (.inr ha) h
  case h_11 => exact effects_coreDisconnectAck hE h
  case h_12 => exact effects_searchDependency hE hown hcmd h
  case h_13 | h_14 | h_15 | h_16 | h_17 | h_18 => exact effects_route hE hown hcmd h
  case h_26 => exact effects_pub hE hown hcmd h
  case h_27 | h_28 =>
    split at h
    · cases h
    · exact effects_route hE hown hcmd h
  case h_29 => exact effects_error hE hown hcmd h
  case h_30 => exact effects_init hE hown hcmd h
  case h_31 => exact effects_initGrant hE hcmd h
  case h_33 => cases h
  all_goals simp_all [isFilterCommand]

end

end

end CommonCore

end Helics
