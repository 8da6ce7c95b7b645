import Helics.ExecGrants
import Helics.TimeGraph

namespace Helics

open CoreBroker Effect

section
variable [DualMapped String GlobalId]

namespace CoreBroker

variable {b : CoreBroker}

section
variable (h : dep ∈ b.delayedDependencies) (cmd : ActionMessage)
include h

theorem mem_delayed_processInit : dep ∈ (b.processInit cmd).1.delayedDependencies := by
  have hchecked := (b.keeps_setInitRequested cmd.sourceId true).trans (keeps_checkDependencies _)
  unfold processInit
  dsimp only
  split
  · split
    · unfold executeInitializationOperations
      dsimp only
      split
      · exact (hchecked.trans (keeps_failInitialization _)).parked dep h
      · exact hchecked.parked dep h
    · exact hchecked.parked dep h
  · exact h

theorem mem_delayed_processDisconnect : dep ∈ (b.processDisconnect cmd).1.delayedDependencies := by
  unfold processDisconnect
  split
  · split
    · unfold disconnectDependency
      split
      · dsimp only
        split
        · split <;> exact h
        · exact h
      · exact h
    · split
      · exact (b.keeps_departure cmd).parked dep h
      · exact h
  · split
    · exact (b.keeps_disconnectBroker cmd.sourceId _).parked dep h
    · exact h
  · split
    · exact (b.keeps_disconnectBroker cmd.sourceId _).parked dep h
    · exact h
  · exact h

theorem mem_delayed_processExecCommand :
    dep ∈ (b.processExecCommand cmd).1.delayedDependencies := by
  unfold processExecCommand
  split
  · split <;> exact h
  · split <;> exact h

theorem mem_delayed_processTimeCommand :
    dep ∈ (b.processTimeCommand cmd).1.delayedDependencies := by
  unfold processTimeCommand
  split
  · exact h
  split
  · dsimp only
    split <;> exact h
  · exact h

theorem mem_delayed_processCommand : dep ∈ (b.processCommand cmd).1.delayedDependencies := by
  unfold processCommand
  split
  case h_2 | h_3 => exact b.keeps_sendDisconnect.parked dep h
  case h_4 => exact mem_delayed_processInit h cmd
  case h_7 => exact (b.keeps_searchDependency cmd).parked dep h
  case h_8 => exact mem_delayed_processDisconnect h _
  case h_9 | h_10 | h_11 => exact mem_delayed_processDisconnect h cmd
  case h_12 => exact (b.keeps_processBrokerDisconnectAck cmd).parked dep h
  case h_13 => exact (b.keeps_processFedDisconnect cmd).parked dep h
  case h_14 => exact b.keeps_processStop.parked dep h
  case h_16 | h_17 => exact mem_delayed_processExecCommand h cmd
  case h_18 | h_19 => exact mem_delayed_processTimeCommand h cmd
  case h_28 | h_29 | h_30 | h_31 | h_32 | h_33 =>
    exact (b.keeps_processDependencyCommand cmd).parked dep h
  all_goals exact h

theorem mem_delayed_step : dep ∈ (b.step cmd).1.delayedDependencies := by
  unfold step
  split
  · exact (b.keeps_processPriorityCommand cmd).parked dep h
  · exact mem_delayed_processCommand h cmd

theorem mem_delayed_after (cmds : List ActionMessage) :
    dep ∈ (b.after cmds).delayedDependencies := by
  induction cmds generalizing b with
  | nil => exact h
  | cons cmd cmds ih => exact ih (mem_delayed_step h cmd)

end

theorem delayed_sent_at_initialization (hroot : b.isRootc = true)
    (h : dep ∈ b.delayedDependencies) :
    b.delayedDependencyMessages dep <:+: b.executeInitializationOperations.2 := by
  have hall : b.delayedDependencyMessages dep <:+:
      b.delayedDependencies.flatMap b.delayedDependencyMessages := by
    obtain ⟨l, r, hlr⟩ := List.append_of_mem h
    rw [hlr]
    exact ⟨l.flatMap b.delayedDependencyMessages, r.flatMap b.delayedDependencyMessages, by simp⟩
  have hcheck : b.delayedDependencies.flatMap b.delayedDependencyMessages <+:
      b.checkDependencies.2 := by
    unfold checkDependencies
    rw [if_pos hroot]
    split
    · exact List.prefix_append _ _
    · exact List.prefix_refl _
  exact hall.trans (hcheck.isInfix.trans (List.prefix_append _ _).isInfix)

end CoreBroker

def searchRequest (fed : GlobalId) (target : String) : ActionMessage :=
  { messageAction := .cmdSearchDependency, sourceId := fed, payload := target }

def dependencyPair (fed target : GlobalId) : List ActionMessage :=
  [{ messageAction := .cmdAddDependency, sourceId := target, destId := fed },
    { messageAction := .cmdAddDependent, sourceId := fed, destId := target }]

def CommonCore.knownFederate (c : CommonCore) (target : String) : Option GlobalId :=
  ((c.loopFederates.findName target).filter
    (fun fed => decide (fed.globalId ≠ invalidGlobalId))).map LoopFederate.globalId

def CoreBroker.knownFederate (b : CoreBroker) (target : String) : Option GlobalId :=
  ((b.federates.findName target).filter
    (fun fed => decide (fed.globalId ≠ invalidGlobalId))).map BasicFedInfo.globalId

/-- The way of a request: its core and the brokers above it as they are when the request reaches
them, and what the root handles between the request and initialization. -/
structure SearchPath where
  core : CommonCore
  brokers : List CoreBroker
  root : CoreBroker
  later : List ActionMessage

namespace SearchPath

/-- The identifier of the target at the first member of the path that can answer. -/
def knownOnTheWay (p : SearchPath) (target : String) : Option GlobalId :=
  ((p.core.knownFederate target).or
    (p.brokers.findSome? (·.knownFederate target))).or (p.root.knownFederate target)

def initial (p : SearchPath) (fed : GlobalId) (target : String) : CoreBroker :=
  (p.root.step (searchRequest fed target)).1.after p.later

def sentByBrokers (cmd : ActionMessage) : List CoreBroker → Option (List ActionMessage)
  | [] => none
  | b :: bs =>
    if transmit parentRouteId cmd ∈ (b.step cmd).2 then sentByBrokers cmd bs
    else some ((b.step cmd).2.filterMap dependencyCommand)

def sentByRoot (p : SearchPath) (fed : GlobalId) (target : String) : List ActionMessage :=
  let res := p.root.step (searchRequest fed target)
  if res.1.delayedDependencies = p.root.delayedDependencies then
    res.2.filterMap dependencyCommand
  else ((p.initial fed target).delayedDependencyMessages (target, fed)).filterMap
    dependencyCommand

def sentFor (p : SearchPath) (fed : GlobalId) (target : String) : List ActionMessage :=
  let cmd := searchRequest fed target
  if CoreEffect.transmit parentRouteId cmd ∈ (p.core.step cmd).2 then
    (sentByBrokers cmd p.brokers).getD (p.sentByRoot fed target)
  else (p.core.step cmd).2.filterMap CoreEffect.dependencyCommand

/-- The identifier of the target where the request is settled, at the latest at initialization. -/
def settledTarget (p : SearchPath) (fed : GlobalId) (target : String) : Option GlobalId :=
  (p.knownOnTheWay target).or
    (((p.initial fed target).federates.findName target).map BasicFedInfo.globalId)

/-- The request is settled by exactly the pair of commands that has its direction. -/
def KeepsDirection (p : SearchPath) (fed : GlobalId) (target : String) : Prop :=
  p.sentFor fed target = (p.settledTarget fed target).elim [] (dependencyPair fed)

structure WellFormed (p : SearchPath) (fed : GlobalId) (target : String) : Prop where
  requester : fed ≠ p.core.globalBrokerIdLocal
  federates : ∀ f ∈ p.core.loopFederates.data, f.globalId ≠ p.core.globalBrokerIdLocal
  inner : ∀ b ∈ p.brokers, b.isRootc = false
  root : p.root.isRootc = true
  still : (p.initial fed target).isRootc = true

end SearchPath

namespace CommonCore

theorem route_dependency (c : CommonCore) (cmd : ActionMessage) (moved : Bool)
    (hd : isDependencyCommand cmd.messageAction = true)
    (hown : cmd.destId ≠ c.globalBrokerIdLocal) :
    ∃ e, c.route cmd moved = (c, [e]) ∧ e.dependencyCommand = some cmd := by
  unfold route
  split
  · exact ⟨_, rfl, if_pos hd⟩
  split
  · unfold toFederate
    split
    · exact ⟨_, rfl, if_pos hd⟩
    · exact ⟨_, rfl, if_pos hd⟩
  · exact ⟨_, rfl, if_pos hd⟩

theorem mem_of_knownFederate {c : CommonCore} (h : c.knownFederate target = some known) :
    ∃ f ∈ c.loopFederates.data, f.globalId = known := by
  obtain ⟨f, hf, hid⟩ := Option.map_eq_some_iff.mp h
  obtain ⟨hf, _⟩ := Option.filter_eq_some_iff.mp hf
  obtain ⟨i, _, hi⟩ := Option.bind_eq_some_iff.mp hf
  exact ⟨f, List.mem_of_getElem? hi, hid⟩

theorem step_searchRequest_known {c : CommonCore} (hfed : fed ≠ c.globalBrokerIdLocal)
    (hfeds : ∀ f ∈ c.loopFederates.data, f.globalId ≠ c.globalBrokerIdLocal)
    (h : c.knownFederate target = some known) :
    CoreEffect.transmit parentRouteId (searchRequest fed target) ∉
        (c.step (searchRequest fed target)).2 ∧
      (c.step (searchRequest fed target)).2.filterMap CoreEffect.dependencyCommand =
        dependencyPair fed known := by
  obtain ⟨f, hf, rfl⟩ := mem_of_knownFederate h
  obtain ⟨f', hf', hid⟩ := Option.map_eq_some_iff.mp h
  have hstep : c.step (searchRequest fed target) = c.routeAll (dependencyPair fed f.globalId) := by
    change c.searchDependency (searchRequest fed target) = _
    unfold searchDependency
    rw [show (searchRequest fed target).name = target from rfl, hf']
    dsimp only
    rw [hid]
    rfl
  obtain ⟨e, he, hcmd⟩ := c.route_dependency
    { messageAction := .cmdAddDependency, sourceId := f.globalId, destId := fed } false rfl hfed
  obtain ⟨e', he', hcmd'⟩ := c.route_dependency
    { messageAction := .cmdAddDependent, sourceId := fed, destId := f.globalId } false rfl
    (hfeds f hf)
  have heffects : (c.step (searchRequest fed target)).2 = [e, e'] := by
    rw [hstep]
    simp [dependencyPair, routeAll, routeMessage, he, he']
  rw [heffects]
  constructor
  · intro hmem
    rcases List.mem_cons.mp hmem with heq | hmem
    · rw [← heq] at hcmd
      cases hcmd
    · rw [← List.mem_singleton.mp hmem] at hcmd'
      cases hcmd'
  · simp [hcmd, hcmd', dependencyPair]

theorem step_searchRequest_unknown {c : CommonCore} (h : c.knownFederate target = none) :
    (c.step (searchRequest fed target)).2 =
      [.transmit parentRouteId (searchRequest fed target)] := by
  change (c.searchDependency (searchRequest fed target)).2 = _
  unfold searchDependency
  rw [show (searchRequest fed target).name = target from rfl, Option.map_eq_none_iff.mp h]

end CommonCore

namespace CoreBroker

theorem step_searchRequest_known {b : CoreBroker} (h : b.knownFederate target = some known) :
    b.step (searchRequest fed target) = (b, (dependencyPair fed known).map b.routeMessage) := by
  obtain ⟨f, hf, hid⟩ := Option.map_eq_some_iff.mp h
  change b.searchDependency (searchRequest fed target) = _
  unfold searchDependency
  rw [show (searchRequest fed target).name = target from rfl, hf]
  dsimp only
  rw [hid]
  rfl

theorem step_searchRequest_unknown {b : CoreBroker} (h : b.knownFederate target = none) :
    b.step (searchRequest fed target) = if b.isRootc then
        ({ b with delayedDependencies := b.delayedDependencies ++ [(target, fed)] }, [])
      else (b, [.transmit parentRouteId (searchRequest fed target)]) := by
  change b.searchDependency (searchRequest fed target) = _
  unfold searchDependency
  rw [show (searchRequest fed target).name = target from rfl, Option.map_eq_none_iff.mp h]
  rfl

theorem dependencyCommand_pair (b : CoreBroker) (fed known : GlobalId) :
    ((dependencyPair fed known).map b.routeMessage).filterMap dependencyCommand =
      dependencyPair fed known := by
  simp [dependencyPair, routeMessage, dependencyCommand, isDependencyCommand]

theorem dependencyCommand_delayed (b : CoreBroker) (target : String) (fed : GlobalId) :
    (b.delayedDependencyMessages (target, fed)).filterMap dependencyCommand =
      ((b.federates.findName target).map BasicFedInfo.globalId).elim []
        (fun known => dependencyPair known fed) := by
  unfold delayedDependencyMessages
  cases b.federates.findName target with
  | none => rfl
  | some f => rfl

end CoreBroker

omit [DualMapped String GlobalId] in
theorem dependencyPair_comm_iff : dependencyPair known fed = dependencyPair fed known ↔
    known = fed := by
  constructor
  · intro h
    have hhead := (List.cons.inj h).1
    exact congrArg ActionMessage.destId hhead
  · rintro rfl
    rfl

namespace SearchPath

theorem sentByBrokers_eq {brokers : List CoreBroker} (h : ∀ b ∈ brokers, b.isRootc = false) :
    sentByBrokers (searchRequest fed target) brokers =
      (brokers.findSome? (·.knownFederate target)).map (dependencyPair fed) := by
  induction brokers with
  | nil => rfl
  | cons b bs ih =>
    have hinner := h b List.mem_cons_self
    rw [sentByBrokers, List.findSome?_cons]
    cases hk : b.knownFederate target with
    | none =>
      rw [step_searchRequest_unknown hk, hinner]
      rw [if_neg Bool.false_ne_true, if_pos List.mem_cons_self]
      exact ih (fun b' hb' => h b' (List.mem_cons_of_mem _ hb'))
    | some known =>
      rw [step_searchRequest_known hk]
      rw [if_neg, dependencyCommand_pair]
      · rfl
      · intro hmem
        obtain ⟨m, hm, heq⟩ := List.mem_map.mp hmem
        have haction : m.messageAction = .cmdSearchDependency :=
          congrArg ActionMessage.messageAction (transmit.inj heq).2
        rcases List.mem_cons.mp hm with rfl | hm
        · cases haction
        · rw [List.mem_singleton.mp hm] at haction
          cases haction

theorem sentByRoot_eq {p : SearchPath} (h : p.root.isRootc = true) :
    p.sentByRoot fed target = match p.root.knownFederate target with
      | some known => dependencyPair fed known
      | none => (((p.initial fed target).federates.findName target).map
        BasicFedInfo.globalId).elim []
          (fun known => dependencyPair known fed) := by
  unfold sentByRoot
  cases hk : p.root.knownFederate target with
  | some known =>
    rw [step_searchRequest_known hk]
    rw [if_pos rfl, dependencyCommand_pair]
  | none =>
    rw [if_neg, dependencyCommand_delayed]
    rw [step_searchRequest_unknown hk, if_pos h]
    simp

theorem sentFor_eq {p : SearchPath} (h : p.WellFormed fed target) :
    p.sentFor fed target = match p.knownOnTheWay target with
      | some known => dependencyPair fed known
      | none => (((p.initial fed target).federates.findName target).map
        BasicFedInfo.globalId).elim []
          (fun known => dependencyPair known fed) := by
  unfold sentFor knownOnTheWay
  dsimp only
  cases hk : p.core.knownFederate target with
  | some known =>
    obtain ⟨hnot, hsent⟩ := CommonCore.step_searchRequest_known h.requester h.federates hk
    rw [if_neg hnot, hsent]
    rfl
  | none =>
    rw [CommonCore.step_searchRequest_unknown hk, if_pos List.mem_cons_self,
      sentByBrokers_eq h.inner]
    cases hb : p.brokers.findSome? (·.knownFederate target) with
    | some known => rfl
    | none => exact sentByRoot_eq h.root

/-- A request keeps its direction exactly if it is answered on its way, or the target is still
unknown at initialization, or the federate asked for itself; a parked request is answered at
initialization. -/
theorem search_direction_iff (p : SearchPath) (fed : GlobalId) (target : String)
    (h : p.WellFormed fed target) : (p.KeepsDirection fed target ↔ (p.knownOnTheWay target = none →
        ∀ f, (p.initial fed target).federates.findName target = some f → f.globalId = fed)) ∧
    (p.knownOnTheWay target = none →
      (p.initial fed target).delayedDependencyMessages (target, fed) <:+:
        (p.initial fed target).executeInitializationOperations.2) := by
  constructor
  · unfold KeepsDirection settledTarget
    rw [sentFor_eq h]
    cases p.knownOnTheWay target with
    | some known =>
      apply iff_of_true
      · rfl
      · intro hnone
        cases hnone
    | none =>
      cases (p.initial fed target).federates.findName target with
      | none =>
        apply iff_of_true
        · rfl
        · intro _ f hf
          cases hf
      | some f =>
        constructor
        · intro hpair _ f' hf'
          obtain rfl := Option.some.inj hf'
          exact dependencyPair_comm_iff.mp hpair
        · intro hself
          exact dependencyPair_comm_iff.mpr (hself rfl f rfl)
  · intro hnone
    apply delayed_sent_at_initialization h.still
    apply mem_delayed_after
    have hroot : p.root.knownFederate target = none := (Option.or_eq_none_iff.mp hnone).2
    rw [step_searchRequest_unknown hroot, if_pos h.root]
    exact List.mem_append_right _ List.mem_cons_self

end SearchPath

end

namespace SearchPath

attribute [local instance] DualMapped.listVectors

def requestingCore : CommonCore where
  globalBrokerIdLocal := 1879048193
  higherBrokerId := 1
  loopFederates := DualMapped.Vector.empty.add "f" (some 131072)
    { name := "f", globalId := 131072 }

def rootOfRequest : CoreBroker where
  globalBrokerIdLocal := 1
  isRootc := true
  connectionEstablished := true
  federates := DualMapped.Vector.empty.add "f" (some 131072)
    { name := "f", globalId := 131072, route := 1 }
  routingTable := [(131072, 1)]

def lateTarget : ActionMessage :=
  { messageAction := .cmdRegFed, sourceId := 1879048194, payload := "g" }

theorem search_direction_of_known :
    SearchPath.WellFormed ⟨requestingCore, [], rootOfRequest.after [lateTarget], []⟩ 131072 "g" ∧
      SearchPath.KeepsDirection ⟨requestingCore, [], rootOfRequest.after [lateTarget], []⟩
        131072 "g" := by
  have h : SearchPath.WellFormed ⟨requestingCore, [], rootOfRequest.after [lateTarget], []⟩
      131072 "g" :=
    ⟨by decide, by decide, List.forall_mem_nil _, by decide +kernel, by decide +kernel⟩
  have hknown : knownOnTheWay ⟨requestingCore, [], rootOfRequest.after [lateTarget], []⟩ "g" =
      some 131073 := by decide +kernel
  refine ⟨h, (search_direction_iff _ 131072 "g" h).1.mpr ?_⟩
  rw [hknown]
  intro hnone
  cases hnone

/-- For a target that registers after the request the two federates change places. -/
theorem late_target_reverses_direction :
    SearchPath.WellFormed ⟨requestingCore, [], rootOfRequest, [lateTarget]⟩ 131072 "g" ∧
      SearchPath.sentFor ⟨requestingCore, [], rootOfRequest, [lateTarget]⟩ 131072 "g" =
        [{ messageAction := .cmdAddDependency, sourceId := 131072, destId := 131073 },
          { messageAction := .cmdAddDependent, sourceId := 131073, destId := 131072 }] ∧
      ¬ SearchPath.KeepsDirection ⟨requestingCore, [], rootOfRequest, [lateTarget]⟩ 131072 "g" := by
  refine ⟨⟨by decide, by decide, List.forall_mem_nil _, rfl, by decide +kernel⟩,
    by decide +kernel, ?_⟩
  unfold KeepsDirection
  decide +kernel

end SearchPath

end Helics
