import Helics.BrokerCommands

namespace Helics

open ForwardingTimeCoordinator Effect

def Effect.grantsExec : Effect → Bool
  | .addActionMessage m => decide (m.messageAction = .cmdExecGrant)
  | _ => false

def NoExecGrant (es : List Effect) : Prop := ∀ e ∈ es, e.grantsExec = false

namespace NoExecGrant

@[simp] theorem nil : NoExecGrant [] := by
  intro e he
  cases he

@[simp] theorem cons_iff : NoExecGrant (e :: es) ↔ e.grantsExec = false ∧ NoExecGrant es := by
  simp [NoExecGrant]

@[simp] theorem append_iff : NoExecGrant (es ++ fs) ↔ NoExecGrant es ∧ NoExecGrant fs := by
  simp [NoExecGrant, or_imp, forall_and]

@[simp] theorem map_transmit (l : List α) (route : α → RouteId) (msg : α → ActionMessage) :
    NoExecGrant (l.map (fun a => .transmit (route a) (msg a))) := by
  intro e he
  obtain ⟨a, _, rfl⟩ := List.mem_map.mp he
  rfl

theorem flatMap {l : List α} (h : ∀ a, NoExecGrant (f a)) :
    NoExecGrant (l.flatMap f) := by
  intro e he
  obtain ⟨a, _, ha⟩ := List.mem_flatMap.mp he
  exact h a e ha

theorem queued_iff : NoExecGrant (queued msgs) ↔ ∀ m ∈ msgs, m.messageAction ≠ .cmdExecGrant := by
  simp [NoExecGrant, queued, grantsExec]

end NoExecGrant

variable (route : RouteId)

@[simp] theorem Effect.grantsExec_transmit (m : ActionMessage) :
    (transmit route m).grantsExec = false := rfl

@[simp] theorem Effect.grantsExec_addRoute (address : String) :
    (addRoute route address).grantsExec = false := rfl

@[simp] theorem Effect.grantsExec_removeRoute : (removeRoute route).grantsExec = false := rfl

@[simp] theorem Effect.grantsExec_stop :
    (addActionMessage { messageAction := .cmdStop }).grantsExec = false := rfl

namespace ForwardingTimeCoordinator

def times (c : ForwardingTimeCoordinator) : Time × Time × Time :=
  (c.timeNext, c.timeMinDe, c.timeMinminDe)

def zeroTimes : Time × Time × Time := (.zero, .zero, .zero)

variable (c : ForwardingTimeCoordinator) (cmd : ActionMessage)

theorem times_processTimeMessage : (c.processTimeMessage cmd).2.times = c.times := by
  unfold processTimeMessage
  split <;> rfl

theorem times_processDependencyUpdateMessage :
    (c.processDependencyUpdateMessage cmd).times = c.times := by
  unfold processDependencyUpdateMessage
  split <;> rfl

theorem times_disconnect : c.disconnect.1.times = c.times := by
  unfold disconnect
  dsimp only
  split
  · exact c.times_processTimeMessage _
  · rfl

theorem times_enteringExecMode : c.enteringExecMode.1.times = c.times := by
  unfold enteringExecMode
  split <;> rfl

theorem dependencies_enteringExecMode : c.enteringExecMode.1.dependencies = c.dependencies := by
  unfold enteringExecMode
  split <;> rfl

theorem dependents_enteringExecMode : c.enteringExecMode.1.dependents = c.dependents := by
  unfold enteringExecMode
  split <;> rfl

variable {c}

theorem disconnect_action (h : m ∈ c.disconnect.2) : m.messageAction = .cmdDisconnect := by
  obtain ⟨fed, _, rfl⟩ := List.mem_map.mp h
  rfl

variable {msg : ActionMessage}

theorem transmitTimingMessage_action
    (ht : msg.messageAction ≠ .cmdTimeRequest) (hg : msg.messageAction ≠ .cmdTimeGrant)
    (h : m ∈ c.transmitTimingMessage msg) : m.messageAction = msg.messageAction := by
  unfold transmitTimingMessage at h
  rw [if_neg (by simp [ht, hg])] at h
  obtain ⟨dep, _, rfl⟩ := List.mem_map.mp h
  rfl

theorem enteringExecMode_action (h : m ∈ c.enteringExecMode.2) :
    m.messageAction = .cmdExecRequest := by
  unfold enteringExecMode at h
  split at h
  · cases h
  · dsimp only at h
    have hm := transmitTimingMessage_action (by simp) (by simp) h
    exact hm

theorem timingMessageFor_action
    (hm : msg.messageAction ≠ .cmdExecGrant) (h : c.timingMessageFor msg dep = some m) :
    m.messageAction ≠ .cmdExecGrant := by
  unfold timingMessageFor at h
  split at h
  · split at h
    · obtain rfl := Option.some.inj h
      unfold generateTimeRequestIgnoreDependency
      dsimp only
      split
      all_goals simp [hm]
    split at h
    · cases h
    · obtain rfl := Option.some.inj h
      exact hm
  · obtain rfl := Option.some.inj h
    exact hm

theorem timeRequestMessage_action (c : ForwardingTimeCoordinator) :
    c.timeRequestMessage.messageAction = .cmdTimeGrant ∨
      c.timeRequestMessage.messageAction = .cmdTimeRequest := by
  unfold timeRequestMessage
  split
  · exact .inl rfl
  · exact .inr rfl

theorem updateTimeFactors_action (h : m ∈ c.updateTimeFactors.2) :
    m.messageAction ≠ .cmdExecGrant := by
  unfold updateTimeFactors at h
  split at h
  · have hreq := c.withTimeFactors.timeRequestMessage_action
    unfold sendTimeRequest transmitTimingMessage at h
    rw [if_pos hreq.symm] at h
    obtain ⟨dep, _, hm⟩ := List.mem_filterMap.mp h
    refine timingMessageFor_action ?_ hm
    rcases hreq with hr | hr
    all_goals simp [hr]
  · cases h

end ForwardingTimeCoordinator

variable [DualMapped String GlobalId]

namespace CoreBroker

structure Keeps (b : CoreBroker) (r : CoreBroker × List Effect) : Prop where
  entered : r.1.enteredExecutionMode = b.enteredExecutionMode
  times : r.1.timeCoord.times = b.timeCoord.times
  noGrant : NoExecGrant r.2
  parked : ∀ dep ∈ b.delayedDependencies, dep ∈ r.1.delayedDependencies

theorem Keeps.sends (h : NoExecGrant es) : Keeps b (b, es) := ⟨rfl, rfl, h, fun _ h => h⟩

theorem Keeps.trans (h : Keeps b r) (h' : Keeps r.1 r') :
    Keeps b (r'.1, r.2 ++ r'.2) :=
  ⟨h'.entered.trans h.entered, h'.times.trans h.times,
    NoExecGrant.append_iff.mpr ⟨h.noGrant, h'.noGrant⟩,
      fun dep hd => h'.parked dep (h.parked dep hd)⟩

theorem Keeps.extend (h : Keeps b r) (hes : NoExecGrant es) :
    Keeps b (r.1, r.2 ++ es) := h.trans (.sends hes)

theorem Keeps.ite [Decidable p] (h : Keeps b r) (h' : Keeps b r') :
    Keeps b (if p then r else r') := by
  split
  · exact h
  · exact h'

variable (b : CoreBroker) (cmd : ActionMessage) (id : GlobalId)

@[simp] theorem noExecGrant_routeMessageTo : NoExecGrant (b.routeMessageTo cmd id) := by
  unfold routeMessageTo
  split
  · simp
  · simp

@[simp] theorem grantsExec_routeMessage : (b.routeMessage cmd).grantsExec = false := rfl

@[simp] theorem noExecGrant_broadcast : NoExecGrant (b.broadcast cmd) := by
  unfold broadcast
  simp

@[simp] theorem noExecGrant_initNotReadyNotice : NoExecGrant b.initNotReadyNotice := by
  unfold initNotReadyNotice
  split
  · simp
  · simp

@[simp] theorem noExecGrant_upward :
    NoExecGrant (if b.isRootc then [] else [.transmit parentRouteId cmd]) := by
  split
  · simp
  · simp

theorem keeps_regFed : Keeps b (b.regFed cmd) := by
  apply Keeps.ite
  · exact ⟨rfl, rfl, .nil, fun _ h => h⟩
  apply Keeps.ite
  · exact .sends (by simp)
  apply Keeps.ite
  · exact .sends (by simp)
  dsimp only [forwardRegistration]
  split
  · exact ⟨rfl, rfl, by simp [acceptFederate], fun _ h => h⟩
  · split
    · exact ⟨rfl, rfl, by simp, fun _ h => h⟩
    · exact ⟨rfl, rfl, by simp, fun _ h => h⟩

theorem keeps_refuseBroker (code : Int) : Keeps b (b.refuseBroker cmd code) := by
  apply Keeps.ite
  · exact ⟨rfl, rfl, by simp, fun _ h => h⟩
  · exact ⟨rfl, rfl, by simp, fun _ h => h⟩

theorem keeps_addBroker (known : DualMapped.Vector String GlobalId BasicBrokerInfo) :
    Keeps b (b.addBroker cmd known) := by
  have hroute : NoExecGrant (if fromNewConnection cmd then
      [.addRoute b.routeCount (cmd.getString targetStringLoc)] else []) := by
    split
    · simp
    · simp
  dsimp only [addBroker, forwardRegistration]
  split
  · exact ⟨rfl, rfl, by simp [acceptBroker, hroute], fun _ h => h⟩
  · split
    · exact ⟨rfl, rfl, by simp [hroute], fun _ h => h⟩
    · exact ⟨rfl, rfl, by simp [hroute], fun _ h => h⟩

theorem keeps_regBroker : Keeps b (b.regBroker cmd) := by
  apply Keeps.ite
  · exact ⟨rfl, rfl, .nil, fun _ h => h⟩
  split
  · exact ⟨rfl, rfl, by simp [resendBrokerAck], fun _ h => h⟩
  apply Keeps.ite
  · exact b.keeps_refuseBroker cmd 5
  have hnotice : Keeps b (b, b.initNotReadyNotice) := .sends (by simp)
  split
  · exact hnotice.trans (b.keeps_refuseBroker cmd 7)
  · exact hnotice.trans (b.keeps_addBroker cmd _)

theorem keeps_processRegistration : Keeps b (b.processRegistration cmd) := by
  unfold processRegistration
  split
  · exact b.keeps_regFed cmd
  · exact b.keeps_regBroker cmd
  · exact .sends .nil

theorem keeps_processAll
    (hf : ∀ b cmd, Keeps b (f b cmd)) (b : CoreBroker) (cmds : List ActionMessage) :
    Keeps b (processAll f b cmds) := by
  induction cmds generalizing b with
  | nil => exact .sends .nil
  | cons cmd cmds ih => exact (hf b cmd).trans (ih _)

theorem keeps_brokerSetup : Keeps b b.brokerSetup := by
  have h := keeps_processAll keeps_processRegistration { b with
    globalBrokerIdLocal := b.globalId
    isRootc := b.isRoot
    timeCoord := { b.timeCoord with sourceId := b.globalId }
    connectionEstablished := true } b.earlyMessages
  exact ⟨h.entered, h.times, h.noGrant, h.parked⟩

theorem keeps_fedAck : Keeps b (b.fedAck cmd) := by
  unfold fedAck
  split
  · exact ⟨rfl, rfl, by simp, fun _ h => h⟩
  · exact ⟨rfl, rfl, .nil, fun _ h => h⟩

theorem keeps_brokerAck : Keeps b (b.brokerAck cmd) := by
  apply Keeps.ite
  · apply Keeps.ite
    · exact .sends .nil
    · exact ⟨rfl, rfl, by simp [ownAck], fun _ h => h⟩
  · split
    · apply Keeps.ite
      · exact .sends .nil
      · exact ⟨rfl, rfl, by simp, fun _ h => h⟩
    · exact ⟨rfl, rfl, .nil, fun _ h => h⟩

theorem keeps_processPriorityCommand : Keeps b (b.processPriorityCommand cmd) := by
  unfold processPriorityCommand
  split
  · exact b.keeps_brokerSetup
  · exact b.keeps_processRegistration cmd
  · exact b.keeps_processRegistration cmd
  · exact b.keeps_fedAck cmd
  · exact b.keeps_brokerAck cmd
  · unfold priorityDisconnect
    dsimp only
    split
    · exact ⟨rfl, rfl, by simp, fun _ h => h⟩
    · exact ⟨rfl, rfl, .nil, fun _ h => h⟩
  · exact .sends .nil

variable (c : ForwardingTimeCoordinator)

omit [DualMapped String GlobalId] in
theorem times_removeAll (l : List BasicBrokerInfo) :
    (l.foldl (fun c brk => (c.removeDependency brk.globalId).removeDependent brk.globalId)
      c).times = c.times := by
  induction l generalizing c with
  | nil => rfl
  | cons brk l ih => exact ih _

omit [DualMapped String GlobalId] in
theorem noExecGrant_disconnect : NoExecGrant (queued c.disconnect.2) := by
  apply NoExecGrant.queued_iff.mpr
  intro m hm
  rw [disconnect_action hm]
  simp

omit [DualMapped String GlobalId] in
theorem noExecGrant_updateTimeFactors : NoExecGrant (queued c.updateTimeFactors.2) := by
  apply NoExecGrant.queued_iff.mpr
  intro m hm
  exact updateTimeFactors_action hm

theorem keeps_sendDisconnect : Keeps b b.sendDisconnect := by
  have hbyes : NoExecGrant ((b.brokers.data.filter b.sendDisconnectTo).flatMap (fun brk =>
      b.routeMessageTo { messageAction := .cmdDisconnect, sourceId := b.globalBrokerIdLocal }
        brk.globalId)) := NoExecGrant.flatMap (fun _ => by simp)
  unfold sendDisconnect
  split
  · refine ⟨rfl, ?_, NoExecGrant.append_iff.mpr ⟨hbyes, noExecGrant_disconnect _⟩, fun _ h => h⟩
    exact (times_disconnect _).trans (times_removeAll _ _)
  · exact ⟨rfl, rfl, hbyes, fun _ h => h⟩

theorem keeps_leave : Keeps b b.leave := b.keeps_sendDisconnect.extend (by simp)

theorem keeps_timeDisconnect : Keeps b b.timeDisconnect :=
  ⟨rfl, b.timeCoord.times_disconnect, noExecGrant_disconnect _, fun _ h => h⟩

theorem noExecGrant_delayedDependencyMessages (dep : String × GlobalId) :
    NoExecGrant (b.delayedDependencyMessages dep) := by
  unfold delayedDependencyMessages
  split
  · simp
  · simp

theorem keeps_bypassRoot (dependent dependency : GlobalId) :
    Keeps b (b.bypassRoot dependent dependency) := by
  unfold bypassRoot
  split
  · exact ⟨rfl, rfl, by simp, fun _ h => h⟩
  · exact ⟨rfl, rfl, by simp, fun _ h => h⟩

theorem keeps_checkDependencies : Keeps b b.checkDependencies := by
  unfold checkDependencies
  split
  · have hdelayed : Keeps b (b, b.delayedDependencies.flatMap b.delayedDependencyMessages) :=
      .sends (NoExecGrant.flatMap b.noExecGrant_delayedDependencyMessages)
    split
    · exact hdelayed.trans (b.keeps_bypassRoot _ _)
    · exact hdelayed
  · split
    · exact .sends .nil
    · split
      · exact ⟨rfl, rfl, by simp [bypassBroker], fun _ h => h⟩
      · exact .sends .nil

theorem keeps_failInitialization : Keeps b b.failInitialization := by
  have h := b.keeps_sendDisconnect
  refine ⟨h.entered, h.times, ?_, h.parked⟩
  simp [failInitialization, h.noGrant, routeMessage]

theorem keeps_setInitRequested (flag : Bool) :
    Keeps b (b.setInitRequested id flag, []) := ⟨rfl, rfl, .nil, fun _ h => h⟩

theorem keeps_processInitNotReady : Keeps b (b.processInitNotReady cmd) := by
  refine ⟨rfl, rfl, ?_, fun _ h => h⟩
  unfold processInitNotReady
  split
  · simp
  · simp

theorem keeps_searchDependency : Keeps b (b.searchDependency cmd) := by
  unfold searchDependency
  split
  · exact .sends (by simp)
  · split
    · exact ⟨rfl, rfl, .nil, fun _ => List.mem_append_left _⟩
    · exact .sends (by simp)

theorem keeps_disconnectBroker (brk : BasicBrokerInfo) : Keeps b (b.disconnectBroker id brk) := by
  unfold disconnectBroker
  dsimp only
  split
  · exact ⟨rfl, rfl, by simp, fun _ h => h⟩
  · exact ⟨rfl, rfl, .nil, fun _ h => h⟩

theorem keeps_lastDisconnect (brk : Option BasicBrokerInfo) :
    Keeps b (b.lastDisconnect id brk) := by
  have h := b.keeps_timeDisconnect
  unfold lastDisconnect
  split
  · split
    · exact ⟨h.entered, h.times, by simp [h.noGrant], h.parked⟩
    · exact h.extend (by simp)
  · exact h.extend (by simp)

theorem keeps_partialDisconnect
    (brk : Option BasicBrokerInfo) : Keeps b (b.partialDisconnect cmd brk) := by
  cases brk with
  | none => exact .sends .nil
  | some brk =>
    have hup : NoExecGrant (if b.isRootc = false ∧ b.brokerState.code < BrokerState.operating.code
        then [transmit parentRouteId
          (cmd.setAction (if brk.core then .cmdDisconnectCore else .cmdDisconnectBroker))]
        else []) := by
      split
      · simp
      · simp
    apply Keeps.ite
    · exact .sends hup
    · exact ⟨rfl, rfl, by simp [hup], fun _ h => h⟩

theorem keeps_departure : Keeps b (b.departure cmd) := by
  apply Keeps.ite
  · exact b.keeps_leave
  have hgone : Keeps b ((b.getBrokerById cmd.sourceId).elim (b, [])
      (b.disconnectBroker cmd.sourceId)) := by
    cases b.getBrokerById cmd.sourceId with
    | none => exact .sends .nil
    | some brk => exact b.keeps_disconnectBroker cmd.sourceId brk
  dsimp only
  split
  · exact hgone.trans (keeps_lastDisconnect _ _ _)
  · exact hgone.trans (keeps_partialDisconnect _ _ _)

theorem keeps_processBrokerDisconnectAck : Keeps b (b.processBrokerDisconnectAck cmd) := by
  apply Keeps.ite
  · have hacks := NoExecGrant.flatMap
      (l := b.brokers.data.filter (fun brk => !brk.sentDisconnectAck))
      (f := fun brk => [.transmit brk.route (b.disconnectAck brk), .removeRoute brk.route])
      (fun _ => by simp)
    exact ⟨rfl, rfl, NoExecGrant.append_iff.mpr ⟨hacks, by simp⟩, fun _ h => h⟩
  · exact .sends .nil

theorem keeps_processFedDisconnect : Keeps b (b.processFedDisconnect cmd) := by
  unfold processFedDisconnect
  dsimp only
  split
  · exact ⟨rfl, rfl, by simp, fun _ h => h⟩
  · split
    · exact ⟨rfl, rfl, by simp, fun _ h => h⟩
    · exact ⟨rfl, rfl, .nil, fun _ h => h⟩

theorem keeps_processStop : Keeps b b.processStop := by
  apply Keeps.ite
  · exact .sends .nil
  · exact b.keeps_timeDisconnect.extend (by simp)

theorem keeps_processDependencyCommand : Keeps b (b.processDependencyCommand cmd) := by
  apply Keeps.ite
  · exact .sends (by simp)
  · exact ⟨rfl, b.timeCoord.times_processDependencyUpdateMessage cmd, .nil, fun _ h => h⟩

theorem noExecGrant_processMessageCommand : NoExecGrant (b.processMessageCommand cmd) := by
  unfold processMessageCommand
  split
  · simp
  · simp

end CoreBroker

end Helics
