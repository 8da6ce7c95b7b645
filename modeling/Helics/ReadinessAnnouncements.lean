import Helics.InitReadiness

namespace Helics

namespace CoreBroker

section
variable [DualMapped String GlobalId]

/-- What a broker that awaits initialization keeps through all commands of that phase. -/
structure SameStatus (b b' : CoreBroker) : Prop where
  id : b'.globalBrokerIdLocal = b.globalBrokerIdLocal
  identifier : b'.identifier = b.identifier
  isRootc : b'.isRootc = b.isRootc
  connected : b'.connectionEstablished = b.connectionEstablished
  brokerState : b'.brokerState = b.brokerState

theorem SameStatus.refl (b : CoreBroker) : SameStatus b b := ⟨rfl, rfl, rfl, rfl, rfl⟩

theorem SameStatus.awaiting (h : SameStatus b b') (hb : Awaiting own b) : Awaiting own b' :=
  ⟨h.id.trans hb.id, h.isRootc.trans hb.notRoot, h.connected.trans hb.connected,
    by rw [h.brokerState]; exact hb.notOperating⟩

variable (b : CoreBroker) (cmd : ActionMessage)

theorem sameStatus_forwardRegistration (registered : Bool) :
    SameStatus b (b.forwardRegistration cmd registered).1 := by
  cases registered with
  | true => exact .refl b
  | false => exact ⟨rfl, rfl, rfl, rfl, rfl⟩

theorem sameStatus_regFed : SameStatus b (b.regFed cmd).1 := by
  unfold regFed
  split
  · exact ⟨rfl, rfl, rfl, rfl, rfl⟩
  split
  · exact .refl b
  split
  · exact .refl b
  split
  · exact ⟨rfl, rfl, rfl, rfl, rfl⟩
  · exact { sameStatus_forwardRegistration _ _ _ with }

theorem sameStatus_refuseBroker (code : Int) : SameStatus b (b.refuseBroker cmd code).1 := by
  unfold refuseBroker
  split
  · exact ⟨rfl, rfl, rfl, rfl, rfl⟩
  · exact .refl b

theorem sameStatus_regBroker : SameStatus b (b.regBroker cmd).1 := by
  unfold regBroker
  split
  · exact ⟨rfl, rfl, rfl, rfl, rfl⟩
  split
  · exact ⟨rfl, rfl, rfl, rfl, rfl⟩
  unfold regNewBroker
  split
  · exact b.sameStatus_refuseBroker cmd 5
  split
  · exact b.sameStatus_refuseBroker cmd 7
  · unfold addBroker
    dsimp only
    split
    · exact ⟨rfl, rfl, rfl, rfl, rfl⟩
    · exact { sameStatus_forwardRegistration _ _ _ with }

theorem sameStatus_processInit {b : CoreBroker} (h : b.isRootc = false) (cmd : ActionMessage) :
    SameStatus b (b.processInit cmd).1 := by
  have hroot : ¬(b.setInitRequested cmd.sourceId true).isRootc = true := by
    rw [show (b.setInitRequested cmd.sourceId true).isRootc = false from h]
    simp
  unfold processInit
  dsimp only
  split
  · dsimp only
    rw [checkDependencies_frame]
    exact ⟨rfl, rfl, rfl, rfl, rfl⟩
  · exact ⟨rfl, rfl, rfl, rfl, rfl⟩

theorem sameStatus_fedAck : SameStatus b (b.fedAck cmd).1 := by
  unfold fedAck
  split
  · exact ⟨rfl, rfl, rfl, rfl, rfl⟩
  · exact ⟨rfl, rfl, rfl, rfl, rfl⟩

variable {cmd} {b}

theorem sameStatus_step (h : Awaiting own b)
    (hcmd : Inbound own b.identifier cmd) : SameStatus b (b.step cmd).1 := by
  obtain ⟨ha | ha | ha | ha, _⟩ | ha | ⟨ha, hn⟩ := hcmd
  · rw [show b.step cmd = b.regFed cmd by
      simp [step, isPriorityCommand, processPriorityCommand, processRegistration, ha]]
    exact b.sameStatus_regFed cmd
  · rw [show b.step cmd = b.regBroker cmd by
      simp [step, isPriorityCommand, processPriorityCommand, processRegistration, ha]]
    exact b.sameStatus_regBroker cmd
  · rw [show b.step cmd = b.processInit cmd by
      simp [step, isPriorityCommand, processCommand, ha]]
    exact sameStatus_processInit h.notRoot cmd
  · rw [show b.step cmd = b.processInitNotReady cmd by
      simp [step, isPriorityCommand, processCommand, ha]]
    exact ⟨rfl, rfl, rfl, rfl, rfl⟩
  · rw [show b.step cmd = b.fedAck cmd by
      simp [step, isPriorityCommand, processPriorityCommand, ha]]
    exact b.sameStatus_fedAck cmd
  · rw [show b.step cmd = b.brokerAck cmd by
      simp [step, isPriorityCommand, processPriorityCommand, ha]]
    unfold brokerAck
    rw [if_neg hn]
    split
    · split
      · exact .refl b
      · exact ⟨rfl, rfl, rfl, rfl, rfl⟩
    · exact ⟨rfl, rfl, rfl, rfl, rfl⟩

theorem awaiting_after (h : Awaiting own b)
    (hcmds : ∀ cmd ∈ cmds, Inbound own b.identifier cmd) : Awaiting own (b.after cmds) := by
  induction cmds generalizing b with
  | nil => exact h
  | cons cmd cmds ih =>
    have hs := sameStatus_step h (hcmds cmd List.mem_cons_self)
    apply ih (hs.awaiting h)
    intro cmd' hcmd'
    rw [hs.identifier]
    exact hcmds cmd' (List.mem_cons_of_mem _ hcmd')

/-- The readiness messages that a broker has sent to its parent, in whose name ever. -/
def readinessMessages (es : List Effect) : List ActionMessage :=
  es.filterMap fun e => match e with
    | .transmit route m =>
      if route = parentRouteId ∧
          (m.messageAction = .cmdInit ∨ m.messageAction = .cmdInitNotReady) then some m
      else none
    | _ => none

def initFlag (p : CoreBroker) (i : Nat) : Option Bool :=
  (p.brokers.data[i]?).map BasicBrokerInfo.initRequested

/-- The parent has an entry for `own` at position `i` that no other identifier leads to and that
has not announced anything. -/
structure HasEntry (p : CoreBroker) (own : GlobalId) (i : Nat) : Prop where
  index : p.brokerIndex own = some i
  unique : ∀ id, p.brokerIndex id = some i → id = own

/-- The search structure and the readiness flags of two brokers agree. -/
structure SameFlags (p p' : CoreBroker) : Prop where
  index : p'.brokerIndex = p.brokerIndex
  flag : ∀ i, p'.initFlag i = p.initFlag i

theorem SameFlags.trans (h : SameFlags p p') (h' : SameFlags p' p'') : SameFlags p p'' :=
  ⟨h'.index.trans h.index, fun i => (h'.flag i).trans (h.flag i)⟩

theorem sameFlags_of_brokers (hb : p'.brokers = p.brokers)
    (hr : p'.isRootc = p.isRootc) : SameFlags p p' := by
  constructor
  · funext id
    unfold brokerIndex
    rw [hb, hr]
  · intro i
    unfold initFlag
    rw [hb]

theorem sameFlags_of_map
    (hg : ∀ brk, (g brk).initRequested = brk.initRequested) (hb : p'.brokers = p.brokers.map g)
    (hr : p'.isRootc = p.isRootc) : SameFlags p p' := by
  constructor
  · funext id
    unfold brokerIndex
    rw [hb, hr]
    simp [DualMapped.Vector.size, DualMapped.data_map, DualMapped.indexOfId_map]
  · intro i
    unfold initFlag
    rw [hb]
    simp [DualMapped.data_map, Function.comp_def, hg]

variable (p : CoreBroker)

theorem sameFlags_checkDependencies : SameFlags p p.checkDependencies.1 := by
  apply sameFlags_of_brokers
  · rw [checkDependencies_frame]
  · rw [checkDependencies_frame]

theorem sameFlags_sendDisconnect : SameFlags p p.sendDisconnect.1 := by
  have hg (brk : BasicBrokerInfo) :
      (if p.sendDisconnectTo brk then { brk with isDisconnected := true } else brk).initRequested =
        brk.initRequested := by
    split <;> rfl
  unfold sendDisconnect
  split
  · exact sameFlags_of_map hg rfl rfl
  · exact sameFlags_of_map hg rfl rfl

theorem sameFlags_processInit (m : ActionMessage) :
    SameFlags (p.setInitRequested m.sourceId true) (p.processInit m).1 := by
  have hchecked := (p.setInitRequested m.sourceId true).sameFlags_checkDependencies
  unfold processInit executeInitializationOperations
  dsimp only
  split
  · split
    · split
      · exact hchecked.trans (sameFlags_sendDisconnect _)
      · exact hchecked.trans (sameFlags_of_brokers rfl rfl)
    · exact hchecked
  · exact sameFlags_of_brokers rfl rfl

theorem brokerIndex_setInitRequested (id : GlobalId) (flag : Bool) :
    (p.setInitRequested id flag).brokerIndex = p.brokerIndex := by
  funext id'
  unfold setInitRequested modifyBrokerById
  cases hi : p.brokerIndex id with
  | none => rfl
  | some i =>
    simp [brokerIndex, DualMapped.Vector.size_modify, DualMapped.indexOfId_modify]

variable {p}

theorem initFlag_setInitRequested (h : HasEntry p own i) (id : GlobalId) (flag : Bool) :
    (p.setInitRequested id flag).initFlag i = if id = own then some flag else p.initFlag i := by
  have hlt := brokerIndex_lt h.index
  unfold setInitRequested modifyBrokerById initFlag
  by_cases hid : id = own
  · rw [if_pos hid, hid, h.index]
    simp [DualMapped.data_modify, hlt]
  rw [if_neg hid]
  cases hi : p.brokerIndex id with
  | none => rfl
  | some j =>
    have hij : j ≠ i := by
      intro hji
      rw [hji] at hi
      exact hid (h.unique id hi)
    simp [DualMapped.data_modify, hij]

theorem initFlag_step (h : HasEntry p own i)
    (hm : m.messageAction = .cmdInit ∨ m.messageAction = .cmdInitNotReady) :
    HasEntry (p.step m).1 own i ∧ (p.step m).1.initFlag i =
      if m.sourceId = own then some (decide (m.messageAction = .cmdInit)) else p.initFlag i := by
  cases hm with
  | inl ha =>
    have hf := p.sameFlags_processInit m
    rw [show p.step m = p.processInit m by simp [step, isPriorityCommand, processCommand, ha]]
    have hidx := hf.index.trans (p.brokerIndex_setInitRequested m.sourceId true)
    refine ⟨⟨by rw [hidx]; exact h.index, by rw [hidx]; exact h.unique⟩, ?_⟩
    rw [hf.flag, initFlag_setInitRequested h, ha]
    rfl
  | inr ha =>
    rw [show p.step m = p.processInitNotReady m by
      simp [step, isPriorityCommand, processCommand, ha]]
    have hidx := p.brokerIndex_setInitRequested m.sourceId false
    refine ⟨⟨hidx ▸ h.index, hidx ▸ h.unique⟩, ?_⟩
    rw [ha]
    exact initFlag_setInitRequested h m.sourceId false

omit [DualMapped String GlobalId] in
theorem readinessMessages_cons (own : GlobalId) (e : Effect) (es : List Effect) :
    (readinessMessages (e :: es) = readinessMessages es ∧ e.announces own = none) ∨
      ∃ m, readinessMessages (e :: es) = m :: readinessMessages es ∧
        (m.messageAction = .cmdInit ∨ m.messageAction = .cmdInitNotReady) ∧
        e.announces own = if m.sourceId = own then some (decide (m.messageAction = .cmdInit))
          else none := by
  cases e with
  | transmit route m =>
    by_cases hr : route = parentRouteId ∧
        (m.messageAction = .cmdInit ∨ m.messageAction = .cmdInitNotReady)
    · refine .inr ⟨m, by simp [readinessMessages, hr], hr.2, ?_⟩
      obtain ⟨hroute, ha | ha⟩ := hr
      · simp [Effect.announces, hroute, ha]
      · simp [Effect.announces, hroute, ha]
    refine .inl ⟨by simp [readinessMessages, hr], ?_⟩
    unfold Effect.announces
    dsimp only
    split
    case isTrue ho =>
      split
      case h_1 ha => exact absurd ⟨ho.1, .inl ha⟩ hr
      case h_2 ha => exact absurd ⟨ho.1, .inr ha⟩ hr
      case h_3 => rfl
    case isFalse => rfl
  | addActionMessage m => exact .inl ⟨rfl, rfl⟩
  | addRoute route address => exact .inl ⟨rfl, rfl⟩
  | removeRoute route => exact .inl ⟨rfl, rfl⟩

/-- The flag that the parent keeps for a child is the last announcement in the child's name. -/
theorem initFlag_after (h : HasEntry p own i) (hflag : p.initFlag i = some f) (es : List Effect) :
    (p.after (readinessMessages es)).initFlag i = some ((announced own es).getD f) := by
  induction es generalizing p f with
  | nil => exact hflag
  | cons e es ih =>
    have hcons : announced own (e :: es) = (announced own es).or (e.announces own) := by
      rw [← List.singleton_append, announced_append, announced_singleton]
    rw [hcons]
    obtain ⟨hr, ha⟩ | ⟨m, hr, hm, ha⟩ := readinessMessages_cons own e es
    · rw [hr, ha, Option.or_none]
      exact ih h hflag
    obtain ⟨hentry, hnew⟩ := initFlag_step h hm
    have hnew' : (p.step m).1.initFlag i = some ((e.announces own).getD f) := by
      rw [hnew, ha, hflag]
      split <;> rfl
    rw [hr]
    have hrest := ih hentry hnew'
    rw [show p.after (m :: readinessMessages es) = (p.step m).1.after (readinessMessages es)
      from rfl, hrest]
    cases announced own es with
    | none => rfl
    | some a => rfl

/-- The last announcement is truthful, and so is the flag that a parent derives from it. -/
def Truthful (own : GlobalId) (sent : List Effect) (b : CoreBroker) : Prop :=
  announcedInit own sent = b.allInitReady ∧
    ∀ p i, HasEntry p own i → p.initFlag i = some false →
      (p.after (readinessMessages sent)).initFlag i = some b.allInitReady

theorem truthful_iff : Truthful own sent b ↔ announcedInit own sent = b.allInitReady := by
  constructor
  · intro h
    exact h.1
  · intro h
    refine ⟨h, ?_⟩
    intro p i hp hflag
    rw [initFlag_after hp hflag sent, ← h]
    rfl

/-- Below the root, the readiness last announced to the parent is truthful after every command
of a child exactly when every such command meets the condition on the state before it. -/
theorem announcements_truthful_iff (own : GlobalId) (b : CoreBroker) (h : Awaiting own b)
    (sent : List Effect) (cmds : List ActionMessage)
    (hcmds : ∀ cmd ∈ cmds, Inbound own b.identifier cmd) :
    (∀ pre cmd post, cmds = pre ++ cmd :: post → FromChild own cmd →
      Truthful own (sent ++ b.sentDuring (pre ++ [cmd])) (b.after (pre ++ [cmd]))) ↔
    ∀ pre cmd post, cmds = pre ++ cmd :: post → FromChild own cmd →
      AnnouncesTruth (b.after pre) (announcedInit own (sent ++ b.sentDuring pre)) cmd := by
  have hstep (pre cmd post) (heq : cmds = pre ++ cmd :: post) (hc : FromChild own cmd) :
      Truthful own (sent ++ b.sentDuring (pre ++ [cmd])) (b.after (pre ++ [cmd])) ↔
        AnnouncesTruth (b.after pre) (announcedInit own (sent ++ b.sentDuring pre)) cmd := by
    have hpre : Awaiting own (b.after pre) := by
      apply awaiting_after h
      intro cmd' hcmd'
      apply hcmds
      rw [heq]
      exact List.mem_append_left _ hcmd'
    rw [truthful_iff, sentDuring, after, processAll_concat, ← List.append_assoc]
    exact truth_step_iff hpre hc _
  constructor
  · intro ht pre cmd post heq hc
    exact (hstep pre cmd post heq hc).mp (ht pre cmd post heq hc)
  · intro ht pre cmd post heq hc
    exact (hstep pre cmd post heq hc).mpr (ht pre cmd post heq hc)

end

attribute [local instance] DualMapped.listVectors

def brokerWithCore : CoreBroker :=
  after { identifier := "sub", brokerState := .connected }
    [{ messageAction := .cmdBrokerSetup },
      { messageAction := .cmdBrokerAck, payload := "sub", sourceId := 1, destId := 1879048192 },
      { messageAction := .cmdRegBroker, payload := "core", sourceId := invalidGlobalId,
        flags := 8 },
      { messageAction := .cmdBrokerAck, payload := "core", sourceId := 1, destId := 1879048193 },
      { messageAction := .cmdRegFed, payload := "fed1", sourceId := 1879048193 },
      { messageAction := .cmdFedAck, payload := "fed1", sourceId := 1, destId := 131072 }]

def coreInit : ActionMessage := { messageAction := .cmdInit, sourceId := 1879048193 }

def lateFederate : ActionMessage :=
  { messageAction := .cmdRegFed, payload := "fed2", sourceId := 1879048193 }

theorem awaiting_brokerWithCore : Awaiting 1879048192 brokerWithCore :=
  ⟨by decide +kernel, by decide +kernel, by decide +kernel, by decide +kernel⟩

/-- A second federate makes the broker retract its readiness, although it stays ready. -/
theorem readiness_retracted_while_ready :
    Awaiting 1879048192 brokerWithCore ∧ FromChild 1879048192 coreInit ∧
      FromChild 1879048192 lateFederate ∧
      Truthful 1879048192 (brokerWithCore.sentDuring [coreInit]) (brokerWithCore.after [coreInit]) ∧
      (brokerWithCore.after [coreInit, lateFederate]).allInitReady = true ∧
      ¬Truthful 1879048192 (brokerWithCore.sentDuring [coreInit, lateFederate])
        (brokerWithCore.after [coreInit, lateFederate]) := by
  rw [truthful_iff, truthful_iff]
  exact ⟨awaiting_brokerWithCore, by decide, by decide, by decide +kernel, by decide +kernel,
    by decide +kernel⟩

theorem announcements_truthful_of_coreInit :
    Awaiting 1879048192 brokerWithCore ∧ Inbound 1879048192 brokerWithCore.identifier coreInit ∧
      Truthful 1879048192 (brokerWithCore.sentDuring [coreInit])
        (brokerWithCore.after [coreInit]) := by
  have hin : Inbound 1879048192 brokerWithCore.identifier coreInit := .inl (by decide)
  refine ⟨awaiting_brokerWithCore, hin, ?_⟩
  have hiff := announcements_truthful_iff 1879048192 brokerWithCore awaiting_brokerWithCore []
    [coreInit] (by simpa using hin)
  refine hiff.mpr ?_ [] coreInit [] rfl (by decide)
  intro pre cmd post heq _
  cases pre with
  | nil =>
    obtain ⟨rfl, _⟩ := List.cons.inj heq
    exact .inr rfl
  | cons x pre => simp at heq

end CoreBroker

end Helics
