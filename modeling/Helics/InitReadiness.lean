import Helics.BrokerCommands

namespace Helics

open BasicBrokerInfo Effect

/-- The readiness a message to the parent announces in the name of `own`. -/
def Effect.announces (own : GlobalId) : Effect → Option Bool
  | .transmit route m =>
    if route = parentRouteId ∧ m.sourceId = own then
      match m.messageAction with
      | .cmdInit => some true
      | .cmdInitNotReady => some false
      | _ => none
    else none
  | _ => none

def announced (own : GlobalId) (es : List Effect) : Option Bool :=
  (es.filterMap (announces own)).getLast?

theorem announced_nil (own : GlobalId) : announced own [] = none := rfl

theorem announced_append (own : GlobalId) (es fs : List Effect) :
    announced own (es ++ fs) = (announced own fs).or (announced own es) := by
  rw [announced, List.filterMap_append, List.getLast?_append]
  rfl

theorem announced_of_silent (h : ∀ e ∈ es, e.announces own = none) :
    announced own es = none := by
  rw [announced, List.filterMap_eq_nil_iff.mpr h]
  rfl

theorem announced_singleton (own : GlobalId) (e : Effect) :
    announced own [e] = e.announces own := by
  cases h : e.announces own with
  | none => simp [announced, h]
  | some a => simp [announced, h]

def announcedInit (own : GlobalId) (es : List Effect) : Bool := (announced own es).getD false

theorem announcedInit_append (own : GlobalId) (es fs : List Effect) :
    announcedInit own (es ++ fs) = (announced own fs).getD (announcedInit own es) := by
  rw [announcedInit, announced_append]
  cases announced own fs with
  | none => rfl
  | some a => rfl

@[simp] theorem Effect.announces_transmit_of_action
    (hi : m.messageAction ≠ .cmdInit) (hn : m.messageAction ≠ .cmdInitNotReady) (route : RouteId) :
    (transmit route m).announces own = none := by
  unfold announces
  dsimp only
  split
  · split
    · exact absurd ‹_› hi
    · exact absurd ‹_› hn
    · rfl
  · rfl

variable [DualMapped String GlobalId]

namespace CoreBroker

def readyWithCounts (b : CoreBroker) (federates brokers : Nat) : Bool :=
  decide (b.minFederateCount ≤ federates) && decide (b.minBrokerCount ≤ brokers) &&
    b.brokers.data.all initReady

theorem allInitReady_eq (b : CoreBroker) :
    b.allInitReady = b.readyWithCounts b.federates.size b.brokers.size := rfl

variable {b : CoreBroker}

theorem readyWithCounts_mono (h : b.readyWithCounts m n = true) (hm : m ≤ m')
    (hn : n ≤ n') : b.readyWithCounts m' n' = true := by
  simp only [readyWithCounts, Bool.and_eq_true, decide_eq_true_eq] at h ⊢
  exact ⟨⟨by omega, by omega⟩, h.2⟩

def isDirectChild (b : CoreBroker) (id : GlobalId) : Bool :=
  (b.getBrokerById id).any (fun brk => !brk.nonLocal)

structure Awaiting (own : GlobalId) (b : CoreBroker) : Prop where
  id : b.globalBrokerIdLocal = own
  notRoot : b.isRootc = false
  connected : b.connectionEstablished = true
  notOperating : b.brokerState ≠ .operating

/-- The commands that children send before the initialization grant. -/
def FromChild (own : GlobalId) (cmd : ActionMessage) : Prop :=
  (cmd.messageAction = .cmdRegFed ∨ cmd.messageAction = .cmdRegBroker ∨
    cmd.messageAction = .cmdInit ∨ cmd.messageAction = .cmdInitNotReady) ∧
    (cmd.messageAction = .cmdInitNotReady → cmd.sourceId ≠ own)

instance (own : GlobalId) (cmd : ActionMessage) : Decidable (FromChild own cmd) := by
  unfold FromChild
  infer_instance

/-- Commands of children, and acknowledgements the parent passes down for them. -/
def Inbound (own : GlobalId) (identifier : String) (cmd : ActionMessage) : Prop :=
  FromChild own cmd ∨ cmd.messageAction = .cmdFedAck ∨
    (cmd.messageAction = .cmdBrokerAck ∧ cmd.name ≠ identifier)

/-- When a command of a child leaves the last announcement, which was `a`, truthful. -/
def AnnouncesTruth (b : CoreBroker) (a : Bool) (cmd : ActionMessage) : Prop :=
  match cmd.messageAction with
  | .cmdRegFed =>
    b.allInitReady = false ∧
      a = (!(b.federates.indexOfName cmd.name).isSome &&
        b.readyWithCounts (b.federates.size + 1) b.brokers.size)
  | .cmdRegBroker =>
    if (b.brokers.indexOfName cmd.name).isSome then
      if 0 < cmd.counter then a = b.allInitReady else b.allInitReady = false ∧ a = false
    else if fromNewConnection cmd then b.allInitReady = true ∨ a = false
    else b.allInitReady = false ∧ a = b.readyWithCounts b.federates.size (b.brokers.size + 1)
  | .cmdInit => (b.setInitRequested cmd.sourceId true).allInitReady = true ∨ a = false
  | .cmdInitNotReady => a = (b.allInitReady && !b.isDirectChild cmd.sourceId)
  | _ => True

theorem announced_initNotReadyNotice (h : b.globalBrokerIdLocal = own) :
    announced own b.initNotReadyNotice = if b.allInitReady then some false else none := by
  unfold initNotReadyNotice
  split
  · rw [announced_singleton]
    simp [announces, h]
  · rfl

theorem announced_notice_append (h : b.globalBrokerIdLocal = own)
    (hs : ∀ e ∈ es, e.announces own = none) :
    announced own (b.initNotReadyNotice ++ es) = if b.allInitReady then some false else none := by
  rw [announced_append, announced_of_silent hs, announced_initNotReadyNotice h]
  rfl

theorem silent_forwardRegistration
    (hi : cmd.messageAction ≠ .cmdInit) (hn : cmd.messageAction ≠ .cmdInitNotReady)
    (h : e ∈ (b.forwardRegistration cmd registered).2) : e.announces own = none := by
  cases registered with
  | true =>
    obtain rfl := List.mem_singleton.mp h
    exact announces_transmit_of_action
      (m := { cmd with sourceId := b.globalBrokerIdLocal }) hi hn _
  | false => cases h

theorem allInitReady_forwardRegistration (b : CoreBroker) (cmd : ActionMessage)
    (registered : Bool) :
    (b.forwardRegistration cmd registered).1.allInitReady = b.allInitReady := by
  cases registered with
  | true => rfl
  | false => rfl

theorem regFed_readiness (h : Awaiting own b) (hcmd : cmd.messageAction = .cmdRegFed) :
    announced own (b.regFed cmd).2 = (if b.allInitReady then some false else none) ∧
      (b.regFed cmd).1.allInitReady =
        (if (b.federates.indexOfName cmd.name).isSome then b.allInitReady
          else b.readyWithCounts (b.federates.size + 1) b.brokers.size) := by
  unfold regFed
  rw [if_neg (by simp [h.connected]), if_neg h.notOperating]
  split
  · refine ⟨announced_notice_append h.id ?_, rfl⟩
    intro e he
    obtain rfl := List.mem_singleton.mp he
    exact announces_transmit_of_action (by simp [errorAck]) (by simp [errorAck]) _
  dsimp only
  rw [if_neg (by simp [h.notRoot])]
  constructor
  · apply announced_notice_append h.id
    intro e he
    exact silent_forwardRegistration (by simp [hcmd]) (by simp [hcmd]) he
  · have hnew := Bool.eq_false_iff.mpr ‹_›
    rw [allInitReady_forwardRegistration, allInitReady_eq, DualMapped.Vector.size_add hnew]
    rfl

theorem addBroker_readiness (h : Awaiting own b) (hcmd : cmd.messageAction = .cmdRegBroker)
    (hins : b.brokers.insert cmd.name none (b.newBrokerInfo cmd) = some known) :
    (∀ e ∈ (b.addBroker cmd known).2, e.announces own = none) ∧
      (b.addBroker cmd known).1.allInitReady = (!fromNewConnection cmd &&
        b.readyWithCounts b.federates.size (b.brokers.size + 1)) := by
  have hroot : ¬b.isRootc = true := by simp [h.notRoot]
  unfold addBroker
  dsimp only
  rw [if_neg hroot]
  constructor
  · intro e he
    cases List.mem_append.mp he with
    | inl hr =>
      split at hr
      · obtain rfl := List.mem_singleton.mp hr
        rfl
      · cases hr
    | inr hf => exact silent_forwardRegistration (by simp [hcmd]) (by simp [hcmd]) hf
  · have hdata := DualMapped.data_insert hins
    rw [allInitReady_forwardRegistration, allInitReady_eq]
    unfold newBrokerInfo at hdata
    unfold readyWithCounts DualMapped.Vector.size
    rw [hdata]
    cases fromNewConnection cmd with
    | true => simp [initReady]
    | false => simp [initReady]

theorem refuseBroker_readiness (own : GlobalId) (b : CoreBroker) (cmd : ActionMessage)
    (code : Int) : (∀ e ∈ (b.refuseBroker cmd code).2, e.announces own = none) ∧
      (b.refuseBroker cmd code).1.allInitReady = b.allInitReady := by
  have hack (route : RouteId) :
      (transmit route (b.errorAck .cmdBrokerAck code cmd.name)).announces own = none :=
    announces_transmit_of_action (by simp [errorAck]) (by simp [errorAck]) _
  unfold refuseBroker
  split
  · refine ⟨?_, rfl⟩
    intro e he
    simp only [List.mem_cons, List.not_mem_nil, or_false] at he
    obtain rfl | rfl | rfl := he
    · rfl
    · exact hack _
    · rfl
  · simp [hack]

theorem allInitReady_modify {b b' : CoreBroker} (hf : b'.federates = b.federates)
    (hmf : b'.minFederateCount = b.minFederateCount) (hmb : b'.minBrokerCount = b.minBrokerCount)
    (hb : b'.brokers = b.brokers.modify i f)
    (h : ∀ brk, b.brokers.data[i]? = some brk → (f brk).initReady = brk.initReady) :
    b'.allInitReady = b.allInitReady := by
  have hall : (b.brokers.modify i f).data.all initReady = b.brokers.data.all initReady := by
    rw [DualMapped.data_modify]
    exact DualMapped.all_modify h
  unfold allInitReady
  rw [hf, hmf, hmb, hb, DualMapped.Vector.size_modify, hall]

theorem resendBrokerAck_readiness (own : GlobalId) (b : CoreBroker) (cmd : ActionMessage)
    (brk : BasicBrokerInfo) : announced own (b.resendBrokerAck cmd brk).2 = none ∧
      (b.resendBrokerAck cmd brk).1.allInitReady = b.allInitReady := by
  constructor
  · apply announced_of_silent
    intro e he
    simp only [resendBrokerAck, List.mem_cons, List.not_mem_nil, or_false] at he
    obtain rfl | rfl := he
    · rfl
    · exact announces_transmit_of_action (by simp [brokerReply]) (by simp [brokerReply]) _
  · unfold resendBrokerAck DualMapped.Vector.modifyName
    cases b.brokers.indexOfName cmd.name with
    | none => rfl
    | some i =>
      exact allInitReady_modify (b := b) rfl rfl rfl rfl (fun _ _ => rfl)

theorem regNewBroker_readiness (h : Awaiting own b) (hcmd : cmd.messageAction = .cmdRegBroker) :
    announced own (b.regNewBroker cmd).2 = (if b.allInitReady then some false else none) ∧
      (b.regNewBroker cmd).1.allInitReady =
        (if (b.brokers.indexOfName cmd.name).isSome then b.allInitReady
          else !fromNewConnection cmd &&
            b.readyWithCounts b.federates.size (b.brokers.size + 1)) := by
  unfold regNewBroker
  rw [if_neg h.notOperating]
  have hnew := DualMapped.insert_isSome b.brokers cmd.name (b.newBrokerInfo cmd)
  cases hins : b.brokers.insert cmd.name none (b.newBrokerInfo cmd) with
  | none =>
    obtain ⟨hs, hr⟩ := refuseBroker_readiness own b cmd 7
    have hk : (b.brokers.indexOfName cmd.name).isSome = true := by simpa [hins] using hnew
    rw [hk]
    exact ⟨announced_notice_append h.id hs, hr⟩
  | some known =>
    obtain ⟨hs, hr⟩ := addBroker_readiness h hcmd hins
    have hk : (b.brokers.indexOfName cmd.name).isSome = false := by simpa [hins] using hnew
    rw [hk]
    exact ⟨announced_notice_append h.id hs, hr⟩

theorem truth_regFed (h : Awaiting own b) (hcmd : cmd.messageAction = .cmdRegFed) :
    (announced own (b.regFed cmd).2).getD a = (b.regFed cmd).1.allInitReady ↔
      AnnouncesTruth b a cmd := by
  obtain ⟨ha, hr⟩ := regFed_readiness h hcmd
  have hmono (hb : b.allInitReady = true) :
      b.readyWithCounts (b.federates.size + 1) b.brokers.size = true :=
    readyWithCounts_mono hb (Nat.le_succ _) le_rfl
  rw [ha, hr]
  unfold AnnouncesTruth
  rw [hcmd]
  cases hb : b.allInitReady with
  | true =>
    rw [hmono hb]
    simp
  | false =>
    cases (b.federates.indexOfName cmd.name).isSome with
    | true => simp
    | false => simp

theorem truth_regBroker (h : Awaiting own b) (hcmd : cmd.messageAction = .cmdRegBroker) :
    (announced own (b.regBroker cmd).2).getD a = (b.regBroker cmd).1.allInitReady ↔
      AnnouncesTruth b a cmd := by
  obtain ⟨ha, hr⟩ := regNewBroker_readiness h hcmd
  have hmono (hb : b.allInitReady = true) :
      b.readyWithCounts b.federates.size (b.brokers.size + 1) = true :=
    readyWithCounts_mono hb le_rfl (Nat.le_succ _)
  have hkn := b.brokers.findName_isSome cmd.name
  unfold AnnouncesTruth regBroker
  rw [hcmd, if_neg (by simp [h.connected])]
  cases hk : (b.brokers.indexOfName cmd.name).isSome with
  | true =>
    rw [hk] at hkn hr
    obtain ⟨brk, hbrk⟩ := Option.isSome_iff_exists.mp hkn
    by_cases hc : 0 < cmd.counter
    · obtain ⟨ha', hr'⟩ := resendBrokerAck_readiness own b cmd brk
      rw [if_pos hc, hbrk, if_pos rfl, if_pos hc]
      rw [ha', hr']
      rfl
    · rw [if_neg hc, if_pos rfl, if_neg hc]
      rw [ha, hr]
      cases b.allInitReady with
      | true => simp
      | false => simp
  | false =>
    rw [hk] at hkn hr
    have hnone : (if 0 < cmd.counter then b.brokers.findName cmd.name else none) = none := by
      split
      · simpa using hkn
      · rfl
    rw [hnone, if_neg (by simp)]
    rw [ha, hr]
    cases hb : b.allInitReady with
    | true =>
      rw [hmono hb]
      cases fromNewConnection cmd with
      | true => simp
      | false => simp
    | false =>
      cases fromNewConnection cmd with
      | true => simp
      | false => simp

theorem checkDependencies_frame (b : CoreBroker) :
    b.checkDependencies.1 = { b with timeCoord := b.checkDependencies.1.timeCoord } := by
  unfold checkDependencies
  split
  · split
    · unfold bypassRoot
      split <;> rfl
    · rfl
  · split
    · rfl
    · split <;> rfl

theorem truth_processInit (h : Awaiting own b) (hcmd : cmd.messageAction = .cmdInit) :
    (announced own (b.processInit cmd).2).getD a = (b.processInit cmd).1.allInitReady ↔
      AnnouncesTruth b a cmd := by
  have hroot : (b.setInitRequested cmd.sourceId true).isRootc = false := h.notRoot
  have hid : (b.setInitRequested cmd.sourceId true).globalBrokerIdLocal = own := h.id
  unfold AnnouncesTruth
  rw [hcmd]
  unfold processInit
  dsimp only
  cases hr : (b.setInitRequested cmd.sourceId true).allInitReady with
  | true =>
    rw [if_pos rfl, if_neg (by simp [hroot]), announced_append, announced_singleton,
      checkDependencies_frame]
    have hsent : (transmit parentRouteId { cmd with
        sourceId := (b.setInitRequested cmd.sourceId true).globalBrokerIdLocal }).announces own =
          some true := by
      simp [announces, hid, hcmd]
    have hready : ({ b.setInitRequested cmd.sourceId true with
        timeCoord := (b.setInitRequested cmd.sourceId true).checkDependencies.1.timeCoord } :
          CoreBroker).allInitReady = true := hr
    rw [hsent, hready]
    simp
  | false =>
    rw [if_neg (by simp), announced_nil, hr]
    simp

theorem brokerIndex_lt (h : b.brokerIndex brkId = some i) :
    i < b.brokers.data.length := by
  unfold brokerIndex at h
  split at h
  · split at h
    case isTrue hr =>
      obtain rfl := Option.some.inj h
      exact (Int.toNat_lt hr.1).mpr hr.2
    case isFalse => cases h
  · exact DualMapped.indexOfId_lt h

theorem setInitRequested_of_index {id : GlobalId} (h : b.brokerIndex id = some i) (flag : Bool) :
    (b.setInitRequested id flag).brokers =
      b.brokers.modify i (fun brk => { brk with initRequested := flag }) := by
  unfold setInitRequested modifyBrokerById
  rw [h]
  rfl

theorem allInitReady_setInitRequested_false (b : CoreBroker) (id : GlobalId) :
    (b.setInitRequested id false).allInitReady = (b.allInitReady && !b.isDirectChild id) := by
  cases hi : b.brokerIndex id with
  | none => simp [setInitRequested, modifyBrokerById, isDirectChild, getBrokerById, hi]
  | some i =>
    obtain ⟨brk, hbrk⟩ : ∃ brk, b.brokers.data[i]? = some brk :=
      ⟨_, List.getElem?_eq_getElem (brokerIndex_lt hi)⟩
    have hdirect : b.isDirectChild id = !brk.nonLocal := by
      simp [isDirectChild, getBrokerById, hi, hbrk]
    have hset := setInitRequested_of_index hi false
    rw [hdirect, Bool.not_not]
    cases hl : brk.nonLocal with
    | true =>
      rw [Bool.and_true]
      refine allInitReady_modify rfl rfl rfl hset ?_
      intro brk' hbrk'
      obtain rfl := Option.some.inj (hbrk.symm.trans hbrk')
      simp [initReady, hl]
    | false =>
      have hall := DualMapped.all_modify_eq_false (p := initReady)
        (f := fun brk => { brk with initRequested := false }) hbrk
        (by simp [initReady, hl])
      rw [Bool.and_false, allInitReady, hset, DualMapped.data_modify, hall, Bool.and_false]

theorem truth_processInitNotReady
    (hcmd : cmd.messageAction = .cmdInitNotReady) (hs : cmd.sourceId ≠ own) :
    (announced own (b.processInitNotReady cmd).2).getD a =
      (b.processInitNotReady cmd).1.allInitReady ↔ AnnouncesTruth b a cmd := by
  have hsilent : announced own (b.processInitNotReady cmd).2 = none := by
    apply announced_of_silent
    intro e he
    unfold processInitNotReady at he
    split at he
    · obtain rfl := List.mem_singleton.mp he
      simp [announces, hs]
    · cases he
  rw [hsilent]
  unfold AnnouncesTruth processInitNotReady
  rw [hcmd]
  rw [allInitReady_setInitRequested_false]
  rfl

/-- One command of a child: the last announcement is truthful afterwards exactly under the
condition on the state before. -/
theorem truth_step_iff (h : Awaiting own b) (hcmd : FromChild own cmd) (sent : List Effect) :
    announcedInit own (sent ++ (b.step cmd).2) = (b.step cmd).1.allInitReady ↔
      AnnouncesTruth b (announcedInit own sent) cmd := by
  rw [announcedInit_append]
  obtain ⟨ha | ha | ha | ha, hs⟩ := hcmd
  · have hstep : b.step cmd = b.regFed cmd := by
      simp [step, isPriorityCommand, processPriorityCommand, processRegistration, ha]
    rw [hstep]
    exact truth_regFed h ha
  · have hstep : b.step cmd = b.regBroker cmd := by
      simp [step, isPriorityCommand, processPriorityCommand, processRegistration, ha]
    rw [hstep]
    exact truth_regBroker h ha
  · have hstep : b.step cmd = b.processInit cmd := by
      simp [step, isPriorityCommand, processCommand, ha]
    rw [hstep]
    exact truth_processInit h ha
  · have hstep : b.step cmd = b.processInitNotReady cmd := by
      simp [step, isPriorityCommand, processCommand, ha]
    rw [hstep]
    exact truth_processInitNotReady ha (hs ha)

end CoreBroker

end Helics
