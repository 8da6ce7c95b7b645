import Helics.ExecGrants

namespace Helics

open NoExecGrant

/-- A dependency that has reported times after the start. -/
def DependencyInfo.Running (d : DependencyInfo) : Prop :=
  .zero < d.Tnext ∧ .zero < d.Te ∧ .zero < d.Tdemin

instance (d : DependencyInfo) : Decidable d.Running := inferInstanceAs (Decidable (_ ∧ _))

/-- The minima over running dependencies; the marker of an untrusted time is not zero either. -/
structure MinTimeSet.Running (mt : MinTimeSet) : Prop where
  next : .zero < mt.minNext
  minDe : .zero < mt.minDe
  minminDe : .zero < mt.minminDe ∨ mt.minminDe = .untrusted

namespace MinTimeSet

variable {mt : MinTimeSet} {d : DependencyInfo}

theorem Running.addNext (h : mt.Running) (hd : d.Running) : (mt.addNext d).Running := by
  unfold MinTimeSet.addNext
  split
  · exact ⟨hd.1, h.minDe, h.minminDe⟩
  split
  · exact ⟨h.next, h.minDe, h.minminDe⟩
  · exact h

theorem Running.addDemin (h : mt.Running) (hd : d.Running) : (mt.addDemin d).Running := by
  unfold MinTimeSet.addDemin
  split
  · split
    · exact ⟨h.next, h.minDe, .inl hd.2.2⟩
    split
    · exact ⟨h.next, h.minDe, h.minminDe⟩
    · exact h
  · exact ⟨h.next, h.minDe, .inr rfl⟩

theorem Running.addTe (h : mt.Running) (hd : d.Running) : (mt.addTe d).Running := by
  unfold MinTimeSet.addTe
  split
  · exact ⟨h.next, hd.2.1, h.minminDe⟩
  · exact h

theorem Running.finish (h : mt.Running) : mt.finish.Running := by
  have hmm : .zero < min mt.minDe mt.minminDe ∨ min mt.minDe mt.minminDe = .untrusted := by
    cases h.minminDe with
    | inl hp => exact .inl (lt_min h.minDe hp)
    | inr hu =>
      have hneg : Time.untrusted ≤ mt.minDe := le_trans (by decide) h.minDe.le
      exact .inr (by rw [hu, min_eq_right hneg])
  refine ⟨?_, h.minDe, hmm⟩
  dsimp only [MinTimeSet.finish]
  split
  · exact lt_trans h.next ‹_ ∧ _›.2
  · exact h.next

end MinTimeSet

theorem running_generateMinTimeSet (h : ∀ d ∈ t.entries, d.Running)
    (ignore : GlobalId) : (generateMinTimeSet t ignore).Running := by
  apply MinTimeSet.Running.finish
  apply List.foldlRecOn
  · exact ⟨by decide, by decide, .inl (by decide)⟩
  · intro mt hmt d hd
    unfold MinTimeSet.addDependency
    split
    · exact hmt
    · exact ((hmt.addNext (h d hd)).addDemin (h d hd)).addTe (h d hd)

variable {cmd : ActionMessage}

namespace ForwardingTimeCoordinator

/-- No announced time is set back to zero. -/
structure NotReset (c c' : ForwardingTimeCoordinator) : Prop where
  next : c'.timeNext = .zero → c.timeNext = .zero
  minDe : c'.timeMinDe = .zero → c.timeMinDe = .zero
  minminDe : c'.timeMinminDe = .zero → c.timeMinminDe = .zero

variable {c c' : ForwardingTimeCoordinator}

theorem NotReset.of_times (h : c'.times = c.times) : NotReset c c' := by
  obtain ⟨hn, hd, hm⟩ : c'.timeNext = c.timeNext ∧ c'.timeMinDe = c.timeMinDe ∧
      c'.timeMinminDe = c.timeMinminDe := by
    simpa only [times, Prod.mk.injEq] using h
  exact ⟨hn ▸ id, hd ▸ id, hm ▸ id⟩

theorem NotReset.of_zero (h : c.times = zeroTimes) : NotReset c c' := by
  obtain ⟨hn, hd, hm⟩ : c.timeNext = .zero ∧ c.timeMinDe = .zero ∧ c.timeMinminDe = .zero := by
    simpa only [times, zeroTimes, Prod.mk.injEq] using h
  exact ⟨fun _ => hn, fun _ => hd, fun _ => hm⟩

theorem notReset_zero_iff (h : c'.times = zeroTimes) : NotReset c c' ↔ c.times = zeroTimes := by
  refine ⟨fun hr => ?_, .of_zero⟩
  obtain ⟨hn, hd, hm⟩ : c'.timeNext = .zero ∧ c'.timeMinDe = .zero ∧ c'.timeMinminDe = .zero := by
    simpa only [times, zeroTimes, Prod.mk.injEq] using h
  simp only [times, zeroTimes, hr.next hn, hr.minDe hd, hr.minminDe hm]

theorem notReset_withTimeFactors (h : ∀ d ∈ c'.dependencies.entries, d.Running) :
    NotReset c c'.withTimeFactors := by
  obtain ⟨hnext, hde, hmm⟩ := running_generateMinTimeSet h invalidGlobalId
  refine ⟨fun hz => absurd hz (ne_of_gt ?_), fun hz => absurd hz hde.ne', fun hz => ?_⟩
  · dsimp only [withTimeFactors]
    split
    · exact lt_trans hnext ‹_ ∧ _›.2
    · exact hnext
  · cases hmm with
    | inl hp => exact absurd hz hp.ne'
    | inr hu => exact absurd (hu.symm.trans hz) (by decide)

/-- The dependencies other than the sender run, and the command reports times after the start. -/
structure Advances (c : ForwardingTimeCoordinator) (cmd : ActionMessage) : Prop where
  others : ∀ d ∈ c.dependencies.entries, d.fedID ≠ cmd.sourceId → d.Running
  reported : cmd.messageAction ≠ .cmdDisconnect → .zero < cmd.actionTime
  events : cmd.messageAction = .cmdTimeRequest → .zero < cmd.Te ∧ .zero < cmd.Tdemin ∧
    ∀ d ∈ c.dependencies.entries, d.fedID = cmd.sourceId → .zero < d.forwardEvent

def isClockCommand (a : Action) : Bool :=
  decide (a = .cmdTimeRequest) || decide (a = .cmdTimeGrant) || decide (a = .cmdDisconnect)

theorem Advances.running (h : c.Advances cmd)
    (hc : isClockCommand cmd.messageAction = true) :
    ∀ d ∈ (c.processTimeMessage cmd).2.dependencies.entries, d.Running := by
  have hof : TimeDependencies.dependencyOf cmd = cmd.sourceId := by
    unfold TimeDependencies.dependencyOf
    rw [if_neg (by rintro hs; rw [hs] at hc; cases hc)]
  have hdeps : (c.processTimeMessage cmd).2.dependencies = (c.dependencies.updateTime cmd).2 := by
    unfold processTimeMessage
    split <;> rfl
  intro d hd
  rw [hdeps] at hd
  obtain ⟨a, ha, hid, rfl⟩ | ⟨hm, hid⟩ := c.dependencies.mem_updateTime cmd hd
  · rw [hof] at hid
    unfold DependencyInfo.processMessage
    split
    case h_3 hr =>
      obtain ⟨hte, htd, hf⟩ := h.events hr
      have hle : .zero < if a.forwardEvent < cmd.Te then a.forwardEvent else cmd.Te := by
        split
        · exact hf a ha hid
        · exact hte
      refine ⟨h.reported (by rw [hr]; decide), hle, ?_⟩
      have hmin : (a.onTimeRequest cmd).Tdemin = min (a.onTimeRequest cmd).Te cmd.Tdemin :=
        min_comm cmd.Tdemin _ ▸ (min_def_lt ..).symm
      exact hmin ▸ lt_min hle htd
    case h_4 hg =>
      have ht := h.reported (by rw [hg]; decide)
      exact ⟨ht, ht, ht⟩
    case h_5 =>
      have hmax : Time.zero < Time.maxVal := by decide
      exact ⟨hmax, hmax, hmax⟩
    all_goals simp_all [isClockCommand]
  · rw [hof] at hid
    exact h.others d hm hid

end ForwardingTimeCoordinator

open ForwardingTimeCoordinator

namespace CoreBroker

theorem noExecGrant_enteringExecMode (c : ForwardingTimeCoordinator) :
    NoExecGrant (queued c.enteringExecMode.2) := by
  apply queued_iff.mpr
  intro m hm
  rw [ForwardingTimeCoordinator.enteringExecMode_action hm]
  simp

section
variable [DualMapped String GlobalId]

/-- The broker stays in execution mode: its coordinator sends no exec grant and sets none of its
times back to zero. -/
structure StaysInExecution (b : CoreBroker) (r : CoreBroker × List Effect) : Prop where
  entered : r.1.enteredExecutionMode = true
  times : NotReset b.timeCoord r.1.timeCoord
  noGrant : NoExecGrant r.2

/-- The coordinator for which a command of an initialization grant checks execution entry. -/
def execEntryAttempt (b : CoreBroker) (cmd : ActionMessage) : Option ForwardingTimeCoordinator :=
  match cmd.messageAction with
  | .cmdInitGrant => some b.timeCoord
  | .cmdInit =>
    let asked := b.setInitRequested cmd.sourceId true
    let checked := asked.checkDependencies.1
    if asked.allInitReady ∧ b.isRootc ∧ checked.missingRequired = false then some checked.timeCoord
    else none
  | _ => none

/-- The entry check fails, or it has no dependent to tell and no announced time to reset. -/
def HarmlessReentry (c : ForwardingTimeCoordinator) : Prop :=
  c.dependencies.checkIfReadyForExecEntry false = true →
    c.dependents.entries = [] ∧ c.times = zeroTimes

/-- No initialization grant is processed for a coordinator that is ready to enter execution. -/
def NoReentry (b : CoreBroker) (cmd : ActionMessage) : Prop :=
  ∀ c, b.execEntryAttempt cmd = some c → HarmlessReentry c

/-- A timing command for a coordinator that has announced times finds and reports later ones. -/
def ClockKept (b : CoreBroker) (cmd : ActionMessage) : Prop :=
  isClockCommand cmd.messageAction = true → cmd.destId = b.globalBrokerIdLocal →
    b.timeCoord.times = zeroTimes ∨ b.timeCoord.Advances cmd

/-- What a command without an initialization grant does to a broker in execution mode. -/
structure Steady (b : CoreBroker) (cmd : ActionMessage) (r : CoreBroker × List Effect) : Prop where
  entered : r.1.enteredExecutionMode = true
  times : b.ClockKept cmd → NotReset b.timeCoord r.1.timeCoord
  noGrant : NoExecGrant r.2

theorem Keeps.stays (h : Keeps b r) (he : b.enteredExecutionMode = true) : StaysInExecution b r :=
  ⟨h.entered.trans he, .of_times h.times, h.noGrant⟩

theorem Keeps.steady (h : Keeps b r) (he : b.enteredExecutionMode = true) : Steady b cmd r :=
  ⟨h.entered.trans he, fun _ => .of_times h.times, h.noGrant⟩

theorem enterExec_of_not_ready
    (h : b.timeCoord.dependencies.checkIfReadyForExecEntry false = false) :
    Keeps b b.enterExec := by
  have hc : b.timeCoord.enteringExecMode.1.checkExecEntry =
      (false, b.timeCoord.enteringExecMode.1, []) := by
    unfold ForwardingTimeCoordinator.checkExecEntry
    rw [if_neg (by simp [ForwardingTimeCoordinator.dependencies_enteringExecMode, h])]
  unfold enterExec checkExecEntry
  dsimp only
  rw [hc]
  refine ⟨by simp, b.timeCoord.times_enteringExecMode, ?_, fun _ h => h⟩
  exact append_iff.mpr ⟨noExecGrant_enteringExecMode _, .nil⟩

theorem enterExec_of_ready {b : CoreBroker}
    (h : b.timeCoord.dependencies.checkIfReadyForExecEntry false = true) :
    b.enterExec.1.enteredExecutionMode = true ∧
      b.enterExec.1.timeCoord.times = ForwardingTimeCoordinator.zeroTimes ∧
      (NoExecGrant b.enterExec.2 ↔ b.timeCoord.dependents.entries = []) := by
  have hready : b.timeCoord.enteringExecMode.1.dependencies.checkIfReadyForExecEntry false := by
    rw [ForwardingTimeCoordinator.dependencies_enteringExecMode, h]
  unfold enterExec checkExecEntry
  dsimp only
  unfold ForwardingTimeCoordinator.checkExecEntry
  rw [if_pos hready]
  refine ⟨by simp, rfl, ?_⟩
  rw [append_iff, and_iff_right (noExecGrant_enteringExecMode _),
    queued_iff]
  dsimp only [ForwardingTimeCoordinator.transmitTimingMessage]
  rw [if_neg (by simp), ForwardingTimeCoordinator.dependents_enteringExecMode]
  simp [List.eq_nil_iff_forall_not_mem]

theorem stays_enterExec_iff {b b₀ : CoreBroker} (he : b.enteredExecutionMode = true)
    (ht : b.timeCoord.times = b₀.timeCoord.times) (hes : NoExecGrant es) :
    StaysInExecution b₀ (b.enterExec.1, es ++ b.enterExec.2) ↔ HarmlessReentry b.timeCoord := by
  cases hr : b.timeCoord.dependencies.checkIfReadyForExecEntry false with
  | false =>
    have hk := enterExec_of_not_ready hr
    constructor
    · intro _ hready
      rw [hr] at hready
      cases hready
    · intro _
      exact ⟨hk.entered.trans he, .of_times (hk.times.trans ht),
        append_iff.mpr ⟨hes, hk.noGrant⟩⟩
  | true =>
    obtain ⟨hent, htimes, hgrant⟩ := enterExec_of_ready hr
    constructor
    · intro hs _
      exact ⟨hgrant.mp (append_iff.mp hs.noGrant).2,
        ht.trans ((notReset_zero_iff htimes).mp hs.times)⟩
    · intro hh
      obtain ⟨hnil, hz⟩ := hh hr
      exact ⟨hent, (notReset_zero_iff htimes).mpr (ht.symm.trans hz),
        append_iff.mpr ⟨hes, hgrant.mpr hnil⟩⟩

variable (b : CoreBroker)

section
variable (he : b.enteredExecutionMode = true)
include he

theorem steady_updateTimeFactors
    (hc : isClockCommand cmd.messageAction = true) (hdest : cmd.destId = b.globalBrokerIdLocal) :
    Steady b cmd (if (b.timeCoord.processTimeMessage cmd).1 then
        ({ b with timeCoord := (b.timeCoord.processTimeMessage cmd).2.updateTimeFactors.1 },
          queued (b.timeCoord.processTimeMessage cmd).2.updateTimeFactors.2)
      else ({ b with timeCoord := (b.timeCoord.processTimeMessage cmd).2 }, [])) := by
  split
  · refine ⟨he, fun hk => ?_, noExecGrant_updateTimeFactors _⟩
    cases hk hc hdest with
    | inl hz => exact .of_zero hz
    | inr ha => exact notReset_withTimeFactors (ha.running hc)
  · exact ⟨he, fun _ => .of_times (b.timeCoord.times_processTimeMessage cmd), .nil⟩

theorem steady_processDisconnect (cmd : ActionMessage) :
    Steady b cmd (b.processDisconnect cmd) := by
  have hsend (es) (h : NoExecGrant es) : Steady b cmd (b, es) := (Keeps.sends h).steady he
  unfold processDisconnect
  split
  case h_1 hd =>
    split
    · unfold disconnectDependency
      split
      · exact b.steady_updateTimeFactors he (by rw [hd]; decide) ‹_›
      · exact hsend _ .nil
    · split
      · exact (b.keeps_departure cmd).steady he
      · exact hsend _ (by simp)
  case h_2 | h_3 =>
    split
    · exact ((b.keeps_disconnectBroker _ _).extend (by simp)).steady he
    · exact hsend _ .nil
  · exact hsend _ .nil

theorem steady_processExecCommand (cmd : ActionMessage) :
    Steady b cmd (b.processExecCommand cmd) := by
  unfold processExecCommand
  split
  · exact ⟨he, fun _ => .of_times (b.timeCoord.times_processTimeMessage cmd), .nil⟩
  · split
    · exact ⟨he, fun _ => .of_times rfl, flatMap (fun _ => by simp)⟩
    · exact ⟨he, fun _ => .of_times rfl, by simp⟩

theorem steady_processTimeCommand
    (hc : isClockCommand cmd.messageAction = true) : Steady b cmd (b.processTimeCommand cmd) := by
  unfold processTimeCommand
  split
  · exact ⟨he, fun _ => .of_times rfl, flatMap (fun _ => by simp)⟩
  · split
    · exact b.steady_updateTimeFactors he hc ‹_›
    · exact ⟨he, fun _ => .of_times rfl, by simp⟩

end

theorem stays_processInitGrant_iff (he : b.enteredExecutionMode = true) (cmd : ActionMessage) :
    StaysInExecution b (b.processInitGrant cmd) ↔ HarmlessReentry b.timeCoord :=
  stays_enterExec_iff (b := { b with brokerState := .operating }) he rfl (by simp)

theorem stays_grantInitialization_iff {b b₀ : CoreBroker} (he : b.enteredExecutionMode = true)
    (ht : b.timeCoord.times = b₀.timeCoord.times) (hes : NoExecGrant es) :
    StaysInExecution b₀ (b.grantInitialization.1, es ++ b.grantInitialization.2) ↔
      HarmlessReentry b.timeCoord := by
  unfold grantInitialization
  rw [← List.append_assoc]
  refine stays_enterExec_iff (b := { b with brokerState := .operating }) he ht ?_
  refine append_iff.mpr ⟨hes, append_iff.mpr ⟨?_, by simp⟩⟩
  split
  · simp [routeMessage]
  · exact .nil

variable {b}

theorem noReentry_of_none (h : execEntryAttempt b cmd = none) : NoReentry b cmd := by
  intro c hc
  rw [h] at hc
  cases hc

theorem noReentry_of_some (h : execEntryAttempt b cmd = some c) :
    NoReentry b cmd ↔ HarmlessReentry c := by
  constructor
  · intro hn
    exact hn c h
  · intro hh c' hc'
    rw [h] at hc'
    obtain rfl := Option.some.inj hc'
    exact hh

theorem stays_processInit_iff (b : CoreBroker) (he : b.enteredExecutionMode = true)
    (hcmd : cmd.messageAction = .cmdInit) :
    StaysInExecution b (b.processInit cmd) ↔ NoReentry b cmd := by
  have hasked := b.keeps_setInitRequested cmd.sourceId true
  have hchecked := hasked.trans (keeps_checkDependencies _)
  have hattempt : b.execEntryAttempt cmd =
      if (b.setInitRequested cmd.sourceId true).allInitReady ∧ b.isRootc ∧
        (b.setInitRequested cmd.sourceId true).checkDependencies.1.missingRequired = false then
        some (b.setInitRequested cmd.sourceId true).checkDependencies.1.timeCoord
      else none := by
    unfold execEntryAttempt
    rw [hcmd]
  unfold processInit
  dsimp only
  split
  case isFalse hready =>
    have hn := noReentry_of_none (by rw [hattempt, if_neg (by simp [hready])])
    exact ⟨fun _ => hn, fun _ => hasked.stays he⟩
  case isTrue hready =>
    split
    case isFalse hroot =>
      have hroot' : ¬b.isRootc = true := hroot
      have hn := noReentry_of_none (by rw [hattempt, if_neg (by simp [hroot'])])
      exact ⟨fun _ => hn, fun _ => (hchecked.extend (by simp)).stays he⟩
    case isTrue hroot =>
      have hroot' : b.isRootc = true := hroot
      unfold executeInitializationOperations
      dsimp only
      split
      case isTrue hmissing =>
        have hn := noReentry_of_none (by rw [hattempt, if_neg (by simp [hmissing])])
        exact ⟨fun _ => hn, fun _ => (hchecked.trans (keeps_failInitialization _)).stays he⟩
      case isFalse hmissing =>
        rw [if_pos ⟨hready, hroot', by simpa using hmissing⟩] at hattempt
        rw [noReentry_of_some hattempt]
        exact stays_grantInitialization_iff (hchecked.entered.trans he) hchecked.times
          hchecked.noGrant

theorem processDisconnect_resolved (b : CoreBroker) (h : cmd.messageAction = .cmdDisconnectName) :
    b.processDisconnect (b.resolveDisconnectName cmd) = (b, []) := by
  have ha : (b.resolveDisconnectName cmd).messageAction = .cmdDisconnectName := by
    unfold resolveDisconnectName
    split
    · split
      · exact h
      · exact h
    · exact h
  rw [processDisconnect, ha]

theorem steady_processCommand (b : CoreBroker) (he : b.enteredExecutionMode = true)
    (hi : cmd.messageAction ≠ .cmdInit)
    (hg : cmd.messageAction ≠ .cmdInitGrant) : Steady b cmd (b.processCommand cmd) := by
  have hsend (es) (h : NoExecGrant es) : Steady b cmd (b, es) := (Keeps.sends h).steady he
  unfold processCommand
  split
  case h_1 => exact hsend _ .nil
  case h_2 | h_3 => exact b.keeps_leave.steady he
  case h_4 h => exact absurd h hi
  case h_5 => exact (b.keeps_processInitNotReady cmd).steady he
  case h_6 h => exact absurd h hg
  case h_7 => exact (b.keeps_searchDependency cmd).steady he
  case h_8 h => rw [b.processDisconnect_resolved h]; exact hsend _ .nil
  case h_9 | h_10 | h_11 => exact b.steady_processDisconnect he cmd
  case h_12 => exact (b.keeps_processBrokerDisconnectAck cmd).steady he
  case h_13 => exact (b.keeps_processFedDisconnect cmd).steady he
  case h_14 => exact b.keeps_processStop.steady he
  case h_15 => exact ⟨he, fun _ => .of_times (b.timeCoord.times_processTimeMessage cmd), by simp⟩
  case h_16 | h_17 => exact b.steady_processExecCommand he cmd
  case h_18 h | h_19 h => exact b.steady_processTimeCommand he (by rw [h]; decide)
  case h_20 | h_21 | h_22 | h_23 | h_24 => exact hsend _ (b.noExecGrant_processMessageCommand cmd)
  case h_25 => exact hsend _ (by simp)
  case h_26 | h_27 => exact hsend _ (by simp)
  case h_28 | h_29 | h_30 | h_31 | h_32 | h_33 =>
    exact (b.keeps_processDependencyCommand cmd).steady he
  case h_34 =>
    apply hsend
    split
    · simp
    · exact .nil

theorem steady_step (b : CoreBroker) (he : b.enteredExecutionMode = true)
    (hi : cmd.messageAction ≠ .cmdInit)
    (hg : cmd.messageAction ≠ .cmdInitGrant) : Steady b cmd (b.step cmd) := by
  unfold step
  split
  · exact (b.keeps_processPriorityCommand cmd).steady he
  · exact b.steady_processCommand he hi hg

theorem execEntryAttempt_eq_none (b : CoreBroker)
    (hi : cmd.messageAction ≠ .cmdInit) (hg : cmd.messageAction ≠ .cmdInitGrant) :
    b.execEntryAttempt cmd = none := by
  unfold execEntryAttempt
  split
  · exact absurd ‹_› hg
  · exact absurd ‹_› hi
  · rfl

theorem step_init (b : CoreBroker) (h : cmd.messageAction = .cmdInit) :
    b.step cmd = b.processInit cmd := by
  simp [step, processCommand, isPriorityCommand, h]

theorem step_initGrant (b : CoreBroker) (h : cmd.messageAction = .cmdInitGrant) :
    b.step cmd = b.processInitGrant cmd := by
  simp [step, processCommand, isPriorityCommand, h]

/-- One command handled in execution mode, whatever the command. -/
theorem stays_step_iff (b : CoreBroker) (he : b.enteredExecutionMode = true)
    (hk : b.ClockKept cmd) :
    StaysInExecution b (b.step cmd) ↔ NoReentry b cmd := by
  by_cases hi : cmd.messageAction = .cmdInit
  · rw [b.step_init hi]
    exact b.stays_processInit_iff he hi
  by_cases hg : cmd.messageAction = .cmdInitGrant
  · have hattempt : b.execEntryAttempt cmd = some b.timeCoord := by
      simp [execEntryAttempt, hg]
    rw [b.step_initGrant hg, noReentry_of_some hattempt]
    exact b.stays_processInitGrant_iff he cmd
  have hs := b.steady_step he hi hg
  exact ⟨fun _ => noReentry_of_none (b.execEntryAttempt_eq_none hi hg),
    fun _ => ⟨hs.entered, hs.times hk, hs.noGrant⟩⟩

section
variable (he : b.enteredExecutionMode = true)
include he

theorem entered_enterExec : b.enterExec.1.enteredExecutionMode = true := by
  cases hr : b.timeCoord.dependencies.checkIfReadyForExecEntry false with
  | false => exact (enterExec_of_not_ready hr).entered.trans he
  | true => exact (enterExec_of_ready hr).1

theorem entered_processInit
    (cmd : ActionMessage) : (b.processInit cmd).1.enteredExecutionMode = true := by
  have hasked := b.keeps_setInitRequested cmd.sourceId true
  have hchecked := hasked.trans (keeps_checkDependencies _)
  unfold processInit executeInitializationOperations
  dsimp only
  split
  · split
    · split
      · exact ((hchecked.trans (keeps_failInitialization _)).stays he).entered
      · exact entered_enterExec (hchecked.entered.trans he)
    · exact hchecked.entered.trans he
  · exact he

theorem entered_step (cmd : ActionMessage) : (b.step cmd).1.enteredExecutionMode = true := by
  by_cases hi : cmd.messageAction = .cmdInit
  · rw [b.step_init hi]
    exact entered_processInit he cmd
  by_cases hg : cmd.messageAction = .cmdInitGrant
  · rw [b.step_initGrant hg]
    exact entered_enterExec (b := { b with brokerState := .operating }) he
  exact (b.steady_step he hi hg).entered

theorem entered_after (cmds : List ActionMessage) : (b.after cmds).enteredExecutionMode = true := by
  induction cmds generalizing b with
  | nil => exact he
  | cons cmd cmds ih => exact ih (entered_step he cmd)

end

/-- A broker in execution mode never grants execution again and sets none of its times back to
zero, as long as its clock is kept, exactly when no initialization grant reaches it while its table
is ready for entry. -/
theorem execution_entered_once_iff (b : CoreBroker) (he : b.enteredExecutionMode = true)
    (cmds : List ActionMessage)
    (hk : ∀ pre cmd post, cmds = pre ++ cmd :: post → (b.after pre).ClockKept cmd) :
    (∀ pre cmd post, cmds = pre ++ cmd :: post →
      StaysInExecution (b.after pre) ((b.after pre).step cmd)) ↔
    ∀ pre cmd post, cmds = pre ++ cmd :: post → NoReentry (b.after pre) cmd := by
  have hiff (pre cmd post) (heq : cmds = pre ++ cmd :: post) :=
    stays_step_iff _ (entered_after he pre) (hk pre cmd post heq)
  constructor
  · intro h pre cmd post heq
    exact (hiff pre cmd post heq).mp (h pre cmd post heq)
  · intro h pre cmd post heq
    exact (hiff pre cmd post heq).mpr (h pre cmd post heq)

end

attribute [local instance] DualMapped.listVectors

/-- A broker with one sub-broker, whose two cores registered through the sub-broker. -/
def upperBroker : CoreBroker :=
  after { identifier := "upper", brokerState := .connected }
    [{ messageAction := .cmdBrokerSetup },
      { messageAction := .cmdBrokerAck, payload := "upper", sourceId := 1, destId := 1879048192 },
      { messageAction := .cmdRegBroker, payload := "lower", sourceId := invalidGlobalId },
      { messageAction := .cmdBrokerAck, payload := "lower", sourceId := 1, destId := 1879048193 },
      { messageAction := .cmdRegBroker, payload := "core1", sourceId := 1879048193, flags := 8 },
      { messageAction := .cmdBrokerAck, payload := "core1", sourceId := 1, destId := 1879048194 },
      { messageAction := .cmdRegBroker, payload := "core2", sourceId := 1879048193, flags := 8 },
      { messageAction := .cmdBrokerAck, payload := "core2", sourceId := 1, destId := 1879048195 }]

def initGrant : ActionMessage := { messageAction := .cmdInitGrant, sourceId := 1 }

/-- The sub-broker coordinates its two cores, has entered execution mode and has announced 5 ns. -/
def lowerBroker : CoreBroker :=
  after { identifier := "lower", brokerState := .connected }
    [{ messageAction := .cmdBrokerSetup },
      { messageAction := .cmdBrokerAck, payload := "lower", sourceId := 1879048192,
        destId := 1879048193 },
      { messageAction := .cmdRegBroker, payload := "core1", sourceId := invalidGlobalId,
        flags := 8 },
      { messageAction := .cmdBrokerAck, payload := "core1", sourceId := 1879048192,
        destId := 1879048194 },
      { messageAction := .cmdRegBroker, payload := "core2", sourceId := invalidGlobalId,
        flags := 8 },
      { messageAction := .cmdBrokerAck, payload := "core2", sourceId := 1879048192,
        destId := 1879048195 },
      { messageAction := .cmdRegFed, payload := "fed1", sourceId := 1879048194 },
      { messageAction := .cmdFedAck, payload := "fed1", sourceId := 1, destId := 131072 },
      { messageAction := .cmdRegFed, payload := "fed2", sourceId := 1879048195 },
      { messageAction := .cmdFedAck, payload := "fed2", sourceId := 1, destId := 131073 },
      { messageAction := .cmdAddInterdependency, sourceId := 1879048194, destId := 1879048193 },
      { messageAction := .cmdAddInterdependency, sourceId := 1879048195, destId := 1879048193 },
      { messageAction := .cmdInit, sourceId := 1879048194 },
      { messageAction := .cmdInit, sourceId := 1879048195 },
      initGrant,
      { messageAction := .cmdExecRequest, sourceId := 1879048194, destId := 1879048193 },
      { messageAction := .cmdExecRequest, sourceId := 1879048195, destId := 1879048193 },
      { messageAction := .cmdTimeRequest, sourceId := 1879048194, destId := 1879048193,
        actionTime := .wrap 5, Te := .wrap 5, Tdemin := .wrap 5 },
      { messageAction := .cmdTimeRequest, sourceId := 1879048195, destId := 1879048193,
        actionTime := .wrap 7, Te := .wrap 7, Tdemin := .wrap 7 }]

def execGrantAgain : ActionMessage :=
  { messageAction := .cmdExecGrant, sourceId := 1879048194, destId := 1879048193 }

def laterRequest : ActionMessage :=
  { messageAction := .cmdTimeRequest, sourceId := 1879048195, destId := 1879048193,
    actionTime := .wrap 9, Te := .wrap 9, Tdemin := .wrap 9 }

def coreDeparture : ActionMessage :=
  { messageAction := .cmdDisconnect, sourceId := 1879048194, destId := 1879048193 }

/-- The upper broker sends the grant three times to the sub-broker, which enters twice; a repeated
exec grant of a core takes the times of the sub-broker back with the next time request. -/
theorem repeated_grant_reenters :
    (upperBroker.step initGrant).2 = List.replicate 3 (.transmit 1 initGrant) ∧
      lowerBroker.enteredExecutionMode = true ∧
      lowerBroker.timeCoord.times = (.wrap 5, .wrap 5, .wrap 5) ∧
      (lowerBroker.step initGrant).1.timeCoord.times = ForwardingTimeCoordinator.zeroTimes ∧
      ((lowerBroker.step initGrant).2.filter Effect.grantsExec).length = 2 ∧
      ¬StaysInExecution lowerBroker (lowerBroker.step initGrant) ∧
      (lowerBroker.after [execGrantAgain]).timeCoord.times = (.wrap 5, .wrap 5, .wrap 5) ∧
      (lowerBroker.after [execGrantAgain, laterRequest]).timeCoord.times =
        ForwardingTimeCoordinator.zeroTimes := by
  refine ⟨by decide +kernel, by decide +kernel, by decide +kernel, by decide +kernel,
    by decide +kernel, ?_, by decide +kernel, by decide +kernel⟩
  intro h
  have hn : ¬∀ e ∈ (lowerBroker.step initGrant).2, e.grantsExec = false := by decide +kernel
  exact hn h.noGrant

theorem forall_of_two {P : List ActionMessage → ActionMessage → Prop} (h0 : P [] first)
    (h1 : P [first] second) (pre : List ActionMessage) (cmd : ActionMessage)
    (post : List ActionMessage) (h : [first, second] = pre ++ cmd :: post) : P pre cmd := by
  cases pre with
  | nil =>
    obtain ⟨rfl, -⟩ := List.cons.inj h
    exact h0
  | cons x pre =>
    obtain ⟨rfl, htail⟩ := List.cons.inj h
    cases pre with
    | nil =>
      obtain ⟨rfl, -⟩ := List.cons.inj htail
      exact h1
    | cons y pre => simp at htail

theorem execution_entered_once_of_departure : lowerBroker.enteredExecutionMode = true ∧
      StaysInExecution lowerBroker (lowerBroker.step laterRequest) ∧
      StaysInExecution (lowerBroker.after [laterRequest])
        ((lowerBroker.after [laterRequest]).step coreDeparture) := by
  have he : lowerBroker.enteredExecutionMode = true := by decide +kernel
  have hstays := (execution_entered_once_iff lowerBroker he [laterRequest, coreDeparture]
    (forall_of_two
      (fun _ _ => .inr ⟨by decide +kernel, by decide +kernel, by decide +kernel⟩)
      (fun _ _ => .inr ⟨by decide +kernel, by decide, by decide⟩))).mpr
    (forall_of_two (noReentry_of_none rfl) (noReentry_of_none rfl))
  exact ⟨he, hstays [] _ _ rfl, hstays [laterRequest] _ _ rfl⟩

end CoreBroker

end Helics
