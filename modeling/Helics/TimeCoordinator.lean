import Helics.Binary64
import Helics.TimeDependencies

namespace Helics

open Binary64

inductive MessageProcessingResult where
  | continueProcessing
  | delayMessage
  | nextStep
  | iterating
  | halted
  | error
deriving DecidableEq, Repr

def returnableResult (r : MessageProcessingResult) : Bool :=
  decide (r ≠ .continueProcessing) && decide (r ≠ .delayMessage)

inductive MessageProcessResult where
  | noEffect
  | processed
  | delayProcessing
deriving DecidableEq, Repr

inductive IterationRequest where
  | noIterations
  | forceIteration
  | iterateIfNeeded
deriving DecidableEq, Repr

structure TcOptions where
  timeDelta : Time := .epsilon
  inputDelay : Time := .zero
  outputDelay : Time := .zero
  offset : Time := .zero
  period : Time := .zero
  uninterruptible : Bool := false
  maxIterations : Int := 50

/-- The coordinator that decides when one federate may advance. -/
structure TimeCoordinator where
  timeGranted : Time := .minVal
  timeRequested : Time := .maxVal
  timeNext : Time := .zero
  timeMinminDe : Time := .zero
  timeMinDe : Time := .zero
  timeAllow : Time := .minVal
  timeExec : Time := .maxVal
  timeMessage : Time := .maxVal
  timeValue : Time := .maxVal
  timeGrantBase : Time := .minVal
  timeBlock : Time := .maxVal
  dependencies : TimeDependencies := .empty
  dependents : Dependents := .empty
  timeBlocks : List (Time × Int) := []
  info : TcOptions := {}
  sourceId : GlobalId := 0
  iterating : Bool := false
  checkingExec : Bool := false
  executionMode : Bool := false
  hasInitUpdates : Bool := false
  iteration : Int := 0

/-- The seconds of a time as a double. -/
def Time.toDouble (t : Time) : ℚ :=
  rounded (rounded (t.ns.tdiv 1000000000) +
    rounded (rounded (t.ns.tmod 1000000000) * rounded (1 / 1000000000)))

/-- The quotient of two times is one of doubles. -/
def Time.ceilRatio (a b : Time) : Int := ⌈rounded (a.toDouble / b.toDouble)⌉

/-- The conversion of a whole number to a 32-bit `int`; it is undefined for one that does not fit,
and the processors that the code is built for deliver the least value. -/
def toInt32 (z : Int) : Int :=
  if -2147483648 ≤ z ∧ z < 2147483648 then z else -2147483648

namespace TimeCoordinator

def transmitTimingMessage (c : TimeCoordinator) (msg : ActionMessage) : List ActionMessage :=
  c.dependents.entries.map (fun dep => { msg with destId := dep })

def enteringExecMode (c : TimeCoordinator) (mode : IterationRequest) :
    TimeCoordinator × List ActionMessage :=
  if c.executionMode then (c, [])
  else
    let c := { c with iterating := decide (mode ≠ .noIterations), checkingExec := true }
    (c, c.transmitTimingMessage
      { messageAction := .cmdExecRequest, sourceId := c.sourceId,
        flags := if c.iterating then setActionFlag 0 iterationRequestedFlag else 0 })

def generateAllowedTime (c : TimeCoordinator) (testTime : Time) : Time :=
  if .epsilon < c.info.period then
    if testTime = .maxVal then testTime
    else if c.info.period < testTime - c.timeGrantBase then
      c.timeGrantBase +
        .wrap (toInt32 ((testTime - c.timeGrantBase).ceilRatio c.info.period) * c.info.period.ns)
    else c.timeGrantBase + c.info.period
  else testTime

def stepPeriods (period stop : Time) : Nat → Time → Time
  | 0, t => t
  | fuel + 1, t => if t < stop then stepPeriods period stop fuel (t + period) else t

def getNextPossibleTime (c : TimeCoordinator) : Time :=
  if c.timeGranted = .zero then
    if c.info.timeDelta < c.info.offset then c.info.offset
    else if c.info.offset = .zero then
      c.generateAllowedTime (max c.info.timeDelta c.info.period)
    else if c.info.period ≤ .epsilon then c.info.timeDelta
    else stepPeriods c.info.period c.info.timeDelta
      (c.info.timeDelta.ns - (c.info.offset + c.info.period).ns).toNat
      (c.info.offset + c.info.period)
  else c.generateAllowedTime (c.timeGrantBase + max c.info.timeDelta c.info.period)

/-- The interruptible execution time before it is aligned to the period. -/
def pendingExecutionTime (c : TimeCoordinator) : Time :=
  let event := min c.timeMessage c.timeValue
  let exec := min c.timeRequested (if event < .maxVal then event + c.info.inputDelay else event)
  if exec ≤ c.timeGranted then
    if c.iterating then c.timeGranted else c.getNextPossibleTime
  else exec

def nextExecutionTime (c : TimeCoordinator) : Time :=
  if c.info.uninterruptible then c.timeRequested
  else if .zero < c.pendingExecutionTime - c.timeGranted then
    c.generateAllowedTime c.pendingExecutionTime
  else c.pendingExecutionTime

def updateNextExecutionTime (c : TimeCoordinator) : Bool × TimeCoordinator :=
  (decide (c.nextExecutionTime ≠ c.timeExec), { c with timeExec := c.nextExecutionTime })

def nextPossibleEventTime (c : TimeCoordinator) : Time :=
  let next := if c.iterating then c.timeGranted else c.getNextPossibleTime
  if c.info.uninterruptible then c.timeRequested
  else
    let event := c.timeMinminDe + c.info.inputDelay
    let next := if c.timeMinminDe < .maxVal ∧ next < event then c.generateAllowedTime event
      else next
    min next c.timeExec + c.info.outputDelay

def updateNextPossibleEventTime (c : TimeCoordinator) : TimeCoordinator :=
  { c with timeNext := c.nextPossibleEventTime }

def timeRequestMessage (c : TimeCoordinator) : ActionMessage where
  messageAction := .cmdTimeRequest
  sourceId := c.sourceId
  actionTime := c.timeNext
  Te := if c.timeExec ≠ .maxVal then c.timeExec + c.info.outputDelay else c.timeExec
  Tdemin := if c.timeMinDe < c.timeNext then c.timeNext else c.timeMinDe
  flags := if c.iterating then setActionFlag 0 iterationRequestedFlag else 0
  counter := if c.iterating then UInt16.ofInt c.iteration else 0

def sendTimeRequest (c : TimeCoordinator) : List ActionMessage :=
  c.transmitTimingMessage c.timeRequestMessage

/-- The times of pending events are never earlier than the next possible grant. -/
def eventTime (c : TimeCoordinator) (updateTime : Time) : Time :=
  if c.iterating then if updateTime ≤ c.timeGranted then c.timeGranted else updateTime
  else if updateTime ≤ c.getNextPossibleTime then c.getNextPossibleTime else updateTime

/-- What follows a change of an event time: a lowered one may need a new request. -/
def afterEventUpdate (c : TimeCoordinator) (lowered : Bool) :
    TimeCoordinator × List ActionMessage :=
  if lowered then
    if c.updateNextExecutionTime.1 then
      (c.updateNextExecutionTime.2, c.updateNextExecutionTime.2.sendTimeRequest)
    else (c.updateNextExecutionTime.2, [])
  else (c, [])

def updateValueTime (c : TimeCoordinator) (valueUpdateTime : Time) :
    TimeCoordinator × List ActionMessage :=
  if c.executionMode = false then
    (if valueUpdateTime < .zero then { c with hasInitUpdates := true } else c, [])
  else if valueUpdateTime < c.timeValue then
    afterEventUpdate { c with timeValue := c.eventTime valueUpdateTime }
      (decide (c.eventTime valueUpdateTime < c.timeValue))
  else (c, [])

def updateMessageTime (c : TimeCoordinator) (messageUpdateTime : Time) :
    TimeCoordinator × List ActionMessage :=
  if c.executionMode = false then
    (if messageUpdateTime < .zero then { c with hasInitUpdates := true } else c, [])
  else if messageUpdateTime < c.timeMessage then
    afterEventUpdate { c with timeMessage := c.eventTime messageUpdateTime }
      (decide (c.eventTime messageUpdateTime < c.timeMessage))
  else (c, [])

end TimeCoordinator

structure TimeFactors where
  minNext : Time
  minminDe : Time
  minDe : Time

/-- A dependent event time below the next time is invalid and is marked as untrusted. -/
def TimeFactors.addDependency (f : TimeFactors) (dep : DependencyInfo) : TimeFactors where
  minNext := if dep.Tnext < f.minNext then dep.Tnext else f.minNext
  minminDe := if dep.Tnext ≤ dep.Tdemin then
      if dep.Tdemin < f.minminDe then dep.Tdemin else f.minminDe
    else .untrusted
  minDe := if dep.Te < f.minDe then dep.Te else f.minDe

namespace TimeCoordinator

def timeFactors (c : TimeCoordinator) : TimeFactors :=
  c.dependencies.entries.foldl TimeFactors.addDependency
    ⟨.maxVal, min c.timeValue c.timeMessage, min c.timeValue c.timeMessage⟩

def minDependentEvent (c : TimeCoordinator) : Time :=
  if c.timeFactors.minDe < .maxVal then
    c.generateAllowedTime c.timeFactors.minDe + c.info.outputDelay
  else c.timeFactors.minDe

def allowedTime (c : TimeCoordinator) : Time :=
  if c.timeFactors.minNext < .maxVal then c.info.inputDelay + c.timeFactors.minNext else .maxVal

def updateTimeFactors (c : TimeCoordinator) : Bool × TimeCoordinator :=
  let c₁ := { c with timeMinminDe := min c.timeFactors.minDe c.timeFactors.minminDe }
  let c₂ := c₁.updateNextPossibleEventTime
  let c₃ := { c₂ with timeMinDe := c.minDependentEvent, timeAllow := c.allowedTime }
  (decide (c.timeNext ≠ c₂.timeNext) || decide (c.minDependentEvent ≠ c.timeMinDe),
    c₃.updateNextExecutionTime.2)

def withRequest (c : TimeCoordinator) (nextTime : Time) (iterate : IterationRequest) :
    TimeCoordinator :=
  let c := { c with iterating := decide (iterate ≠ IterationRequest.noIterations) }
  if c.iterating then { c with timeRequested := max nextTime c.timeGranted }
  else
    let requested := max nextTime c.getNextPossibleTime
    { c with
      timeNext := if c.info.uninterruptible then requested else c.getNextPossibleTime
      timeRequested := requested }

def withEventTimes (c : TimeCoordinator) (newValueTime newMessageTime : Time) : TimeCoordinator :=
  let value := max newValueTime c.timeNext
  let message := max newMessageTime c.timeNext
  { c with
    timeValue := value
    timeMessage := message
    timeExec := if c.info.uninterruptible then c.timeRequested
      else min (min value message) c.timeRequested
    dependencies := c.dependencies.resetDependentEvents c.timeGranted }

def timeRequest (c : TimeCoordinator) (nextTime : Time) (iterate : IterationRequest)
    (newValueTime newMessageTime : Time) : TimeCoordinator × List ActionMessage :=
  let c := (c.withRequest nextTime iterate).withEventTimes newValueTime newMessageTime
  (c.updateTimeFactors.2,
    if c.updateTimeFactors.2.dependents.entries = [] then []
    else c.updateTimeFactors.2.sendTimeRequest)

def updateTimeGrant (c : TimeCoordinator) : TimeCoordinator × List ActionMessage :=
  let c := { c with
    timeGranted := c.timeExec
    timeGrantBase := c.timeExec
    dependencies := if c.iterating then c.dependencies.resetIteratingTimeRequests c.timeExec
      else c.dependencies }
  (c, c.transmitTimingMessage
    { messageAction := .cmdTimeGrant, sourceId := c.sourceId, actionTime := c.timeGranted,
      counter := UInt16.ofInt c.iteration })

def removeDependent (c : TimeCoordinator) (fedID : GlobalId) : TimeCoordinator :=
  { c with dependents := c.dependents.removeDependent fedID }

def addDependent (c : TimeCoordinator) (fedID : GlobalId) : TimeCoordinator :=
  { c with dependents := (c.dependents.addDependent fedID).2 }

def addDependency (c : TimeCoordinator) (fedID : GlobalId) : TimeCoordinator :=
  { c with dependencies := (c.dependencies.addDependency fedID).2 }

def removeDependency (c : TimeCoordinator) (fedID : GlobalId) : TimeCoordinator :=
  { c with dependencies := c.dependencies.removeDependency fedID }

def processDependencyUpdateMessage (c : TimeCoordinator) (cmd : ActionMessage) :
    TimeCoordinator :=
  match cmd.messageAction with
  | .cmdAddDependency => c.addDependency cmd.sourceId
  | .cmdRemoveDependency => c.removeDependency cmd.sourceId
  | .cmdAddDependent => c.addDependent cmd.sourceId
  | .cmdRemoveDependent => c.removeDependent cmd.sourceId
  | .cmdAddInterdependency => (c.addDependency cmd.sourceId).addDependent cmd.sourceId
  | .cmdRemoveInterdependency => (c.removeDependency cmd.sourceId).removeDependent cmd.sourceId
  | _ => c

def earliestBlock (blocks : List (Time × Int)) : Time :=
  (blocks.map Prod.fst).foldl min .maxVal

/-- An unblock that matches no block counts as one at the latest time. -/
def unblock (c : TimeCoordinator) (messageID : Int) : MessageProcessResult × TimeCoordinator :=
  if c.timeBlocks = [] then (.noEffect, c)
  else
    let ltime := match c.timeBlocks.find? (fun b => decide (b.2 = messageID)) with
      | some b => b.1
      | none => .maxVal
    let c := { c with timeBlocks := c.timeBlocks.eraseP (fun b => decide (b.2 = messageID)) }
    if ltime ≤ c.timeBlock then (.processed, { c with timeBlock := earliestBlock c.timeBlocks })
    else (.noEffect, c)

def processTimeBlockMessage (c : TimeCoordinator) (cmd : ActionMessage) :
    MessageProcessResult × TimeCoordinator :=
  match cmd.messageAction with
  | .cmdTimeBlock => (.noEffect, { c with
      timeBlocks := c.timeBlocks ++ [(cmd.actionTime, cmd.messageID)]
      timeBlock := if cmd.actionTime < c.timeBlock then cmd.actionTime else c.timeBlock })
  | .cmdTimeUnblock => c.unblock cmd.messageID
  | _ => (.noEffect, c)

def forceTimeGrant (c : TimeCoordinator) (cmd : ActionMessage) :
    MessageProcessResult × TimeCoordinator × List ActionMessage :=
  if c.timeGranted < cmd.actionTime then
    let c := { c with timeGranted := cmd.actionTime, timeGrantBase := cmd.actionTime }
    (.processed, c, c.transmitTimingMessage
      { messageAction := .cmdTimeGrant, sourceId := c.sourceId, actionTime := c.timeGranted })
  else (.noEffect, c, [])

def isDelayableMessage (cmd : ActionMessage) (localId : GlobalId) : Bool :=
  (decide (cmd.messageAction = .cmdTimeGrant) || decide (cmd.messageAction = .cmdExecGrant)) &&
    decide (cmd.sourceId ≠ localId)

/-- Whether a grant has to wait because its sender asked for a later time than this one. -/
def delaysGrantOf (c : TimeCoordinator) (dep : DependencyInfo) : Bool :=
  match dep.timeState with
  | .timeRequested => decide (c.timeExec < dep.Tnext)
  | .timeRequestedIterative =>
    decide (c.timeExec < dep.Tnext) || (c.iterating && decide (c.timeExec = dep.Tnext))
  | .execRequestedIterative => c.iterating && c.checkingExec
  | _ => false

def updateDependency (c : TimeCoordinator) (cmd : ActionMessage) :
    MessageProcessResult × TimeCoordinator :=
  (if (c.dependencies.updateTime cmd).1 then .processed else .noEffect,
    { c with dependencies := (c.dependencies.updateTime cmd).2 })

def processDependencyTime (c : TimeCoordinator) (cmd : ActionMessage) :
    MessageProcessResult × TimeCoordinator :=
  if isDelayableMessage cmd c.sourceId then
    match c.dependencies.getDependencyInfo cmd.sourceId with
    | none => (.noEffect, c)
    | some dep => if c.delaysGrantOf dep then (.delayProcessing, c) else c.updateDependency cmd
  else c.updateDependency cmd

def processTimeMessage (c : TimeCoordinator) (cmd : ActionMessage) :
    MessageProcessResult × TimeCoordinator × List ActionMessage :=
  match cmd.messageAction with
  | .cmdTimeBlock | .cmdTimeUnblock =>
    ((c.processTimeBlockMessage cmd).1, (c.processTimeBlockMessage cmd).2, [])
  | .cmdForceTimeGrant => c.forceTimeGrant cmd
  | .cmdDisconnect | .cmdBroadcastDisconnect | .cmdDisconnectCore | .cmdDisconnectFed
  | .cmdDisconnectBroker =>
    (((c.removeDependent cmd.sourceId).processDependencyTime cmd).1,
      ((c.removeDependent cmd.sourceId).processDependencyTime cmd).2, [])
  | _ => ((c.processDependencyTime cmd).1, (c.processDependencyTime cmd).2, [])

/-- The neighbours a disconnecting coordinator says goodbye to, without repetition. -/
def connections (c : TimeCoordinator) : Dependents :=
  (c.dependencies.entries.filter (fun d => decide (d.Tnext < .maxVal))).foldl
    (fun s d => s.insert d.fedID) c.dependents

/-- A goodbye addressed to the coordinator itself is processed at once, the others are sent. -/
def disconnect (c : TimeCoordinator) : TimeCoordinator × List ActionMessage :=
  let bye (fed : GlobalId) : ActionMessage :=
    { messageAction := .cmdDisconnect, sourceId := c.sourceId, destId := fed }
  let others := c.connections.entries.filter (fun fed => decide (fed ≠ c.sourceId))
  (if c.sourceId ∈ c.connections.entries then (c.processTimeMessage (bye c.sourceId)).2.1 else c,
    others.map bye)

/-- Whether the execution time can be granted once the blocks have been checked. -/
def grantsTime (c : TimeCoordinator) : Bool :=
  decide (c.timeExec < c.timeAllow) ||
    (decide (c.timeAllow = c.timeExec) &&
      ((decide (¬ c.iterating ∨ c.timeGranted < c.timeExec) &&
        decide (c.timeRequested ≤ c.timeExec)) ||
      c.dependencies.checkIfReadyForTimeGrant
        (decide (c.iterating ∧ c.timeExec ≤ c.timeGranted)) c.timeExec))

/-- A plain step restarts the iteration count, a granted iteration increases it. -/
def countIteration (c : TimeCoordinator) : TimeCoordinator :=
  if ¬ c.iterating ∨ c.timeGranted < c.timeExec then { c with iteration := 0 }
  else if c.grantsTime then { c with iteration := c.iteration + 1 }
  else c

def checkTimeGrant (c : TimeCoordinator) :
    MessageProcessingResult × TimeCoordinator × List ActionMessage :=
  let update := c.updateTimeFactors.1
  let c := c.updateTimeFactors.2
  if c.timeExec = .maxVal ∧ c.timeAllow = .maxVal then
    let c := { c with timeGranted := .maxVal, timeGrantBase := .maxVal }
    (.halted, c.disconnect.1, c.disconnect.2)
  else if c.timeBlock ≤ c.timeExec then (.continueProcessing, c, [])
  else if c.grantsTime then
    (if ¬ c.iterating ∨ c.timeGranted < c.timeExec then .nextStep else .iterating,
      c.countIteration.updateTimeGrant.1, c.countIteration.updateTimeGrant.2)
  else if c.countIteration.dependents.entries ≠ [] ∧ update then
    (.continueProcessing, c.countIteration, c.countIteration.sendTimeRequest)
  else (.continueProcessing, c.countIteration, [])

def enterExecution (c : TimeCoordinator) : TimeCoordinator × List ActionMessage :=
  let c := { c with
    timeGranted := .zero
    timeGrantBase := .zero
    executionMode := true
    iteration := 0 }
  (c, c.transmitTimingMessage { messageAction := .cmdExecGrant, sourceId := c.sourceId })

def iterateExecution (c : TimeCoordinator) : TimeCoordinator × List ActionMessage :=
  let c := { c with
    dependencies := c.dependencies.resetIteratingExecRequests
    hasInitUpdates := false
    iteration := c.iteration + 1 }
  (c, c.transmitTimingMessage
    { messageAction := .cmdExecGrant, sourceId := c.sourceId,
      counter := UInt16.ofInt c.iteration,
      flags := setActionFlag 0 iterationRequestedFlag })

def checkExecEntry (c : TimeCoordinator) :
    MessageProcessingResult × TimeCoordinator × List ActionMessage :=
  if c.timeBlock ≤ .zero then (.continueProcessing, c, [])
  else if c.dependencies.checkIfReadyForExecEntry c.iterating = false then
    (.continueProcessing, c, [])
  else if c.iterating ∧ c.hasInitUpdates ∧ c.iteration < c.info.maxIterations then
    (.iterating, c.iterateExecution.1, c.iterateExecution.2)
  else (.nextStep, c.enterExecution.1, c.enterExecution.2)

section
variable (c : TimeCoordinator) (cmd : ActionMessage)

-- what the operations change; the other fields follow by `congrArg`

theorem processDependencyTime_eq : (c.processDependencyTime cmd).2 =
    { c with dependencies := (c.processDependencyTime cmd).2.dependencies } := by
  unfold processDependencyTime
  split
  · split
    · rfl
    · split <;> rfl
  · rfl

theorem processTimeBlockMessage_eq : (c.processTimeBlockMessage cmd).2 = { c with
    timeBlocks := (c.processTimeBlockMessage cmd).2.timeBlocks
    timeBlock := (c.processTimeBlockMessage cmd).2.timeBlock } := by
  unfold processTimeBlockMessage
  split
  · rfl
  · unfold unblock
    split
    · rfl
    · dsimp only
      split <;> split <;> rfl
  · rfl

theorem processTimeMessage_eq : ∃ blocks block deps dpts granted base,
    (c.processTimeMessage cmd).2.1 = { c with
      timeBlocks := blocks, timeBlock := block, dependencies := deps, dependents := dpts
      timeGranted := granted, timeGrantBase := base } ∧
    (cmd.messageAction ≠ .cmdForceTimeGrant → granted = c.timeGranted ∧
      base = c.timeGrantBase) := by
  have hblock := c.processTimeBlockMessage_eq cmd
  have hdep := c.processDependencyTime_eq cmd
  have hleave := processDependencyTime_eq (c.removeDependent cmd.sourceId) cmd
  unfold processTimeMessage forceTimeGrant
  split
  case h_1 | h_2 => exact ⟨_, _, _, _, _, _, hblock, fun _ => ⟨rfl, rfl⟩⟩
  case h_3 hf => split <;> exact ⟨_, _, _, _, _, _, rfl, fun h => absurd hf h⟩
  case h_9 => exact ⟨_, _, _, _, _, _, hdep, fun _ => ⟨rfl, rfl⟩⟩
  all_goals exact ⟨_, _, _, _, _, _, hleave, fun _ => ⟨rfl, rfl⟩⟩

theorem disconnect_eq : c.disconnect.1 = { c with
    dependencies := c.disconnect.1.dependencies, dependents := c.disconnect.1.dependents } := by
  unfold disconnect
  split
  · exact congrArg (fun d => { c with
      dependencies := d.dependencies, dependents := d.dependents })
      (processDependencyTime_eq (c.removeDependent c.sourceId)
        { messageAction := .cmdDisconnect, sourceId := c.sourceId, destId := c.sourceId })
  · rfl

theorem countIteration_eq : c.countIteration =
    { c with iteration := c.countIteration.iteration } := by
  unfold countIteration
  split
  · rfl
  · split <;> rfl

theorem afterEventUpdate_eq (lowered : Bool) : (c.afterEventUpdate lowered).1 =
    { c with timeExec := (c.afterEventUpdate lowered).1.timeExec } := by
  unfold afterEventUpdate
  split
  · split <;> rfl
  · rfl

theorem updateValueTime_eq (t : Time) : (c.updateValueTime t).1 = { c with
    timeValue := (c.updateValueTime t).1.timeValue
    timeExec := (c.updateValueTime t).1.timeExec
    hasInitUpdates := (c.updateValueTime t).1.hasInitUpdates } := by
  unfold updateValueTime
  split
  · split <;> rfl
  · split
    · rw [afterEventUpdate_eq]
    · rfl

theorem updateMessageTime_eq (t : Time) : (c.updateMessageTime t).1 = { c with
    timeMessage := (c.updateMessageTime t).1.timeMessage
    timeExec := (c.updateMessageTime t).1.timeExec
    hasInitUpdates := (c.updateMessageTime t).1.hasInitUpdates } := by
  unfold updateMessageTime
  split
  · split <;> rfl
  · split
    · rw [afterEventUpdate_eq]
    · rfl

theorem enteringExecMode_eq (mode : IterationRequest) : (c.enteringExecMode mode).1 = { c with
    iterating := (c.enteringExecMode mode).1.iterating
    checkingExec := (c.enteringExecMode mode).1.checkingExec } := by
  unfold enteringExecMode
  split <;> rfl

theorem withRequest_eq (t : Time) (iterate : IterationRequest) : c.withRequest t iterate = { c with
    iterating := decide (iterate ≠ .noIterations)
    timeNext := (c.withRequest t iterate).timeNext
    timeRequested := (c.withRequest t iterate).timeRequested } := by
  unfold withRequest
  dsimp only
  split <;> rfl

theorem processDependencyUpdateMessage_eq : c.processDependencyUpdateMessage cmd = { c with
    dependencies := (c.processDependencyUpdateMessage cmd).dependencies
    dependents := (c.processDependencyUpdateMessage cmd).dependents } := by
  unfold processDependencyUpdateMessage
  split <;> rfl

end

end TimeCoordinator

end Helics
