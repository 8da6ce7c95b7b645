import Helics.TimeDependencies

namespace Helics

/-- The coordinator of a core or broker, which forwards the minimum of what it is told. -/
structure ForwardingTimeCoordinator where
  timeNext : Time := .zero
  timeMinminDe : Time := .zero
  timeMinDe : Time := .zero
  timeState : TimeState := .timeRequested
  lastMinFed : GlobalId := invalidGlobalId
  dependencies : TimeDependencies := .empty
  dependents : Dependents := .empty
  sourceId : GlobalId := 0
  checkingExec : Bool := false
  executionMode : Bool := false
  iterating : Bool := false
  ignoreMinFed : Bool := false

def isBroker (id : GlobalId) : Bool := decide (id = 1) || decide (1879048192 ≤ id)

structure MinTimeSet where
  minNext : Time := .maxVal
  minminDe : Time := .maxVal
  minDe : Time := .maxVal
  minFed : GlobalId := invalidGlobalId
  tState : TimeState := .timeRequested

namespace MinTimeSet

def addNext (mt : MinTimeSet) (dep : DependencyInfo) : MinTimeSet :=
  if dep.Tnext < mt.minNext then { mt with minNext := dep.Tnext, tState := dep.timeState }
  else if dep.Tnext = mt.minNext ∧ dep.timeState = .timeGranted then
    { mt with tState := dep.timeState }
  else mt

/-- A dependent event time below the next time is invalid and is marked as untrusted. -/
def addDemin (mt : MinTimeSet) (dep : DependencyInfo) : MinTimeSet :=
  if dep.Tnext ≤ dep.Tdemin then
    if dep.Tdemin < mt.minminDe then { mt with minminDe := dep.Tdemin, minFed := dep.fedID }
    else if dep.Tdemin = mt.minminDe then { mt with minFed := invalidGlobalId }
    else mt
  else { mt with minminDe := .untrusted }

def addTe (mt : MinTimeSet) (dep : DependencyInfo) : MinTimeSet :=
  if dep.Te < mt.minDe then { mt with minDe := dep.Te } else mt

def addDependency (ignore : GlobalId) (mt : MinTimeSet) (dep : DependencyInfo) : MinTimeSet :=
  if dep.fedID = ignore then mt else ((mt.addNext dep).addDemin dep).addTe dep

/-- The event minimum bounds the dependent one and, when known, pushes the next time up. -/
def finish (mt : MinTimeSet) : MinTimeSet :=
  let mm := min mt.minDe mt.minminDe
  { mt with
    minminDe := mm
    minNext := if mm < .maxVal ∧ mt.minNext < mm then mm else mt.minNext }

end MinTimeSet

def generateMinTimeSet (dependencies : TimeDependencies) (ignore : GlobalId) : MinTimeSet :=
  (dependencies.entries.foldl (MinTimeSet.addDependency ignore) {}).finish

namespace ForwardingTimeCoordinator

def getDependencyInfo (c : ForwardingTimeCoordinator) (id : GlobalId) : Option DependencyInfo :=
  c.dependencies.getDependencyInfo id

def addDependency (c : ForwardingTimeCoordinator) (id : GlobalId) : ForwardingTimeCoordinator :=
  { c with dependencies := (c.dependencies.addDependency id).2 }

def addDependent (c : ForwardingTimeCoordinator) (id : GlobalId) : ForwardingTimeCoordinator :=
  { c with dependents := (c.dependents.addDependent id).2 }

def removeDependency (c : ForwardingTimeCoordinator) (id : GlobalId) : ForwardingTimeCoordinator :=
  { c with dependencies := c.dependencies.removeDependency id }

def removeDependent (c : ForwardingTimeCoordinator) (id : GlobalId) : ForwardingTimeCoordinator :=
  { c with dependents := c.dependents.removeDependent id }

def generateTimeRequestIgnoreDependency (c : ForwardingTimeCoordinator) (msg : ActionMessage)
    (iFed : GlobalId) : ActionMessage :=
  let mt := generateMinTimeSet c.dependencies iFed
  let nTime := { msg with
    actionTime := mt.minNext
    Tdemin := mt.minminDe
    Te := mt.minDe
    destId := iFed }
  match mt.tState with
  | .timeGranted => { nTime with messageAction := .cmdTimeGrant }
  | .timeRequested => { nTime with
      messageAction := .cmdTimeRequest
      flags := clearActionFlag nTime.flags iterationRequestedFlag }
  | .timeRequestedIterative => { nTime with
      messageAction := .cmdTimeRequest
      flags := setActionFlag nTime.flags iterationRequestedFlag }
  | _ => nTime

def timingMessageFor (c : ForwardingTimeCoordinator) (msg : ActionMessage) (dep : GlobalId) :
    Option ActionMessage :=
  match c.getDependencyInfo dep with
  | some di =>
    if isBroker dep ∧ c.ignoreMinFed = false ∧ (di.Tnext = msg.actionTime ∨ di.fedID = c.lastMinFed)
    then some (c.generateTimeRequestIgnoreDependency msg dep)
    else if msg.actionTime < di.Tnext then none
    else some { msg with destId := dep }
  | none => some { msg with destId := dep }

def transmitTimingMessage (c : ForwardingTimeCoordinator) (msg : ActionMessage) :
    List ActionMessage :=
  if msg.messageAction = .cmdTimeRequest ∨ msg.messageAction = .cmdTimeGrant then
    c.dependents.entries.filterMap (c.timingMessageFor msg)
  else c.dependents.entries.map (fun dep => { msg with destId := dep })

def enteringExecMode (c : ForwardingTimeCoordinator) :
    ForwardingTimeCoordinator × List ActionMessage :=
  if c.executionMode then (c, [])
  else
    let c := { c with checkingExec := true }
    (c, c.transmitTimingMessage { messageAction := .cmdExecRequest, sourceId := c.sourceId })

def iterationFlags (c : ForwardingTimeCoordinator) : UInt16 :=
  if c.iterating then setActionFlag 0 iterationRequestedFlag else 0

def timeRequestMessage (c : ForwardingTimeCoordinator) : ActionMessage :=
  if c.timeState = .timeGranted then
    { messageAction := .cmdTimeGrant, sourceId := c.sourceId, actionTime := c.timeNext,
      flags := c.iterationFlags }
  else
    { messageAction := .cmdTimeRequest, sourceId := c.sourceId, actionTime := c.timeNext,
      Te := c.timeMinDe, Tdemin := c.timeMinminDe, flags := c.iterationFlags }

def sendTimeRequest (c : ForwardingTimeCoordinator) : List ActionMessage :=
  c.transmitTimingMessage c.timeRequestMessage

def withTimeFactors (c : ForwardingTimeCoordinator) : ForwardingTimeCoordinator :=
  let mt := generateMinTimeSet c.dependencies invalidGlobalId
  { c with
    timeState := mt.tState
    timeMinDe := mt.minDe
    timeMinminDe := mt.minminDe
    timeNext := if mt.minminDe < .maxVal ∧ mt.minNext < mt.minminDe then mt.minminDe
      else mt.minNext
    lastMinFed := mt.minFed }

/-- A new minimum federate alone is reported only when it is a broker. -/
def timeFactorsChanged (c c' : ForwardingTimeCoordinator) : Bool :=
  decide (c.timeState ≠ c'.timeState) || decide (c.timeMinDe ≠ c'.timeMinDe) ||
    decide (c.timeMinminDe ≠ c'.timeMinminDe) || decide (c.timeNext ≠ c'.timeNext) ||
    (decide (c.lastMinFed ≠ c'.lastMinFed) && isBroker c'.lastMinFed)

def updateTimeFactors (c : ForwardingTimeCoordinator) :
    ForwardingTimeCoordinator × List ActionMessage :=
  (c.withTimeFactors,
    if c.timeFactorsChanged c.withTimeFactors then c.withTimeFactors.sendTimeRequest else [])

/-- Whether execution mode is entered, the coordinator afterwards, and what it sends. -/
def checkExecEntry (c : ForwardingTimeCoordinator) :
    Bool × ForwardingTimeCoordinator × List ActionMessage :=
  if c.dependencies.checkIfReadyForExecEntry false then
    let c := { c with
      executionMode := true
      timeNext := .zero
      timeState := .timeGranted
      timeMinDe := .zero
      timeMinminDe := .zero }
    (true, c, c.transmitTimingMessage { messageAction := .cmdExecGrant, sourceId := c.sourceId })
  else (false, c, [])

def processTimeMessage (c : ForwardingTimeCoordinator) (cmd : ActionMessage) :
    Bool × ForwardingTimeCoordinator :=
  let c := match cmd.messageAction with
    | .cmdDisconnect | .cmdDisconnectBroker | .cmdDisconnectFed | .cmdDisconnectCore
    | .cmdBroadcastDisconnect => c.removeDependent cmd.sourceId
    | _ => c
  ((c.dependencies.updateTime cmd).1, { c with dependencies := (c.dependencies.updateTime cmd).2 })

def processDependencyUpdateMessage (c : ForwardingTimeCoordinator) (cmd : ActionMessage) :
    ForwardingTimeCoordinator :=
  match cmd.messageAction with
  | .cmdAddDependency => c.addDependency cmd.sourceId
  | .cmdRemoveDependency => c.removeDependency cmd.sourceId
  | .cmdAddDependent => c.addDependent cmd.sourceId
  | .cmdRemoveDependent => c.removeDependent cmd.sourceId
  | .cmdAddInterdependency => (c.addDependency cmd.sourceId).addDependent cmd.sourceId
  | .cmdRemoveInterdependency => (c.removeDependency cmd.sourceId).removeDependent cmd.sourceId
  | _ => c

def connections (c : ForwardingTimeCoordinator) : Dependents :=
  (c.dependencies.entries.filter (fun d => decide (d.Tnext < .maxVal))).foldl
    (fun s d => s.insert d.fedID) c.dependents

/-- A goodbye addressed to the coordinator itself is processed at once, the others are sent. -/
def disconnect (c : ForwardingTimeCoordinator) : ForwardingTimeCoordinator × List ActionMessage :=
  let bye (fed : GlobalId) : ActionMessage :=
    { messageAction := .cmdDisconnect, sourceId := c.sourceId, destId := fed }
  let others := c.connections.entries.filter (fun fed => decide (fed ≠ c.sourceId))
  (if c.sourceId ∈ c.connections.entries then (c.processTimeMessage (bye c.sourceId)).2 else c,
    others.map bye)

def hasActiveTimeDependencies (c : ForwardingTimeCoordinator) : Bool :=
  c.dependencies.hasActiveTimeDependencies

def receive (c : ForwardingTimeCoordinator) (cmd : ActionMessage) :
    ForwardingTimeCoordinator × List ActionMessage :=
  if isTimingCommand cmd.messageAction then
    if (c.processTimeMessage cmd).1 then (c.processTimeMessage cmd).2.updateTimeFactors
    else ((c.processTimeMessage cmd).2, [])
  else if isDependencyCommand cmd.messageAction then (c.processDependencyUpdateMessage cmd, [])
  else (c, [])

def receiveAll (c : ForwardingTimeCoordinator) (cmds : List ActionMessage) :
    ForwardingTimeCoordinator :=
  cmds.foldl (fun c cmd => (c.receive cmd).1) c

end ForwardingTimeCoordinator

end Helics
