import Helics.CoreBroker

namespace Helics

open BrokerState

variable [DualMapped String GlobalId]

/-- The coordinator of a core or broker sends through the command queue of its owner. -/
def queued (msgs : List ActionMessage) : List Effect := msgs.map .addActionMessage

namespace CoreBroker

def sendDisconnectTo (b : CoreBroker) (brk : BasicBrokerInfo) : Bool :=
  !brk.isDisconnected && decide (brk.parent = b.globalBrokerIdLocal)

/-- All direct children are told to leave and every connected entry leaves the time graph. -/
def sendDisconnect (b : CoreBroker) : CoreBroker × List Effect :=
  let bye : ActionMessage := { messageAction := .cmdDisconnect, sourceId := b.globalBrokerIdLocal }
  let byes := (b.brokers.data.filter b.sendDisconnectTo).flatMap
    (fun brk => b.routeMessageTo bye brk.globalId)
  let brokers := b.brokers.map
    (fun brk => if b.sendDisconnectTo brk then { brk with isDisconnected := true } else brk)
  if b.hasTimeDependency then
    let alone := (b.brokers.data.filter (fun brk => !brk.isDisconnected)).foldl
      (fun c brk => (c.removeDependency brk.globalId).removeDependent brk.globalId) b.timeCoord
    ({ b with brokers := brokers, timeCoord := alone.disconnect.1 },
      byes ++ queued alone.disconnect.2)
  else ({ b with brokers := brokers }, byes)

/-- Dependencies requested by name before the federate was known are set up by the root. -/
def delayedDependencyMessages (b : CoreBroker) (dep : String × GlobalId) : List Effect :=
  match b.federates.findName dep.1 with
  | some fed =>
    [b.routeMessage
        { messageAction := .cmdAddDependency, sourceId := dep.2, destId := fed.globalId },
      b.routeMessage
        { messageAction := .cmdAddDependent, sourceId := fed.globalId, destId := dep.2 }]
  | none =>
    [b.routeMessage
      { messageAction := .cmdLog, sourceId := parentBrokerId, destId := dep.2, messageID := 1,
        payload := "unable to locate " ++ dep.1 ++ " to establish dependency" }]

/-- A root with one dependency and one dependent joins the two and leaves the time graph. -/
def bypassRoot (b : CoreBroker) (dependent dependency : GlobalId) : CoreBroker × List Effect :=
  let own := b.globalBrokerIdLocal
  let msg (action : Action) (source : GlobalId) : ActionMessage :=
    { messageAction := action, sourceId := source }
  if dependency ≠ dependent then
    ({ b with timeCoord := (b.timeCoord.removeDependency dependency).removeDependent dependent },
      b.routeMessageTo (msg .cmdAddDependent dependent) dependency ++
      b.routeMessageTo (msg .cmdRemoveDependent own) dependency ++
      b.routeMessageTo (msg .cmdAddDependency dependency) dependent ++
      b.routeMessageTo (msg .cmdRemoveDependency own) dependent)
  else
    ({ b with timeCoord := (b.timeCoord.removeDependency dependent).removeDependent dependent },
      b.routeMessageTo (msg .cmdRemoveInterdependency own) dependent)

/-- A broker between its parent and one local object joins the two and leaves the time graph. -/
def bypassBroker (b : CoreBroker) (fed : GlobalId) : CoreBroker × List Effect :=
  let own := b.globalBrokerIdLocal
  let higher := b.higherBrokerId
  let msg (action : Action) (source : GlobalId) : ActionMessage :=
    { messageAction := action, sourceId := source }
  let timeCoord := (((b.timeCoord.removeDependency higher).removeDependency fed
    ).removeDependent higher).removeDependent fed
  ({ b with timeCoord := timeCoord },
    b.routeMessageTo (msg .cmdRemoveInterdependency own) higher ++
    b.routeMessageTo (msg .cmdRemoveInterdependency own) fed ++
    b.routeMessageTo (msg .cmdAddInterdependency fed) higher ++
    b.routeMessageTo (msg .cmdAddInterdependency higher) fed)

def checkDependencies (b : CoreBroker) : CoreBroker × List Effect :=
  if b.isRootc then
    let delayed := b.delayedDependencies.flatMap b.delayedDependencyMessages
    match b.timeCoord.dependents.entries, b.timeCoord.dependencies.keys with
    | [dependent], [dependency] =>
      let rest := b.bypassRoot dependent dependency
      (rest.1, delayed ++ rest.2)
    | _, _ => (b, delayed)
  else if 2 < b.timeCoord.dependents.entries.length then (b, [])
  else match b.timeCoord.dependents.entries.filter (fun dep => decide (dep ≠ b.higherBrokerId)) with
    | [fed] => b.bypassBroker fed
    | _ => (b, [])

/-- Entering initialization starts the exec requests and may complete execution entry at once. -/
def checkExecEntry (b : CoreBroker) : CoreBroker × List Effect :=
  let res := b.timeCoord.checkExecEntry
  ({ b with
      timeCoord := res.2.1
      enteredExecutionMode := b.enteredExecutionMode || res.1 }, queued res.2.2)

def enterExec (b : CoreBroker) : CoreBroker × List Effect :=
  let entering := b.timeCoord.enteringExecMode
  let rest := { b with timeCoord := entering.1 }.checkExecEntry
  (rest.1, queued entering.2 ++ rest.2)

def requiredError (b : CoreBroker) (t : UnknownKind × UnknownTarget) : ActionMessage :=
  { messageAction := .cmdError, sourceId := b.globalBrokerIdLocal, messageID := -2,
    payload := "Unable to connect to required " ++ t.1.word ++ " target " ++ t.2.key,
    destId := t.2.target.fedId, destHandle := t.2.target.handle }

def missingWarning (b : CoreBroker) (t : UnknownKind × UnknownTarget) : ActionMessage :=
  { messageAction := .cmdWarning, sourceId := b.globalBrokerIdLocal, messageID := -2,
    payload := "Unable to connect to " ++ t.1.word ++ " target " ++ t.2.key,
    destId := t.2.target.fedId, destHandle := t.2.target.handle }

/-- Required targets are looked at only when some unknown is not optional. -/
def missingRequired (b : CoreBroker) : Bool :=
  b.unknownHandles.hasUnknowns && b.unknownHandles.hasNonOptionalUnknowns &&
    b.unknownHandles.hasRequiredUnknowns

def failInitialization (b : CoreBroker) : CoreBroker × List Effect :=
  let missing : ActionMessage :=
    { messageAction := .cmdError, sourceId := b.globalBrokerIdLocal, messageID := -2,
      payload := "Missing required connections" }
  let rest := b.sendDisconnect
  (rest.1, b.unknownHandles.requiredTargets.map (fun t => b.routeMessage (b.requiredError t)) ++
    b.broadcast missing ++ rest.2 ++ [.addActionMessage { messageAction := .cmdStop }])

def grantInitialization (b : CoreBroker) : CoreBroker × List Effect :=
  let warnings :=
    if b.unknownHandles.hasUnknowns && b.unknownHandles.hasNonOptionalUnknowns then
      b.unknownHandles.nonOptionalTargets.map (fun t => b.routeMessage (b.missingWarning t))
    else []
  let grant : ActionMessage :=
    { messageAction := .cmdInitGrant, sourceId := b.globalBrokerIdLocal }
  let rest := { b with brokerState := .operating }.enterExec
  (rest.1, warnings ++ b.broadcast grant ++ rest.2)

def executeInitializationOperations (b : CoreBroker) : CoreBroker × List Effect :=
  let checked := b.checkDependencies
  let rest :=
    if checked.1.missingRequired then checked.1.failInitialization
    else checked.1.grantInitialization
  (rest.1, checked.2 ++ rest.2)

def setInitRequested (b : CoreBroker) (id : GlobalId) (flag : Bool) : CoreBroker :=
  b.modifyBrokerById id (fun brk => { brk with initRequested := flag })

def processInit (b : CoreBroker) (cmd : ActionMessage) : CoreBroker × List Effect :=
  let b := b.setInitRequested cmd.sourceId true
  if b.allInitReady then
    if b.isRootc then b.executeInitializationOperations
    else
      let checked := b.checkDependencies
      (checked.1, checked.2 ++
        [.transmit parentRouteId { cmd with sourceId := b.globalBrokerIdLocal }])
  else (b, [])

/-- The retraction of a child is passed on in the name of that child. -/
def processInitNotReady (b : CoreBroker) (cmd : ActionMessage) : CoreBroker × List Effect :=
  (b.setInitRequested cmd.sourceId false,
    if b.allInitReady then [.transmit parentRouteId cmd] else [])

/-- The grant goes out once for every entry of the broker table, indirect ones included. -/
def processInitGrant (b : CoreBroker) (cmd : ActionMessage) : CoreBroker × List Effect :=
  let rest := { b with brokerState := .operating }.enterExec
  (rest.1, b.brokers.data.map (fun brk => .transmit brk.route cmd) ++ rest.2)

def searchDependency (b : CoreBroker) (cmd : ActionMessage) : CoreBroker × List Effect :=
  match (b.federates.findName cmd.name).filter
    (fun fed => decide (fed.globalId ≠ invalidGlobalId)) with
  | some fed =>
    (b, [b.routeMessage
        { messageAction := .cmdAddDependency, sourceId := fed.globalId, destId := cmd.sourceId },
      b.routeMessage
        { messageAction := .cmdAddDependent, sourceId := cmd.sourceId, destId := fed.globalId }])
  | none =>
    if b.isRootc then
      ({ b with delayedDependencies := b.delayedDependencies ++ [(cmd.name, cmd.sourceId)] }, [])
    else (b, [b.routeMessage cmd])

/-- Before operation the root announces the departure and forgets the requests of the departed. -/
def disconnectBroker (b : CoreBroker) (id : GlobalId) (brk : BasicBrokerInfo) :
    CoreBroker × List Effect :=
  let b := b.modifyBrokerById id (fun brk => { brk with isDisconnected := true })
  if b.brokerState.code < operating.code ∧ b.isRootc then
    let cores := if brk.core then [] else b.brokers.data.filter
      (fun sub => decide (sub.parent = brk.globalId) && sub.core)
    let unknown := cores.foldl (fun u sub => u.clearFederateUnknowns sub.globalId)
      (b.unknownHandles.clearFederateUnknowns brk.globalId)
    ({ b with unknownHandles := unknown },
      b.broadcast { messageAction := .cmdBroadcastDisconnect, sourceId := brk.globalId })
  else (b, [])

def disconnectAck (b : CoreBroker) (brk : BasicBrokerInfo) : ActionMessage :=
  { messageAction := if brk.core then .cmdDisconnectCoreAck else .cmdDisconnectBrokerAck,
    sourceId := b.globalBrokerIdLocal, destId := brk.globalId }

def markAckSent (b : CoreBroker) (id : GlobalId) : CoreBroker :=
  b.modifyBrokerById id (fun brk => { brk with sentDisconnectAck := true })

def timeDisconnect (b : CoreBroker) : CoreBroker × List Effect :=
  ({ b with timeCoord := b.timeCoord.disconnect.1 }, queued b.timeCoord.disconnect.2)

def ownDisconnect (b : CoreBroker) : ActionMessage :=
  { messageAction := .cmdDisconnect, sourceId := b.globalBrokerIdLocal }

def lastDisconnect (b : CoreBroker) (id : GlobalId) (brk : Option BasicBrokerInfo) :
    CoreBroker × List Effect :=
  let left := b.timeDisconnect
  if b.isRootc then
    match brk.filter (fun brk => !brk.nonLocal) with
    | some brk => (left.1.markAckSent id, left.2 ++
        [.transmit brk.route (b.disconnectAck brk), .removeRoute brk.route,
          .addActionMessage { messageAction := .cmdStop }])
    | none => (left.1, left.2 ++ [.addActionMessage { messageAction := .cmdStop }])
  else (left.1, left.2 ++ [.transmit parentRouteId b.ownDisconnect])

def partialDisconnect (b : CoreBroker) (cmd : ActionMessage) (brk : Option BasicBrokerInfo) :
    CoreBroker × List Effect :=
  match brk with
  | none => (b, [])
  | some brk =>
    let upward := if b.isRootc = false ∧ b.brokerState.code < operating.code then
        [Effect.transmit parentRouteId
          (cmd.setAction (if brk.core then .cmdDisconnectCore else .cmdDisconnectBroker))]
      else []
    if brk.nonLocal then (b, upward)
    else (b.markAckSent cmd.sourceId,
      [.transmit brk.route (b.disconnectAck brk)] ++ upward ++ [.removeRoute brk.route])

def disconnectDependency (b : CoreBroker) (cmd : ActionMessage) : CoreBroker × List Effect :=
  if b.hasTimeDependency then
    let res := b.timeCoord.processTimeMessage cmd
    if b.enteredExecutionMode then
      if res.1 then ({ b with timeCoord := res.2.updateTimeFactors.1 },
        queued res.2.updateTimeFactors.2)
      else ({ b with timeCoord := res.2 }, [])
    else { b with timeCoord := res.2 }.checkExecEntry
  else (b, [])

def departure (b : CoreBroker) (cmd : ActionMessage) : CoreBroker × List Effect :=
  if b.isRootc = false ∧ cmd.sourceId = b.higherBrokerId then
    let rest := b.sendDisconnect
    (rest.1, rest.2 ++ [.addActionMessage { messageAction := .cmdStop }])
  else
    let brk := b.getBrokerById cmd.sourceId
    let gone := brk.elim (b, []) (b.disconnectBroker cmd.sourceId)
    let rest :=
      if gone.1.allDisconnected then gone.1.lastDisconnect cmd.sourceId brk
      else gone.1.partialDisconnect cmd brk
    (rest.1, gone.2 ++ rest.2)

/-- A disconnect by name arrives here under its own action and has no effect. -/
def processDisconnect (b : CoreBroker) (cmd : ActionMessage) : CoreBroker × List Effect :=
  match cmd.messageAction with
  | .cmdDisconnect =>
    if cmd.destId = b.globalBrokerIdLocal then b.disconnectDependency cmd
    else if cmd.destId = parentBrokerId then b.departure cmd
    else (b, [.transmit (b.getRoute cmd.destId) cmd])
  | .cmdDisconnectCore | .cmdDisconnectBroker =>
    match b.getBrokerById cmd.sourceId with
    | some brk =>
      let gone := b.disconnectBroker cmd.sourceId brk
      (gone.1, gone.2 ++ if b.isRootc then [] else [.transmit parentRouteId cmd])
    | none => (b, [])
  | _ => (b, [])

/-- The parent has acknowledged the departure, so the remaining children are acknowledged too. -/
def processBrokerDisconnectAck (b : CoreBroker) (cmd : ActionMessage) : CoreBroker × List Effect :=
  if cmd.destId = b.globalBrokerIdLocal ∧ cmd.sourceId = b.higherBrokerId then
    let waiting := b.brokers.data.filter (fun brk => !brk.sentDisconnectAck)
    ({ b with brokers := b.brokers.map (fun brk => { brk with sentDisconnectAck := true }) },
      waiting.flatMap (fun brk =>
        [.transmit brk.route (b.disconnectAck brk), .removeRoute brk.route]) ++
      [.addActionMessage { messageAction := .cmdStop }])
  else (b, [])

def processFedDisconnect (b : CoreBroker) (cmd : ActionMessage) : CoreBroker × List Effect :=
  let federates := b.federates.modifyId cmd.sourceId
    (fun fed => { fed with isDisconnected := true })
  let b := { b with federates := federates }
  if b.isRootc = false then (b, [.transmit parentRouteId cmd])
  else if b.brokerState.code < operating.code then
    ({ b with unknownHandles := b.unknownHandles.clearFederateUnknowns cmd.sourceId },
      b.broadcast (cmd.setAction .cmdBroadcastDisconnect))
  else (b, [])

def processStop (b : CoreBroker) : CoreBroker × List Effect :=
  if b.allDisconnected then (b, [])
  else
    let left := b.timeDisconnect
    (left.1, left.2 ++ if b.isRootc then [] else [.transmit parentRouteId b.ownDisconnect])

def leave (b : CoreBroker) : CoreBroker × List Effect :=
  let rest := b.sendDisconnect
  (rest.1, rest.2 ++ [.addActionMessage { messageAction := .cmdStop }])

def routeToDependents (b : CoreBroker) (cmd : ActionMessage) : List Effect :=
  b.timeCoord.dependents.entries.flatMap (b.routeMessageTo cmd)

def processExecCommand (b : CoreBroker) (cmd : ActionMessage) : CoreBroker × List Effect :=
  if cmd.destId = b.globalBrokerIdLocal then
    let told := { b with timeCoord := (b.timeCoord.processTimeMessage cmd).2 }
    if b.enteredExecutionMode then (told, []) else told.checkExecEntry
  else if cmd.sourceId = b.globalBrokerIdLocal then (b, b.routeToDependents cmd)
  else (b, [.transmit (b.getRoute cmd.destId) cmd])

def processTimeCommand (b : CoreBroker) (cmd : ActionMessage) : CoreBroker × List Effect :=
  if cmd.sourceId = b.globalBrokerIdLocal ∧ cmd.destId = parentBrokerId then
    (b, b.routeToDependents cmd)
  else if cmd.destId = b.globalBrokerIdLocal then
    let res := b.timeCoord.processTimeMessage cmd
    if res.1 then ({ b with timeCoord := res.2.updateTimeFactors.1 },
      queued res.2.updateTimeFactors.2)
    else ({ b with timeCoord := res.2 }, [])
  else (b, [b.routeMessage cmd])

/-- The message gets the handle of a known endpoint; an unknown name goes to the parent. -/
def fillMessageRouteInformation (b : CoreBroker) (cmd : ActionMessage) : RouteId × ActionMessage :=
  match b.endpoints.lookup (cmd.getString targetStringLoc) with
  | some handle => (b.getRoute handle.fedId, cmd.setDestination handle)
  | none =>
    ((b.knownExternalEndpoints.lookup (cmd.getString targetStringLoc)).getD parentRouteId, cmd)

def processMessageCommand (b : CoreBroker) (cmd : ActionMessage) : List Effect :=
  if cmd.destId = parentBrokerId then
    [.transmit (b.fillMessageRouteInformation cmd).1 (b.fillMessageRouteInformation cmd).2]
  else [.transmit (b.getRoute cmd.destId) cmd]

def processDependencyCommand (b : CoreBroker) (cmd : ActionMessage) : CoreBroker × List Effect :=
  if cmd.destId ≠ b.globalBrokerIdLocal then (b, [b.routeMessage cmd])
  else
    ({ b with
        timeCoord := b.timeCoord.processDependencyUpdateMessage cmd
        hasTimeDependency := true }, [])

/-- The name of a broker stands for its identifier when the command is for this level. -/
def resolveDisconnectName (b : CoreBroker) (cmd : ActionMessage) : ActionMessage :=
  if cmd.destId = parentBrokerId then
    match b.brokers.findName cmd.payload with
    | some brk => { cmd with sourceId := brk.globalId }
    | none => cmd
  else cmd

def processCommand (b : CoreBroker) (cmd : ActionMessage) : CoreBroker × List Effect :=
  match cmd.messageAction with
  | .cmdIgnore => (b, [])
  | .cmdCheckConnections | .cmdUserDisconnect => b.leave
  | .cmdInit => b.processInit cmd
  | .cmdInitNotReady => b.processInitNotReady cmd
  | .cmdInitGrant => b.processInitGrant cmd
  | .cmdSearchDependency => b.searchDependency cmd
  | .cmdDisconnectName => b.processDisconnect (b.resolveDisconnectName cmd)
  | .cmdDisconnect | .cmdDisconnectCore | .cmdDisconnectBroker => b.processDisconnect cmd
  | .cmdDisconnectBrokerAck => b.processBrokerDisconnectAck cmd
  | .cmdDisconnectFed => b.processFedDisconnect cmd
  | .cmdStop => b.processStop
  | .cmdBroadcastDisconnect =>
    ({ b with timeCoord := (b.timeCoord.processTimeMessage cmd).2 }, b.broadcast cmd)
  | .cmdExecRequest | .cmdExecGrant => b.processExecCommand cmd
  | .cmdTimeRequest | .cmdTimeGrant => b.processTimeCommand cmd
  | .cmdSendMessage | .cmdSendForFilter | .cmdSendForFilterAndReturn | .cmdFilterResult
  | .cmdNullMessage => (b, b.processMessageCommand cmd)
  | .cmdPub => (b, [.transmit (b.getRoute cmd.destId) cmd])
  | .cmdLog | .cmdError => (b, if b.isRootc then [] else [.transmit parentRouteId cmd])
  | .cmdAddDependency | .cmdRemoveDependency | .cmdAddDependent | .cmdRemoveDependent
  | .cmdAddInterdependency | .cmdRemoveInterdependency => b.processDependencyCommand cmd
  | _ => (b, if cmd.destId ≠ b.globalBrokerIdLocal then [b.routeMessage cmd] else [])

def isPriorityCommand : Action → Bool
  | .cmdBrokerSetup | .cmdRegFed | .cmdRegBroker | .cmdFedAck | .cmdBrokerAck
  | .cmdPriorityDisconnect => true
  | _ => false

def step (b : CoreBroker) (cmd : ActionMessage) : CoreBroker × List Effect :=
  if isPriorityCommand cmd.messageAction then b.processPriorityCommand cmd else b.processCommand cmd

def after (b : CoreBroker) (cmds : List ActionMessage) : CoreBroker := (processAll step b cmds).1

def sentDuring (b : CoreBroker) (cmds : List ActionMessage) : List Effect :=
  (processAll step b cmds).2

theorem processAll_concat (b : CoreBroker) (cmds : List ActionMessage) (cmd : ActionMessage) :
    processAll step b (cmds ++ [cmd]) =
      (((b.after cmds).step cmd).1, b.sentDuring cmds ++ ((b.after cmds).step cmd).2) := by
  induction cmds generalizing b with
  | nil => simp [processAll, after, sentDuring]
  | cons first cmds ih =>
    rw [List.cons_append, processAll, ih]
    simp [processAll, after, sentDuring]

theorem after_concat (b : CoreBroker) (cmds : List ActionMessage) (cmd : ActionMessage) :
    b.after (cmds ++ [cmd]) = ((b.after cmds).step cmd).1 := by
  rw [after, processAll_concat]

theorem sentDuring_concat (b : CoreBroker) (cmds : List ActionMessage) (cmd : ActionMessage) :
    b.sentDuring (cmds ++ [cmd]) = b.sentDuring cmds ++ ((b.after cmds).step cmd).2 := by
  rw [sentDuring, processAll_concat]

end CoreBroker

end Helics
