import Helics.BrokerCommands
import Helics.CoreFilters

namespace Helics

open CoreEffect

variable [DualMapped String GlobalId]

namespace CommonCore

/-- A new federate is forwarded to the parent once the core has been set up. -/
def regFed (c : CommonCore) (cmd : ActionMessage) : CommonCore × List CoreEffect :=
  let federates := c.loopFederates.add cmd.name none { name := cmd.name }
  let added := { c with loopFederates := federates }
  if c.globalBrokerIdLocal ≠ parentBrokerId then
    (added, [.transmit parentRouteId { cmd with sourceId := c.globalBrokerIdLocal }])
  else ({ added with delayTransmitQueue := c.delayTransmitQueue ++ [cmd] }, [])

def transmitAllDelayed (c : CommonCore) : CommonCore × List CoreEffect :=
  let named := c.delayTransmitQueue.map (fun cmd =>
    if cmd.sourceId = parentBrokerId then { cmd with sourceId := c.globalBrokerIdLocal } else cmd)
  let rest := { c with delayTransmitQueue := [] }.routeAll named
  (rest.1, rest.2)

def brokerAck (c : CommonCore) (cmd : ActionMessage) : CommonCore × List CoreEffect :=
  if cmd.payload = c.identifier ∧ checkActionFlag cmd.flags errorFlag = false then
    { c with
      globalBrokerIdLocal := cmd.destId
      higherBrokerId := cmd.sourceId
      timeCoord := { c.timeCoord with sourceId := cmd.destId } }.transmitAllDelayed
  else (c, [])

def fedAck (c : CommonCore) (cmd : ActionMessage) : CommonCore × List CoreEffect :=
  match c.loopFederates.findName cmd.name with
  | none => (c, [])
  | some fed =>
    if checkActionFlag cmd.flags errorFlag then (c, [.addAction fed.globalId cmd])
    else
      ({ c with loopFederates := (c.loopFederates.modifyName cmd.name
          (fun fed => { fed with globalId := cmd.destId })).addSearchTerm cmd.destId cmd.name },
        [.addAction cmd.destId cmd])

def processPriorityCommand (c : CommonCore) (cmd : ActionMessage) : CommonCore × List CoreEffect :=
  match cmd.messageAction with
  | .cmdRegFed => c.regFed cmd
  | .cmdRegBroker => (c, [.transmit parentRouteId cmd])
  | .cmdBrokerAck => c.brokerAck cmd
  | .cmdFedAck => c.fedAck cmd
  | .cmdPriorityDisconnect => c.checkAndProcessDisconnect.2
  | _ => (c, [])

/-- The core announces its readiness once, when all its federates have asked for it. -/
def processInit (c : CommonCore) (cmd : ActionMessage) : CommonCore × List CoreEffect :=
  match c.loopFederates.indexOfId cmd.sourceId with
  | none => (c, [])
  | some i =>
    let asked := { c with loopFederates :=
      c.loopFederates.modify i (fun fed => { fed with initTransmitted := true }) }
    if asked.allInitReady ∧ c.brokerState = .connected then
      let checked := { asked with brokerState := .initializing }.checkDependencies
      (checked.1, checked.2 ++
        [.transmit parentRouteId { cmd with sourceId := c.globalBrokerIdLocal }])
    else (asked, [])

def processInitGrant (c : CommonCore) (cmd : ActionMessage) : CommonCore × List CoreEffect :=
  if c.brokerState = .initializing then
    let entering := c.timeCoord.enteringExecMode
    let checked := { c with brokerState := .operating, timeCoord := entering.1 }.checkExecEntry
    let grants := c.loopFederates.data.map (fun fed => addAction fed.globalId cmd)
    if checked.1.timeCoord.hasActiveTimeDependencies then
      (checked.1, grants ++ coreQueued entering.2 ++ checked.2)
    else
      ({ checked.1 with timeCoord := checked.1.timeCoord.disconnect.1 },
        grants ++ coreQueued entering.2 ++ checked.2 ++ coreQueued checked.1.timeCoord.disconnect.2)
  else (c, [])

/-- A timing command of a federate waits while messages of that federate are being filtered. -/
def parks (c : CommonCore) (cmd : ActionMessage) : Bool :=
  c.isLocal cmd.sourceId && c.hasOngoing cmd.sourceId

def park (c : CommonCore) (cmd : ActionMessage) : CommonCore × List CoreEffect :=
  ({ c with delayedTimingMessages := c.delayedTimingMessages ++ [cmd] }, [])

def routeToDependents (c : CommonCore) (cmd : ActionMessage) : CommonCore × List CoreEffect :=
  c.routeAllTo (c.timeCoord.dependents.entries.map (cmd, ·))

def processExecCommand (c : CommonCore) (cmd : ActionMessage) : CommonCore × List CoreEffect :=
  if c.parks cmd then c.park cmd
  else if cmd.destId = c.globalBrokerIdLocal then
    let told := { c with timeCoord := (c.timeCoord.processTimeMessage cmd).2 }
    let rest := if c.enteredExecutionMode then (told, []) else told.checkExecEntry
    (rest.1, .timeMessage cmd :: rest.2)
  else if cmd.sourceId = c.globalBrokerIdLocal then c.routeToDependents cmd
  else c.routeMessage cmd

def processTimeCommand (c : CommonCore) (cmd : ActionMessage) : CommonCore × List CoreEffect :=
  if c.parks cmd then c.park cmd
  else if cmd.sourceId = c.globalBrokerIdLocal then c.routeToDependents cmd
  else c.routeMessage cmd

/-- The acknowledgement goes back only while other federates are still connected. -/
def acknowledgeDisconnect (c : CommonCore) (cmd : ActionMessage) : CommonCore × List CoreEffect :=
  if c.allFedDisconnected then (c, [])
  else c.routeMessage { cmd with
    messageAction := .cmdDisconnectFedAck
    destId := cmd.sourceId
    sourceId := parentBrokerId }

def processFedDisconnect (c : CommonCore) (cmd : ActionMessage) : CommonCore × List CoreEffect :=
  if cmd.destId ≠ parentBrokerId then c.routeMessage cmd
  else if c.brokerState.code < BrokerState.terminating.code then
    match c.loopFederates.indexOfId cmd.sourceId with
    | none => (c, [])
    | some i =>
      let gone := { c with loopFederates :=
        c.loopFederates.modify i (fun fed => { fed with disconnected := true }) }
      let left := gone.checkAndProcessDisconnect
      if left.1 = false ∨ c.brokerState.code < BrokerState.operating.code then
        let rest := left.2.1.acknowledgeDisconnect cmd
        (rest.1, left.2.2 ++
          [.transmit parentRouteId (cmd.setAction .cmdDisconnectFed)] ++ rest.2)
      else left.2
  else (c, [])

def sendDisconnect (c : CommonCore) : CommonCore × List CoreEffect :=
  let stops := (c.loopFederates.data.filter (fun fed => !fed.finished)).map (fun fed =>
    addAction fed.globalId
      { messageAction := .cmdStop, sourceId := c.globalBrokerIdLocal })
  if c.hasTimeDependency then
    let alone := c.loopFederates.data.foldl
      (fun t fed => (t.removeDependency fed.globalId).removeDependent fed.globalId) c.timeCoord
    ({ c with timeCoord := alone.disconnect.1 }, stops ++ coreQueued alone.disconnect.2)
  else (c, stops)

def isConnected (c : CommonCore) : Bool :=
  decide (c.brokerState = .operating) || decide (c.brokerState = .connected)

def processStop (c : CommonCore) : CommonCore × List CoreEffect :=
  if c.isConnected then
    let rest := { c with brokerState := .terminating }.sendDisconnect
    (rest.1, rest.2 ++ [.transmit parentRouteId c.ownDisconnect])
  else (c, [])

def processBroadcastDisconnect (c : CommonCore) (cmd : ActionMessage) :
    CommonCore × List CoreEffect :=
  let told := { c with timeCoord := (c.timeCoord.processTimeMessage cmd).2 }
  let left := told.checkAndProcessDisconnect
  (left.2.1, [.timeMessage cmd] ++
    c.loopFederates.data.map (fun fed => .addAction fed.globalId cmd) ++ left.2.2)

def processCoreDisconnectAck (c : CommonCore) (cmd : ActionMessage) : List CoreEffect :=
  if cmd.destId = c.globalBrokerIdLocal ∧ cmd.sourceId = c.higherBrokerId then
    (c.loopFederates.data.filter (fun fed => !fed.finished)).map (fun fed =>
        addAction fed.globalId { messageAction := .cmdDisconnectFedAck,
                                            sourceId := parentBrokerId, destId := fed.globalId }) ++
      [.addActionMessage { messageAction := .cmdStop }]
  else []

def searchDependency (c : CommonCore) (cmd : ActionMessage) : CommonCore × List CoreEffect :=
  match (c.loopFederates.findName cmd.name).filter
      (fun fed => decide (fed.globalId ≠ invalidGlobalId)) with
  | some fed => c.routeAll
    [{ messageAction := .cmdAddDependency, sourceId := fed.globalId, destId := cmd.sourceId },
      { messageAction := .cmdAddDependent, sourceId := cmd.sourceId, destId := fed.globalId }]
  | none => (c, [.transmit parentRouteId cmd])

def processError (c : CommonCore) (cmd : ActionMessage) : CommonCore × List CoreEffect :=
  if cmd.destId = c.globalBrokerIdLocal then
    (c, if cmd.sourceId = c.higherBrokerId then
        (c.loopFederates.data.filter (fun fed => !fed.disconnected)).map (fun fed =>
          .addAction fed.globalId { messageAction := .cmdError, messageID := cmd.messageID })
      else [])
  else c.routeMessage cmd

def processSendMessage (c : CommonCore) (cmd : ActionMessage) : CommonCore × List CoreEffect :=
  if cmd.destId = parentBrokerId ∧ c.isLocal cmd.sourceId then
    let filtered := c.processMessage cmd
    let rest := filtered.1.deliverMessage filtered.2.1
    (rest.1, filtered.2.2 ++ rest.2)
  else c.deliverMessage cmd

def processPub (c : CommonCore) (cmd : ActionMessage) : CommonCore × List CoreEffect :=
  if cmd.destId = parentBrokerId then
    let subscribers :=
      if c.isLocal cmd.sourceId then (c.subscribers.lookup cmd.getSource).getD [] else []
    c.routeAll (subscribers.map cmd.setDestination)
  else c.routeMessage cmd

def processCommand (c : CommonCore) (cmd : ActionMessage) : CommonCore × List CoreEffect :=
  match cmd.messageAction with
  | .cmdCheckConnections => c.checkAndProcessDisconnect.2
  | .cmdUserDisconnect =>
    (c.processStop.1, c.processStop.2 ++ [.addActionMessage { messageAction := .cmdStop }])
  | .cmdBroadcastDisconnect => c.processBroadcastDisconnect cmd
  | .cmdStop => c.processStop
  | .cmdExecGrant | .cmdExecRequest => c.processExecCommand cmd
  | .cmdTimeRequest | .cmdTimeGrant => c.processTimeCommand cmd
  | .cmdDisconnect | .cmdDisconnectFed => c.processFedDisconnect cmd
  | .cmdDisconnectCoreAck => (c, c.processCoreDisconnectAck cmd)
  | .cmdSearchDependency => c.searchDependency cmd
  | .cmdAddDependency | .cmdRemoveDependency | .cmdAddDependent | .cmdRemoveDependent
  | .cmdAddInterdependency | .cmdRemoveInterdependency => c.routeMessage cmd
  | .cmdSendForFilter | .cmdSendForFilterAndReturn | .cmdSendForDestFilterAndReturn =>
    c.processMessageFilter cmd
  | .cmdNullMessage | .cmdFilterResult => c.processFilterReturn cmd
  | .cmdDestFilterResult | .cmdNullDestMessage => c.processDestFilterReturn cmd
  | .cmdPub => c.processPub cmd
  | .cmdLog | .cmdWarning =>
    if cmd.destId = c.globalBrokerIdLocal then (c, []) else c.routeMessage cmd
  | .cmdError => c.processError cmd
  | .cmdInit => c.processInit cmd
  | .cmdInitGrant => c.processInitGrant cmd
  | .cmdSendMessage => c.processSendMessage cmd
  | _ => (c, [])

def step (c : CommonCore) (cmd : ActionMessage) : CommonCore × List CoreEffect :=
  if CoreBroker.isPriorityCommand cmd.messageAction then c.processPriorityCommand cmd
  else c.processCommand cmd

def processAll (c : CommonCore) : List ActionMessage → CommonCore × List CoreEffect
  | [] => (c, [])
  | cmd :: cmds =>
    let first := c.step cmd
    let rest := first.1.processAll cmds
    (rest.1, first.2 ++ rest.2)

end CommonCore

end Helics
