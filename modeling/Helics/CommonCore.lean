import Helics.CoreBroker

namespace Helics

variable [DualMapped String GlobalId]

/-- What a core does to the outside while it handles one command, in order. -/
inductive CoreEffect where
  | transmit (route : RouteId) (cmd : ActionMessage)
  | addAction (fed : GlobalId) (cmd : ActionMessage)
  | postTermination (fed : GlobalId) (cmd : ActionMessage)
  | timeMessage (cmd : ActionMessage)
  | addActionMessage (cmd : ActionMessage)
  | applyFilter (filter : GlobalHandle) (message : Message)
  /-- A message that is addressed by the name of its destination is given to delivery. -/
  | deliver (cmd : ActionMessage)
  | nullDereference
  /-- The 16-bit index of a filter loop passes its end and starts over. -/
  | counterWrapped
deriving DecidableEq

/-- A filter as its own core and the cores of the endpoints it acts on record it. -/
structure FilterInfo where
  coreId : GlobalId
  handle : InterfaceHandle
  cloning : Bool := false
  disconnected : Bool := false
  filterOp : Option (Message → Option Message) := none

def FilterInfo.globalHandle (f : FilterInfo) : GlobalHandle := ⟨f.coreId, f.handle⟩

/-- The filters of one endpoint, the cloning source filters first. -/
structure FilterCoordinator where
  hasSourceFilters : Bool := false
  sourceFilters : List FilterInfo := []
  destFilter : Option FilterInfo := none
  cloningDestFilters : List FilterInfo := []

structure BasicHandleInfo where
  handle : GlobalHandle
  key : String
  hasSourceFilterFlag : Bool := false
  hasDestFilterFlag : Bool := false

def BasicHandleInfo.getFederateId (h : BasicHandleInfo) : GlobalId := h.handle.fedId

def BasicHandleInfo.getInterfaceHandle (h : BasicHandleInfo) : InterfaceHandle := h.handle.handle

abbrev EndpointTable :=
  SortedTable.Table BasicHandleInfo InterfaceHandle BasicHandleInfo.getInterfaceHandle

def EndpointTable.ofList (l : List BasicHandleInfo) : EndpointTable :=
  l.foldl (fun t e => t.insert e) ⟨[], List.Pairwise.nil⟩

structure LoopFederate where
  name : String
  globalId : GlobalId := invalidGlobalId
  initTransmitted : Bool := false
  disconnected : Bool := false
  finished : Bool := false
  errored : Bool := false
  endpointCount : Nat := 0
  observer : Bool := false
  sourceOnly : Bool := false
deriving DecidableEq

/-- The counter of the messages is a 32-bit integer, which starts over after its largest value. -/
def nextMessageId (counter : Int) : Int := (counter + 1).bmod (2 ^ 32)

structure CommonCore where
  identifier : String := ""
  globalBrokerIdLocal : GlobalId := invalidGlobalId
  higherBrokerId : GlobalId := 0
  brokerState : BrokerState := .created
  loopFederates : DualMapped.Vector String GlobalId LoopFederate := .empty
  endpoints : EndpointTable := .ofList []
  subscribers : List (GlobalHandle × List GlobalHandle) := []
  filterCoord : List (InterfaceHandle × FilterCoordinator) := []
  filters : List FilterInfo := []
  knownExternalEndpoints : List (String × RouteId) := []
  routingTable : RoutingTable := []
  /-- The messages with unfinished source filtering, by federate. -/
  ongoingFilterProcesses : List (GlobalId × Int) := []
  /-- The messages with unfinished destination filtering, by federate. -/
  ongoingDestFilterProcesses : List (GlobalId × Int) := []
  /-- The parked timing messages of all federates in the order of their arrival. -/
  delayedTimingMessages : List ActionMessage := []
  delayTransmitQueue : List ActionMessage := []
  messageCounter : Int := 54
  timeCoord : ForwardingTimeCoordinator := {}
  enteredExecutionMode : Bool := false
  hasTimeDependency : Bool := false
  hasFilters : Bool := false
  minFederateCount : Int := 1
  delayInitCounter : Int := 0

def isDisconnectCommand (cmd : ActionMessage) : Bool :=
  match cmd.messageAction with
  | .cmdDisconnect | .cmdDisconnectName | .cmdUserDisconnect | .cmdDisconnectFed
  | .cmdDisconnectCore | .cmdPriorityDisconnect | .cmdTerminateImmediately | .cmdDisconnectFedAck
  | .cmdDisconnectCoreAck | .cmdDisconnectBrokerAck | .cmdDisconnectBroker
  | .cmdBroadcastDisconnect | .cmdStop => true
  | .cmdTimeGrant => decide (cmd.actionTime = .maxVal)
  | _ => false

/-- The coordinator of the core sends through the command queue of the core. -/
def coreQueued (msgs : List ActionMessage) : List CoreEffect := msgs.map .addActionMessage

namespace CommonCore

def isLocal (c : CommonCore) (id : GlobalId) : Bool := (c.loopFederates.indexOfId id).isSome

def getRoute (c : CommonCore) (id : GlobalId) : RouteId :=
  (c.routingTable.lookup id).getD parentRouteId

def getFilterCoordinator (c : CommonCore) (handle : InterfaceHandle) : Option FilterCoordinator :=
  match c.filterCoord.lookup handle with
  | some coordinator => some coordinator
  | none => if c.brokerState.code < BrokerState.operating.code then some {} else none

def endpointByHandle (c : CommonCore) (handle : InterfaceHandle) : Option BasicHandleInfo :=
  c.endpoints.find? handle

def endpointByName (c : CommonCore) (key : String) : Option BasicHandleInfo :=
  c.endpoints.entries.find? (fun e => decide (e.key = key))

def findHandle (c : CommonCore) (handle : GlobalHandle) : Option BasicHandleInfo :=
  c.endpoints.entries.find? (fun e => decide (e.handle = handle))

def findFilter (c : CommonCore) (handle : GlobalHandle) : Option FilterInfo :=
  c.filters.find? (fun f => decide (f.globalHandle = handle))

def allFedDisconnected (c : CommonCore) : Bool :=
  c.loopFederates.data.all LoopFederate.disconnected

def allDisconnected (c : CommonCore) : Bool :=
  if c.hasTimeDependency || c.hasFilters then
    c.allFedDisconnected && !c.timeCoord.hasActiveTimeDependencies
  else c.allFedDisconnected

def ownDisconnect (c : CommonCore) : ActionMessage :=
  { messageAction := .cmdDisconnect, sourceId := c.globalBrokerIdLocal }

/-- Whether the core is leaving, and what it does when it starts to leave. -/
def checkAndProcessDisconnect (c : CommonCore) : Bool × CommonCore × List CoreEffect :=
  if c.brokerState = .terminating ∨ c.brokerState = .terminated then (true, c, [])
  else if c.allDisconnected then
    (true, { c with brokerState := .terminating, timeCoord := c.timeCoord.disconnect.1 },
      coreQueued c.timeCoord.disconnect.2 ++ [.transmit parentRouteId c.ownDisconnect])
  else (false, c, [])

def checkExecEntry (c : CommonCore) : CommonCore × List CoreEffect :=
  let res := c.timeCoord.checkExecEntry
  ({ c with
      timeCoord := res.2.1
      enteredExecutionMode := c.enteredExecutionMode || res.1 }, coreQueued res.2.2)

def coordinate (c : CommonCore) (cmd : ActionMessage) : CommonCore × List CoreEffect :=
  let res := c.timeCoord.processTimeMessage cmd
  let told := { c with timeCoord := res.2 }
  if c.enteredExecutionMode = false then
    let rest := told.checkExecEntry
    (rest.1, .timeMessage cmd :: rest.2)
  else if res.1 then
    ({ c with timeCoord := res.2.updateTimeFactors.1 },
      .timeMessage cmd :: coreQueued res.2.updateTimeFactors.2)
  else (told, [.timeMessage cmd])

def higherDisconnect (c : CommonCore) : CommonCore × List CoreEffect :=
  let left : CommonCore := { c with brokerState := .terminating }
  let timed : CommonCore × List CoreEffect :=
    if c.hasTimeDependency || c.hasFilters then
      ({ left with timeCoord := c.timeCoord.disconnect.1 }, coreQueued c.timeCoord.disconnect.2)
    else (left, [])
  let running := c.loopFederates.data.filter (fun fed => !fed.finished && !fed.errored)
  (timed.1, timed.2 ++ running.map (fun fed => .addAction fed.globalId
      { messageAction := .cmdDisconnectFedAck, sourceId := parentBrokerId, destId := fed.globalId })
    ++ [.addActionMessage { messageAction := .cmdStop }])

def processCommandsForCore (c : CommonCore) (cmd : ActionMessage) : CommonCore × List CoreEffect :=
  if isTimingCommand cmd.messageAction then
    let told := c.coordinate cmd
    if isDisconnectCommand cmd then
      if cmd.messageAction = .cmdDisconnect ∧ cmd.sourceId = c.higherBrokerId then
        (told.1.higherDisconnect.1, told.2 ++ told.1.higherDisconnect.2)
      else
        let left := told.1.checkAndProcessDisconnect
        (left.2.1, told.2 ++ left.2.2)
    else told
  else if isDependencyCommand cmd.messageAction then
    ({ c with timeCoord := c.timeCoord.processDependencyUpdateMessage cmd }, [])
  else (c, [])

/-- A finished federate, and for copied commands also one in error, only answers. -/
def toFederate (fed : LoopFederate) (cmd : ActionMessage) (moved : Bool) : CoreEffect :=
  if fed.finished || (!moved && fed.errored) then .postTermination cmd.destId cmd
  else .addAction cmd.destId cmd

/-- The overload for moved commands looks only at the finished state of a federate. -/
def route (c : CommonCore) (cmd : ActionMessage) (moved : Bool) : CommonCore × List CoreEffect :=
  if cmd.destId = parentBrokerId ∨ cmd.destId = c.higherBrokerId then
    (c, [.transmit parentRouteId cmd])
  else if cmd.destId = c.globalBrokerIdLocal then c.processCommandsForCore cmd
  else match c.loopFederates.findId cmd.destId with
    | some fed => (c, [toFederate fed cmd moved])
    | none => (c, [.transmit (c.getRoute cmd.destId) cmd])

def routeMessage (c : CommonCore) (cmd : ActionMessage) : CommonCore × List CoreEffect :=
  c.route cmd false

def routeMovedMessage (c : CommonCore) (cmd : ActionMessage) : CommonCore × List CoreEffect :=
  c.route cmd true

/-- Routing to the invalid identifier does nothing, and errors do not stop a federate. -/
def routeMessageTo (c : CommonCore) (cmd : ActionMessage) (dest : GlobalId) :
    CommonCore × List CoreEffect :=
  if dest = invalidGlobalId then (c, []) else c.route { cmd with destId := dest } true

def routeAll (c : CommonCore) : List ActionMessage → CommonCore × List CoreEffect
  | [] => (c, [])
  | cmd :: cmds =>
    let first := c.routeMessage cmd
    let rest := first.1.routeAll cmds
    (rest.1, first.2 ++ rest.2)

/-- What had to wait for the filtering of the messages of a federate is routed in order. -/
def transmitDelayedMessages (c : CommonCore) (source : GlobalId) : CommonCore × List CoreEffect :=
  let mine (cmd : ActionMessage) := decide (cmd.sourceId = source)
  let held := c.delayTransmitQueue.filter mine
  let parked := c.delayedTimingMessages.filter mine
  let rest := c.routeAll (held ++ parked)
  ({ rest.1 with
      delayTransmitQueue := c.delayTransmitQueue.filter (fun cmd => !mine cmd)
      delayedTimingMessages := c.delayedTimingMessages.filter (fun cmd => !mine cmd) }, rest.2)

def allInitReady (c : CommonCore) : Bool :=
  decide (c.delayInitCounter ≤ 0) && decide (c.minFederateCount ≤ c.loopFederates.size) &&
    c.loopFederates.data.all LoopFederate.initTransmitted

/-- The federates whose core stops to depend on them, and those who stop to depend on their core. -/
def observers (c : CommonCore) : List LoopFederate :=
  c.loopFederates.data.filter (fun fed => decide (0 < fed.endpointCount) && fed.observer)

def pureSources (c : CommonCore) : List LoopFederate :=
  c.loopFederates.data.filter
    (fun fed => decide (0 < fed.endpointCount) && !fed.observer && fed.sourceOnly)

/-- Observers and pure sources among the federates with endpoints lose one direction. -/
def trimDependencies (c : CommonCore) : CommonCore × List CoreEffect :=
  let timeCoord := c.pureSources.foldl (fun t fed => t.removeDependent fed.globalId)
    (c.observers.foldl (fun t fed => t.removeDependency fed.globalId) c.timeCoord)
  let tell (action : Action) (fed : LoopFederate) : CoreEffect := .addAction fed.globalId
    { messageAction := action, sourceId := c.globalBrokerIdLocal, destId := fed.globalId }
  ({ c with timeCoord := timeCoord },
    c.observers.map (tell .cmdRemoveDependent) ++ c.pureSources.map (tell .cmdRemoveDependency))

def routeAllTo (c : CommonCore) : List (ActionMessage × GlobalId) → CommonCore × List CoreEffect
  | [] => (c, [])
  | (cmd, dest) :: cmds =>
    let first := c.routeMessageTo cmd dest
    let rest := first.1.routeAllTo cmds
    (rest.1, first.2 ++ rest.2)

def removalMessages (n fed brk : GlobalId) (observer source : Bool) :
    List (ActionMessage × GlobalId) :=
  let msg (action : Action) (source : GlobalId) : ActionMessage :=
    { messageAction := action, sourceId := source }
  [(msg .cmdRemoveInterdependency n, brk), (msg .cmdRemoveInterdependency n, fed)] ++
    (if observer then [(msg .cmdAddDependent fed, brk), (msg .cmdAddDependency brk, fed)]
    else if source then [(msg .cmdAddDependency fed, brk), (msg .cmdAddDependent brk, fed)]
    else [(msg .cmdAddInterdependency fed, brk), (msg .cmdAddInterdependency fed, fed),
      (msg .cmdAddInterdependency brk, fed)])

/-- A core between its parent and one federate joins the two and leaves the time graph. -/
def bypassCore (c : CommonCore) (fed brk : GlobalId) (observer source : Bool) :
    CommonCore × List CoreEffect :=
  let timeCoord := (((c.timeCoord.removeDependency brk).removeDependency fed
    ).removeDependent brk).removeDependent fed
  { c with timeCoord := timeCoord, hasTimeDependency := false }.routeAllTo
    (removalMessages c.globalBrokerIdLocal fed brk observer source)

/-- The last local and the last other dependent of the coordinator, and the number of local ones. -/
def localDependents (c : CommonCore) : GlobalId × GlobalId × Nat :=
  let dependents := c.timeCoord.dependents.entries
  let feds := dependents.filter c.isLocal
  let others := dependents.filter (fun dep => !c.isLocal dep)
  (feds.getLast?.getD invalidGlobalId, others.getLast?.getD invalidGlobalId, feds.length)

def hasObserver (c : CommonCore) : Bool :=
  c.loopFederates.data.any (fun f => decide (0 < f.endpointCount) && f.observer)

def hasPureSource (c : CommonCore) : Bool :=
  c.loopFederates.data.any (fun f => decide (0 < f.endpointCount) && !f.observer && f.sourceOnly)

def checkDependencies (c : CommonCore) : CommonCore × List CoreEffect :=
  let trimmed := c.trimDependencies
  let t := trimmed.1
  let (fed, brk, count) := t.localDependents
  if t.hasFilters ∨ 2 < t.timeCoord.dependents.entries.length ∨
      2 < t.timeCoord.dependencies.keys.length ∨ 1 < count then trimmed
  else if count = 0 ∧ brk = invalidGlobalId then
    ({ t with hasTimeDependency := false }, trimmed.2)
  else if t.timeCoord.dependencies.keys.all (fun dep => decide (dep = fed ∨ dep = brk)) then
    let rest := t.bypassCore fed brk c.hasObserver c.hasPureSource
    (rest.1, trimmed.2 ++ rest.2)
  else trimmed

end CommonCore

end Helics
