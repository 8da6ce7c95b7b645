import Helics.DualMappedVector
import Helics.ForwardingTimeCoordinator

namespace Helics

/-- A request for a named interface that is not registered yet. -/
structure UnknownTarget where
  key : String
  target : GlobalHandle
  flags : UInt16 := 0
deriving DecidableEq

inductive UnknownKind where
  | publication
  | endpoint
  | input
  | filter
deriving DecidableEq, Repr

def UnknownKind.word : UnknownKind → String
  | .publication => "publication"
  | .endpoint => "endpoint"
  | .input => "input"
  | .filter => "filter"

structure UnknownHandleManager where
  unknownPublications : List UnknownTarget := []
  unknownEndpoints : List UnknownTarget := []
  unknownInputs : List UnknownTarget := []
  unknownFilters : List UnknownTarget := []
  unknownLinks : List (String × String) := []
  unknownSrcFilters : List (String × String) := []
  unknownDestFilters : List (String × String) := []

namespace UnknownHandleManager

/-- The targets of all tables in the order in which the source visits the tables. -/
def targets (u : UnknownHandleManager) : List (UnknownKind × UnknownTarget) :=
  u.unknownPublications.map (.publication, ·) ++ u.unknownEndpoints.map (.endpoint, ·) ++
    u.unknownInputs.map (.input, ·) ++ u.unknownFilters.map (.filter, ·)

def hasUnknowns (u : UnknownHandleManager) : Bool :=
  !(u.unknownPublications.isEmpty && u.unknownEndpoints.isEmpty && u.unknownInputs.isEmpty &&
    u.unknownFilters.isEmpty && u.unknownLinks.isEmpty && u.unknownDestFilters.isEmpty &&
    u.unknownSrcFilters.isEmpty)

def nonOptionalTargets (u : UnknownHandleManager) : List (UnknownKind × UnknownTarget) :=
  u.targets.filter (fun t => !checkActionFlag t.2.flags optionalFlag)

def requiredTargets (u : UnknownHandleManager) : List (UnknownKind × UnknownTarget) :=
  u.targets.filter (fun t => checkActionFlag t.2.flags requiredFlag)

def hasNonOptionalUnknowns (u : UnknownHandleManager) : Bool :=
  !(u.unknownLinks.isEmpty && u.unknownDestFilters.isEmpty && u.unknownSrcFilters.isEmpty) ||
    !u.nonOptionalTargets.isEmpty

def hasRequiredUnknowns (u : UnknownHandleManager) : Bool := !u.requiredTargets.isEmpty

def clearFederateUnknowns (u : UnknownHandleManager) (id : GlobalId) : UnknownHandleManager :=
  let keep (l : List UnknownTarget) := l.filter (fun t => decide (t.target.fedId ≠ id))
  { u with
    unknownPublications := keep u.unknownPublications
    unknownEndpoints := keep u.unknownEndpoints
    unknownFilters := keep u.unknownFilters
    unknownInputs := keep u.unknownInputs }

def addUnknownPublication (u : UnknownHandleManager) (key : String) (target : GlobalHandle)
    (flags : UInt16) : UnknownHandleManager :=
  { u with unknownPublications := u.unknownPublications ++ [⟨key, target, flags⟩] }

def addUnknownInput (u : UnknownHandleManager) (key : String) (target : GlobalHandle)
    (flags : UInt16) : UnknownHandleManager :=
  { u with unknownInputs := u.unknownInputs ++ [⟨key, target, flags⟩] }

def addUnknownEndpoint (u : UnknownHandleManager) (key : String) (target : GlobalHandle)
    (flags : UInt16) : UnknownHandleManager :=
  { u with unknownEndpoints := u.unknownEndpoints ++ [⟨key, target, flags⟩] }

def addUnknownFilter (u : UnknownHandleManager) (key : String) (target : GlobalHandle)
    (flags : UInt16) : UnknownHandleManager :=
  { u with unknownFilters := u.unknownFilters ++ [⟨key, target, flags⟩] }

def addDataLink (u : UnknownHandleManager) (source target : String) : UnknownHandleManager :=
  { u with unknownLinks := u.unknownLinks ++ [(source, target)] }

def addSourceFilterLink (u : UnknownHandleManager) (filter endpoint : String) :
    UnknownHandleManager :=
  { u with unknownSrcFilters := u.unknownSrcFilters ++ [(filter, endpoint)] }

def addDestinationFilterLink (u : UnknownHandleManager) (filter endpoint : String) :
    UnknownHandleManager :=
  { u with unknownDestFilters := u.unknownDestFilters ++ [(filter, endpoint)] }

def getTargets (table : List UnknownTarget) (name : String) : List UnknownTarget :=
  table.filter (fun t => decide (t.key = name))

def getLinks (table : List (String × String)) (name : String) : List String :=
  (table.filter (fun p => decide (p.1 = name))).map Prod.snd

def withoutKey (table : List UnknownTarget) (name : String) : List UnknownTarget :=
  table.filter (fun t => decide (t.key ≠ name))

def withoutLinks (table : List (String × String)) (name : String) : List (String × String) :=
  table.filter (fun p => decide (p.1 ≠ name))

def clearInput (u : UnknownHandleManager) (name : String) : UnknownHandleManager :=
  { u with unknownInputs := withoutKey u.unknownInputs name }

def clearPublication (u : UnknownHandleManager) (name : String) : UnknownHandleManager :=
  { u with
    unknownPublications := withoutKey u.unknownPublications name
    unknownLinks := withoutLinks u.unknownLinks name }

def clearEndpoint (u : UnknownHandleManager) (name : String) : UnknownHandleManager :=
  { u with unknownEndpoints := withoutKey u.unknownEndpoints name }

def clearFilter (u : UnknownHandleManager) (name : String) : UnknownHandleManager :=
  { u with
    unknownFilters := withoutKey u.unknownFilters name
    unknownSrcFilters := withoutLinks u.unknownSrcFilters name
    unknownDestFilters := withoutLinks u.unknownDestFilters name }

end UnknownHandleManager

inductive BrokerState where
  | created
  | configuring
  | configured
  | connecting
  | connected
  | initializing
  | operating
  | terminating
  | terminated
  | errored
deriving DecidableEq, Repr

def BrokerState.code : BrokerState → Int
  | .created => -6
  | .configuring => -5
  | .configured => -4
  | .connecting => -3
  | .connected => -2
  | .initializing => -1
  | .operating => 0
  | .terminating => 1
  | .terminated => 3
  | .errored => 7

def invalidRouteId : RouteId := -1295148000

/-- What a core or broker does to the outside while it handles one command. -/
inductive Effect where
  | transmit (route : RouteId) (cmd : ActionMessage)
  | addActionMessage (cmd : ActionMessage)
  | addRoute (route : RouteId) (address : String)
  | removeRoute (route : RouteId)
deriving DecidableEq

structure BasicFedInfo where
  name : String
  globalId : GlobalId := invalidGlobalId
  route : RouteId := invalidRouteId
  parent : GlobalId := invalidGlobalId
  isDisconnected : Bool := false
deriving DecidableEq

structure BasicBrokerInfo where
  name : String
  globalId : GlobalId := invalidGlobalId
  route : RouteId := invalidRouteId
  parent : GlobalId := invalidGlobalId
  initRequested : Bool := false
  isDisconnected : Bool := false
  core : Bool := false
  nonLocal : Bool := false
  routeKey : Bool := false
  sentDisconnectAck : Bool := false
deriving DecidableEq

/-- Indirect entries are vouched for by the broker they registered through. -/
def BasicBrokerInfo.initReady (brk : BasicBrokerInfo) : Bool := brk.nonLocal || brk.initRequested

abbrev RoutingTable := List (GlobalId × RouteId)

def RoutingTable.emplace (t : RoutingTable) (id : GlobalId) (route : RouteId) : RoutingTable :=
  if (t.lookup id).isSome then t else t ++ [(id, route)]

def RoutingTable.assign (t : RoutingTable) (id : GlobalId) (route : RouteId) : RoutingTable :=
  t.filter (fun p => decide (p.1 ≠ id)) ++ [(id, route)]

variable [DualMapped String GlobalId]

structure CoreBroker where
  identifier : String := ""
  globalId : GlobalId := invalidGlobalId
  isRoot : Bool := false
  globalBrokerIdLocal : GlobalId := invalidGlobalId
  higherBrokerId : GlobalId := 0
  isRootc : Bool := false
  connectionEstablished : Bool := false
  brokerState : BrokerState := .created
  routeCount : Int := 1
  federates : DualMapped.Vector String GlobalId BasicFedInfo := .empty
  brokers : DualMapped.Vector String GlobalId BasicBrokerInfo := .empty
  routingTable : RoutingTable := []
  endpoints : List (String × GlobalHandle) := []
  knownExternalEndpoints : List (String × RouteId) := []
  earlyMessages : List ActionMessage := []
  delayTransmitQueue : List ActionMessage := []
  delayedDependencies : List (String × GlobalId) := []
  unknownHandles : UnknownHandleManager := {}
  timeCoord : ForwardingTimeCoordinator := {}
  hasTimeDependency : Bool := false
  enteredExecutionMode : Bool := false
  minFederateCount : Int := 1
  minBrokerCount : Int := 0

namespace CoreBroker

def getRoute (b : CoreBroker) (id : GlobalId) : RouteId :=
  if id = parentBrokerId ∨ id = b.higherBrokerId then parentRouteId
  else (b.routingTable.lookup id).getD parentRouteId

/-- The root computes the position of a broker from its identifier, others search for it. -/
def brokerIndex (b : CoreBroker) (id : GlobalId) : Option Nat :=
  if b.isRootc then
    if 0 ≤ id - globalBrokerIdShift ∧ id - globalBrokerIdShift < b.brokers.size then
      some (id - globalBrokerIdShift).toNat
    else none
  else b.brokers.indexOfId id

def getBrokerById (b : CoreBroker) (id : GlobalId) : Option BasicBrokerInfo :=
  (b.brokerIndex id).bind (b.brokers.data[·]?)

def modifyBrokerById (b : CoreBroker) (id : GlobalId) (f : BasicBrokerInfo → BasicBrokerInfo) :
    CoreBroker :=
  { b with brokers := (b.brokerIndex id).elim b.brokers (b.brokers.modify · f) }

def routeMessageTo (b : CoreBroker) (cmd : ActionMessage) (dest : GlobalId) : List Effect :=
  if dest = invalidGlobalId then []
  else [.transmit (b.getRoute dest) { cmd with destId := dest }]

def routeMessage (b : CoreBroker) (cmd : ActionMessage) : Effect :=
  .transmit (b.getRoute cmd.destId) cmd

def broadcast (b : CoreBroker) (cmd : ActionMessage) : List Effect :=
  (b.brokers.data.filter (fun brk => !brk.nonLocal && !brk.isDisconnected)).map
    (fun brk => .transmit brk.route { cmd with destId := brk.globalId })

def allInitReady (b : CoreBroker) : Bool :=
  decide (b.minFederateCount ≤ b.federates.size) && decide (b.minBrokerCount ≤ b.brokers.size) &&
    b.brokers.data.all BasicBrokerInfo.initReady

def allDisconnected (b : CoreBroker) : Bool :=
  b.brokers.data.all (fun brk => brk.nonLocal || brk.isDisconnected)

/-- The retraction sent upward when a registration arrives at a ready broker. -/
def initNotReadyNotice (b : CoreBroker) : List Effect :=
  if b.allInitReady then
    [.transmit parentRouteId
      { messageAction := .cmdInitNotReady, sourceId := b.globalBrokerIdLocal }]
  else []

def errorAck (b : CoreBroker) (ack : Action) (code : Int) (name : String) : ActionMessage :=
  { messageAction := ack, flags := setActionFlag 0 errorFlag, sourceId := b.globalBrokerIdLocal,
    messageID := code, payload := name }

def fedReply (b : CoreBroker) (name : String) (id : GlobalId) : ActionMessage :=
  { messageAction := .cmdFedAck, sourceId := b.globalBrokerIdLocal, destId := id, payload := name }

/-- The root gives a new federate the next identifier and acknowledges it at once. -/
def acceptFederate (b : CoreBroker) (name : String) (route : RouteId) : CoreBroker × List Effect :=
  let index := b.federates.size - 1
  let id := (index : Int) + globalFederateIdShift
  ({ b with
      federates := (b.federates.modify index (fun fed => { fed with globalId := id })
        ).addSearchTermForIndex id index
      routingTable := b.routingTable.emplace id route },
    [.transmit route (b.fedReply name id)])

/-- A broker without an identifier of its own holds the registration back. -/
def forwardRegistration (b : CoreBroker) (cmd : ActionMessage) (registered : Bool) :
    CoreBroker × List Effect :=
  if registered then
    (b, [.transmit parentRouteId { cmd with sourceId := b.globalBrokerIdLocal }])
  else ({ b with delayTransmitQueue := b.delayTransmitQueue ++ [cmd] }, [])

def regFed (b : CoreBroker) (cmd : ActionMessage) : CoreBroker × List Effect :=
  if b.connectionEstablished = false then
    ({ b with earlyMessages := b.earlyMessages ++ [cmd] }, [])
  else if b.brokerState = .operating then
    (b, [.transmit (b.getRoute cmd.sourceId) (b.errorAck .cmdFedAck 5 cmd.name)])
  else if (b.federates.indexOfName cmd.name).isSome then
    (b, b.initNotReadyNotice ++
      [.transmit (b.getRoute cmd.sourceId) (b.errorAck .cmdFedAck 6 cmd.name)])
  else
    let route := b.getRoute cmd.sourceId
    let fed : BasicFedInfo := { name := cmd.name, route := route, parent := cmd.sourceId }
    let added := { b with federates := b.federates.add cmd.name none fed }
    let rest :=
      if b.isRootc then added.acceptFederate cmd.name route
      else added.forwardRegistration cmd (decide (b.globalBrokerIdLocal ≠ invalidGlobalId))
    (rest.1, b.initNotReadyNotice ++ rest.2)

/-- A registration without a valid source comes from a direct child over a new connection. -/
def fromNewConnection (cmd : ActionMessage) : Bool :=
  decide (cmd.sourceId = invalidGlobalId) || decide (cmd.sourceId = parentBrokerId)

/-- A refused broker on a new connection gets a route that exists for the answer only. -/
def refuseBroker (b : CoreBroker) (cmd : ActionMessage) (code : Int) : CoreBroker × List Effect :=
  if fromNewConnection cmd then
    ({ b with routeCount := b.routeCount + 1 },
      [.addRoute b.routeCount (cmd.getString targetStringLoc),
        .transmit b.routeCount (b.errorAck .cmdBrokerAck code cmd.name),
        .removeRoute b.routeCount])
  else (b, [.transmit (b.getRoute cmd.sourceId) (b.errorAck .cmdBrokerAck code cmd.name)])

def brokerReply (b : CoreBroker) (name : String) (id : GlobalId) : ActionMessage :=
  { messageAction := .cmdBrokerAck, sourceId := b.globalBrokerIdLocal, destId := id,
    payload := name }

/-- A repeated registration of a known broker gives it a new route and repeats the answer. -/
def resendBrokerAck (b : CoreBroker) (cmd : ActionMessage) (brk : BasicBrokerInfo) :
    CoreBroker × List Effect :=
  ({ b with
      routeCount := b.routeCount + 1
      brokers := b.brokers.modifyName cmd.name (fun brk => { brk with route := b.routeCount })
      routingTable := b.routingTable.assign brk.globalId b.routeCount },
    [.addRoute b.routeCount (cmd.getString targetStringLoc),
      .transmit b.routeCount (b.brokerReply cmd.name brk.globalId)])

def newBrokerInfo (b : CoreBroker) (cmd : ActionMessage) : BasicBrokerInfo :=
  if fromNewConnection cmd then
    { name := cmd.name, route := b.routeCount, parent := b.globalBrokerIdLocal, routeKey := true,
      core := checkActionFlag cmd.flags coreFlag }
  else
    { name := cmd.name, route := b.getRoute cmd.sourceId, parent := cmd.sourceId, nonLocal := true,
      core := checkActionFlag cmd.flags coreFlag }

def acceptBroker (b : CoreBroker) (name : String) (route : RouteId) : CoreBroker × List Effect :=
  let index := b.brokers.size - 1
  let id := (index : Int) + globalBrokerIdShift
  ({ b with
      brokers := (b.brokers.modify index (fun brk => { brk with globalId := id })
        ).addSearchTermForIndex id index
      routingTable := b.routingTable.emplace id route },
    [.transmit route (b.brokerReply name id)])

def addBroker (b : CoreBroker) (cmd : ActionMessage)
    (brokers : DualMapped.Vector String GlobalId BasicBrokerInfo) : CoreBroker × List Effect :=
  let added := { b with
    routeCount := if fromNewConnection cmd then b.routeCount + 1 else b.routeCount
    brokers := brokers }
  let rest :=
    if b.isRootc then added.acceptBroker cmd.name (b.newBrokerInfo cmd).route
    else added.forwardRegistration cmd
      (decide (b.globalBrokerIdLocal ≠ invalidGlobalId ∧ b.globalBrokerIdLocal ≠ parentBrokerId))
  (rest.1,
    (if fromNewConnection cmd then [.addRoute b.routeCount (cmd.getString targetStringLoc)] else [])
      ++ rest.2)

def regNewBroker (b : CoreBroker) (cmd : ActionMessage) : CoreBroker × List Effect :=
  if b.brokerState = .operating then b.refuseBroker cmd 5
  else
    let rest := match b.brokers.insert cmd.name none (b.newBrokerInfo cmd) with
      | none => b.refuseBroker cmd 7
      | some brokers => b.addBroker cmd brokers
    (rest.1, b.initNotReadyNotice ++ rest.2)

def regBroker (b : CoreBroker) (cmd : ActionMessage) : CoreBroker × List Effect :=
  if b.connectionEstablished = false then
    ({ b with earlyMessages := b.earlyMessages ++ [cmd] }, [])
  else match if 0 < cmd.counter then b.brokers.findName cmd.name else none with
    | some brk => b.resendBrokerAck cmd brk
    | none => b.regNewBroker cmd

/-- The answer for a known federate is passed on, one for an unknown federate is only recorded. -/
def fedAck (b : CoreBroker) (cmd : ActionMessage) : CoreBroker × List Effect :=
  match b.federates.findName cmd.name with
  | some fed =>
    ({ b with
        federates := (b.federates.modifyName cmd.name
          (fun fed => { fed with globalId := cmd.destId })).addSearchTerm cmd.destId cmd.name
        routingTable := b.routingTable.emplace cmd.destId fed.route },
      [.transmit fed.route cmd])
  | none =>
    -- The code takes the identifier from the iterator of the search, which has become the new entry
    -- or, where the vector was moved, points to no entry any more.
    let route := b.getRoute cmd.sourceId
    ({ b with
        federates := b.federates.add cmd.name (some cmd.destId)
          { name := cmd.name, route := route, globalId := cmd.destId }
        routingTable := b.routingTable.emplace cmd.destId route }, [])

/-- The broker learns its own identifier and sends what it had to hold back. -/
def ownAck (b : CoreBroker) (cmd : ActionMessage) : CoreBroker × List Effect :=
  ({ b with
      globalBrokerIdLocal := cmd.destId
      globalId := cmd.destId
      higherBrokerId := cmd.sourceId
      timeCoord := { b.timeCoord with sourceId := cmd.destId }
      delayTransmitQueue := []
      brokers := b.brokers.map
        (fun brk => if brk.nonLocal then brk else { brk with parent := cmd.destId }) },
    b.delayTransmitQueue.map
      (fun msg => .transmit parentRouteId { msg with sourceId := cmd.destId }))

def brokerAck (b : CoreBroker) (cmd : ActionMessage) : CoreBroker × List Effect :=
  if cmd.name = b.identifier then
    if checkActionFlag cmd.flags errorFlag then (b, []) else b.ownAck cmd
  else match b.brokers.findName cmd.name with
    | some brk =>
      if brk.globalId = cmd.destId then (b, [])
      else
        ({ b with
            brokers := (b.brokers.modifyName cmd.name
              (fun brk => { brk with globalId := cmd.destId })).addSearchTerm cmd.destId cmd.name
            routingTable := b.routingTable.emplace cmd.destId brk.route },
          [.transmit brk.route { cmd with sourceId := b.globalBrokerIdLocal }])
    | none =>
      -- The same use of the iterator as for a federate that is not known.
      let route := b.getRoute cmd.sourceId
      ({ b with
          brokers := b.brokers.add cmd.name (some cmd.destId)
            { name := cmd.name, route := route, globalId := cmd.destId }
          routingTable := b.routingTable.emplace cmd.destId route }, [])

def priorityDisconnect (b : CoreBroker) (cmd : ActionMessage) : CoreBroker × List Effect :=
  let b := b.modifyBrokerById cmd.sourceId (fun brk => { brk with isDisconnected := true })
  if b.allDisconnected then
    (b, (if b.isRootc then [] else [.transmit parentRouteId
        { messageAction := .cmdPriorityDisconnect, sourceId := b.globalBrokerIdLocal }]) ++
      [.addActionMessage { messageAction := .cmdStop }])
  else (b, [])

/-- The registration commands, which may also wait in `earlyMessages`. -/
def processRegistration (b : CoreBroker) (cmd : ActionMessage) : CoreBroker × List Effect :=
  match cmd.messageAction with
  | .cmdRegFed => b.regFed cmd
  | .cmdRegBroker => b.regBroker cmd
  | _ => (b, [])

def processAll (f : CoreBroker → ActionMessage → CoreBroker × List Effect) (b : CoreBroker) :
    List ActionMessage → CoreBroker × List Effect
  | [] => (b, [])
  | cmd :: cmds =>
    let first := f b cmd
    let rest := processAll f first.1 cmds
    (rest.1, first.2 ++ rest.2)

def brokerSetup (b : CoreBroker) : CoreBroker × List Effect :=
  let ready := { b with
    globalBrokerIdLocal := b.globalId
    isRootc := b.isRoot
    timeCoord := { b.timeCoord with sourceId := b.globalId }
    connectionEstablished := true }
  let rest := processAll processRegistration ready b.earlyMessages
  ({ rest.1 with earlyMessages := [] }, rest.2)

def processPriorityCommand (b : CoreBroker) (cmd : ActionMessage) : CoreBroker × List Effect :=
  match cmd.messageAction with
  | .cmdBrokerSetup => b.brokerSetup
  | .cmdRegFed | .cmdRegBroker => b.processRegistration cmd
  | .cmdFedAck => b.fedAck cmd
  | .cmdBrokerAck => b.brokerAck cmd
  | .cmdPriorityDisconnect => b.priorityDisconnect cmd
  | _ => (b, [])

end CoreBroker

end Helics
