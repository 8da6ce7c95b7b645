import Helics.BrokerCommands
import Helics.CommonCore
import Helics.HandleManager

namespace Helics

/-- What the interface commands read and write of a filter; `FilterInfo` is what the delivery of
messages reads of it. -/
structure FilterRecord where
  coreId : GlobalId
  handle : InterfaceHandle
  key : String := ""
  inputType : String := ""
  outputType : String := ""
  cloning : Bool := false
  flags : UInt16 := 0
  sourceTargets : List GlobalHandle := []
  destTargets : List GlobalHandle := []
deriving DecidableEq

def FilterRecord.globalHandle (f : FilterRecord) : GlobalHandle := ⟨f.coreId, f.handle⟩

def FilterRecord.removeTarget (f : FilterRecord) (target : GlobalHandle) : FilterRecord :=
  { f with
    sourceTargets := f.sourceTargets.filter (fun t => decide (t ≠ target))
    destTargets := f.destTargets.filter (fun t => decide (t ≠ target)) }

/-- The filters of an endpoint, which refer to the records of its core. -/
structure EndpointFilters where
  hasSourceFilters : Bool := false
  hasDestFilters : Bool := false
  allSourceFilters : List GlobalHandle := []
  /-- The source filters in the order in which they are applied. -/
  sourceFilters : List GlobalHandle := []
  destFilter : Option GlobalHandle := none
  cloningDestFilters : List GlobalHandle := []
  sourceFilters_subset : ∀ filt ∈ sourceFilters, filt ∈ allSourceFilters := by simp
deriving DecidableEq

def EndpointFilters.empty : EndpointFilters := {}

/-- The part of a core that its interface commands read and write: the table of interfaces that its
users see, the one of its command loop, and the filters. -/
structure InterfaceCore where
  globalBrokerIdLocal : GlobalId := invalidGlobalId
  higherBrokerId : GlobalId := 0
  brokerState : BrokerState := .connected
  loopFederates : List GlobalId := []
  routingTable : RoutingTable := []
  handles : HandleManager := .empty
  loopHandles : HandleManager := .empty
  filters : List FilterRecord := []
  filterCoord : List (InterfaceHandle × EndpointFilters) := []
  timeCoord : ForwardingTimeCoordinator := {}
  hasTimeDependency : Bool := false
  hasFilters : Bool := false

namespace InterfaceCore

def isLocal (c : InterfaceCore) (id : GlobalId) : Bool := decide (id ∈ c.loopFederates)

def getRoute (c : InterfaceCore) (id : GlobalId) : RouteId :=
  (c.routingTable.lookup id).getD parentRouteId

/-- Interface commands are not among those that a core handles when they are routed to itself. Its
federates are taken to be running; `CommonCore.toFederate` has the case of one that has finished. -/
def routeMessage (c : InterfaceCore) (msg : InterfaceMessage) : List InterfaceEffect :=
  if msg.dest.fedId = parentBrokerId ∨ msg.dest.fedId = c.higherBrokerId then
    [.transmit parentRouteId msg]
  else if msg.dest.fedId = c.globalBrokerIdLocal then []
  else if c.isLocal msg.dest.fedId then [.addAction msg.dest.fedId msg]
  else [.transmit (c.getRoute msg.dest.fedId) msg]

def findFilter (c : InterfaceCore) (handle : GlobalHandle) : Option FilterRecord :=
  c.filters.find? (fun f => decide (f.globalHandle = handle))

def modifyFilter (c : InterfaceCore) (handle : GlobalHandle) (f : FilterRecord → FilterRecord) :
    InterfaceCore :=
  let index := c.filters.findIdx (fun filt => decide (filt.globalHandle = handle))
  { c with filters := c.filters.modify index f }

/-- A new record, which belongs to this core if the identifier is the one of the parent. -/
def createFilter (c : InterfaceCore) (dest : GlobalId) (handle : InterfaceHandle)
    (key typeIn typeOut : String) (cloning : Bool) : InterfaceCore :=
  { c with filters := c.filters ++ [{
      coreId := if dest = parentBrokerId then c.globalBrokerIdLocal else dest
      handle := handle
      key := key
      inputType := typeIn
      outputType := typeOut
      cloning := cloning }] }

def getFilterCoordinator (c : InterfaceCore) (handle : InterfaceHandle) : Option EndpointFilters :=
  match c.filterCoord.lookup handle with
  | some coordinator => some coordinator
  | none => if c.brokerState.code < BrokerState.operating.code then some {} else none

def setFilterCoordinator (c : InterfaceCore) (handle : InterfaceHandle)
    (coordinator : EndpointFilters) : InterfaceCore :=
  { c with filterCoord :=
      c.filterCoord.filter (fun p => decide (p.1 ≠ handle)) ++ [(handle, coordinator)] }

def loopEndpoint (c : InterfaceCore) (handle : InterfaceHandle) : Option HandleInfo :=
  (c.loopHandles.getHandleInfo handle).filter (fun info => decide (info.handleType = .endpoint))

def setLoopFlag (c : InterfaceCore) (handle : InterfaceHandle) (flag : UInt16) : InterfaceCore :=
  { c with loopHandles := c.loopHandles.modifyFlags handle.toNat (setActionFlag · flag) }

/-- The record of a filter is made when a command about it arrives for the first time. -/
def ensureFilter (c : InterfaceCore) (cmd : InterfaceMessage) : InterfaceCore :=
  if (c.findFilter cmd.source).isSome then c
  else c.createFilter cmd.source.fedId cmd.source.handle cmd.name (cmd.getString typeStringLoc)
    (cmd.getString typeOutStringLoc) (checkActionFlag cmd.flags cloneFlag)

def duplicateDestFilter (cmd : InterfaceMessage) (ept : HandleInfo) : ActionMessage :=
  { messageAction := .cmdError, destId := cmd.source.fedId, sourceId := cmd.dest.fedId,
    sourceHandle := cmd.dest.handle, messageID := -1,
    payload := "Endpoint " ++ ept.key ++ " already has a destination filter" }

def routeCommand (c : InterfaceCore) (cmd : ActionMessage) : List InterfaceEffect :=
  if cmd.destId = parentBrokerId ∨ cmd.destId = c.higherBrokerId then [.command parentRouteId cmd]
  else if cmd.destId = c.globalBrokerIdLocal then []
  else if c.isLocal cmd.destId then [.federateCommand cmd.destId cmd]
  else [.command (c.getRoute cmd.destId) cmd]

/-- The core of `CommonCore` at the same place, whose federates are those here and are running. -/
structure Shares [DualMapped String GlobalId] (c : InterfaceCore) (k : CommonCore) : Prop where
  own : c.globalBrokerIdLocal = k.globalBrokerIdLocal
  higher : c.higherBrokerId = k.higherBrokerId
  routes : c.routingTable = k.routingTable
  known : ∀ id, c.isLocal id = (k.loopFederates.findId id).isSome
  running : ∀ {id fed}, k.loopFederates.findId id = some fed →
    fed.finished = false ∧ fed.errored = false

def coreEffect : InterfaceEffect → Option CoreEffect
  | .command route cmd => some (.transmit route cmd)
  | .federateCommand fed cmd => some (.addAction fed cmd)
  | _ => none

/-- Commands for others are routed as in `CommonCore`. -/
theorem routeCommand_eq [DualMapped String GlobalId] {k : CommonCore} {cmd : ActionMessage}
    (h : Shares c k) (hdest : cmd.destId ≠ c.globalBrokerIdLocal) :
    (k.routeMessage cmd).2 = (c.routeCommand cmd).filterMap coreEffect := by
  unfold CommonCore.routeMessage CommonCore.route routeCommand
  rw [← h.own, ← h.higher, if_neg hdest, if_neg hdest, h.known]
  split
  · rfl
  cases hfed : k.loopFederates.findId cmd.destId with
  | none =>
    unfold CommonCore.getRoute getRoute
    rw [← h.routes]
    rfl
  | some fed =>
    obtain ⟨hf, he⟩ := h.running hfed
    unfold CommonCore.toFederate
    dsimp only
    rw [hf, he]
    rfl

def destFilterPresent (coordinator : EndpointFilters) (cmd : InterfaceMessage) : Bool :=
  if checkActionFlag cmd.flags cloneFlag then
    decide (cmd.source ∈ coordinator.cloningDestFilters)
  else decide (coordinator.destFilter = some cmd.source)

/-- A second destination filter that does not clone is refused. -/
def addDestFilter (c : InterfaceCore) (coordinator : EndpointFilters) (cmd : InterfaceMessage) :
    InterfaceCore × List InterfaceEffect :=
  let cloning := checkActionFlag cmd.flags cloneFlag
  let ept := c.loopEndpoint cmd.dest.handle
  let marked := ept.elim c (fun _ => c.setLoopFlag cmd.dest.handle hasDestFilterFlag)
  match ept, (!cloning && coordinator.hasDestFilters) with
  | some info, true => (marked, c.routeCommand (duplicateDestFilter cmd info))
  | _, _ =>
    let made := marked.ensureFilter cmd
    if cloning then
      (made.setFilterCoordinator cmd.dest.handle { coordinator with
        hasDestFilters := true
        cloningDestFilters := coordinator.cloningDestFilters ++ [cmd.source] }, [])
    else
      let marked := ept.elim made
        (fun _ => made.setLoopFlag cmd.dest.handle hasNonCloningDestFilterFlag)
      (marked.setFilterCoordinator cmd.dest.handle { coordinator with
        hasDestFilters := true
        destFilter := some cmd.source }, [])

def addSourceFilter (c : InterfaceCore) (coordinator : EndpointFilters) (cmd : InterfaceMessage) :
    InterfaceCore :=
  let made := (c.ensureFilter cmd).setFilterCoordinator cmd.dest.handle { coordinator with
    hasSourceFilters := true
    allSourceFilters := coordinator.allSourceFilters ++ [cmd.source]
    sourceFilters_subset := fun filt h =>
      List.mem_append_left _ (coordinator.sourceFilters_subset filt h) }
  (c.loopEndpoint cmd.dest.handle).elim made
    (fun _ => made.setLoopFlag cmd.dest.handle hasSourceFilterFlag)

def processFilterInfo (c : InterfaceCore) (cmd : InterfaceMessage) :
    InterfaceCore × List InterfaceEffect :=
  match c.getFilterCoordinator cmd.dest.handle with
  | none => (c, [])
  | some coordinator =>
    if checkActionFlag cmd.flags destinationTarget then
      if destFilterPresent coordinator cmd then (c, []) else c.addDestFilter coordinator cmd
    else if cmd.source ∈ coordinator.allSourceFilters then (c, [])
    else (c.addSourceFilter coordinator cmd, [])

/-- The federate of an endpoint with a filter of another core becomes dependent on that core. -/
def dependentNotice (c : InterfaceCore) (cmd : InterfaceMessage) : List InterfaceEffect :=
  if cmd.source.fedId ≠ c.globalBrokerIdLocal ∧ checkActionFlag cmd.flags errorFlag = false ∧
      c.isLocal cmd.dest.fedId then
    [.federateCommand cmd.dest.fedId
      { messageAction := .cmdAddDependent, sourceId := cmd.source.fedId,
        sourceHandle := cmd.source.handle, destId := cmd.dest.fedId, destHandle := cmd.dest.handle,
        flags := cmd.flags, payload := cmd.name, stringData := cmd.stringData }]
  else []

def addFilterTarget (c : InterfaceCore) (cmd : InterfaceMessage) : InterfaceCore :=
  match c.findFilter ⟨c.globalBrokerIdLocal, cmd.dest.handle⟩ with
  | none => c
  | some _ =>
    let added := c.modifyFilter ⟨c.globalBrokerIdLocal, cmd.dest.handle⟩ (fun filt =>
      if checkActionFlag cmd.flags destinationTarget then
        { filt with destTargets := filt.destTargets ++ [cmd.source] }
      else { filt with sourceTargets := filt.sourceTargets ++ [cmd.source] })
    if checkActionFlag cmd.flags errorFlag then added
    else { added with timeCoord := added.timeCoord.addDependency cmd.source.fedId }

def addTargetToInterface (c : InterfaceCore) (cmd : InterfaceMessage) :
    InterfaceCore × List InterfaceEffect :=
  if cmd.action = .cmdAddFilter then
    let made := c.processFilterInfo cmd
    (made.1, made.2 ++ made.1.dependentNotice cmd)
  else if cmd.dest.fedId = c.globalBrokerIdLocal then
    (if cmd.action = .cmdAddEndpoint then c.addFilterTarget cmd else c, [])
  else if c.isLocal cmd.dest.fedId ∧ checkActionFlag cmd.flags errorFlag = false then
    (c, [.addAction cmd.dest.fedId cmd])
  else (c, [])

/-- Every reference of the endpoint to the filter leads to the same record. -/
def closeFilter (c : InterfaceCore) (coordinator : EndpointFilters) (filt : GlobalHandle) :
    InterfaceCore :=
  if coordinator.destFilter = some filt ∨ filt ∈ coordinator.allSourceFilters ∨
      filt ∈ coordinator.cloningDestFilters then
    c.modifyFilter filt (fun f => { f with flags := setActionFlag f.flags disconnectedFlag })
  else c

def removeTargetFromInterface (c : InterfaceCore) (cmd : InterfaceMessage) :
    InterfaceCore × List InterfaceEffect :=
  if cmd.action = .cmdRemoveFilter then
    match c.getFilterCoordinator cmd.dest.handle with
    | none => (c, [])
    | some coordinator =>
      ((c.setFilterCoordinator cmd.dest.handle coordinator).closeFilter coordinator cmd.source, [])
  else if cmd.dest.fedId = c.globalBrokerIdLocal then
    (if cmd.action = .cmdRemoveEndpoint then
      c.modifyFilter cmd.dest (fun filt => filt.removeTarget cmd.source) else c, [])
  else if c.isLocal cmd.dest.fedId then (c, [.addAction cmd.dest.fedId cmd])
  else (c, [])

/-- Two commands for the two sides of a connection, handled one after the other. -/
def both (c : InterfaceCore) (handler : InterfaceCore → InterfaceMessage →
    InterfaceCore × List InterfaceEffect) (first second : InterfaceMessage) :
    InterfaceCore × List InterfaceEffect :=
  let one := handler c first
  let two := handler one.1 second
  (two.1, one.2 ++ two.2)

def connect (c : InterfaceCore) (cmd : InterfaceMessage) (target : HandleInfo)
    (toTarget toSource : InterfaceAction) (stringsTo : List String)
    (stringsBack : List String → List String) : InterfaceCore × List InterfaceEffect :=
  if checkActionFlag target.flags disconnectedFlag then (c, [])
  else
    let first := { cmd with
      action := toTarget
      dest := target.handle
      name := ""
      stringData := stringsTo }
    c.both addTargetToInterface first { first.swapSourceDest with
      action := toSource
      stringData := stringsBack stringsTo }

def checkForNamedInterface (c : InterfaceCore) (cmd : InterfaceMessage) :
    InterfaceCore × List InterfaceEffect :=
  let answer := match cmd.action with
    | .cmdAddNamedPublication => (c.loopHandles.getPublication cmd.name).map fun pub =>
        c.connect cmd pub .cmdAddSubscriber .cmdAddPublisher cmd.stringData
          (fun _ => [pub.type, pub.units])
    | .cmdAddNamedInput => (c.loopHandles.getInput cmd.name).map fun inp =>
        c.connect cmd inp .cmdAddPublisher .cmdAddSubscriber
          (if cmd.stringData = [] then (c.loopHandles.findHandle cmd.source).elim []
              (fun pub => [pub.type, pub.units])
            else cmd.stringData) (fun _ => [])
    | .cmdAddNamedFilter => (c.loopHandles.getFilter cmd.name).map fun filt =>
        c.connect cmd filt .cmdAddEndpoint .cmdAddFilter cmd.stringData id
    | .cmdAddNamedEndpoint => (c.loopHandles.getEndpoint cmd.name).map fun ept =>
        c.connect cmd ept .cmdAddFilter .cmdAddEndpoint cmd.stringData id
    | _ => none
  match answer with
  | some result => result
  | none => (c, c.routeMessage cmd)

def removeNamedTarget (c : InterfaceCore) (cmd : InterfaceMessage) :
    InterfaceCore × List InterfaceEffect :=
  let pair (toTarget toSource : InterfaceAction) (target : HandleInfo) :=
    let first := { cmd with action := toTarget, dest := target.handle, name := "" }
    c.both removeTargetFromInterface first { first.swapSourceDest with action := toSource }
  let answer := match cmd.action with
    | .cmdRemoveNamedPublication => (c.loopHandles.getPublication cmd.name).map
        (pair .cmdRemoveSubscriber .cmdRemovePublication)
    | .cmdRemoveNamedInput => (c.loopHandles.getInput cmd.name).map
        (pair .cmdRemovePublication .cmdRemoveSubscriber)
    | .cmdRemoveNamedFilter => (c.loopHandles.getFilter cmd.name).map
        (pair .cmdRemoveEndpoint .cmdRemoveFilter)
    | .cmdRemoveNamedEndpoint => (c.loopHandles.getEndpoint cmd.name).map
        (pair .cmdRemoveFilter .cmdRemoveEndpoint)
    | _ => none
  match answer with
  | some result => result
  | none => (c, c.routeMessage cmd)

/-- The first endpoint of a federate joins it with the core, the first of all the core with its
parent. -/
def joinForEndpoint (c : InterfaceCore) (fed : GlobalId) : InterfaceCore × List InterfaceEffect :=
  let join (id : GlobalId) : ActionMessage :=
    { messageAction := .cmdAddInterdependency, sourceId := c.globalBrokerIdLocal, destId := id }
  let added := c.timeCoord.dependencies.addDependency fed
  let withFed := { c with timeCoord := { c.timeCoord with dependencies := added.2 } }
  let first := if added.1 ∧ c.isLocal fed then
      ({ withFed with timeCoord := withFed.timeCoord.addDependent fed },
        [InterfaceEffect.federateCommand fed (join fed)])
    else (withFed, [])
  let upper := first.1.timeCoord.dependencies.addDependency c.higherBrokerId
  if c.hasTimeDependency then first
  else if upper.1 then
    ({ first.1 with
        hasTimeDependency := true
        timeCoord := { first.1.timeCoord with dependencies := upper.2 }.addDependent
          c.higherBrokerId },
      first.2 ++ [.command (c.getRoute c.higherBrokerId) (join c.higherBrokerId)])
  else first

def joinForFilter (c : InterfaceCore) : InterfaceCore × List InterfaceEffect :=
  if c.hasFilters then (c, [])
  else
    let added := c.timeCoord.dependents.addDependent c.higherBrokerId
    if added.1 then
      ({ c with
          hasFilters := true
          timeCoord := { c.timeCoord with dependents := added.2 }.addDependency c.higherBrokerId },
        [.command (c.getRoute c.higherBrokerId)
          { messageAction := .cmdAddInterdependency, sourceId := c.globalBrokerIdLocal,
            destId := c.higherBrokerId }])
    else ({ c with hasFilters := true }, [])

/-- The command loop takes over the record that the users of the core have made. -/
def copyHandle (c : InterfaceCore) (handle : InterfaceHandle) : InterfaceCore :=
  match c.handles.getHandleInfo handle with
  | some info => { c with loopHandles := c.loopHandles.addHandleAtIndex info handle }
  | none => c

def registerInterface (c : InterfaceCore) (cmd : InterfaceMessage) :
    InterfaceCore × List InterfaceEffect :=
  if cmd.dest.fedId = parentBrokerId then
    let copied := c.copyHandle cmd.source.handle
    let joined := match cmd.action with
      | .cmdRegEndpoint => copied.joinForEndpoint cmd.source.fedId
      | .cmdRegFilter => (copied.createFilter c.globalBrokerIdLocal cmd.source.handle cmd.name
          (cmd.getString typeStringLoc) (cmd.getString typeOutStringLoc)
          (checkActionFlag cmd.flags cloneFlag)).joinForFilter
      | _ => (copied, [])
    (joined.1, joined.2 ++ if cmd.name = "" then [] else [.transmit parentRouteId cmd])
  else if cmd.dest.fedId = c.globalBrokerIdLocal then
    match cmd.action with
    | .cmdRegEndpoint =>
      match c.findFilter ⟨c.globalBrokerIdLocal, cmd.dest.handle⟩ with
      | none => (c, [])
      | some _ =>
        let added := c.modifyFilter ⟨c.globalBrokerIdLocal, cmd.dest.handle⟩
          (fun filt => { filt with sourceTargets := filt.sourceTargets ++ [cmd.source] })
        ({ added with timeCoord := added.timeCoord.addDependency cmd.source.fedId }, [])
    | .cmdRegFilter => c.processFilterInfo cmd
    | _ => (c, [])
  else (c, c.routeMessage cmd)

/-- The strings of a data link are dropped when it becomes a request. -/
def dataLink (c : InterfaceCore) (cmd : InterfaceMessage) :
    InterfaceCore × List InterfaceEffect :=
  match c.loopHandles.getPublication cmd.name with
  | some pub =>
    c.checkForNamedInterface { cmd with
      name := cmd.getString targetStringLoc
      action := .cmdAddNamedInput
      source := pub.handle
      stringData := [] }
  | none =>
    match c.loopHandles.getInput (cmd.getString targetStringLoc) with
    | none => (c, c.routeMessage cmd)
    | some inp =>
      c.checkForNamedInterface { cmd with
        action := .cmdAddNamedPublication
        source := inp.handle
        stringData := [] }

/-- The strings of a filter link stay in the request that it becomes. -/
def filterLink (c : InterfaceCore) (cmd : InterfaceMessage) :
    InterfaceCore × List InterfaceEffect :=
  match c.loopHandles.getFilter cmd.name with
  | some filt =>
    c.checkForNamedInterface { cmd with
      name := cmd.getString targetStringLoc
      action := .cmdAddNamedEndpoint
      source := filt.handle }
  | none =>
    match c.loopHandles.getEndpoint (cmd.getString targetStringLoc) with
    | none => (c, c.routeMessage cmd)
    | some ept =>
      c.checkForNamedInterface { cmd with action := .cmdAddNamedFilter, source := ept.handle }

/-- The destination targets of a filter are told only if they are source targets too. -/
def disconnectFilter (c : InterfaceCore) (handle : GlobalHandle) (filt : FilterRecord) :
    InterfaceCore × List InterfaceEffect :=
  let targets := filt.sourceTargets ++
    filt.destTargets.filter (fun target => decide (target ∈ filt.sourceTargets))
  (c.modifyFilter filt.globalHandle (fun f => { f with
      sourceTargets := []
      destTargets := []
      flags := setActionFlag f.flags disconnectedFlag }),
    targets.flatMap (fun target => c.routeMessage
      { action := .cmdRemoveFilter, source := handle, dest := target }))

def disconnectInterface (c : InterfaceCore) (cmd : InterfaceMessage) :
    InterfaceCore × List InterfaceEffect :=
  match c.loopHandles.getHandleInfo cmd.source.handle with
  | none => (c, [])
  | some info =>
    if checkActionFlag info.flags disconnectedFlag then (c, [])
    else
      let marked := c.setLoopFlag cmd.source.handle disconnectedFlag
      let closed :=
        if info.handle.fedId = c.globalBrokerIdLocal then
          match c.findFilter cmd.source with
          | some filt => marked.disconnectFilter info.handle filt
          | none => (marked, [])
        else if info.handleType ≠ .filter ∧ c.isLocal cmd.source.fedId then
          (marked, [.addAction cmd.source.fedId cmd])
        else (marked, [])
      (closed.1, closed.2 ++
        if checkActionFlag info.flags namelessInterfaceFlag then []
        else [.transmit parentRouteId cmd])

def processCommand (c : InterfaceCore) (cmd : InterfaceMessage) :
    InterfaceCore × List InterfaceEffect :=
  match cmd.action with
  | .cmdDataLink => c.dataLink cmd
  | .cmdFilterLink => c.filterLink cmd
  | .cmdRegInput | .cmdRegEndpoint | .cmdRegPub | .cmdRegFilter => c.registerInterface cmd
  | .cmdAddNamedEndpoint | .cmdAddNamedPublication | .cmdAddNamedInput | .cmdAddNamedFilter =>
    c.checkForNamedInterface cmd
  | .cmdAddEndpoint | .cmdAddFilter | .cmdAddSubscriber | .cmdAddPublisher =>
    c.addTargetToInterface cmd
  | .cmdRemoveNamedEndpoint | .cmdRemoveNamedPublication | .cmdRemoveNamedInput
  | .cmdRemoveNamedFilter => c.removeNamedTarget cmd
  | .cmdRemovePublication | .cmdRemoveSubscriber | .cmdRemoveFilter | .cmdRemoveEndpoint =>
    c.removeTargetFromInterface cmd
  | .cmdCloseInterface => c.disconnectInterface cmd

end InterfaceCore

end Helics
