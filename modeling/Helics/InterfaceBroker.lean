import Helics.BrokerCommands
import Helics.HandleManager

namespace Helics

open UnknownHandleManager

variable [DualMapped String GlobalId]

structure InterfaceBroker extends CoreBroker where
  handles : HandleManager := .empty
  hasFilters : Bool := false

namespace InterfaceBroker

def routeMessage (b : InterfaceBroker) (msg : InterfaceMessage) : InterfaceEffect :=
  .transmit (b.getRoute msg.dest.fedId) msg

/-- An interface of a federate that has left is answered with an error. -/
def refuseTarget (b : InterfaceBroker) (cmd : InterfaceMessage) (action : InterfaceAction)
    (target : GlobalHandle) : InterfaceEffect :=
  b.routeMessage { cmd with
    action := action
    flags := setActionFlag cmd.flags errorFlag
    source := target
    dest := cmd.source
    stringData := [] }

def connectPublication (b : InterfaceBroker) (cmd : InterfaceMessage) (pub : HandleInfo) :
    List InterfaceEffect :=
  match b.federates.findId pub.handle.fedId with
  | none => [.nullDereference]
  | some fed =>
    if fed.isDisconnected = false then
      let sub := { cmd with action := .cmdAddSubscriber, dest := pub.handle, name := "" }
      [b.routeMessage sub, b.routeMessage { sub.swapSourceDest with
        action := .cmdAddPublisher
        stringData := [pub.type, pub.units] }]
    else [b.refuseTarget cmd .cmdAddPublisher pub.handle]

/-- The types of a known publication replace the strings of the command. -/
def connectInput (b : InterfaceBroker) (cmd : InterfaceMessage) (inp : HandleInfo) :
    List InterfaceEffect :=
  match b.federates.findId inp.handle.fedId with
  | none => [.nullDereference]
  | some fed =>
    if fed.isDisconnected = false then
      let strings := (b.handles.findHandle cmd.source).elim cmd.stringData
        (fun pub => [pub.type, pub.units])
      let pub := { cmd with
        action := .cmdAddPublisher
        dest := inp.handle
        name := ""
        stringData := strings }
      [b.routeMessage pub, b.routeMessage { pub.swapSourceDest with
        action := .cmdAddSubscriber
        stringData := [] }]
    else [b.refuseTarget cmd .cmdAddSubscriber inp.handle]

/-- Filters belong to cores, which are not asked whether they have left. -/
def connectFilter (b : InterfaceBroker) (cmd : InterfaceMessage) (filt : HandleInfo) :
    List InterfaceEffect :=
  let ept := { cmd with action := .cmdAddEndpoint, dest := filt.handle, name := "" }
  [b.routeMessage ept, b.routeMessage
    ({ ept.swapSourceDest with action := .cmdAddFilter }.withTypes filt.type filt.units)]

def connectEndpoint (b : InterfaceBroker) (cmd : InterfaceMessage) (ept : HandleInfo) :
    List InterfaceEffect :=
  match b.federates.findId ept.handle.fedId with
  | none => [.nullDereference]
  | some fed =>
    if fed.isDisconnected = false then
      let plain := { cmd with action := .cmdAddFilter, dest := ept.handle, name := "" }
      let filt := (b.handles.findHandle cmd.source).elim plain
        (fun filt => plain.withTypes filt.type filt.units)
      [b.routeMessage filt, b.routeMessage { filt.swapSourceDest with
        action := .cmdAddEndpoint
        stringData := [] }]
    else [b.refuseTarget cmd .cmdAddEndpoint ept.handle]

/-- An unnamed interface that asks for another one becomes known to the root by its request. -/
def addAnonymous (b : InterfaceBroker) (cmd : InterfaceMessage) (what : HandleType) :
    HandleManager :=
  if cmd.stringData ≠ [] ∧ b.handles.findHandle cmd.source = none then
    b.handles.addHandle cmd.source what "" (cmd.getString typeStringLoc)
      (cmd.getString unitStringLoc) cmd.flags
  else b.handles

/-- The root parks a request, others pass it on. -/
def parkRequest (b : InterfaceBroker) (cmd : InterfaceMessage) :
    InterfaceBroker × List InterfaceEffect :=
  if b.isRootc then
    let u := b.unknownHandles
    (match cmd.action with
      | .cmdAddNamedPublication =>
        { b with unknownHandles := u.addUnknownPublication cmd.name cmd.source cmd.flags }
      | .cmdAddNamedInput =>
        { b with
          unknownHandles := u.addUnknownInput cmd.name cmd.source cmd.flags
          handles := b.addAnonymous cmd .publication }
      | .cmdAddNamedEndpoint =>
        { b with
          unknownHandles := u.addUnknownEndpoint cmd.name cmd.source cmd.flags
          handles := b.addAnonymous cmd .filter }
      | .cmdAddNamedFilter =>
        { b with unknownHandles := u.addUnknownFilter cmd.name cmd.source cmd.flags }
      | _ => b, [])
  else (b, [b.routeMessage cmd])

def checkForNamedInterface (b : InterfaceBroker) (cmd : InterfaceMessage) :
    InterfaceBroker × List InterfaceEffect :=
  let answer := match cmd.action with
    | .cmdAddNamedPublication => (b.handles.getPublication cmd.name).map (b.connectPublication cmd)
    | .cmdAddNamedInput => (b.handles.getInput cmd.name).map (b.connectInput cmd)
    | .cmdAddNamedFilter => (b.handles.getFilter cmd.name).map (b.connectFilter cmd)
    | .cmdAddNamedEndpoint => (b.handles.getEndpoint cmd.name).map (b.connectEndpoint cmd)
    | _ => none
  match answer with
  | some effects => (b, effects)
  | none => b.parkRequest cmd

/-- The command for the named interface, and then another one for the interface that asks. -/
def disconnectPair (b : InterfaceBroker) (cmd : InterfaceMessage)
    (toTarget toSource : InterfaceAction) (target : HandleInfo) : List InterfaceEffect :=
  let first := { cmd with action := toTarget, dest := target.handle, name := "" }
  [b.routeMessage first, b.routeMessage { first.swapSourceDest with action := toSource }]

/-- The request to remove an endpoint is answered with a command that adds it. -/
def removeNamedTarget (b : InterfaceBroker) (cmd : InterfaceMessage) : List InterfaceEffect :=
  let answer := match cmd.action with
    | .cmdRemoveNamedPublication => (b.handles.getPublication cmd.name).map
        (b.disconnectPair cmd .cmdRemoveSubscriber .cmdRemovePublication)
    | .cmdRemoveNamedInput => (b.handles.getInput cmd.name).map
        (b.disconnectPair cmd .cmdRemovePublication .cmdRemoveSubscriber)
    | .cmdRemoveNamedFilter => (b.handles.getFilter cmd.name).map
        (b.disconnectPair cmd .cmdRemoveEndpoint .cmdRemoveFilter)
    | .cmdRemoveNamedEndpoint => (b.handles.getEndpoint cmd.name).map
        (b.disconnectPair cmd .cmdRemoveFilter .cmdAddEndpoint)
    | _ => none
  match answer with
  | some effects => effects
  | none => if b.isRootc then [] else [b.routeMessage cmd]

def checkAll (b : InterfaceBroker) : List InterfaceMessage → InterfaceBroker × List InterfaceEffect
  | [] => (b, [])
  | cmd :: cmds =>
    let first := b.checkForNamedInterface cmd
    let rest := first.1.checkAll cmds
    (rest.1, first.2 ++ rest.2)

def notifyInputTarget (b : InterfaceBroker) (inp : HandleInfo) (target : UnknownTarget) :
    List InterfaceEffect :=
  let sub : InterfaceMessage :=
    { action := .cmdAddSubscriber, source := inp.handle, dest := target.target, name := inp.type,
      flags := inp.flags }
  let pub : InterfaceMessage :=
    { sub with
      action := .cmdAddPublisher
      source := target.target
      dest := inp.handle
      flags := target.flags
      stringData := (b.handles.findHandle target.target).elim []
        (fun pub => [pub.type, pub.units]) }
  [b.routeMessage sub, b.routeMessage pub]

def findandNotifyInputTargets (b : InterfaceBroker) (inp : HandleInfo) :
    InterfaceBroker × List InterfaceEffect :=
  let targets := getTargets b.unknownHandles.unknownInputs inp.key
  ({ b with unknownHandles := b.unknownHandles.clearInput inp.key },
    targets.flatMap (b.notifyInputTarget inp))

def notifyPublicationTarget (b : InterfaceBroker) (pub : HandleInfo) (target : UnknownTarget) :
    List InterfaceEffect :=
  let sub : InterfaceMessage :=
    { action := .cmdAddSubscriber, source := target.target, dest := pub.handle,
      flags := target.flags }
  [b.routeMessage sub, b.routeMessage { sub with
    action := .cmdAddPublisher
    source := pub.handle
    dest := target.target
    name := pub.type
    flags := pub.flags
    stringData := [pub.type, pub.units] }]

/-- The inputs that data links name are asked for on behalf of the new publication. -/
def findandNotifyPublicationTargets (b : InterfaceBroker) (pub : HandleInfo) :
    InterfaceBroker × List InterfaceEffect :=
  let targets := getTargets b.unknownHandles.unknownPublications pub.key
  let links := getLinks b.unknownHandles.unknownLinks pub.key
  let rest := b.checkAll (links.map (fun name =>
    { action := .cmdAddNamedInput, name := name, source := pub.handle }))
  ({ rest.1 with unknownHandles := rest.1.unknownHandles.clearPublication pub.key },
    targets.flatMap (b.notifyPublicationTarget pub) ++ rest.2)

/-- The types of the filter are not sent to the endpoint here. -/
def notifyEndpointTarget (b : InterfaceBroker) (ept : HandleInfo) (target : UnknownTarget) :
    List InterfaceEffect :=
  let add : InterfaceMessage :=
    { action := .cmdAddEndpoint, source := ept.handle, dest := target.target,
      flags := target.flags }
  [b.routeMessage add, b.routeMessage { add.swapSourceDest with action := .cmdAddFilter }]

def findandNotifyEndpointTargets (b : InterfaceBroker) (ept : HandleInfo) :
    InterfaceBroker × List InterfaceEffect :=
  let targets := getTargets b.unknownHandles.unknownEndpoints ept.key
  ({ b with unknownHandles := b.unknownHandles.clearEndpoint ept.key },
    targets.flatMap (b.notifyEndpointTarget ept))

def notifyFilterTarget (b : InterfaceBroker) (filt : HandleInfo) (target : UnknownTarget) :
    List InterfaceEffect :=
  let plain : InterfaceMessage :=
    { action := .cmdAddFilter, source := filt.handle, dest := target.target, flags := target.flags }
  let add := plain.withTypes filt.type filt.units
  [b.routeMessage add, b.routeMessage { add.swapSourceDest with
    action := .cmdAddEndpoint
    stringData := [] }]

def findandNotifyFilterTargets (b : InterfaceBroker) (filt : HandleInfo) :
    InterfaceBroker × List InterfaceEffect :=
  let targets := getTargets b.unknownHandles.unknownFilters filt.key
  let dests := getLinks b.unknownHandles.unknownDestFilters filt.key
  let sources := getLinks b.unknownHandles.unknownSrcFilters filt.key
  let rest := b.checkAll
    (dests.map (fun name =>
      { action := .cmdAddNamedEndpoint, name := name, source := filt.handle,
        flags := setActionFlag 0 destinationTarget }) ++
    sources.map (fun name =>
      { action := .cmdAddNamedEndpoint, name := name, source := filt.handle }))
  ({ rest.1 with unknownHandles := rest.1.unknownHandles.clearFilter filt.key },
    targets.flatMap (b.notifyFilterTarget filt) ++ rest.2)

def duplicateError (b : InterfaceBroker) (cmd : InterfaceMessage) (word : String) :
    InterfaceEffect :=
  .command (b.getRoute cmd.source.fedId)
    { messageAction := .cmdError, sourceId := b.globalBrokerIdLocal, destId := cmd.source.fedId,
      destHandle := cmd.source.handle, messageID := -1,
      payload := "Duplicate " ++ word ++ " names (" ++ cmd.name ++ ")" }

def registered (b : InterfaceBroker) (cmd : InterfaceMessage) (what : HandleType) : HandleInfo :=
  b.handles.newInfo cmd.source what cmd.name (cmd.getString typeStringLoc)
    (cmd.getString unitStringLoc) cmd.flags

/-- A registration under a name of its kind that is in use is refused, others are recorded. -/
def register (b : InterfaceBroker) (cmd : InterfaceMessage) (what : HandleType) (word : String)
    (passOn notify : InterfaceBroker → HandleInfo → InterfaceBroker × List InterfaceEffect) :
    InterfaceBroker × List InterfaceEffect :=
  if (b.handles.find what cmd.name).isSome then (b, [b.duplicateError cmd word])
  else
    let info := b.registered cmd what
    let added := { b with handles := b.handles.push info }
    if b.isRootc then notify added info
    else
      let rest := passOn added info
      (rest.1, .transmit parentRouteId cmd :: rest.2)

def addPublication (b : InterfaceBroker) (cmd : InterfaceMessage) :
    InterfaceBroker × List InterfaceEffect :=
  b.register cmd .publication "publication" (fun b _ => (b, [])) findandNotifyPublicationTargets

def addInput (b : InterfaceBroker) (cmd : InterfaceMessage) :
    InterfaceBroker × List InterfaceEffect :=
  b.register cmd .input "input" (fun b _ => (b, [])) findandNotifyInputTargets

/-- The first endpoint makes the broker and its parent depend on each other. -/
def joinForEndpoint (b : InterfaceBroker) : InterfaceBroker × List InterfaceEffect :=
  if b.hasTimeDependency then (b, [])
  else
    let added := b.timeCoord.dependencies.addDependency b.higherBrokerId
    if added.1 then
      ({ b with
          hasTimeDependency := true
          timeCoord := { b.timeCoord with
            dependencies := added.2
            dependents := (b.timeCoord.dependents.addDependent b.higherBrokerId).2 } },
        [.command parentRouteId
          { messageAction := .cmdAddInterdependency, sourceId := b.globalBrokerIdLocal,
            destId := b.higherBrokerId }])
    else (b, [])

def addEndpoint (b : InterfaceBroker) (cmd : InterfaceMessage) :
    InterfaceBroker × List InterfaceEffect :=
  b.register cmd .endpoint "endpoint" (fun b _ => b.joinForEndpoint) findandNotifyEndpointTargets

/-- The first filter makes the parent depend on the broker. -/
def joinForFilter (b : InterfaceBroker) : InterfaceBroker × List InterfaceEffect :=
  if b.hasFilters then (b, [])
  else
    let added := b.timeCoord.dependents.addDependent b.higherBrokerId
    if added.1 then
      ({ b with
          hasFilters := true
          hasTimeDependency := true
          timeCoord := { b.timeCoord with dependents := added.2 } },
        [.command parentRouteId
          { messageAction := .cmdAddDependency, sourceId := b.globalBrokerIdLocal,
            destId := b.higherBrokerId }])
    else ({ b with hasFilters := true }, [])

def addFilter (b : InterfaceBroker) (cmd : InterfaceMessage) :
    InterfaceBroker × List InterfaceEffect :=
  b.register cmd .filter "filter" (fun b _ => b.joinForFilter) findandNotifyFilterTargets

/-- A link is turned into a request on behalf of the side that is known, the first one first. -/
def processLink (b : InterfaceBroker) (cmd : InterfaceMessage) (first second : HandleType)
    (askSecond askFirst : InterfaceAction) (park : UnknownHandleManager) :
    InterfaceBroker × List InterfaceEffect :=
  match b.handles.find first cmd.name with
  | some info =>
    b.checkForNamedInterface { cmd with
      name := cmd.getString targetStringLoc
      action := askSecond
      source := info.handle }
  | none =>
    match b.handles.find second (cmd.getString targetStringLoc) with
    | some info => b.checkForNamedInterface { cmd with action := askFirst, source := info.handle }
    | none =>
      if b.isRootc then ({ b with unknownHandles := park }, [])
      else (b, [b.routeMessage cmd])

def dataLink (b : InterfaceBroker) (cmd : InterfaceMessage) :
    InterfaceBroker × List InterfaceEffect :=
  b.processLink cmd .publication .input .cmdAddNamedInput .cmdAddNamedPublication
    (b.unknownHandles.addDataLink cmd.name (cmd.getString targetStringLoc))

def filterLink (b : InterfaceBroker) (cmd : InterfaceMessage) :
    InterfaceBroker × List InterfaceEffect :=
  b.processLink cmd .filter .endpoint .cmdAddNamedEndpoint .cmdAddNamedFilter
    (if checkActionFlag cmd.flags destinationTarget then
      b.unknownHandles.addDestinationFilterLink cmd.name (cmd.getString targetStringLoc)
    else b.unknownHandles.addSourceFilterLink cmd.name (cmd.getString targetStringLoc))

/-- Registrations and closings for another destination are passed on below the root. -/
def forParent (b : InterfaceBroker) (cmd : InterfaceMessage)
    (handler : InterfaceBroker → InterfaceMessage → InterfaceBroker × List InterfaceEffect) :
    InterfaceBroker × List InterfaceEffect :=
  if b.isRootc = false ∧ cmd.dest.fedId ≠ parentBrokerId then (b, [b.routeMessage cmd])
  else handler b cmd

def processCommand (b : InterfaceBroker) (cmd : InterfaceMessage) :
    InterfaceBroker × List InterfaceEffect :=
  match cmd.action with
  | .cmdDataLink => b.dataLink cmd
  | .cmdFilterLink => b.filterLink cmd
  | .cmdRegPub => b.forParent cmd addPublication
  | .cmdRegInput => b.forParent cmd addInput
  | .cmdRegEndpoint => b.forParent cmd addEndpoint
  | .cmdRegFilter => b.forParent cmd addFilter
  | .cmdCloseInterface =>
    b.forParent cmd (fun b cmd => ({ b with handles := b.handles.removeHandle cmd.source }, []))
  | .cmdAddNamedPublication | .cmdAddNamedInput | .cmdAddNamedEndpoint | .cmdAddNamedFilter =>
    b.checkForNamedInterface cmd
  | .cmdRemoveNamedPublication | .cmdRemoveNamedInput | .cmdRemoveNamedEndpoint
  | .cmdRemoveNamedFilter => (b, b.removeNamedTarget cmd)
  | _ => (b, if cmd.dest.fedId = b.globalBrokerIdLocal then [] else [b.routeMessage cmd])

end InterfaceBroker

end Helics
