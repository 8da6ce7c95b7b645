import Helics.InterfaceCore

namespace Helics

structure PublicationInfo where
  id : GlobalHandle
  subscribers : List GlobalHandle := []
deriving DecidableEq

structure InputInfo where
  id : GlobalHandle
  inputSources : List GlobalHandle := []
  deactivated : List Time := []
deriving DecidableEq

structure EndpointInfo where
  id : GlobalHandle
  messageQueue : List Message := []
deriving DecidableEq

def PublicationInfo.removeSubscriber (pub : PublicationInfo) (subscriber : GlobalHandle) :
    PublicationInfo :=
  { pub with subscribers := pub.subscribers.filter (fun s => decide (s ≠ subscriber)) }

namespace InputInfo

def addSource (inp : InputInfo) (source : GlobalHandle) : InputInfo :=
  { inp with
    inputSources := inp.inputSources ++ [source]
    deactivated := inp.deactivated ++ [Time.maxVal] }

def removeSource (inp : InputInfo) (source : GlobalHandle) (minTime : Time) : InputInfo :=
  let mark (i : Nat) (t : Time) : Time := if inp.inputSources[i]? = some source then minTime else t
  { inp with deactivated := inp.deactivated.mapIdx mark }

end InputInfo

/-- The interfaces of one federate, which are found by their handles. -/
structure FederateInterfaces where
  globalId : GlobalId := invalidGlobalId
  timeGranted : Time := .zero
  interfaceFlags : UInt16 := 0
  publications : List PublicationInfo := []
  inputs : List InputInfo := []
  endpoints : List EndpointInfo := []
deriving DecidableEq

namespace FederateInterfaces

def getPublication (f : FederateInterfaces) (handle : InterfaceHandle) : Option PublicationInfo :=
  f.publications.find? (fun pub => decide (pub.id.handle = handle))

def getInput (f : FederateInterfaces) (handle : InterfaceHandle) : Option InputInfo :=
  f.inputs.find? (fun inp => decide (inp.id.handle = handle))

def getEndpoint (f : FederateInterfaces) (handle : InterfaceHandle) : Option EndpointInfo :=
  f.endpoints.find? (fun ept => decide (ept.id.handle = handle))

def modifyPublication (f : FederateInterfaces) (handle : InterfaceHandle)
    (g : PublicationInfo → PublicationInfo) : FederateInterfaces :=
  { f with publications :=
      f.publications.map (fun pub => if pub.id.handle = handle then g pub else pub) }

def modifyInput (f : FederateInterfaces) (handle : InterfaceHandle) (g : InputInfo → InputInfo) :
    FederateInterfaces :=
  { f with inputs := f.inputs.map (fun inp => if inp.id.handle = handle then g inp else inp) }

def modifyEndpoint (f : FederateInterfaces) (handle : InterfaceHandle)
    (g : EndpointInfo → EndpointInfo) : FederateInterfaces :=
  { f with endpoints := f.endpoints.map (fun ept => if ept.id.handle = handle then g ept else ept) }

def createInterface (f : FederateInterfaces) (what : HandleType) (handle : InterfaceHandle) :
    FederateInterfaces :=
  let id : GlobalHandle := ⟨f.globalId, handle⟩
  match what with
  | .publication => { f with publications := f.publications ++ [{ id := id }] }
  | .input => { f with inputs := f.inputs ++ [{ id := id }] }
  | .endpoint => { f with endpoints := f.endpoints ++ [{ id := id }] }
  | _ => f

/-- The partners of a closed publication or input are told, and the queue of an endpoint is
dropped. -/
def closeInterface (f : FederateInterfaces) (handle : InterfaceHandle) (what : HandleType) :
    FederateInterfaces × List InterfaceMessage :=
  let remove (action : InterfaceAction) (source dest : GlobalHandle) : InterfaceMessage :=
    { action := action, source := source, dest := dest, actionTime := f.timeGranted }
  match what with
  | .publication =>
    match f.getPublication handle with
    | some pub => (f.modifyPublication handle (fun pub => { pub with subscribers := [] }),
        pub.subscribers.map (remove .cmdRemovePublication pub.id))
    | none => (f, [])
  | .endpoint => (f.modifyEndpoint handle (fun ept => { ept with messageQueue := [] }), [])
  | .input =>
    match f.getInput handle with
    | some inp => (f.modifyInput handle (fun inp => { inp with inputSources := [] }),
        inp.inputSources.map (remove .cmdRemoveSubscriber inp.id))
    | none => (f, [])
  | _ => (f, [])

/-- The federate takes the kind of a closed interface from the counter of the command. -/
def processActionMessage (f : FederateInterfaces) (cmd : InterfaceMessage) :
    FederateInterfaces × List InterfaceMessage :=
  match cmd.action with
  | .cmdAddPublisher =>
    (f.modifyInput cmd.dest.handle (fun inp => inp.addSource cmd.source), [])
  | .cmdAddSubscriber =>
    (f.modifyPublication cmd.dest.handle
      (fun pub => { pub with subscribers := pub.subscribers ++ [cmd.source] }), [])
  | .cmdRemovePublication =>
    (f.modifyInput cmd.dest.handle (fun inp => inp.removeSource cmd.source
      (if cmd.actionTime = .zero then f.timeGranted else cmd.actionTime)), [])
  | .cmdRemoveSubscriber =>
    (f.modifyPublication cmd.dest.handle (fun pub => pub.removeSubscriber cmd.source), [])
  | .cmdCloseInterface =>
    if cmd.source.fedId = f.globalId then
      f.closeInterface cmd.source.handle (HandleType.ofCode cmd.counter)
    else (f, [])
  | _ => (f, [])

end FederateInterfaces

namespace InterfaceCore

def createBasicHandle (c : InterfaceCore) (fed : GlobalId) (what : HandleType)
    (key type units : String) (flags : UInt16) : InterfaceCore × HandleInfo :=
  let info := c.handles.newInfo (c.handles.localHandle fed) what key type units flags
  ({ c with handles := c.handles.push info }, info)

/-- A name of the same kind that is in use on this core is refused. -/
def registerNamed (c : InterfaceCore) (f : FederateInterfaces) (what : HandleType)
    (action : InterfaceAction) (key type units : String) (strings : List String) :
    Option (InterfaceCore × FederateInterfaces × InterfaceMessage) :=
  if (c.handles.find what key).isSome then none
  else
    let made := c.createBasicHandle f.globalId what key type units f.interfaceFlags
    some (made.1, f.createInterface what made.2.handle.handle,
      { action := action, source := made.2.handle, flags := made.2.flags, name := key,
        stringData := strings })

def registerInput (c : InterfaceCore) (f : FederateInterfaces) (key type units : String) :
    Option (InterfaceCore × FederateInterfaces × InterfaceMessage) :=
  c.registerNamed f .input .cmdRegInput key type units [type, units]

def registerPublication (c : InterfaceCore) (f : FederateInterfaces) (key type units : String) :
    Option (InterfaceCore × FederateInterfaces × InterfaceMessage) :=
  c.registerNamed f .publication .cmdRegPub key type units [type, units]

def registerEndpoint (c : InterfaceCore) (f : FederateInterfaces) (name type : String) :
    Option (InterfaceCore × FederateInterfaces × InterfaceMessage) :=
  c.registerNamed f .endpoint .cmdRegEndpoint name type "" [type]

/-- A filter belongs to its core and is announced even under a generated name. -/
def registerFilter (c : InterfaceCore) (name typeIn typeOut : String) (cloning : Bool) :
    Option (InterfaceCore × InterfaceMessage) :=
  if name ≠ "" ∧ (c.handles.getFilter name).isSome then none
  else
    let flags := if cloning then setActionFlag 0 cloneFlag else 0
    let made := c.createBasicHandle c.globalBrokerIdLocal .filter name typeIn typeOut flags
    let announce : InterfaceMessage :=
      { action := .cmdRegFilter, source := made.2.handle, flags := flags, name := made.2.key }
    some (made.1, announce.withTypes typeIn typeOut)

def addDestinationTarget (c : InterfaceCore) (handle : InterfaceHandle) (dest : String) :
    Option InterfaceMessage :=
  (c.handles.getHandleInfo handle).bind fun info =>
    let cmd (action : InterfaceAction) : InterfaceMessage :=
      { action := action, source := info.handle, name := dest,
        flags := setActionFlag info.flags destinationTarget }
    match info.handleType with
    | .endpoint => some (cmd .cmdAddNamedFilter)
    | .filter => some (if info.key = "" then
        (cmd .cmdAddNamedEndpoint).withTypes info.type info.units
        else cmd .cmdAddNamedEndpoint)
    | .publication => some (if info.key = "" then
        { cmd .cmdAddNamedInput with stringData := [info.type, info.units] }
        else cmd .cmdAddNamedInput)
    | _ => none

def addSourceTarget (c : InterfaceCore) (handle : InterfaceHandle) (targetName : String) :
    Option InterfaceMessage :=
  (c.handles.getHandleInfo handle).bind fun info =>
    let cmd (action : InterfaceAction) : InterfaceMessage :=
      { action := action, source := info.handle, name := targetName, flags := info.flags }
    match info.handleType with
    | .endpoint => some (cmd .cmdAddNamedFilter)
    | .filter => some (if info.key = "" then
        (cmd .cmdAddNamedEndpoint).withTypes info.type info.units
        else cmd .cmdAddNamedEndpoint)
    | .input => some (cmd .cmdAddNamedPublication)
    | _ => none

/-- The request to end a connection; `granted` is the time of the federate, if there is one. -/
def removeTarget (c : InterfaceCore) (handle : InterfaceHandle) (targetToRemove : String)
    (granted : Option Time) : Option InterfaceMessage :=
  (c.handles.getHandleInfo handle).bind fun info =>
    let cmd (action : InterfaceAction) : InterfaceMessage :=
      { action := action, source := info.handle, name := targetToRemove,
        actionTime := granted.getD .zero }
    match info.handleType with
    | .publication => some (cmd .cmdRemoveNamedInput)
    | .filter => some (cmd .cmdRemoveNamedEndpoint)
    | .input => some (cmd .cmdRemoveNamedPublication)
    | .endpoint => some (cmd .cmdRemoveNamedFilter)
    | .unknown => none

/-- The kind of a closed interface is written into the message identifier of the command. -/
def closeHandle (c : InterfaceCore) (handle : InterfaceHandle) :
    Option (InterfaceCore × List InterfaceMessage) :=
  (c.handles.getHandleInfo handle).map fun info =>
    if checkActionFlag info.flags disconnectedFlag then (c, [])
    else
      ({ c with handles := c.handles.modifyFlags handle.toNat (setActionFlag · disconnectedFlag) },
        [{ action := .cmdCloseInterface, source := info.handle,
           messageID := info.handleType.code }])

end InterfaceCore

def dataLinkCommand (source target : String) : InterfaceMessage :=
  { action := .cmdDataLink, name := source, stringData := [target] }

def sourceFilterLinkCommand (filter endpoint : String) : InterfaceMessage :=
  { action := .cmdFilterLink, name := filter, stringData := [endpoint] }

def destinationFilterLinkCommand (filter endpoint : String) : InterfaceMessage :=
  { action := .cmdFilterLink, name := filter, stringData := [endpoint],
    flags := setActionFlag 0 destinationTarget }

end Helics
