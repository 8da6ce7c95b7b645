import Helics.CommonCore

namespace Helics

open CoreEffect

variable [DualMapped String GlobalId]

namespace CommonCore

/-- The destination endpoint of a message, by name unless the message carries a handle. -/
def destinationOf (c : CommonCore) (m : ActionMessage) : Option BasicHandleInfo :=
  if m.destId = parentBrokerId then c.endpointByName (m.getString targetStringLoc)
  else c.findHandle m.getDest

def cloneToDestFilter (c : CommonCore) (m : ActionMessage) (filt : FilterInfo) :
    CommonCore × List CoreEffect :=
  if filt.disconnected then (c, [])
  else if filt.coreId = c.globalBrokerIdLocal then
    match c.findFilter ⟨c.globalBrokerIdLocal, filt.handle⟩ with
    | some local_ =>
      (c, if local_.filterOp.isSome && local_.cloning then
          [.applyFilter local_.globalHandle (createMessageFromCommand m)] else [])
    | none => (c, [])
  else c.routeMessage { m with
    messageAction := .cmdSendForFilter
    destId := filt.coreId
    destHandle := filt.handle }

def cloneToDestFilters (c : CommonCore) (m : ActionMessage) :
    List FilterInfo → CommonCore × List CoreEffect
  | [] => (c, [])
  | filt :: filts =>
    let first := c.cloneToDestFilter m filt
    let rest := first.1.cloneToDestFilters m filts
    (rest.1, first.2 ++ rest.2)

def deliverToEndpoint (c : CommonCore) (m : ActionMessage) (ept : BasicHandleInfo) :
    CommonCore × List CoreEffect :=
  let m := if m.destId = parentBrokerId then m.setDestination ept.handle else m
  let told := { c with timeCoord := (c.timeCoord.processTimeMessage m).2 }
  (told, .timeMessage m :: if c.isLocal ept.getFederateId then [.addAction ept.getFederateId m]
    else [])

def moveInfo (m : ActionMessage) (message : Message) : ActionMessage :=
  { m with
    messageAction := .cmdSendMessage
    messageID := message.messageID
    payload := message.data
    actionTime := message.time
    stringData := [message.dest, message.source, message.originalSource, message.originalDest] }

/-- The number of a message that is being filtered is drawn and noted. -/
def noteDestRequest (c : CommonCore) (fed : GlobalId) (mid : Int) : CommonCore :=
  { c with
    messageCounter := mid
    ongoingDestFilterProcesses :=
      if (fed, mid) ∈ c.ongoingDestFilterProcesses then c.ongoingDestFilterProcesses
      else c.ongoingDestFilterProcesses ++ [(fed, mid)] }

def destFilterRequest (m : ActionMessage) (ept : BasicHandleInfo) (filt : FilterInfo) (mid : Int) :
    ActionMessage :=
  { m with
    messageAction := .cmdSendForDestFilterAndReturn
    messageID := mid
    sourceId := ept.getFederateId
    sourceHandle := ept.getInterfaceHandle
    destId := filt.coreId
    destHandle := filt.handle }

/-- A remote destination filter gets the message while the time of the federate is blocked. -/
def requestDestFilter (c : CommonCore) (m : ActionMessage) (ept : BasicHandleInfo)
    (filt : FilterInfo) : CommonCore × List CoreEffect :=
  let mid := nextMessageId c.messageCounter
  let fed := ept.getFederateId
  let block : ActionMessage := { messageAction := .cmdTimeBlock, sourceId := c.globalBrokerIdLocal,
                                 destId := fed, messageID := mid }
  if c.isLocal fed then
    let rest := (c.noteDestRequest fed mid).routeMovedMessage (destFilterRequest m ept filt mid)
    (rest.1, .addAction fed block :: rest.2)
  else ({ c with messageCounter := mid }, [.nullDereference])

/-- Delivery to a local endpoint, through its destination filters if it has any. -/
def deliverLocally (c : CommonCore) (m : ActionMessage) (ept : BasicHandleInfo) :
    CommonCore × List CoreEffect :=
  match if ept.hasDestFilterFlag then c.getFilterCoordinator ept.getInterfaceHandle else none with
  | none => c.deliverToEndpoint m ept
  | some ffunc =>
    match ffunc.destFilter.filter (fun filt => !filt.disconnected) with
    | none =>
      let cloned := c.cloneToDestFilters m ffunc.cloningDestFilters
      let rest := cloned.1.deliverToEndpoint m ept
      (rest.1, cloned.2 ++ rest.2)
    | some filt =>
      if filt.coreId ≠ c.globalBrokerIdLocal then c.requestDestFilter m ept filt
      else
        let message := createMessageFromCommand m
        let applied := match filt.filterOp with
          | some op => ([applyFilter filt.globalHandle message], op message)
          | none => ([], some message)
        match applied.2 with
        | none => (c, applied.1 ++ [.nullDereference])
        | some message' =>
          let m := moveInfo m message'
          let cloned := c.cloneToDestFilters m ffunc.cloningDestFilters
          let rest := cloned.1.deliverToEndpoint m ept
          (rest.1, applied.1 ++ cloned.2 ++ rest.2)

def deliverMessage (c : CommonCore) (m : ActionMessage) : CommonCore × List CoreEffect :=
  match m.messageAction with
  | .cmdSendMessage =>
    let mark := if m.destId = parentBrokerId then [deliver m] else []
    match c.destinationOf m with
    | none =>
      (c, mark ++ [.transmit
        ((c.knownExternalEndpoints.lookup (m.getString targetStringLoc)).getD parentRouteId) m])
    | some ept =>
      let rest := c.deliverLocally m ept
      (rest.1, mark ++ rest.2)
  | _ => (c, [.transmit (c.getRoute m.destId) m])

def addOngoing (c : CommonCore) (fed : GlobalId) (id : Int) : CommonCore :=
  { c with ongoingFilterProcesses :=
      if (fed, id) ∈ c.ongoingFilterProcesses then c.ongoingFilterProcesses
      else c.ongoingFilterProcesses ++ [(fed, id)] }

def eraseOngoing (c : CommonCore) (fed : GlobalId) (id : Int) : CommonCore :=
  { c with ongoingFilterProcesses :=
      c.ongoingFilterProcesses.filter (fun p => decide (p ≠ (fed, id))) }

def hasOngoing (c : CommonCore) (fed : GlobalId) : Bool :=
  c.ongoingFilterProcesses.any (fun p => decide (p.1 = fed))

/-- Parked messages of a federate go out once none of its messages is being filtered. -/
def releaseIfIdle (c : CommonCore) (fed : GlobalId) : CommonCore × List CoreEffect :=
  if c.hasOngoing fed then (c, []) else c.transmitDelayedMessages fed

def filterRequest (m : ActionMessage) (filt : FilterInfo) (ii size : Nat) : ActionMessage :=
  { m with
    messageAction := if ii < size - 1 then .cmdSendForFilterAndReturn else .cmdSendForFilter
    destId := filt.coreId
    destHandle := filt.handle
    counter := UInt16.ofNat ii }

def cloneRequest (m : ActionMessage) (filt : FilterInfo) : ActionMessage :=
  { m with
    messageAction := .cmdSendForFilter
    flags := setActionFlag m.flags cloneFlag
    destId := filt.coreId
    destHandle := filt.handle }

/-- The first pass over the source filters; the index counts the connected filters only. -/
def sourceFilterLoop (fed : GlobalId) (size : Nat) (c : CommonCore) :
    List FilterInfo → Nat → ActionMessage → CommonCore × ActionMessage × List CoreEffect
  | [], _, m => (c, m, [])
  | filt :: filts, ii, m =>
    if filt.disconnected then sourceFilterLoop fed size c filts ii m
    else if filt.coreId = c.globalBrokerIdLocal then
      match filt.filterOp with
      | none => (c, { messageAction := .cmdIgnore }, [.nullDereference])
      | some op =>
        let message := createMessageFromCommand m
        let applied := applyFilter filt.globalHandle message
        if filt.cloning then
          let rest := sourceFilterLoop fed size c filts (ii + 1) m
          (rest.1, rest.2.1, applied :: rest.2.2)
        else match op message with
          | some message' =>
            let rest := sourceFilterLoop fed size c filts (ii + 1) (.ofMessage message')
            (rest.1, rest.2.1, applied :: rest.2.2)
          | none => (c, { messageAction := .cmdIgnore }, [applied])
    else if filt.cloning then
      let sent := c.routeMessage (cloneRequest m filt)
      let rest := sourceFilterLoop fed size sent.1 filts (ii + 1) m
      (rest.1, rest.2.1, sent.2 ++ rest.2.2)
    else
      (if ii < size - 1 then c.addOngoing fed m.messageID else c, filterRequest m filt ii size, [])

def processMessage (c : CommonCore) (m : ActionMessage) :
    CommonCore × ActionMessage × List CoreEffect :=
  match c.endpointByHandle m.sourceHandle with
  | none => (c, m, [])
  | some ept =>
    if ept.hasSourceFilterFlag then
      match c.getFilterCoordinator ept.getInterfaceHandle with
      | none => (c, m, [.nullDereference])
      | some filtFunc =>
        if filtFunc.hasSourceFilters then
          sourceFilterLoop ept.getFederateId filtFunc.sourceFilters.length c
            filtFunc.sourceFilters 0 m
        else (c, m, [])
    else (c, m, [])

/-- The end of a chain: the message is delivered and the federate may go on. -/
def finishFilterReturn (c : CommonCore) (fed : GlobalId) (messID : Int) (cmd : ActionMessage) :
    CommonCore × List CoreEffect :=
  let sent := (c.eraseOngoing fed messID).deliverMessage cmd
  let rest := sent.1.releaseIfIdle fed
  (rest.1, sent.2 ++ rest.2)

/-- The pass over the filters after a reply, from the index after the counter of the reply. -/
def returnFilterLoop (fed : GlobalId) (messID : Int) (size : Nat) (c : CommonCore) :
    List FilterInfo → Nat → ActionMessage → CommonCore × List CoreEffect
  | [], ii, cmd =>
    if ii = 65536 then (c, [.counterWrapped]) else c.finishFilterReturn fed messID cmd
  | filt :: filts, ii, cmd =>
    if ii = 65536 then (c, [.counterWrapped])
    else if filt.disconnected then returnFilterLoop fed messID size c filts (ii + 1) cmd
    else if filt.coreId = c.globalBrokerIdLocal then
      match filt.filterOp with
      | none => (c, [.nullDereference])
      | some op =>
        let message := createMessageFromCommand cmd
        let applied := applyFilter filt.globalHandle message
        match op message with
        | some message' =>
          let rest := returnFilterLoop fed messID size c filts (ii + 1) (.ofMessage message')
          (rest.1, applied :: rest.2)
        | none =>
          let rest := (c.eraseOngoing fed messID).releaseIfIdle fed
          (rest.1, applied :: rest.2)
    else
      let asked := if ii < size - 1 then c else c.eraseOngoing fed messID
      let sent := asked.routeMessage (filterRequest cmd filt ii size)
      let rest := sent.1.releaseIfIdle fed
      (rest.1, sent.2 ++ rest.2)

/-- A reply continues the chain; a drop notification ends it but does not return. -/
def processFilterReturn (c : CommonCore) (cmd : ActionMessage) : CommonCore × List CoreEffect :=
  match c.endpointByHandle cmd.destHandle with
  | none => (c, [])
  | some ept =>
    let fed := ept.getFederateId
    if (fed, cmd.messageID) ∈ c.ongoingFilterProcesses then
      let dropped : CommonCore × List CoreEffect :=
        if cmd.messageAction = .cmdNullMessage then
          (c.eraseOngoing fed cmd.messageID).releaseIfIdle fed
        else (c, [])
      match dropped.1.getFilterCoordinator ept.getInterfaceHandle with
      | none => (dropped.1, dropped.2 ++ [.nullDereference])
      | some filtFunc =>
        let rest :=
          if filtFunc.hasSourceFilters then
            returnFilterLoop fed cmd.messageID filtFunc.sourceFilters.length dropped.1
              (filtFunc.sourceFilters.drop (cmd.counter + 1).toNat) (cmd.counter + 1).toNat cmd
          else dropped.1.finishFilterReturn fed cmd.messageID cmd
        (rest.1, dropped.2 ++ rest.2)
    else (c, [])

def eraseDestRequest (c : CommonCore) (fed : GlobalId) (mid : Int) : CommonCore :=
  { c with ongoingDestFilterProcesses :=
      c.ongoingDestFilterProcesses.filter (fun p => decide (p ≠ (fed, mid))) }

def removeTimeBlock (c : CommonCore) (fed : GlobalId) (mid : Int) : ActionMessage :=
  { messageAction := .cmdTimeUnblock, sourceId := c.globalBrokerIdLocal, destId := fed,
    messageID := mid }

/-- The filtered message goes to the cloning filters and to the federate, which is unblocked
last. -/
def finishDestFilterReturn (c : CommonCore) (fed : GlobalId) (filtFunc : FilterCoordinator)
    (cmd : ActionMessage) : CommonCore × List CoreEffect :=
  let cloned := c.cloneToDestFilters cmd filtFunc.cloningDestFilters
  let told := { cloned.1 with timeCoord := (cloned.1.timeCoord.processTimeMessage cmd).2 }
  let sent := told.routeMovedMessage (cmd.setAction .cmdSendMessage)
  let rest := sent.1.routeMessage (c.removeTimeBlock fed cmd.messageID)
  (rest.1, cloned.2 ++ [.timeMessage cmd] ++ sent.2 ++ rest.2)

def processDestFilterReturn (c : CommonCore) (cmd : ActionMessage) : CommonCore × List CoreEffect :=
  match c.endpointByHandle cmd.destHandle with
  | none => (c, [])
  | some ept =>
    let fed := ept.getFederateId
    if (fed, cmd.messageID) ∈ c.ongoingDestFilterProcesses then
      let erased := c.eraseDestRequest fed cmd.messageID
      if cmd.messageAction = .cmdNullDestMessage then
        erased.routeMessage (c.removeTimeBlock cmd.destId cmd.messageID)
      else match erased.getFilterCoordinator ept.getInterfaceHandle with
        | none => (erased, [.nullDereference])
        | some filtFunc => erased.finishDestFilterReturn fed filtFunc cmd
    else (c, [])

def filterReply (c : CommonCore) (request reply : ActionMessage) (filt : FilterInfo) :
    ActionMessage :=
  let destFilter := decide (request.messageAction = .cmdSendForDestFilterAndReturn)
  { reply with
    messageAction := if destFilter then .cmdDestFilterResult else .cmdFilterResult
    destId := request.sourceId
    destHandle := request.sourceHandle
    sourceId := c.globalBrokerIdLocal
    sourceHandle := filt.handle }

def dropNotification (request : ActionMessage) : ActionMessage :=
  let destFilter := decide (request.messageAction = .cmdSendForDestFilterAndReturn)
  { messageAction := if destFilter then .cmdNullDestMessage else .cmdNullMessage
    messageID := request.messageID
    destId := request.sourceId
    destHandle := request.sourceHandle }

def returnsToSender (cmd : ActionMessage) : Bool :=
  decide (cmd.messageAction = .cmdSendForFilterAndReturn) ||
    decide (cmd.messageAction = .cmdSendForDestFilterAndReturn)

/-- A filter of this core that is not cloning processes a message for another core. -/
def runFilter (c : CommonCore) (cmd : ActionMessage) (filt : FilterInfo)
    (op : Message → Option Message) : CommonCore × List CoreEffect :=
  let message := createMessageFromCommand cmd
  let rest : CommonCore × List CoreEffect :=
    match op message with
    | some message' =>
      if returnsToSender cmd then
        c.deliverMessage (c.filterReply cmd (.ofMessage message') filt)
      else c.deliverMessage { (ActionMessage.ofMessage message') with
        sourceId := cmd.sourceId
        sourceHandle := cmd.sourceHandle }
    | none =>
      if returnsToSender cmd then c.deliverMessage (dropNotification cmd) else (c, [])
  (rest.1, .applyFilter filt.globalHandle message :: rest.2)

/-- A filter that is gone or has no operator passes the message through. -/
def skipFilter (c : CommonCore) (cmd : ActionMessage) (filt : FilterInfo) :
    CommonCore × List CoreEffect :=
  if returnsToSender cmd then c.deliverMessage (c.filterReply cmd cmd filt)
  else c.deliverMessage { cmd with
    messageAction := .cmdSendMessage
    destId := parentBrokerId
    destHandle := invalidHandle }

def processMessageFilter (c : CommonCore) (cmd : ActionMessage) : CommonCore × List CoreEffect :=
  if cmd.destId = parentBrokerId then (c, [.transmit parentRouteId cmd])
  else if cmd.destId = c.globalBrokerIdLocal then
    match c.findFilter cmd.getDest with
    | none => (c, [])
    | some filt =>
      match if filt.disconnected then none else filt.filterOp with
      | some op =>
        if filt.cloning then
          (c, [.applyFilter filt.globalHandle (createMessageFromCommand cmd)])
        else c.runFilter cmd filt op
      | none => c.skipFilter cmd filt
  else (c, [.transmit (c.getRoute cmd.destId) cmd])

end CommonCore

end Helics
