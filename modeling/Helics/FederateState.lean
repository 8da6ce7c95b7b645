import Helics.TimeCoordinator

namespace Helics

inductive FederateStates where
  | created
  | initializing
  | executing
  | terminating
  | error
  | finished
deriving DecidableEq, Repr

structure NamedInputInfo where
  handle : InterfaceHandle
  inputSources : List GlobalHandle := []
  notInterruptible : Bool := false

structure FederateState where
  globalId : GlobalId
  state : FederateStates := .created
  timeCoord : TimeCoordinator := {}
  timeGranted : Time := .minVal
  allowedSendTime : Time := .minVal
  timeGrantedMode : Bool := false
  processing : Bool := false
  inputs : List NamedInputInfo := []
  endpoints : List InterfaceHandle := []

namespace FederateState

def iterationOf (cmd : ActionMessage) : IterationRequest :=
  if checkActionFlag cmd.flags iterationRequestedFlag then
    if checkActionFlag cmd.flags requiredFlag then .forceIteration else .iterateIfNeeded
  else .noIterations

def timeRequestCommand (f : FederateState) (nextTime : Time) (iterate : IterationRequest) :
    ActionMessage where
  messageAction := .cmdTimeRequest
  sourceId := f.globalId
  actionTime := nextTime
  flags := match iterate with
    | .forceIteration => setActionFlag (setActionFlag 0 iterationRequestedFlag) requiredFlag
    | .iterateIfNeeded => setActionFlag 0 iterationRequestedFlag
    | .noIterations => 0

def withCoordinator (f : FederateState) (r : TimeCoordinator × List ActionMessage) :
    FederateState × List ActionMessage :=
  ({ f with timeCoord := r.1 }, r.2)

def timeCheck (f : FederateState) :
    MessageProcessingResult × FederateState × List ActionMessage :=
  if f.state = .executing ∧ f.timeGrantedMode = false then
    let r := f.timeCoord.checkTimeGrant
    if returnableResult r.1 then
      (r.1, { f with
        timeCoord := r.2.1
        timeGranted := r.2.1.timeGranted
        allowedSendTime := r.2.1.timeGranted + r.2.1.info.outputDelay
        timeGrantedMode := true }, r.2.2)
    else (.continueProcessing, { f with timeCoord := r.2.1 }, r.2.2)
  else (.continueProcessing, f, [])

def execCheck (f : FederateState) :
    MessageProcessingResult × FederateState × List ActionMessage :=
  if f.state = .initializing ∧ f.timeGrantedMode = false then
    let r := f.timeCoord.checkExecEntry
    match r.1 with
    | .continueProcessing => (.continueProcessing, { f with timeCoord := r.2.1 }, r.2.2)
    | .nextStep => (.nextStep, { f with
        timeCoord := r.2.1, state := .executing, timeGrantedMode := true }, r.2.2)
    | res => (res, { f with timeCoord := r.2.1, timeGrantedMode := true }, r.2.2)
  else (.continueProcessing, f, [])

def processThen (f : FederateState) (cmd : ActionMessage)
    (check : FederateState → MessageProcessingResult × FederateState × List ActionMessage) :
    MessageProcessingResult × FederateState × List ActionMessage :=
  let r := f.timeCoord.processTimeMessage cmd
  let f := { f with timeCoord := r.2.1 }
  match r.1 with
  | .delayProcessing => (.delayMessage, f, r.2.2)
  | .noEffect => (.continueProcessing, f, r.2.2)
  | .processed => ((check f).1, (check f).2.1, r.2.2 ++ (check f).2.2)

def processTimeBlock (f : FederateState) (cmd : ActionMessage) :
    MessageProcessingResult × FederateState × List ActionMessage :=
  f.processThen cmd fun f => match f.state with
    | .initializing => f.execCheck
    | .executing => f.timeCheck
    | _ => (.continueProcessing, f, [])

def forceTimeGrant (f : FederateState) (cmd : ActionMessage) :
    MessageProcessingResult × FederateState × List ActionMessage :=
  if cmd.actionTime < f.timeGranted then (.continueProcessing, f, [])
  else
    let r := f.timeCoord.processTimeMessage cmd
    (.nextStep, { f with
      timeCoord := r.2.1
      timeGranted := r.2.1.timeGranted
      allowedSendTime := r.2.1.timeGranted + r.2.1.info.outputDelay
      timeGrantedMode := true }, r.2.2)

/-- The first part of the handling of an own request, up to the delayed commands. -/
def startTimeRequest (f : FederateState) (cmd : ActionMessage)
    (nextValueTime nextMessageTime : Time) : FederateState × List ActionMessage :=
  let r := f.timeCoord.timeRequest cmd.actionTime (iterationOf cmd) nextValueTime nextMessageTime
  ({ f with timeCoord := r.1, timeGrantedMode := false }, r.2)

def startExecRequest (f : FederateState) (cmd : ActionMessage) :
    FederateState × List ActionMessage :=
  let r := f.timeCoord.enteringExecMode (iterationOf cmd)
  ({ f with timeCoord := r.1, timeGrantedMode := false }, r.2)

def isOwnRequest (f : FederateState) (cmd : ActionMessage) : Bool :=
  decide (cmd.sourceId = f.globalId) && decide (cmd.destId = parentBrokerId)

/-- Each source of the input that is the sender of the value updates the value time. -/
def receivePublication (f : FederateState) (cmd : ActionMessage) :
    FederateState × List ActionMessage :=
  match f.inputs.find? (fun i => decide (i.handle = cmd.destHandle)) with
  | none => (f, [])
  | some input =>
    if input.notInterruptible then (f, [])
    else f.withCoordinator
      ((input.inputSources.filter (fun src => decide (src = cmd.getSource))).foldl
        (fun r _ => ((r.1.updateValueTime cmd.actionTime).1,
          r.2 ++ (r.1.updateValueTime cmd.actionTime).2)) (f.timeCoord, []))

def receiveMessage (f : FederateState) (cmd : ActionMessage) :
    FederateState × List ActionMessage :=
  if cmd.destHandle ∈ f.endpoints then
    f.withCoordinator (f.timeCoord.updateMessageTime cmd.actionTime)
  else (f, [])

def continueWith (r : FederateState × List ActionMessage) :
    MessageProcessingResult × FederateState × List ActionMessage :=
  (.continueProcessing, r.1, r.2)

def processDisconnect (f : FederateState) (cmd : ActionMessage) :
    MessageProcessingResult × FederateState × List ActionMessage :=
  if cmd.sourceId = f.globalId then
    if f.state = .finished ∨ f.state = .terminating then (.continueProcessing, f, [])
    else (.continueProcessing,
      { f with timeCoord := f.timeCoord.disconnect.1, state := .terminating },
      f.timeCoord.disconnect.2 ++ [{ cmd with destId := parentBrokerId }])
  else f.processThen cmd timeCheck

def stop (f : FederateState) : MessageProcessingResult × FederateState × List ActionMessage :=
  (.halted, { f with timeCoord := f.timeCoord.disconnect.1, state := .finished },
    f.timeCoord.disconnect.2)

def acknowledgeDisconnect (f : FederateState) (cmd : ActionMessage) :
    MessageProcessingResult × FederateState × List ActionMessage :=
  if cmd.destId = f.globalId ∧ cmd.sourceId = parentBrokerId then
    if f.state = .finished ∨ f.state = .terminating then
      (.halted, { f with state := .finished }, [])
    else f.stop
  else (.continueProcessing, f, [])

def processActionMessage (f : FederateState) (cmd : ActionMessage)
    (nextValueTime nextMessageTime : Time) :
    MessageProcessingResult × FederateState × List ActionMessage :=
  match cmd.messageAction with
  | .cmdTimeBlock | .cmdTimeUnblock => f.processTimeBlock cmd
  | .cmdExecRequest =>
    if f.isOwnRequest cmd then continueWith (f.startExecRequest cmd)
    else f.processThen cmd execCheck
  | .cmdExecGrant => f.processThen cmd execCheck
  | .cmdExecCheck => f.execCheck
  | .cmdTerminateImmediately => (.halted, { f with state := .finished }, [])
  | .cmdStop => f.stop
  | .cmdDisconnectFedAck => f.acknowledgeDisconnect cmd
  | .cmdDisconnectFed | .cmdDisconnect => f.processDisconnect cmd
  | .cmdBroadcastDisconnect | .cmdDisconnectBroker | .cmdDisconnectCore =>
    f.processThen cmd timeCheck
  | .cmdTimeRequest =>
    if f.isOwnRequest cmd then
      continueWith (f.startTimeRequest cmd nextValueTime nextMessageTime)
    else f.processThen cmd timeCheck
  | .cmdTimeGrant => f.processThen cmd timeCheck
  | .cmdTimeCheck => f.timeCheck
  | .cmdForceTimeGrant => f.forceTimeGrant cmd
  | .cmdSendMessage => continueWith (f.receiveMessage cmd)
  | .cmdPub => continueWith (f.receivePublication cmd)
  | .cmdError => (.error, { f with state := .error }, [])
  | .cmdAddDependency | .cmdRemoveDependency | .cmdAddDependent | .cmdRemoveDependent
  | .cmdAddInterdependency | .cmdRemoveInterdependency =>
    (.continueProcessing,
      if cmd.destId = f.globalId then
        { f with timeCoord := f.timeCoord.processDependencyUpdateMessage cmd }
      else f, [])
  | _ => (.continueProcessing, f, [])

end FederateState

end Helics
