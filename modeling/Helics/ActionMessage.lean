import Helics.Time

namespace Helics

/-- The commands of `action_t` that the modelled handlers read or write. -/
inductive Action where
  | cmdIgnore
  | cmdPriorityDisconnect
  | cmdFedAck
  | cmdBrokerAck
  | cmdRegFed
  | cmdRegBroker
  | cmdBrokerSetup
  | cmdCheckConnections
  | cmdUserDisconnect
  | cmdDisconnect
  | cmdDisconnectName
  | cmdDisconnectFed
  | cmdBroadcastDisconnect
  | cmdDisconnectCore
  | cmdDisconnectBroker
  | cmdDisconnectFedAck
  | cmdDisconnectCoreAck
  | cmdDisconnectBrokerAck
  | cmdInit
  | cmdInitGrant
  | cmdInitNotReady
  | cmdExecRequest
  | cmdExecGrant
  | cmdExecCheck
  | cmdStop
  | cmdTerminateImmediately
  | cmdTimeRequest
  | cmdTimeGrant
  | cmdTimeCheck
  | cmdForceTimeGrant
  | cmdTimeBlock
  | cmdTimeUnblock
  | cmdPub
  | cmdLog
  | cmdWarning
  | cmdError
  | cmdSearchDependency
  | cmdAddDependency
  | cmdRemoveDependency
  | cmdAddDependent
  | cmdRemoveDependent
  | cmdAddInterdependency
  | cmdRemoveInterdependency
  | cmdSendMessage
  | cmdNullMessage
  | cmdNullDestMessage
  | cmdSendForFilter
  | cmdSendForFilterAndReturn
  | cmdSendForDestFilterAndReturn
  | cmdFilterResult
  | cmdDestFilterResult
deriving DecidableEq, Repr

/-- Identifiers of federates, cores and brokers share one integer space. -/
abbrev GlobalId := Int

abbrev InterfaceHandle := Int

abbrev RouteId := Int

def invalidGlobalId : GlobalId := -2010000000

def invalidHandle : InterfaceHandle := -1700000000

def parentBrokerId : GlobalId := 0

def parentRouteId : RouteId := 0

def globalFederateIdShift : GlobalId := 131072

def globalBrokerIdShift : GlobalId := 1879048192

def isFederateId (id : GlobalId) : Bool :=
  decide (globalFederateIdShift ≤ id) && decide (id < globalBrokerIdShift)

structure GlobalHandle where
  fedId : GlobalId := invalidGlobalId
  handle : InterfaceHandle := invalidHandle
deriving DecidableEq, Repr

def targetStringLoc : Nat := 0

def iterationRequestedFlag : UInt16 := 0

def destinationTarget : UInt16 := 1

def requiredFlag : UInt16 := 2

def coreFlag : UInt16 := 3

def errorFlag : UInt16 := 4

def optionalFlag : UInt16 := 8

def cloneFlag : UInt16 := 9

def disconnectedFlag : UInt16 := 12

structure ActionMessage where
  messageAction : Action := .cmdIgnore
  messageID : Int := 0
  sourceId : GlobalId := parentBrokerId
  sourceHandle : InterfaceHandle := invalidHandle
  destId : GlobalId := parentBrokerId
  destHandle : InterfaceHandle := invalidHandle
  counter : UInt16 := 0
  flags : UInt16 := 0
  actionTime : Time := .zero
  payload : String := ""
  Te : Time := .zero
  Tdemin : Time := .zero
  stringData : List String := []
deriving DecidableEq

namespace ActionMessage

/-- The field `name` is an alias of the payload. -/
def name (m : ActionMessage) : String := m.payload

def setAction (m : ActionMessage) (a : Action) : ActionMessage := { m with messageAction := a }

def getSource (m : ActionMessage) : GlobalHandle := ⟨m.sourceId, m.sourceHandle⟩

def getDest (m : ActionMessage) : GlobalHandle := ⟨m.destId, m.destHandle⟩

def setDestination (m : ActionMessage) (h : GlobalHandle) : ActionMessage :=
  { m with destId := h.fedId, destHandle := h.handle }

def getString (m : ActionMessage) (index : Nat) : String := m.stringData.getD index ""

end ActionMessage

def checkActionFlag (flags flag : UInt16) : Bool := flags &&& (1 <<< flag) != 0

def setActionFlag (flags flag : UInt16) : UInt16 := flags ||| (1 <<< flag)

def clearActionFlag (flags flag : UInt16) : UInt16 := flags &&& ~~~(1 <<< flag)

structure Message where
  time : Time := .zero
  messageID : Int := 0
  data : String := ""
  dest : String := ""
  source : String := ""
  originalSource : String := ""
  originalDest : String := ""
deriving DecidableEq

/-- Strings beyond those the command carries stay empty in the message object. -/
def createMessageFromCommand (cmd : ActionMessage) : Message where
  time := cmd.actionTime
  messageID := cmd.messageID
  data := cmd.payload
  dest := cmd.getString 0
  source := cmd.getString 1
  originalSource := cmd.getString 2
  originalDest := cmd.getString 3

/-- The command built from a message object starts from the default identity and counter. -/
def ActionMessage.ofMessage (message : Message) : ActionMessage where
  messageAction := .cmdSendMessage
  messageID := message.messageID
  actionTime := message.time
  payload := message.data
  stringData := [message.dest, message.source, message.originalSource, message.originalDest]

def isTimingCommand : Action → Bool
  | .cmdDisconnect | .cmdBroadcastDisconnect | .cmdDisconnectCore | .cmdDisconnectBroker
  | .cmdDisconnectFed | .cmdTimeGrant | .cmdTimeRequest | .cmdExecGrant | .cmdExecRequest
  | .cmdPriorityDisconnect | .cmdTerminateImmediately => true
  | _ => false

def isDependencyCommand : Action → Bool
  | .cmdAddDependency | .cmdRemoveDependency | .cmdAddDependent | .cmdRemoveDependent
  | .cmdAddInterdependency | .cmdRemoveInterdependency => true
  | _ => false

end Helics
