import Helics.CoreBroker
import Mathlib.Logic.Function.Basic

namespace Helics

inductive QueryAction where
  | brokerQuery
  | query
  | queryReply
  | setGlobal
deriving DecidableEq, Repr

/-- The fields of a message that queries use; `target` is its first string. -/
structure QueryMessage where
  action : QueryAction
  messageID : Int := 0
  sourceId : GlobalId := parentBrokerId
  destId : GlobalId := parentBrokerId
  counter : UInt16 := 0
  payload : String := ""
  target : String := ""
deriving DecidableEq, Repr

/-- The two queries that a broker can only answer with the help of those below it. -/
inductive MapKind where
  | federates
  | dependencies
deriving DecidableEq, Repr

namespace MapKind

def request : MapKind → String
  | federates => "federate_map"
  | dependencies => "dependency_graph"

def counter : MapKind → UInt16
  | federates => 2
  | dependencies => 4

def ofRequest (request : String) : Option MapKind :=
  if request = "federate_map" then some federates
  else if request = "dependency_graph" then some dependencies
  else none

def ofCounter (counter : UInt16) : Option MapKind :=
  if counter = 2 then some federates else if counter = 4 then some dependencies else none

end MapKind

structure JsonMapBuilder where
  isActive : Bool := false
  parts : List (String × String) := []
  missingComponents : List (Int × String) := []
deriving DecidableEq, Repr

namespace JsonMapBuilder

def isCompleted (b : JsonMapBuilder) : Bool := b.isActive && b.missingComponents.isEmpty

def generatePlaceHolder (b : JsonMapBuilder) (location : String) : Int × JsonMapBuilder :=
  let index : Int := b.missingComponents.length + 2
  (index, { b with missingComponents := b.missingComponents ++ [(index, location)] })

/-- Reports whether the component was the last one that was missing. -/
def addComponent (b : JsonMapBuilder) (info : String) (index : Int) : Bool × JsonMapBuilder :=
  match b.missingComponents.find? (fun c => decide (c.1 = index)) with
  | none => (false, b)
  | some c =>
    let missing := b.missingComponents.eraseP (fun c => decide (c.1 = index))
    (missing.isEmpty, { b with
      parts := b.parts ++ [(c.2, info)]
      missingComponents := missing })

end JsonMapBuilder

structure BrokerTables where
  identifier : String
  globalBrokerIdLocal : GlobalId
  isRootc : Bool
  higherBrokerId : GlobalId
  federates : List BasicFedInfo
  brokers : List BasicBrokerInfo
  routingTable : RoutingTable
  answer : String → String
  mapText : MapKind → List (String × String) → String
  valuesText : List (String × String) → String
  mapText_ne : ∀ kind parts, mapText kind parts ≠ "#wait"

structure QueryResult where
  messageID : Int
  sourceId : GlobalId
  payload : String
deriving DecidableEq, Repr

structure QueryState where
  globalValues : List (String × String) := []
  queryCounter : Int := 0
  builder : MapKind → JsonMapBuilder := fun _ => {}
  requestors : MapKind → List QueryMessage := fun _ => []
  results : List QueryResult := []

abbrev Sent := List (RouteId × QueryMessage)

namespace BrokerTables

variable (b : BrokerTables)

def getRoute (id : GlobalId) : RouteId :=
  if id = parentBrokerId ∨ id = b.higherBrokerId then parentRouteId
  else (b.routingTable.lookup id).getD parentRouteId

def routeMessageTo (m : QueryMessage) (dest : GlobalId) : Sent :=
  if dest = invalidGlobalId then [] else [(b.getRoute dest, { m with destId := dest })]

def routeMessage (m : QueryMessage) : Sent := [(b.getRoute m.destId, m)]

/-- The map of the federates asks the direct children, the dependency graph all that are below. -/
def asks (kind : MapKind) (brk : BasicBrokerInfo) : Bool :=
  match kind with
  | .federates => decide (brk.parent = b.globalBrokerIdLocal)
  | .dependencies => true

def mapQuery (kind : MapKind) (index : Int) (brk : BasicBrokerInfo) : QueryMessage where
  action := .brokerQuery
  payload := kind.request
  sourceId := b.globalBrokerIdLocal
  counter := kind.counter
  messageID := index
  destId := brk.globalId

/-- The loop that starts a map: a place holder and a query for each member that is asked. -/
def initializeMap (kind : MapKind) : JsonMapBuilder × Sent :=
  (b.brokers.filter (b.asks kind)).foldl (fun r brk =>
    let holder := r.1.generatePlaceHolder (if brk.core then "cores" else "brokers")
    (holder.2, r.2 ++ [(brk.route, b.mapQuery kind holder.1 brk)])) ({ isActive := true }, [])

def generateQueryAnswer (s : QueryState) (request : String) : String × QueryState × Sent :=
  match MapKind.ofRequest request with
  | none => (b.answer request, s, [])
  | some kind =>
    if (s.builder kind).isCompleted then (b.mapText kind (s.builder kind).parts, s, [])
    else if (s.builder kind).isActive then ("#wait", s, [])
    else
      let made := b.initializeMap kind
      let s := { s with builder := Function.update s.builder kind made.1 }
      if made.1.isCompleted then (b.mapText kind made.1.parts, s, made.2)
      else ("#wait", s, made.2)

def setDelayedValue (s : QueryState) (messageID : Int) (payload : String) (sourceId : GlobalId) :
    QueryState :=
  { s with results := s.results ++ [⟨messageID, sourceId, payload⟩] }

def localReply (m : QueryMessage) (payload : String) : QueryMessage where
  action := .queryReply
  sourceId := b.globalBrokerIdLocal
  destId := m.sourceId
  messageID := m.messageID
  payload := payload
  counter := m.counter

/-- An answer that has to wait is kept for one of the maps; any other is dropped. -/
def processLocalQuery (s : QueryState) (m : QueryMessage) : QueryState × Sent :=
  let a := b.generateQueryAnswer s m.payload
  let reply := b.localReply m a.1
  if a.1 = "#wait" then
    match MapKind.ofRequest m.payload with
    | some kind =>
      let waiting := a.2.1.requestors kind ++ [reply]
      ({ a.2.1 with requestors := Function.update a.2.1.requestors kind waiting }, a.2.2)
    | none => (a.2.1, a.2.2)
  else if reply.destId = b.globalBrokerIdLocal then
    (setDelayedValue a.2.1 m.messageID a.1 b.globalBrokerIdLocal, a.2.2)
  else (a.2.1, a.2.2 ++ b.routeMessageTo reply m.sourceId)

/-- The text of a list of names, each but the last followed by a semicolon. -/
def generateStringVector (names : List String) : String :=
  "[" ++ String.intercalate ";" names ++ "]"

def globalAnswer (values : List (String × String)) (name : String) : String :=
  match values.lookup name with
  | some value => value
  | none =>
    if name = "list" then generateStringVector (values.map Prod.fst)
    else if name = "all" then b.valuesText values
    else "#invalid"

/-- The answer to a query by name that is not computed by the broker's query function. -/
def answerDirectly (s : QueryState) (m : QueryMessage) (payload : String) : QueryState × Sent :=
  let reply : QueryMessage := {
    action := .queryReply
    destId := m.sourceId
    sourceId := b.globalBrokerIdLocal
    messageID := m.messageID
    payload := payload }
  if reply.destId = b.globalBrokerIdLocal then
    (setDelayedValue s m.messageID payload b.globalBrokerIdLocal, [])
  else (s, [(b.getRoute reply.destId, reply)])

/-- The route to a member called so, federates first, and the parent for unknown names. -/
def routeByName (name : String) : RouteId :=
  match b.federates.find? (fun fed => decide (fed.name = name)) with
  | some fed => fed.route
  | none =>
    match b.brokers.find? (fun brk => decide (brk.name = name)) with
    | some brk => brk.route
    | none => parentRouteId

def processQuery (s : QueryState) (m : QueryMessage) : QueryState × Sent :=
  if m.target = b.identifier ∨ m.target = "broker" then b.processLocalQuery s m
  else if b.isRootc ∧ (m.target = "root" ∨ m.target = "federation") then b.processLocalQuery s m
  else if m.target = "global" then
    b.answerDirectly s m (b.globalAnswer s.globalValues m.payload)
  else if b.routeByName m.target = parentRouteId ∧ b.isRootc then
    b.answerDirectly s m "#invalid"
  else (s, [(b.routeByName m.target, m)])

/-- The last missing component of a map lets the broker answer all who wait for it. -/
def answerRequestors (s : QueryState) (kind : MapKind) : QueryState × Sent :=
  let text := b.mapText kind (s.builder kind).parts
  let mine (r : QueryMessage) : Bool := decide (r.destId = b.globalBrokerIdLocal)
  ({ s with
      requestors := Function.update s.requestors kind []
      results := s.results ++ ((s.requestors kind).filter mine).map fun r =>
        ⟨r.messageID, b.globalBrokerIdLocal, text⟩ },
    ((s.requestors kind).filter (fun r => !mine r)).flatMap fun r =>
      b.routeMessage { r with payload := text })

def processQueryResponse (s : QueryState) (m : QueryMessage) : QueryState × Sent :=
  match MapKind.ofCounter m.counter with
  | none => (setDelayedValue s m.messageID m.payload m.sourceId, [])
  | some kind =>
    let added := (s.builder kind).addComponent m.payload m.messageID
    let s := { s with builder := Function.update s.builder kind added.2 }
    if added.1 then b.answerRequestors s kind else (s, [])

def setGlobalValue (values : List (String × String)) (name value : String) :
    List (String × String) :=
  values.filter (fun v => decide (v.1 ≠ name)) ++ [(name, value)]

def processPriorityCommand (s : QueryState) (m : QueryMessage) : QueryState × Sent :=
  match m.action with
  | .brokerQuery =>
    if m.destId = b.globalBrokerIdLocal then b.processLocalQuery s m
    else if b.isRootc ∧ m.destId = parentBrokerId then b.processLocalQuery s m
    else (s, b.routeMessage m)
  | .query => b.processQuery s m
  | .queryReply =>
    if m.destId = b.globalBrokerIdLocal then b.processQueryResponse s m
    else (s, [(b.getRoute m.destId, m)])
  | .setGlobal =>
    if b.isRootc then
      ({ s with globalValues := setGlobalValue s.globalValues m.payload m.target }, [])
    else (s, [(parentRouteId, m)])

/-- Where a call of `query` puts its message. -/
inductive QueryOutlet where
  | ownQueue
  | parent
deriving DecidableEq, Repr

/-- The message of a call of `query`, with a new number; a root has no parent to ask. -/
def query (s : QueryState) (target queryStr : String) :
    Option (QueryState × QueryOutlet × QueryMessage) :=
  let s := { s with queryCounter := s.queryCounter + 1 }
  let cmd : QueryMessage := {
    action := .brokerQuery
    sourceId := b.globalBrokerIdLocal
    messageID := s.queryCounter
    payload := queryStr }
  let toParent : QueryOutlet := if b.isRootc then .ownQueue else .parent
  if target = "broker" ∨ target = b.identifier then
    some (s, .ownQueue, { cmd with destId := b.globalBrokerIdLocal })
  else if target = "parent" then if b.isRootc then none else some (s, .ownQueue, cmd)
  else if target = "root" ∨ target = "rootbroker" then some (s, toParent, cmd)
  else some (s, toParent, { cmd with action := .query, target := target })

def setGlobal (valueName value : String) : QueryOutlet × QueryMessage :=
  (if b.isRootc then .ownQueue else .parent, {
    action := .setGlobal
    sourceId := b.globalBrokerIdLocal
    payload := valueName
    target := value })

end BrokerTables

/-- What a core answers to the queries that brokers pass on to it. -/
structure CoreAnswers where
  identifier : String
  globalBrokerIdLocal : GlobalId
  coreQuery : String → String
  federateQuery : String → String → String

/-- A core answers what is meant for itself or one of its federates; that it can be asked by its own
name is left out. -/
def CoreAnswers.processPriorityCommand (c : CoreAnswers) (m : QueryMessage) : Sent :=
  let reply : QueryMessage := {
    action := .queryReply
    destId := m.sourceId
    messageID := m.messageID
    counter := m.counter }
  match m.action with
  | .brokerQuery =>
    if m.destId = c.globalBrokerIdLocal then
      [(parentRouteId, { reply with
        sourceId := c.globalBrokerIdLocal, payload := c.coreQuery m.payload })]
    else [(parentRouteId, m)]
  | .query => [(parentRouteId, { reply with
      sourceId := m.destId, payload := c.federateQuery m.target m.payload })]
  | .queryReply => []
  | .setGlobal => []

end Helics
