import Helics.ActionMessage
import Helics.SortedTable

namespace Helics

inductive TimeState where
  | initialized
  | execRequestedIterative
  | execRequested
  | timeGranted
  | timeRequestedIterative
  | timeRequested
deriving DecidableEq, Repr

def TimeState.code : TimeState → Nat
  | .initialized => 0
  | .execRequestedIterative => 1
  | .execRequested => 2
  | .timeGranted => 3
  | .timeRequestedIterative => 4
  | .timeRequested => 5

structure DependencyInfo where
  fedID : GlobalId
  minFed : GlobalId := invalidGlobalId
  timeState : TimeState := .initialized
  Tnext : Time := .negEpsilon
  Te : Time := .zero
  Tdemin : Time := .zero
  forwardEvent : Time := .maxVal
deriving DecidableEq

namespace DependencyInfo

def onExecRequest (d : DependencyInfo) (m : ActionMessage) : DependencyInfo :=
  { d with timeState :=
      if checkActionFlag m.flags iterationRequestedFlag then .execRequestedIterative
      else .execRequested }

def onExecGrant (d : DependencyInfo) (m : ActionMessage) : DependencyInfo :=
  if checkActionFlag m.flags iterationRequestedFlag then { d with timeState := .initialized }
  else { d with timeState := .timeGranted, Tnext := .zero, Tdemin := .zero, Te := .zero }

def onTimeRequest (d : DependencyInfo) (m : ActionMessage) : DependencyInfo :=
  let te := if d.forwardEvent < m.Te then d.forwardEvent else m.Te
  { d with
    timeState := if checkActionFlag m.flags iterationRequestedFlag then .timeRequestedIterative
      else .timeRequested
    Tnext := m.actionTime
    Te := te
    Tdemin := if te < m.Tdemin then te else m.Tdemin
    forwardEvent := .maxVal
    minFed := m.sourceHandle }

def onTimeGrant (d : DependencyInfo) (m : ActionMessage) : DependencyInfo :=
  { d with
    timeState := .timeGranted
    Tnext := m.actionTime
    Te := m.actionTime
    Tdemin := m.actionTime
    minFed := m.sourceHandle }

def onDisconnect (d : DependencyInfo) : DependencyInfo :=
  { d with
    timeState := .timeGranted
    Tnext := .maxVal
    Te := .maxVal
    Tdemin := .maxVal
    minFed := invalidGlobalId }

/-- Lowering the scheduled event, with the dependent event kept at or below it. -/
def lowerEvent (d : DependencyInfo) (te : Time) : DependencyInfo :=
  { d with Te := te, Tdemin := if te < d.Tdemin then te else d.Tdemin }

def onSendMessage (d : DependencyInfo) (m : ActionMessage) : Bool × DependencyInfo :=
  if d.timeState = .timeGranted then
    (false, if m.actionTime < d.forwardEvent then { d with forwardEvent := m.actionTime } else d)
  else if d.Tnext ≤ m.actionTime then
    if m.actionTime < d.Te then (true, d.lowerEvent (max d.Tnext m.actionTime)) else (false, d)
  else if d.Tnext < d.Te then (true, d.lowerEvent d.Tnext) else (false, d)

def processMessage (d : DependencyInfo) (m : ActionMessage) : Bool × DependencyInfo :=
  match m.messageAction with
  | .cmdExecRequest => (true, d.onExecRequest m)
  | .cmdExecGrant => (true, d.onExecGrant m)
  | .cmdTimeRequest => (true, d.onTimeRequest m)
  | .cmdTimeGrant => (true, d.onTimeGrant m)
  | .cmdDisconnect | .cmdPriorityDisconnect | .cmdBroadcastDisconnect | .cmdDisconnectCore
  | .cmdDisconnectBroker | .cmdDisconnectFed => (true, d.onDisconnect)
  | .cmdSendMessage => d.onSendMessage m
  | _ => (false, d)

def resetIteratingTimeRequest (d : DependencyInfo) (requestTime : Time) : DependencyInfo :=
  if d.timeState = .timeRequestedIterative ∧ d.Tnext = requestTime then
    { d with timeState := .timeGranted, Te := requestTime, Tdemin := requestTime }
  else d

def resetDependentEvent (d : DependencyInfo) (grantTime : Time) : DependencyInfo :=
  { d with Te := max d.Tnext grantTime, Tdemin := max d.Tnext grantTime }

variable (d : DependencyInfo) (m : ActionMessage)

theorem onExecGrant_fedID : (d.onExecGrant m).fedID = d.fedID := by
  unfold onExecGrant
  split <;> rfl

theorem onSendMessage_fedID : (d.onSendMessage m).2.fedID = d.fedID := by
  unfold onSendMessage
  repeat' split
  all_goals rfl

theorem processMessage_fedID : (d.processMessage m).2.fedID = d.fedID := by
  unfold processMessage
  split
  case h_2 => exact d.onExecGrant_fedID m
  case h_11 => exact d.onSendMessage_fedID m
  all_goals rfl

theorem resetIteratingTimeRequest_fedID (requestTime : Time) :
    (d.resetIteratingTimeRequest requestTime).fedID = d.fedID := by
  unfold resetIteratingTimeRequest
  split <;> rfl

theorem resetDependentEvent_fedID (grantTime : Time) :
    (d.resetDependentEvent grantTime).fedID = d.fedID := rfl

end DependencyInfo

/-- The dependencies of a coordinator, in increasing order of identifier. -/
abbrev TimeDependencies := SortedTable.Table DependencyInfo GlobalId DependencyInfo.fedID

namespace TimeDependencies

def empty : TimeDependencies := ⟨[], List.Pairwise.nil⟩

def getDependencyInfo (t : TimeDependencies) (id : GlobalId) : Option DependencyInfo := t.find? id

def isDependency (t : TimeDependencies) (id : GlobalId) : Bool := (t.find? id).isSome

def addDependency (t : TimeDependencies) (id : GlobalId) : Bool × TimeDependencies :=
  if t.isDependency id then (false, t) else (true, t.insert { fedID := id })

def removeDependency (t : TimeDependencies) (id : GlobalId) : TimeDependencies := t.erase id

/-- A message sent to an endpoint is an event of its receiver, all others of their sender. -/
def dependencyOf (m : ActionMessage) : GlobalId :=
  if m.messageAction = .cmdSendMessage then m.destId else m.sourceId

def updateTime (t : TimeDependencies) (m : ActionMessage) : Bool × TimeDependencies :=
  match t.getDependencyInfo (dependencyOf m) with
  | none => (false, t)
  | some d => ((d.processMessage m).1, t.modify (dependencyOf m) (fun d => (d.processMessage m).2)
      (fun d => d.processMessage_fedID m))

def checkIfReadyForExecEntry (t : TimeDependencies) (iterating : Bool) : Bool :=
  if iterating then t.entries.all (fun d => decide (d.timeState ≠ .initialized))
  else t.entries.all (fun d => decide (TimeState.execRequested.code ≤ d.timeState.code))

/-- The iterating and the plain check of the source run the same two tests. -/
def checkIfReadyForTimeGrant (t : TimeDependencies) (_iterating : Bool) (desired : Time) : Bool :=
  t.entries.all (fun d => decide (desired ≤ d.Tnext) &&
    !(decide (d.Tnext = desired) && decide (d.timeState = .timeGranted)))

def resetIteratingExecRequests (t : TimeDependencies) : TimeDependencies :=
  t.map (fun d => if d.timeState = .execRequestedIterative then
    { d with timeState := .initialized } else d) (by intro d; split <;> rfl)

def resetIteratingTimeRequests (t : TimeDependencies) (requestTime : Time) : TimeDependencies :=
  t.map (·.resetIteratingTimeRequest requestTime) (·.resetIteratingTimeRequest_fedID requestTime)

def resetDependentEvents (t : TimeDependencies) (grantTime : Time) : TimeDependencies :=
  t.map (·.resetDependentEvent grantTime) (·.resetDependentEvent_fedID grantTime)

def hasActiveTimeDependencies (t : TimeDependencies) : Bool :=
  t.entries.any (fun d => isFederateId d.fedID && decide (d.Tnext < .maxVal))

variable (t : TimeDependencies) (m : ActionMessage)

theorem mem_updateTime (hb : b ∈ (t.updateTime m).2.entries) :
    (∃ a ∈ t.entries, a.fedID = dependencyOf m ∧ b = (a.processMessage m).2) ∨
      (b ∈ t.entries ∧ b.fedID ≠ dependencyOf m) := by
  unfold updateTime at hb
  split at hb
  · rename_i hn
    exact .inr ⟨hb, t.find?_eq_none.mp hn b hb⟩
  · exact (t.mem_modify _ (fun d => d.processMessage_fedID m)).mp hb

theorem keys_resetDependentEvents (grantTime : Time) :
    (t.resetDependentEvents grantTime).keys = t.keys := by
  unfold resetDependentEvents
  rw [t.keys_map]

theorem keys_updateTime : (t.updateTime m).2.keys = t.keys := by
  unfold updateTime
  split
  · rfl
  · exact t.keys_modify _ fun d => d.processMessage_fedID m

end TimeDependencies

/-- The dependents of a coordinator, in increasing order of identifier. -/
abbrev Dependents := SortedTable.Table GlobalId GlobalId id

namespace Dependents

def empty : Dependents := ⟨[], List.Pairwise.nil⟩

def addDependent (t : Dependents) (fedID : GlobalId) : Bool × Dependents :=
  if (t.find? fedID).isSome then (false, t) else (true, t.insert fedID)

def removeDependent (t : Dependents) (fedID : GlobalId) : Dependents := t.erase fedID

end Dependents

end Helics
