import Helics.FederateState
import Helics.Invariants
import Helics.Lookahead

namespace Helics

open Invariants

structure Federation where
  members : List GlobalId
  fed : GlobalId → FederateState
  chan : GlobalId → GlobalId → List ActionMessage := fun _ _ => []
  request : GlobalId → Option ActionMessage := fun _ => none

namespace Federation

inductive Event where
  | requestTime (i : GlobalId) (nextTime : Time)
  | startRequest (i : GlobalId) (nextValueTime nextMessageTime : Time)
  | timeCheck (i : GlobalId)
  | deliver (j i : GlobalId)
  | publish (i k : GlobalId) (handle target : InterfaceHandle)

def coord (s : Federation) (i : GlobalId) : TimeCoordinator := (s.fed i).timeCoord

def setFed (s : Federation) (i : GlobalId) (f : FederateState) : Federation :=
  { s with fed := fun k => if k = i then f else s.fed k }

def setRequest (s : Federation) (i : GlobalId) (r : Option ActionMessage) : Federation :=
  { s with request := fun k => if k = i then r else s.request k }

def send (s : Federation) (i : GlobalId) (out : List ActionMessage) : Federation :=
  { s with chan := fun j k =>
      if j = i then s.chan j k ++ out.filter (fun m => decide (m.destId = k)) else s.chan j k }

def consume (s : Federation) (j i : GlobalId) : Federation :=
  { s with chan := fun a b => if a = j ∧ b = i then (s.chan a b).tail else s.chan a b }

def returned (r : MessageProcessingResult × FederateState × List ActionMessage) : FederateState :=
  { r.2.1 with processing := r.2.1.processing && !returnableResult r.1 }

def complete (s : Federation) (i : GlobalId)
    (r : MessageProcessingResult × FederateState × List ActionMessage) : Federation :=
  (s.setFed i (returned r)).send i r.2.2

def publication (s : Federation) (i k : GlobalId) (handle target : InterfaceHandle) :
    ActionMessage where
  messageAction := .cmdPub
  sourceId := i
  sourceHandle := handle
  destId := k
  destHandle := target
  counter := UInt16.ofInt (s.coord i).iteration
  actionTime := (s.fed i).allowedSendTime

/-- One event of the federation; a grant that its receiver delays stays in its channel. -/
def step (s : Federation) : Event → Option Federation
  | .requestTime i nextTime =>
    if i ∈ s.members ∧ (s.fed i).state = .executing ∧ (s.fed i).processing = false then
      some ((s.setFed i { s.fed i with processing := true }).setRequest i
        (some ((s.fed i).timeRequestCommand nextTime .noIterations)))
    else none
  | .startRequest i nextValueTime nextMessageTime =>
    match s.request i with
    | some cmd =>
      if i ∈ s.members then
        some ((s.setRequest i none).complete i
          ((s.fed i).processActionMessage cmd nextValueTime nextMessageTime))
      else none
    | none => none
  | .timeCheck i =>
    if i ∈ s.members ∧ (s.fed i).processing ∧ (s.fed i).timeGrantedMode = false then
      some (s.complete i (s.fed i).timeCheck)
    else none
  | .deliver j i =>
    match s.chan j i with
    | [] => none
    | m :: _ =>
      if i ∈ s.members ∧ (s.fed i).processing ∧
          ((s.fed i).processActionMessage m .maxVal .maxVal).1 ≠ .delayMessage then
        some ((s.consume j i).complete i ((s.fed i).processActionMessage m .maxVal .maxVal))
      else none
  | .publish i k handle target =>
    if i ∈ s.members ∧ (s.fed i).state = .executing ∧ (s.fed i).processing = false ∧
        k ∈ (s.coord i).dependents.entries then
      some (s.send i [s.publication i k handle target])
    else none

end Federation

/-- The time that a coordinator may still assume its dependency to keep to. -/
def DependencyInfo.bound (d : DependencyInfo) : Time := max d.Tnext (min d.Te d.Tdemin)

/-- A coordinator hides an event when the dependent event time it would announce is later than
its own next possible time and than what its dependencies have announced to it. -/
def TimeCoordinator.hidesEvent (c : TimeCoordinator) : Bool :=
  !c.info.uninterruptible && decide (c.dependents.entries ≠ []) &&
    decide (max c.getNextPossibleTime c.updateTimeFactors.2.timeMinminDe <
      min c.updateTimeFactors.2.timeExec c.updateTimeFactors.2.timeMinDe)

namespace Federation

/-- The next possible grant of a requesting federate is representable, and a waiting federate
hides no event when it evaluates its times. -/
def Admissible (s : Federation) : Event → Prop
  | .requestTime i _ =>
    (s.coord i).timeGranted.ns + (s.coord i).info.timeDelta.ns ≤ Time.maxVal.ns
  | .timeCheck i => (s.coord i).hidesEvent = false
  | .deliver j i => (s.fed i).timeGrantedMode = false → ∀ m ∈ (s.chan j i).head?,
      ((s.coord i).processTimeMessage m).2.1.hidesEvent = false
  | _ => True

instance decidableAdmissible (s : Federation) : (e : Event) → Decidable (s.Admissible e)
  | .requestTime _ _ => inferInstanceAs (Decidable (_ ≤ _))
  | .startRequest _ _ _ => inferInstanceAs (Decidable True)
  | .timeCheck _ => inferInstanceAs (Decidable (_ = _))
  | .deliver j i => inferInstanceAs (Decidable ((s.fed i).timeGrantedMode = false →
      ∀ m ∈ (s.chan j i).head?, ((s.coord i).processTimeMessage m).2.1.hidesEvent = false))
  | .publish _ _ _ _ => inferInstanceAs (Decidable True)

/-- A step that refuses events that are not admissible. -/
def admissibleStep (s : Federation) (e : Event) : Option Federation :=
  if s.Admissible e then s.step e else none

structure Entered (i : GlobalId) (c : TimeCoordinator) : Prop where
  sourceId : c.sourceId = i
  executionMode : c.executionMode = true
  iterating : c.iterating = false
  period : c.info.period = .zero
  inputDelay : c.info.inputDelay = .zero
  outputDelay : c.info.outputDelay = .zero
  timeDelta : .zero < c.info.timeDelta
  timeGranted : c.timeGranted = .zero
  timeGrantBase : c.timeGrantBase = .zero
  timeNext : c.timeNext = .zero
  timeMinDe : c.timeMinDe = .zero
  timeExec : c.timeExec = .maxVal
  timeRequested : c.timeRequested = .maxVal
  timeBlock : c.timeBlock = .maxVal
  records : ∀ d ∈ c.dependencies.entries, d.bound ≤ .zero

/-- All federates have entered execution mode with tables that mirror each other, and at most
execution grants are under way. -/
structure Started (s : Federation) : Prop where
  ids : ∀ i ∈ s.members, isFederateId i
  globalId : ∀ i ∈ s.members, (s.fed i).globalId = i
  state : ∀ i ∈ s.members, (s.fed i).state = .executing
  idle : ∀ i ∈ s.members, (s.fed i).processing = false ∧ (s.fed i).timeGrantedMode = true
  sendTime : ∀ i ∈ s.members, (s.fed i).allowedSendTime = .zero
  coord : ∀ i ∈ s.members, Entered i (s.coord i)
  mirrored : ∀ i ∈ s.members, ∀ j,
    j ∈ (s.coord i).dependents.entries ↔ j ∈ s.members ∧ i ∈ (s.coord j).dependencies.keys
  request : ∀ i ∈ s.members, s.request i = none
  chan : ∀ j i, ∀ m ∈ s.chan j i, m.messageAction = .cmdExecGrant ∧ m.sourceId = j ∧ m.destId = i

abbrev Runs (s : Federation) (es : List Event) (t : Federation) : Prop :=
  Run (fun s e t => s.step e = some t) s es t

abbrev AdmissibleRuns (s : Federation) (es : List Event) (t : Federation) : Prop :=
  Run (fun s e t => s.step e = some t ∧ s.Admissible e) s es t

theorem admissibleRuns_of_execute
    (h : execute admissibleStep s es = some t) : AdmissibleRuns s es t := by
  refine (Run.of_execute h).mono fun s e t hs => ?_
  unfold admissibleStep at hs
  obtain ⟨ha, hs⟩ := Option.ite_none_right_eq_some.mp hs
  exact ⟨hs, ha⟩

end Federation

end Helics
