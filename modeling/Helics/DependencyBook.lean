import Helics.SortedVector
import Helics.TimeCoordinator

namespace Helics

open SortedTable

/-- The vectors in which a coordinator keeps its dependencies and dependents, and the copies that
other threads read. -/
structure DependencyBook where
  dependencies : List DependencyInfo := []
  dependents : List GlobalId := []
  dependencyFederates : List GlobalId := []
  dependentFederates : List GlobalId := []

namespace DependencyBook

def getDependencyInfo (b : DependencyBook) (ofed : GlobalId) : Option DependencyInfo :=
  match lowerBound DependencyInfo.fedID ofed b.dependencies with
  | [] => none
  | d :: _ => if d.fedID = ofed then some d else none

def isDependency (b : DependencyBook) (ofed : GlobalId) : Bool :=
  match lowerBound DependencyInfo.fedID ofed b.dependencies with
  | [] => false
  | d :: _ => decide (d.fedID = ofed)

def addDependency (b : DependencyBook) (fedID : GlobalId) : Bool × DependencyBook :=
  let r := addEntry DependencyInfo.fedID { fedID := fedID } b.dependencies
  if r.1 then
    (true, { b with
      dependencies := r.2, dependencyFederates := b.dependencyFederates ++ [fedID] })
  else (false, b)

def addDependent (b : DependencyBook) (fedID : GlobalId) : Bool × DependencyBook :=
  let r := addEntry id fedID b.dependents
  if r.1 then
    (true, { b with dependents := r.2, dependentFederates := b.dependentFederates ++ [fedID] })
  else (false, b)

/-- The copy is searched whether or not the vector had the entry. -/
def removeDependency (b : DependencyBook) (fedID : GlobalId) : DependencyBook :=
  { b with
    dependencies := removeEntry DependencyInfo.fedID fedID b.dependencies
    dependencyFederates := b.dependencyFederates.erase fedID }

/-- The copy is only touched where the vector had the entry. -/
def removeDependent (b : DependencyBook) (fedID : GlobalId) : DependencyBook :=
  match lowerBound id fedID b.dependents with
  | [] => b
  | d :: _ =>
    if d = fedID then { b with
      dependents := removeEntry id fedID b.dependents
      dependentFederates := b.dependentFederates.erase fedID }
    else b

def processDependencyUpdateMessage (b : DependencyBook) (cmd : ActionMessage) : DependencyBook :=
  match cmd.messageAction with
  | .cmdAddDependency => (b.addDependency cmd.sourceId).2
  | .cmdRemoveDependency => b.removeDependency cmd.sourceId
  | .cmdAddDependent => (b.addDependent cmd.sourceId).2
  | .cmdRemoveDependent => b.removeDependent cmd.sourceId
  | .cmdAddInterdependency => ((b.addDependency cmd.sourceId).2.addDependent cmd.sourceId).2
  | .cmdRemoveInterdependency => (b.removeDependency cmd.sourceId).removeDependent cmd.sourceId
  | _ => b

def updateTime (b : DependencyBook) (cmd : ActionMessage) : DependencyBook :=
  { b with
    dependencies := modifyEntry DependencyInfo.fedID (TimeDependencies.dependencyOf cmd)
      (fun d => (d.processMessage cmd).2) b.dependencies }

/-- What a disconnect message does; a priority disconnect leaves the dependents alone. -/
def processDisconnect (b : DependencyBook) (cmd : ActionMessage) : DependencyBook :=
  match cmd.messageAction with
  | .cmdDisconnect | .cmdBroadcastDisconnect | .cmdDisconnectCore | .cmdDisconnectFed
  | .cmdDisconnectBroker => (b.removeDependent cmd.sourceId).updateTime cmd
  | .cmdPriorityDisconnect => b.updateTime cmd
  | _ => b

structure Keeps (b : DependencyBook) (c : TimeCoordinator) : Prop where
  dependencies : Kept b.dependencies b.dependencyFederates c.dependencies
  dependents : Kept b.dependents b.dependentFederates c.dependents

variable {b : DependencyBook} {c : TimeCoordinator}

section
variable (h : Keeps b c)
include h

section
variable (fed : GlobalId)
include fed

theorem Keeps.addDependency : Keeps (b.addDependency fed).2 (c.addDependency fed) ∧
      ((b.addDependency fed).1 = true ↔ fed ∉ c.dependencies.keys) := by
  unfold DependencyBook.addDependency TimeCoordinator.addDependency TimeDependencies.addDependency
    TimeDependencies.isDependency
  obtain ⟨hk, he, hkept⟩ | ⟨hk, he⟩ := h.dependencies.add { fedID := fed }
  · rw [he, if_neg fun hs => hk (c.dependencies.mem_keys.mpr hs)]
    exact ⟨⟨hkept, h.dependents⟩, iff_of_true rfl hk⟩
  · rw [he, if_pos (c.dependencies.mem_keys.mp hk)]
    exact ⟨h, iff_of_false Bool.false_ne_true (not_not.mpr hk)⟩

theorem Keeps.addDependent : Keeps (b.addDependent fed).2 (c.addDependent fed) ∧
      ((b.addDependent fed).1 = true ↔ fed ∉ c.dependents.keys) := by
  unfold DependencyBook.addDependent TimeCoordinator.addDependent Dependents.addDependent
  obtain ⟨hk, he, hkept⟩ | ⟨hk, he⟩ := h.dependents.add fed
  · rw [he, if_neg fun hs => hk ((c.dependents.mem_keys (k := fed)).mpr hs)]
    exact ⟨⟨h.dependencies, hkept⟩, iff_of_true rfl hk⟩
  · rw [he, if_pos ((c.dependents.mem_keys (k := fed)).mp hk)]
    exact ⟨h, iff_of_false Bool.false_ne_true (not_not.mpr hk)⟩

theorem Keeps.removeDependency : Keeps (b.removeDependency fed) (c.removeDependency fed) :=
  ⟨h.dependencies.remove fed, h.dependents⟩

/-- Where the vector has no entry, removing it from both would change nothing either. -/
theorem removeDependent_eq : b.removeDependent fed = { b with
    dependents := removeEntry id fed b.dependents
    dependentFederates := b.dependentFederates.erase fed } := by
  have hfind : c.dependents.find? fed = none → b = { b with
      dependents := removeEntry id fed b.dependents
      dependentFederates := b.dependentFederates.erase fed } := by
    intro hf
    have habs := c.dependents.find?_eq_none.mp hf
    have hcopy : fed ∉ b.dependentFederates := fun hm => by
      obtain ⟨a, ha, hk⟩ := List.mem_map.mp ((h.dependents.mem fed).mp hm)
      exact habs a ha hk
    have hrem : removeEntry id fed b.dependents = b.dependents := by
      rw [h.dependents.entries, c.dependents.removeEntry_entries]
      exact List.filter_eq_self.mpr fun a ha => decide_eq_true (habs a ha)
    rw [hrem, List.erase_of_not_mem hcopy]
  unfold removeDependent
  unfold Table.find? at hfind
  rw [h.dependents.entries] at hfind ⊢
  split
  · rename_i hlb
    exact hfind (by rw [hlb])
  · rename_i d r hlb
    split
    · rfl
    · rename_i hd
      exact hfind (by rw [hlb]; exact if_neg hd)

theorem Keeps.removeDependent : Keeps (b.removeDependent fed) (c.removeDependent fed) := by
  rw [removeDependent_eq h]
  exact ⟨h.dependencies, h.dependents.remove fed⟩

end

theorem Keeps.processDependencyUpdateMessage (cmd : ActionMessage) :
    Keeps (b.processDependencyUpdateMessage cmd) (c.processDependencyUpdateMessage cmd) := by
  unfold DependencyBook.processDependencyUpdateMessage
    TimeCoordinator.processDependencyUpdateMessage
  generalize cmd.messageAction = action
  cases action
  case cmdAddDependency => exact (h.addDependency _).1
  case cmdRemoveDependency => exact h.removeDependency _
  case cmdAddDependent => exact (h.addDependent _).1
  case cmdRemoveDependent => exact h.removeDependent _
  case cmdAddInterdependency => exact ((h.addDependency _).1.addDependent _).1
  case cmdRemoveInterdependency => exact (h.removeDependency _).removeDependent _
  all_goals exact h

theorem Keeps.updateTime (cmd : ActionMessage) : Keeps (b.updateTime cmd)
      { c with dependencies := (c.dependencies.updateTime cmd).2 } := by
  refine ⟨?_, h.dependents⟩
  have hm := h.dependencies.modify (TimeDependencies.dependencyOf cmd)
    (fun d => (d.processMessage cmd).2) (fun d => d.processMessage_fedID cmd)
  unfold TimeDependencies.updateTime TimeDependencies.getDependencyInfo
  split
  · rename_i hf
    have habs := c.dependencies.find?_eq_none.mp hf
    refine ⟨hm.entries.trans ?_, hm.nodup, h.dependencies.mem⟩
    exact (List.map_congr_left fun d hd => if_neg (habs d hd)).trans (List.map_id' _)
  · exact hm

def isDisconnect (action : Action) : Bool :=
  match action with
  | .cmdDisconnect | .cmdBroadcastDisconnect | .cmdDisconnectCore | .cmdDisconnectFed
  | .cmdDisconnectBroker | .cmdPriorityDisconnect => true
  | _ => false

theorem Keeps.processDisconnect (hd : isDisconnect cmd.messageAction = true) :
    Keeps (b.processDisconnect cmd) (c.processTimeMessage cmd).2.1 := by
  have hupdate : ∀ c : TimeCoordinator, (c.processDependencyTime cmd).2 =
      { c with dependencies := (c.dependencies.updateTime cmd).2 } := by
    intro c
    unfold TimeCoordinator.processDependencyTime
    rw [if_neg]
    · rfl
    · intro hdelay
      unfold TimeCoordinator.isDelayableMessage at hdelay
      obtain he | he : cmd.messageAction = .cmdTimeGrant ∨ cmd.messageAction = .cmdExecGrant := by
        simpa using (Bool.and_eq_true_iff.mp hdelay).1
      all_goals
        rw [he] at hd
        cases hd
  unfold isDisconnect at hd
  unfold DependencyBook.processDisconnect TimeCoordinator.processTimeMessage
  split at hd
  case h_6 hact =>
    rw [hact]
    exact hupdate c ▸ h.updateTime cmd
  case h_7 => cases hd
  all_goals
    rename_i hact
    rw [hact]
    exact hupdate (c.removeDependent cmd.sourceId) ▸ (h.removeDependent _).updateTime cmd

end

end DependencyBook

inductive BookOp where
  | addDependency (fedID : GlobalId)
  | removeDependency (fedID : GlobalId)
  | addDependent (fedID : GlobalId)
  | removeDependent (fedID : GlobalId)
  | update (cmd : ActionMessage)
  | disconnect (cmd : ActionMessage) (h : DependencyBook.isDisconnect cmd.messageAction = true)

namespace BookOp

def onBook (b : DependencyBook) : BookOp → DependencyBook
  | addDependency fedID => (b.addDependency fedID).2
  | removeDependency fedID => b.removeDependency fedID
  | addDependent fedID => (b.addDependent fedID).2
  | removeDependent fedID => b.removeDependent fedID
  | update cmd => b.processDependencyUpdateMessage cmd
  | disconnect cmd _ => b.processDisconnect cmd

def onCoordinator (c : TimeCoordinator) : BookOp → TimeCoordinator
  | addDependency fedID => c.addDependency fedID
  | removeDependency fedID => c.removeDependency fedID
  | addDependent fedID => c.addDependent fedID
  | removeDependent fedID => c.removeDependent fedID
  | update cmd => c.processDependencyUpdateMessage cmd
  | disconnect cmd _ => (c.processTimeMessage cmd).2.1

theorem keeps_step (op : BookOp) (h : DependencyBook.Keeps b c) :
    DependencyBook.Keeps (op.onBook b) (op.onCoordinator c) := by
  cases op with
  | addDependency fedID => exact (h.addDependency fedID).1
  | removeDependency fedID => exact h.removeDependency fedID
  | addDependent fedID => exact (h.addDependent fedID).1
  | removeDependent fedID => exact h.removeDependent fedID
  | update cmd => exact h.processDependencyUpdateMessage cmd
  | disconnect cmd hd => exact h.processDisconnect hd

theorem keeps_run (ops : List BookOp) (h : DependencyBook.Keeps b c) :
    DependencyBook.Keeps (ops.foldl onBook b) (ops.foldl onCoordinator c) := by
  induction ops generalizing b c with
  | nil => exact h
  | cons op ops ih => exact ih (keeps_step op h)

end BookOp

namespace DependencyBook

structure Consistent (b : DependencyBook) : Prop where
  dependencies : (b.dependencies.map DependencyInfo.fedID).Pairwise (· < ·)
  dependents : b.dependents.Pairwise (· < ·)
  dependencyFederates : b.dependencyFederates.Nodup ∧
    ∀ fed, fed ∈ b.dependencyFederates ↔ fed ∈ b.dependencies.map DependencyInfo.fedID
  dependentFederates : b.dependentFederates.Nodup ∧
    ∀ fed, fed ∈ b.dependentFederates ↔ fed ∈ b.dependents
  addDependency : ∀ fed, (b.addDependency fed).1 = true ↔
    fed ∉ b.dependencies.map DependencyInfo.fedID
  addDependent : ∀ fed, (b.addDependent fed).1 = true ↔ fed ∉ b.dependents
  getDependencyInfo : ∀ fed d, b.getDependencyInfo fed = some d ↔
    d ∈ b.dependencies ∧ d.fedID = fed
  isDependency : ∀ fed, b.isDependency fed = true ↔
    fed ∈ b.dependencies.map DependencyInfo.fedID

theorem isDependency_eq (b : DependencyBook) (fed : GlobalId) :
    b.isDependency fed = (b.getDependencyInfo fed).isSome := by
  unfold isDependency getDependencyInfo
  split
  · rfl
  · split <;> simp_all

theorem Keeps.consistent (h : Keeps b c) : Consistent b := by
  have hdeps : b.dependencies.map DependencyInfo.fedID = c.dependencies.keys :=
    congrArg (List.map _) h.dependencies.entries
  have hdpts : b.dependents = c.dependents.keys :=
    h.dependents.entries.trans (List.map_id _).symm
  have hget : ∀ fed, b.getDependencyInfo fed = c.dependencies.find? fed := by
    intro fed
    unfold DependencyBook.getDependencyInfo Table.find?
    rw [h.dependencies.entries]
    cases lowerBound _ fed c.dependencies.entries <;> rfl
  constructor
  case dependencies => exact List.pairwise_map.mpr (h.dependencies.entries ▸ c.dependencies.sorted)
  case dependents => exact h.dependents.entries ▸ c.dependents.sorted
  case dependencyFederates => exact ⟨h.dependencies.nodup, hdeps ▸ h.dependencies.mem⟩
  case dependentFederates => exact ⟨h.dependents.nodup, hdpts ▸ h.dependents.mem⟩
  case addDependency => exact fun fed => hdeps ▸ (h.addDependency fed).2
  case addDependent => exact fun fed => hdpts ▸ (h.addDependent fed).2
  case getDependencyInfo =>
    intro fed d
    rw [hget, c.dependencies.find?_eq_some, h.dependencies.entries]
  case isDependency =>
    intro fed
    rw [isDependency_eq, hget, hdeps, c.dependencies.mem_keys]

/-- The vectors, their copies and the lookups agree after every sequence of operations, and the
vectors are the tables of the coordinator. -/
theorem bookkeeping_consistent (c : TimeCoordinator) (ops : List BookOp) :
    let start := { c with dependencies := .empty, dependents := .empty }
    Consistent (ops.foldl BookOp.onBook {}) ∧
      Keeps (ops.foldl BookOp.onBook {}) (ops.foldl BookOp.onCoordinator start) := by
  have hstart : Keeps {} { c with dependencies := .empty, dependents := .empty } :=
    ⟨⟨rfl, List.nodup_nil, fun _ => Iff.rfl⟩, ⟨rfl, List.nodup_nil, fun _ => Iff.rfl⟩⟩
  have hrun := BookOp.keeps_run ops hstart
  exact ⟨hrun.consistent, hrun⟩

end DependencyBook

end Helics
