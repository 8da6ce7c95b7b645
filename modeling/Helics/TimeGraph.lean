import Helics.Bypass
import Helics.CoreCommands
import Helics.TimeCoordinator

namespace Helics

open TimeDependencies

def Effect.dependencyCommand : Effect → Option ActionMessage
  | .transmit _ cmd => if isDependencyCommand cmd.messageAction then some cmd else none
  | _ => none

def CoreEffect.dependencyCommand : CoreEffect → Option ActionMessage
  | .transmit _ cmd | .addAction _ cmd | .postTermination _ cmd =>
    if isDependencyCommand cmd.messageAction then some cmd else none
  | _ => none

namespace TimeDependencies

theorem mem_keys_addDependency (t : TimeDependencies) (fed : GlobalId) :
    k ∈ (t.addDependency fed).2.keys ↔ k = fed ∨ k ∈ t.keys := by
  unfold addDependency
  split
  · rename_i hknown
    refine ⟨.inr, ?_⟩
    rintro (rfl | hk)
    · obtain ⟨d, hd⟩ := Option.isSome_iff_exists.mp hknown
      obtain ⟨hmem, hkey⟩ := (t.find?_eq_some).mp hd
      exact List.mem_map.mpr ⟨d, hmem, hkey⟩
    · exact hk
  · exact t.mem_keys_insert _

theorem keys_empty : (empty).keys = [] := rfl

theorem mem_keys_removeDependency (t : TimeDependencies) (fed : GlobalId) :
    k ∈ (t.removeDependency fed).keys ↔ k ∈ t.keys ∧ k ≠ fed :=
  t.mem_keys_erase

end TimeDependencies

namespace Dependents

theorem mem_entries_addDependent (t : Dependents) (fed : GlobalId) :
    k ∈ (t.addDependent fed).2.entries ↔ k = fed ∨ k ∈ t.entries := by
  unfold addDependent
  split
  · rename_i hknown
    refine ⟨.inr, ?_⟩
    rintro (rfl | hk)
    · obtain ⟨d, hd⟩ := Option.isSome_iff_exists.mp hknown
      obtain ⟨hmem, hkey⟩ := (t.find?_eq_some).mp hd
      exact hkey ▸ hmem
    · exact hk
  · have h := t.mem_keys_insert fed (k := k)
    simpa only [SortedTable.Table.keys, List.map_id, id] using h

theorem mem_entries_removeDependent (t : Dependents) (fed : GlobalId) :
    k ∈ (t.removeDependent fed).entries ↔ k ∈ t.entries ∧ k ≠ fed :=
  t.mem_erase

end Dependents

inductive Coordinator where
  | federate (c : TimeCoordinator)
  | forwarding (c : ForwardingTimeCoordinator)

namespace Coordinator

def dependencies : Coordinator → TimeDependencies
  | .federate c => c.dependencies
  | .forwarding c => c.dependencies

def dependents : Coordinator → Dependents
  | .federate c => c.dependents
  | .forwarding c => c.dependents

def update (cmd : ActionMessage) : Coordinator → Coordinator
  | .federate c => .federate (c.processDependencyUpdateMessage cmd)
  | .forwarding c => .forwarding (c.processDependencyUpdateMessage cmd)

end Coordinator

def addsDependency : Action → Bool
  | .cmdAddDependency | .cmdAddInterdependency => true
  | _ => false

def removesDependency : Action → Bool
  | .cmdRemoveDependency | .cmdRemoveInterdependency => true
  | _ => false

theorem Coordinator.mem_dependencies_update (c : Coordinator) (cmd : ActionMessage) :
    k ∈ (c.update cmd).dependencies.keys ↔
      (addsDependency cmd.messageAction = true ∧ k = cmd.sourceId) ∨ (k ∈ c.dependencies.keys ∧
          ¬ (removesDependency cmd.messageAction = true ∧ k = cmd.sourceId)) := by
  cases c with
  | federate c =>
    simp only [update, dependencies, TimeCoordinator.processDependencyUpdateMessage]
    cases cmd.messageAction <;>
      simp [addsDependency, removesDependency, TimeCoordinator.addDependency,
        TimeCoordinator.addDependent, TimeCoordinator.removeDependency,
        TimeCoordinator.removeDependent, mem_keys_addDependency,
        mem_keys_removeDependency]
  | forwarding c =>
    simp only [update, dependencies, ForwardingTimeCoordinator.processDependencyUpdateMessage]
    cases cmd.messageAction <;>
      simp [addsDependency, removesDependency, ForwardingTimeCoordinator.addDependency,
        ForwardingTimeCoordinator.addDependent, ForwardingTimeCoordinator.removeDependency,
        ForwardingTimeCoordinator.removeDependent, mem_keys_addDependency,
        mem_keys_removeDependency]

def TimeGraph := GlobalId → Coordinator

namespace TimeGraph

def DependsOn (g : TimeGraph) (x y : GlobalId) : Prop := y ∈ (g x).dependencies.keys

def HasDependent (g : TimeGraph) (x y : GlobalId) : Prop := y ∈ (g x).dependents.entries

def Mirrored (g : TimeGraph) : Prop := ∀ x y, g.DependsOn x y ↔ g.HasDependent y x

def tell (g : TimeGraph) (cmd : ActionMessage) : TimeGraph :=
  fun x => if cmd.destId = x then (g x).update cmd else g x

def tellAll (g : TimeGraph) (cmds : List ActionMessage) : TimeGraph := cmds.foldl tell g

def replace (g : TimeGraph) (n : GlobalId) (c : ForwardingTimeCoordinator) : TimeGraph :=
  fun x => if x = n then .forwarding c else g x

variable (g : TimeGraph)

theorem dependsOn_tell (cmd : ActionMessage) : (g.tell cmd).DependsOn x y ↔
      (cmd.destId = x ∧ addsDependency cmd.messageAction = true ∧ y = cmd.sourceId) ∨
        (g.DependsOn x y ∧
          ¬ (cmd.destId = x ∧ removesDependency cmd.messageAction = true ∧ y = cmd.sourceId)) := by
  unfold DependsOn tell
  by_cases hdest : cmd.destId = x
  · simp [hdest, Coordinator.mem_dependencies_update]
  · simp [hdest]

theorem dependsOn_replace (n : GlobalId) (c : ForwardingTimeCoordinator) :
    (g.replace n c).DependsOn x y ↔ if x = n then y ∈ c.dependencies.keys else g.DependsOn x y := by
  unfold DependsOn replace
  split <;> rfl

theorem tellAll_append (cmds cmds' : List ActionMessage) :
    g.tellAll (cmds ++ cmds') = (g.tellAll cmds).tellAll cmds' := List.foldl_append

variable {g}

theorem tellAll_replace (h : ∀ cmd ∈ cmds, cmd.destId ≠ n)
    (c : ForwardingTimeCoordinator) :
    (g.replace n c).tellAll cmds = (g.tellAll cmds).replace n c := by
  induction cmds generalizing g with
  | nil => rfl
  | cons cmd cmds ih =>
    have hdest := h cmd List.mem_cons_self
    have hone : (g.replace n c).tell cmd = (g.tell cmd).replace n c := by
      funext x
      unfold tell replace
      by_cases hx : x = n
      · rw [if_pos hx, if_pos hx, if_neg (fun heq => hdest (heq.trans hx))]
      · rw [if_neg hx, if_neg hx]
    change ((g.replace n c).tell cmd).tellAll cmds = _
    rw [hone]
    exact ih (fun cmd' hcmd' => h cmd' (List.mem_cons_of_mem _ hcmd'))

theorem replace_replace (g : TimeGraph) (n : GlobalId) (c c' : ForwardingTimeCoordinator) :
    (g.replace n c).replace n c' = g.replace n c' := by
  funext x
  unfold replace
  split <;> rfl

def Other (n x : GlobalId) : Prop := x ≠ n ∧ x ≠ invalidGlobalId

/-- The place of a core or broker in the graph that its tables are a part of. -/
structure Around (g : TimeGraph) (n : GlobalId) (c : ForwardingTimeCoordinator) : Prop where
  own : g n = .forwarding c
  mirrored : g.Mirrored
  irreflexive : ¬ g.DependsOn n n
  to_valid : ∀ x, ¬ g.DependsOn x invalidGlobalId
  from_valid : ∀ y, ¬ g.DependsOn invalidGlobalId y

/-- The neighbours of a core or broker as the dependencies of the graph show them. -/
structure Sees (g : TimeGraph) (n : GlobalId) (c : ForwardingTimeCoordinator) : Prop where
  own : g n = .forwarding c
  depended : ∀ x, g.DependsOn x n ↔ x ∈ c.dependents.entries
  irreflexive : ¬ g.DependsOn n n
  to_valid : ∀ x, ¬ g.DependsOn x invalidGlobalId
  from_valid : ∀ y, ¬ g.DependsOn invalidGlobalId y

theorem Around.sees (h : g.Around n c) : g.Sees n c where
  own := h.own
  depended := by
    intro x
    rw [h.mirrored, HasDependent, h.own]
    rfl
  irreflexive := h.irreflexive
  to_valid := h.to_valid
  from_valid := h.from_valid

theorem Sees.dependsOn (h : g.Sees n c) : g.DependsOn n y ↔ y ∈ c.dependencies.keys := by
  rw [DependsOn, h.own]
  rfl

/-- A new edge replaces each connection through the removed member, and nothing else is added. -/
def Rejoins (n : GlobalId) (c : ForwardingTimeCoordinator) (joined : GlobalId → GlobalId → Prop) :
    Prop :=
  ∀ x y, Other n x → Other n y → x ≠ y →
    (joined x y ↔ x ∈ c.dependents.entries ∧ y ∈ c.dependencies.keys)

theorem Sees.balanced_iff (h : g.Sees n c) :
    Bypass.Balanced (Other n) n joined g.DependsOn ↔ Rejoins n c joined := by
  unfold Bypass.Balanced Rejoins
  simp only [h.dependsOn, h.depended]

def star (n : GlobalId) (c : ForwardingTimeCoordinator) : TimeGraph := fun x =>
  if x = n then .forwarding c
  else .forwarding {
    dependencies :=
      if x ∈ c.dependents.entries then (empty.addDependency n).2 else .empty
    dependents :=
      if x ∈ c.dependencies.keys then (Dependents.empty.addDependent n).2 else .empty }

theorem dependsOn_star : (star n c).DependsOn x y ↔
    (x = n ∧ y ∈ c.dependencies.keys) ∨ (x ≠ n ∧ y = n ∧ x ∈ c.dependents.entries) := by
  unfold DependsOn star
  by_cases hx : x = n
  · simp [hx, Coordinator.dependencies]
  by_cases hd : x ∈ c.dependents.entries
  · simp [hx, hd, Coordinator.dependencies, mem_keys_addDependency,
      keys_empty]
  · simp [hx, hd, Coordinator.dependencies, keys_empty]

theorem hasDependent_star : (star n c).HasDependent x y ↔
    (x = n ∧ y ∈ c.dependents.entries) ∨ (x ≠ n ∧ y = n ∧ x ∈ c.dependencies.keys) := by
  unfold HasDependent star
  by_cases hx : x = n
  · simp [hx, Coordinator.dependents]
  · by_cases hd : x ∈ c.dependencies.keys
    · simp [hx, hd, Coordinator.dependents, Dependents.mem_entries_addDependent, Dependents.empty]
    · simp [hx, hd, Coordinator.dependents, Dependents.empty]

/-- The tables of a core or broker never name itself or the invalid identifier. -/
structure ProperTables (n : GlobalId) (c : ForwardingTimeCoordinator) : Prop where
  valid : n ≠ invalidGlobalId
  no_own_dependency : n ∉ c.dependencies.keys
  no_own_dependent : n ∉ c.dependents.entries
  dependencies_valid : invalidGlobalId ∉ c.dependencies.keys
  dependents_valid : invalidGlobalId ∉ c.dependents.entries

theorem around_star (h : ProperTables n c) : (star n c).Around n c where
  own := if_pos rfl
  mirrored := by
    intro x y
    rw [dependsOn_star, hasDependent_star]
    by_cases hx : x = n
    · by_cases hy : y = n
      · simp [hx, hy, h.no_own_dependency, h.no_own_dependent]
      · simp [hx, hy]
    · by_cases hy : y = n
      · simp [hx, hy]
      · simp [hx, hy]
  irreflexive := by
    rw [dependsOn_star]
    simp [h.no_own_dependency]
  to_valid := by
    intro x
    rw [dependsOn_star]
    simp [h.dependencies_valid, h.valid.symm]
  from_valid := by
    intro y
    rw [dependsOn_star]
    simp [h.dependents_valid, h.valid.symm]

theorem star_isStar (n : GlobalId) (c : ForwardingTimeCoordinator) :
    Bypass.Star n (star n c).DependsOn where
  edge := by
    intro x y h
    rcases dependsOn_star.mp h with ⟨hx, _⟩ | ⟨_, hy, _⟩
    · exact .inl hx
    · exact .inr hy

end TimeGraph

end Helics
