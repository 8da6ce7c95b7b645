import Helics.BrokerRemoval

namespace Helics

open TimeGraph CoreEffect CommonCore

open Bypass (TakenOut SameReach)

def noteTo (action : Action) (source dest : GlobalId) : ActionMessage :=
  { messageAction := action, sourceId := source, destId := dest }

namespace CommonCore

def removalCommands (n fed brk : GlobalId) (observer source : Bool) : List ActionMessage :=
  (removalMessages n fed brk observer source).map fun m => { m.1 with destId := m.2 }

/-- The commands of a core that reach an existing member; a missing neighbour is told nothing. -/
def toldBy (n fed brk : GlobalId) (observer source : Bool) : List ActionMessage :=
  (removalCommands n fed brk observer source).filter
    fun cmd => decide (cmd.destId ≠ invalidGlobalId)

theorem removalMessages_dests (hfed : fed ≠ own) (hbrk : brk ≠ own) :
    ∀ m ∈ removalMessages n fed brk observer source,
      isDependencyCommand m.1.messageAction = true ∧ m.2 ≠ own := by
  unfold removalMessages
  refine List.forall_mem_append.mpr ⟨by simp [isDependencyCommand, hfed, hbrk], ?_⟩
  split
  · simp [isDependencyCommand, hfed, hbrk]
  split
  · simp [isDependencyCommand, hfed, hbrk]
  · simp [isDependencyCommand, hfed, hbrk]

variable (feds : List LoopFederate) (t : ForwardingTimeCoordinator)

theorem removeDependencies_tables :
    (y ∈ (feds.foldl (fun t fed => t.removeDependency fed.globalId) t).dependencies.keys ↔
      y ∈ t.dependencies.keys ∧ y ∉ feds.map LoopFederate.globalId) ∧
    (feds.foldl (fun t fed => t.removeDependency fed.globalId) t).dependents = t.dependents := by
  induction feds generalizing t with
  | nil => simp
  | cons fed feds ih =>
    rw [List.foldl_cons, (ih _).1, (ih _).2, removeDependency_keys]
    simp only [List.map_cons, List.mem_cons]
    exact ⟨by grind, rfl⟩

theorem removeDependents_tables :
    (x ∈ (feds.foldl (fun t fed => t.removeDependent fed.globalId) t).dependents.entries ↔
      x ∈ t.dependents.entries ∧ x ∉ feds.map LoopFederate.globalId) ∧
    (feds.foldl (fun t fed => t.removeDependent fed.globalId) t).dependencies = t.dependencies := by
  induction feds generalizing t with
  | nil => simp
  | cons fed feds ih =>
    rw [List.foldl_cons, (ih _).1, (ih _).2]
    unfold ForwardingTimeCoordinator.removeDependent
    rw [Dependents.mem_entries_removeDependent]
    simp only [List.map_cons, List.mem_cons]
    exact ⟨by grind, trivial⟩

theorem getLast_ne {l : List GlobalId} (h : own ∉ l) (hvalid : own ≠ invalidGlobalId) :
    l.getLast?.getD invalidGlobalId ≠ own := by
  cases hl : l.getLast? with
  | none => exact hvalid.symm
  | some x =>
    rintro rfl
    exact h (List.mem_of_getLast? hl)

theorem getLast_mem {l : List GlobalId}
    (h : l.getLast?.getD invalidGlobalId ≠ invalidGlobalId) :
    l.getLast?.getD invalidGlobalId ∈ l := by
  cases hl : l.getLast? with
  | none =>
    rw [hl] at h
    exact absurd rfl h
  | some x => exact List.mem_of_getLast? hl

theorem eq_getLast {l : List GlobalId} (h : l.length ≤ 1) (hx : x ∈ l) :
    x = l.getLast?.getD invalidGlobalId := by
  match l, hx with
  | [y], hx => exact List.mem_singleton.mp hx
  | _ :: _ :: _, _ => exact absurd h (by simp)

end CommonCore

namespace TimeGraph

/-- The dependencies that the commands of a kind change, with the member they are sent to first. -/
def edges (kind : Action → Bool) (cmds : List ActionMessage) : List (GlobalId × GlobalId) :=
  (cmds.filter fun cmd => kind cmd.messageAction).map fun cmd => (cmd.destId, cmd.sourceId)

theorem mem_edges_cons : e ∈ edges kind (cmd :: cmds) ↔
    kind cmd.messageAction = true ∧ e = (cmd.destId, cmd.sourceId) ∨ e ∈ edges kind cmds := by
  unfold edges
  by_cases h : kind cmd.messageAction = true <;> simp [h]

/-- Commands that remove only dependencies on `n` and add only others may come in any order. -/
theorem dependsOn_tellAll (g : TimeGraph)
    (hremove : ∀ e ∈ edges removesDependency cmds, e.2 = n)
    (hadd : ∀ e ∈ edges addsDependency cmds, e.2 ≠ n) : (g.tellAll cmds).DependsOn x y ↔
      (g.DependsOn x y ∧ (x, y) ∉ edges removesDependency cmds) ∨
        (x, y) ∈ edges addsDependency cmds := by
  induction cmds generalizing g with
  | nil => simp [tellAll, edges]
  | cons cmd cmds ih =>
    simp only [mem_edges_cons] at hremove hadd
    change ((g.tell cmd).tellAll cmds).DependsOn x y ↔ _
    rw [ih _ (fun e he => hremove e (.inr he)) (fun e he => hadd e (.inr he)), dependsOn_tell,
      mem_edges_cons, mem_edges_cons]
    grind

theorem edges_append : edges kind (cmds ++ cmds') = edges kind cmds ++ edges kind cmds' := by
  simp [edges]

theorem edges_notes (kind : Action → Bool) (dests : List GlobalId) :
    edges kind (dests.map (noteTo action n)) =
      if kind action then dests.map fun dest => (dest, n) else [] := by
  unfold edges
  rw [List.filter_map, List.map_map]
  split <;> simp [Function.comp_def, noteTo, *]

theorem mem_edges_filter : (x, y) ∈ edges kind (cmds.filter fun cmd =>
    decide (cmd.destId ≠ invalidGlobalId)) ↔ x ≠ invalidGlobalId ∧ (x, y) ∈ edges kind cmds := by
  simp only [edges, List.mem_map, List.mem_filter, decide_eq_true_eq, Prod.mk.injEq]
  grind

/-- The edges by which a core joins its federate and its parent. -/
def joinedEdges (fed brk : GlobalId) (observer source : Bool) : List (GlobalId × GlobalId) :=
  if observer then [(fed, brk)]
  else if source then [(brk, fed)]
  else [(brk, fed), (fed, fed), (fed, brk)]

theorem edges_removalCommands (n fed brk : GlobalId) (observer source : Bool) :
    edges removesDependency (removalCommands n fed brk observer source) = [(brk, n), (fed, n)] ∧
      edges addsDependency (removalCommands n fed brk observer source) =
        joinedEdges fed brk observer source := by
  cases observer <;> cases source <;> exact ⟨rfl, rfl⟩

def CoreJoins (fed brk : GlobalId) (observer source : Bool) (x y : GlobalId) : Prop :=
  x ≠ invalidGlobalId ∧
    ((x = brk ∧ y = fed ∧ observer = false) ∨
      (x = fed ∧ y = brk ∧ (observer = true ∨ source = false)) ∨
      (x = fed ∧ y = fed ∧ observer = false ∧ source = false))

theorem mem_joinedEdges : x ≠ invalidGlobalId ∧ (x, y) ∈ joinedEdges fed brk observer source ↔
    CoreJoins fed brk observer source x y := by
  refine and_congr_right fun _ => ?_
  cases observer <;> cases source <;> simp [joinedEdges, or_comm]

theorem dependsOn_toldBy {g : TimeGraph} (hfrom : ∀ y, ¬ g.DependsOn invalidGlobalId y)
    (hfed : fed ≠ n) (hbrk : brk ≠ n) (observer source : Bool) (x y : GlobalId) :
    (g.tellAll (toldBy n fed brk observer source)).DependsOn x y ↔
      (g.DependsOn x y ∧ ¬ (y = n ∧ (x = brk ∨ x = fed))) ∨
        CoreJoins fed brk observer source x y := by
  obtain ⟨hremoved, hadded⟩ := edges_removalCommands n fed brk observer source
  have htold (kind : Action → Bool) {x y : GlobalId} :
      (x, y) ∈ edges kind (toldBy n fed brk observer source) ↔ x ≠ invalidGlobalId ∧
        (x, y) ∈ edges kind (removalCommands n fed brk observer source) := mem_edges_filter
  rw [dependsOn_tellAll (n := n) g, htold, htold, hremoved, hadded, mem_joinedEdges]
  · refine or_congr_left (and_congr_right fun h => not_congr ?_)
    have hx : x ≠ invalidGlobalId := by
      rintro rfl
      exact hfrom y h
    simp [hx, ← or_and_right, and_comm]
  · rintro ⟨x, y⟩ he
    rw [htold, hremoved, List.mem_pair, Prod.mk.injEq, Prod.mk.injEq] at he
    exact he.2.elim And.right And.right
  · rintro ⟨x, y⟩ he
    rw [htold, hadded, mem_joinedEdges] at he
    obtain ⟨-, ⟨-, rfl, -⟩ | ⟨-, rfl, -⟩ | ⟨-, rfl, -⟩⟩ := he
    · exact hfed
    · exact hbrk
    · exact hfed

theorem takenOut_core {g : TimeGraph} (h : g.Sees n c) (hfed : fed ≠ n) (hbrk : brk ≠ n)
    (hs : ∀ y ∈ c.dependencies.keys, y = fed ∨ y = brk)
    (hown : ∀ y, y ∈ c'.dependencies.keys ↔ y ∈ c.dependencies.keys ∧ y ≠ brk ∧ y ≠ fed) :
    TakenOut (Other n) n (CoreJoins fed brk observer source) g.DependsOn
        ((g.replace n c').tellAll (toldBy n fed brk observer source)).DependsOn ∧
      Bypass.Blocked (Other n) n
        ((g.replace n c').tellAll (toldBy n fed brk observer source)).DependsOn := by
  have hnone : ∀ y, y ∉ c'.dependencies.keys := by
    intro y hy
    obtain ⟨hy, hb, hf⟩ := (hown y).mp hy
    exact (hs y hy).elim hf hb
  have hfrom : ∀ y, ¬ (g.replace n c').DependsOn invalidGlobalId y := by
    intro y hy
    rw [dependsOn_replace] at hy
    split at hy
    · exact hnone y hy
    · exact h.from_valid y hy
  have hafter := dependsOn_toldBy hfrom hfed hbrk observer source
  have hout : ∀ y,
      ¬ ((g.replace n c').tellAll (toldBy n fed brk observer source)).DependsOn n y := by
    intro y hy
    rcases (hafter n y).mp hy with ⟨hy, _⟩ | ⟨_, ⟨heq, _⟩ | ⟨heq, _⟩ | ⟨heq, _⟩⟩
    · rw [dependsOn_replace, if_pos rfl] at hy
      exact hnone y hy
    · exact hbrk heq.symm
    · exact hfed heq.symm
    · exact hfed heq.symm
  constructor
  · apply takenOut_of h
    · intro x y hx hxy
      rcases (hafter x y).mp hxy with ⟨hold, _⟩ | hnew
      · rw [dependsOn_replace, if_neg hx] at hold
        exact .inl hold
      · exact .inr hnew
    · intro x y hx hy _ hxy
      rw [hafter]
      refine hxy.imp_left (fun hold => ⟨?_, fun hn => hy.1 hn.1⟩)
      rw [dependsOn_replace, if_neg hx.1]
      exact hold
    · intro y hy
      exact absurd hy (hout y)
    · rintro x y ⟨hx, ⟨_, rfl, _⟩ | ⟨_, rfl, _⟩ | ⟨_, rfl, _⟩⟩
      · exact ⟨hx, hfed⟩
      · exact ⟨hx, hbrk⟩
      · exact ⟨hx, hfed⟩
  · exact .inr (fun y _ => hout y)

end TimeGraph

section
variable [DualMapped String GlobalId]

namespace CommonCore

/-- The graph when observers and pure sources have kept only their one direction. -/
def beforeRemoval (c : CommonCore) (g : TimeGraph) : TimeGraph :=
  (g.replace c.globalBrokerIdLocal c.trimDependencies.1.timeCoord).tellAll
    (c.trimDependencies.2.filterMap dependencyCommand)

def afterRemoval (c : CommonCore) (g : TimeGraph) : TimeGraph :=
  (g.replace c.globalBrokerIdLocal c.checkDependencies.1.timeCoord).tellAll
    (c.checkDependencies.2.filterMap dependencyCommand)

structure InGraph (c : CommonCore) : Prop where
  tables : ProperTables c.globalBrokerIdLocal c.timeCoord
  federates : ∀ fed ∈ c.loopFederates.data, Other c.globalBrokerIdLocal fed.globalId

def RemovalPreserves (c : CommonCore) : Prop :=
  ∀ g : TimeGraph, g.Around c.globalBrokerIdLocal c.timeCoord →
    SameReach (Other c.globalBrokerIdLocal) (c.beforeRemoval g).DependsOn
      (c.afterRemoval g).DependsOn

variable (c : CommonCore)

theorem trim_commands : c.trimDependencies.2.filterMap dependencyCommand =
      (c.observers.map LoopFederate.globalId).map
        (noteTo .cmdRemoveDependent c.globalBrokerIdLocal) ++
      (c.pureSources.map LoopFederate.globalId).map
        (noteTo .cmdRemoveDependency c.globalBrokerIdLocal) := by
  unfold trimDependencies
  simp only [List.filterMap_append, List.filterMap_map, List.map_map]
  rw [← List.filterMap_eq_map, ← List.filterMap_eq_map]
  rfl

theorem trimmed_dependencies : y ∈ c.trimDependencies.1.timeCoord.dependencies.keys ↔
      y ∈ c.timeCoord.dependencies.keys ∧ y ∉ c.observers.map LoopFederate.globalId := by
  unfold trimDependencies
  rw [(removeDependents_tables (x := 0) _ _).2, (removeDependencies_tables _ _).1]

theorem trimmed_dependents : x ∈ c.trimDependencies.1.timeCoord.dependents.entries ↔
      x ∈ c.timeCoord.dependents.entries ∧ x ∉ c.pureSources.map LoopFederate.globalId := by
  unfold trimDependencies
  rw [(removeDependents_tables _ _).1, (removeDependencies_tables (y := 0) _ _).2]

theorem dependsOn_beforeRemoval (g : TimeGraph) : (c.beforeRemoval g).DependsOn x y ↔
      (if x = c.globalBrokerIdLocal then y ∈ c.trimDependencies.1.timeCoord.dependencies.keys
        else g.DependsOn x y) ∧
      ¬ (x ∈ c.pureSources.map LoopFederate.globalId ∧ y = c.globalBrokerIdLocal) := by
  have hremoved : edges removesDependency (c.trimDependencies.2.filterMap dependencyCommand) =
      (c.pureSources.map LoopFederate.globalId).map fun dest => (dest, c.globalBrokerIdLocal) := by
    rw [trim_commands, edges_append, edges_notes, edges_notes]
    rfl
  have hadded : edges addsDependency (c.trimDependencies.2.filterMap dependencyCommand) = [] := by
    rw [trim_commands, edges_append, edges_notes, edges_notes]
    rfl
  rw [beforeRemoval, dependsOn_tellAll (n := c.globalBrokerIdLocal), hremoved, hadded,
    dependsOn_replace]
  · simp only [List.mem_map (l := c.pureSources.map _), Prod.mk.injEq, List.not_mem_nil, or_false,
      eq_comm (a := y), ← and_assoc, exists_and_right, exists_eq_right]
  · rw [hremoved]
    simp
  · rw [hadded]
    exact List.forall_mem_nil _

theorem other_of_mem {c : CommonCore} (hc : c.InGraph)
    (hsub : feds ⊆ c.loopFederates.data) (hx : x ∈ feds.map LoopFederate.globalId) :
    Other c.globalBrokerIdLocal x := by
  obtain ⟨fed, hfed, rfl⟩ := List.mem_map.mp hx
  exact hc.federates fed (hsub hfed)

theorem observers_subset : c.observers ⊆ c.loopFederates.data :=
  List.filter_subset_self _

variable {c}

theorem trim_dests (hc : c.InGraph) : ∀ cmd ∈ c.trimDependencies.2.filterMap dependencyCommand,
      cmd.destId ≠ c.globalBrokerIdLocal := by
  intro cmd hcmd
  rw [trim_commands] at hcmd
  rcases List.mem_append.mp hcmd with hcmd | hcmd
  · obtain ⟨x, hx, rfl⟩ := List.mem_map.mp hcmd
    exact (other_of_mem hc c.observers_subset hx).1
  · obtain ⟨x, hx, rfl⟩ := List.mem_map.mp hcmd
    exact (other_of_mem hc (List.filter_subset_self _) hx).1

theorem sees_beforeRemoval (hc : c.InGraph)
    (h : g.Around c.globalBrokerIdLocal c.timeCoord) :
    (c.beforeRemoval g).Sees c.globalBrokerIdLocal c.trimDependencies.1.timeCoord where
  own := by
    rw [beforeRemoval, tellAll_replace (trim_dests hc)]
    exact if_pos rfl
  depended := by
    intro x
    rw [dependsOn_beforeRemoval, trimmed_dependencies, trimmed_dependents, ← h.sees.depended]
    by_cases hx : x = c.globalBrokerIdLocal
    · subst hx
      simp [hc.tables.no_own_dependency, h.irreflexive]
    · simp [hx]
  irreflexive := by
    rw [dependsOn_beforeRemoval, if_pos rfl, trimmed_dependencies]
    exact fun hn => hc.tables.no_own_dependency hn.1.1
  to_valid := by
    intro x hx
    rw [dependsOn_beforeRemoval, trimmed_dependencies] at hx
    by_cases hn : x = c.globalBrokerIdLocal
    · rw [if_pos hn] at hx
      exact hc.tables.dependencies_valid hx.1.1
    · rw [if_neg hn] at hx
      exact h.to_valid x hx.1
  from_valid := by
    intro y hy
    rw [dependsOn_beforeRemoval, if_neg hc.tables.valid.symm] at hy
    exact h.from_valid y hy.1

theorem routeAllTo_commands
    (h : ∀ m ∈ msgs, isDependencyCommand m.1.messageAction = true ∧ m.2 ≠ c.globalBrokerIdLocal) :
    (c.routeAllTo msgs).1 = c ∧ (c.routeAllTo msgs).2.filterMap dependencyCommand =
      (msgs.map (fun m => { m.1 with destId := m.2 })).filter
        (fun cmd => decide (cmd.destId ≠ invalidGlobalId)) := by
  induction msgs with
  | nil => exact ⟨rfl, rfl⟩
  | cons m msgs ih =>
    obtain ⟨cmd, dest⟩ := m
    obtain ⟨hcmd, hdest⟩ := h _ List.mem_cons_self
    obtain ⟨hcore, hcmds⟩ := ih (fun m hm => h m (List.mem_cons_of_mem _ hm))
    by_cases hvalid : dest = invalidGlobalId
    · have hfirst : c.routeMessageTo cmd dest = (c, []) := if_pos hvalid
      simp only [routeAllTo, hfirst, List.nil_append, hcore, hcmds, List.map_cons]
      refine ⟨trivial, ?_⟩
      rw [List.filter_cons, if_neg (by simp [hvalid])]
    obtain ⟨e, he, hsent⟩ := c.route_dependency { cmd with destId := dest } true hcmd hdest
    have hfirst : c.routeMessageTo cmd dest = (c, [e]) := by
      rw [routeMessageTo, if_neg hvalid, he]
    simp only [routeAllTo, hfirst, hcore, hcmds, List.map_cons, List.filterMap_append,
      List.filterMap_cons, hsent, List.filterMap_nil]
    refine ⟨trivial, ?_⟩
    rw [List.filter_cons, if_pos (by simp [hvalid])]
    rfl

theorem bypassCore_spec (hfed : fed ≠ c.globalBrokerIdLocal)
    (hbrk : brk ≠ c.globalBrokerIdLocal) (observer source : Bool) :
    (c.bypassCore fed brk observer source).1.timeCoord =
        (((c.timeCoord.removeDependency brk).removeDependency fed).removeDependent brk
          ).removeDependent fed ∧
      (c.bypassCore fed brk observer source).2.filterMap dependencyCommand =
        toldBy c.globalBrokerIdLocal fed brk observer source := by
  have hbypass : c.bypassCore fed brk observer source = routeAllTo { c with
      timeCoord := (((c.timeCoord.removeDependency brk).removeDependency fed).removeDependent brk
        ).removeDependent fed
      hasTimeDependency := false }
      (removalMessages c.globalBrokerIdLocal fed brk observer source) := rfl
  rw [hbypass]
  obtain ⟨hcore, hcmds⟩ := routeAllTo_commands (c := { c with
      timeCoord := (((c.timeCoord.removeDependency brk).removeDependency fed).removeDependent brk
        ).removeDependent fed
      hasTimeDependency := false })
    (removalMessages_dests hfed hbrk)
  rw [hcore, hcmds]
  exact ⟨rfl, rfl⟩

/-- The last dependents of the core after trimming: a local one and another one. -/
def joinedFed (c : CommonCore) : GlobalId := c.trimDependencies.1.localDependents.1

def joinedBroker (c : CommonCore) : GlobalId := c.trimDependencies.1.localDependents.2.1

def TakesOut (c : CommonCore) : Prop :=
  ¬ (c.trimDependencies.1.hasFilters = true ∨
      2 < c.trimDependencies.1.timeCoord.dependents.entries.length ∨
      2 < c.trimDependencies.1.timeCoord.dependencies.keys.length ∨
      1 < c.trimDependencies.1.localDependents.2.2) ∧
    ¬ (c.trimDependencies.1.localDependents.2.2 = 0 ∧ c.joinedBroker = invalidGlobalId) ∧
    ∀ dep ∈ c.trimDependencies.1.timeCoord.dependencies.keys,
      dep = c.joinedFed ∨ dep = c.joinedBroker

theorem checkDependencies_of_takesOut (h : c.TakesOut) : c.checkDependencies =
      ((c.trimDependencies.1.bypassCore c.joinedFed c.joinedBroker c.hasObserver c.hasPureSource).1,
        c.trimDependencies.2 ++ (c.trimDependencies.1.bypassCore c.joinedFed c.joinedBroker
          c.hasObserver c.hasPureSource).2) := by
  have hstay := h.2.1
  unfold joinedBroker at hstay
  unfold checkDependencies
  dsimp only
  rw [if_neg h.1, if_neg hstay, if_pos]
  · rfl
  · rw [List.all_eq_true]
    intro dep hdep
    exact decide_eq_true (h.2.2 dep hdep)

theorem checkDependencies_of_stays (h : ¬ c.TakesOut) :
    c.checkDependencies.1.timeCoord = c.trimDependencies.1.timeCoord ∧
      c.checkDependencies.2 = c.trimDependencies.2 := by
  unfold checkDependencies
  dsimp only
  split
  · exact ⟨rfl, rfl⟩
  split
  · exact ⟨rfl, rfl⟩
  split
  · rename_i hfirst hsecond hall
    refine absurd ⟨hfirst, hsecond, ?_⟩ h
    intro dep hdep
    exact of_decide_eq_true (List.all_eq_true.mp hall dep hdep)
  · exact ⟨rfl, rfl⟩

theorem takenOut_of_takesOut (hc : c.InGraph) (h : c.TakesOut)
    (hg : g.Around c.globalBrokerIdLocal c.timeCoord) :
    TakenOut (Other c.globalBrokerIdLocal) c.globalBrokerIdLocal
        (CoreJoins c.joinedFed c.joinedBroker c.hasObserver c.hasPureSource)
        (c.beforeRemoval g).DependsOn (c.afterRemoval g).DependsOn ∧
      Bypass.Blocked (Other c.globalBrokerIdLocal) c.globalBrokerIdLocal
        (c.afterRemoval g).DependsOn := by
  have hown : c.globalBrokerIdLocal ∉ c.trimDependencies.1.timeCoord.dependents.entries := by
    rw [trimmed_dependents]
    exact fun hn => hc.tables.no_own_dependent hn.1
  have hfed : c.joinedFed ≠ c.globalBrokerIdLocal :=
    getLast_ne (fun hn => hown (List.mem_filter.mp hn).1) hc.tables.valid
  have hbrk : c.joinedBroker ≠ c.globalBrokerIdLocal :=
    getLast_ne (fun hn => hown (List.mem_filter.mp hn).1) hc.tables.valid
  obtain ⟨hcoord, hcmds⟩ := bypassCore_spec (c := c.trimDependencies.1) hfed hbrk c.hasObserver
    c.hasPureSource
  have hafter : c.afterRemoval g = ((c.beforeRemoval g).replace c.globalBrokerIdLocal
      c.checkDependencies.1.timeCoord).tellAll (toldBy c.globalBrokerIdLocal c.joinedFed
        c.joinedBroker c.hasObserver c.hasPureSource) := by
    have hsent : c.checkDependencies.2.filterMap dependencyCommand =
        c.trimDependencies.2.filterMap dependencyCommand ++
          toldBy c.globalBrokerIdLocal c.joinedFed c.joinedBroker c.hasObserver
            c.hasPureSource := by
      rw [checkDependencies_of_takesOut h, List.filterMap_append, hcmds]
      rfl
    rw [afterRemoval, hsent, tellAll_append, tellAll_replace (trim_dests hc),
      beforeRemoval, tellAll_replace (trim_dests hc), replace_replace]
  rw [hafter]
  apply takenOut_core (sees_beforeRemoval hc hg) hfed hbrk h.2.2
  intro y
  rw [checkDependencies_of_takesOut h, hcoord]
  change y ∈ ((c.trimDependencies.1.timeCoord.removeDependency c.joinedBroker).removeDependency
    c.joinedFed).dependencies.keys ↔ _
  rw [removeDependency_keys, removeDependency_keys, and_assoc]

/-- A core preserves reachability when it takes itself out exactly if the edges it adds are the
connections through it. -/
theorem removalPreserves_iff (hc : c.InGraph) :
    c.RemovalPreserves ↔ (c.TakesOut → Rejoins c.globalBrokerIdLocal c.trimDependencies.1.timeCoord
      (CoreJoins c.joinedFed c.joinedBroker c.hasObserver c.hasPureSource)) := by
  constructor
  · intro hpres hout
    have hstar := around_star hc.tables
    obtain ⟨htaken, hblock⟩ := takenOut_of_takesOut hc hout hstar
    have hbefore := sees_beforeRemoval hc hstar
    have hhub : Bypass.Star c.globalBrokerIdLocal
        (c.beforeRemoval (star c.globalBrokerIdLocal c.timeCoord)).DependsOn := by
      constructor
      intro x y hxy
      rw [dependsOn_beforeRemoval] at hxy
      by_cases hx : x = c.globalBrokerIdLocal
      · exact .inl hx
      · rw [if_neg hx] at hxy
        exact (star_isStar _ _).edge x y hxy.1
    rw [← hbefore.balanced_iff]
    apply htaken.balanced hhub hblock _ (hpres _ hstar)
    · exact c.joinedBroker
    · exact c.joinedFed
    · rintro v w hvw ⟨_, ⟨hv, hw, _⟩ | ⟨hv, hw, _⟩ | ⟨hv, hw, _⟩⟩
      · exact .inl ⟨hv, hw⟩
      · exact .inr ⟨hv, hw⟩
      · exact absurd (hv.trans hw.symm) hvw
  · intro hjoin g hg
    by_cases hout : c.TakesOut
    · apply (takenOut_of_takesOut hc hout hg).1.sameReach
      exact (sees_beforeRemoval hc hg).balanced_iff.mpr (hjoin hout)
    obtain ⟨hcoord, hcmds⟩ := checkDependencies_of_stays hout
    have hsame : c.afterRemoval g = c.beforeRemoval g := by
      rw [afterRemoval, beforeRemoval, hcoord, hcmds]
    rw [hsame]
    exact sameReach_self _

/-- The trimmed tables of the core fit the edges that it adds: a federate and a parent that are both
its dependents are also its dependencies, apart from the direction that an observer or a pure source
lacks; without a local dependent nobody but the parent depends on the parent through it. -/
structure Bridges (c : CommonCore) : Prop where
  both : c.joinedFed ≠ invalidGlobalId → c.joinedBroker ≠ invalidGlobalId →
    (c.joinedFed ∈ c.trimDependencies.1.timeCoord.dependencies.keys ↔ c.hasObserver = false) ∧
    (c.joinedBroker ∈ c.trimDependencies.1.timeCoord.dependencies.keys ↔
      c.hasObserver = true ∨ c.hasPureSource = false)
  alone : c.joinedFed = invalidGlobalId →
    c.joinedBroker ∈ c.trimDependencies.1.timeCoord.dependencies.keys →
    ∀ x ∈ c.trimDependencies.1.timeCoord.dependents.entries, x = c.joinedBroker

theorem joinedFed_mem (h : c.joinedFed ≠ invalidGlobalId) :
    c.joinedFed ∈ c.trimDependencies.1.timeCoord.dependents.entries ∧
      c.trimDependencies.1.isLocal c.joinedFed = true :=
  List.mem_filter.mp (getLast_mem h)

theorem joinedBroker_mem (h : c.joinedBroker ≠ invalidGlobalId) :
    c.joinedBroker ∈ c.trimDependencies.1.timeCoord.dependents.entries ∧
      (!c.trimDependencies.1.isLocal c.joinedBroker) = true :=
  List.mem_filter.mp (getLast_mem h)

theorem TakesOut.dependents (h : c.TakesOut) (hfed : c.joinedFed ≠ invalidGlobalId)
    (hx : x ∈ c.trimDependencies.1.timeCoord.dependents.entries) :
    x = c.joinedFed ∨ x = c.joinedBroker := by
  obtain ⟨hfew, -, -⟩ := h
  push Not at hfew
  obtain ⟨-, htwo, -, hone⟩ := hfew
  have hsplit := List.length_eq_length_filter_add
    (l := c.trimDependencies.1.timeCoord.dependents.entries) c.trimDependencies.1.isLocal
  have hpos := List.length_pos_of_mem (getLast_mem hfed)
  change List.length (List.filter _ _) ≤ 1 at hone
  by_cases hl : c.trimDependencies.1.isLocal x = true
  · exact .inl (eq_getLast hone (List.mem_filter.mpr ⟨hx, hl⟩))
  · exact .inr (eq_getLast (by omega) (List.mem_filter.mpr ⟨hx, by simpa using hl⟩))

theorem rejoins_iff (hc : c.InGraph) (h : c.TakesOut) :
    Rejoins c.globalBrokerIdLocal c.trimDependencies.1.timeCoord
      (CoreJoins c.joinedFed c.joinedBroker c.hasObserver c.hasPureSource) ↔ c.Bridges := by
  have hother {x : GlobalId} (hx : x ∈ c.trimDependencies.1.timeCoord.dependents.entries) :
      Other c.globalBrokerIdLocal x := by
    have hx := (c.trimmed_dependents.mp hx).1
    exact ⟨fun heq => hc.tables.no_own_dependent (heq ▸ hx),
      fun heq => hc.tables.dependents_valid (heq ▸ hx)⟩
  constructor
  · refine fun hj => ⟨fun hf hb => ?_, fun hf hb x hx => ?_⟩
    · obtain ⟨hfed, hlocal⟩ := joinedFed_mem hf
      obtain ⟨hbrk, hremote⟩ := joinedBroker_mem hb
      have hne : c.joinedBroker ≠ c.joinedFed := by
        intro heq
        rw [heq, hlocal] at hremote
        cases hremote
      have hdown := hj _ _ (hother hbrk) (hother hfed) hne
      have hup := hj _ _ (hother hfed) (hother hbrk) hne.symm
      simp only [CoreJoins, hb, hf, hne, hne.symm, hfed, hbrk, ne_eq, not_false_eq_true, true_and,
        false_and, or_false, false_or] at hdown hup
      exact ⟨hdown.symm, hup.symm⟩
    · by_contra hne
      have hvalid : Other c.globalBrokerIdLocal c.joinedBroker := by
        have hb := (c.trimmed_dependencies.mp hb).1
        exact ⟨fun heq => hc.tables.no_own_dependency (heq ▸ hb),
          fun heq => hc.tables.dependencies_valid (heq ▸ hb)⟩
      obtain ⟨-, ⟨hx', -⟩ | ⟨hx', -⟩ | ⟨hx', -⟩⟩ := (hj x _ (hother hx) hvalid hne).mpr ⟨hx, hb⟩
      · exact hne hx'
      · exact (hother hx).2 (hx'.trans hf)
      · exact (hother hx).2 (hx'.trans hf)
  · intro hb x y hx hy hne
    constructor
    · rintro ⟨-, ⟨rfl, rfl, hone⟩ | ⟨rfl, rfl, hone⟩ | ⟨rfl, rfl, -⟩⟩
      · exact ⟨(joinedBroker_mem hx.2).1, (hb.both hy.2 hx.2).1.mpr hone⟩
      · exact ⟨(joinedFed_mem hx.2).1, (hb.both hx.2 hy.2).2.mpr hone⟩
      · exact absurd rfl hne
    · rintro ⟨hxd, hys⟩
      by_cases hf : c.joinedFed = invalidGlobalId
      · obtain rfl := (h.2.2 y hys).resolve_left fun heq => hy.2 (heq.trans hf)
        exact absurd (hb.alone hf hys x hxd) hne
      refine ⟨hx.2, ?_⟩
      rcases h.dependents hf hxd with rfl | rfl <;> rcases h.2.2 y hys with rfl | rfl
      · exact absurd rfl hne
      · exact .inr (.inl ⟨rfl, rfl, (hb.both hf hy.2).2.mp hys⟩)
      · exact .inl ⟨rfl, rfl, (hb.both hf hx.2).1.mp hys⟩
      · exact absurd rfl hne

end CommonCore

/-- When a core or broker that takes itself out of the time graph preserves the transitive
dependencies between the other members. -/
theorem self_removal_iff (b : CoreBroker) (c : CommonCore) : (b.InGraph → (b.RemovalPreserves ↔
      b.isRootc = true ∨ ∀ fed, b.TakesOut fed → b.higherBrokerId ∈ b.timeCoord.dependents.entries ∧
          ∀ y, y ∈ b.timeCoord.dependencies.keys ↔ y = b.higherBrokerId ∨ y = fed)) ∧
    (c.InGraph → (c.RemovalPreserves ↔ (c.TakesOut → c.Bridges))) :=
  ⟨CoreBroker.removalPreserves_iff, fun hc => (removalPreserves_iff hc).trans
    (forall_congr' fun hout => rejoins_iff hc hout)⟩

end

attribute [local instance] DualMapped.listVectors

/-- A broker between its parent and one federate, with a further dependency or without. -/
def brokerBetween (further : List GlobalId) : CoreBroker where
  globalBrokerIdLocal := globalBrokerIdShift + 1
  higherBrokerId := globalBrokerIdShift
  timeCoord := {
    dependencies := further.foldl (fun deps fed => (deps.addDependency fed).2)
      ((TimeDependencies.empty.addDependency globalBrokerIdShift).2.addDependency
        globalFederateIdShift).2
    dependents := ((Dependents.empty.addDependent globalBrokerIdShift).2.addDependent
      globalFederateIdShift).2 }

theorem brokerBetween_inGraph : (brokerBetween []).InGraph where
  tables := ⟨by decide, by decide, by decide, by decide, by decide⟩
  parent := ⟨by decide, by decide⟩
  requests := by simp [brokerBetween]

/-- A core between its parent and one federate. -/
def coreBetween : CommonCore where
  globalBrokerIdLocal := globalBrokerIdShift + 1
  higherBrokerId := globalBrokerIdShift
  loopFederates := DualMapped.Vector.empty.add "fed" (some globalFederateIdShift)
    { name := "fed", globalId := globalFederateIdShift }
  timeCoord := (brokerBetween []).timeCoord

theorem coreBetween_inGraph : coreBetween.InGraph where
  tables := brokerBetween_inGraph.tables
  federates := by
    unfold Other
    decide +kernel

theorem self_removal_between :
    ((brokerBetween []).TakesOut globalFederateIdShift ∧ (brokerBetween []).RemovalPreserves) ∧
      coreBetween.TakesOut ∧ coreBetween.RemovalPreserves := by
  obtain ⟨hbroker, hcore⟩ := self_removal_iff (brokerBetween []) coreBetween
  rw [hbroker brokerBetween_inGraph, hcore coreBetween_inGraph]
  have hout : coreBetween.TakesOut := by
    unfold CommonCore.TakesOut
    decide +kernel
  refine ⟨⟨by decide +kernel, .inr ?_⟩, hout, fun _ => ⟨fun _ _ => by decide +kernel, ?_⟩⟩
  · rintro fed ⟨_, hfed⟩
    have heq : fed = globalFederateIdShift := by
      have hone : [globalFederateIdShift] = [fed] := Eq.trans (by decide +kernel) hfed
      exact (List.singleton_inj.mp hone).symm
    subst heq
    refine ⟨by decide +kernel, fun y => ?_⟩
    have hkeys : (brokerBetween []).timeCoord.dependencies.keys =
        [globalFederateIdShift, globalBrokerIdShift] := by decide +kernel
    rw [hkeys, List.mem_pair, or_comm]
    rfl
  · intro hnone
    exact absurd hnone (by decide +kernel)

/-- The connection of the federate to the further dependency of the broker is lost. -/
theorem further_dependency_lost : (brokerBetween [globalFederateIdShift + 1]).InGraph ∧
      ¬ (brokerBetween [globalFederateIdShift + 1]).RemovalPreserves := by
  have hin : (brokerBetween [globalFederateIdShift + 1]).InGraph := {
    tables := ⟨by decide, by decide +kernel, by decide +kernel, by decide +kernel,
      by decide +kernel⟩
    parent := ⟨by decide, by decide⟩
    requests := by simp [brokerBetween] }
  refine ⟨hin, fun hpres => ?_⟩
  rcases (CoreBroker.removalPreserves_iff hin).mp hpres with hroot | hjoin
  · exact absurd hroot (by decide)
  have hkeys := (hjoin globalFederateIdShift (by decide +kernel)).2 (globalFederateIdShift + 1)
  rcases hkeys.mp (by decide +kernel) with heq | heq
  · exact absurd heq (by decide)
  · exact absurd heq (by decide)

end Helics
