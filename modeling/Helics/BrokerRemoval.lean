import Helics.DependencyRequests

namespace Helics

open TimeGraph Effect

open Bypass (TakenOut SameReach)

namespace TimeGraph

theorem sees_dependencyPair {g : TimeGraph} (h : g.Sees n c) (hfed : Other n fed)
    (hknown : Other n known) : (g.tellAll (dependencyPair known fed)).Sees n c := by
  have hdep : ∀ x y, (g.tellAll (dependencyPair known fed)).DependsOn x y ↔
      (x = known ∧ y = fed) ∨ g.DependsOn x y := by
    intro x y
    simp only [tellAll, dependencyPair, List.foldl_cons, List.foldl_nil, dependsOn_tell,
      addsDependency, removesDependency]
    grind
  refine ⟨?_, ?_, ?_, ?_, ?_⟩
  · simp [tellAll, dependencyPair, tell, hfed.1, hknown.1, h.own]
  · intro x
    rw [hdep, h.depended]
    exact or_iff_right fun heq => hfed.1 heq.2.symm
  · rw [hdep]
    rintro (⟨heq, _⟩ | hn)
    · exact hknown.1 heq.symm
    · exact h.irreflexive hn
  · intro x
    rw [hdep]
    rintro (⟨_, heq⟩ | hx)
    · exact hfed.2 heq.symm
    · exact h.to_valid x hx
  · intro y
    rw [hdep]
    rintro (⟨heq, _⟩ | hy)
    · exact hknown.2 heq.symm
    · exact h.from_valid y hy

end TimeGraph

section
variable [DualMapped String GlobalId]

namespace CoreBroker

/-- The commands for requests by name, which the root serves before it looks at its own tables. -/
def servedRequests (b : CoreBroker) : List ActionMessage :=
  if b.isRootc then
    (b.delayedDependencies.flatMap b.delayedDependencyMessages).filterMap dependencyCommand
  else []

/-- The graph of the federation without the changes by which a broker takes itself out. -/
def beforeRemoval (b : CoreBroker) (g : TimeGraph) : TimeGraph := g.tellAll b.servedRequests

def afterRemoval (b : CoreBroker) (g : TimeGraph) : TimeGraph :=
  (g.replace b.globalBrokerIdLocal b.checkDependencies.1.timeCoord).tellAll
    (b.checkDependencies.2.filterMap dependencyCommand)

structure InGraph (b : CoreBroker) : Prop where
  tables : ProperTables b.globalBrokerIdLocal b.timeCoord
  parent : Other b.globalBrokerIdLocal b.higherBrokerId
  requests : ∀ dep ∈ b.delayedDependencies, Other b.globalBrokerIdLocal dep.2 ∧
    ∀ fed, b.federates.findName dep.1 = some fed → Other b.globalBrokerIdLocal fed.globalId

def RemovalPreserves (b : CoreBroker) : Prop :=
  ∀ g : TimeGraph, g.Around b.globalBrokerIdLocal b.timeCoord →
    SameReach (Other b.globalBrokerIdLocal) (b.beforeRemoval g).DependsOn
      (b.afterRemoval g).DependsOn

theorem dependencyCommand_routeMessageTo (b : CoreBroker)
    (h : isDependencyCommand cmd.messageAction = true) (hdest : dest ≠ invalidGlobalId) :
    (b.routeMessageTo cmd dest).filterMap dependencyCommand = [{ cmd with destId := dest }] := by
  rw [routeMessageTo, if_neg hdest]
  simp [dependencyCommand, h]

end CoreBroker

namespace TimeGraph

end TimeGraph

namespace CoreBroker

variable {b : CoreBroker} {g : TimeGraph}

theorem sees_served {deps : List (String × GlobalId)} (hreq : ∀ dep ∈ deps, Other n dep.2 ∧
      ∀ fed, b.federates.findName dep.1 = some fed → Other n fed.globalId) (h : g.Sees n c) :
    (g.tellAll ((deps.flatMap b.delayedDependencyMessages).filterMap dependencyCommand) ).Sees n c ∧
      ∀ cmd ∈ (deps.flatMap b.delayedDependencyMessages).filterMap dependencyCommand,
        cmd.destId ≠ n := by
  induction deps generalizing g with
  | nil => exact ⟨h, List.forall_mem_nil _⟩
  | cons dep deps ih =>
    rw [List.flatMap_cons, List.filterMap_append, tellAll_append,
      dependencyCommand_delayed]
    obtain ⟨hdep, hfound⟩ := hreq dep List.mem_cons_self
    have hrest := fun dep' hdep' => hreq dep' (List.mem_cons_of_mem _ hdep')
    cases hf : b.federates.findName dep.1 with
    | none => exact ih hrest h
    | some fed =>
      have hfed := hfound fed hf
      obtain ⟨hg, hcmds⟩ := ih hrest (sees_dependencyPair h hdep hfed)
      refine ⟨hg, ?_⟩
      intro cmd hcmd
      rcases List.mem_append.mp hcmd with hcmd | hcmd
      · rcases List.mem_cons.mp hcmd with rfl | hcmd
        · exact hfed.1
        · rw [List.mem_singleton.mp hcmd]
          exact hdep.1
      · exact hcmds cmd hcmd

theorem sees_beforeRemoval (hb : b.InGraph) (h : g.Around b.globalBrokerIdLocal b.timeCoord) :
    (b.beforeRemoval g).Sees b.globalBrokerIdLocal b.timeCoord ∧
      ∀ cmd ∈ b.servedRequests, cmd.destId ≠ b.globalBrokerIdLocal := by
  unfold beforeRemoval servedRequests
  split
  · exact sees_served hb.requests h.sees
  · exact ⟨h.sees, List.forall_mem_nil _⟩

def rootRemoval (n dependent dependency : GlobalId) : List ActionMessage :=
  if dependency ≠ dependent then
    [{ messageAction := .cmdAddDependent, sourceId := dependent, destId := dependency },
      { messageAction := .cmdRemoveDependent, sourceId := n, destId := dependency },
      { messageAction := .cmdAddDependency, sourceId := dependency, destId := dependent },
      { messageAction := .cmdRemoveDependency, sourceId := n, destId := dependent }]
  else [{ messageAction := .cmdRemoveInterdependency, sourceId := n, destId := dependent }]

theorem bypassRoot_commands (hd : dependent ≠ invalidGlobalId) (hs : dependency ≠ invalidGlobalId) :
    (b.bypassRoot dependent dependency).2.filterMap dependencyCommand =
      rootRemoval b.globalBrokerIdLocal dependent dependency := by
  unfold bypassRoot rootRemoval
  split
  · simp only [List.filterMap_append]
    rw [dependencyCommand_routeMessageTo b rfl hs, dependencyCommand_routeMessageTo b rfl hs,
      dependencyCommand_routeMessageTo b rfl hd, dependencyCommand_routeMessageTo b rfl hd]
    rfl
  · rw [dependencyCommand_routeMessageTo b rfl hd]

def innerRemoval (n higher fed : GlobalId) : List ActionMessage :=
  [{ messageAction := .cmdRemoveInterdependency, sourceId := n, destId := higher },
    { messageAction := .cmdRemoveInterdependency, sourceId := n, destId := fed },
    { messageAction := .cmdAddInterdependency, sourceId := fed, destId := higher },
    { messageAction := .cmdAddInterdependency, sourceId := higher, destId := fed }]

theorem bypassBroker_commands (hh : b.higherBrokerId ≠ invalidGlobalId)
    (hf : fed ≠ invalidGlobalId) : (b.bypassBroker fed).2.filterMap dependencyCommand =
      innerRemoval b.globalBrokerIdLocal b.higherBrokerId fed := by
  unfold bypassBroker innerRemoval
  simp only [List.filterMap_append]
  rw [dependencyCommand_routeMessageTo b rfl hh, dependencyCommand_routeMessageTo b rfl hf,
    dependencyCommand_routeMessageTo b rfl hh, dependencyCommand_routeMessageTo b rfl hf]
  rfl

end CoreBroker

end

namespace TimeGraph

theorem removeDependency_keys (c : ForwardingTimeCoordinator) (fed : GlobalId) :
    y ∈ (c.removeDependency fed).dependencies.keys ↔ y ∈ c.dependencies.keys ∧ y ≠ fed :=
  TimeDependencies.mem_keys_removeDependency _ _

variable {g : TimeGraph}

theorem takenOut_of (h : g.Sees n c)
    (hsub : ∀ x y, x ≠ n → after x y → g.DependsOn x y ∨ joined x y)
    (hsup : ∀ x y, Other n x → Other n y → x ≠ y → g.DependsOn x y ∨ joined x y → after x y)
    (hout : ∀ y, after n y → g.DependsOn n y)
    (hjoined : ∀ x y, joined x y → x ≠ invalidGlobalId ∧ y ≠ n) :
    TakenOut (Other n) n joined g.DependsOn after where
  outside := fun hn => hn.1 rfl
  edge := by
    intro x y hx hy hne
    exact ⟨hsub x y hx.1, hsup x y hx hy hne⟩
  into := by
    intro x hx hafter
    cases hsub x n hx.1 hafter with
    | inl hold => exact hold
    | inr hnew => exact absurd rfl (hjoined x n hnew).2
  out := fun y _ => hout y
  target_before := by
    intro x y hxy
    by_cases hy : y = n
    · exact .inr hy
    · refine .inl ⟨hy, ?_⟩
      rintro rfl
      exact h.to_valid x hxy
  source_after := by
    intro x y hxy
    by_cases hx : x = n
    · exact .inr hx
    refine .inl ⟨hx, ?_⟩
    rintro rfl
    cases hsub _ y hx hxy with
    | inl hold => exact h.from_valid y hold
    | inr hnew => exact (hjoined _ y hnew).1 rfl

theorem takenOut_root (h : g.Sees n c) (hd : c.dependents.entries = [dependent])
    (hs : c.dependencies.keys = [dependency]) :
    TakenOut (Other n) n (fun x y => x = dependent ∧ y = dependency) g.DependsOn
      ((g.replace n ((c.removeDependency dependency).removeDependent dependent)).tellAll
        (CoreBroker.rootRemoval n dependent dependency)).DependsOn := by
  have hdn : ∀ x, g.DependsOn x n ↔ x = dependent := by
    intro x
    rw [h.depended, hd, List.mem_singleton]
  have hns : ∀ y, g.DependsOn n y ↔ y = dependency := by
    intro y
    rw [h.dependsOn, hs, List.mem_singleton]
  have hvalid := h.from_valid
  have hvalid' := h.to_valid
  have hirr := h.irreflexive
  have hown : ∀ y,
      y ∉ ((c.removeDependency dependency).removeDependent dependent).dependencies.keys := by
    intro y hy
    rw [show ((c.removeDependency dependency).removeDependent dependent).dependencies =
      (c.removeDependency dependency).dependencies from rfl, removeDependency_keys, hs] at hy
    exact hy.2 (List.mem_singleton.mp hy.1)
  have hafter : ∀ x y, ((g.replace n ((c.removeDependency dependency).removeDependent dependent)
      ).tellAll (CoreBroker.rootRemoval n dependent dependency)).DependsOn x y ↔
      x ≠ n ∧ y ≠ n ∧ (g.DependsOn x y ∨ (x = dependent ∧ y = dependency ∧ x ≠ y)) := by
    intro x y
    unfold CoreBroker.rootRemoval
    split
    · simp only [tellAll, List.foldl_cons, List.foldl_nil, dependsOn_tell, addsDependency,
        removesDependency, dependsOn_replace]
      grind
    · simp only [tellAll, List.foldl_cons, List.foldl_nil, dependsOn_tell, addsDependency,
        removesDependency, dependsOn_replace]
      grind
  apply takenOut_of h
  · intro x y _ hxy
    obtain ⟨_, _, hold | ⟨hx, hy, _⟩⟩ := (hafter x y).mp hxy
    · exact .inl hold
    · exact .inr ⟨hx, hy⟩
  · intro x y hx hy hne hxy
    rw [hafter]
    refine ⟨hx.1, hy.1, ?_⟩
    cases hxy with
    | inl hold => exact .inl hold
    | inr hnew => exact .inr ⟨hnew.1, hnew.2, hne⟩
  · intro y hy
    exact absurd rfl ((hafter n y).mp hy).1
  · rintro x y ⟨rfl, rfl⟩
    constructor
    · rintro rfl
      exact h.from_valid n ((hdn _).mpr rfl)
    · rintro rfl
      exact h.irreflexive ((hns _).mpr rfl)

theorem rejoins_root (hd : c.dependents.entries = [dependent])
    (hs : c.dependencies.keys = [dependency]) :
    Rejoins n c (fun x y => x = dependent ∧ y = dependency) := by
  intro x y _ _ _
  rw [hd, hs, List.mem_singleton, List.mem_singleton]

def Joins (p q x y : GlobalId) : Prop := (x = p ∧ y = q) ∨ (x = q ∧ y = p)

theorem takenOut_inner (h : g.Sees n c) (hhigher : Other n higher)
    (hfed : Other n fed) (hd : ∀ x ∈ c.dependents.entries, x = higher ∨ x = fed)
    (hown : ∀ y, y ∈ c'.dependencies.keys → y ∈ c.dependencies.keys) :
    TakenOut (Other n) n (Joins higher fed) g.DependsOn
        ((g.replace n c').tellAll (CoreBroker.innerRemoval n higher fed)).DependsOn ∧
      Bypass.Blocked (Other n) n
        ((g.replace n c').tellAll (CoreBroker.innerRemoval n higher fed)).DependsOn := by
  have hdn : ∀ x, g.DependsOn x n → x = higher ∨ x = fed := by
    intro x hx
    exact hd x ((h.depended x).mp hx)
  have hafter : ∀ x y, x ≠ n →
      (((g.replace n c').tellAll (CoreBroker.innerRemoval n higher fed)).DependsOn x y ↔
        (g.DependsOn x y ∧ y ≠ n) ∨ Joins higher fed x y) := by
    intro x y hx
    have hhn := hhigher.1
    have hfn := hfed.1
    unfold CoreBroker.innerRemoval Joins
    simp only [tellAll, List.foldl_cons, List.foldl_nil, dependsOn_tell, addsDependency,
      removesDependency, dependsOn_replace, if_neg hx]
    grind
  constructor
  · apply takenOut_of h
    · intro x y hx hxy
      exact ((hafter x y hx).mp hxy).imp_left And.left
    · intro x y hx hy _ hxy
      exact (hafter x y hx.1).mpr (hxy.imp_left (fun hold => ⟨hold, hy.1⟩))
    · intro y hy
      rw [h.dependsOn]
      apply hown
      have hhn := hhigher.1
      have hfn := hfed.1
      unfold CoreBroker.innerRemoval at hy
      simp only [tellAll, List.foldl_cons, List.foldl_nil, dependsOn_tell, addsDependency,
        removesDependency, dependsOn_replace] at hy
      grind
    · rintro x y (⟨rfl, rfl⟩ | ⟨rfl, rfl⟩)
      · exact ⟨hhigher.2, hfed.1⟩
      · exact ⟨hfed.2, hhigher.1⟩
  · left
    intro x hx hxn
    rcases (hafter x n hx.1).mp hxn with ⟨_, hne⟩ | ⟨_, heq⟩ | ⟨_, heq⟩
    · exact hne rfl
    · exact hfed.1 heq.symm
    · exact hhigher.1 heq.symm

theorem Sees.replace_self (h : g.Sees n c) : g.replace n c = g := by
  funext x
  unfold replace
  split
  · rename_i hx
    rw [hx, h.own]
  · rfl

theorem sameReach_self (r : GlobalId → GlobalId → Prop) : SameReach (Other n) r r :=
  fun _ _ _ _ _ => Iff.rfl

end TimeGraph

section
variable [DualMapped String GlobalId]

namespace CoreBroker

variable {b : CoreBroker} {g : TimeGraph}

theorem afterRemoval_eq (hb : b.InGraph) (h : g.Around b.globalBrokerIdLocal b.timeCoord)
    (hcmds : b.checkDependencies.2.filterMap dependencyCommand = b.servedRequests ++ cmds) :
    b.afterRemoval g = ((b.beforeRemoval g).replace b.globalBrokerIdLocal
      b.checkDependencies.1.timeCoord).tellAll cmds := by
  rw [afterRemoval, hcmds, tellAll_append,
    tellAll_replace (sees_beforeRemoval hb h).2]
  rfl

theorem sameReach_of_stays (hb : b.InGraph) (h : g.Around b.globalBrokerIdLocal b.timeCoord)
    (hcoord : b.checkDependencies.1.timeCoord = b.timeCoord)
    (hcmds : b.checkDependencies.2.filterMap dependencyCommand = b.servedRequests) :
    SameReach (Other b.globalBrokerIdLocal) (b.beforeRemoval g).DependsOn
      (b.afterRemoval g).DependsOn := by
  have hnone : b.checkDependencies.2.filterMap dependencyCommand = b.servedRequests ++ [] := by
    rw [hcmds, List.append_nil]
  have hsame : b.afterRemoval g = b.beforeRemoval g := by
    rw [afterRemoval_eq hb h hnone, hcoord]
    exact (sees_beforeRemoval hb h).1.replace_self
  rw [hsame]
  exact sameReach_self _

theorem root_removalPreserves (hb : b.InGraph) (hroot : b.isRootc = true) : b.RemovalPreserves := by
  intro g h
  have hserved : b.servedRequests = (b.delayedDependencies.flatMap
      b.delayedDependencyMessages).filterMap dependencyCommand := if_pos hroot
  by_cases hone : ∃ dependent dependency, b.timeCoord.dependents.entries = [dependent] ∧
      b.timeCoord.dependencies.keys = [dependency]
  · obtain ⟨dependent, dependency, hd, hs⟩ := hone
    have hcheck : b.checkDependencies = ((b.bypassRoot dependent dependency).1,
        b.delayedDependencies.flatMap b.delayedDependencyMessages ++
          (b.bypassRoot dependent dependency).2) := by
      rw [checkDependencies, if_pos hroot, hd, hs]
    have hdvalid : dependent ≠ invalidGlobalId := by
      rintro rfl
      exact hb.tables.dependents_valid (hd ▸ List.mem_cons_self)
    have hsvalid : dependency ≠ invalidGlobalId := by
      rintro rfl
      exact hb.tables.dependencies_valid (hs ▸ List.mem_cons_self)
    have hcmds : b.checkDependencies.2.filterMap dependencyCommand =
        b.servedRequests ++ rootRemoval b.globalBrokerIdLocal dependent dependency := by
      rw [hcheck, List.filterMap_append, bypassRoot_commands hdvalid hsvalid, hserved]
    have hcoord : b.checkDependencies.1.timeCoord =
        (b.timeCoord.removeDependency dependency).removeDependent dependent := by
      rw [hcheck]
      unfold bypassRoot
      split
      · rfl
      · rename_i heq
        rw [not_not.mp heq]
    have hbefore := (sees_beforeRemoval hb h).1
    rw [afterRemoval_eq hb h hcmds, hcoord]
    apply (takenOut_root hbefore hd hs).sameReach
    exact hbefore.balanced_iff.mpr (rejoins_root hd hs)
  · have hcheck : b.checkDependencies =
        (b, b.delayedDependencies.flatMap b.delayedDependencyMessages) := by
      rw [checkDependencies, if_pos hroot]
      split
      · rename_i dependent dependency hd hs
        exact absurd ⟨dependent, dependency, hd, hs⟩ hone
      · rfl
    apply sameReach_of_stays hb h
    · rw [hcheck]
    · rw [hcheck, hserved]

/-- The broker below the root takes itself out and joins the given object to its parent. -/
def TakesOut (b : CoreBroker) (fed : GlobalId) : Prop :=
  b.timeCoord.dependents.entries.length ≤ 2 ∧
    b.timeCoord.dependents.entries.filter (fun dep => decide (dep ≠ b.higherBrokerId)) = [fed]

instance (b : CoreBroker) (fed : GlobalId) : Decidable (b.TakesOut fed) :=
  inferInstanceAs (Decidable (_ ∧ _))

theorem checkDependencies_of_takesOut (hroot : b.isRootc = false)
    (h : b.TakesOut fed) : b.checkDependencies = b.bypassBroker fed := by
  rw [checkDependencies, hroot, if_neg Bool.false_ne_true, if_neg (not_lt.mpr h.1), h.2]

theorem checkDependencies_of_stays (hroot : b.isRootc = false)
    (h : ∀ fed, ¬ b.TakesOut fed) : b.checkDependencies = (b, []) := by
  rw [checkDependencies, hroot, if_neg Bool.false_ne_true]
  split
  · rfl
  rename_i hlen
  split
  · rename_i fed hfilter
    exact absurd ⟨not_lt.mp hlen, hfilter⟩ (h fed)
  · rfl

section
variable (hb : b.InGraph)
include hb

theorem dependents_of_takesOut (h : b.TakesOut fed) :
    fed ∈ b.timeCoord.dependents.entries ∧ fed ≠ b.higherBrokerId ∧
      Other b.globalBrokerIdLocal fed ∧
      ∀ x ∈ b.timeCoord.dependents.entries, x = b.higherBrokerId ∨ x = fed := by
  have hin : fed ∈ b.timeCoord.dependents.entries.filter
      (fun dep => decide (dep ≠ b.higherBrokerId)) := by
    rw [h.2]
    exact List.mem_cons_self
  obtain ⟨hmem, hne⟩ := List.mem_filter.mp hin
  refine ⟨hmem, of_decide_eq_true hne, ⟨?_, ?_⟩, ?_⟩
  · rintro rfl
    exact hb.tables.no_own_dependent hmem
  · rintro rfl
    exact hb.tables.dependents_valid hmem
  · intro x hx
    by_cases heq : x = b.higherBrokerId
    · exact .inl heq
    right
    have hxin : x ∈ b.timeCoord.dependents.entries.filter
        (fun dep => decide (dep ≠ b.higherBrokerId)) :=
      List.mem_filter.mpr ⟨hx, decide_eq_true heq⟩
    rw [h.2] at hxin
    exact List.mem_singleton.mp hxin

theorem takenOut_of_takesOut (hroot : b.isRootc = false)
    (h : b.TakesOut fed) (hg : g.Around b.globalBrokerIdLocal b.timeCoord) :
    TakenOut (Other b.globalBrokerIdLocal) b.globalBrokerIdLocal
        (Joins b.higherBrokerId fed) (b.beforeRemoval g).DependsOn (b.afterRemoval g).DependsOn ∧
      Bypass.Blocked (Other b.globalBrokerIdLocal) b.globalBrokerIdLocal
        (b.afterRemoval g).DependsOn := by
  obtain ⟨_, _, hfed, hd⟩ := dependents_of_takesOut hb h
  have hserved : b.servedRequests = [] := by
    rw [servedRequests, hroot, if_neg Bool.false_ne_true]
  have hcmds : b.checkDependencies.2.filterMap dependencyCommand = b.servedRequests ++
      innerRemoval b.globalBrokerIdLocal b.higherBrokerId fed := by
    rw [checkDependencies_of_takesOut hroot h, bypassBroker_commands hb.parent.2 hfed.2, hserved]
    rfl
  rw [afterRemoval_eq hb hg hcmds]
  apply takenOut_inner (sees_beforeRemoval hb hg).1 hb.parent hfed hd
  intro y hy
  rw [checkDependencies_of_takesOut hroot h] at hy
  have hy' : y ∈ ((b.timeCoord.removeDependency b.higherBrokerId).removeDependency fed
      ).dependencies.keys := hy
  rw [removeDependency_keys, removeDependency_keys] at hy'
  exact hy'.1.1

theorem rejoins_inner_iff (h : b.TakesOut fed) :
    Rejoins b.globalBrokerIdLocal b.timeCoord (Joins b.higherBrokerId fed) ↔
      b.higherBrokerId ∈ b.timeCoord.dependents.entries ∧
        ∀ y, y ∈ b.timeCoord.dependencies.keys ↔ y = b.higherBrokerId ∨ y = fed := by
  obtain ⟨hmem, hne, hfed, hd⟩ := dependents_of_takesOut hb h
  constructor
  · intro hjoin
    have hdown := (hjoin _ _ hb.parent hfed hne.symm).mp (.inl ⟨rfl, rfl⟩)
    have hup := (hjoin _ _ hfed hb.parent hne).mp (.inr ⟨rfl, rfl⟩)
    refine ⟨hdown.1, ?_⟩
    intro y
    constructor
    · intro hy
      by_cases hyf : y = fed
      · exact .inr hyf
      have hother : Other b.globalBrokerIdLocal y := by
        constructor
        · rintro rfl
          exact hb.tables.no_own_dependency hy
        · rintro rfl
          exact hb.tables.dependencies_valid hy
      rcases (hjoin fed y hfed hother (fun heq => hyf heq.symm)).mpr ⟨hmem, hy⟩ with
        ⟨_, heq⟩ | ⟨_, heq⟩
      · exact .inr heq
      · exact .inl heq
    · rintro (rfl | rfl)
      · exact hup.2
      · exact hdown.2
  · rintro ⟨hparent, hdep⟩ x y _ _ hxy
    rw [hdep]
    constructor
    · rintro (⟨rfl, rfl⟩ | ⟨rfl, rfl⟩)
      · exact ⟨hparent, .inr rfl⟩
      · exact ⟨hmem, .inl rfl⟩
    · rintro ⟨hx, hy⟩
      rcases hd x hx with rfl | rfl
      · exact .inl ⟨rfl, hy.resolve_left (fun heq => hxy heq.symm)⟩
      · exact .inr ⟨rfl, hy.resolve_right (fun heq => hxy heq.symm)⟩

/-- The root preserves reachability when it takes itself out; a broker below the root does so
exactly if it had its parent and one object as dependents and the same two as dependencies. -/
theorem removalPreserves_iff : b.RemovalPreserves ↔ b.isRootc = true ∨ ∀ fed, b.TakesOut fed →
      b.higherBrokerId ∈ b.timeCoord.dependents.entries ∧
        ∀ y, y ∈ b.timeCoord.dependencies.keys ↔ y = b.higherBrokerId ∨ y = fed := by
  cases hroot : b.isRootc with
  | true => exact iff_of_true (root_removalPreserves hb hroot) (.inl rfl)
  | false =>
    rw [or_iff_right Bool.false_ne_true]
    have hserved : b.servedRequests = [] := by
      rw [servedRequests, hroot, if_neg Bool.false_ne_true]
    constructor
    · intro hpres fed hout
      have hstar := around_star hb.tables
      obtain ⟨htaken, hblock⟩ := takenOut_of_takesOut hb hroot hout hstar
      have hbefore : b.beforeRemoval (star b.globalBrokerIdLocal b.timeCoord) =
          star b.globalBrokerIdLocal b.timeCoord := by
        rw [beforeRemoval, hserved]
        rfl
      have hreach := hpres _ hstar
      rw [hbefore] at htaken hreach
      rw [← rejoins_inner_iff hb hout, ← hstar.sees.balanced_iff]
      exact htaken.balanced (star_isStar _ _) hblock (fun v w _ hvw => hvw) hreach
    · intro hjoin g hg
      by_cases hout : ∃ fed, b.TakesOut fed
      · obtain ⟨fed, hout⟩ := hout
        apply (takenOut_of_takesOut hb hroot hout hg).1.sameReach
        exact (sees_beforeRemoval hb hg).1.balanced_iff.mpr
          ((rejoins_inner_iff hb hout).mpr (hjoin fed hout))
      have hcheck := checkDependencies_of_stays hroot (fun fed h => hout ⟨fed, h⟩)
      apply sameReach_of_stays hb hg
      · rw [hcheck]
      · rw [hcheck, hserved]
        rfl

end

end CoreBroker

end

end Helics
