import Helics.NetworkSteps

namespace Helics

attribute [local instance] DualMapped.listVectors

namespace TwoLevels

def branch : GlobalId := 1879048193

def nearCore : GlobalId := 1879048194

def farCore : GlobalId := 1879048195

def nearFed : GlobalId := 131072

def farFed : GlobalId := 131073

def homes : List (GlobalId × GlobalId) :=
  [(nearCore, nearCore), (nearFed, nearCore), (farCore, farCore), (farFed, farCore)]

def links : List ((GlobalId × RouteId) × GlobalId) :=
  [((1, 1), nearCore), ((1, 2), branch), ((branch, 1), farCore)]

def tree : Topology where
  root := 1
  isCore := fun n => decide (n = nearCore ∨ n = farCore)
  parent := fun n => if n = farCore then branch else 1
  child := fun n route => links.lookup (n, route)
  home := fun f => homes.lookup f

def fedTable (feds : List GlobalId) : DualMapped.Vector String GlobalId BasicFedInfo :=
  feds.foldl (fun v f => v.add (toString f) (some f) { name := toString f, globalId := f }) .empty

def rootBroker : InterfaceBroker where
  globalBrokerIdLocal := 1
  isRootc := true
  federates := fedTable [nearFed, farFed]
  routingTable := [(nearCore, 1), (nearFed, 1), (branch, 2), (farCore, 2), (farFed, 2)]

def branchBroker : InterfaceBroker where
  globalBrokerIdLocal := branch
  higherBrokerId := 1
  federates := fedTable [farFed]
  routingTable := [(farCore, 1), (farFed, 1)]

def net : InterfaceNet where
  brokers := fun n => if n = 1 then rootBroker else if n = branch then branchBroker
    else { globalBrokerIdLocal := n }
  cores := fun n => {
    globalBrokerIdLocal := n
    higherBrokerId := tree.parent n
    loopFederates := if n = nearCore then [nearFed] else if n = farCore then [farFed] else [] }
  federates := fun f => { globalId := f }
  flight := []

theorem mem_of_path {t : Topology} (S : List GlobalId)
    (hS : ∀ n ∈ S, n ≠ t.root → t.parent n ∈ S) (hpath : Relation.ReflTransGen t.Below m n)
    (hm : m ∈ S) : n ∈ S := by
  induction hpath with
  | refl => exact hm
  | tail _ hlast ih =>
    obtain ⟨hne, rfl⟩ := hlast
    exact hS _ ih hne

theorem isTree : tree.IsTree where
  root_broker := by decide
  parent_broker := by
    intro n _
    unfold tree
    dsimp only
    split
    · decide
    · decide
  child_parent := by
    intro n route m h
    have hall : ∀ p ∈ links, p.2 ≠ tree.root ∧ tree.parent p.2 = p.1.1 := by decide
    exact hall _ (mem_of_lookup h)
  home_core := by
    intro f core h
    have hall : ∀ p ∈ homes, tree.isCore p.2 = true := by decide
    exact hall _ (mem_of_lookup h)
  core_home := by
    intro n hn
    rcases of_decide_eq_true hn with rfl | rfl
    · decide
    · decide
  reaches_root := by
    intro n
    by_cases hn : n = 1
    · subst hn
      exact .refl
    by_cases hfar : n = farCore
    · subst hfar
      exact (Relation.ReflTransGen.single ⟨by decide, rfl⟩).tail ⟨by decide, rfl⟩
    · exact .single ⟨hn, if_neg hfar⟩

theorem inside_cases (h : tree.Inside f n) : (f = nearCore ∨ f = nearFed) ∧ (n = nearCore ∨ n = 1) ∨
      (f = farCore ∨ f = farFed) ∧ (n = farCore ∨ n = branch ∨ n = 1) := by
  obtain ⟨core, hhome, hpath⟩ := h
  have hmem : (f, core) ∈ homes := mem_of_lookup hhome
  have hnear : Relation.ReflTransGen tree.Below nearCore n → n = nearCore ∨ n = 1 := by
    intro hpath
    simpa using mem_of_path [nearCore, 1] (by decide) hpath List.mem_cons_self
  have hfar : Relation.ReflTransGen tree.Below farCore n → n = farCore ∨ n = branch ∨ n = 1 := by
    intro hpath
    simpa using mem_of_path [farCore, branch, 1] (by decide) hpath List.mem_cons_self
  simp only [homes, List.mem_cons, Prod.mk.injEq, List.not_mem_nil, or_false] at hmem
  rcases hmem with ⟨rfl, rfl⟩ | ⟨rfl, rfl⟩ | ⟨rfl, rfl⟩ | ⟨rfl, rfl⟩
  · exact .inl ⟨.inl rfl, hnear hpath⟩
  · exact .inl ⟨.inr rfl, hnear hpath⟩
  · exact .inr ⟨.inl rfl, hfar hpath⟩
  · exact .inr ⟨.inr rfl, hfar hpath⟩

theorem inside_near : tree.Inside nearCore nearCore ∧ tree.Inside nearFed nearCore :=
  ⟨⟨nearCore, by decide, .refl⟩, ⟨nearCore, by decide, .refl⟩⟩

theorem inside_far : tree.Inside farCore farCore ∧ tree.Inside farFed farCore :=
  ⟨⟨farCore, by decide, .refl⟩, ⟨farCore, by decide, .refl⟩⟩

theorem inside_branch : tree.Inside farCore branch ∧ tree.Inside farFed branch :=
  ⟨inside_far.1.parent (by decide), inside_far.2.parent (by decide)⟩

theorem wired_root : WiredBroker tree 1 rootBroker where
  root := rfl
  id := rfl
  distinct := by
    intro f h
    rcases inside_cases h with ⟨rfl | rfl, _⟩ | ⟨rfl | rfl, _⟩ <;> decide
  routes := by
    intro f h
    rcases inside_cases h with ⟨rfl | rfl, _⟩ | ⟨rfl | rfl, _⟩
    · exact ⟨by decide, nearCore, by decide, inside_near.1⟩
    · exact ⟨by decide, nearCore, by decide, inside_near.2⟩
    · exact ⟨by decide, branch, by decide, inside_branch.1⟩
    · exact ⟨by decide, branch, by decide, inside_branch.2⟩
  connected := by
    intro f h hf
    rcases inside_cases h with ⟨rfl | rfl, _⟩ | ⟨rfl | rfl, _⟩
    · cases hf
    · exact ⟨_, rfl, rfl⟩
    · cases hf
    · exact ⟨_, rfl, rfl⟩

theorem wired_branch : WiredBroker tree branch branchBroker where
  root := rfl
  id := rfl
  distinct := by
    intro f h
    rcases inside_cases h with ⟨rfl | rfl, _⟩ | ⟨rfl | rfl, _⟩ <;> decide
  routes := by
    intro f h
    rcases inside_cases h with ⟨_, hn⟩ | ⟨rfl | rfl, _⟩
    · rcases hn with hn | hn <;> cases hn
    · exact ⟨by decide, farCore, by decide, inside_far.1⟩
    · exact ⟨by decide, farCore, by decide, inside_far.2⟩
  connected := by
    intro f h hf
    rcases inside_cases h with ⟨_, hn⟩ | ⟨rfl | rfl, _⟩
    · rcases hn with hn | hn <;> cases hn
    · cases hf
    · exact ⟨_, rfl, rfl⟩

theorem wired_other (h1 : n ≠ 1) (h2 : n ≠ branch) (hn : tree.isCore n = false) :
    WiredBroker tree n { globalBrokerIdLocal := n } := by
  have hnone : ∀ {f}, ¬ tree.Inside f n := by
    intro f h
    have hcore : ¬ (n = nearCore ∨ n = farCore) := of_decide_eq_false hn
    rcases inside_cases h with ⟨_, hn | hn⟩ | ⟨_, hn | hn | hn⟩
    · exact hcore (.inl hn)
    · exact h1 hn
    · exact hcore (.inr hn)
    · exact h2 hn
    · exact h1 hn
  exact ⟨(decide_eq_false h1).symm, rfl, fun h => absurd h hnone, fun h => absurd h hnone,
    fun h => absurd h hnone⟩

theorem wired_core (hn : tree.isCore n = true) : WiredCore tree n (net.cores n) where
  id := rfl
  members := by
    intro f
    constructor
    · intro hlocal
      have hmem := of_decide_eq_true hlocal
      rcases of_decide_eq_true hn with rfl | rfl
      · rw [List.mem_singleton.mp hmem]
        decide
      · rw [List.mem_singleton.mp hmem]
        decide
    · rintro ⟨hf, hhome⟩
      have hall : ∀ p ∈ homes, tree.isCore p.1 = false → (net.cores p.2).isLocal p.1 = true := by
        decide
      exact hall _ (mem_of_lookup hhome) hf

theorem fresh : net.Fresh tree where
  wiredBroker := by
    intro n hn
    unfold net
    dsimp only
    split
    · rename_i h1
      subst h1
      exact wired_root
    split
    · rename_i h2
      subst h2
      exact wired_branch
    · exact wired_other ‹_› ‹_› hn
  brokerTables := by
    intro n hn
    unfold net
    dsimp only
    split
    · exact ⟨rfl, rfl⟩
    · split <;> exact ⟨rfl, rfl⟩
  wiredCore := wired_core
  coreTables := fun _ => ⟨rfl, rfl, rfl, rfl⟩
  federates := fun _ => ⟨rfl, noError_zero,
    show checkActionFlag 0 disconnectedFlag = false by decide, rfl, rfl, rfl⟩
  flight := rfl

end TwoLevels

end Helics
