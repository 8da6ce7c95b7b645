import Helics.InitReadiness
import Helics.InterfaceBroker

namespace Helics

open UnknownHandleManager

section
def Sends (action : Action) (effects : List Effect) : Prop :=
  ∃ route cmd, .transmit route cmd ∈ effects ∧ cmd.messageAction = action

theorem sends_append : Sends action (es ++ es') ↔ Sends action es ∨ Sends action es' := by
  constructor
  · rintro ⟨route, cmd, hmem, hact⟩
    exact (List.mem_append.mp hmem).imp
      (fun h => ⟨route, cmd, h, hact⟩) (fun h => ⟨route, cmd, h, hact⟩)
  · rintro (⟨route, cmd, hmem, hact⟩ | ⟨route, cmd, hmem, hact⟩)
    · exact ⟨route, cmd, List.mem_append_left _ hmem, hact⟩
    · exact ⟨route, cmd, List.mem_append_right _ hmem, hact⟩

theorem not_sends_nil : ¬ Sends action [] := by
  rintro ⟨_, _, hmem, _⟩
  cases hmem

theorem not_sends_queued : ¬ Sends action (queued msgs) := by
  rintro ⟨_, _, hmem, _⟩
  obtain ⟨_, _, heq⟩ := List.mem_map.mp hmem
  cases heq

variable [DualMapped String GlobalId]

namespace CoreBroker

variable {b : CoreBroker}

theorem sends_routeMessageTo (h : Sends action (b.routeMessageTo cmd dest)) :
    action = cmd.messageAction := by
  obtain ⟨_, _, hmem, rfl⟩ := h
  unfold routeMessageTo at hmem
  split at hmem
  · cases hmem
  · cases List.mem_singleton.mp hmem
    rfl

theorem sends_broadcast (h : Sends action (b.broadcast cmd)) : action = cmd.messageAction := by
  obtain ⟨_, _, hmem, rfl⟩ := h
  obtain ⟨_, _, heq⟩ := List.mem_map.mp hmem
  cases heq
  rfl

theorem sends_delayedDependencyMessages (h : Sends action (b.delayedDependencyMessages dep)) :
    isDependencyCommand action = true ∨ action = .cmdLog := by
  obtain ⟨_, _, hmem, rfl⟩ := h
  unfold delayedDependencyMessages at hmem
  split at hmem
  · rcases List.mem_pair.mp hmem with heq | heq
    · cases heq
      exact .inl rfl
    · cases heq
      exact .inl rfl
  · cases List.mem_singleton.mp hmem
    exact .inr rfl

theorem sends_bypassRoot (h : Sends action (b.bypassRoot dependent dependency).2) :
    isDependencyCommand action = true := by
  unfold bypassRoot at h
  split at h
  · simp only [sends_append, or_assoc] at h
    rcases h with h | h | h | h
    all_goals
      rw [sends_routeMessageTo h]
      rfl
  · rw [sends_routeMessageTo h]
    rfl

theorem sends_bypassBroker (h : Sends action (b.bypassBroker fed).2) :
    isDependencyCommand action = true := by
  unfold bypassBroker at h
  simp only [sends_append, or_assoc] at h
  rcases h with h | h | h | h
  all_goals
    rw [sends_routeMessageTo h]
    rfl

theorem sends_checkDependencies (h : Sends action b.checkDependencies.2) :
    isDependencyCommand action = true ∨ action = .cmdLog := by
  have hdelayed : Sends action (b.delayedDependencies.flatMap b.delayedDependencyMessages) →
      isDependencyCommand action = true ∨ action = .cmdLog := by
    rintro ⟨route, cmd, hmem, hact⟩
    obtain ⟨dep, _, hdep⟩ := List.mem_flatMap.mp hmem
    exact sends_delayedDependencyMessages ⟨route, cmd, hdep, hact⟩
  unfold checkDependencies at h
  split at h
  · split at h
    · rcases sends_append.mp h with h | h
      · exact hdelayed h
      · exact .inl (sends_bypassRoot h)
    · exact hdelayed h
  · split at h
    · exact absurd h not_sends_nil
    · split at h
      · exact .inl (sends_bypassBroker h)
      · exact absurd h not_sends_nil

theorem sends_sendDisconnect (h : Sends action b.sendDisconnect.2) : action = .cmdDisconnect := by
  have hbyes : ∀ {bye : ActionMessage} {brks : List BasicBrokerInfo},
      Sends action (brks.flatMap (fun brk => b.routeMessageTo bye brk.globalId)) →
        action = bye.messageAction := by
    rintro bye brks ⟨route, cmd, hmem, hact⟩
    obtain ⟨brk, _, hbrk⟩ := List.mem_flatMap.mp hmem
    exact sends_routeMessageTo ⟨route, cmd, hbrk, hact⟩
  unfold sendDisconnect at h
  split at h
  · rcases sends_append.mp h with h | h
    · exact hbyes h
    · exact absurd h not_sends_queued
  · exact hbyes h

/-- A grant is sent only if no unresolved request is required; otherwise an error is sent for every
such request. -/
structure RequiredGate (b : CoreBroker) : Prop where
  granted : Sends .cmdInitGrant b.executeInitializationOperations.2 →
    b.unknownHandles.requiredTargets = []
  refused : b.unknownHandles.requiredTargets ≠ [] →
    ¬ Sends .cmdInitGrant b.executeInitializationOperations.2 ∧
      ∀ t ∈ b.unknownHandles.requiredTargets,
        b.routeMessage (b.requiredError t) ∈ b.executeInitializationOperations.2

variable (b)

theorem not_sends_grant_failInitialization : ¬ Sends .cmdInitGrant b.failInitialization.2 := by
  unfold failInitialization
  simp only [sends_append, not_or, and_assoc]
  refine ⟨?_, fun h => ?_, fun h => ?_, fun h => ?_⟩
  · rintro ⟨_, _, hmem, hact⟩
    obtain ⟨t, _, heq⟩ := List.mem_map.mp hmem
    cases heq
    cases hact
  · cases sends_broadcast h
  · cases sends_sendDisconnect h
  · obtain ⟨_, _, hmem, _⟩ := h
    cases List.mem_singleton.mp hmem

theorem not_sends_error_grantInitialization : ¬ Sends .cmdError b.grantInitialization.2 := by
  unfold grantInitialization
  simp only [sends_append, not_or, and_assoc]
  refine ⟨?_, fun h => ?_, ?_⟩
  · rintro ⟨_, _, hmem, hact⟩
    split at hmem
    · obtain ⟨t, _, heq⟩ := List.mem_map.mp hmem
      cases heq
      cases hact
    · cases hmem
  · cases sends_broadcast h
  · unfold enterExec checkExecEntry
    rw [sends_append]
    rintro (h | h)
    · exact not_sends_queued h
    · exact not_sends_queued h

theorem missingRequired_checkDependencies :
    b.checkDependencies.1.missingRequired = b.missingRequired := by
  rw [checkDependencies_frame b]
  rfl

theorem executeInitializationOperations_effects :
    b.executeInitializationOperations.2 = b.checkDependencies.2 ++
      if b.missingRequired = true then b.checkDependencies.1.failInitialization.2
      else b.checkDependencies.1.grantInitialization.2 := by
  unfold executeInitializationOperations
  dsimp only
  rw [missingRequired_checkDependencies]
  split
  · rfl
  · rfl

theorem missingRequired_iff {b : CoreBroker} (h : b.unknownHandles.requiredTargets ≠ []) :
    b.missingRequired = true ↔ b.unknownHandles.hasNonOptionalUnknowns = true := by
  have hreq : b.unknownHandles.hasRequiredUnknowns = true := by
    unfold hasRequiredUnknowns
    rw [Bool.not_eq_true', List.isEmpty_eq_false_iff]
    exact h
  have hsome : b.unknownHandles.hasUnknowns = true := by
    unfold hasUnknowns
    cases hall : b.unknownHandles.targets with
    | nil =>
      unfold requiredTargets at h
      rw [hall] at h
      exact absurd rfl h
    | cons t ts =>
      unfold targets at hall
      cases hp : b.unknownHandles.unknownPublications with
      | cons => rfl
      | nil =>
        cases he : b.unknownHandles.unknownEndpoints with
        | cons => rfl
        | nil =>
          cases hi : b.unknownHandles.unknownInputs with
          | cons => rfl
          | nil =>
            cases hf : b.unknownHandles.unknownFilters with
            | cons => rfl
            | nil =>
              rw [hp, he, hi, hf] at hall
              cases hall
  unfold missingRequired
  rw [hreq, hsome, Bool.true_and, Bool.and_true]

/-- Required connections gate the initialization exactly if some unresolved request is not optional
whenever one is required. -/
theorem required_connections_gate_iff (b : CoreBroker) :
    b.RequiredGate ↔ (b.unknownHandles.requiredTargets ≠ [] →
      b.unknownHandles.hasNonOptionalUnknowns = true) := by
  have hdeps : ¬ Sends .cmdInitGrant b.checkDependencies.2 := by
    intro h
    rcases sends_checkDependencies h with h | h
    · cases h
    · cases h
  have hdepsError : ¬ Sends .cmdError b.checkDependencies.2 := by
    intro h
    rcases sends_checkDependencies h with h | h
    · cases h
    · cases h
  constructor
  · intro hgate hreq
    by_contra hopt
    obtain ⟨t, ts, hlist⟩ := List.exists_cons_of_ne_nil hreq
    have herr := (hgate.refused hreq).2 t (by rw [hlist]; exact List.mem_cons_self)
    rw [executeInitializationOperations_effects,
      if_neg (fun h => hopt ((missingRequired_iff hreq).mp h))] at herr
    rcases sends_append.mp ⟨_, _, herr, rfl⟩ with h | h
    · exact hdepsError h
    · exact not_sends_error_grantInitialization _ h
  · intro hcond
    by_cases hreq : b.unknownHandles.requiredTargets = []
    · exact ⟨fun _ => hreq, fun hne => absurd hreq hne⟩
    have hrun : b.executeInitializationOperations.2 =
        b.checkDependencies.2 ++ b.checkDependencies.1.failInitialization.2 := by
      rw [executeInitializationOperations_effects,
        if_pos ((missingRequired_iff hreq).mpr (hcond hreq))]
    have hno : ¬ Sends .cmdInitGrant b.executeInitializationOperations.2 := by
      rw [hrun, sends_append, not_or]
      exact ⟨hdeps, not_sends_grant_failInitialization _⟩
    refine ⟨fun h => absurd h hno, fun _ => ⟨hno, fun t ht => ?_⟩⟩
    rw [hrun, checkDependencies_frame b]
    apply List.mem_append_right
    unfold failInitialization
    simp only [List.append_assoc]
    apply List.mem_append_left
    exact List.mem_map_of_mem ht

end CoreBroker

end

attribute [local instance] DualMapped.listVectors

def rootWithRequest (flags : UInt16) : CoreBroker :=
  let root : InterfaceBroker := {
    isRootc := true
    globalBrokerIdLocal := globalBrokerIdShift
    brokers := DualMapped.Vector.empty.add "core" (some (globalBrokerIdShift + 1))
      { name := "core", globalId := globalBrokerIdShift + 1, route := 1, core := true } }
  (root.processCommand
    { action := .cmdAddNamedPublication, name := "p", source := ⟨globalFederateIdShift, 0⟩,
      flags := flags }).1.toCoreBroker

/-- A connection that is both required and optional does not hold up the initialization. -/
theorem required_optional_ignored :
    ¬ (rootWithRequest (setActionFlag (setActionFlag 0 requiredFlag)
      optionalFlag)).RequiredGate := by
  intro h
  let grant : ActionMessage :=
    { messageAction := .cmdInitGrant, sourceId := globalBrokerIdShift,
      destId := globalBrokerIdShift + 1 }
  have hnone := h.granted ⟨1, grant, by decide +kernel, rfl⟩
  exact absurd hnone (by decide +kernel)

end Helics
