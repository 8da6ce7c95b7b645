import Helics.FederateState

namespace Helics

def Action.endsConnection : Action → Bool
  | .cmdDisconnect | .cmdBroadcastDisconnect | .cmdDisconnectCore | .cmdDisconnectFed
  | .cmdDisconnectBroker => true
  | _ => false

/-- A property of records that only depends on the state and the next time of the dependency. -/
def DependencyInfo.Stable (Q : DependencyInfo → Prop) : Prop :=
  ∀ d d', d'.fedID = d.fedID → d'.timeState = d.timeState → d'.Tnext = d.Tnext → Q d → Q d'

namespace TimeCoordinator

/-- The tables of a coordinator only changed by some recorded messages. -/
structure Tables (ms : List ActionMessage) (c c' : TimeCoordinator) : Prop where
  sourceId : c'.sourceId = c.sourceId
  keys : c'.dependencies.keys = c.dependencies.keys
  dependents : ∀ k ∈ c'.dependents.entries, k ∈ c.dependents.entries
  kept : ∀ k ∈ c.dependents.entries, k ∈ c'.dependents.entries ∨
    ∃ m ∈ ms, m.messageAction.endsConnection = true ∧ m.sourceId = k
  records : ∀ Q : DependencyInfo → Prop, DependencyInfo.Stable Q →
    (∀ m ∈ ms, ∀ d, d.fedID = TimeDependencies.dependencyOf m → Q d → Q (d.processMessage m).2) →
    (∀ d ∈ c.dependencies.entries, Q d) → ∀ d ∈ c'.dependencies.entries, Q d

structure Retabled (ms : List ActionMessage) (c c' : TimeCoordinator) : Prop
    extends Tables ms c c' where
  executionMode : c'.executionMode = c.executionMode
  checkingExec : c'.checkingExec = c.checkingExec
  iterating : c'.iterating = c.iterating

theorem retabled_of_tables (hs : c'.sourceId = c.sourceId)
    (he : c'.executionMode = c.executionMode) (hc : c'.checkingExec = c.checkingExec)
    (hi : c'.iterating = c.iterating) (hd : c'.dependencies = c.dependencies)
    (ht : c'.dependents = c.dependents) : Retabled [] c c' where
  sourceId := hs
  executionMode := he
  checkingExec := hc
  iterating := hi
  keys := by rw [hd]
  dependents := by rw [ht]; exact fun _ hk => hk
  kept := by rw [ht]; exact fun _ hk => .inl hk
  records := by rw [hd]; exact fun _ _ _ h => h

theorem Retabled.refl (c : TimeCoordinator) : Retabled [] c c :=
  retabled_of_tables rfl rfl rfl rfl rfl rfl

theorem Tables.trans (h : Tables ms a b) (h' : Tables ms' b c) : Tables (ms ++ ms') a c where
  sourceId := h'.sourceId.trans h.sourceId
  keys := h'.keys.trans h.keys
  dependents := fun k hk => h.dependents k (h'.dependents k hk)
  kept := by
    intro k hk
    obtain hk | ⟨m, hm, hend⟩ := h.kept k hk
    · obtain hk | ⟨m, hm, hend⟩ := h'.kept k hk
      · exact .inl hk
      · exact .inr ⟨m, List.mem_append_right _ hm, hend⟩
    · exact .inr ⟨m, List.mem_append_left _ hm, hend⟩
  records := by
    intro Q hst hcl hq
    apply h'.records Q hst fun m hm => hcl m (List.mem_append_right _ hm)
    exact h.records Q hst (fun m hm => hcl m (List.mem_append_left _ hm)) hq

theorem Tables.mono (h : Tables ms c c') (hms : ∀ m ∈ ms, m ∈ ms') : Tables ms' c c' :=
  { h with
    kept := fun k hk => (h.kept k hk).imp_right fun ⟨m, hm, hend⟩ => ⟨m, hms m hm, hend⟩
    records := fun Q hst hcl => h.records Q hst fun m hm => hcl m (hms m hm) }

theorem Retabled.trans (h : Retabled ms a b) (h' : Retabled ms' b c) : Retabled (ms ++ ms') a c :=
  { h.toTables.trans h'.toTables with
    executionMode := h'.executionMode.trans h.executionMode
    checkingExec := h'.checkingExec.trans h.checkingExec
    iterating := h'.iterating.trans h.iterating }

theorem Retabled.mono (h : Retabled ms c c') (hms : ∀ m ∈ ms, m ∈ ms') : Retabled ms' c c' :=
  { h.toTables.mono hms with
    executionMode := h.executionMode
    checkingExec := h.checkingExec
    iterating := h.iterating }

variable (c : TimeCoordinator) (cmd : ActionMessage)

theorem updateDependency_retabled : Retabled [cmd] c (c.updateDependency cmd).2 where
  sourceId := rfl
  executionMode := rfl
  checkingExec := rfl
  iterating := rfl
  keys := c.dependencies.keys_updateTime cmd
  dependents := fun _ hk => hk
  kept := fun _ hk => .inl hk
  records := by
    intro Q _ hcl hq d hd
    obtain ⟨a, ha, hid, rfl⟩ | ⟨hd, -⟩ := c.dependencies.mem_updateTime cmd hd
    · exact hcl cmd (List.mem_singleton.mpr rfl) a hid (hq a ha)
    · exact hq d hd

theorem processDependencyTime_retabled : Retabled [cmd] c (c.processDependencyTime cmd).2 := by
  have hnone : Retabled [cmd] c c := (Retabled.refl c).mono fun _ hm => absurd hm List.not_mem_nil
  unfold processDependencyTime
  split
  · split
    · exact hnone
    · split
      · exact hnone
      · exact c.updateDependency_retabled cmd
  · exact c.updateDependency_retabled cmd

theorem removeDependent_retabled {cmd : ActionMessage}
    (hend : cmd.messageAction.endsConnection = true) :
    Retabled [cmd] c (c.removeDependent cmd.sourceId) where
  sourceId := rfl
  executionMode := rfl
  checkingExec := rfl
  iterating := rfl
  keys := rfl
  dependents := fun k hk => (c.dependents.mem_erase.mp hk).1
  kept := by
    intro k hk
    by_cases hne : k = cmd.sourceId
    · exact .inr ⟨cmd, List.mem_singleton.mpr rfl, hend, hne.symm⟩
    · exact .inl (c.dependents.mem_erase.mpr ⟨hk, hne⟩)
  records := fun _ _ _ hq => hq

theorem processTimeBlockMessage_retabled : Retabled [] c (c.processTimeBlockMessage cmd).2 := by
  rw [processTimeBlockMessage_eq]
  exact retabled_of_tables rfl rfl rfl rfl rfl rfl

theorem processTimeMessage_retabled : Retabled [cmd] c (c.processTimeMessage cmd).2.1 := by
  have hbye (hend : cmd.messageAction.endsConnection = true) :
      Retabled [cmd] c ((c.removeDependent cmd.sourceId).processDependencyTime cmd).2 :=
    ((c.removeDependent_retabled hend).trans (processDependencyTime_retabled _ cmd)).mono
      fun m hm => by simpa using hm
  have hblock : Retabled [cmd] c (c.processTimeBlockMessage cmd).2 :=
    (c.processTimeBlockMessage_retabled cmd).mono fun _ hm => absurd hm List.not_mem_nil
  unfold processTimeMessage
  split
  case h_1 | h_2 => exact hblock
  case h_3 =>
    have hforce : Retabled [] c (c.forceTimeGrant cmd).2.1 := by
      unfold forceTimeGrant
      split
      · exact retabled_of_tables rfl rfl rfl rfl rfl rfl
      · exact .refl c
    exact hforce.mono fun _ hm => absurd hm List.not_mem_nil
  case h_9 => exact c.processDependencyTime_retabled cmd
  all_goals
    rename_i hkind
    exact hbye (by rw [hkind]; rfl)

def ownBye (c : TimeCoordinator) : ActionMessage :=
  { messageAction := .cmdDisconnect, sourceId := c.sourceId, destId := c.sourceId }

theorem disconnect_retabled : Retabled [c.ownBye] c c.disconnect.1 := by
  unfold disconnect
  split
  · exact c.processTimeMessage_retabled c.ownBye
  · exact (Retabled.refl c).mono fun _ hm => absurd hm List.not_mem_nil

theorem timeRequest_retabled {c : TimeCoordinator} (hi : c.iterating = false) (t v m : Time) :
    Retabled [] c (c.timeRequest t .noIterations v m).1 where
  sourceId := rfl
  executionMode := rfl
  checkingExec := rfl
  iterating := hi.symm
  keys := c.dependencies.keys_resetDependentEvents c.timeGranted
  dependents := fun _ hk => hk
  kept := fun _ hk => .inl hk
  records := by
    intro Q hst _ hq d hd
    obtain ⟨a, ha, rfl⟩ := List.mem_map.mp hd
    exact hst a _ rfl rfl rfl (hq a ha)

theorem countIteration_retabled : Retabled [] c c.countIteration := by
  rw [countIteration_eq]
  exact retabled_of_tables rfl rfl rfl rfl rfl rfl

theorem updateTimeGrant_retabled {c : TimeCoordinator} (hi : c.iterating = false) :
    Retabled [] c c.updateTimeGrant.1 := by
  refine retabled_of_tables rfl rfl rfl rfl ?_ rfl
  change (if c.iterating then _ else c.dependencies) = c.dependencies
  rw [hi]
  rfl

theorem updateValueTime_retabled (t : Time) : Retabled [] c (c.updateValueTime t).1 := by
  rw [updateValueTime_eq]
  exact retabled_of_tables rfl rfl rfl rfl rfl rfl

theorem updateMessageTime_retabled (t : Time) : Retabled [] c (c.updateMessageTime t).1 := by
  rw [updateMessageTime_eq]
  exact retabled_of_tables rfl rfl rfl rfl rfl rfl

/-- A message that a coordinator only sends when it is executing. -/
def Stepping (c : TimeCoordinator) (m : ActionMessage) : Prop :=
  m.sourceId = c.sourceId ∧ (m.messageAction = .cmdTimeRequest ∨ m.messageAction = .cmdTimeGrant)

theorem stepping_sendTimeRequest (h : m ∈ c.sendTimeRequest) : c.Stepping m := by
  obtain ⟨k, -, rfl⟩ := List.mem_map.mp h
  exact ⟨rfl, .inl rfl⟩

variable {c}

theorem stepping_timeRequest (h : x ∈ (c.timeRequest t .noIterations v m).2) : c.Stepping x := by
  unfold timeRequest at h
  dsimp only at h
  split at h
  · exact absurd h List.not_mem_nil
  · exact stepping_sendTimeRequest
      ((c.withRequest t .noIterations).withEventTimes v m).updateTimeFactors.2 h

theorem stepping_afterEventUpdate (h : x ∈ (c.afterEventUpdate b).2) : c.Stepping x := by
  unfold afterEventUpdate at h
  split at h
  · split at h
    · exact stepping_sendTimeRequest c.updateNextExecutionTime.2 h
    · exact absurd h List.not_mem_nil
  · exact absurd h List.not_mem_nil

theorem stepping_updateValueTime (h : x ∈ (c.updateValueTime t).2) :
    c.Stepping x ∧ c.executionMode = true := by
  unfold updateValueTime at h
  split at h
  · exact absurd h List.not_mem_nil
  rename_i hmode
  split at h
  · exact ⟨stepping_afterEventUpdate (c := { c with timeValue := c.eventTime t }) h,
      by simpa using hmode⟩
  · exact absurd h List.not_mem_nil

theorem stepping_updateMessageTime (h : x ∈ (c.updateMessageTime t).2) :
    c.Stepping x ∧ c.executionMode = true := by
  unfold updateMessageTime at h
  split at h
  · exact absurd h List.not_mem_nil
  rename_i hmode
  split at h
  · exact ⟨stepping_afterEventUpdate (c := { c with timeMessage := c.eventTime t }) h,
      by simpa using hmode⟩
  · exact absurd h List.not_mem_nil

theorem disconnect_sends (h : m ∈ c.disconnect.2) :
    m.sourceId = c.sourceId ∧ m.messageAction = .cmdDisconnect := by
  obtain ⟨k, -, rfl⟩ := List.mem_map.mp h
  exact ⟨rfl, rfl⟩

theorem checkTimeGrant_retabled (hi : c.iterating = false) :
    Retabled [c.ownBye] c c.checkTimeGrant.2.1 ∧ ∀ m ∈ c.checkTimeGrant.2.2, c.Stepping m ∨
        m.sourceId = c.sourceId ∧ m.messageAction = .cmdDisconnect := by
  have hup : Retabled [] c c.updateTimeFactors.2 := retabled_of_tables rfl rfl rfl rfl rfl rfl
  have hcount : Retabled [] c c.updateTimeFactors.2.countIteration :=
    hup.trans (countIteration_retabled _)
  have hnone {c' : TimeCoordinator} (h : Retabled [] c c') : Retabled [c.ownBye] c c' :=
    h.mono fun _ hm => absurd hm List.not_mem_nil
  unfold checkTimeGrant
  dsimp only
  split
  · have hmax : Retabled [] c
        { c.updateTimeFactors.2 with timeGranted := .maxVal, timeGrantBase := .maxVal } :=
      retabled_of_tables rfl rfl rfl rfl rfl rfl
    have hbye := hmax.trans (disconnect_retabled _)
    exact ⟨hbye, fun m hm => .inr (disconnect_sends hm)⟩
  · split
    · exact ⟨hnone hup, fun _ hm => absurd hm List.not_mem_nil⟩
    split
    · refine ⟨hnone (hcount.trans (updateTimeGrant_retabled (hcount.iterating.trans hi))),
        fun m hm => .inl ?_⟩
      obtain ⟨k, -, rfl⟩ := List.mem_map.mp hm
      exact ⟨hcount.sourceId, .inr rfl⟩
    split
    · refine ⟨hnone hcount, fun m hm => .inl ?_⟩
      obtain ⟨hsource, hkind⟩ := stepping_sendTimeRequest _ hm
      exact ⟨hsource.trans hcount.sourceId, hkind⟩
    · exact ⟨hnone hcount, fun _ hm => absurd hm List.not_mem_nil⟩

end TimeCoordinator

end Helics
