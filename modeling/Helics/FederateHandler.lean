import Helics.LaunchTables
import Helics.QueueOrder

namespace Helics

namespace TimeCoordinator

variable (c : TimeCoordinator) {cmd : ActionMessage}

theorem checkTimeGrant_sourceId : c.checkTimeGrant.2.1.sourceId = c.sourceId := by
  unfold checkTimeGrant
  dsimp only
  split
  · rw [disconnect_eq]
    rfl
  split
  · rfl
  rw [countIteration_eq]
  split
  · rfl
  · split <;> rfl

theorem checkExecEntry_sourceId : c.checkExecEntry.2.1.sourceId = c.sourceId := by
  unfold checkExecEntry
  repeat' split
  all_goals rfl

theorem checkExecEntry_ne_delay : c.checkExecEntry.1 ≠ .delayMessage := by
  unfold checkExecEntry
  repeat' split
  all_goals exact nofun

theorem processDependencyTime_delay {c : TimeCoordinator}
    (h : (c.processDependencyTime cmd).1 = .delayProcessing) :
    cmd.sourceId ≠ c.sourceId ∧ (cmd.messageAction = .cmdTimeGrant ∨
      cmd.messageAction = .cmdExecGrant) ∧ (c.processDependencyTime cmd).2 = c := by
  have hupdate : (c.updateDependency cmd).1 ≠ .delayProcessing := by
    unfold updateDependency
    split <;> exact nofun
  unfold processDependencyTime at h ⊢
  split
  · rename_i hd
    rw [if_pos hd] at h
    have hd := Bool.and_eq_true_iff.mp hd
    refine ⟨of_decide_eq_true hd.2, by simpa using hd.1, ?_⟩
    split
    · rfl
    split
    · rfl
    rename_i hdep hno
    rw [hdep] at h
    dsimp only at h
    rw [if_neg hno] at h
    exact absurd h hupdate
  · rename_i hd
    rw [if_neg hd] at h
    exact absurd h hupdate

theorem processTimeBlockMessage_ne_delay (cmd : ActionMessage) :
    (c.processTimeBlockMessage cmd).1 ≠ .delayProcessing := by
  unfold processTimeBlockMessage
  split
  · exact nofun
  · unfold unblock
    split
    · exact nofun
    dsimp only
    split
    · split <;> exact nofun
    · split <;> exact nofun
  · exact nofun

theorem forceTimeGrant_ne_delay (cmd : ActionMessage) :
    (c.forceTimeGrant cmd).1 ≠ .delayProcessing := by
  unfold forceTimeGrant
  split <;> exact nofun

/-- A delay is an answer to what others send, and leaves the coordinator as it was. -/
def DelaysForeign (c : TimeCoordinator) (cmd : ActionMessage)
    (r : MessageProcessResult × TimeCoordinator × List ActionMessage) : Prop :=
  r.1 = .delayProcessing → cmd.sourceId ≠ c.sourceId ∧ r.2 = (c, [])

theorem processTimeMessage_delay (cmd : ActionMessage) :
    DelaysForeign c cmd (c.processTimeMessage cmd) := by
  unfold processTimeMessage
  split
  · exact fun h => absurd h (processTimeBlockMessage_ne_delay c cmd)
  · exact fun h => absurd h (processTimeBlockMessage_ne_delay c cmd)
  · exact fun h => absurd h (forceTimeGrant_ne_delay c cmd)
  iterate 5
    rename_i ha
    intro h
    obtain ⟨-, hgrant | hgrant, -⟩ := processDependencyTime_delay h
    · exact absurd hgrant (ha ▸ nofun)
    · exact absurd hgrant (ha ▸ nofun)
  intro h
  obtain ⟨hsrc, -, hkeep⟩ := processDependencyTime_delay h
  exact ⟨hsrc, by rw [hkeep]⟩

end TimeCoordinator

namespace FederateState

theorem timeCheck_ne_delay (f : FederateState) : f.timeCheck.1 ≠ .delayMessage := by
  unfold timeCheck
  split
  · dsimp only
    split
    · rename_i hret
      intro hd
      rw [hd] at hret
      cases hret
    · exact nofun
  · exact nofun

theorem execCheck_ne_delay (f : FederateState) : f.execCheck.1 ≠ .delayMessage := by
  unfold execCheck
  split
  · dsimp only
    split
    · exact nofun
    · exact nofun
    · exact f.timeCoord.checkExecEntry_ne_delay
  · exact nofun

/-- The identifiers by which the federate and its coordinator know themselves. -/
structure Named (g : GlobalId) (f : FederateState) : Prop where
  globalId : f.globalId = g
  sourceId : f.timeCoord.sourceId = g

theorem Named.timeCheck (h : Named g f) : Named g f.timeCheck.2.1 := by
  unfold FederateState.timeCheck
  split
  · dsimp only
    split <;> exact ⟨h.globalId, f.timeCoord.checkTimeGrant_sourceId.trans h.sourceId⟩
  · exact h

theorem Named.execCheck (h : Named g f) : Named g f.execCheck.2.1 := by
  unfold FederateState.execCheck
  split
  · dsimp only
    split <;> exact ⟨h.globalId, f.timeCoord.checkExecEntry_sourceId.trans h.sourceId⟩
  · exact h

/-- A step of the federate that keeps its identifiers, and delays only what others send, without
effect. -/
structure Answers (g : GlobalId) (cmd : ActionMessage) (f : FederateState)
    (r : MessageProcessingResult × FederateState × List ActionMessage) : Prop where
  named : Named g r.2.1
  foreign : r.1 = .delayMessage → cmd.sourceId ≠ g
  unchanged : r.1 = .delayMessage → r.2 = (f, [])

theorem answers_of_ne (hn : Named g r.2.1) (hd : r.1 ≠ .delayMessage) : Answers g cmd f r :=
  ⟨hn, fun h => absurd h hd, fun h => absurd h hd⟩

section
variable (h : Named g f)
include h

theorem Named.processThen (cmd : ActionMessage)
    (check : FederateState → MessageProcessingResult × FederateState × List ActionMessage)
    (hc : ∀ f, Named g f → Named g (check f).2.1) (hd : ∀ f, (check f).1 ≠ .delayMessage) :
    Answers g cmd f (f.processThen cmd check) := by
  have hn : Named g { f with timeCoord := (f.timeCoord.processTimeMessage cmd).2.1 } :=
    ⟨h.globalId, (f.timeCoord.processTimeMessage_retabled cmd).sourceId.trans h.sourceId⟩
  unfold FederateState.processThen
  dsimp only
  split
  · rename_i hr
    obtain ⟨hsrc, hkeep⟩ := f.timeCoord.processTimeMessage_delay cmd hr
    exact ⟨hn, fun _ => h.sourceId ▸ hsrc, fun _ => by rw [hkeep]⟩
  · exact answers_of_ne hn nofun
  · exact answers_of_ne (hc _ hn) (hd _)

theorem Named.disconnect (state : FederateStates) :
    Named g { f with timeCoord := f.timeCoord.disconnect.1, state := state } :=
  ⟨h.globalId, f.timeCoord.disconnect_retabled.sourceId.trans h.sourceId⟩

section
variable (cmd : ActionMessage)
include cmd

theorem Named.processTimeBlock : Answers g cmd f (f.processTimeBlock cmd) := by
  apply h.processThen
  · intro f hf
    split
    · exact hf.execCheck
    · exact hf.timeCheck
    · exact hf
  · intro f
    split
    · exact f.execCheck_ne_delay
    · exact f.timeCheck_ne_delay
    · exact nofun

theorem Named.processDisconnect : Answers g cmd f (f.processDisconnect cmd) := by
  unfold FederateState.processDisconnect
  split
  · split
    · exact answers_of_ne h nofun
    · exact answers_of_ne (h.disconnect _) nofun
  · exact h.processThen cmd _ (fun _ => Named.timeCheck) timeCheck_ne_delay

theorem Named.acknowledgeDisconnect : Answers g cmd f (f.acknowledgeDisconnect cmd) := by
  unfold FederateState.acknowledgeDisconnect
  split
  · split
    · exact answers_of_ne ⟨h.globalId, h.sourceId⟩ nofun
    · exact answers_of_ne (h.disconnect _) nofun
  · exact answers_of_ne h nofun

theorem Named.startTimeRequest (v m : Time) : Named g (f.startTimeRequest cmd v m).1 :=
  ⟨h.globalId, (congrArg (·.sourceId) (f.timeCoord.withRequest_eq _ _) :).trans h.sourceId⟩

theorem Named.startExecRequest : Named g (f.startExecRequest cmd).1 :=
  ⟨h.globalId, (congrArg (·.sourceId) (f.timeCoord.enteringExecMode_eq _) :).trans h.sourceId⟩

theorem Named.receiveMessage : Named g (f.receiveMessage cmd).1 := by
  unfold FederateState.receiveMessage
  split
  · exact ⟨h.globalId, (f.timeCoord.updateMessageTime_retabled _).sourceId.trans h.sourceId⟩
  · exact h

end

end

theorem Named.receivePublication (h : Named g f) (cmd : ActionMessage) :
    Named g (f.receivePublication cmd).1 := by
  unfold FederateState.receivePublication
  split
  · exact h
  split
  · exact h
  refine ⟨h.globalId, List.foldlRecOn (motive := fun r : TimeCoordinator × List ActionMessage =>
    r.1.sourceId = g) _ _ h.sourceId fun r hr _ _ => ?_⟩
  exact (r.1.updateValueTime_retabled _).sourceId.trans hr

theorem Named.processActionMessage (h : Named g f) (cmd : ActionMessage) (v m : Time) :
    Answers g cmd f (f.processActionMessage cmd v m) := by
  have htime : Answers g cmd f (f.processThen cmd FederateState.timeCheck) :=
    h.processThen cmd _ (fun _ => Named.timeCheck) timeCheck_ne_delay
  have hexec : Answers g cmd f (f.processThen cmd FederateState.execCheck) :=
    h.processThen cmd _ (fun _ => Named.execCheck) execCheck_ne_delay
  have hupdate : Answers g cmd f (.continueProcessing,
      if cmd.destId = f.globalId then
        { f with timeCoord := f.timeCoord.processDependencyUpdateMessage cmd }
      else f, []) := by
    refine ⟨?_, nofun, nofun⟩
    split
    · exact ⟨h.globalId,
        (congrArg (·.sourceId) (f.timeCoord.processDependencyUpdateMessage_eq cmd) :).trans
          h.sourceId⟩
    · exact h
  unfold FederateState.processActionMessage
  split
  · exact h.processTimeBlock cmd
  · exact h.processTimeBlock cmd
  · split
    · exact answers_of_ne (h.startExecRequest cmd) nofun
    · exact hexec
  · exact hexec
  · exact answers_of_ne h.execCheck f.execCheck_ne_delay
  · exact answers_of_ne ⟨h.globalId, h.sourceId⟩ nofun
  · exact answers_of_ne (h.disconnect _) nofun
  · exact h.acknowledgeDisconnect cmd
  · exact h.processDisconnect cmd
  · exact h.processDisconnect cmd
  · exact htime
  · exact htime
  · exact htime
  · split
    · exact answers_of_ne (h.startTimeRequest cmd v m) nofun
    · exact htime
  · exact htime
  · exact answers_of_ne h.timeCheck f.timeCheck_ne_delay
  · unfold FederateState.forceTimeGrant
    split
    · exact answers_of_ne h nofun
    · exact answers_of_ne
        ⟨h.globalId, (f.timeCoord.processTimeMessage_retabled cmd).sourceId.trans h.sourceId⟩ nofun
  · exact answers_of_ne (h.receiveMessage cmd) nofun
  · exact answers_of_ne (h.receivePublication cmd) nofun
  · exact answers_of_ne ⟨h.globalId, h.sourceId⟩ nofun
  all_goals first
    | exact hupdate
    | exact answers_of_ne h nofun

/-- A federate with the commands it has sent is a handler of the commands in its queue. A request
finds the next value and message times of the interfaces as they are at that moment. -/
def handler (g : GlobalId) :
    CommandHandler ({ f : FederateState // Named g f } × List ActionMessage) (Time × Time) where
  globalId := g
  ended f := decide (f.1.1.state = .finished) || decide (f.1.1.state = .error)
  process f cmd :=
    -- the own requests, which alone read these times, go through `start`
    let r := f.1.1.processActionMessage cmd .maxVal .maxVal
    (r.1, ⟨r.2.1, (f.1.2.processActionMessage cmd _ _).named⟩, f.2 ++ r.2.2)
  start next f cmd :=
    if cmd.messageAction = .cmdExecRequest then
      (⟨(f.1.1.startExecRequest cmd).1, f.1.2.startExecRequest cmd⟩,
        f.2 ++ (f.1.1.startExecRequest cmd).2)
    else
      (⟨(f.1.1.startTimeRequest cmd next.1 next.2).1, f.1.2.startTimeRequest cmd _ _⟩,
        f.2 ++ (f.1.1.startTimeRequest cmd next.1 next.2).2)
  check f cmd :=
    if cmd.messageAction = .cmdExecRequest then
      (f.1.1.execCheck.1, ⟨f.1.1.execCheck.2.1, f.1.2.execCheck⟩, f.2 ++ f.1.1.execCheck.2.2)
    else (f.1.1.timeCheck.1, ⟨f.1.1.timeCheck.2.1, f.1.2.timeCheck⟩, f.2 ++ f.1.1.timeCheck.2.2)
  delayable f cmd hd := (f.1.2.processActionMessage cmd _ _).foreign hd
  unchanged f cmd hd := by
    have hkeep := (f.1.2.processActionMessage cmd .maxVal .maxVal).unchanged hd
    apply Prod.ext
    · exact Subtype.ext (congrArg Prod.fst hkeep)
    · show f.2 ++ _ = f.2
      rw [congrArg Prod.snd hkeep, List.append_nil]
  checked f cmd := by
    split
    · exact f.1.1.execCheck_ne_delay
    · exact f.1.1.timeCheck_ne_delay

end FederateState

end Helics
