import Helics.TimeRequests
import Mathlib.Data.List.Induction

namespace Helics

namespace TimeCoordinator

/-- The smallest time of the blocks, and the latest time if there is none. -/
structure Earliest (blocks : List (Time × Int)) (t : Time) : Prop where
  le : ∀ b ∈ blocks, t ≤ b.1
  least : t = .maxVal ∨ ∃ b ∈ blocks, t = b.1

theorem earliest_nil : Earliest [] .maxVal :=
  ⟨fun _ hb => absurd hb List.not_mem_nil, .inl rfl⟩

theorem Earliest.append (h : Earliest blocks t) (b : Time × Int) :
    Earliest (blocks ++ [b]) (min t b.1) := by
  refine ⟨fun b' hb' => ?_, ?_⟩
  · obtain hb' | hb' := List.mem_append.mp hb'
    · exact (min_le_left _ _).trans (h.le b' hb')
    · exact List.mem_singleton.mp hb' ▸ min_le_right _ _
  · obtain hle | hle := le_total t b.1
    · rw [min_eq_left hle]
      exact h.least.imp_right fun ⟨b', hb', ht⟩ => ⟨b', List.mem_append_left _ hb', ht⟩
    · rw [min_eq_right hle]
      exact .inr ⟨b, List.mem_append_right _ (List.mem_singleton.mpr rfl), rfl⟩

theorem earliest_earliestBlock (blocks : List (Time × Int)) :
    Earliest blocks (earliestBlock blocks) := by
  induction blocks using List.reverseRecOn with
  | nil => exact earliest_nil
  | append_singleton blocks b ih =>
    have hlast : earliestBlock (blocks ++ [b]) = min (earliestBlock blocks) b.1 := by
      unfold earliestBlock
      rw [List.map_append, List.foldl_append]
      rfl
    rw [hlast]
    exact ih.append b

theorem Earliest.perm (h : Earliest blocks t) (hp : blocks.Perm blocks') : Earliest blocks' t :=
  ⟨fun b hb => h.le b (hp.mem_iff.mpr hb),
    h.least.imp_right fun ⟨b, hb, ht⟩ => ⟨b, hp.mem_iff.mp hb, ht⟩⟩

/-- What an unblock may do: it takes away one block with its identifier, or there is none. -/
inductive Unblocked (messageID : Int) (blocks blocks' : List (Time × Int)) : Prop
  | removed (b : Time × Int) (hb : b.2 = messageID) (h : blocks.Perm (b :: blocks'))
  | unmatched (h : ∀ b ∈ blocks, b.2 ≠ messageID) (heq : blocks' = blocks)

inductive BlockEffect (cmd : ActionMessage) (blocks blocks' : List (Time × Int)) : Prop
  | block (ha : cmd.messageAction = .cmdTimeBlock)
      (h : blocks' = blocks ++ [(cmd.actionTime, cmd.messageID)])
  | unblock (ha : cmd.messageAction = .cmdTimeUnblock) (h : Unblocked cmd.messageID blocks blocks')
  | other (ha : cmd.messageAction ≠ .cmdTimeBlock) (ha' : cmd.messageAction ≠ .cmdTimeUnblock)
      (h : blocks' = blocks)

/-- The cached time is the smallest time of the outstanding blocks. -/
def BlocksCached (c : TimeCoordinator) : Prop := Earliest c.timeBlocks c.timeBlock

structure SameBlocks (c c' : TimeCoordinator) : Prop where
  blocks : c'.timeBlocks = c.timeBlocks
  block : c'.timeBlock = c.timeBlock

theorem SameBlocks.of_eq (h : c' = d) (hb : d.timeBlocks = c.timeBlocks)
    (ht : d.timeBlock = c.timeBlock) : SameBlocks c c' :=
  h ▸ ⟨hb, ht⟩

theorem BlocksCached.same (h : BlocksCached c) (hs : SameBlocks c c') : BlocksCached c' := by
  unfold BlocksCached
  rw [hs.blocks, hs.block]
  exact h

theorem unblock_blocks (c : TimeCoordinator) (messageID : Int) :
    (c.unblock messageID).2.timeBlocks =
      c.timeBlocks.eraseP (fun b => decide (b.2 = messageID)) := by
  unfold unblock
  split
  · rename_i hnil
    rw [hnil]
    rfl
  · dsimp only
    split <;> split <;> rfl

theorem unblocked_eraseP (blocks : List (Time × Int)) (messageID : Int) :
    Unblocked messageID blocks (blocks.eraseP fun b => decide (b.2 = messageID)) := by
  by_cases hm : ∃ b ∈ blocks, b.2 = messageID
  · obtain ⟨b, hb, hid⟩ := hm
    obtain ⟨b', l₁, l₂, -, hid', heq, herase⟩ :=
      List.exists_of_eraseP (p := fun b => decide (b.2 = messageID)) hb (decide_eq_true hid)
    refine .removed b' (of_decide_eq_true hid') ?_
    rw [herase, heq]
    exact List.perm_middle
  · have hno : ∀ b ∈ blocks, b.2 ≠ messageID := fun b hb hid => hm ⟨b, hb, hid⟩
    exact .unmatched hno (List.eraseP_of_forall_not fun b hb h => hno b hb (of_decide_eq_true h))

variable {c : TimeCoordinator}

theorem unblock_cached (h : BlocksCached c) (messageID : Int) :
    BlocksCached (c.unblock messageID).2 := by
  unfold unblock
  split
  · exact h
  generalize hfound : c.timeBlocks.find? (fun b => decide (b.2 = messageID)) = found
  cases found with
  | none =>
    have hno := List.find?_eq_none.mp hfound
    have hsame : c.timeBlocks.eraseP (fun b => decide (b.2 = messageID)) = c.timeBlocks :=
      List.eraseP_of_forall_not hno
    dsimp only
    split
    · exact earliest_earliestBlock _
    unfold BlocksCached
    rw [hsame]
    exact h
  | some b =>
    dsimp only
    split
    · exact earliest_earliestBlock _
    rename_i hlt
    have hperm : c.timeBlocks.Perm
        (b :: c.timeBlocks.eraseP (fun b => decide (b.2 = messageID))) := by
      obtain ⟨hid, l₁, l₂, heq, hpre⟩ := List.find?_eq_some_iff_append.mp hfound
      have herase : (b :: l₂).eraseP (fun b => decide (b.2 = messageID)) = l₂ :=
        List.eraseP_cons_of_pos hid
      rw [heq, List.eraseP_append_right _ fun b' hb' => by simpa using hpre b' hb', herase]
      exact List.perm_middle
    refine ⟨fun b' hb' => (Earliest.perm h hperm).le b' (List.mem_cons_of_mem _ hb'), ?_⟩
    obtain ht | ⟨b', hb', ht⟩ := (Earliest.perm h hperm).least
    · exact .inl ht
    refine .inr ⟨b', ?_, ht⟩
    obtain rfl | hb' := List.mem_cons.mp hb'
    · exact absurd ht (not_le.mp hlt).ne
    · exact hb'

theorem processTimeBlockMessage_cached (h : BlocksCached c)
    (cmd : ActionMessage) : BlocksCached (c.processTimeBlockMessage cmd).2 := by
  unfold processTimeBlockMessage
  split
  · have hmin : (if cmd.actionTime < c.timeBlock then cmd.actionTime else c.timeBlock) =
        min c.timeBlock cmd.actionTime := by
      split
      · rename_i hlt
        exact (min_eq_right hlt.le).symm
      · rename_i hge
        exact (min_eq_left (not_lt.mp hge)).symm
    unfold BlocksCached
    rw [hmin]
    exact Earliest.append h (cmd.actionTime, cmd.messageID)
  · exact unblock_cached h cmd.messageID
  · exact h

theorem processTimeMessage_blocks (c : TimeCoordinator) (cmd : ActionMessage) :
    (c.processTimeMessage cmd).2.1 = (c.processTimeBlockMessage cmd).2 ∧
        (cmd.messageAction = .cmdTimeBlock ∨ cmd.messageAction = .cmdTimeUnblock) ∨
      SameBlocks c (c.processTimeMessage cmd).2.1 ∧ cmd.messageAction ≠ .cmdTimeBlock ∧
        cmd.messageAction ≠ .cmdTimeUnblock := by
  have hleave := processDependencyTime_eq (c.removeDependent cmd.sourceId) cmd
  have hdep := c.processDependencyTime_eq cmd
  unfold processTimeMessage forceTimeGrant
  split
  case h_1 ha => exact .inl ⟨rfl, .inl ha⟩
  case h_2 ha => exact .inl ⟨rfl, .inr ha⟩
  case h_3 ha =>
    refine .inr ⟨?_, by rw [ha]; decide, by rw [ha]; decide⟩
    split <;> exact ⟨rfl, rfl⟩
  case h_9 hb hu _ _ _ _ _ _ => exact .inr ⟨.of_eq hdep rfl rfl, hb, hu⟩
  all_goals
    rename_i ha
    exact .inr ⟨.of_eq hleave rfl rfl, by rw [ha]; decide, by rw [ha]; decide⟩

theorem processTimeMessage_effect (c : TimeCoordinator) (cmd : ActionMessage) :
    BlockEffect cmd c.timeBlocks (c.processTimeMessage cmd).2.1.timeBlocks := by
  obtain ⟨heq, hb | hu⟩ | ⟨hs, hb, hu⟩ := c.processTimeMessage_blocks cmd
  · refine .block hb ?_
    rw [heq]
    unfold processTimeBlockMessage
    rw [hb]
  · refine .unblock hu ?_
    rw [heq]
    unfold processTimeBlockMessage
    rw [hu]
    rw [unblock_blocks]
    exact unblocked_eraseP _ _
  · exact .other hb hu hs.blocks

theorem processTimeMessage_cached (h : BlocksCached c) (cmd : ActionMessage) :
    BlocksCached (c.processTimeMessage cmd).2.1 := by
  obtain ⟨heq, -⟩ | ⟨hs, -⟩ := c.processTimeMessage_blocks cmd
  · rw [heq]
    exact processTimeBlockMessage_cached h cmd
  · exact h.same hs

theorem checkTimeGrant_sameBlocks (c : TimeCoordinator) : SameBlocks c c.checkTimeGrant.2.1 := by
  unfold checkTimeGrant
  dsimp only
  split
  · rw [disconnect_eq]
    exact ⟨rfl, rfl⟩
  split
  · exact ⟨rfl, rfl⟩
  rw [countIteration_eq]
  split
  · exact ⟨rfl, rfl⟩
  · split <;> exact ⟨rfl, rfl⟩

theorem checkExecEntry_sameBlocks (c : TimeCoordinator) : SameBlocks c c.checkExecEntry.2.1 := by
  unfold checkExecEntry
  split
  · exact ⟨rfl, rfl⟩
  · split
    · exact ⟨rfl, rfl⟩
    · split <;> exact ⟨rfl, rfl⟩

inductive Operation where
  | enteringExecMode (mode : IterationRequest)
  | checkExecEntry
  | timeRequest (nextTime : Time) (iterate : IterationRequest) (newValueTime newMessageTime : Time)
  | updateValueTime (updateTime : Time)
  | updateMessageTime (updateTime : Time)
  | processTimeMessage (cmd : ActionMessage)
  | processDependencyUpdateMessage (cmd : ActionMessage)
  | checkTimeGrant
  | disconnect
  | setProperty (timeProperty : TimeProperty) (propertyVal : Time)
  | setOptionFlag (uninterruptible : Bool)

def operate (c : TimeCoordinator) : Operation → TimeCoordinator
  | .enteringExecMode mode => (c.enteringExecMode mode).1
  | .checkExecEntry => c.checkExecEntry.2.1
  | .timeRequest t iterate v m => (c.timeRequest t iterate v m).1
  | .updateValueTime t => (c.updateValueTime t).1
  | .updateMessageTime t => (c.updateMessageTime t).1
  | .processTimeMessage cmd => (c.processTimeMessage cmd).2.1
  | .processDependencyUpdateMessage cmd => c.processDependencyUpdateMessage cmd
  | .checkTimeGrant => c.checkTimeGrant.2.1
  | .disconnect => c.disconnect.1
  | .setProperty p v => c.setProperty p v
  | .setOptionFlag b => c.setOptionFlag b

theorem BlocksCached.operate (h : BlocksCached c) (op : Operation) :
    BlocksCached (c.operate op) := by
  cases op with
  | enteringExecMode mode => exact h.same (.of_eq (c.enteringExecMode_eq mode) rfl rfl)
  | checkExecEntry => exact h.same c.checkExecEntry_sameBlocks
  | timeRequest t iterate v m =>
    have he := c.withRequest_eq t iterate
    exact h.same ⟨(congrArg timeBlocks he :), (congrArg timeBlock he :)⟩
  | updateValueTime t => exact h.same (.of_eq (c.updateValueTime_eq t) rfl rfl)
  | updateMessageTime t => exact h.same (.of_eq (c.updateMessageTime_eq t) rfl rfl)
  | processTimeMessage cmd => exact processTimeMessage_cached h cmd
  | processDependencyUpdateMessage cmd =>
    exact h.same (.of_eq (c.processDependencyUpdateMessage_eq cmd) rfl rfl)
  | checkTimeGrant => exact h.same c.checkTimeGrant_sameBlocks
  | disconnect => exact h.same (.of_eq c.disconnect_eq rfl rfl)
  | setProperty p v => cases p <;> exact h
  | setOptionFlag b => exact h

theorem BlocksCached.after (h : BlocksCached c) (ops : List Operation) :
    BlocksCached (ops.foldl TimeCoordinator.operate c) := by
  induction ops generalizing c with
  | nil => exact h
  | cons op ops ih => exact ih (h.operate op)

theorem BlocksCached.checkExecEntry (h : BlocksCached c)
    (hb : b ∈ c.timeBlocks) (hz : b.1 ≤ .zero) :
    c.checkExecEntry = (.continueProcessing, c, []) := by
  unfold TimeCoordinator.checkExecEntry
  rw [if_pos ((h.le b hb).trans hz)]

/-- A check sets the granted time only to times before every outstanding block. -/
structure RespectsBlocks (c : TimeCoordinator) : Prop where
  granted : c.checkTimeGrant.1 ≠ .continueProcessing →
    ∀ b ∈ c.timeBlocks, c.checkTimeGrant.2.1.timeGranted < b.1
  waiting : c.checkTimeGrant.1 = .continueProcessing →
    c.checkTimeGrant.2.1.timeGranted = c.timeGranted

theorem checkTimeGrant_halted (he : c.nextExecutionTime = .maxVal)
    (ha : c.allowedTime = .maxVal) :
    c.checkTimeGrant.1 = .halted ∧ c.checkTimeGrant.2.1.timeGranted = .maxVal := by
  have h : c.updateTimeFactors.2.timeExec = .maxVal ∧ c.updateTimeFactors.2.timeAllow = .maxVal :=
    ⟨he, ha⟩
  unfold checkTimeGrant
  rw [if_pos h]
  exact ⟨rfl, (disconnect_sameRequest _).granted⟩

theorem BlocksCached.respects (h : BlocksCached c)
    (hn : ¬ (c.nextExecutionTime = .maxVal ∧ c.allowedTime = .maxVal)) : RespectsBlocks c := by
  have hn' : ¬ (c.updateTimeFactors.2.timeExec = .maxVal ∧
      c.updateTimeFactors.2.timeAllow = .maxVal) := hn
  have hc := c.updateTimeFactors_sameRequest.trans (countIteration_sameRequest _)
  constructor
  · intro hres b hb
    revert hres
    unfold checkTimeGrant
    rw [if_neg hn']
    split
    · exact fun hres => absurd rfl hres
    rename_i hlt
    split
    · intro _
      have hexec : c.updateTimeFactors.2.countIteration.timeExec < c.timeBlock :=
        (countIteration_exec _).symm ▸ not_le.mp hlt
      exact hexec.trans_le (h.le b hb)
    · split <;> exact fun hres => absurd rfl hres
  · unfold checkTimeGrant
    rw [if_neg hn']
    split
    · exact fun _ => rfl
    · split
      · split <;> exact fun hres => nomatch hres
      · split <;> exact fun _ => hc.granted

theorem BlocksCached.respects_iff (h : BlocksCached c) : RespectsBlocks c ↔
      c.timeBlocks = [] ∨ ¬ (c.nextExecutionTime = .maxVal ∧ c.allowedTime = .maxVal) := by
  constructor
  · intro hr
    by_contra hno
    obtain ⟨hne, hmax⟩ := not_or.mp hno
    obtain ⟨he, ha⟩ := not_not.mp hmax
    obtain ⟨hres, hgr⟩ := checkTimeGrant_halted he ha
    obtain ⟨b, hb⟩ := List.exists_mem_of_ne_nil _ hne
    have hlt := hr.granted (by rw [hres]; exact nofun) b hb
    rw [hgr] at hlt
    exact absurd hlt (not_lt.mpr b.1.le_maxVal)
  · rintro (hnil | hn)
    · by_cases hmax : c.nextExecutionTime = .maxVal ∧ c.allowedTime = .maxVal
      · obtain ⟨hres, -⟩ := checkTimeGrant_halted hmax.1 hmax.2
        refine ⟨fun _ b hb => ?_, fun hc => ?_⟩
        · rw [hnil] at hb
          exact absurd hb List.not_mem_nil
        · rw [hres] at hc
          cases hc
      · exact h.respects hmax
    · exact h.respects hn

/-- In every state of every run the cached block is the smallest outstanding one, a message takes
away at most one block of its own identifier, a block holds back the entry to execution, and it
holds back a grant exactly if the check does not find the end of time. -/
theorem blocks_hold_iff (c₀ : TimeCoordinator) (hb : c₀.timeBlocks = [])
    (ht : c₀.timeBlock = .maxVal) (ops : List Operation) : let c := ops.foldl operate c₀
    Earliest c.timeBlocks c.timeBlock ∧
      (∀ cmd, BlockEffect cmd c.timeBlocks (c.processTimeMessage cmd).2.1.timeBlocks) ∧
      (∀ b ∈ c.timeBlocks, b.1 ≤ .zero → c.checkExecEntry = (.continueProcessing, c, [])) ∧
      (RespectsBlocks c ↔
        c.timeBlocks = [] ∨ ¬ (c.nextExecutionTime = .maxVal ∧ c.allowedTime = .maxVal)) := by
  have h₀ : BlocksCached c₀ := by
    unfold BlocksCached
    rw [hb, ht]
    exact earliest_nil
  have h := h₀.after ops
  exact ⟨h, processTimeMessage_effect _, fun b hb hz => h.checkExecEntry hb hz, h.respects_iff⟩

def blockAt (t : Int) (messageID : Int) : ActionMessage :=
  { messageAction := .cmdTimeBlock, actionTime := .wrap t, messageID := messageID }

/-- A federate without dependencies that asks for the end of time gets it despite a block at 5. -/
theorem blocked_federate_halts :
    let c := [Operation.enteringExecMode .noIterations, .checkExecEntry,
      .processTimeMessage (blockAt 5 1), .timeRequest .maxVal .noIterations .maxVal .maxVal].foldl
      operate {}
    c.timeBlocks = [(.wrap 5, 1)] ∧ c.timeGranted = .zero ∧ c.checkTimeGrant.1 = .halted ∧
      c.checkTimeGrant.2.1.timeGranted = .maxVal ∧ ¬ RespectsBlocks c := by
  refine ⟨by decide, by decide, by decide +kernel, by decide +kernel, fun h => ?_⟩
  have hlt := h.granted (by decide +kernel) (.wrap 5, 1) (by decide)
  exact absurd hlt (by decide +kernel)

theorem blocks_hold_before_five :
    let c := [Operation.enteringExecMode .noIterations, .checkExecEntry,
      .processTimeMessage (blockAt 5 1),
        .timeRequest (.wrap 10) .noIterations .maxVal .maxVal].foldl
      operate {}
    c.timeBlock = .wrap 5 ∧ RespectsBlocks c :=
  ⟨by decide, (blocks_hold_iff {} rfl rfl _).2.2.2.mpr (.inr (by decide +kernel))⟩

end TimeCoordinator

end Helics
