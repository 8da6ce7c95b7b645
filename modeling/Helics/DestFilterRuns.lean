import Helics.DestFilterPairing

namespace Helics

open Invariants (Run)

namespace CommonCore

theorem effectMark_message (hc : Carries (cmd.setAction .cmdSendMessage) e)
    (hr : e.recipient = some fed) (hcmd : isDestReply cmd.messageAction = true)
    (home : GlobalId → Bool) (mid : Int) :
    effectMark home mid cmd e = if mid = cmd.messageID then some (.message fed) else none := by
  unfold effectMark
  rw [carried_of_carries hc, hr]
  by_cases h : mid = cmd.messageID
  · simp [ActionMessage.setAction, h, hcmd]
  · simp [ActionMessage.setAction, h, Ne.symm h]

theorem filterMap_plain {es : List CoreEffect} (h : ∀ e ∈ es, Plain home e) (mid : Int)
    (cmd : ActionMessage) : es.filterMap (effectMark home mid cmd) = [] := by
  apply List.filterMap_eq_nil_iff.mpr
  intro e he
  exact effectMark_eq_none (h e he).1 fun m hm _ => (h e he).2 m hm

theorem replyMark_other (h : mid ≠ cmd.messageID) : replyMark mid cmd = [] := by
  unfold replyMark
  rw [if_neg (Ne.symm h)]

section
variable [DualMapped String GlobalId]

theorem effectMark_unblock {c : CommonCore} (hc : Carries (c.removeTimeBlock fed n) e)
    (hr : e.recipient = some fed') (home : GlobalId → Bool) (mid : Int) (cmd : ActionMessage) :
    effectMark home mid cmd e = if mid = n then some (.unblock fed') else none := by
  unfold effectMark
  rw [carried_of_carries hc, hr]
  by_cases h : mid = n
  · simp [removeTimeBlock, h]
  · simp [removeTimeBlock, h, Ne.symm h]

theorem destInv_reply (h : DestInv start s) (hsame : SameHome start.ownsEndpoint s.core c')
    (hcount : c'.messageCounter = s.core.messageCounter) (hknown : cmd.messageID ∈ s.drawn)
    (hother : ∀ mid, mid ≠ cmd.messageID → ∀ fed, (fed, mid) ∈ c'.ongoingDestFilterProcesses ↔
      (fed, mid) ∈ s.core.ongoingDestFilterProcesses)
    (hmarks : ∀ mid, mid ≠ cmd.messageID → stepMarks start.ownsEndpoint mid cmd es = [])
    (hpaired : Paired c' cmd.messageID (s.marks start.ownsEndpoint cmd.messageID ++
      stepMarks start.ownsEndpoint cmd.messageID cmd es))
    (hnone : ∀ e ∈ es, ∀ q, e.carried = some q →
      q.messageAction = .cmdSendForDestFilterAndReturn → Silent start.ownsEndpoint e) :
    DestInv start (s.record cmd (c', es) []) := by
  have hdrawn : (s.record cmd (c', es) []).drawn = s.drawn := List.append_nil _
  refine ⟨hsame.endpoints.trans h.endpoints, hsame.federates h.federates, hsame.clean h.clean,
    ?_, by rw [hdrawn]; exact h.drawn, ?_, ?_, ?_⟩
  · rw [hdrawn, ← h.number]
    exact congrArg nextMessageId hcount
  · intro mid
    rw [marks_record]
    by_cases hmid : mid = cmd.messageID
    · rw [hmid]
      exact hpaired
    · rw [hmarks mid hmid, List.append_nil]
      exact (h.paired mid).congr hsame.endpoints (hother mid hmid)
  · intro mid hne
    rw [hdrawn]
    by_cases hmid : mid = cmd.messageID
    · rw [hmid]
      exact hknown
    · rw [marks_record, hmarks mid hmid, List.append_nil] at hne
      exact h.known mid hne
  · intro q hq
    cases requested_record hq with
    | inl hq =>
      obtain ⟨ept, hept, hreq, hcoord, hmark⟩ := h.requested q hq
      rw [← hsame.endpoints] at hept
      rw [← hsame.filterCoord] at hcoord
      rw [marks_record]
      exact ⟨ept, hept, hreq, hcoord, List.mem_append_left _ hmark⟩
    | inr hq =>
      obtain ⟨e, he, hloud, hcarried, hact⟩ := hq
      exact absurd (hnone e he q hcarried hact) hloud

theorem sameHome_eraseDestRequest (home : GlobalId → Bool) (c : CommonCore) (fed : GlobalId)
    (mid : Int) : SameHome home c (c.eraseDestRequest fed mid) :=
  ⟨rfl, rfl, fun _ h => h, rfl, rfl, fun h => h⟩

theorem mem_eraseDestRequest (c : CommonCore) (fed : GlobalId) (n : Int) (p : GlobalId × Int) :
    p ∈ (c.eraseDestRequest fed n).ongoingDestFilterProcesses ↔
      p ∈ c.ongoingDestFilterProcesses ∧ p ≠ (fed, n) := by
  simp [eraseDestRequest]

theorem erased_none {c c' : CommonCore}
    (hon : c'.ongoingDestFilterProcesses = (c.eraseDestRequest fed n).ongoingDestFilterProcesses)
    (h : ∀ fed', (fed', n) ∈ c.ongoingDestFilterProcesses ↔ fed' = fed) (fed' : GlobalId) :
    (fed', n) ∉ c'.ongoingDestFilterProcesses := by
  rw [hon, mem_eraseDestRequest, h]
  rintro ⟨rfl, hne⟩
  exact hne rfl

theorem Paired.settle_dropped (h : Paired c n l) (hin : (fed, n) ∈ c.ongoingDestFilterProcesses)
    (hend : c'.endpoints = c.endpoints)
    (hon : c'.ongoingDestFilterProcesses = (c.eraseDestRequest fed n).ongoingDestFilterProcesses) :
    Paired c' n (l ++ [.drop fed, .unblock fed]) := by
  obtain ⟨rfl, hown, honly⟩ := h.of_ongoing hin
  exact .dropped (l := []) ((ownsEndpoint_eq hend fed).trans hown) (erased_none hon honly)
    (fun mark hm => absurd hm List.not_mem_nil)

theorem Paired.settle_delivered (h : Paired c n l) (hin : (fed, n) ∈ c.ongoingDestFilterProcesses)
    (hend : c'.endpoints = c.endpoints)
    (hon : c'.ongoingDestFilterProcesses = (c.eraseDestRequest fed n).ongoingDestFilterProcesses) :
    Paired c' n (l ++ [.result fed, .message fed, .unblock fed]) := by
  obtain ⟨rfl, hown, honly⟩ := h.of_ongoing hin
  exact .delivered (l := []) ((ownsEndpoint_eq hend fed).trans hown) (erased_none hon honly)
    (fun mark hm => absurd hm List.not_mem_nil)

section
variable {start : CommonCore} {s : DestRun} {ept : BasicHandleInfo} {cmd : ActionMessage}

theorem destInv_late (h : DestInv start s) (hept : ept ∈ s.core.endpoints.entries)
    (hh : cmd.destHandle = ept.getInterfaceHandle) (hcmd : isDestReply cmd.messageAction = true)
    (hmark : .request ept.getFederateId ∈ s.marks start.ownsEndpoint cmd.messageID)
    (hno : (ept.getFederateId, cmd.messageID) ∉ s.core.ongoingDestFilterProcesses) :
    DestInv start (s.record cmd (s.core.processDestFilterReturn cmd) []) := by
  rw [destFilterReturn_ignored hept hh hno]
  refine destInv_reply h ⟨rfl, rfl, fun _ h => h, rfl, rfl, fun h => h⟩ rfl
    (h.known _ (List.ne_nil_of_mem hmark)) (fun _ _ _ => Iff.rfl) ?_ ?_
    (fun e he => absurd he List.not_mem_nil)
  · intro mid hmid
    unfold stepMarks
    rw [replyMark_other hmid]
    rfl
  · unfold stepMarks replyMark
    rw [if_pos rfl]
    split
    · exact (h.paired _).late hmark hno rfl
    · exact (h.paired _).late hmark hno rfl
    case h_3 hres hnull =>
      cases ha : cmd.messageAction
      all_goals simp_all [isDestReply]

theorem destInv_dropped (h : DestInv start s) (hept : ept ∈ s.core.endpoints.entries)
    (hh : cmd.destHandle = ept.getInterfaceHandle) (hfed : cmd.destId = ept.getFederateId)
    (ha : cmd.messageAction = .cmdNullDestMessage)
    (hmark : .request ept.getFederateId ∈ s.marks start.ownsEndpoint cmd.messageID)
    (hin : (ept.getFederateId, cmd.messageID) ∈ s.core.ongoingDestFilterProcesses) :
    DestInv start (s.record cmd (s.core.processDestFilterReturn cmd) []) := by
  obtain ⟨e, heq, hc, hrec⟩ := destFilterReturn_dropped hept hh hfed (h.federates ept hept) hin ha
  have hmarks (mid : Int) : stepMarks start.ownsEndpoint mid cmd [e] =
      if mid = cmd.messageID then [.drop ept.getFederateId, .unblock ept.getFederateId]
      else [] := by
    unfold stepMarks
    rw [List.filterMap_cons, effectMark_unblock hc hrec, List.filterMap_nil]
    by_cases hmid : mid = cmd.messageID
    · simp [replyMark, hmid, ha, hfed]
    · simp [replyMark_other hmid, hmid]
  rw [heq]
  refine destInv_reply h (sameHome_eraseDestRequest _ _ _ _) rfl
    (h.known _ (List.ne_nil_of_mem hmark)) ?_ ?_ ?_ ?_
  · intro mid hmid fed
    rw [mem_eraseDestRequest]
    simp [hmid]
  · intro mid hmid
    rw [hmarks, if_neg hmid]
  · rw [hmarks, if_pos rfl]
    exact (h.paired _).settle_dropped hin rfl rfl
  · intro e' he' q hq hact
    obtain rfl := List.mem_singleton.mp he'
    rw [carried_of_carries hc] at hq
    obtain rfl := Option.some.inj hq
    cases hact

theorem destInv_delivered (h : DestInv start s) (hept : ept ∈ s.core.endpoints.entries)
    (hh : cmd.destHandle = ept.getInterfaceHandle) (hfed : cmd.destId = ept.getFederateId)
    (hcoord : (s.core.filterCoord.lookup ept.getInterfaceHandle).isSome = true)
    (ha : cmd.messageAction = .cmdDestFilterResult)
    (hmark : .request ept.getFederateId ∈ s.marks start.ownsEndpoint cmd.messageID)
    (hin : (ept.getFederateId, cmd.messageID) ∈ s.core.ongoingDestFilterProcesses) :
    DestInv start (s.record cmd (s.core.processDestFilterReturn cmd) []) := by
  obtain ⟨c', clones, e₁, e₂, heq, hsame, hclones, ⟨hc₁, hr₁⟩, hc₂, hr₂⟩ :=
    destFilterReturn_result h.own hept hh hfed (h.federates ept hept) hcoord hin ha
  have hcmd : isDestReply cmd.messageAction = true := by rw [ha]; rfl
  have htime (mid : Int) :
      effectMark start.ownsEndpoint mid cmd (.timeMessage cmd) = none := by
    unfold effectMark
    simp [CoreEffect.carried, CoreEffect.recipient, ha]
  have hmarks (mid : Int) : stepMarks start.ownsEndpoint mid cmd
      (clones ++ [.timeMessage cmd] ++ [e₁] ++ [e₂]) = if mid = cmd.messageID then
        [.result ept.getFederateId, .message ept.getFederateId, .unblock ept.getFederateId]
      else [] := by
    unfold stepMarks
    simp only [List.filterMap_append, filterMap_plain hclones, List.filterMap_cons, htime,
      effectMark_message hc₁ hr₁ hcmd, effectMark_unblock hc₂ hr₂, List.filterMap_nil]
    by_cases hmid : mid = cmd.messageID
    · simp [replyMark, hmid, ha, hfed]
    · simp [replyMark_other hmid, hmid]
  rw [heq]
  refine destInv_reply h ((sameHome_eraseDestRequest _ _ _ _).trans hsame.toSameHome) hsame.counter
    (h.known _ (List.ne_nil_of_mem hmark)) ?_ ?_ ?_ ?_
  · intro mid hmid fed
    rw [hsame.ongoingDest, mem_eraseDestRequest]
    simp [hmid]
  · intro mid hmid
    rw [hmarks, if_neg hmid]
  · rw [hmarks, if_pos rfl]
    exact (h.paired _).settle_delivered hin hsame.endpoints hsame.ongoingDest
  · intro e he q hq hact
    simp only [List.mem_append, List.mem_singleton] at he
    obtain ((he | rfl) | rfl) | rfl := he
    · exact (hclones e he).1
    · obtain rfl := Option.some.inj hq
      rw [ha] at hact
      cases hact
    · rw [carried_of_carries hc₁] at hq
      obtain rfl := Option.some.inj hq
      cases hact
    · rw [carried_of_carries hc₂] at hq
      obtain rfl := Option.some.inj hq
      cases hact

end

variable (c : CommonCore)

theorem counter_destFilterReturn (cmd : ActionMessage) :
    (c.processDestFilterReturn cmd).1.messageCounter = c.messageCounter := by
  unfold processDestFilterReturn
  split
  · rfl
  dsimp only
  split
  · split
    · exact (frame_route _ _ _).counter
    · split
      · rfl
      · exact (frame_finishDestFilterReturn _ _ _ _).counter
  · rfl

theorem counter_requestDestFilter (m : ActionMessage) (ept : BasicHandleInfo) (filt : FilterInfo) :
    (c.requestDestFilter m ept filt).1.messageCounter = nextMessageId c.messageCounter := by
  unfold requestDestFilter
  dsimp only
  split
  · exact (frame_route _ _ _).counter
  · rfl

theorem drawnBy_same {c c' : CommonCore} (h : c'.messageCounter = c.messageCounter) :
    drawnBy c c' = [] := if_pos h

theorem step_destReply (h : isDestReply cmd.messageAction = true) :
    c.step cmd = c.processDestFilterReturn cmd := by
  unfold step processCommand
  cases ha : cmd.messageAction
  all_goals simp_all [isDestReply, CoreBroker.isPriorityCommand]

theorem step_timeBlock
    (h : cmd.messageAction = .cmdTimeBlock ∨ cmd.messageAction = .cmdTimeUnblock) :
    c.step cmd = (c, []) := by
  unfold step processCommand
  obtain h | h := h
  · rw [h]
    rfl
  · rw [h]
    rfl

section
variable {start : CommonCore} {s : DestRun} {cmd : ActionMessage}

section
variable (h : DestInv start s)
include h

theorem destInv_number : DestInv start (s.next .number) := by
  have hdrawn : (s.next .number).drawn =
      s.drawn ++ [numberAt start.messageCounter s.drawn.length] := by
    dsimp only [DestRun.next, drawnBy]
    rw [if_neg (nextMessageId_ne _), h.number]
  refine ⟨h.endpoints, ?_, h.clean, ?_, ?_, ?_, ?_, h.requested⟩
  · intro ept hept
    have hl := h.federates ept hept
    exact ⟨hl.known, hl.root, hl.higher, hl.own⟩
  · rw [hdrawn, List.length_append, List.length_singleton, ← nextMessageId_numberAt, ← h.number]
    rfl
  · rw [hdrawn]
    exact range_concat h.drawn
  · intro mid
    exact (h.paired mid).congr rfl (fun _ => Iff.rfl)
  · intro mid hne
    rw [hdrawn]
    exact List.mem_append_left _ (h.known mid hne)

theorem destInv_answer (hcmd : isDestReply cmd.messageAction = true)
    (hq : s.Requested start.ownsEndpoint q) (hrep : RepliesTo q cmd) :
    DestInv start (s.next (.command cmd)) := by
  obtain ⟨ept, hept, hreq, hcoord, hmark⟩ := h.requested q hq
  obtain ⟨hnum, hid, hhandle⟩ := reply_fields hreq.action hcmd hrep
  rw [hreq.source] at hid
  rw [hreq.handle] at hhandle
  rw [← hnum] at hmark
  dsimp only [DestRun.next]
  rw [step_destReply _ hcmd, drawnBy_same (counter_destFilterReturn _ cmd)]
  by_cases hin : (ept.getFederateId, cmd.messageID) ∈ s.core.ongoingDestFilterProcesses
  · cases ha : cmd.messageAction
    case cmdDestFilterResult => exact destInv_delivered h hept hhandle hid hcoord ha hmark hin
    case cmdNullDestMessage => exact destInv_dropped h hept hhandle hid ha hmark hin
    all_goals
      rw [ha] at hcmd
      cases hcmd
  · exact destInv_late h hept hhandle hcmd hmark hin

theorem destInv_command (hn : (s.next (.command cmd)).drawn.length ≤ 2 ^ 32)
    (ha : s.Admits start.ownsEndpoint (.command cmd)) : DestInv start (s.next (.command cmd)) := by
  obtain ⟨hack, hpass, hreply⟩ := ha
  cases hcmd : isDestReply cmd.messageAction with
  | true =>
    obtain ⟨q, hq, hrep⟩ := hreply hcmd
    exact destInv_answer h hcmd hq hrep
  | false =>
    by_cases hb : cmd.messageAction = .cmdTimeBlock ∨ cmd.messageAction = .cmdTimeUnblock
    · dsimp only [DestRun.next]
      rw [step_timeBlock _ hb, drawnBy_same rfl]
      exact destInv_quiet h (.refl _ _) (fun e he => absurd he List.not_mem_nil) hcmd
    have hapart : Apart start.ownsEndpoint cmd :=
      ⟨fun hx => hb (.inl hx), fun hx => hb (.inr hx), hpass⟩
    have hstep := destStep_step h.own h.clean hapart hcmd hack
    dsimp only [DestRun.next] at hn ⊢
    generalize s.core.step cmd = res at hstep hn
    obtain ⟨c', es⟩ := res
    cases hstep with
    | quiet hsame hes =>
      rw [drawnBy_same hsame.counter]
      exact destInv_quiet h hsame hes hcmd
    | request hs hr h' hpre hpost =>
      have hcount : c'.messageCounter = numberAt start.messageCounter s.drawn.length := by
        rw [h'.counter, counter_requestDestFilter, hs.counter, h.number]
      have hdrawn : drawnBy s.core c' = [numberAt start.messageCounter s.drawn.length] := by
        unfold drawnBy
        rw [hcount, ← h.number, if_neg (nextMessageId_ne _)]
      rw [hdrawn] at hn ⊢
      have hlt : s.drawn.length < 2 ^ 32 := by
        dsimp only [DestRun.record] at hn
        rw [List.length_append, List.length_singleton] at hn
        omega
      exact destInv_request h hlt hs hr h' hpre hpost hcmd

theorem destInv_next
    (hn : (s.next ev).drawn.length ≤ 2 ^ 32) (ha : s.Admits start.ownsEndpoint ev) :
    DestInv start (s.next ev) := by
  cases ev with
  | command cmd => exact destInv_command h hn ha
  | number => exact destInv_number h

end

end

theorem drawn_next (s : DestRun) (ev : DestEvent) : s.drawn.length ≤ (s.next ev).drawn.length := by
  cases ev with
  | command cmd =>
    dsimp only [DestRun.next, DestRun.record]
    rw [List.length_append]
    omega
  | number =>
    dsimp only [DestRun.next]
    rw [List.length_append]
    omega

def DestRun.Step (home : GlobalId → Bool) (s : DestRun) (ev : DestEvent) (t : DestRun) : Prop :=
  s.Admits home ev ∧ t = s.next ev

/-- As long as no more numbers are drawn than there are, each number that is blocked for a
federate is blocked once and before its request, is noted exactly until it is unblocked, and is
unblocked at most once, after a reply and, unless the message was dropped, after the message. -/
theorem dest_blocks_paired (c : CommonCore) (hc : DestReady c) (evs : List DestEvent)
    (s : DestRun) (r : Run (DestRun.Step c.ownsEndpoint) { core := c } evs s)
    (hn : s.drawn.length ≤ 2 ^ 32) (mid : Int) :
    Paired s.core mid (s.marks c.ownsEndpoint mid) := by
  have hinv : s.drawn.length ≤ 2 ^ 32 → DestInv c s := by
    refine r.invariant (P := fun s => s.drawn.length ≤ 2 ^ 32 → DestInv c s) ?_ ?_
    · intro s ev t h hstep ht
      obtain ⟨hadm, rfl⟩ := hstep
      exact destInv_next (h (le_trans (drawn_next s ev) ht)) ht hadm
    · intro _
      exact destInv_start hc
  exact (hinv hn).paired mid

end

attribute [local instance] DualMapped.listVectors

def coreWithDestFilter : CommonCore where
  identifier := "core"
  globalBrokerIdLocal := 1879048193
  higherBrokerId := 1
  brokerState := .operating
  loopFederates := DualMapped.Vector.empty.add "fed" (some 131072)
    { name := "fed", globalId := 131072 }
  endpoints := .ofList [{ handle := ⟨131072, 0⟩, key := "ept", hasDestFilterFlag := true }]
  filterCoord := [(0, { destFilter := some { coreId := 1879048194, handle := 7 } })]

def coreOfDestFilter : CommonCore where
  identifier := "filters"
  globalBrokerIdLocal := 1879048194
  higherBrokerId := 1
  brokerState := .operating
  filters := [{ coreId := 1879048194, handle := 7, filterOp := some some }]

def messageToEndpoint : ActionMessage :=
  { messageAction := .cmdSendMessage, messageID := 9, sourceId := 131080, sourceHandle := 3,
    stringData := ["ept", "other", "other", "ept"] }

def destRequest : ActionMessage :=
  { messageAction := .cmdSendForDestFilterAndReturn, messageID := 55, sourceId := 131072,
    sourceHandle := 0, destId := 1879048194, destHandle := 7,
    stringData := ["ept", "other", "other", "ept"] }

def destReply : ActionMessage :=
  { messageAction := .cmdDestFilterResult, messageID := 55, sourceId := 1879048194,
    sourceHandle := 7, destId := 131072, destHandle := 0,
    stringData := ["ept", "other", "other", "ept"] }

theorem destReady_coreWithDestFilter : DestReady coreWithDestFilter where
  federates ept hept := by
    obtain rfl := List.mem_singleton.mp hept
    exact ⟨by decide, by decide, by decide, by decide⟩
  clean := by
    intro m hm
    cases hm
  idle := rfl

theorem admits_messageToEndpoint (s : DestRun) (home : GlobalId → Bool) :
    s.Admits home (.command messageToEndpoint) := by
  refine ⟨by decide, fun h => ?_, fun h => ?_⟩
  · cases h
  · cases h

theorem repliesTo_destRequest : RepliesTo destRequest destReply := by
  refine ⟨coreOfDestFilter, 0, ?_, by decide +kernel⟩
  intro filt hfilt op hop message message' h
  obtain rfl := List.mem_singleton.mp hfilt
  obtain rfl := Option.some.inj hop
  obtain rfl := Option.some.inj h
  rfl

theorem dest_blocks_paired_of_reply :
    ∃ s, Run (DestRun.Step coreWithDestFilter.ownsEndpoint) { core := coreWithDestFilter }
        [.command messageToEndpoint, .command destReply] s ∧
      s.drawn.length ≤ 2 ^ 32 ∧
      s.marks coreWithDestFilter.ownsEndpoint 55 = [.block 131072, .request 131072,
        .result 131072, .message 131072, .unblock 131072] ∧
      Paired s.core 55 (s.marks coreWithDestFilter.ownsEndpoint 55) := by
  have hreply : DestRun.Admits coreWithDestFilter.ownsEndpoint
      (DestRun.next { core := coreWithDestFilter } (.command messageToEndpoint))
      (.command destReply) := by
    refine ⟨by decide, (fun h => nomatch h), fun _ => ?_⟩
    exact ⟨destRequest, ⟨_, List.mem_singleton.mpr rfl, .transmit 0 destRequest, by decide +kernel,
      rfl, rfl, by decide⟩, repliesTo_destRequest⟩
  have hrun : Run (DestRun.Step coreWithDestFilter.ownsEndpoint) { core := coreWithDestFilter }
      [.command messageToEndpoint, .command destReply] _ :=
    .cons ⟨admits_messageToEndpoint _ _, rfl⟩ (.cons ⟨hreply, rfl⟩ (.nil _))
  exact ⟨_, hrun, by decide +kernel, by decide +kernel,
    dest_blocks_paired coreWithDestFilter destReady_coreWithDestFilter _ _ hrun
      (by decide +kernel) 55⟩

theorem iterate_nextMessageId (start : Int) (n : Nat) :
    nextMessageId^[n + 1] start = numberAt start n := by
  induction n with
  | zero => simp [nextMessageId, numberAt]
  | succ n ih => rw [Function.iterate_succ_apply', ih, nextMessageId_numberAt]

theorem run_numbers (home : GlobalId → Bool) (s : DestRun) (n : Nat) :
    ∃ numbers, Run (DestRun.Step home) s (List.replicate n .number)
      { core := { s.core with messageCounter := nextMessageId^[n] s.core.messageCounter }
        trace := s.trace
        drawn := numbers } := by
  induction n generalizing s with
  | zero => exact ⟨s.drawn, .nil s⟩
  | succ n ih =>
    obtain ⟨numbers, hrun⟩ := ih (s.next .number)
    exact ⟨numbers, .cons ⟨trivial, rfl⟩ hrun⟩

/-- After the counter has gone round once, a number is blocked again while it is still blocked. -/
theorem number_blocked_again : DestReady coreWithDestFilter ∧
      ∃ evs s, Run (DestRun.Step coreWithDestFilter.ownsEndpoint)
          { core := coreWithDestFilter } evs s ∧
        s.marks coreWithDestFilter.ownsEndpoint 55 =
          [.block 131072, .request 131072, .block 131072, .request 131072] := by
  refine ⟨destReady_coreWithDestFilter, ?_⟩
  obtain ⟨numbers, hrun⟩ := run_numbers coreWithDestFilter.ownsEndpoint
    (DestRun.next { core := coreWithDestFilter } (.command messageToEndpoint)) (4294967294 + 1)
  have hround : nextMessageId^[4294967294 + 1] (DestRun.next { core := coreWithDestFilter }
      (.command messageToEndpoint)).core.messageCounter = 54 := by
    rw [iterate_nextMessageId]
    decide +kernel
  rw [hround] at hrun
  have hlast := hrun.append (.cons ⟨admits_messageToEndpoint _ _, rfl⟩ (.nil _))
  refine ⟨_, _, .cons ⟨admits_messageToEndpoint _ _, rfl⟩ hlast, ?_⟩
  have hfirst : (DestRun.next { core := coreWithDestFilter } (.command messageToEndpoint)).marks
      coreWithDestFilter.ownsEndpoint 55 = [.block 131072, .request 131072] := by decide +kernel
  have hsecond : stepMarks coreWithDestFilter.ownsEndpoint 55 messageToEndpoint
      (step { (DestRun.next { core := coreWithDestFilter } (.command messageToEndpoint)).core with
        messageCounter := 54 } messageToEndpoint).2 = [.block 131072, .request 131072] := by
    decide +kernel
  dsimp only [DestRun.next]
  rw [marks_record]
  exact congrArg₂ (· ++ ·) hfirst hsecond

end CommonCore

end Helics
