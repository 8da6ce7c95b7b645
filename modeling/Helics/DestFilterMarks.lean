import Helics.DestFilterSteps

namespace Helics

open CoreEffect

/-- What happens to one message number on its way through a destination filter. -/
inductive DestMark where
  | block (fed : GlobalId)
  | request (fed : GlobalId)
  | result (fed : GlobalId)
  | drop (fed : GlobalId)
  | message (fed : GlobalId)
  | unblock (fed : GlobalId)
deriving DecidableEq

def DestMark.isReply : DestMark → Bool
  | .result _ | .drop _ => true
  | _ => false

def CoreEffect.recipient : CoreEffect → Option GlobalId
  | .addAction fed _ | .postTermination fed _ => some fed
  | _ => none

namespace CommonCore

def replyMark (mid : Int) (cmd : ActionMessage) : List DestMark :=
  if cmd.messageID = mid then
    match cmd.messageAction with
    | .cmdDestFilterResult => [.result cmd.destId]
    | .cmdNullDestMessage => [.drop cmd.destId]
    | _ => []
  else []

/-- What an effect of the command means for a message number. A message counts when it is the
reply itself under its new action. -/
def effectMark (home : GlobalId → Bool) (mid : Int) (cmd : ActionMessage) (e : CoreEffect) :
    Option DestMark :=
  e.carried.bind fun m =>
    if m.messageID ≠ mid then none
    else if m.messageAction = .cmdSendForDestFilterAndReturn ∧ home m.sourceId = true then
      some (.request m.sourceId)
    else e.recipient.bind fun fed =>
      if m.messageAction = .cmdTimeBlock then some (.block fed)
      else if m.messageAction = .cmdTimeUnblock then some (.unblock fed)
      else if isDestReply cmd.messageAction = true ∧ m = cmd.setAction .cmdSendMessage then
        some (.message fed)
      else none

def stepMarks (home : GlobalId → Bool) (mid : Int) (cmd : ActionMessage) (es : List CoreEffect) :
    List DestMark := replyMark mid cmd ++ es.filterMap (effectMark home mid cmd)

theorem replyMark_eq_nil (h : isDestReply cmd.messageAction = false) : replyMark mid cmd = [] := by
  unfold replyMark
  split
  · split
    case h_1 ha => rw [ha] at h; cases h
    case h_2 ha => rw [ha] at h; cases h
    case h_3 => rfl
  · rfl

theorem effectMark_eq_none (he : Silent home e)
    (h : ∀ m, e.carried = some m → isDestReply cmd.messageAction = true →
      m.messageAction ≠ .cmdSendMessage) : effectMark home mid cmd e = none := by
  unfold effectMark
  cases hc : e.carried with
  | none => rfl
  | some m =>
    have hm := he m hc
    rw [Option.bind_some]
    split
    · rfl
    rw [if_neg (fun hr => by simp [hm.request hr.1] at hr)]
    cases e.recipient with
    | none => rfl
    | some fed =>
      rw [Option.bind_some, if_neg hm.block, if_neg hm.unblock, if_neg]
      rintro ⟨hr, rfl⟩
      exact h _ hc hr rfl

theorem stepMarks_quiet (he : ∀ e ∈ es, Silent home e) (hr : isDestReply cmd.messageAction = false)
    (mid : Int) : stepMarks home mid cmd es = [] := by
  unfold stepMarks
  rw [replyMark_eq_nil hr, List.nil_append]
  apply List.filterMap_eq_nil_iff.mpr
  intro e hes
  apply effectMark_eq_none (he e hes)
  intro m _ hrep
  rw [hr] at hrep
  cases hrep

theorem replyAction_ne_send (destFilter : Bool) :
    (if destFilter then Action.cmdDestFilterResult else .cmdFilterResult) ≠ .cmdSendMessage := by
  cases destFilter with
  | true => decide
  | false => decide

variable [DualMapped String GlobalId]

variable {c : CommonCore}

theorem route_away (h : m.destId ≠ c.globalBrokerIdLocal) (moved : Bool) :
    ∃ e, c.route m moved = (c, [e]) ∧ Carries m e := by
  unfold route
  rw [if_neg h]
  split
  · exact ⟨_, rfl, rfl⟩
  split
  · refine ⟨_, rfl, ?_⟩
    unfold toFederate
    split
    · rfl
    · rfl
  · exact ⟨_, rfl, rfl⟩

structure LocalFederate (c : CommonCore) (fed : GlobalId) : Prop where
  known : c.isLocal fed = true
  root : fed ≠ parentBrokerId
  higher : fed ≠ c.higherBrokerId
  own : fed ≠ c.globalBrokerIdLocal

theorem route_local (h : LocalFederate c m.destId) (moved : Bool) :
    ∃ e, c.route m moved = (c, [e]) ∧ Carries m e ∧ e.recipient = some m.destId := by
  have hfed : (c.loopFederates.findId m.destId).isSome = true := by
    rw [DualMapped.Vector.findId_isSome]
    exact h.known
  obtain ⟨fed, hfed⟩ := Option.isSome_iff_exists.mp hfed
  unfold route
  rw [if_neg (not_or.mpr ⟨h.root, h.higher⟩), if_neg h.own, hfed]
  refine ⟨_, rfl, ?_⟩
  unfold toFederate
  split
  · exact ⟨rfl, rfl⟩
  · exact ⟨rfl, rfl⟩

structure IsRequest (ept : BasicHandleInfo) (mid : Int) (q : ActionMessage) : Prop where
  action : q.messageAction = .cmdSendForDestFilterAndReturn
  source : q.sourceId = ept.getFederateId
  handle : q.sourceHandle = ept.getInterfaceHandle
  number : q.messageID = mid

theorem requestDestFilter_spec (hr : RequestsDestFilter c ept filt)
    (hlocal : c.isLocal ept.getFederateId = true) (m : ActionMessage) :
    ∃ block q e, c.requestDestFilter m ept filt =
        (c.noteDestRequest ept.getFederateId (nextMessageId c.messageCounter),
          [.addAction ept.getFederateId block, e]) ∧
      block.messageAction = .cmdTimeBlock ∧ block.messageID = nextMessageId c.messageCounter ∧
      Carries q e ∧ IsRequest ept (nextMessageId c.messageCounter) q := by
  obtain ⟨e, he, hc⟩ := route_away
    (c := c.noteDestRequest ept.getFederateId (nextMessageId c.messageCounter))
    (m := destFilterRequest m ept filt (nextMessageId c.messageCounter)) hr.remote true
  unfold requestDestFilter routeMovedMessage
  rw [if_pos hlocal, he]
  exact ⟨_, _, e, rfl, rfl, rfl, hc, rfl, rfl, rfl, rfl⟩

omit [DualMapped String GlobalId] in
/-- A request leaves its block and itself as marks of the new number, and no other mark. -/
theorem marks_request (hblock : block.messageAction = .cmdTimeBlock)
    (hnum : block.messageID = n) (hq : IsRequest ept n q) (hc : Carries q e)
    (hhome : home ept.getFederateId = true) (cmd : ActionMessage) (mid : Int) :
    [addAction ept.getFederateId block, e].filterMap (effectMark home mid cmd) =
      if mid = n then [.block ept.getFederateId, .request ept.getFederateId] else [] := by
  have hfirst : effectMark home mid cmd (.addAction ept.getFederateId block) =
      if mid = n then some (.block ept.getFederateId) else none := by
    unfold effectMark
    simp only [carried, recipient, Option.bind_some, hblock, hnum]
    by_cases h : mid = n
    · simp [h]
    · simp [h, Ne.symm h]
  have hsecond : effectMark home mid cmd e =
      if mid = n then some (.request ept.getFederateId) else none := by
    unfold effectMark
    rw [carried_of_carries hc, Option.bind_some, hq.number, hq.source, hhome, hq.action]
    by_cases h : mid = n
    · simp [h]
    · simp [h, Ne.symm h]
  by_cases h : mid = n
  · rw [if_pos h] at hfirst hsecond ⊢
    simp [hfirst, hsecond]
  · rw [if_neg h] at hfirst hsecond ⊢
    simp [hfirst, hsecond]

/-- The operators of the filters of a core keep the number of a message. -/
def KeepsIds (r : CommonCore) : Prop :=
  ∀ filt ∈ r.filters, ∀ op, filt.filterOp = some op →
    ∀ message message', op message = some message' → message'.messageID = message.messageID

theorem deliverMessage_other (h : m.messageAction ≠ .cmdSendMessage) :
    c.deliverMessage m = (c, [.transmit (c.getRoute m.destId) m]) := by
  unfold deliverMessage
  split
  · contradiction
  · rfl

/-- The command answers a request: a core whose filter keeps the numbers of messages sends it
when it processes the request. -/
def RepliesTo (q cmd : ActionMessage) : Prop :=
  ∃ (r : CommonCore) (route : RouteId), KeepsIds r ∧
    .transmit route cmd ∈ (r.processMessageFilter q).2

theorem reply_runFilter {r : CommonCore}
    (hq : q.messageAction = .cmdSendForDestFilterAndReturn)
    (hkeep : ∀ message message', op message = some message' →
      message'.messageID = message.messageID) (h : .transmit out cmd ∈ (r.runFilter q filt op).2) :
    cmd.messageID = q.messageID ∧ cmd.destId = q.sourceId ∧ cmd.destHandle = q.sourceHandle := by
  have hret : returnsToSender q = true := by
    unfold returnsToSender
    rw [hq]
    rfl
  unfold runFilter at h
  cases List.mem_cons.mp h with
  | inl h => cases h
  | inr h =>
    split at h
    case h_1 message' hop =>
      rw [if_pos hret, deliverMessage_other (replyAction_ne_send _)] at h
      obtain ⟨_, rfl⟩ := transmit.inj (List.mem_singleton.mp h)
      exact ⟨hkeep _ _ hop, rfl, rfl⟩
    case h_2 =>
      have hdrop : (dropNotification q).messageAction ≠ .cmdSendMessage := by
        simp [dropNotification, hq]
      rw [if_pos hret, deliverMessage_other hdrop] at h
      obtain ⟨_, rfl⟩ := transmit.inj (List.mem_singleton.mp h)
      exact ⟨rfl, rfl, rfl⟩

theorem reply_fields (hq : q.messageAction = .cmdSendForDestFilterAndReturn)
    (hcmd : isDestReply cmd.messageAction = true) (h : RepliesTo q cmd) :
    cmd.messageID = q.messageID ∧ cmd.destId = q.sourceId ∧ cmd.destHandle = q.sourceHandle := by
  obtain ⟨r, route, hk, h⟩ := h
  have hnot (route' : RouteId) (hm : transmit route cmd ∈ [.transmit route' q]) : False := by
    obtain ⟨_, rfl⟩ := transmit.inj (List.mem_singleton.mp hm)
    rw [hq] at hcmd
    cases hcmd
  have hret : returnsToSender q = true := by
    unfold returnsToSender
    rw [hq]
    rfl
  unfold processMessageFilter at h
  split at h
  · exact (hnot _ h).elim
  split at h
  · split at h
    · cases h
    case h_2 filt hfind =>
      split at h
      case h_1 op hop =>
        have hop' : filt.filterOp = some op := by
          split at hop
          · cases hop
          · exact hop
        have hkeep := hk filt (List.mem_of_find?_eq_some hfind) op hop'
        split at h
        · cases List.mem_singleton.mp h
        · exact reply_runFilter hq hkeep h
      case h_2 =>
        unfold skipFilter at h
        rw [if_pos hret, deliverMessage_other (replyAction_ne_send _)] at h
        obtain ⟨_, rfl⟩ := transmit.inj (List.mem_singleton.mp h)
        exact ⟨rfl, rfl, rfl⟩
  · exact (hnot _ h).elim

theorem sameHome_noteDestRequest (home : GlobalId → Bool) (c : CommonCore) (fed : GlobalId)
    (mid : Int) : SameHome home c (c.noteDestRequest fed mid) :=
  ⟨rfl, rfl, fun _ h => h, rfl, rfl, fun h => h⟩

theorem endpointByHandle_of_mem (h : ept ∈ c.endpoints.entries)
    (hh : handle = ept.getInterfaceHandle) : c.endpointByHandle handle = some ept :=
  c.endpoints.find?_eq_some.mpr ⟨h, hh.symm⟩

theorem destFilterReturn_ignored (hept : ept ∈ c.endpoints.entries)
    (hh : cmd.destHandle = ept.getInterfaceHandle)
    (hno : (ept.getFederateId, cmd.messageID) ∉ c.ongoingDestFilterProcesses) :
    c.processDestFilterReturn cmd = (c, []) := by
  unfold processDestFilterReturn
  rw [endpointByHandle_of_mem hept hh]
  dsimp only
  rw [if_neg hno]

theorem destFilterReturn_dropped (hept : ept ∈ c.endpoints.entries)
    (hh : cmd.destHandle = ept.getInterfaceHandle) (hfed : cmd.destId = ept.getFederateId)
    (hlocal : LocalFederate c ept.getFederateId)
    (hin : (ept.getFederateId, cmd.messageID) ∈ c.ongoingDestFilterProcesses)
    (ha : cmd.messageAction = .cmdNullDestMessage) :
    ∃ e, c.processDestFilterReturn cmd = (c.eraseDestRequest ept.getFederateId cmd.messageID, [e]) ∧
      Carries (c.removeTimeBlock ept.getFederateId cmd.messageID) e ∧
      e.recipient = some ept.getFederateId := by
  have hlocal' : LocalFederate (c.eraseDestRequest ept.getFederateId cmd.messageID)
      (c.removeTimeBlock ept.getFederateId cmd.messageID).destId :=
    ⟨hlocal.known, hlocal.root, hlocal.higher, hlocal.own⟩
  obtain ⟨e, he, hc, hrec⟩ := route_local hlocal' false
  refine ⟨e, ?_, hc, hrec⟩
  unfold processDestFilterReturn
  rw [endpointByHandle_of_mem hept hh]
  dsimp only
  rw [if_pos hin, if_pos ha, hfed]
  exact he

/-- The effects that are neither part of destination filtering nor carry a message. -/
def Plain (home : GlobalId → Bool) (e : CoreEffect) : Prop :=
  Silent home e ∧ ∀ m, e.carried = some m → m.messageAction ≠ .cmdSendMessage

omit [DualMapped String GlobalId] in
theorem plainClass (hown : home own = false) :
    EffectClass own (fun m => Apart home m ∧ m.messageAction ≠ .cmdSendMessage) (Plain home) where
  made e h := by
    refine ⟨(silentClass hown).made e h, ?_⟩
    intro m hm ha
    cases e with
    | transmit r m' =>
      obtain rfl := Option.some.inj hm
      rw [h.2] at ha
      cases ha
    | addAction f m' =>
      obtain rfl := Option.some.inj hm
      obtain h | h | h | h := h
      all_goals
        rw [ha] at h
        cases h
    | addActionMessage m' => cases hm
    | _ => cases h
  carry m e h hm := by
    refine ⟨silent_of_carries h hm.1, ?_⟩
    intro m' hm'
    rw [carried_of_carries h] at hm'
    obtain rfl := Option.some.inj hm'
    exact hm.2
  dependency m h := ⟨(silentClass hown).dependency m h, fun ha => by rw [ha] at h; cases h⟩
  ack m h := ⟨(silentClass hown).ack m h, fun ha => by rw [ha] at h; cases h⟩
  readdress m dest handle h := ⟨(silentClass hown).readdress m dest handle h.1, h.2⟩
  adopt m h := ⟨(silentClass hown).adopt m h.1, h.2⟩
  leave m ha h := ⟨(silentClass hown).leave m ha h.1, fun hb => by cases hb⟩

theorem plain_clones (hown : home c.globalBrokerIdLocal = false)
    (h : e ∈ (c.cloneToDestFilters m filts).2) : Plain home e := by
  refine effects_cloneToDestFilters (plainClass hown) ?_ rfl ?_ h
  · intro e' he'
    refine ⟨(silentClass hown).inner e' he', ?_⟩
    intro m' hm'
    rw [he'] at hm'
    cases hm'
  · intro dest handle
    exact ⟨(silentClass hown).message _ rfl, fun ha => by cases ha⟩

theorem getFilterCoordinator_of_lookup (h : (c.filterCoord.lookup handle).isSome = true) :
    ∃ ffunc, c.getFilterCoordinator handle = some ffunc := by
  obtain ⟨ffunc, hf⟩ := Option.isSome_iff_exists.mp h
  refine ⟨ffunc, ?_⟩
  unfold getFilterCoordinator
  rw [hf]

theorem Frame.localFederate (h : Frame c c') (hl : LocalFederate c fed) : LocalFederate c' fed where
  known := (h.isLocal fed).trans hl.known
  root := hl.root
  higher := by rw [h.higher]; exact hl.higher
  own := by rw [h.own]; exact hl.own

theorem finishDestFilterReturn_spec (hown : home c.globalBrokerIdLocal = false)
    (hlocal : LocalFederate c fed) (filtFunc : FilterCoordinator) (hfed : cmd.destId = fed) :
    ∃ c' clones e₁ e₂, c.finishDestFilterReturn fed filtFunc cmd =
        (c', clones ++ [.timeMessage cmd] ++ [e₁] ++ [e₂]) ∧
      SameDest home c c' ∧ (∀ e ∈ clones, Plain home e) ∧
      (Carries (cmd.setAction .cmdSendMessage) e₁ ∧ e₁.recipient = some fed) ∧
      (Carries (c.removeTimeBlock fed cmd.messageID) e₂ ∧ e₂.recipient = some fed) := by
  unfold finishDestFilterReturn
  have hclones (e) (h : e ∈ (c.cloneToDestFilters cmd filtFunc.cloningDestFilters).2) :
      Plain home e := plain_clones hown h
  have hframe := c.frame_cloneToDestFilters cmd filtFunc.cloningDestFilters
  generalize c.cloneToDestFilters cmd filtFunc.cloningDestFilters = cloned at hclones hframe
  have htold := hframe.trans (cloned.1.frame_timeCoord
    (cloned.1.timeCoord.processTimeMessage cmd).2)
  have hmessage := htold.localFederate hlocal
  have hunblock : LocalFederate { cloned.1 with
      timeCoord := (cloned.1.timeCoord.processTimeMessage cmd).2 }
      (c.removeTimeBlock fed cmd.messageID).destId := hmessage
  rw [← hfed] at hmessage
  obtain ⟨e₁, he₁, hc₁, hr₁⟩ := route_local (m := cmd.setAction .cmdSendMessage) hmessage true
  obtain ⟨e₂, he₂, hc₂, hr₂⟩ := route_local hunblock false
  refine ⟨_, cloned.2, e₁, e₂, ?_, htold.sameDest, hclones, ⟨hc₁, hr₁.trans (congrArg some hfed)⟩,
    hc₂, hr₂⟩
  dsimp only [routeMovedMessage, routeMessage]
  rw [he₁]
  rw [he₂]

theorem destFilterReturn_result (hown : home c.globalBrokerIdLocal = false)
    (hept : ept ∈ c.endpoints.entries) (hh : cmd.destHandle = ept.getInterfaceHandle)
    (hfed : cmd.destId = ept.getFederateId) (hlocal : LocalFederate c ept.getFederateId)
    (hcoord : (c.filterCoord.lookup ept.getInterfaceHandle).isSome = true)
    (hin : (ept.getFederateId, cmd.messageID) ∈ c.ongoingDestFilterProcesses)
    (ha : cmd.messageAction = .cmdDestFilterResult) :
    ∃ c' clones e₁ e₂, c.processDestFilterReturn cmd =
        (c', clones ++ [.timeMessage cmd] ++ [e₁] ++ [e₂]) ∧
      SameDest home (c.eraseDestRequest ept.getFederateId cmd.messageID) c' ∧
      (∀ e ∈ clones, Plain home e) ∧
      (Carries (cmd.setAction .cmdSendMessage) e₁ ∧ e₁.recipient = some ept.getFederateId) ∧
      (Carries (c.removeTimeBlock ept.getFederateId cmd.messageID) e₂ ∧
        e₂.recipient = some ept.getFederateId) := by
  obtain ⟨filtFunc, hfilt⟩ := getFilterCoordinator_of_lookup
    (c := c.eraseDestRequest ept.getFederateId cmd.messageID) hcoord
  have hlocal' : LocalFederate (c.eraseDestRequest ept.getFederateId cmd.messageID)
      ept.getFederateId := ⟨hlocal.known, hlocal.root, hlocal.higher, hlocal.own⟩
  have hspec := finishDestFilterReturn_spec (by exact hown) hlocal' filtFunc hfed
  unfold processDestFilterReturn
  rw [endpointByHandle_of_mem hept hh]
  dsimp only
  rw [if_pos hin, if_neg (by rw [ha]; decide), hfilt]
  exact hspec

end CommonCore

end Helics
