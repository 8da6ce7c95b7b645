import Helics.MessageEffects

namespace Helics

open ActionMessage

/-- A command that is no part of destination filtering for the given federates. -/
structure Apart (home : GlobalId → Bool) (m : ActionMessage) : Prop where
  block : m.messageAction ≠ .cmdTimeBlock
  unblock : m.messageAction ≠ .cmdTimeUnblock
  request : m.messageAction = .cmdSendForDestFilterAndReturn → home m.sourceId = false

def Silent (home : GlobalId → Bool) (e : CoreEffect) : Prop :=
  ∀ m, e.carried = some m → Apart home m

theorem apart_of_action (hb : m.messageAction ≠ .cmdTimeBlock)
    (hu : m.messageAction ≠ .cmdTimeUnblock)
    (hr : m.messageAction ≠ .cmdSendForDestFilterAndReturn) : Apart home m :=
  ⟨hb, hu, fun h => absurd h hr⟩

namespace CommonCore

theorem silent_of_carries (h : Carries m e) (hm : Apart home m) : Silent home e := by
  intro m' hm'
  rw [carried_of_carries h] at hm'
  obtain rfl := Option.some.inj hm'
  exact hm

theorem silentClass (hown : home own = false) : MessageClass own (Apart home) (Silent home) where
  made e h := by
    cases e with
    | transmit r m => exact silent_of_carries rfl (apart_of_action (by simp [h.2]) (by simp [h.2])
        (by simp [h.2]))
    | addAction f m =>
      refine silent_of_carries rfl ?_
      obtain h | h | h | h := h
      · exact apart_of_action (by simp [h]) (by simp [h]) (by simp [h])
      · exact apart_of_action (by simp [h]) (by simp [h]) (by simp [h])
      · exact apart_of_action (by simp [h]) (by simp [h]) (by simp [h])
      · constructor
        all_goals
          intro ha
          rw [ha] at h
          cases h
    | addActionMessage m =>
      intro m' hm'
      cases hm'
    | _ => cases h
  carry m e h hm := silent_of_carries h hm
  dependency m h := by
    constructor
    all_goals
      intro ha
      rw [ha] at h
      cases h
  ack m h := apart_of_action (by simp [h]) (by simp [h]) (by simp [h])
  readdress m dest handle h := ⟨h.block, h.unblock, h.request⟩
  adopt m h := ⟨h.block, h.unblock, fun _ => hown⟩
  leave m _ _ := apart_of_action (by simp [setAction]) (by simp [setAction])
    (by simp [setAction])
  inner e h m hm := by
    rw [h] at hm
    cases hm
  message m h := by
    constructor
    all_goals
      intro ha
      rw [ha] at h
      cases h

theorem silent_append {es es' : List CoreEffect} (h : ∀ e ∈ es, Silent home e)
    (h' : ∀ e ∈ es', Silent home e) : ∀ e ∈ es ++ es', Silent home e := by
  intro e he
  cases List.mem_append.mp he with
  | inl hl => exact h e hl
  | inr hr => exact h' e hr

theorem silent_applyFilter (filter : GlobalHandle) (message : Message) :
    ∀ e ∈ [CoreEffect.applyFilter filter message], Silent home e := by
  intro e he m hm
  obtain rfl := List.mem_singleton.mp he
  cases hm

end CommonCore

variable [DualMapped String GlobalId]

namespace CommonCore

def ownsEndpoint (c : CommonCore) (fed : GlobalId) : Bool :=
  c.endpoints.entries.any (fun e => decide (e.getFederateId = fed))

/-- The commands that wait in the core are no part of destination filtering. -/
def Clean (home : GlobalId → Bool) (c : CommonCore) : Prop :=
  ∀ m ∈ c.delayedTimingMessages ++ c.delayTransmitQueue, Apart home m

structure SameHome (home : GlobalId → Bool) (c c' : CommonCore) : Prop where
  own : c'.globalBrokerIdLocal = c.globalBrokerIdLocal
  higher : c'.higherBrokerId = c.higherBrokerId
  known : ∀ fed, c.isLocal fed = true → c'.isLocal fed = true
  endpoints : c'.endpoints = c.endpoints
  filterCoord : c'.filterCoord = c.filterCoord
  clean : Clean home c → Clean home c'

theorem SameHome.trans (h : SameHome home c c') (h' : SameHome home c' c'') : SameHome home c c'' :=
  ⟨h'.own.trans h.own, h'.higher.trans h.higher, fun fed hf => h'.known fed (h.known fed hf),
    h'.endpoints.trans h.endpoints, h'.filterCoord.trans h.filterCoord,
    fun hc => h'.clean (h.clean hc)⟩

/-- What commands other than those of destination filtering leave alone. -/
structure SameDest (home : GlobalId → Bool) (c c' : CommonCore) : Prop
    extends SameHome home c c' where
  ongoingDest : c'.ongoingDestFilterProcesses = c.ongoingDestFilterProcesses
  counter : c'.messageCounter = c.messageCounter

theorem SameDest.refl (home : GlobalId → Bool) (c : CommonCore) : SameDest home c c :=
  ⟨⟨rfl, rfl, fun _ h => h, rfl, rfl, fun h => h⟩, rfl, rfl⟩

theorem SameDest.trans (h : SameDest home c c') (h' : SameDest home c' c'') : SameDest home c c'' :=
  ⟨h.toSameHome.trans h'.toSameHome, h'.ongoingDest.trans h.ongoingDest,
    h'.counter.trans h.counter⟩

theorem Frame.sameDest (h : Frame c c') : SameDest home c c' where
  own := h.own
  higher := h.higher
  known fed hf := (h.isLocal fed).trans hf
  endpoints := h.endpoints
  filterCoord := h.filterCoord
  ongoingDest := h.ongoingDest
  counter := h.counter
  clean hc := by
    unfold Clean
    rw [h.parked, h.held]
    exact hc

/-- One command makes at most one request to a destination filter. -/
inductive DestStep (home : GlobalId → Bool) (c : CommonCore) :
    CommonCore → List CoreEffect → Prop
  | quiet (h : SameDest home c c') (he : ∀ e ∈ es, Silent home e) : DestStep home c c' es
  | request (h : SameDest home c c₁) (hr : RequestsDestFilter c₁ ept filt)
      (h' : SameDest home (c₁.requestDestFilter m ept filt).1 c')
      (hpre : ∀ e ∈ pre, Silent home e) (hpost : ∀ e ∈ post, Silent home e) :
      DestStep home c c' (pre ++ (c₁.requestDestFilter m ept filt).2 ++ post)

theorem DestStep.before (h : SameDest home c c') (he : ∀ e ∈ es, Silent home e)
    (hs : DestStep home c' c'' es') : DestStep home c c'' (es ++ es') := by
  cases hs with
  | quiet h' he' => exact .quiet (h.trans h') (silent_append he he')
  | request h₁ hr h' hpre hpost =>
    rw [← List.append_assoc, ← List.append_assoc]
    exact .request (h.trans h₁) hr h' (silent_append he hpre) hpost

theorem destStep_delivers (h : Delivers (Silent home) c res) : DestStep home c res.1 res.2 := by
  obtain ⟨hf, he⟩ | ⟨m, ept, filt, pre, hr, hpre, rfl⟩ := h
  · exact .quiet hf.sameDest he
  have hs : DestStep home c (c.requestDestFilter m ept filt).1
      (pre ++ (c.requestDestFilter m ept filt).2 ++ []) :=
    .request (.refl home c) hr (.refl home _) hpre (fun e he => absurd he List.not_mem_nil)
  rw [List.append_nil] at hs
  exact hs

section
variable {home : GlobalId → Bool} {c : CommonCore}

section
variable (hown : home c.globalBrokerIdLocal = false)
include hown

theorem destStep_deliverMessage (hm : isMessageAction m.messageAction = true) :
    DestStep home c (c.deliverMessage m).1 (c.deliverMessage m).2 :=
  destStep_delivers (delivers_deliverMessage (silentClass hown) rfl
    ((silentClass hown).message m hm))

theorem quiet_transmitDelayedMessages (hclean : Clean home c) (source : GlobalId) :
    SameDest home c (c.transmitDelayedMessages source).1 ∧
      ∀ e ∈ (c.transmitDelayedMessages source).2, Silent home e := by
  have hframe := c.frame_routeAll
    (c.delayTransmitQueue.filter (fun cmd => decide (cmd.sourceId = source)) ++
      c.delayedTimingMessages.filter (fun cmd => decide (cmd.sourceId = source)))
  have hsame : SameDest home c _ := hframe.sameDest
  refine ⟨⟨⟨hsame.own, hsame.higher, hsame.known, hsame.endpoints, hsame.filterCoord, ?_⟩,
    hsame.ongoingDest, hsame.counter⟩, ?_⟩
  · intro _ m hm
    apply hclean m
    cases List.mem_append.mp hm with
    | inl h => exact List.mem_append_left _ (List.mem_filter.mp h).1
    | inr h => exact List.mem_append_right _ (List.mem_filter.mp h).1
  · intro e he
    refine effects_routeAll (silentClass hown).toEffectClass rfl ?_ he
    intro m hm
    apply hclean m
    cases List.mem_append.mp hm with
    | inl h => exact List.mem_append_right _ (List.mem_filter.mp h).1
    | inr h => exact List.mem_append_left _ (List.mem_filter.mp h).1

theorem quiet_releaseIfIdle (hclean : Clean home c) (fed : GlobalId) :
    SameDest home c (c.releaseIfIdle fed).1 ∧ ∀ e ∈ (c.releaseIfIdle fed).2, Silent home e := by
  unfold releaseIfIdle
  split
  · exact ⟨.refl home c, fun e he => absurd he List.not_mem_nil⟩
  · exact quiet_transmitDelayedMessages hown hclean fed

end

theorem sameDest_ongoing (c : CommonCore) (l : List (GlobalId × Int)) :
    SameDest home c { c with ongoingFilterProcesses := l } :=
  ⟨⟨rfl, rfl, fun _ h => h, rfl, rfl, fun h => h⟩, rfl, rfl⟩

theorem clean_requestDestFilter (hclean : Clean home c) (m : ActionMessage) (ept : BasicHandleInfo)
    (filt : FilterInfo) : Clean home (c.requestDestFilter m ept filt).1 := by
  unfold requestDestFilter
  dsimp only
  split
  · refine (Frame.sameDest (frame_route _ _ _)).clean ?_
    exact hclean
  · exact hclean

theorem own_requestDestFilter (c : CommonCore) (m : ActionMessage) (ept : BasicHandleInfo)
    (filt : FilterInfo) :
    (c.requestDestFilter m ept filt).1.globalBrokerIdLocal = c.globalBrokerIdLocal := by
  unfold requestDestFilter
  dsimp only
  split
  · exact (frame_route _ _ _).own
  · rfl

section
variable {c' : CommonCore} (h : DestStep home c c' es)
include h

theorem DestStep.own : c'.globalBrokerIdLocal = c.globalBrokerIdLocal := by
  cases h with
  | quiet h _ => exact h.own
  | request h _ h' _ _ => exact (h'.own.trans (own_requestDestFilter _ _ _ _)).trans h.own

theorem DestStep.clean (hclean : Clean home c) : Clean home c' := by
  cases h with
  | quiet h _ => exact h.clean hclean
  | request h _ h' _ _ => exact h'.clean (clean_requestDestFilter (h.clean hclean) _ _ _)

theorem DestStep.release (hown : home c.globalBrokerIdLocal = false)
    (hclean : Clean home c) (fed : GlobalId) :
    DestStep home c (c'.releaseIfIdle fed).1 (es ++ (c'.releaseIfIdle fed).2) := by
  have hown' : home c'.globalBrokerIdLocal = false := by rw [h.own]; exact hown
  obtain ⟨hsame, hsilent⟩ := quiet_releaseIfIdle hown' (h.clean hclean) fed
  cases h with
  | quiet h' he' => exact .quiet (h'.trans hsame) (silent_append he' hsilent)
  | request h₁ hr h' hpre hpost =>
    rw [List.append_assoc]
    exact .request h₁ hr (h'.trans hsame) hpre (silent_append hpost hsilent)

end

theorem destStep_finishFilterReturn (hown : home c.globalBrokerIdLocal = false)
    (hclean : Clean home c) (fed : GlobalId) (mid : Int)
    (hcmd : isMessageAction cmd.messageAction = true) :
    DestStep home c (c.finishFilterReturn fed mid cmd).1 (c.finishFilterReturn fed mid cmd).2 := by
  have hsent : DestStep home c _ ([] ++ _) :=
    DestStep.before (sameDest_ongoing c _) (fun e he => absurd he List.not_mem_nil)
      (destStep_deliverMessage (c := c.eraseOngoing fed mid) hown hcmd)
  exact hsent.release hown hclean fed

theorem destStep_inner (he : e.carried = none) : DestStep home c c [e] := by
  refine .quiet (.refl home c) ?_
  intro e' he' m hm
  obtain rfl := List.mem_singleton.mp he'
  rw [he] at hm
  cases hm

theorem destStep_none : DestStep home c c [] :=
  .quiet (.refl home c) (fun _ he => absurd he List.not_mem_nil)

section
variable (hown : home c.globalBrokerIdLocal = false)
include hown

theorem destStep_erase_release (hclean : Clean home c)
    (fed : GlobalId) (mid : Int) : DestStep home c
      ((c.eraseOngoing fed mid).releaseIfIdle fed).1
        ((c.eraseOngoing fed mid).releaseIfIdle fed).2 := by
  have herased : DestStep home c (c.eraseOngoing fed mid) [] :=
    .quiet (sameDest_ongoing c _) (fun e he => absurd he List.not_mem_nil)
  exact herased.release hown hclean fed

theorem destStep_returnFilterLoop
    (hclean : Clean home c) (fed : GlobalId) (mid : Int) (size : Nat) (filts : List FilterInfo)
    (ii : Nat) (hcmd : isMessageAction cmd.messageAction = true) :
    DestStep home c (returnFilterLoop fed mid size c filts ii cmd).1
      (returnFilterLoop fed mid size c filts ii cmd).2 := by
  induction filts generalizing ii cmd with
  | nil =>
    unfold returnFilterLoop
    split
    · exact destStep_inner rfl
    · exact destStep_finishFilterReturn hown hclean fed mid hcmd
  | cons filt filts ih =>
    unfold returnFilterLoop
    split
    · exact destStep_inner rfl
    split
    · exact ih (ii + 1) hcmd
    split
    · split
      · exact destStep_inner rfl
      case h_2 op hop =>
        dsimp only
        split
        case h_1 message' _ =>
          have hsent : isMessageAction (ofMessage message').messageAction = true :=
            rfl
          exact (ih (ii + 1) hsent).before (.refl home c) (silent_applyFilter _ _)
        case h_2 =>
          exact (destStep_erase_release hown hclean fed mid).before (.refl home c)
            (silent_applyFilter _ _)
    · dsimp only
      refine DestStep.release ?_ hown hclean fed
      have hreq := (silentClass hown).message (filterRequest cmd filt ii size)
        (isMessageAction_filterRequest cmd filt ii size)
      split
      · exact .quiet (c.frame_route _ _).sameDest
          (fun e he => effects_route (silentClass hown).toEffectClass rfl hreq he)
      · exact .quiet ((sameDest_ongoing c _).trans (frame_route _ _ _).sameDest)
          (fun e he => effects_route (silentClass hown).toEffectClass (by rfl) hreq he)

theorem destStep_processFilterReturn
    (hclean : Clean home c) (hcmd : isMessageAction cmd.messageAction = true) :
    DestStep home c (c.processFilterReturn cmd).1 (c.processFilterReturn cmd).2 := by
  unfold processFilterReturn
  split
  · exact destStep_none
  case h_2 ept _ =>
    dsimp only
    split
    · generalize hd : (if cmd.messageAction = .cmdNullMessage then
        (c.eraseOngoing ept.getFederateId cmd.messageID).releaseIfIdle ept.getFederateId
          else (c, [])) = dropped
      have hdropped : SameDest home c dropped.1 ∧ ∀ e ∈ dropped.2, Silent home e := by
        subst hd
        split
        · obtain ⟨hsame, hsilent⟩ := quiet_releaseIfIdle
            (c := c.eraseOngoing ept.getFederateId cmd.messageID) hown hclean ept.getFederateId
          exact ⟨(sameDest_ongoing c _).trans hsame, hsilent⟩
        · exact ⟨.refl home c, fun e he => absurd he List.not_mem_nil⟩
      obtain ⟨hsame, hsilent⟩ := hdropped
      have hown' := hown
      rw [← hsame.own] at hown'
      split
      · exact DestStep.before hsame hsilent (destStep_inner rfl)
      refine DestStep.before hsame hsilent ?_
      split
      · exact destStep_returnFilterLoop hown' (hsame.clean hclean) _ _ _ _ _ hcmd
      · exact destStep_finishFilterReturn hown' (hsame.clean hclean) _ _ hcmd
    · exact destStep_none

theorem destStep_sendMessage (hcmd : isMessageAction cmd.messageAction = true) :
    DestStep home c (c.processSendMessage cmd).1 (c.processSendMessage cmd).2 := by
  unfold processSendMessage
  split
  · obtain ⟨hsilent, hact, c₁, hframe, hres⟩ := processMessage_spec (silentClass hown) rfl hcmd
    have hsame : SameDest home c (c.processMessage cmd).1 := by
      obtain hres | ⟨fed, mid, hres⟩ := hres
      · rw [hres]
        exact hframe.sameDest
      · rw [hres]
        exact hframe.sameDest.trans (sameDest_ongoing c₁ _)
    have hown' := hown
    rw [← hsame.own] at hown'
    exact DestStep.before hsame hsilent (destStep_deliverMessage hown' hact)
  · exact destStep_deliverMessage hown hcmd

end

def isDestReply : Action → Bool
  | .cmdDestFilterResult | .cmdNullDestMessage => true
  | _ => false

theorem destStep_park (hcmd : Apart home cmd) : DestStep home c (c.park cmd).1 (c.park cmd).2 := by
  refine .quiet ⟨⟨rfl, rfl, fun _ h => h, rfl, rfl, ?_⟩, rfl, rfl⟩
    (fun e he => absurd he List.not_mem_nil)
  intro hclean m hm
  dsimp only [park] at hm
  simp only [List.mem_append, List.mem_singleton] at hm
  obtain (hm | rfl) | hm := hm
  · exact hclean m (List.mem_append_left _ hm)
  · exact hcmd
  · exact hclean m (List.mem_append_right _ hm)

theorem destStep_processCommand (hown : home c.globalBrokerIdLocal = false) (hclean : Clean home c)
    (hcmd : Apart home cmd) (hr : isDestReply cmd.messageAction = false) :
    DestStep home c (c.processCommand cmd).1 (c.processCommand cmd).2 := by
  cases hf : isFilterCommand cmd.messageAction with
  | true =>
    unfold processCommand
    split
    case h_19 | h_20 | h_21 =>
      exact destStep_delivers (delivers_processMessageFilter (silentClass hown) rfl hcmd)
    case h_22 ha | h_23 ha => exact destStep_processFilterReturn hown hclean (by rw [ha]; rfl)
    case h_32 ha => exact destStep_sendMessage hown (by rw [ha]; rfl)
    all_goals simp_all [isFilterCommand, isDestReply]
  | false =>
    by_cases hp : isParkable cmd.messageAction = true ∧ c.parks cmd = true
    · rw [processCommand_park hp.1 hp.2]
      exact destStep_park hcmd
    refine .quiet (c.frame_processCommand cmd hf ?_).sameDest ?_
    · intro ha
      exact Bool.eq_false_of_not_eq_true fun h => hp ⟨ha, h⟩
    · intro e he
      exact effects_processCommand (silentClass hown).toEffectClass rfl hcmd hf he

theorem destStep_regFed (hown : home c.globalBrokerIdLocal = false) (hcmd : Apart home cmd) :
    DestStep home c (c.regFed cmd).1 (c.regFed cmd).2 := by
  have hknown (fed) (h : c.isLocal fed = true) : (c.regFed cmd).1.isLocal fed = true :=
    (isLocal_eq (c.ids_regFed cmd) fed).trans h
  unfold regFed at hknown ⊢
  split at hknown
  case isTrue hreg =>
    rw [if_pos hreg]
    refine .quiet ⟨⟨rfl, rfl, hknown, rfl, rfl, fun h => h⟩, rfl, rfl⟩ ?_
    intro e he
    obtain rfl := List.mem_singleton.mp he
    exact silent_of_carries rfl ((silentClass hown).adopt cmd hcmd)
  case isFalse hreg =>
    rw [if_neg hreg]
    refine .quiet ⟨⟨rfl, rfl, hknown, rfl, rfl, ?_⟩, rfl, rfl⟩
      (fun e he => absurd he List.not_mem_nil)
    intro hclean m hm
    simp only [List.mem_append, List.mem_singleton] at hm
    obtain hm | hm | rfl := hm
    · exact hclean m (List.mem_append_left _ hm)
    · exact hclean m (List.mem_append_right _ hm)
    · exact hcmd

theorem destStep_fedAck (hcmd : Apart home cmd) :
    DestStep home c (c.fedAck cmd).1 (c.fedAck cmd).2 := by
  have hknown (fed) (h : c.isLocal fed = true) : (c.fedAck cmd).1.isLocal fed = true :=
    isLocal_fedAck h cmd
  have hgiven (fed : GlobalId) : ∀ e ∈ [CoreEffect.addAction fed cmd], Silent home e := by
    intro e he
    obtain rfl := List.mem_singleton.mp he
    exact silent_of_carries rfl hcmd
  unfold fedAck at hknown ⊢
  split at hknown
  · exact destStep_none
  split at hknown
  case isTrue hflag =>
    rw [if_pos hflag]
    exact .quiet (.refl home c) (hgiven _)
  case isFalse hflag =>
    rw [if_neg hflag]
    exact .quiet ⟨⟨rfl, rfl, hknown, rfl, rfl, fun h => h⟩, rfl, rfl⟩ (hgiven _)

theorem destStep_step (hown : home c.globalBrokerIdLocal = false) (hclean : Clean home c)
    (hcmd : Apart home cmd) (hr : isDestReply cmd.messageAction = false)
    (hack : cmd.messageAction ≠ .cmdBrokerAck) : DestStep home c (c.step cmd).1 (c.step cmd).2 := by
  unfold step
  split
  · unfold processPriorityCommand
    split
    case h_1 => exact destStep_regFed hown hcmd
    case h_2 =>
      refine .quiet (.refl home c) ?_
      intro e he
      obtain rfl := List.mem_singleton.mp he
      exact silent_of_carries rfl hcmd
    case h_3 ha => exact absurd ha hack
    case h_4 => exact destStep_fedAck hcmd
    case h_5 =>
      refine .quiet c.frame_checkAndProcessDisconnect.sameDest ?_
      intro e he
      exact effects_checkAndProcessDisconnect (silentClass hown).toEffectClass rfl he
    case h_6 => exact destStep_none
  · exact destStep_processCommand hown hclean hcmd hr

end

end CommonCore

end Helics
