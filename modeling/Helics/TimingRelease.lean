import Helics.MessageEffects

namespace Helics

def isFederateTiming : Action → Bool
  | .cmdExecRequest | .cmdExecGrant | .cmdTimeRequest | .cmdTimeGrant | .cmdDisconnect
  | .cmdDisconnectFed => true
  | _ => false

/-- The parent is told of a departure under another action. -/
def asIssued (m : ActionMessage) : ActionMessage :=
  if m.messageAction = .cmdDisconnectFed then m.setAction .cmdDisconnect else m

def timingOf (fed : GlobalId) (m : ActionMessage) : Option ActionMessage :=
  if m.sourceId = fed ∧ isFederateTiming m.messageAction = true then some (asIssued m) else none

def handedOn (fed : GlobalId) (es : List CoreEffect) : List ActionMessage :=
  es.filterMap (fun e => e.carried.bind (timingOf fed))

theorem timingOf_eq_none (h : isFederateTiming m.messageAction = false) :
    timingOf fed m = none := by
  simp [timingOf, h]

theorem timingOf_of_source (h : m.sourceId ≠ fed) : timingOf fed m = none := by
  simp [timingOf, h]

theorem timingOf_eq_some (hs : m.sourceId = fed) (h : isFederateTiming m.messageAction = true) :
    timingOf fed m = some (asIssued m) := by
  simp [timingOf, hs, h]

theorem handedOn_append (fed : GlobalId) (es es' : List CoreEffect) :
    handedOn fed (es ++ es') = handedOn fed es ++ handedOn fed es' := List.filterMap_append

theorem handedOn_cons (h : e.carried.bind (timingOf fed) = none) :
    handedOn fed (e :: es) = handedOn fed es := List.filterMap_cons_none h

theorem handedOn_cons_carried (h : e.carried = some m) :
    handedOn fed (e :: es) = (timingOf fed m).toList ++ handedOn fed es := by
  unfold handedOn
  rw [List.filterMap_cons, h, Option.bind_some]
  cases timingOf fed m with
  | none => rfl
  | some m' => rfl

theorem handedOn_eq_nil : handedOn fed es = [] ↔ ∀ e ∈ es, e.carried.bind (timingOf fed) = none :=
  List.filterMap_eq_nil_iff

namespace CommonCore

theorem isTimingCommand_of_federate (h : isFederateTiming a = true) : isTimingCommand a = true := by
  cases a <;> first | rfl | cases h

theorem quiet_coreMade (hown : own ≠ fed) (h : CoreMade own e) :
    e.carried.bind (timingOf fed) = none := by
  cases e with
  | transmit r m => exact timingOf_of_source (h.1 ▸ hown)
  | addAction f m =>
    apply timingOf_eq_none
    obtain h | h | h | h := h
    · rw [h]; rfl
    · rw [h]; rfl
    · rw [h]; rfl
    · generalize m.messageAction = a at h
      cases a <;> first | rfl | cases h
  | addActionMessage m => rfl
  | _ => cases h

theorem quietClass (hown : own ≠ fed) : MessageClass own (fun m => timingOf fed m = none)
    (fun e => e.carried.bind (timingOf fed) = none) where
  made e h := quiet_coreMade hown h
  carry m e h hm := by
    rw [carried_of_carries h]
    exact hm
  dependency m h := by
    apply timingOf_eq_none
    generalize m.messageAction = a at h
    cases a <;> first | rfl | cases h
  ack m h := timingOf_eq_none (by rw [h]; rfl)
  readdress m dest handle h := by
    by_cases hm : m.sourceId = fed ∧ isFederateTiming m.messageAction = true
    · rw [timingOf_eq_some hm.1 hm.2] at h
      cases h
    · exact if_neg hm
  adopt m _ := timingOf_of_source hown
  leave m ha h := by
    apply timingOf_of_source
    intro hs
    rw [timingOf_eq_some (m := m) hs (by obtain ha | ha := ha <;> rw [ha] <;> rfl)] at h
    cases h
  inner e h := by rw [h]; rfl
  message m h := by
    apply timingOf_eq_none
    generalize m.messageAction = a at h
    cases a <;> first | rfl | cases h

theorem handedOn_coreMade (hown : own ≠ fed) (h : ∀ e ∈ es, CoreMade own e) :
    handedOn fed es = [] := handedOn_eq_nil.mpr fun e he => quiet_coreMade hown (h e he)

theorem filterMap_timingOf_filter (l : List ActionMessage) (p : ActionMessage → Bool)
    (h : ∀ m ∈ l, m.sourceId = fed → p m = true) :
    (l.filter p).filterMap (timingOf fed) = l.filterMap (timingOf fed) := by
  induction l with
  | nil => rfl
  | cons m l ih =>
    have ih' := ih (fun m' hm' => h m' (List.mem_cons_of_mem _ hm'))
    cases hp : p m with
    | true => rw [List.filter_cons_of_pos hp, List.filterMap_cons, List.filterMap_cons, ih']
    | false =>
      have hs : m.sourceId ≠ fed := by
        intro hs
        rw [h m List.mem_cons_self hs] at hp
        cases hp
      rw [List.filter_cons_of_neg (by simp [hp]), ih',
        List.filterMap_cons_none (timingOf_of_source hs)]

theorem filterMap_timingOf_filter_none (l : List ActionMessage) (p : ActionMessage → Bool)
    (h : ∀ m ∈ l, m.sourceId = fed → p m = false) : (l.filter p).filterMap (timingOf fed) = [] := by
  apply List.filterMap_eq_nil_iff.mpr
  intro m hm
  obtain ⟨hl, hp⟩ := List.mem_filter.mp hm
  apply timingOf_of_source
  intro hs
  rw [h m hl hs] at hp
  cases hp

end CommonCore

variable [DualMapped String GlobalId]

namespace CommonCore

def parkedOf (c : CommonCore) (fed : GlobalId) : List ActionMessage :=
  c.delayedTimingMessages.filterMap (timingOf fed)

variable {c : CommonCore}

theorem handedOn_route (hown : c.globalBrokerIdLocal ≠ fed) (cmd : ActionMessage)
    (moved : Bool) : handedOn fed (c.route cmd moved).2 = (timingOf fed cmd).toList := by
  obtain ⟨hnt, hes⟩ | ⟨e, es, hes, hc, hm⟩ := c.route_effects cmd moved
  · rw [hes, timingOf_eq_none]
    · rfl
    · cases ht : isFederateTiming cmd.messageAction with
      | false => rfl
      | true =>
        rw [isTimingCommand_of_federate ht] at hnt
        cases hnt
  · rw [hes, handedOn_cons_carried (carried_of_carries hc), handedOn_coreMade hown hm,
      List.append_nil]

theorem handedOn_routeAll (hown : c.globalBrokerIdLocal ≠ fed)
    (cmds : List ActionMessage) :
    handedOn fed (c.routeAll cmds).2 = cmds.filterMap (timingOf fed) := by
  induction cmds generalizing c with
  | nil => rfl
  | cons cmd cmds ih =>
    have hrest := ih (c := (c.route cmd false).1)
      (by rw [(c.frame_route cmd false).own]; exact hown)
    unfold routeAll
    rw [handedOn_append, routeMessage, handedOn_route hown, hrest, List.filterMap_cons]
    cases timingOf fed cmd with
    | none => rfl
    | some m => rfl

/-- What handling messages leaves alone as far as source filters and timing are concerned. -/
structure Calm (c c' : CommonCore) : Prop where
  own : c'.globalBrokerIdLocal = c.globalBrokerIdLocal
  ids : c'.loopFederates.indexOfId = c.loopFederates.indexOfId
  ongoing : c'.ongoingFilterProcesses = c.ongoingFilterProcesses
  parked : c'.delayedTimingMessages = c.delayedTimingMessages
  held : c'.delayTransmitQueue = c.delayTransmitQueue

theorem Frame.calm (h : Frame c c') : Calm c c' := ⟨h.own, h.ids, h.ongoing, h.parked, h.held⟩

theorem Calm.trans (h : Calm c c') (h' : Calm c' c'') : Calm c c'' :=
  ⟨h'.own.trans h.own, h'.ids.trans h.ids, h'.ongoing.trans h.ongoing, h'.parked.trans h.parked,
    h'.held.trans h.held⟩

theorem calm_noteDestRequest (c : CommonCore) (fed : GlobalId) (mid : Int) :
    Calm c (c.noteDestRequest fed mid) := ⟨rfl, rfl, rfl, rfl, rfl⟩

theorem calm_requestDestFilter (c : CommonCore) (m : ActionMessage) (ept : BasicHandleInfo)
    (filt : FilterInfo) : Calm c (c.requestDestFilter m ept filt).1 := by
  unfold requestDestFilter
  dsimp only
  split
  · exact (c.calm_noteDestRequest _ _).trans (frame_route _ _ _).calm
  · exact ⟨rfl, rfl, rfl, rfl, rfl⟩

theorem quiet_requestDestFilter (hown : c.globalBrokerIdLocal ≠ fed)
    (m : ActionMessage) (ept : BasicHandleInfo) (filt : FilterInfo) :
    handedOn fed (c.requestDestFilter m ept filt).2 = [] := by
  unfold requestDestFilter
  dsimp only
  split
  · refine (handedOn_cons (by exact timingOf_eq_none rfl)).trans ?_
    refine (handedOn_route (by exact hown) _ _).trans ?_
    rw [timingOf_eq_none]
    · rfl
    · rfl
  · rfl

theorem quiet_delivers (hown : c.globalBrokerIdLocal ≠ fed)
    (h : Delivers (fun e => e.carried.bind (timingOf fed) = none) c res) :
    Calm c res.1 ∧ handedOn fed res.2 = [] := by
  obtain ⟨hf, he⟩ | ⟨m, ept, filt, pre, _, hpre, rfl⟩ := h
  · exact ⟨hf.calm, handedOn_eq_nil.mpr he⟩
  · refine ⟨c.calm_requestDestFilter m ept filt, ?_⟩
    rw [handedOn_append, handedOn_eq_nil.mpr hpre, quiet_requestDestFilter hown]
    rfl

/-- Commands of the federate wait only while its messages are being filtered. -/
structure InOrder (fed : GlobalId) (c : CommonCore) : Prop where
  other : c.globalBrokerIdLocal ≠ fed
  known : c.isLocal fed = true
  held : ∀ m ∈ c.delayTransmitQueue, timingOf fed m = none
  waiting : c.hasOngoing fed = false → c.parkedOf fed = []

theorem parkedOf_eq {c c' : CommonCore} (h : c'.delayedTimingMessages = c.delayedTimingMessages)
    (fed : GlobalId) : c'.parkedOf fed = c.parkedOf fed := by
  unfold parkedOf
  rw [h]

theorem hasOngoing_eq {c c' : CommonCore}
    (h : c'.ongoingFilterProcesses = c.ongoingFilterProcesses) (fed : GlobalId) :
    c'.hasOngoing fed = c.hasOngoing fed := by
  unfold hasOngoing
  rw [h]

theorem Calm.inOrder (h : Calm c c') (hc : InOrder fed c) : InOrder fed c' where
  other := by rw [h.own]; exact hc.other
  known := (isLocal_eq h.ids fed).trans hc.known
  held := by rw [h.held]; exact hc.held
  waiting := by
    rw [hasOngoing_eq h.ongoing, parkedOf_eq h.parked]
    exact hc.waiting

/-- The timing commands that were parked or arrive leave in order or stay parked, and leave only
when no message of the federate is being filtered. -/
structure Passes (fed : GlobalId) (arrived : List ActionMessage) (c : CommonCore)
    (res : CommonCore × List CoreEffect) : Prop where
  order : handedOn fed res.2 ++ res.1.parkedOf fed = c.parkedOf fed ++ arrived
  idle : handedOn fed res.2 ≠ [] → res.1.hasOngoing fed = false
  inOrder : InOrder fed res.1

theorem Calm.passes (h : Calm c res.1) (hc : InOrder fed c) (hq : handedOn fed res.2 = []) :
    Passes fed [] c res where
  order := by rw [hq, parkedOf_eq h.parked, List.append_nil, List.nil_append]
  idle hne := absurd hq hne
  inOrder := h.inOrder hc

theorem frame_transmitDelayedMessages (c : CommonCore) (source : GlobalId) :
    (c.transmitDelayedMessages source).1.globalBrokerIdLocal = c.globalBrokerIdLocal ∧
      (c.transmitDelayedMessages source).1.loopFederates.indexOfId = c.loopFederates.indexOfId ∧
      (c.transmitDelayedMessages source).1.ongoingFilterProcesses = c.ongoingFilterProcesses := by
  have h := c.frame_routeAll (c.delayTransmitQueue.filter
    (fun cmd => decide (cmd.sourceId = source)) ++
    c.delayedTimingMessages.filter (fun cmd => decide (cmd.sourceId = source)))
  exact ⟨h.own, h.ids, h.ongoing⟩

/-- A release hands on all parked commands of its federate and none of another one. -/
theorem transmitDelayedMessages_spec (hown : c.globalBrokerIdLocal ≠ fed)
    (hheld : ∀ m ∈ c.delayTransmitQueue, timingOf fed m = none) (source : GlobalId) :
    handedOn fed (c.transmitDelayedMessages source).2 =
        (if source = fed then c.parkedOf fed else []) ∧
      (c.transmitDelayedMessages source).1.parkedOf fed =
        (if source = fed then [] else c.parkedOf fed) := by
  have hheld' : (c.delayTransmitQueue.filter
      (fun cmd => decide (cmd.sourceId = source))).filterMap (timingOf fed) = [] := by
    apply List.filterMap_eq_nil_iff.mpr
    intro m hm
    exact hheld m (List.mem_filter.mp hm).1
  unfold transmitDelayedMessages parkedOf
  rw [handedOn_routeAll hown, List.filterMap_append, hheld', List.nil_append]
  by_cases hs : source = fed
  · rw [if_pos hs, if_pos hs]
    exact ⟨filterMap_timingOf_filter _ _ (by simp [hs]),
      filterMap_timingOf_filter_none _ _ (by simp [hs])⟩
  rw [if_neg hs, if_neg hs]
  have hne (m : ActionMessage) (hm : m.sourceId = fed) : m.sourceId ≠ source := by
    rw [hm]
    exact Ne.symm hs
  refine ⟨filterMap_timingOf_filter_none _ _ ?_, filterMap_timingOf_filter _ _ ?_⟩
  · intro m _ hm
    simp [hne m hm]
  · intro m _ hm
    simp [hne m hm]

/-- Passing on without arrivals, where no further message starts to be filtered. -/
structure Releases (fed : GlobalId) (c : CommonCore) (res : CommonCore × List CoreEffect) : Prop
    extends Passes fed [] c res where
  settles : c.hasOngoing fed = false → res.1.hasOngoing fed = false

theorem Releases.refl (h : InOrder fed c) (he : handedOn fed es = []) : Releases fed c (c, es) where
  toPasses := Calm.passes ⟨rfl, rfl, rfl, rfl, rfl⟩ h he
  settles hc := hc

theorem Releases.trans (h : Releases fed c res) (h' : Releases fed res.1 res') :
    Releases fed c (res'.1, res.2 ++ res'.2) where
  order := by
    have ho := h.order
    have ho' := h'.order
    rw [List.append_nil] at ho' ⊢
    rw [handedOn_append, List.append_assoc, ho', ho, List.append_nil]
  idle hne := by
    rw [handedOn_append] at hne
    by_cases hh : handedOn fed res.2 = []
    · rw [hh, List.nil_append] at hne
      exact h'.idle hne
    · exact h'.settles (h.idle hh)
  inOrder := h'.inOrder
  settles hc := h'.settles (h.settles hc)

theorem hasOngoing_erase (h : c.hasOngoing fed = false) :
    (c.eraseOngoing other mid).hasOngoing fed = false := by
  apply List.any_eq_false.mpr
  intro p hp
  exact List.any_eq_false.mp h p (List.mem_filter.mp hp).1

theorem hasOngoing_erase_other (c : CommonCore) (h : other ≠ fed) (id : Int) :
    (c.eraseOngoing other id).hasOngoing fed = c.hasOngoing fed := by
  cases hc : c.hasOngoing fed with
  | false => exact hasOngoing_erase hc
  | true =>
    obtain ⟨p, hp, hf⟩ := List.any_eq_true.mp hc
    refine List.any_eq_true.mpr ⟨p, List.mem_filter.mpr ⟨hp, ?_⟩, hf⟩
    have hpf : p.1 = fed := by simpa using hf
    simp only [decide_eq_true_eq]
    rintro rfl
    exact h hpf

structure EndsFiltering (other : GlobalId) (c c' : CommonCore) : Prop where
  own : c'.globalBrokerIdLocal = c.globalBrokerIdLocal
  ids : c'.loopFederates.indexOfId = c.loopFederates.indexOfId
  parked : c'.delayedTimingMessages = c.delayedTimingMessages
  held : c'.delayTransmitQueue = c.delayTransmitQueue
  gone : ∀ fed, c.hasOngoing fed = false → c'.hasOngoing fed = false
  kept : ∀ fed, other ≠ fed → c'.hasOngoing fed = c.hasOngoing fed

theorem Calm.ends (h : Calm c c') (other : GlobalId) : EndsFiltering other c c' :=
  ⟨h.own, h.ids, h.parked, h.held, fun fed hc => (hasOngoing_eq h.ongoing fed).trans hc,
    fun fed _ => hasOngoing_eq h.ongoing fed⟩

theorem Calm.ends_erase (h : Calm (c.eraseOngoing other mid) c') : EndsFiltering other c c' where
  own := h.own
  ids := h.ids
  parked := h.parked
  held := h.held
  gone fed hc := (hasOngoing_eq h.ongoing fed).trans (hasOngoing_erase hc)
  kept fed hne := (hasOngoing_eq h.ongoing fed).trans (hasOngoing_erase_other c hne mid)

theorem EndsFiltering.trans (h : EndsFiltering other c c') (h' : Calm c' c'') :
    EndsFiltering other c c'' where
  own := h'.own.trans h.own
  ids := h'.ids.trans h.ids
  parked := h'.parked.trans h.parked
  held := h'.held.trans h.held
  gone fed hc := (hasOngoing_eq h'.ongoing fed).trans (h.gone fed hc)
  kept fed hne := (hasOngoing_eq h'.ongoing fed).trans (h.kept fed hne)

theorem releases_busy (hc : InOrder fed c) (h : EndsFiltering other c c')
    (hbusy : c'.hasOngoing other = true) : Releases fed c (c', []) := by
  have hparked := parkedOf_eq h.parked fed
  refine ⟨⟨by rw [hparked]; simp [handedOn], by simp [handedOn], by rw [h.own]; exact hc.other,
    (isLocal_eq h.ids fed).trans hc.known, by rw [h.held]; exact hc.held, ?_⟩, h.gone fed⟩
  intro hidle
  by_cases hs : other = fed
  · rw [hs] at hbusy
    exact absurd hbusy (ne_true_of_eq_false hidle)
  · rw [hparked]
    rw [h.kept fed hs] at hidle
    exact hc.waiting hidle

theorem releases_transmit (hc : InOrder fed c) (h : EndsFiltering other c c')
    (hidle : c'.hasOngoing other = false) : Releases fed c (c'.transmitDelayedMessages other) := by
  have hown : c'.globalBrokerIdLocal ≠ fed := by rw [h.own]; exact hc.other
  have hheld : ∀ m ∈ c'.delayTransmitQueue, timingOf fed m = none := by rw [h.held]; exact hc.held
  obtain ⟨hhand, hrest⟩ := transmitDelayedMessages_spec hown hheld other
  obtain ⟨hown', hids, hongoing⟩ := c'.frame_transmitDelayedMessages other
  have hgone := hasOngoing_eq hongoing fed
  have hknown := ((isLocal_eq hids fed).trans (isLocal_eq h.ids fed)).trans hc.known
  have hheld' (m) (hm : m ∈ (c'.transmitDelayedMessages other).1.delayTransmitQueue) :
      timingOf fed m = none := hheld m (List.mem_filter.mp hm).1
  have hother : (c'.transmitDelayedMessages other).1.globalBrokerIdLocal ≠ fed := by
    rw [hown']
    exact hown
  rw [parkedOf_eq h.parked fed] at hhand hrest
  by_cases hs : other = fed
  · rw [if_pos hs] at hhand hrest
    rw [hs] at hidle
    exact ⟨⟨by rw [hhand, hrest], fun _ => hgone.trans hidle, hother, hknown, hheld',
      fun _ => hrest⟩, fun _ => hgone.trans hidle⟩
  rw [if_neg hs] at hhand hrest
  have hkept := hgone.trans (h.kept fed hs)
  refine ⟨⟨by rw [hhand, hrest]; simp, by simp [hhand], hother, hknown, hheld', ?_⟩,
    fun hno => hkept.trans hno⟩
  intro hno
  rw [hrest]
  exact hc.waiting (hkept.symm.trans hno)

theorem releases_releaseIfIdle (hc : InOrder fed c) (h : EndsFiltering other c c') :
    Releases fed c (c'.releaseIfIdle other) := by
  unfold releaseIfIdle
  split
  case isTrue hbusy => exact releases_busy hc h hbusy
  case isFalse hidle => exact releases_transmit hc h (Bool.eq_false_of_not_eq_true hidle)

theorem Releases.after (h : Releases fed c res) (hl : handedOn fed l = []) :
    Releases fed c (res.1, l ++ res.2) := by
  have happ : handedOn fed (l ++ res.2) = handedOn fed res.2 := by
    rw [handedOn_append, hl, List.nil_append]
  exact ⟨⟨by rw [happ]; exact h.order, by rw [happ]; exact h.idle, h.inOrder⟩, h.settles⟩

section
variable (hc : InOrder fed c)
include hc

theorem releases_finishFilterReturn (other : GlobalId) (mid : Int)
    (hcmd : isMessageAction cmd.messageAction = true) :
    Releases fed c (c.finishFilterReturn other mid cmd) := by
  have hown : (c.eraseOngoing other mid).globalBrokerIdLocal ≠ fed := hc.other
  obtain ⟨hcalm, hquiet⟩ := quiet_delivers hown
    (delivers_deliverMessage (quietClass hown) rfl ((quietClass hown).message cmd hcmd))
  exact (releases_releaseIfIdle hc hcalm.ends_erase).after hquiet

theorem releases_filterRequest (hasked : EndsFiltering other c c')
    (hcmd : timingOf fed cmd = none) :
    Releases fed c (((c'.routeMessage cmd).1.releaseIfIdle other).1,
      (c'.routeMessage cmd).2 ++ ((c'.routeMessage cmd).1.releaseIfIdle other).2) := by
  have hsent := (c'.frame_route cmd false).calm
  have hown : c'.globalBrokerIdLocal ≠ fed := by rw [hasked.own]; exact hc.other
  refine (releases_releaseIfIdle hc (hasked.trans hsent)).after ?_
  rw [routeMessage, handedOn_route hown, hcmd]
  rfl

theorem releases_returnFilterLoop (other : GlobalId) (mid : Int) (size : Nat)
    (filts : List FilterInfo) (ii : Nat) (hcmd : isMessageAction cmd.messageAction = true) :
    Releases fed c (returnFilterLoop other mid size c filts ii cmd) := by
  induction filts generalizing ii cmd with
  | nil =>
    unfold returnFilterLoop
    split
    · exact .refl hc rfl
    · exact releases_finishFilterReturn hc other mid hcmd
  | cons filt filts ih =>
    unfold returnFilterLoop
    split
    · exact .refl hc rfl
    split
    · exact ih (ii + 1) hcmd
    split
    · split
      · exact .refl hc rfl
      case h_2 op hop =>
        dsimp only
        split
        case h_1 message' _ =>
          have hsent : isMessageAction (ActionMessage.ofMessage message').messageAction = true :=
            rfl
          exact (ih (ii + 1) hsent).after (l := [_]) rfl
        case h_2 =>
          have hends : EndsFiltering other c (c.eraseOngoing other mid) :=
            Calm.ends_erase ⟨rfl, rfl, rfl, rfl, rfl⟩
          exact (releases_releaseIfIdle hc hends).after (l := [_]) rfl
    · refine releases_filterRequest hc ?_ ((quietClass hc.other).message _
        (isMessageAction_filterRequest cmd filt ii size))
      split
      · exact Calm.ends ⟨rfl, rfl, rfl, rfl, rfl⟩ other
      · have herased : Calm (c.eraseOngoing other mid) (c.eraseOngoing other mid) :=
          ⟨rfl, rfl, rfl, rfl, rfl⟩
        exact herased.ends_erase

theorem releases_processFilterReturn (hcmd : isMessageAction cmd.messageAction = true) :
    Releases fed c (c.processFilterReturn cmd) := by
  unfold processFilterReturn
  split
  · exact .refl hc rfl
  case h_2 ept _ =>
    dsimp only
    split
    · have hdropped : Releases fed c (if cmd.messageAction = .cmdNullMessage then
          (c.eraseOngoing ept.getFederateId cmd.messageID).releaseIfIdle ept.getFederateId
        else (c, [])) := by
        split
        · exact releases_releaseIfIdle hc (Calm.ends_erase ⟨rfl, rfl, rfl, rfl, rfl⟩)
        · exact .refl hc rfl
      split
      · have hnull : handedOn fed [.nullDereference] = [] := rfl
        exact hdropped.trans (.refl hdropped.inOrder hnull)
      · split
        · exact hdropped.trans (releases_returnFilterLoop hdropped.inOrder _ _ _ _ _ hcmd)
        · exact hdropped.trans (releases_finishFilterReturn hdropped.inOrder _ _ hcmd)
    · exact .refl hc rfl

end

end CommonCore

end Helics
