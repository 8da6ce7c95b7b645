import Helics.TimingRelease

namespace Helics

namespace CommonCore

theorem parkable_or_disconnect (h : isFederateTiming a = true) :
    isParkable a = true ∨ a = .cmdDisconnect ∨ a = .cmdDisconnectFed := by
  cases a <;> simp_all [isFederateTiming, isParkable]

theorem timingOf_priority (h : CoreBroker.isPriorityCommand cmd.messageAction = true) :
    timingOf fed cmd = none := by
  apply timingOf_eq_none
  generalize cmd.messageAction = a at h
  cases a <;> first | rfl | cases h

section
variable {cmd : ActionMessage}
  (h : cmd.messageAction = .cmdDisconnect ∨ cmd.messageAction = .cmdDisconnectFed)
include h

theorem asIssued_disconnect : asIssued cmd = cmd.setAction .cmdDisconnect := by
  unfold asIssued
  split
  · rfl
  case isFalse hn =>
    have ha : cmd.messageAction = .cmdDisconnect := h.resolve_right hn
    cases cmd
    dsimp only at ha
    rw [ha]
    rfl

theorem timingOf_leave : timingOf fed (cmd.setAction .cmdDisconnectFed) = timingOf fed cmd := by
  have ht : isFederateTiming cmd.messageAction = true := by
    obtain h | h := h
    · rw [h]; rfl
    · rw [h]; rfl
  by_cases hs : cmd.sourceId = fed
  · rw [timingOf_eq_some hs ht, timingOf_eq_some (by exact hs) (by rfl), asIssued_disconnect h]
    rfl
  · rw [timingOf_of_source hs]
    exact timingOf_of_source hs

end

section
variable [DualMapped String GlobalId]

variable (c : CommonCore) (cmd : ActionMessage)

theorem parkedOf_park (fed : GlobalId) :
    (c.park cmd).1.parkedOf fed = c.parkedOf fed ++ (timingOf fed cmd).toList := by
  unfold park parkedOf
  rw [List.filterMap_append, List.filterMap_cons, List.filterMap_nil]
  cases timingOf fed cmd with
  | none => rfl
  | some m => rfl

variable {c} {cmd}

theorem passes_park (hc : InOrder fed c) (hp : c.parks cmd = true) :
    Passes fed (timingOf fed cmd).toList c (c.park cmd) where
  order := c.parkedOf_park cmd fed
  idle h := absurd rfl h
  inOrder := by
    refine ⟨hc.other, hc.known, hc.held, ?_⟩
    intro hidle
    have hs : cmd.sourceId ≠ fed := by
      intro hs
      have hbusy := (Bool.and_eq_true_iff.mp hp).2
      rw [hs] at hbusy
      exact absurd hbusy (ne_true_of_eq_false hidle)
    rw [parkedOf_park, hc.waiting hidle, timingOf_of_source hs]
    rfl

theorem calm_eraseDestRequest (c : CommonCore) (fed : GlobalId) (mid : Int) :
    Calm c (c.eraseDestRequest fed mid) := ⟨rfl, rfl, rfl, rfl, rfl⟩

theorem calm_destFilterReturn (c : CommonCore) (cmd : ActionMessage) :
    Calm c (c.processDestFilterReturn cmd).1 := by
  have hrefl : Calm c c := ⟨rfl, rfl, rfl, rfl, rfl⟩
  unfold processDestFilterReturn
  split
  · exact hrefl
  dsimp only
  split
  · split
    · exact (c.calm_eraseDestRequest _ _).trans (frame_route _ _ _).calm
    · split
      · exact c.calm_eraseDestRequest _ _
      · exact (c.calm_eraseDestRequest _ _).trans (frame_finishDestFilterReturn _ _ _ _).calm
  · exact hrefl

theorem quiet_finishDestFilterReturn (hown : c.globalBrokerIdLocal ≠ fed)
    (other : GlobalId) (filtFunc : FilterCoordinator)
    (hcmd : isMessageAction cmd.messageAction = true) :
    handedOn fed (c.finishDestFilterReturn other filtFunc cmd).2 = [] := by
  have hclass := quietClass hown
  apply handedOn_eq_nil.mpr
  intro e he
  unfold finishDestFilterReturn at he
  simp only [List.mem_append, List.mem_singleton] at he
  obtain ((he | rfl) | he) | he := he
  · exact hclass.cloned rfl he
  · exact hclass.message cmd hcmd
  · refine effects_route hclass.toEffectClass ?_ (timingOf_eq_none (by rfl)) he
    exact (frame_cloneToDestFilters _ _ _).own
  · refine effects_route hclass.toEffectClass ?_ (timingOf_eq_none (by rfl)) he
    exact (frame_route _ _ _).own.trans (frame_cloneToDestFilters _ _ _).own

theorem quiet_destFilterReturn (hown : c.globalBrokerIdLocal ≠ fed)
    (hcmd : isMessageAction cmd.messageAction = true) :
    handedOn fed (c.processDestFilterReturn cmd).2 = [] := by
  unfold processDestFilterReturn
  split
  · rfl
  dsimp only
  split
  · split
    · refine (handedOn_route (by exact hown) _ _).trans ?_
      rw [timingOf_eq_none]
      · rfl
      · rfl
    · split
      · rfl
      · exact quiet_finishDestFilterReturn (by exact hown) _ _ hcmd
  · rfl

section
variable {c : CommonCore} (hc : InOrder fed c)
include hc

theorem inOrder_addOngoing (other : GlobalId) (mid : Int) :
    InOrder fed (c.addOngoing other mid) where
  other := hc.other
  known := hc.known
  held := hc.held
  waiting hidle := by
    apply hc.waiting
    apply List.any_eq_false.mpr
    intro p hp
    refine List.any_eq_false.mp hidle p ?_
    dsimp only [addOngoing]
    split
    · exact hp
    · exact List.mem_append_left _ hp

theorem passes_sendMessage (hcmd : isMessageAction cmd.messageAction = true) :
    Passes fed [] c (c.processSendMessage cmd) := by
  have hclass := quietClass hc.other
  unfold processSendMessage
  split
  · obtain ⟨hquiet, hact, c₁, hframe, hres⟩ := processMessage_spec hclass rfl hcmd
    have hnoted : InOrder fed (c.processMessage cmd).1 ∧
        (c.processMessage cmd).1.parkedOf fed = c.parkedOf fed := by
      have hc₁ := hframe.calm.inOrder hc
      have hparked := parkedOf_eq hframe.parked fed
      obtain hres | ⟨other, mid, hres⟩ := hres
      · rw [hres]
        exact ⟨hc₁, hparked⟩
      · rw [hres]
        exact ⟨inOrder_addOngoing hc₁ other mid, hparked⟩
    obtain ⟨hcalm, hsent⟩ := quiet_delivers hnoted.1.other (delivers_deliverMessage
      (quietClass hnoted.1.other) rfl ((quietClass hnoted.1.other).message _ hact))
    have hnone : handedOn fed ((c.processMessage cmd).2.2 ++
        ((c.processMessage cmd).1.deliverMessage (c.processMessage cmd).2.1).2) = [] := by
      rw [handedOn_append, handedOn_eq_nil.mpr hquiet, hsent]
      rfl
    refine ⟨?_, fun h => absurd hnone h, hcalm.inOrder hnoted.1⟩
    rw [hnone, parkedOf_eq hcalm.parked, hnoted.2, List.append_nil]
    rfl
  · obtain ⟨hcalm, hquiet⟩ := quiet_delivers hc.other
      (delivers_deliverMessage hclass rfl (hclass.message cmd hcmd))
    exact hcalm.passes hc hquiet

theorem passes_filterCommand
    (hf : isFilterCommand cmd.messageAction = true) : Passes fed [] c (c.processCommand cmd) := by
  have hclass := quietClass hc.other
  have hnone : timingOf fed cmd = none := by
    apply timingOf_eq_none
    generalize cmd.messageAction = a at hf
    cases a <;> first | rfl | cases hf
  unfold processCommand
  split
  case h_19 | h_20 | h_21 =>
    obtain ⟨hcalm, hquiet⟩ := quiet_delivers hc.other
      (delivers_processMessageFilter hclass rfl hnone)
    exact hcalm.passes hc hquiet
  case h_22 ha | h_23 ha => exact (releases_processFilterReturn hc (by rw [ha]; rfl)).toPasses
  case h_24 ha | h_25 ha =>
    exact (c.calm_destFilterReturn cmd).passes hc
      (quiet_destFilterReturn hc.other (by rw [ha]; rfl))
  case h_32 ha => exact passes_sendMessage hc (by rw [ha]; rfl)
  all_goals simp_all [isFilterCommand]

theorem passes_other (hf : isFilterCommand cmd.messageAction = false)
    (hp : isParkable cmd.messageAction = true → c.parks cmd = false)
    (hnone : timingOf fed cmd = none) : Passes fed [] c (c.processCommand cmd) := by
  refine (c.frame_processCommand cmd hf hp).calm.passes hc (handedOn_eq_nil.mpr ?_)
  intro e he
  exact effects_processCommand (quietClass hc.other).toEffectClass rfl hnone hf he

theorem passes_idle (hidle : c.hasOngoing fed = false)
    (hf : Frame c res.1) (hh : handedOn fed res.2 = arrived) : Passes fed arrived c res where
  order := by
    rw [hh, parkedOf_eq hf.parked, hc.waiting hidle, List.append_nil]
    rfl
  idle _ := (hf.hasOngoing fed).trans hidle
  inOrder := hf.calm.inOrder hc

end

theorem handedOn_execCommand (hown : c.globalBrokerIdLocal ≠ fed)
    (hs : cmd.sourceId = fed) (hp : c.parks cmd = false) :
    handedOn fed (c.processExecCommand cmd).2 = (timingOf fed cmd).toList := by
  unfold processExecCommand
  rw [if_neg (ne_true_of_eq_false hp)]
  split
  · rw [handedOn_cons_carried rfl, handedOn_coreMade hown, List.append_nil]
    intro e he
    split at he
    · cases he
    · exact coreMade_coreQueued he
  · rw [if_neg (by rw [hs]; exact hown.symm)]
    exact handedOn_route hown cmd false

theorem handedOn_timeCommand (hown : c.globalBrokerIdLocal ≠ fed)
    (hs : cmd.sourceId = fed) (hp : c.parks cmd = false) :
    handedOn fed (c.processTimeCommand cmd).2 = (timingOf fed cmd).toList := by
  unfold processTimeCommand
  rw [if_neg (ne_true_of_eq_false hp), if_neg (by rw [hs]; exact hown.symm)]
  exact handedOn_route hown cmd false

section
variable (hown : c.globalBrokerIdLocal ≠ fed)
include hown

theorem handedOn_checkAndProcessDisconnect : handedOn fed c.checkAndProcessDisconnect.2.2 = [] :=
  handedOn_coreMade hown fun _ he => coreMade_checkAndProcessDisconnect he

theorem handedOn_acknowledgeDisconnect
    (cmd : ActionMessage) : handedOn fed (c.acknowledgeDisconnect cmd).2 = [] := by
  unfold acknowledgeDisconnect
  split
  · rfl
  refine (handedOn_route hown _ _).trans ?_
  rw [timingOf_eq_none]
  · rfl
  · rfl

section
variable (h : cmd.messageAction = .cmdDisconnect ∨ cmd.messageAction = .cmdDisconnectFed)
include h

theorem handedOn_departure : handedOn fed (c.checkAndProcessDisconnect.2.2 ++
        [.transmit parentRouteId (cmd.setAction .cmdDisconnectFed)] ++
        (c.checkAndProcessDisconnect.2.1.acknowledgeDisconnect cmd).2) =
      (timingOf fed cmd).toList := by
  have hleft : c.checkAndProcessDisconnect.2.1.globalBrokerIdLocal ≠ fed := by
    rw [c.frame_checkAndProcessDisconnect.own]
    exact hown
  rw [handedOn_append, handedOn_append, handedOn_checkAndProcessDisconnect hown,
    handedOn_acknowledgeDisconnect hleft, handedOn_cons_carried rfl, timingOf_leave h]
  simp [handedOn]

theorem handedOn_fedDisconnect :
    handedOn fed (c.processFedDisconnect cmd).2 = (timingOf fed cmd).toList ∨
      handedOn fed (c.processFedDisconnect cmd).2 = [] := by
  unfold processFedDisconnect
  split
  · exact .inl (handedOn_route hown cmd false)
  split
  · split
    · exact .inr rfl
    dsimp only
    split
    · left
      exact handedOn_departure (by exact hown) h
    · right
      exact handedOn_checkAndProcessDisconnect (by exact hown)
  · exact .inr rfl

end

end

/-- The federate leaves while one of its messages is being filtered. -/
def Overtakes (fed : GlobalId) (c : CommonCore) (cmd : ActionMessage) : Prop :=
  cmd.sourceId = fed ∧
    (cmd.messageAction = .cmdDisconnect ∨ cmd.messageAction = .cmdDisconnectFed) ∧
    (cmd.destId ≠ parentBrokerId ∨ c.brokerState.code < BrokerState.terminating.code) ∧
    c.hasOngoing fed = true

/-- A command that the core may process in its turn; cores and federates have different
identifiers. -/
structure Timely (fed : GlobalId) (c : CommonCore) (cmd : ActionMessage) : Prop where
  inTurn : ¬Overtakes fed c cmd
  distinct : cmd.messageAction = .cmdBrokerAck → cmd.destId ≠ fed

theorem passes_parkable (hc : InOrder fed c) (ha : isParkable cmd.messageAction = true) :
    Passes fed (timingOf fed cmd).toList c (c.processCommand cmd) := by
  cases hp : c.parks cmd with
  | true =>
    rw [processCommand_park ha hp]
    exact passes_park hc hp
  | false =>
    by_cases hs : cmd.sourceId = fed
    · have hidle : c.hasOngoing fed = false := by
        unfold parks at hp
        rw [hs, hc.known, Bool.true_and] at hp
        exact hp
      obtain h | h := c.processCommand_parkable ha
      · rw [h]
        exact passes_idle hc hidle (c.frame_execCommand cmd hp)
          (handedOn_execCommand hc.other hs hp)
      · rw [h]
        exact passes_idle hc hidle (c.frame_timeCommand cmd hp)
          (handedOn_timeCommand hc.other hs hp)
    · rw [timingOf_of_source hs]
      refine passes_other hc ?_ (fun _ => hp) (timingOf_of_source hs)
      generalize cmd.messageAction = a at ha
      cases a <;> first | rfl | cases ha

theorem passes_disconnect (hc : InOrder fed c) (hturn : ¬Overtakes fed c cmd)
    (hs : cmd.sourceId = fed)
    (ha : cmd.messageAction = .cmdDisconnect ∨ cmd.messageAction = .cmdDisconnectFed) :
    ∃ arrived, (arrived = (timingOf fed cmd).toList ∨ arrived = []) ∧
      Passes fed arrived c (c.processFedDisconnect cmd) := by
  cases hp : c.hasOngoing fed with
  | true =>
    have hlate : ¬(cmd.destId ≠ parentBrokerId ∨
        c.brokerState.code < BrokerState.terminating.code) := fun h => hturn ⟨hs, ha, h, hp⟩
    have hnone : c.processFedDisconnect cmd = (c, []) := by
      unfold processFedDisconnect
      rw [if_neg (fun h => hlate (.inl h)), if_neg (fun h => hlate (.inr h))]
    rw [hnone]
    exact ⟨[], .inr rfl, Calm.passes ⟨rfl, rfl, rfl, rfl, rfl⟩ hc rfl⟩
  | false =>
    exact ⟨_, handedOn_fedDisconnect hc.other ha,
      passes_idle hc hp (c.frame_fedDisconnect cmd) rfl⟩

/-- The commands of the federate that a command adds to those to be handed on; a departure may
be subsumed by that of the core. -/
def Arrives (fed : GlobalId) (cmd : ActionMessage) (arrived : List ActionMessage) : Prop :=
  arrived = (timingOf fed cmd).toList ∨ arrived = [] ∧ isParkable cmd.messageAction = false

theorem passes_processCommand (hc : InOrder fed c) (hturn : ¬Overtakes fed c cmd) :
    ∃ arrived, Arrives fed cmd arrived ∧ Passes fed arrived c (c.processCommand cmd) := by
  cases hf : isFilterCommand cmd.messageAction with
  | true =>
    refine ⟨[], .inr ⟨rfl, ?_⟩, passes_filterCommand hc hf⟩
    generalize cmd.messageAction = a at hf
    cases a <;> first | rfl | cases hf
  | false =>
    cases ha : isParkable cmd.messageAction with
    | true => exact ⟨_, .inl rfl, passes_parkable hc ha⟩
    | false =>
      by_cases hd : cmd.sourceId = fed ∧
          (cmd.messageAction = .cmdDisconnect ∨ cmd.messageAction = .cmdDisconnectFed)
      · obtain ⟨arrived, harr, hpass⟩ := passes_disconnect hc hturn hd.1 hd.2
        have heq : c.processCommand cmd = c.processFedDisconnect cmd := by
          unfold processCommand
          obtain h | h := hd.2
          · rw [h]
          · rw [h]
        rw [heq]
        refine ⟨arrived, ?_, hpass⟩
        obtain h | h := harr
        · exact .inl h
        · exact .inr ⟨h, ha⟩
      · have hnone : timingOf fed cmd = none := by
          apply if_neg
          rintro ⟨hs, ht⟩
          obtain h | h := parkable_or_disconnect ht
          · exact absurd h (ne_true_of_eq_false ha)
          · exact hd ⟨hs, h⟩
        refine ⟨[], .inr ⟨rfl, ha⟩, passes_other hc hf (fun h => ?_) hnone⟩
        rw [ha] at h
        cases h

section
variable {c : CommonCore} (hc : InOrder fed c)
include hc

theorem passes_regFed (hcmd : timingOf fed cmd = none) : Passes fed [] c (c.regFed cmd) := by
  have hids := c.ids_regFed cmd
  unfold regFed at hids ⊢
  split at hids
  case isTrue hreg =>
    rw [if_pos hreg]
    exact Calm.passes ⟨rfl, hids, rfl, rfl, rfl⟩ hc (handedOn_cons (timingOf_of_source hc.other))
  case isFalse hreg =>
    rw [if_neg hreg]
    refine ⟨by simp [handedOn, parkedOf], fun h => absurd rfl h, hc.other,
      (isLocal_eq hids fed).trans hc.known, ?_, hc.waiting⟩
    intro m hm
    cases List.mem_append.mp hm with
    | inl h => exact hc.held m h
    | inr h =>
      obtain rfl := List.mem_singleton.mp h
      exact hcmd

theorem passes_fedAck (hcmd : timingOf fed cmd = none) : Passes fed [] c (c.fedAck cmd) := by
  have hknown := isLocal_fedAck hc.known cmd
  unfold fedAck at hknown ⊢
  split at hknown
  · exact Calm.passes ⟨rfl, rfl, rfl, rfl, rfl⟩ hc rfl
  split at hknown
  case isTrue hflag =>
    rw [if_pos hflag]
    exact Calm.passes ⟨rfl, rfl, rfl, rfl, rfl⟩ hc (handedOn_cons hcmd)
  case isFalse hflag =>
    have hquiet : handedOn fed [.addAction cmd.destId cmd] = [] := handedOn_cons hcmd
    rw [if_neg hflag]
    exact ⟨by rw [hquiet]; simp [parkedOf], fun h => absurd hquiet h, hc.other, hknown, hc.held,
      hc.waiting⟩

theorem passes_transmitAllDelayed : Passes fed [] c c.transmitAllDelayed := by
  have hnamed : (c.delayTransmitQueue.map (fun m => if m.sourceId = parentBrokerId then
      { m with sourceId := c.globalBrokerIdLocal } else m)).filterMap (timingOf fed) = [] := by
    apply List.filterMap_eq_nil_iff.mpr
    intro m hm
    obtain ⟨m', hm', rfl⟩ := List.mem_map.mp hm
    split
    · exact timingOf_of_source hc.other
    · exact hc.held m' hm'
  have hempty : InOrder fed { c with delayTransmitQueue := [] } :=
    ⟨hc.other, hc.known, fun m hm => absurd hm List.not_mem_nil, hc.waiting⟩
  have hcalm := (frame_routeAll { c with delayTransmitQueue := [] } (c.delayTransmitQueue.map
    (fun m => if m.sourceId = parentBrokerId then { m with sourceId := c.globalBrokerIdLocal }
      else m))).calm
  have hpass : Passes fed [] { c with delayTransmitQueue := [] } c.transmitAllDelayed :=
    Calm.passes hcalm hempty ((handedOn_routeAll hempty.other _).trans hnamed)
  exact ⟨hpass.order, hpass.idle, hpass.inOrder⟩

theorem passes_brokerAck (hne : cmd.destId ≠ fed) : Passes fed [] c (c.brokerAck cmd) := by
  unfold brokerAck
  split
  · have hnew : InOrder fed { c with
        globalBrokerIdLocal := cmd.destId
        higherBrokerId := cmd.sourceId
        timeCoord := { c.timeCoord with sourceId := cmd.destId } } :=
      ⟨hne, hc.known, hc.held, hc.waiting⟩
    have hpass := passes_transmitAllDelayed hnew
    exact ⟨hpass.order, hpass.idle, hpass.inOrder⟩
  · exact Calm.passes ⟨rfl, rfl, rfl, rfl, rfl⟩ hc rfl

theorem passes_priorityCommand (hdist : cmd.messageAction = .cmdBrokerAck → cmd.destId ≠ fed)
    (hcmd : timingOf fed cmd = none) : Passes fed [] c (c.processPriorityCommand cmd) := by
  have hrefl : Calm c c := ⟨rfl, rfl, rfl, rfl, rfl⟩
  unfold processPriorityCommand
  split
  case h_1 => exact passes_regFed hc hcmd
  case h_2 => exact hrefl.passes hc (handedOn_cons hcmd)
  case h_3 ha => exact passes_brokerAck hc (hdist ha)
  case h_4 => exact passes_fedAck hc hcmd
  case h_5 =>
    exact c.frame_checkAndProcessDisconnect.calm.passes hc
      (handedOn_checkAndProcessDisconnect hc.other)
  case h_6 => exact hrefl.passes hc rfl

theorem passes_step (h : Timely fed c cmd) :
    ∃ arrived, Arrives fed cmd arrived ∧ Passes fed arrived c (c.step cmd) := by
  unfold step
  cases hp : CoreBroker.isPriorityCommand cmd.messageAction with
  | true =>
    have hnone : timingOf fed cmd = none := timingOf_priority hp
    exact ⟨[], .inl (by rw [hnone]; rfl), passes_priorityCommand hc h.distinct hnone⟩
  | false => exact passes_processCommand hc h.inTurn

end

def after (c : CommonCore) (cmds : List ActionMessage) : CommonCore := (c.processAll cmds).1

def sentDuring (c : CommonCore) (cmds : List ActionMessage) : List CoreEffect :=
  (c.processAll cmds).2

theorem after_cons (c : CommonCore) (cmd : ActionMessage) (cmds : List ActionMessage) :
    c.after (cmd :: cmds) = (c.step cmd).1.after cmds := rfl

theorem sentDuring_cons (c : CommonCore) (cmd : ActionMessage) (cmds : List ActionMessage) :
    c.sentDuring (cmd :: cmds) = (c.step cmd).2 ++ (c.step cmd).1.sentDuring cmds := rfl

def issued (fed : GlobalId) (cmds : List ActionMessage) : List ActionMessage :=
  cmds.filterMap (timingOf fed)

def TimelyRun (fed : GlobalId) (c : CommonCore) : List ActionMessage → Prop
  | [] => True
  | cmd :: cmds => Timely fed c cmd ∧ TimelyRun fed (c.step cmd).1 cmds

def waits (m : ActionMessage) : Bool := isParkable m.messageAction

/-- What the core hands on, followed by what it still holds back, is what the federate has issued,
in that order and up to departures that the departure of the core subsumes; and what is handed on
never overtakes a message of the federate that is being filtered. -/
structure KeepsOrder (fed : GlobalId) (c : CommonCore) (cmds : List ActionMessage) : Prop where
  order : (handedOn fed (c.sentDuring cmds) ++ (c.after cmds).parkedOf fed).Sublist
    (c.parkedOf fed ++ issued fed cmds)
  complete : (handedOn fed (c.sentDuring cmds) ++ (c.after cmds).parkedOf fed).filter waits =
    (c.parkedOf fed ++ issued fed cmds).filter waits
  noOvertaking : ∀ pre cmd post, cmds = pre ++ cmd :: post →
    handedOn fed ((c.after pre).step cmd).2 ≠ [] →
      (c.after (pre ++ [cmd])).hasOngoing fed = false

omit [DualMapped String GlobalId] in
theorem issued_cons (fed : GlobalId) (cmd : ActionMessage) (cmds : List ActionMessage) :
    issued fed (cmd :: cmds) = (timingOf fed cmd).toList ++ issued fed cmds := by
  unfold issued
  rw [List.filterMap_cons]
  cases timingOf fed cmd with
  | none => rfl
  | some m => rfl

omit [DualMapped String GlobalId] in
theorem Arrives.sublist (h : Arrives fed cmd arrived) :
    arrived.Sublist (timingOf fed cmd).toList := by
  obtain rfl | ⟨rfl, _⟩ := h
  · exact List.Sublist.refl _
  · exact List.nil_sublist _

omit [DualMapped String GlobalId] in
theorem waits_asIssued (m : ActionMessage) : waits (asIssued m) = waits m := by
  unfold asIssued waits
  split
  case isTrue h =>
    rw [h]
    rfl
  · rfl

omit [DualMapped String GlobalId] in
theorem Arrives.waits (h : Arrives fed cmd arrived) :
    arrived.filter waits = (timingOf fed cmd).toList.filter CommonCore.waits := by
  obtain rfl | ⟨rfl, hp⟩ := h
  · rfl
  unfold timingOf
  split
  · have hw : CommonCore.waits (asIssued cmd) = false := (waits_asIssued cmd).trans hp
    simp [hw]
  · rfl

/-- The timing commands of a federate are handed on in the order in which it issued them, and
never overtake its messages, in every run in which it does not leave while one of its messages is
being filtered. -/
theorem timing_in_order (fed : GlobalId) (c : CommonCore) (hc : InOrder fed c)
    (cmds : List ActionMessage) (h : TimelyRun fed c cmds) : KeepsOrder fed c cmds := by
  induction cmds generalizing c with
  | nil =>
    refine ⟨by simp [sentDuring, after, processAll, handedOn, issued],
      by simp [sentDuring, after, processAll, handedOn, issued], ?_⟩
    intro pre cmd post heq
    simp at heq
  | cons cmd cmds ih =>
    obtain ⟨arrived, harr, hpass⟩ := passes_step hc h.1
    have hrest := ih (c.step cmd).1 hpass.inOrder h.2
    have hsplit : handedOn fed (c.sentDuring (cmd :: cmds)) ++
      (c.after (cmd :: cmds)).parkedOf fed =
        handedOn fed (c.step cmd).2 ++ (handedOn fed ((c.step cmd).1.sentDuring cmds) ++
          ((c.step cmd).1.after cmds).parkedOf fed) := by
      rw [sentDuring_cons, after_cons, handedOn_append, List.append_assoc]
    have hgiven : handedOn fed (c.step cmd).2 ++ ((c.step cmd).1.parkedOf fed ++ issued fed cmds) =
        c.parkedOf fed ++ (arrived ++ issued fed cmds) := by
      rw [← List.append_assoc, hpass.order, List.append_assoc]
    refine ⟨?_, ?_, ?_⟩
    · rw [hsplit, issued_cons]
      have hsub := hrest.order.append_left (handedOn fed (c.step cmd).2)
      rw [hgiven] at hsub
      exact hsub.trans ((harr.sublist.append_right _).append_left _)
    · rw [hsplit, List.filter_append, hrest.complete, ← List.filter_append, hgiven, issued_cons]
      simp only [List.filter_append, harr.waits]
    · intro pre cmd' post heq
      cases pre with
      | nil =>
        obtain ⟨rfl, rfl⟩ := List.cons.inj heq
        exact hpass.idle
      | cons first pre =>
        obtain ⟨rfl, heq'⟩ := List.cons.inj heq
        exact hrest.noOvertaking pre cmd' post heq'

end

attribute [local instance] DualMapped.listVectors

def coreWithRemoteFilters : CommonCore where
  identifier := "core"
  globalBrokerIdLocal := 1879048193
  higherBrokerId := 1
  brokerState := .operating
  loopFederates := (DualMapped.Vector.empty.add "fed1" (some 131072)
    { name := "fed1", globalId := 131072 }).add "fed2" (some 131073)
    { name := "fed2", globalId := 131073 }
  endpoints := .ofList [{ handle := ⟨131072, 0⟩, key := "ept", hasSourceFilterFlag := true }]
  filterCoord := [(0, { hasSourceFilters := true,
                        sourceFilters := [{ coreId := 1879048194, handle := 7 },
                                          { coreId := 1879048194, handle := 8 }] })]
  enteredExecutionMode := true

def sendFiltered : ActionMessage :=
  { messageAction := .cmdSendMessage, messageID := 5, sourceId := 131072, sourceHandle := 0,
    stringData := ["other", "ept", "ept", "other"] }

def requestAfterSend : ActionMessage :=
  { messageAction := .cmdTimeRequest, sourceId := 131072, destId := 1879048193,
    actionTime := .wrap 9, Te := .wrap 9, Tdemin := .wrap 9 }

def departure : ActionMessage := { messageAction := .cmdDisconnect, sourceId := 131072 }

def filtered : ActionMessage :=
  { messageAction := .cmdFilterResult, messageID := 5, sourceId := 1879048194, sourceHandle := 7,
    destId := 131072, destHandle := 0, stringData := ["other", "ept", "ept", "other"] }

theorem inOrder_coreWithRemoteFilters : InOrder 131072 coreWithRemoteFilters :=
  ⟨by decide, by decide, by decide, by decide⟩

/-- The departure overtakes the parked time request and the message that is being filtered. -/
theorem departure_overtakes_request : InOrder 131072 coreWithRemoteFilters ∧
      (coreWithRemoteFilters.after [sendFiltered, requestAfterSend]).hasOngoing 131072 = true ∧
      (coreWithRemoteFilters.after [sendFiltered, requestAfterSend, departure]).hasOngoing
        131072 = true ∧ issued 131072 [sendFiltered, requestAfterSend, departure, filtered] =
        [requestAfterSend, departure] ∧ handedOn 131072 (coreWithRemoteFilters.sentDuring
        [sendFiltered, requestAfterSend, departure, filtered]) = [departure, requestAfterSend] ∧
      ¬KeepsOrder 131072 coreWithRemoteFilters
        [sendFiltered, requestAfterSend, departure, filtered] := by
  refine ⟨inOrder_coreWithRemoteFilters, by decide +kernel, by decide +kernel, by decide +kernel,
    by decide +kernel, ?_⟩
  intro h
  have hidle := h.noOvertaking [sendFiltered, requestAfterSend] departure [filtered] rfl
    (by decide +kernel)
  have hbusy : (coreWithRemoteFilters.after
      [sendFiltered, requestAfterSend, departure]).hasOngoing 131072 = true := by decide +kernel
  exact absurd hbusy (ne_true_of_eq_false hidle)

theorem timing_in_order_of_filtered : InOrder 131072 coreWithRemoteFilters ∧
      TimelyRun 131072 coreWithRemoteFilters [sendFiltered, requestAfterSend, filtered, departure] ∧
      handedOn 131072 (coreWithRemoteFilters.sentDuring
        [sendFiltered, requestAfterSend, filtered, departure]) = [requestAfterSend, departure] ∧
      KeepsOrder 131072 coreWithRemoteFilters
        [sendFiltered, requestAfterSend, filtered, departure] := by
  have htimely : TimelyRun 131072 coreWithRemoteFilters
      [sendFiltered, requestAfterSend, filtered, departure] := by
    refine ⟨⟨?_, by decide⟩, ⟨?_, by decide⟩, ⟨?_, by decide⟩, ⟨?_, by decide⟩, trivial⟩
    · exact fun h => absurd h.2.1 (by decide)
    · exact fun h => absurd h.2.1 (by decide)
    · exact fun h => absurd h.2.1 (by decide)
    · exact fun h => absurd h.2.2.2 (by decide +kernel)
  exact ⟨inOrder_coreWithRemoteFilters, htimely, by decide +kernel,
    timing_in_order 131072 coreWithRemoteFilters inOrder_coreWithRemoteFilters _ htimely⟩

end CommonCore

end Helics
