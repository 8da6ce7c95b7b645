import Helics.PlainStepping

namespace Helics

def ActionMessage.stamp (m : ActionMessage) : Option Time :=
  if m.messageAction = .cmdPub then some m.actionTime else none

def ActionMessage.promise (m : ActionMessage) : Time :=
  match m.messageAction with
  | .cmdTimeRequest => max m.actionTime (min m.Te m.Tdemin)
  | .cmdTimeGrant => m.actionTime
  | .cmdDisconnect => .maxVal
  | _ => .zero

def ActionMessage.IsTiming (m : ActionMessage) : Prop :=
  m.messageAction = .cmdExecGrant ∨ m.messageAction = .cmdTimeRequest ∨
    m.messageAction = .cmdTimeGrant ∨ m.messageAction = .cmdDisconnect

theorem DependencyInfo.bound_onTimeRequest (d : DependencyInfo) (m : ActionMessage) :
    (d.onTimeRequest m).bound ≤ max m.actionTime (min m.Te m.Tdemin) := by
  unfold onTimeRequest bound
  simp only [TimeFactors.ite_lt_eq_min]
  apply max_le_max le_rfl
  refine le_min ?_ ?_
  · exact (min_le_left _ _).trans (min_le_left _ _)
  · exact (min_le_right _ _).trans (min_le_left _ _)

theorem DependencyInfo.bound_processMessage (d : DependencyInfo) (hm : m.IsTiming) :
    (d.processMessage m).2.bound ≤ max d.bound m.promise := by
  unfold processMessage ActionMessage.promise
  obtain h | h | h | h := hm
  · rw [h]
    dsimp only
    unfold onExecGrant
    split
    · exact le_max_left _ _
    · exact (show bound _ = Time.zero by unfold bound; rw [min_self, max_self]).le.trans
        (le_max_right _ _)
  · rw [h]
    exact (d.bound_onTimeRequest m).trans (le_max_right _ _)
  · rw [h]
    dsimp only [onTimeGrant, bound]
    rw [min_self, max_self]
    exact le_max_right _ _
  · rw [h]
    exact (Time.le_maxVal _).trans (le_max_right _ _)

/-- The coordinator of the same federate at a later moment. -/
structure TimeCoordinator.Succeeds (c' c : TimeCoordinator) : Prop where
  keys : c'.dependencies.keys = c.dependencies.keys
  dependents : ∀ x ∈ c'.dependents.entries, x ∈ c.dependents.entries
  sourceId : c'.sourceId = c.sourceId
  granted : c.timeGranted ≤ c'.timeGranted

theorem TimeCoordinator.Succeeds.refl (c : TimeCoordinator) : c.Succeeds c :=
  ⟨rfl, fun _ hx => hx, rfl, le_rfl⟩

theorem TimeCoordinator.Succeeds.trans {a b c : TimeCoordinator} (h : a.Succeeds b)
    (h' : b.Succeeds c) : a.Succeeds c :=
  ⟨h.keys.trans h'.keys, fun x hx => h'.dependents x (h.dependents x hx),
    h.sourceId.trans h'.sourceId, h'.granted.trans h.granted⟩

/-- A message of federate `i` that its receiver may rely on as long as `i` keeps to the floor. -/
structure Announced (i : GlobalId) (floor : Time) (m : ActionMessage) : Prop where
  timing : m.IsTiming
  source : m.sourceId = i
  others : m.messageAction = .cmdDisconnect → m.destId ≠ i
  promise : m.promise ≤ floor

namespace TimeCoordinator

variable {c : TimeCoordinator}

theorem Plain.timeRequestMessage_promise (h : c.Plain) :
    c.timeRequestMessage.promise =
      max c.timeNext (min c.timeExec (max c.timeMinDe c.timeNext)) := by
  unfold timeRequestMessage ActionMessage.promise
  rw [h.outputDelay, Time.add_zero, ite_self, ← max_def_lt]

theorem mem_transmit (h : m ∈ c.transmitTimingMessage msg) :
    c.dependents.entries ≠ [] ∧ m = { msg with destId := m.destId } := by
  obtain ⟨dep, hd, rfl⟩ := List.mem_map.mp h
  exact ⟨List.ne_nil_of_mem hd, rfl⟩

theorem Waiting.sendTimeRequest (hp : c.Plain) (h : Waiting lim floor c)
    (hm : m ∈ c.sendTimeRequest) : Announced c.sourceId floor m := by
  obtain ⟨hd, heq⟩ := mem_transmit hm
  rw [heq]
  refine ⟨.inr (.inl rfl), rfl, fun hc => (nomatch hc), ?_⟩
  have hpr : c.timeRequestMessage.promise ≤ floor := by
    rw [hp.timeRequestMessage_promise]
    exact max_le h.next (h.announced hd)
  exact hpr

theorem processDependencyTime_table (c : TimeCoordinator) (m : ActionMessage) :
    ∃ deps, (c.processDependencyTime m).2 = { c with dependencies := deps } ∧
      (deps = c.dependencies ∨ deps = (c.dependencies.updateTime m).2) := by
  have hsame : ∃ deps, c = { c with dependencies := deps } ∧
      (deps = c.dependencies ∨ deps = (c.dependencies.updateTime m).2) :=
    ⟨c.dependencies, rfl, .inl rfl⟩
  unfold processDependencyTime
  split
  · split
    · exact hsame
    · split
      · exact hsame
      · exact ⟨_, rfl, .inr rfl⟩
  · exact ⟨_, rfl, .inr rfl⟩

theorem processTimeMessage_tables (c : TimeCoordinator) (hm : m.IsTiming) :
    ∃ deps dpts, (c.processTimeMessage m).2 =
        ({ c with dependencies := deps, dependents := dpts }, []) ∧
      (deps = c.dependencies ∨ deps = (c.dependencies.updateTime m).2) ∧
      (∀ x ∈ dpts.entries, x ∈ c.dependents.entries) := by
  by_cases hbye : m.messageAction = .cmdDisconnect
  · obtain ⟨deps, hd, hor⟩ := (c.removeDependent m.sourceId).processDependencyTime_table m
    refine ⟨deps, (c.removeDependent m.sourceId).dependents, ?_, hor, ?_⟩
    · unfold processTimeMessage
      rw [hbye]
      rw [hd]
      rfl
    · exact fun x hx => ((SortedTable.Table.mem_erase _).mp hx).1
  · have heq : (c.processTimeMessage m).2 = ((c.processDependencyTime m).2, []) := by
      unfold processTimeMessage
      obtain h | h | h | h := hm <;> rw [h]
      exact absurd h hbye
    obtain ⟨deps, hd, hor⟩ := c.processDependencyTime_table m
    exact ⟨deps, c.dependents, by rw [heq, hd], hor, fun x hx => hx⟩

theorem Plain.retable (h : c.Plain) (deps : TimeDependencies)
    (dpts : Dependents) : Plain { c with dependencies := deps, dependents := dpts } :=
  ⟨h.executionMode, h.iterating, h.period, h.inputDelay, h.outputDelay, h.timeDelta, h.grantBase,
    h.block, h.granted⟩

theorem Settled.retable (h : c.Settled) (deps : TimeDependencies)
    (dpts : Dependents) : Settled { c with dependencies := deps, dependents := dpts } :=
  ⟨h.next, h.fixed, h.spent⟩

theorem Armed.retable (h : Armed lim floor c)
    (dpts : Dependents) (hk : deps.keys = c.dependencies.keys) :
    Armed lim floor { c with dependencies := deps, dependents := dpts } :=
  ⟨h.room, h.target, h.exec, h.below, hk ▸ h.caused⟩

theorem Waiting.retable (h : Waiting lim floor c)
    (hk : deps.keys = c.dependencies.keys)
    (hd : ∀ x ∈ dpts.entries, x ∈ c.dependents.entries) :
    Waiting lim floor { c with dependencies := deps, dependents := dpts } := by
  refine { h.toArmed.retable dpts hk with next := h.next, announced := fun hne => ?_ }
  obtain ⟨x, hx⟩ := List.exists_mem_of_ne_nil _ hne
  exact h.announced (List.ne_nil_of_mem (hd x hx))

theorem Kept.record (h : Kept lim c) (hm : m.IsTiming)
    (hl : m.promise ≤ lim m.sourceId) (dpts : Dependents) :
    Kept lim { c with dependencies := (c.dependencies.updateTime m).2, dependents := dpts } := by
  have hs : TimeDependencies.dependencyOf m = m.sourceId := by
    unfold TimeDependencies.dependencyOf
    obtain hm | hm | hm | hm := hm <;> rw [hm] <;> rfl
  intro d hd
  obtain ⟨a, ha, hid, rfl⟩ | ⟨hd, _⟩ := c.dependencies.mem_updateTime m hd
  · rw [hs] at hid
    obtain ⟨hb, hg⟩ := h a ha
    rw [a.processMessage_fedID m]
    exact ⟨(a.bound_processMessage hm).trans (max_le hb (hid ▸ hl)), hg⟩
  · exact h d hd

theorem Kept.mono (h : Kept lim c) (hl : ∀ j, lim j ≤ lim' j) : Kept lim' c :=
  fun d hd => ⟨(h d hd).1.trans (hl _), (h d hd).2.trans (hl _)⟩

theorem Armed.mono (h : Armed lim floor c) (hl : ∀ j, lim j ≤ lim' j) : Armed lim' floor c := by
  refine { h with caused := ?_ }
  obtain hu | hn | hd := h.caused
  · exact .inl hu
  · exact .inr (.inl hn)
  · exact .inr (.inr fun j hj => (hd j hj).trans (hl _))

theorem Waiting.mono (h : Waiting lim floor c) (hl : ∀ j, lim j ≤ lim' j) : Waiting lim' floor c :=
  { h.toArmed.mono hl with next := h.next, announced := h.announced }

theorem Kept.of_maxVal (h : ∀ j ∈ c.dependencies.keys, lim j = .maxVal) : Kept lim c := by
  intro d hd
  rw [h d.fedID (List.mem_map_of_mem hd)]
  exact ⟨Time.le_maxVal _, Time.le_maxVal _⟩

theorem Kept.lim_ge_allow (hk : Kept lim c) (hd : d ∈ c.dependencies.entries) :
    c.timeFactors.minNext ≤ lim d.fedID :=
  (c.timeFactors_covers.next d hd).trans ((le_max_left _ _).trans (hk d hd).1)

/-- How a check ends: still waiting, or granted and ready for the caller. -/
inductive Checked (lim : GlobalId → Time) (floor : Time) (c : TimeCoordinator) :
    MessageProcessingResult × TimeCoordinator × List ActionMessage → Prop
  | waits (hp : c'.Plain) (hk : Kept lim c') (hw : Waiting lim floor c') (hs : c'.Succeeds c)
      (hout : ∀ m ∈ out, Announced c.sourceId floor m) :
      Checked lim floor c (.continueProcessing, c', out)
  | grants (hr : returnableResult r = true) (hp : c'.Plain) (hk : Kept lim c') (hw : c'.Settled)
      (hf : floor ≤ c'.timeGranted) (hs : c'.Succeeds c)
      (hout : ∀ m ∈ out, Announced c.sourceId c'.timeGranted m) :
      Checked lim floor c (r, c', out)

theorem Checked.of_succeeds (h : Checked lim floor c' r)
    (hs : c'.Succeeds c) : Checked lim floor c r := by
  cases h with
  | waits hp hk hw hs' hout => exact .waits hp hk hw (hs'.trans hs) (hs.sourceId ▸ hout)
  | grants hr hp hk hw hf hs' hout =>
    exact .grants hr hp hk hw hf (hs'.trans hs) (hs.sourceId ▸ hout)

variable {c : TimeCoordinator}

theorem Plain.regrant (h : c.Plain) (ht : c.timeGranted ≤ t) :
    Plain { c with timeGranted := t, timeGrantBase := t } :=
  { h with grantBase := rfl, granted := h.granted.trans ht }

theorem disconnect_tables (c : TimeCoordinator) : ∃ deps dpts,
    c.disconnect.1 = { c with dependencies := deps, dependents := dpts } ∧
      deps.keys = c.dependencies.keys ∧ ∀ x ∈ dpts.entries, x ∈ c.dependents.entries := by
  unfold disconnect
  dsimp only
  split
  · obtain ⟨deps, dpts, heq, hor, hd⟩ := c.processTimeMessage_tables
      (m := { messageAction := .cmdDisconnect, sourceId := c.sourceId, destId := c.sourceId })
      (.inr (.inr (.inr rfl)))
    refine ⟨deps, dpts, by rw [heq], ?_, hd⟩
    obtain rfl | rfl := hor
    · rfl
    · exact c.dependencies.keys_updateTime _
  · exact ⟨c.dependencies, c.dependents, rfl, rfl, fun x hx => hx⟩

theorem mem_disconnect (hm : m ∈ c.disconnect.2) :
    m.messageAction = .cmdDisconnect ∧ m.sourceId = c.sourceId ∧ m.destId ≠ c.sourceId := by
  obtain ⟨fed, hf, rfl⟩ := List.mem_map.mp hm
  have hne := of_decide_eq_true (List.mem_filter.mp hf).2
  exact ⟨rfl, rfl, hne⟩

theorem Waiting.halt (hp : c.Plain) (h : Waiting lim floor c)
    (hl : ∀ j ∈ c.dependencies.keys, lim j = .maxVal) : Checked lim floor c (.halted,
      (disconnect { c with timeGranted := .maxVal, timeGrantBase := .maxVal }).1,
      (disconnect { c with timeGranted := .maxVal, timeGrantBase := .maxVal }).2) := by
  obtain ⟨deps, dpts, heq, hkeys, hd⟩ :=
    disconnect_tables { c with timeGranted := .maxVal, timeGrantBase := .maxVal }
  have hp' := hp.regrant c.timeGranted.le_maxVal
  rw [heq]
  refine .grants rfl (hp'.retable deps dpts) (.of_maxVal fun j hj => hl j (hkeys ▸ hj)) ?_
    (Time.le_maxVal _) ⟨hkeys, hd, rfl, Time.le_maxVal _⟩ fun m hm => ?_
  · refine ⟨Time.le_maxVal _, fun hu => ?_, .inr (.inl (Time.le_maxVal _))⟩
    have hexec : c.timeExec = c.timeRequested := by
      rw [h.exec, targetTime, if_pos hu]
    exact hexec
  · obtain ⟨ha, hs, hd⟩ := mem_disconnect hm
    exact ⟨.inr (.inr (.inr ha)), hs, fun _ => hd, Time.le_maxVal _⟩

theorem Plain.countIteration (h : c.Plain) : c.countIteration = { c with iteration := 0 } :=
  if_pos (.inl (by simp [h.iterating]))

theorem Plain.updateTimeGrant_fst (h : c.Plain) :
    c.updateTimeGrant.1 = { c with timeGranted := c.timeExec, timeGrantBase := c.timeExec } := by
  unfold updateTimeGrant
  simp only [h.iterating, Bool.false_eq_true, if_false]

theorem mem_updateTimeGrant (hm : m ∈ c.updateTimeGrant.2) : Announced c.sourceId c.timeExec m := by
  obtain ⟨_, heq⟩ := mem_transmit hm
  rw [heq]
  exact ⟨.inr (.inr (.inl rfl)), rfl, fun hc => (nomatch hc), le_rfl⟩

theorem Waiting.grant (hp : c.Plain) (h : Waiting lim floor c)
    (hk : Kept lim c) (ha : c.timeExec ≤ c.timeFactors.minNext) :
    Checked lim floor c (.nextStep, c.countIteration.updateTimeGrant.1,
      c.countIteration.updateTimeGrant.2) := by
  have hge : c.timeGranted ≤ c.timeExec :=
    ((hp.granted_lt_next h.room).le.trans h.target).trans h.exec.ge
  have hp' : Plain { c with iteration := 0 } := { hp with }
  rw [hp.countIteration, hp'.updateTimeGrant_fst]
  refine .grants rfl ?_ (fun d hd => ⟨(hk d hd).1, ha.trans (hk.lim_ge_allow hd)⟩) ?_ h.below
    ⟨rfl, fun _ hx => hx, rfl, hge⟩ fun m hm => ?_
  · exact { hp with grantBase := rfl, granted := hp.granted.trans hge }
  · refine ⟨h.next.trans h.below, fun hu => ?_, .inr (.inl h.exec.ge)⟩
    have hexec : c.timeExec = c.timeRequested := by
      rw [h.exec, targetTime, if_pos hu]
    exact hexec
  · have hann := mem_updateTimeGrant hm
    exact hann

theorem grantsTime_le (h : c.grantsTime = true) : c.timeExec ≤ c.timeAllow := by
  unfold grantsTime at h
  obtain h | h := (Bool.or_eq_true _ _).mp h
  · exact (of_decide_eq_true h).le
  · exact (of_decide_eq_true ((Bool.and_eq_true _ _).mp h).1).ge

theorem Waiting.recount (h : Waiting lim floor c) (n : Int) :
    Waiting lim floor { c with iteration := n } :=
  ⟨⟨h.room, h.target, h.exec, h.below, h.caused⟩, h.next, h.announced⟩

/-- A check keeps a waiting coordinator within the supported floor or grants it its time. -/
theorem Armed.checkTimeGrant (hp : c.Plain) (h : Armed lim floor c)
    (hk : Kept lim c) (hh : c.hidesEvent = false) :
    Checked lim (max floor c.supportedFloor) c c.checkTimeGrant := by
  have hw := h.updateTimeFactors hp hk hh
  have hp' := hp.updateTimeFactors
  have hk' : Kept lim c.updateTimeFactors.2 := hk
  have hs : c.updateTimeFactors.2.Succeeds c := ⟨rfl, fun _ hx => hx, rfl, le_rfl⟩
  have hallow : c.updateTimeFactors.2.timeAllow = c.timeFactors.minNext :=
    hp.updateTimeFactors_allow
  unfold TimeCoordinator.checkTimeGrant
  dsimp only
  split
  · rename_i hmax
    refine (hw.halt hp' fun j hj => ?_).of_succeeds hs
    obtain ⟨d, hd, rfl⟩ := List.mem_map.mp hj
    exact Time.eq_maxVal (hmax.2 ▸ hallow ▸ hk.lim_ge_allow hd)
  split
  · exact .waits hp' hk' hw hs fun m hm => (nomatch hm)
  split
  · rename_i hg
    have hle := grantsTime_le hg
    rw [hallow] at hle
    rw [if_pos (.inl (by simp [hp'.iterating]))]
    exact (hw.grant hp' hk' hle).of_succeeds hs
  · rw [hp'.countIteration]
    have hp₀ : Plain { c.updateTimeFactors.2 with iteration := 0 } := { hp' with }
    have hs₀ : Succeeds { c.updateTimeFactors.2 with iteration := 0 } c := { hs with }
    split
    · refine .waits hp₀ hk' (hw.recount 0) hs₀ fun m hm => ?_
      have hann := (hw.recount 0).sendTimeRequest hp₀ hm
      exact hann
    · exact .waits hp₀ hk' (hw.recount 0) hs₀ fun m hm => (nomatch hm)

theorem mem_resetDependentEvents {t : TimeDependencies}
    (hd : d ∈ (t.resetDependentEvents g).entries) : ∃ d' ∈ t.entries,
      d = { d' with Te := max d'.Tnext g, Tdemin := max d'.Tnext g } := by
  obtain ⟨d', hd', heq⟩ := List.mem_map.mp hd
  exact ⟨d', hd', heq.symm⟩

theorem Kept.reset (h : Kept lim c) :
    Kept lim { c with dependencies := c.dependencies.resetDependentEvents c.timeGranted } := by
  intro d hd
  obtain ⟨d', hd', rfl⟩ := mem_resetDependentEvents hd
  obtain ⟨hb, hg⟩ := h d' hd'
  refine ⟨?_, hg⟩
  have hn : d'.Tnext ≤ lim d'.fedID := (le_max_left _ _).trans hb
  unfold DependencyInfo.bound
  exact max_le hn ((min_le_left _ _).trans (max_le hn hg))

theorem hidesEvent_reset (hp : c.Plain)
    (h : ∀ d ∈ c.dependencies.entries, d.Tnext ≤ d.Tdemin ∧ d.Te = d.Tdemin) :
    c.hidesEvent = false := by
  have heq : c.timeFactors.minminDe = c.timeFactors.minDe :=
    TimeFactors.foldl_minminDe_eq _ _ rfl h
  have hmm : c.updateTimeFactors.2.timeMinminDe = c.updateTimeFactors.2.timeMinDe := by
    rw [hp.updateTimeFactors_minDe]
    show min c.timeFactors.minDe c.timeFactors.minminDe = _
    rw [heq, min_self]
  unfold hidesEvent
  rw [hmm, decide_eq_false (not_lt.mpr ((min_le_right _ _).trans (le_max_right _ _))),
    Bool.and_false]

theorem withRequest_noIterations (c : TimeCoordinator) (t : Time) :
    c.withRequest t .noIterations = { c with
      iterating := false
      timeNext := if c.info.uninterruptible then max t c.getNextPossibleTime
        else c.getNextPossibleTime
      timeRequested := max t c.getNextPossibleTime } := rfl

theorem Plain.withRequest (h : c.Plain) (t v m : Time) :
    Plain ((c.withRequest t .noIterations).withEventTimes v m) := by
  rw [withRequest_noIterations]
  exact { h with iterating := rfl }

theorem armed_withRequest (hr : c.HasRoom) (t v m : Time) :
    Armed lim c.getNextPossibleTime ((c.withRequest t .noIterations).withEventTimes v m) := by
  have hreq : c.getNextPossibleTime ≤ max t c.getNextPossibleTime := le_max_right _ _
  have htarget : c.getNextPossibleTime ≤ targetTime
      ((c.withRequest t .noIterations).withEventTimes v m) := by
    rw [withRequest_noIterations]
    unfold targetTime withEventTimes
    split
    · exact hreq
    · exact le_min hreq (le_min (le_max_right _ _) (le_max_right _ _))
  have hexec : timeExec ((c.withRequest t .noIterations).withEventTimes v m) =
      targetTime ((c.withRequest t .noIterations).withEventTimes v m) := by
    unfold targetTime withEventTimes
    dsimp only
    split
    · rfl
    · rw [min_comm, min_comm (max v _)]
  exact ⟨hr, htarget, hexec, htarget.trans hexec.ge, .inr (.inl le_rfl)⟩

theorem Plain.timeRequest (hp : c.Plain) (hr : c.HasRoom)
    (hk : Kept lim c) (t v m : Time) : ∃ floor, c.getNextPossibleTime ≤ floor ∧
      (c.timeRequest t .noIterations v m).1.Plain ∧ Kept lim (c.timeRequest t .noIterations v m).1 ∧
      Waiting lim floor (c.timeRequest t .noIterations v m).1 ∧
      (c.timeRequest t .noIterations v m).1.Succeeds c ∧
      ∀ m' ∈ (c.timeRequest t .noIterations v m).2, Announced c.sourceId floor m' := by
  have hp' := hp.withRequest t v m
  have ha : Armed lim _ _ := armed_withRequest hr t v m
  have hk' : Kept lim ((c.withRequest t .noIterations).withEventTimes v m) := hk.reset
  have hh : hidesEvent ((c.withRequest t .noIterations).withEventTimes v m) = false := by
    refine hidesEvent_reset hp' fun d hd => ?_
    obtain ⟨d', _, rfl⟩ := mem_resetDependentEvents hd
    exact ⟨le_max_left _ _, rfl⟩
  have hw := ha.updateTimeFactors hp' hk' hh
  refine ⟨_, le_max_left _ _, hp'.updateTimeFactors, hk', hw,
    ⟨c.dependencies.keys_resetDependentEvents _, fun _ hx => hx, rfl, le_rfl⟩, fun m hm => ?_⟩
  unfold TimeCoordinator.timeRequest at hm
  dsimp only at hm
  split at hm
  · cases hm
  · have hann := hw.sendTimeRequest hp'.updateTimeFactors hm
    exact hann

variable {c : TimeCoordinator}

theorem Plain.eventTime (h : c.Plain) (t : Time) : c.eventTime t = max t c.getNextPossibleTime := by
  unfold TimeCoordinator.eventTime
  simp only [h.iterating, Bool.false_eq_true, if_false]
  exact max_def t c.getNextPossibleTime ▸ rfl

/-- A value that arrives in time may only move the value time and the execution time. -/
inductive ValueUpdate (c : TimeCoordinator) (t : Time) :
    TimeCoordinator × List ActionMessage → Prop
  | ignored (h : c.timeValue ≤ t) : ValueUpdate c t (c, [])
  | unchanged (h : t < c.timeValue) (hv : c.timeValue ≤ max t c.getNextPossibleTime) :
      ValueUpdate c t ({ c with timeValue := max t c.getNextPossibleTime }, [])
  | lowered (h : max t c.getNextPossibleTime < c.timeValue)
      (he : c' = (updateNextExecutionTime
        { c with timeValue := max t c.getNextPossibleTime }).2)
      (hout : out = [] ∨ c'.timeExec ≠ c.timeExec ∧ out = c'.sendTimeRequest) :
      ValueUpdate c t (c', out)

theorem Plain.updateValueTime (h : c.Plain) (t : Time) : ValueUpdate c t (c.updateValueTime t) := by
  unfold TimeCoordinator.updateValueTime
  rw [if_neg (by simp [h.executionMode]), h.eventTime]
  split
  · rename_i hlt
    unfold afterEventUpdate
    split
    · rename_i hl
      have hl := of_decide_eq_true hl
      split
      · rename_i hc
        exact .lowered hl rfl (.inr ⟨of_decide_eq_true hc, rfl⟩)
      · exact .lowered hl rfl (.inl rfl)
    · rename_i hl
      exact .unchanged hlt (not_lt.mp fun h' => hl (decide_eq_true h'))
  · rename_i hge
    exact .ignored (not_lt.mp hge)

theorem ValueUpdate.frame (h : ValueUpdate c t r) :
    ∃ v e, r.1 = { c with timeValue := v, timeExec := e } := by
  cases h with
  | ignored => exact ⟨c.timeValue, c.timeExec, rfl⟩
  | unchanged => exact ⟨_, c.timeExec, rfl⟩
  | lowered h he hout => exact ⟨_, _, he⟩

theorem targetTime_lower (h : v ≤ c.timeValue) :
    targetTime { c with timeValue := v } ≤ c.targetTime := by
  unfold targetTime
  split
  · exact le_rfl
  · exact min_le_min le_rfl (min_le_min le_rfl h)

theorem le_targetTime_value (ht : t ≤ c.targetTime)
    (hv : c.info.uninterruptible ∨ t ≤ v) : t ≤ targetTime { c with timeValue := v } := by
  unfold targetTime at ht ⊢
  by_cases hu : c.info.uninterruptible
  · rw [if_pos hu] at ht ⊢
    exact ht
  rw [if_neg hu] at ht ⊢
  have hv := hv.resolve_left hu
  exact le_min (ht.trans (min_le_left _ _))
    (le_min (ht.trans ((min_le_right _ _).trans (min_le_left _ _))) hv)

theorem Waiting.lowerValue (hp : c.Plain) (h : Waiting lim floor c)
    (hv : v ≤ c.timeValue) (hn : c.getNextPossibleTime ≤ v)
    (hf : c.info.uninterruptible ∨ floor ≤ v) :
    Waiting lim floor (updateNextExecutionTime { c with timeValue := v }).2 := by
  have hp' : Plain { c with timeValue := v } := { hp with }
  have htarget : c.getNextPossibleTime ≤ targetTime { c with timeValue := v } :=
    le_targetTime_value h.target (.inr hn)
  have hexec : nextExecutionTime { c with timeValue := v } = targetTime { c with timeValue := v } :=
    hp'.nextExecutionTime_target h.room htarget
  have hbelow : floor ≤ nextExecutionTime { c with timeValue := v } := by
    rw [hexec]
    exact le_targetTime_value (h.below.trans h.exec.le) hf
  refine ⟨⟨h.room, htarget, hexec, hbelow, h.caused⟩, h.next, fun hd => ?_⟩
  refine le_trans (min_le_min ?_ le_rfl) (h.announced hd)
  rw [h.exec]
  exact hexec.le.trans (targetTime_lower hv)

theorem targetTime_le_value : c.info.uninterruptible ∨ c.targetTime ≤ c.timeValue := by
  by_cases hu : c.info.uninterruptible
  · exact .inl hu
  · right
    rw [targetTime, if_neg hu]
    exact (min_le_right _ _).trans (min_le_right _ _)

theorem targetTime_value_eq (ht : c.getNextPossibleTime ≤ c.targetTime)
    (hlt : t < c.timeValue) (hv : c.timeValue ≤ max t c.getNextPossibleTime) :
    targetTime { c with timeValue := max t c.getNextPossibleTime } = c.targetTime := by
  obtain hu | hle := c.targetTime_le_value
  · rw [targetTime, targetTime, if_pos hu, if_pos hu]
  have hnp : c.timeValue ≤ c.getNextPossibleTime := (le_max_iff.mp hv).resolve_left hlt.not_ge
  have heq : max t c.getNextPossibleTime = c.timeValue :=
    le_antisymm (max_le hlt.le (ht.trans hle)) hv
  rw [heq]

theorem Waiting.valueUpdate (hp : c.Plain) (h : Waiting lim floor c)
    (hs : c.info.uninterruptible ∨ floor ≤ c.getNextPossibleTime ∨ floor ≤ t)
    (hr : ValueUpdate c t r) : Waiting lim floor r.1 ∧ ∀ m ∈ r.2, Announced c.sourceId floor m := by
  have hf : c.info.uninterruptible ∨ floor ≤ max t c.getNextPossibleTime := by
    obtain hu | hn | ht := hs
    · exact .inl hu
    · exact .inr (hn.trans (le_max_right _ _))
    · exact .inr (ht.trans (le_max_left _ _))
  cases hr with
  | ignored hv => exact ⟨h, fun m hm => (nomatch hm)⟩
  | unchanged hlt hv =>
    have htarget := targetTime_value_eq h.target hlt hv
    exact ⟨⟨⟨h.room, htarget ▸ h.target, h.exec.trans htarget.symm, h.below, h.caused⟩, h.next,
      h.announced⟩, fun m hm => (nomatch hm)⟩
  | lowered hv he hout =>
    have hw := h.lowerValue hp hv.le (le_max_right _ _) hf
    rw [← he] at hw
    refine ⟨hw, fun m hm => ?_⟩
    obtain rfl | ⟨_, rfl⟩ := hout
    · cases hm
    · have hann := hw.sendTimeRequest (he ▸ { hp with }) hm
      rw [he] at hann
      exact hann

theorem Settled.spent_value (h : c.Settled) (hg : c.timeGranted < c.timeValue) (v : Time) :
    c.info.uninterruptible ∨ targetTime { c with timeValue := v } ≤ c.timeGranted ∨
      c.timeMinDe ≤ c.timeGranted := by
  obtain hu | ht | hd := h.spent
  · exact .inl hu
  · by_cases hu : c.info.uninterruptible
    · exact .inl hu
    refine .inr (.inl ?_)
    unfold targetTime at ht ⊢
    rw [if_neg hu] at ht ⊢
    simp only [min_le_iff, hg.not_ge, or_false] at ht ⊢
    obtain hr | hm := ht
    · exact .inl hr
    · exact .inr (.inl hm)
  · exact .inr (.inr hd)

theorem Settled.promise_le (hp : c.Plain) (hr : c.HasRoom) (h : c.Settled)
    (hu : ¬ c.info.uninterruptible) (he : c.timeExec = c.nextExecutionTime) :
    c.timeRequestMessage.promise ≤ c.getNextPossibleTime := by
  have hnp := (hp.granted_lt_next hr).le
  rw [hp.timeRequestMessage_promise]
  refine max_le (h.next.trans hnp) ?_
  obtain hu' | ht | hd := h.spent
  · exact absurd hu' hu
  · rw [he, hp.nextExecutionTime, if_neg hu, if_pos ht]
    exact min_le_left _ _
  · exact (min_le_right _ _).trans ((max_le hd h.next).trans hnp)

theorem Settled.valueUpdate (hp : c.Plain) (hr : c.HasRoom)
    (h : c.Settled) (ht : c.timeGranted ≤ t) (hv : ValueUpdate c t r) :
    r.1.Settled ∧ ∀ m ∈ r.2, Announced c.sourceId c.getNextPossibleTime m := by
  cases hv with
  | ignored hv => exact ⟨h, fun m hm => (nomatch hm)⟩
  | unchanged hlt hv =>
    exact ⟨⟨h.next, h.fixed, h.spent_value (lt_of_le_of_lt ht hlt) _⟩, fun m hm => (nomatch hm)⟩
  | lowered hv he hout =>
    have hlt := lt_of_le_of_lt (le_max_left _ _) hv
    have hp' : Plain (updateNextExecutionTime
        { c with timeValue := max t c.getNextPossibleTime }).2 := { hp with }
    have hfix : c.info.uninterruptible → nextExecutionTime
        { c with timeValue := max t c.getNextPossibleTime } = c.timeRequested := fun hu => if_pos hu
    have hs : Settled (updateNextExecutionTime
        { c with timeValue := max t c.getNextPossibleTime }).2 :=
      ⟨h.next, hfix, h.spent_value (lt_of_le_of_lt ht hlt) _⟩
    rw [he]
    refine ⟨hs, fun m hm => ?_⟩
    obtain rfl | ⟨hne, rfl⟩ := hout
    · cases hm
    rw [he] at hm hne
    have hu : ¬ c.info.uninterruptible := fun hu => hne ((hfix hu).trans (h.fixed hu).symm)
    have hpr := hs.promise_le hp' hr hu rfl
    obtain ⟨_, heq⟩ := mem_transmit hm
    rw [heq]
    exact ⟨.inr (.inl rfl), rfl, fun hc => (nomatch hc), hpr⟩

end TimeCoordinator

end Helics
