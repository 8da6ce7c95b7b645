import Helics.TimeGrants

namespace Helics

namespace TimeCoordinator

inductive Receptive (lim : GlobalId → Time) (floor : Time) (c : TimeCoordinator) : Bool → Prop
  | requesting (hr : c.HasRoom) (hf : floor = c.getNextPossibleTime) (hs : c.Settled) :
      Receptive lim floor c true
  | waiting (hw : Waiting lim floor c) : Receptive lim floor c false

variable {c : TimeCoordinator}

theorem Receptive.mono (h : Receptive lim floor c b)
    (hl : ∀ j, lim j ≤ lim' j) : Receptive lim' floor c b := by
  cases h with
  | requesting hr hf hs => exact .requesting hr hf hs
  | waiting hw => exact .waiting (hw.mono hl)

/-- A coordinator of a run between its last request and its next grant. -/
structure Taking (lim : GlobalId → Time) (floor : Time) (b : Bool)
    (c : TimeCoordinator) : Prop where
  plain : c.Plain
  kept : Kept lim c
  receptive : Receptive lim floor c b

theorem Kept.granted_le (h : Kept lim c) (hj : j ∈ c.dependencies.keys) :
    c.timeGranted ≤ lim j := by
  obtain ⟨d, hd, rfl⟩ := List.mem_map.mp hj
  exact (h d hd).2

theorem Receptive.valueUpdate (hp : c.Plain) (hk : Kept lim c)
    (h : Receptive lim floor c b) (hj : j ∈ c.dependencies.keys) (ht : lim j ≤ t)
    (hr : ValueUpdate c t r) :
    Receptive lim floor r.1 b ∧ ∀ m ∈ r.2, Announced c.sourceId floor m := by
  obtain ⟨v, e, heq⟩ := hr.frame
  cases h with
  | requesting hroom hf hs =>
    obtain ⟨hs', hout⟩ := hs.valueUpdate hp hroom ((hk.granted_le hj).trans ht) hr
    rw [heq] at hs' ⊢
    exact ⟨.requesting hroom hf hs', hf ▸ hout⟩
  | waiting hw =>
    obtain ⟨hw', hout⟩ := hw.valueUpdate hp
      (hw.caused.imp_right fun h => h.imp_right fun h => (h j hj).trans ht) hr
    exact ⟨.waiting hw', hout⟩

section
variable (h : Taking lim floor b c)
include h

theorem Taking.updateValueTime (hj : j ∈ c.dependencies.keys) (ht : lim j ≤ t) :
    Taking lim floor b (c.updateValueTime t).1 ∧ (c.updateValueTime t).1.Succeeds c ∧
      ∀ m ∈ (c.updateValueTime t).2, Announced c.sourceId floor m := by
  have hv := h.plain.updateValueTime t
  obtain ⟨hr, hout⟩ := h.receptive.valueUpdate h.plain h.kept hj ht hv
  obtain ⟨v, e, heq⟩ := hv.frame
  rw [heq] at hr ⊢
  exact ⟨⟨{ h.plain with }, h.kept, hr⟩, ⟨rfl, fun _ hx => hx, rfl, le_rfl⟩, hout⟩

theorem Taking.updateValueTimes
    (hj : j ∈ c.dependencies.keys) (ht : lim j ≤ t) (sources : List GlobalHandle) :
    Taking lim floor b (sources.foldl (fun r _ => ((r.1.updateValueTime t).1,
        r.2 ++ (r.1.updateValueTime t).2)) (c, [])).1 ∧
      (sources.foldl (fun r _ => ((r.1.updateValueTime t).1,
        r.2 ++ (r.1.updateValueTime t).2)) (c, [])).1.Succeeds c ∧
      ∀ m ∈ (sources.foldl (fun r _ => ((r.1.updateValueTime t).1,
        r.2 ++ (r.1.updateValueTime t).2)) (c, [])).2, Announced c.sourceId floor m := by
  refine Invariants.foldl_invariant
    (P := fun (r : TimeCoordinator × List ActionMessage) _ => Taking lim floor b r.1 ∧
      r.1.Succeeds c ∧ ∀ m ∈ r.2, Announced c.sourceId floor m)
    ⟨h, .refl c, fun m hm => absurd hm List.not_mem_nil⟩ ?_ sources
  rintro r _ _ ⟨hr, hs, hout⟩
  obtain ⟨hr', hs', hout'⟩ := hr.updateValueTime (hs.keys ▸ hj) ht
  refine ⟨hr', hs'.trans hs, fun m hm => ?_⟩
  obtain hm | hm := List.mem_append.mp hm
  · exact hout m hm
  · exact hs.sourceId ▸ hout' m hm

theorem Taking.processTimeMessage (hm : m.IsTiming) (hl : m.promise ≤ lim m.sourceId) :
    Taking lim floor b (c.processTimeMessage m).2.1 ∧
      (c.processTimeMessage m).2.1.Succeeds c ∧ (c.processTimeMessage m).2.2 = [] := by
  obtain ⟨deps, dpts, heq, hor, hd⟩ := c.processTimeMessage_tables hm
  have hkeys : deps.keys = c.dependencies.keys := by
    obtain rfl | rfl := hor
    · rfl
    · exact c.dependencies.keys_updateTime m
  have hkept : Kept lim { c with dependencies := deps, dependents := dpts } := by
    obtain rfl | rfl := hor
    · exact h.kept
    · exact h.kept.record hm hl dpts
  rw [heq]
  refine ⟨⟨h.plain.retable deps dpts, hkept, ?_⟩, ⟨hkeys, hd, rfl, le_rfl⟩, rfl⟩
  cases h.receptive with
  | requesting hr hf hs => exact .requesting hr hf (hs.retable deps dpts)
  | waiting hw => exact .waiting (hw.retable hkeys hd)

end

end TimeCoordinator

/-- The three modes of a federate of a run and what holds of its coordinator in each. -/
inductive Phase (lim : GlobalId → Time) (floor : Time) (f : FederateState) :
    Option ActionMessage → Prop
  | idle (hp : f.processing = false) (hm : f.timeGrantedMode = true) (hc : f.timeCoord.Plain)
      (hk : f.timeCoord.Kept lim) (hs : f.timeCoord.Settled)
      (ht : f.allowedSendTime = f.timeCoord.timeGranted) (hf : floor ≤ f.timeCoord.timeGranted) :
      Phase lim floor f none
  | requesting (hp : f.processing = true) (hm : f.timeGrantedMode = true)
      (h : f.timeCoord.Taking lim floor true) :
      Phase lim floor f (some (f.timeRequestCommand t .noIterations))
  | waiting (hp : f.processing = true) (hm : f.timeGrantedMode = false)
      (h : f.timeCoord.Taking lim floor false) : Phase lim floor f none

structure Node (lim : GlobalId → Time) (floor : Time) (i : GlobalId) (f : FederateState)
    (request : Option ActionMessage) : Prop where
  globalId : f.globalId = i
  sourceId : f.timeCoord.sourceId = i
  state : f.state = .executing
  positive : .zero ≤ floor
  phase : Phase lim floor f request

def Stepped (lim : GlobalId → Time) (floor : Time) (i : GlobalId) (f f' : FederateState)
    (request : Option ActionMessage) (out : List ActionMessage) : Prop :=
  ∃ floor', floor ≤ floor' ∧ Node lim floor' i f' request ∧ f'.timeCoord.Succeeds f.timeCoord ∧
    ∀ m ∈ out, Announced i floor' m

theorem Phase.mono (h : Phase lim floor f request) (hl : ∀ j, lim j ≤ lim' j) :
    Phase lim' floor f request := by
  cases h with
  | idle hp hm hc hk hs ht hf => exact .idle hp hm hc (hk.mono hl) hs ht hf
  | requesting hp hm h => exact .requesting hp hm ⟨h.plain, h.kept.mono hl, h.receptive.mono hl⟩
  | waiting hp hm h => exact .waiting hp hm ⟨h.plain, h.kept.mono hl, h.receptive.mono hl⟩

theorem Node.mono (h : Node lim floor i f request) (hl : ∀ j, lim j ≤ lim' j) :
    Node lim' floor i f request :=
  { h with phase := h.phase.mono hl }

theorem Stepped.mono (h : Stepped lim floor i f f' request out) (hl : ∀ j, lim j ≤ lim' j) :
    Stepped lim' floor i f f' request out := by
  obtain ⟨t, hf, hn, hs, hout⟩ := h
  exact ⟨t, hf, hn.mono hl, hs, hout⟩

section
variable (h : Node lim floor i f request)
include h

theorem Node.sendTime (hp : f.processing = false) :
    floor ≤ f.allowedSendTime ∧ f.allowedSendTime = f.timeCoord.timeGranted := by
  cases h.phase with
  | idle _ _ _ _ _ ht hf => exact ⟨hf.trans ht.ge, ht⟩
  | requesting hp' => exact absurd (hp'.symm.trans hp) (by decide)
  | waiting hp' => exact absurd (hp'.symm.trans hp) (by decide)

theorem Node.kept : f.timeCoord.Kept lim := by
  cases h.phase with
  | idle _ _ _ hk => exact hk
  | requesting _ _ ht => exact ht.kept
  | waiting _ _ ht => exact ht.kept

theorem Node.requestTime (hp : f.processing = false)
    (hr : f.timeCoord.HasRoom) (t : Time) : Stepped lim floor i f { f with processing := true }
      (some (f.timeRequestCommand t .noIterations)) [] := by
  cases h.phase with
  | requesting hp' => exact absurd (hp'.symm.trans hp) (by decide)
  | waiting hp' => exact absurd (hp'.symm.trans hp) (by decide)
  | idle _ hm hc hk hs ht hf =>
    have hnp := hf.trans (hc.granted_lt_next hr).le
    exact ⟨_, hnp, ⟨h.globalId, h.sourceId, h.state, h.positive.trans hnp,
      .requesting rfl hm ⟨hc, hk, .requesting hr rfl hs⟩⟩, .refl _, fun m hm => (nomatch hm)⟩

end

theorem processActionMessage_timeRequest (f : FederateState)
    (h : cmd.messageAction = .cmdTimeRequest)
    (v m : Time) : f.processActionMessage cmd v m =
      if f.isOwnRequest cmd then FederateState.continueWith (f.startTimeRequest cmd v m)
      else f.processThen cmd FederateState.timeCheck := by
  unfold FederateState.processActionMessage
  rw [h]

theorem processActionMessage_ownRequest (f : FederateState) (t v m : Time) :
    f.processActionMessage (f.timeRequestCommand t .noIterations) v m =
      FederateState.continueWith ({ f with
        timeCoord := (f.timeCoord.timeRequest t .noIterations v m).1
        timeGrantedMode := false }, (f.timeCoord.timeRequest t .noIterations v m).2) := by
  have hown : f.isOwnRequest (f.timeRequestCommand t .noIterations) = true :=
    (Bool.and_eq_true _ _).mpr ⟨decide_eq_true rfl, rfl⟩
  have hflag : ¬ checkActionFlag 0 iterationRequestedFlag = true := by decide
  have hiter : FederateState.iterationOf (f.timeRequestCommand t .noIterations) = .noIterations :=
    if_neg hflag
  rw [processActionMessage_timeRequest f rfl, if_pos hown, FederateState.startTimeRequest, hiter]
  rfl

theorem Node.startRequest (h : Node lim floor i f (some cmd)) (v m : Time) :
    Stepped lim floor i f (Federation.returned (f.processActionMessage cmd v m)) none
      (f.processActionMessage cmd v m).2.2 := by
  cases h.phase with
  | requesting hp hm ht =>
    rename_i t
    rw [processActionMessage_ownRequest]
    cases ht.receptive with
    | requesting hr hf hs =>
      obtain ⟨floor', hle, hp', hk, hw, hs', hout⟩ := ht.plain.timeRequest hr ht.kept t v m
      have hfloor : floor ≤ floor' := hf.le.trans hle
      refine ⟨floor', hfloor, ⟨h.globalId, hs'.sourceId.trans h.sourceId, h.state,
        h.positive.trans hfloor, .waiting ?_ rfl ⟨hp', hk, .waiting hw⟩⟩, hs', h.sourceId ▸ hout⟩
      exact (Bool.and_true _).trans hp

theorem Node.timeCheck (h : Node lim floor i f none) (hp : f.processing = true)
    (hm : f.timeGrantedMode = false) (hh : f.timeCoord.hidesEvent = false) :
    Stepped lim floor i f (Federation.returned f.timeCheck) none f.timeCheck.2.2 := by
  cases h.phase with
  | idle hp' => exact absurd (hp'.symm.trans hp) (by decide)
  | waiting _ _ ht =>
    cases ht.receptive with
    | waiting hw =>
      have hc := hw.toArmed.checkTimeGrant ht.plain ht.kept hh
      have hle : floor ≤ max floor f.timeCoord.supportedFloor := le_max_left _ _
      unfold FederateState.timeCheck
      rw [if_pos ⟨h.state, hm⟩]
      generalize f.timeCoord.checkTimeGrant = r at hc
      cases hc with
      | waits hp' hk hw' hs hout =>
        refine ⟨_, hle, ⟨h.globalId, hs.sourceId.trans h.sourceId, h.state, h.positive.trans hle,
          .waiting ?_ hm ⟨hp', hk, .waiting hw'⟩⟩, hs, h.sourceId ▸ hout⟩
        exact (Bool.and_true _).trans hp
      | grants hr hp' hk hs' hf hs hout =>
        rw [if_pos hr]
        refine ⟨_, hle.trans hf, ⟨h.globalId, hs.sourceId.trans h.sourceId, h.state,
          h.positive.trans (hle.trans hf), .idle ?_ rfl hp' hk hs' ?_ le_rfl⟩, hs,
          h.sourceId ▸ hout⟩
        · show (f.processing && !returnableResult _) = false
          rw [hr]
          exact Bool.and_false _
        · show _ + _ = _
          rw [hp'.outputDelay, Time.add_zero]
          rfl

section
variable (h : Node lim floor i f request)
include h

theorem Node.stay :
    Stepped lim floor i f (Federation.returned (.continueProcessing, f, [])) request [] := by
  have heq : Federation.returned (.continueProcessing, f, []) = f := by
    show { f with processing := f.processing && true } = f
    rw [Bool.and_true]
  rw [heq]
  exact ⟨floor, le_rfl, h, .refl _, fun m hm => (nomatch hm)⟩

theorem Node.record (hp : f.processing = true) (hm : m.IsTiming) (hl : m.promise ≤ lim m.sourceId) :
    Node lim floor i { f with timeCoord := (f.timeCoord.processTimeMessage m).2.1 } request ∧
      (f.timeCoord.processTimeMessage m).2.1.Succeeds f.timeCoord ∧
      (f.timeCoord.processTimeMessage m).2.2 = [] := by
  cases h.phase with
  | idle hp' => exact absurd (hp'.symm.trans hp) (by decide)
  | requesting _ hmode ht =>
    obtain ⟨ht', hs, hout⟩ := ht.processTimeMessage hm hl
    exact ⟨⟨h.globalId, hs.sourceId.trans h.sourceId, h.state, h.positive,
      .requesting hp hmode ht'⟩, hs, hout⟩
  | waiting _ hmode ht =>
    obtain ⟨ht', hs, hout⟩ := ht.processTimeMessage hm hl
    exact ⟨⟨h.globalId, hs.sourceId.trans h.sourceId, h.state, h.positive,
      .waiting hp hmode ht'⟩, hs, hout⟩

theorem Node.execCheck :
    Stepped lim floor i f (Federation.returned f.execCheck) request f.execCheck.2.2 := by
  have heq : f.execCheck = (.continueProcessing, f, []) := by
    unfold FederateState.execCheck
    rw [if_neg (by rw [h.state]; exact fun hc => (nomatch hc.1))]
  rw [heq]
  exact h.stay

theorem Node.anyTimeCheck (hp : f.processing = true)
    (hh : f.timeGrantedMode = false → f.timeCoord.hidesEvent = false) :
    Stepped lim floor i f (Federation.returned f.timeCheck) request f.timeCheck.2.2 := by
  cases h.phase with
  | idle hp' => exact absurd (hp'.symm.trans hp) (by decide)
  | requesting _ hmode ht =>
    have heq : f.timeCheck = (.continueProcessing, f, []) := by
      unfold FederateState.timeCheck
      rw [if_neg (by rw [hmode]; exact fun hc => (nomatch hc.2))]
    rw [heq]
    exact h.stay
  | waiting _ hmode ht => exact h.timeCheck hp hmode (hh hmode)

end

theorem Stepped.of_succeeds (h : Stepped lim floor i f f' request out)
    (hs : f.timeCoord.Succeeds g.timeCoord) : Stepped lim floor i g f' request out := by
  obtain ⟨floor', hle, hn, hs', hout⟩ := h
  exact ⟨floor', hle, hn, hs'.trans hs, hout⟩

theorem Node.processThen (h : Node lim floor i f request) (hp : f.processing = true)
    (hm : m.IsTiming) (hl : m.promise ≤ lim m.sourceId)
    (hcheck : ∀ f', f' = { f with timeCoord := (f.timeCoord.processTimeMessage m).2.1 } →
      Node lim floor i f' request →
      Stepped lim floor i f' (Federation.returned (check f')) request (check f').2.2)
    (hd : (f.processThen m check).1 ≠ .delayMessage) :
    Stepped lim floor i f (Federation.returned (f.processThen m check)) request
      (f.processThen m check).2.2 := by
  obtain ⟨hn, hs, hout⟩ := h.record hp hm hl
  unfold FederateState.processThen at hd ⊢
  dsimp only at hd ⊢
  generalize (f.timeCoord.processTimeMessage m).1 = res at hd ⊢
  rw [hout]
  cases res with
  | delayProcessing => exact absurd rfl hd
  | noEffect => exact (hn.stay).of_succeeds hs
  | processed => exact (hcheck _ rfl hn).of_succeeds hs

/-- A timing message of another federate, or of the federate to itself. -/
theorem Node.processTiming (h : Node lim floor i f request) (hp : f.processing = true)
    (hi : isFederateId i) (hm : m.IsTiming) (hdest : m.destId = i)
    (hother : m.messageAction = .cmdDisconnect → m.sourceId ≠ i) (hl : m.promise ≤ lim m.sourceId)
    (hh : f.timeGrantedMode = false → (f.timeCoord.processTimeMessage m).2.1.hidesEvent = false)
    (hd : (f.processActionMessage m v w).1 ≠ .delayMessage) :
    Stepped lim floor i f (Federation.returned (f.processActionMessage m v w)) request
      (f.processActionMessage m v w).2.2 := by
  have hexec : ∀ f', f' = { f with timeCoord := (f.timeCoord.processTimeMessage m).2.1 } →
      Node lim floor i f' request →
      Stepped lim floor i f' (Federation.returned f'.execCheck) request f'.execCheck.2.2 := by
    rintro f' rfl hn
    exact hn.execCheck
  have htime : ∀ f', f' = { f with timeCoord := (f.timeCoord.processTimeMessage m).2.1 } →
      Node lim floor i f' request →
      Stepped lim floor i f' (Federation.returned f'.timeCheck) request f'.timeCheck.2.2 := by
    rintro f' rfl hn
    exact hn.anyTimeCheck hp hh
  have hkind := hm
  unfold FederateState.processActionMessage at hd ⊢
  obtain ha | ha | ha | ha := hkind
  · rw [ha] at hd ⊢
    exact h.processThen hp hm hl hexec hd
  · have hown : f.isOwnRequest m = false := by
      refine Bool.and_eq_false_iff.mpr (.inr (decide_eq_false ?_))
      rw [hdest]
      rintro rfl
      exact absurd hi (by decide)
    rw [ha] at hd ⊢
    simp only [hown, Bool.false_eq_true, if_false] at hd ⊢
    exact h.processThen hp hm hl htime hd
  · rw [ha] at hd ⊢
    exact h.processThen hp hm hl htime hd
  · have hne : ¬ m.sourceId = f.globalId := by
      rw [h.globalId]
      exact hother ha
    rw [ha] at hd ⊢
    simp only [FederateState.processDisconnect, if_neg hne] at hd ⊢
    exact h.processThen hp hm hl htime hd

theorem receivePublication_cases (f : FederateState) (cmd : ActionMessage) :
    f.receivePublication cmd = (f, []) ∨ ∃ sources : List GlobalHandle,
      f.receivePublication cmd = f.withCoordinator
        (sources.foldl (fun r _ => ((r.1.updateValueTime cmd.actionTime).1,
          r.2 ++ (r.1.updateValueTime cmd.actionTime).2)) (f.timeCoord, [])) := by
  unfold FederateState.receivePublication
  split
  · exact .inl rfl
  · split
    · exact .inl rfl
    · exact .inr ⟨_, rfl⟩

theorem Node.publication (h : Node lim floor i f request) (hp : f.processing = true)
    (ha : m.messageAction = .cmdPub) (hj : j ∈ f.timeCoord.dependencies.keys)
    (ht : lim j ≤ m.actionTime) :
    Stepped lim floor i f (Federation.returned (f.processActionMessage m v w)) request
      (f.processActionMessage m v w).2.2 := by
  have heq : f.processActionMessage m v w =
    FederateState.continueWith (f.receivePublication m) := by
    unfold FederateState.processActionMessage
    rw [ha]
  rw [heq]
  obtain hr | ⟨sources, hr⟩ := receivePublication_cases f m
  · rw [hr]
    exact h.stay
  rw [hr]
  cases h.phase with
  | idle hp' => exact absurd (hp'.symm.trans hp) (by decide)
  | requesting _ hmode htk =>
    obtain ⟨ht', hs, hout⟩ := htk.updateValueTimes hj ht sources
    refine ⟨floor, le_rfl, ⟨h.globalId, hs.sourceId.trans h.sourceId, h.state, h.positive,
      .requesting ?_ hmode ht'⟩, hs, h.sourceId ▸ hout⟩
    exact (Bool.and_true _).trans hp
  | waiting _ hmode htk =>
    obtain ⟨ht', hs, hout⟩ := htk.updateValueTimes hj ht sources
    refine ⟨floor, le_rfl, ⟨h.globalId, hs.sourceId.trans h.sourceId, h.state, h.positive,
      .waiting ?_ hmode ht'⟩, hs, h.sourceId ▸ hout⟩
    exact (Bool.and_true _).trans hp

end Helics
