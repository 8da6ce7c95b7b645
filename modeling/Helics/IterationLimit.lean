import Helics.TimeRequests

namespace Helics

namespace TimeCoordinator

structure SameCount (c c' : TimeCoordinator) : Prop where
  iteration : c'.iteration = c.iteration
  iterating : c'.iterating = c.iterating
  info : c'.info = c.info

theorem SameCount.trans (h : SameCount a b) (h' : SameCount b c) : SameCount a c :=
  ⟨h'.iteration.trans h.iteration, h'.iterating.trans h.iterating, h'.info.trans h.info⟩

variable (c : TimeCoordinator)

theorem updateValueTime_sameCount (t : Time) : SameCount c (c.updateValueTime t).1 := by
  rw [updateValueTime_eq]
  exact ⟨rfl, rfl, rfl⟩

theorem updateMessageTime_sameCount (t : Time) : SameCount c (c.updateMessageTime t).1 := by
  rw [updateMessageTime_eq]
  exact ⟨rfl, rfl, rfl⟩

variable (cmd : ActionMessage)

theorem processTimeMessage_sameCount : SameCount c (c.processTimeMessage cmd).2.1 := by
  obtain ⟨_, _, _, _, _, _, he, _⟩ := c.processTimeMessage_eq cmd
  rw [he]
  exact ⟨rfl, rfl, rfl⟩

theorem processDependencyUpdateMessage_sameCount :
    SameCount c (c.processDependencyUpdateMessage cmd) := by
  rw [processDependencyUpdateMessage_eq]
  exact ⟨rfl, rfl, rfl⟩

theorem enteringExecMode_iteration (mode : IterationRequest) :
    (c.enteringExecMode mode).1.iteration = c.iteration ∧
      (c.enteringExecMode mode).1.info = c.info := by
  rw [enteringExecMode_eq]
  exact ⟨rfl, rfl⟩

theorem timeRequest_iteration (t : Time) (iterate : IterationRequest)
    (v m : Time) : (c.timeRequest t iterate v m).1.iteration = c.iteration :=
  (congrArg TimeCoordinator.iteration (c.withRequest_eq t iterate) :)

theorem disconnect_sameCount : SameCount c c.disconnect.1 := by
  rw [disconnect_eq]
  exact ⟨rfl, rfl, rfl⟩

inductive EntryOutcome (c : TimeCoordinator) :
    MessageProcessingResult × TimeCoordinator × List ActionMessage → Prop
  | waits : EntryOutcome c (.continueProcessing, c, [])
  | iterates (hlt : c.iteration < c.info.maxIterations) (hi : c'.iteration = c.iteration + 1)
      (ho : c'.info = c.info) : EntryOutcome c (.iterating, c', out)
  | enters (hi : c'.iteration = 0) (ho : c'.info = c.info) : EntryOutcome c (.nextStep, c', out)

theorem checkExecEntry_outcome : EntryOutcome c c.checkExecEntry := by
  unfold checkExecEntry
  split
  · exact .waits
  split
  · exact .waits
  split
  · rename_i h
    exact .iterates h.2.2 rfl rfl
  · exact .enters rfl rfl

/-- The dependencies let the next execution time go. -/
def AllowsNext (c : TimeCoordinator) : Prop :=
  c.nextExecutionTime < c.allowedTime ∨ c.nextExecutionTime = c.allowedTime ∧
    (c.timeRequested ≤ c.nextExecutionTime ∨ ∀ d ∈ c.dependencies.entries,
      c.nextExecutionTime ≤ d.Tnext ∧ (d.Tnext = c.nextExecutionTime → d.timeState ≠ .timeGranted))

/-- The next execution time has moved past the granted one and is not blocked, but the dependencies
do not let it go yet. -/
def HeldBack (c : TimeCoordinator) : Prop :=
  c.timeGranted < c.nextExecutionTime ∧ c.nextExecutionTime < c.timeBlock ∧ ¬ c.AllowsNext

theorem grantsTime_of_allowsNext (h : c.AllowsNext) (hlt : c.timeGranted < c.nextExecutionTime) :
    c.updateTimeFactors.2.grantsTime = true := by
  unfold grantsTime
  obtain h | ⟨heq, hreq | hdeps⟩ := h
  · exact Bool.or_eq_true_iff.mpr (.inl (decide_eq_true h))
  · refine Bool.or_eq_true_iff.mpr (.inr (Bool.and_eq_true_iff.mpr ⟨decide_eq_true heq.symm, ?_⟩))
    exact Bool.or_eq_true_iff.mpr (.inl (Bool.and_eq_true_iff.mpr
      ⟨decide_eq_true (.inr hlt), decide_eq_true hreq⟩))
  · refine Bool.or_eq_true_iff.mpr (.inr (Bool.and_eq_true_iff.mpr ⟨decide_eq_true heq.symm, ?_⟩))
    refine Bool.or_eq_true_iff.mpr (.inr (List.all_eq_true.mpr fun d hd => ?_))
    obtain ⟨hle, hstate⟩ := hdeps d hd
    refine Bool.and_eq_true_iff.mpr ⟨decide_eq_true hle, ?_⟩
    by_cases hnext : d.Tnext = c.nextExecutionTime
    · rw [decide_eq_false (p := d.timeState = _) (hstate hnext), Bool.and_false]
      rfl
    · rw [show decide (d.Tnext = c.updateTimeFactors.2.timeExec) = false from
        decide_eq_false hnext]
      rfl

inductive CountOutcome (c : TimeCoordinator) :
    MessageProcessingResult × TimeCoordinator × List ActionMessage → Prop
  | halts (hs : SameCount c c') : CountOutcome c (.halted, c', out)
  | steps (hi : c'.iteration = 0) (hs : c'.iterating = c.iterating) (ho : c'.info = c.info) :
      CountOutcome c (.nextStep, c', out)
  | iterates (hm : c.iterating = true) (hi : c'.iteration = c.iteration + 1)
      (hs : c'.iterating = c.iterating) (ho : c'.info = c.info) :
      CountOutcome c (.iterating, c', out)
  | waits (hi : c'.iteration = c.iteration ∨
        c'.iteration = 0 ∧ (c.iterating = true → c.HeldBack))
      (hs : c'.iterating = c.iterating) (ho : c'.info = c.info) :
      CountOutcome c (.continueProcessing, c', out)

theorem countIteration_cases :
    c.countIteration.iterating = c.iterating ∧ c.countIteration.info = c.info ∧
      ((¬ c.iterating ∨ c.timeGranted < c.timeExec) ∧ c.countIteration.iteration = 0 ∨
        ¬ (¬ c.iterating ∨ c.timeGranted < c.timeExec) ∧
          c.countIteration.iteration = if c.grantsTime then c.iteration + 1 else c.iteration) := by
  unfold countIteration
  split
  · rename_i h
    exact ⟨rfl, rfl, .inl ⟨h, rfl⟩⟩
  · rename_i h
    split <;> exact ⟨rfl, rfl, .inr ⟨h, rfl⟩⟩

theorem checkTimeGrant_count : CountOutcome c c.checkTimeGrant := by
  obtain ⟨hs, ho, hcases⟩ := c.updateTimeFactors.2.countIteration_cases
  have hs : c.updateTimeFactors.2.countIteration.iterating = c.iterating := hs
  have ho : c.updateTimeFactors.2.countIteration.info = c.info := ho
  unfold checkTimeGrant
  dsimp only
  split
  · exact .halts (SameCount.trans (b := { c.updateTimeFactors.2 with
      timeGranted := .maxVal, timeGrantBase := .maxVal }) ⟨rfl, rfl, rfl⟩ (disconnect_sameCount _))
  split
  · exact .waits (.inl rfl) rfl rfl
  split
  · rename_i hg
    obtain ⟨hnew, hi⟩ | ⟨hold, hi⟩ := hcases
    · rw [if_pos hnew]
      exact .steps hi hs ho
    rw [if_neg hold]
    rw [if_pos hg] at hi
    have hm : c.iterating = true := not_not.mp (not_or.mp hold).1
    exact .iterates hm hi hs ho
  · rename_i hblock hg
    have hi : c.updateTimeFactors.2.countIteration.iteration = c.iteration ∨
        c.updateTimeFactors.2.countIteration.iteration = 0 ∧ (c.iterating = true → c.HeldBack) := by
      obtain ⟨hnew, hi⟩ | ⟨-, hi⟩ := hcases
      · refine .inr ⟨hi, fun hm => ?_⟩
        have hlt : c.timeGranted < c.nextExecutionTime := hnew.resolve_left (not_not.mpr hm)
        exact ⟨hlt, not_le.mp hblock, fun hn => hg (c.grantsTime_of_allowsNext hn hlt)⟩
      · rw [if_neg hg] at hi
        exact .inl hi
    split <;> exact .waits hi hs ho

end TimeCoordinator

/-- The limit that the core applies to a request to iterate if needed. -/
def limitIterations (maxIterationCount currentIteration : Int) (iterate : IterationRequest) :
    IterationRequest :=
  if iterate = .iterateIfNeeded ∧ maxIterationCount ≤ currentIteration then .noIterations
  else iterate

/-- A federate that may iterate, with the results that its coordinator reported, newest first. -/
structure IteratingFederate where
  coord : TimeCoordinator
  executing : Bool := false
  waiting : Bool := false
  results : List (MessageProcessingResult × Time) := []

inductive IterationEvent where
  | enterExecutingMode (iterate : IterationRequest)
  | requestTimeIterative (next : Time) (iterate : IterationRequest)
      (nextValueTime nextMessageTime : Time)
  | value (updateTime : Time)
  | message (updateTime : Time)
  | timing (cmd : ActionMessage)
  | dependency (cmd : ActionMessage)
  | check

namespace IteratingFederate

def report (f : IteratingFederate)
    (r : MessageProcessingResult × TimeCoordinator × List ActionMessage) : IteratingFederate :=
  if returnableResult r.1 then
    { coord := r.2.1
      executing := f.executing || decide (r.1 = .nextStep)
      waiting := false
      results := (r.1, r.2.1.timeGranted) :: f.results }
  else { f with coord := r.2.1 }

/-- A forced grant is reported as a step, in the phase the federate is in. -/
def processTiming (f : IteratingFederate) (cmd : ActionMessage) : IteratingFederate :=
  let c := (f.coord.processTimeMessage cmd).2.1
  if cmd.messageAction = .cmdForceTimeGrant then
    if cmd.actionTime < f.coord.timeGranted then f
    else { f with coord := c, waiting := false, results := (.nextStep, c.timeGranted) :: f.results }
  else { f with coord := c }

def step (maxIterationCount : Int) (f : IteratingFederate) : IterationEvent → IteratingFederate
  | .enterExecutingMode iterate =>
    if f.executing = false ∧ f.waiting = false then
      { f with coord := (f.coord.enteringExecMode iterate).1, waiting := true }
    else f
  | .requestTimeIterative next iterate value message =>
    if f.executing = true ∧ f.waiting = false then
      { f with
        coord := (f.coord.timeRequest next
          (limitIterations maxIterationCount f.coord.iteration iterate) value message).1
        waiting := true }
    else f
  | .value t => { f with coord := (f.coord.updateValueTime t).1 }
  | .message t => { f with coord := (f.coord.updateMessageTime t).1 }
  | .timing cmd => f.processTiming cmd
  | .dependency cmd => { f with coord := f.coord.processDependencyUpdateMessage cmd }
  | .check =>
    if f.waiting then
      f.report (if f.executing then f.coord.checkTimeGrant else f.coord.checkExecEntry)
    else f

/-- The number of consecutive iterating results at a granted time, up to the newest one. -/
def streak (granted : Time) (results : List (MessageProcessingResult × Time)) : Nat :=
  (results.takeWhile fun r => decide (r = (.iterating, granted))).length

theorem streak_cons_le (granted t : Time) (r : MessageProcessingResult)
    (results : List (MessageProcessingResult × Time)) :
    streak granted ((r, t) :: results) ≤ streak granted results + 1 := by
  unfold streak
  rw [List.takeWhile_cons]
  split
  · exact le_rfl
  · exact Nat.zero_le _

theorem streak_cons_of_ne (granted t : Time) (hr : r ≠ .iterating)
    (results : List (MessageProcessingResult × Time)) : streak granted ((r, t) :: results) = 0 := by
  unfold streak
  rw [List.takeWhile_cons_of_neg]
  · rfl
  · intro h
    exact hr (congrArg Prod.fst (of_decide_eq_true h))

/-- While it enters execution, a federate has iterated as often as its coordinator has counted. -/
structure Entering (f : IteratingFederate) : Prop where
  nonneg : 0 ≤ f.coord.iteration
  limit : f.coord.iteration ≤ max f.coord.info.maxIterations 0
  counted : ∀ t, (streak t f.results : Int) ≤ f.coord.iteration

variable {f : IteratingFederate}

theorem Entering.same (h : f.Entering) (hs : f.coord.SameCount c)
    (w e : Bool) : Entering ⟨c, e, w, f.results⟩ := by
  refine ⟨?_, ?_, fun t => ?_⟩
  · rw [hs.iteration]
    exact h.nonneg
  · rw [hs.iteration, hs.info]
    exact h.limit
  · rw [hs.iteration]
    exact h.counted t

theorem Entering.forced (h : f.Entering) (hs : f.coord.SameCount c)
    (w e : Bool) (granted : Time) : Entering ⟨c, e, w, (.nextStep, granted) :: f.results⟩ := by
  refine ⟨?_, ?_, fun t => ?_⟩
  · rw [hs.iteration]
    exact h.nonneg
  · rw [hs.iteration, hs.info]
    exact h.limit
  · rw [streak_cons_of_ne t granted (by decide), hs.iteration]
    exact h.nonneg

theorem Entering.processTiming (h : f.Entering) (cmd : ActionMessage) :
    (f.processTiming cmd).Entering := by
  have hs := f.coord.processTimeMessage_sameCount cmd
  unfold IteratingFederate.processTiming
  split
  · split
    · exact h
    · exact h.forced hs _ _ _
  · exact h.same hs _ _

/-- Every step before execution keeps the count. -/
theorem Entering.step (h : f.Entering) (hx : f.executing = false)
    (k : Int) (e : IterationEvent) : (f.step k e).Entering := by
  cases e with
  | enterExecutingMode iterate =>
    show (if _ then _ else f : IteratingFederate).Entering
    split
    · obtain ⟨hi, ho⟩ := f.coord.enteringExecMode_iteration iterate
      refine ⟨?_, ?_, fun t => ?_⟩
      · rw [hi]
        exact h.nonneg
      · rw [hi, ho]
        exact h.limit
      · rw [hi]
        exact h.counted t
    · exact h
  | requestTimeIterative next iterate v m =>
    show (if _ then _ else f : IteratingFederate).Entering
    rw [if_neg (by simp [hx])]
    exact h
  | value t => exact h.same (f.coord.updateValueTime_sameCount t) _ _
  | message t => exact h.same (f.coord.updateMessageTime_sameCount t) _ _
  | timing cmd => exact h.processTiming cmd
  | dependency cmd => exact h.same (f.coord.processDependencyUpdateMessage_sameCount cmd) _ _
  | check =>
    show (if f.waiting then _ else f : IteratingFederate).Entering
    split
    · rw [if_neg (by simp [hx])]
      have ho := f.coord.checkExecEntry_outcome
      generalize f.coord.checkExecEntry = r at ho
      cases ho with
      | waits => exact h
      | @iterates c' out hlt hi ho =>
        refine ⟨?_, ?_, fun t => ?_⟩
        · show 0 ≤ c'.iteration
          have hn := h.nonneg
          omega
        · show c'.iteration ≤ max c'.info.maxIterations 0
          rw [ho]
          omega
        · show (streak t ((.iterating, c'.timeGranted) :: f.results) : Int) ≤ c'.iteration
          have hcons := streak_cons_le t c'.timeGranted .iterating f.results
          have hold := h.counted t
          omega
      | @enters c' out hi ho =>
        refine ⟨hi.symm.le, ?_, fun t => ?_⟩
        · show c'.iteration ≤ max c'.info.maxIterations 0
          omega
        · show (streak t ((.nextStep, c'.timeGranted) :: f.results) : Int) ≤ c'.iteration
          rw [streak_cons_of_ne t _ (by decide), hi]
          rfl
    · exact h

/-- A request to iterate is made before the limit, and no check finds one that is held back after it
has iterated. -/
def Limited (k : Int) (f : IteratingFederate) : IterationEvent → Prop
  | .requestTimeIterative _ iterate _ _ => f.executing = true → f.waiting = false →
      limitIterations k f.coord.iteration iterate ≠ .noIterations →
      f.coord.iteration < f.coord.info.maxIterations
  | .check => f.executing = true → f.waiting = true → f.coord.iterating = true →
      f.coord.iteration ≠ 0 → ¬ f.coord.HeldBack
  | _ => True

/-- While it executes, a federate iterates at most as often as its coordinator has counted, and a
request to iterate that is waiting is below the limit. -/
structure Executing (f : IteratingFederate) : Prop where
  nonneg : 0 ≤ f.coord.iteration
  limit : f.coord.iteration ≤ max f.coord.info.maxIterations 0
  below : f.waiting = true → f.coord.iterating = true →
    f.coord.iteration < f.coord.info.maxIterations
  counted : f.waiting = false ∨ f.coord.iterating = true → ∀ t,
    (streak t f.results : Int) ≤ f.coord.iteration
  bound : ∀ t, (streak t f.results : Int) ≤ max f.coord.info.maxIterations 0

theorem Executing.same (h : f.Executing) (hs : f.coord.SameCount c)
    (e : Bool) : Executing ⟨c, e, f.waiting, f.results⟩ := by
  refine ⟨?_, ?_, ?_, ?_, fun t => ?_⟩
  · rw [hs.iteration]
    exact h.nonneg
  · rw [hs.iteration, hs.info]
    exact h.limit
  · rw [hs.iteration, hs.info, hs.iterating]
    exact h.below
  · rw [hs.iteration, hs.iterating]
    exact h.counted
  · rw [hs.info]
    exact h.bound t

theorem executing_of_ended (hn : 0 ≤ c.iteration) (hl : c.iteration ≤ max c.info.maxIterations 0)
    (hr : r ≠ .iterating) (e : Bool) (granted : Time)
    (results : List (MessageProcessingResult × Time)) :
    Executing ⟨c, e, false, (r, granted) :: results⟩ := by
  have hzero (t : Time) : streak t ((r, granted) :: results) = 0 := streak_cons_of_ne t granted hr _
  refine ⟨hn, hl, nofun, fun _ t => ?_, fun t => ?_⟩
  · show (streak t ((r, granted) :: results) : Int) ≤ c.iteration
    rw [hzero]
    exact hn
  · show (streak t ((r, granted) :: results) : Int) ≤ max c.info.maxIterations 0
    rw [hzero]
    exact le_max_right _ _

theorem Executing.processTiming (h : f.Executing) (cmd : ActionMessage) :
    (f.processTiming cmd).Executing := by
  have hs := f.coord.processTimeMessage_sameCount cmd
  unfold IteratingFederate.processTiming
  split
  · split
    · exact h
    refine executing_of_ended ?_ ?_ (by decide) _ _ _
    · rw [hs.iteration]
      exact h.nonneg
    · rw [hs.iteration, hs.info]
      exact h.limit
  · exact h.same hs _

theorem Executing.checked (h : f.Executing) (hw : f.waiting = true)
    (hx : f.executing = true) (hk : f.Limited k .check) :
    (f.report f.coord.checkTimeGrant).Executing := by
  have ho := f.coord.checkTimeGrant_count
  have hkeep := hk hx hw
  generalize f.coord.checkTimeGrant = r at ho
  cases ho with
  | @halts c' out hs =>
    refine executing_of_ended (r := .halted) ?_ ?_ (by decide) _ _ _
    · rw [hs.iteration]
      exact h.nonneg
    · rw [hs.iteration, hs.info]
      exact h.limit
  | @steps c' out hi hs ho =>
    refine executing_of_ended (r := .nextStep) hi.symm.le ?_ (by decide) _ _ _
    rw [hi]
    exact le_max_right _ _
  | @iterates c' out hm hi hs ho =>
    have hlt := h.below hw hm
    have hn := h.nonneg
    have hstreak (t : Time) : (streak t ((.iterating, c'.timeGranted) :: f.results) : Int) ≤
        c'.iteration := by
      have hcons := streak_cons_le t c'.timeGranted .iterating f.results
      have hold := h.counted (.inr hm) t
      omega
    have hlimit : c'.iteration ≤ max c'.info.maxIterations 0 := by
      rw [ho]
      omega
    refine ⟨?_, hlimit, nofun, fun _ t => hstreak t, fun t => (hstreak t).trans hlimit⟩
    show 0 ≤ c'.iteration
    omega
  | @waits c' out hi hs ho =>
    show Executing { f with coord := c' }
    have hcount : f.coord.iterating = true → c'.iteration = f.coord.iteration := by
      intro hm
      obtain hi | ⟨hi, hheld⟩ := hi
      · exact hi
      · by_contra hne
        exact hkeep hm (fun hzero => hne (hi.trans hzero.symm)) (hheld hm)
    have hn := h.nonneg
    have hl := h.limit
    refine ⟨?_, ?_, fun _ hm => ?_, fun hor t => ?_, fun t => ?_⟩
    · show 0 ≤ c'.iteration
      omega
    · show c'.iteration ≤ max c'.info.maxIterations 0
      rw [ho]
      omega
    · have hm : f.coord.iterating = true := hs ▸ hm
      show c'.iteration < c'.info.maxIterations
      rw [ho, hcount hm]
      exact h.below hw hm
    · have hm : f.coord.iterating = true := by
        obtain hno | hm := hor
        · exact absurd (hno.symm.trans hw) Bool.false_ne_true
        · exact hs ▸ hm
      show (streak t f.results : Int) ≤ c'.iteration
      rw [hcount hm]
      exact h.counted (.inr hm) t
    · show (streak t f.results : Int) ≤ max c'.info.maxIterations 0
      rw [ho]
      exact h.bound t

/-- Every step within the limit keeps the count in execution. -/
theorem Executing.step (h : f.Executing) (hx : f.executing = true)
    (e : IterationEvent) (hk : f.Limited k e) : (f.step k e).Executing := by
  cases e with
  | enterExecutingMode iterate =>
    show (if _ then _ else f : IteratingFederate).Executing
    rw [if_neg (by simp [hx])]
    exact h
  | requestTimeIterative next iterate v m =>
    show (if f.executing = true ∧ f.waiting = false then _ else f : IteratingFederate).Executing
    split
    · rename_i hw
      have hi := f.coord.timeRequest_iteration next (limitIterations k f.coord.iteration iterate)
        v m
      have ho := f.coord.timeRequest_info next (limitIterations k f.coord.iteration iterate) v m
      have hm := f.coord.timeRequest_iterating next
        (limitIterations k f.coord.iteration iterate) v m
      refine ⟨?_, ?_, fun _ ht => ?_, fun _ t => ?_, fun t => ?_⟩
      · rw [hi]
        exact h.nonneg
      · rw [hi, ho]
        exact h.limit
      · rw [hm] at ht
        rw [hi, ho]
        exact hk hw.1 hw.2 (of_decide_eq_true ht)
      · rw [hi]
        exact h.counted (.inl hw.2) t
      · rw [ho]
        exact h.bound t
    · exact h
  | value t => exact h.same (f.coord.updateValueTime_sameCount t) _
  | message t => exact h.same (f.coord.updateMessageTime_sameCount t) _
  | timing cmd => exact h.processTiming cmd
  | dependency cmd => exact h.same (f.coord.processDependencyUpdateMessage_sameCount cmd) _
  | check =>
    show (if f.waiting then _ else f : IteratingFederate).Executing
    split
    · rename_i hw
      exact h.checked hw hx hk
    · exact h

def after (k : Int) (f : IteratingFederate) (es : List IterationEvent) : IteratingFederate :=
  es.foldl (step k) f

def AllLimited (k : Int) : IteratingFederate → List IterationEvent → Prop
  | _, [] => True
  | f, e :: es => f.Limited k e ∧ AllLimited k (f.step k e) es

theorem step_info (k : Int) (f : IteratingFederate) (e : IterationEvent) :
    (f.step k e).coord.info = f.coord.info := by
  cases e with
  | enterExecutingMode iterate =>
    show (if _ then _ else f : IteratingFederate).coord.info = _
    split
    · exact (f.coord.enteringExecMode_iteration iterate).2
    · rfl
  | requestTimeIterative next iterate v m =>
    show (if _ then _ else f : IteratingFederate).coord.info = _
    split
    · exact f.coord.timeRequest_info _ _ _ _
    · rfl
  | value t => exact (f.coord.updateValueTime_sameCount t).info
  | message t => exact (f.coord.updateMessageTime_sameCount t).info
  | timing cmd =>
    have hs := (f.coord.processTimeMessage_sameCount cmd).info
    show (f.processTiming cmd).coord.info = _
    unfold processTiming
    split
    · split
      · rfl
      · exact hs
    · exact hs
  | dependency cmd => exact (f.coord.processDependencyUpdateMessage_sameCount cmd).info
  | check =>
    have hreport (r) (hr : r.2.1.info = f.coord.info) : (f.report r).coord.info = f.coord.info := by
      unfold report
      split <;> exact hr
    show (if f.waiting then _ else f : IteratingFederate).coord.info = _
    split
    · apply hreport
      split
      · have ho := f.coord.checkTimeGrant_count
        generalize f.coord.checkTimeGrant = r at ho
        cases ho with
        | halts hs => exact hs.info
        | steps _ _ ho => exact ho
        | iterates _ _ _ ho => exact ho
        | waits _ _ ho => exact ho
      · have ho := f.coord.checkExecEntry_outcome
        generalize f.coord.checkExecEntry = r at ho
        cases ho with
        | waits => rfl
        | iterates _ _ ho => exact ho
        | enters _ ho => exact ho
    · rfl

/-- Only the end of a call enters execution. -/
theorem step_executing (k : Int) (f : IteratingFederate) (e : IterationEvent) :
    (f.step k e).executing = f.executing ∨
      (f.step k e).executing = true ∧ (f.step k e).waiting = false := by
  cases e with
  | enterExecutingMode iterate =>
    left
    show (if _ then _ else f : IteratingFederate).executing = _
    split <;> rfl
  | requestTimeIterative next iterate v m =>
    left
    show (if _ then _ else f : IteratingFederate).executing = _
    split <;> rfl
  | timing cmd =>
    left
    show (f.processTiming cmd).executing = _
    unfold processTiming
    split
    · split <;> rfl
    · rfl
  | check =>
    have hreport (r) : (f.report r).executing = f.executing ∨
        (f.report r).executing = true ∧ (f.report r).waiting = false := by
      unfold report
      split
      · cases hx : f.executing || decide (r.1 = .nextStep) with
        | true => exact .inr ⟨rfl, rfl⟩
        | false => exact .inl (Bool.or_eq_false_iff.mp hx).1.symm
      · exact .inl rfl
    unfold step
    dsimp only
    split
    · exact hreport _
    · exact .inl rfl
  | value t => exact .inl rfl
  | message t => exact .inl rfl
  | dependency cmd => exact .inl rfl

theorem executing_step (k : Int) (hx : f.executing = true)
    (e : IterationEvent) : (f.step k e).executing = true :=
  (step_executing k f e).elim (·.trans hx) And.left

theorem waiting_of_entered (k : Int) (hx : f.executing = false)
    (e : IterationEvent) (h : (f.step k e).executing = true) : (f.step k e).waiting = false :=
  (step_executing k f e).elim (fun hs => absurd (h.symm.trans (hs.trans hx)) Bool.true_eq_false.mp)
    And.right

theorem Entering.executing (h : f.Entering) (hw : f.waiting = false) :
    f.Executing where
  nonneg := h.nonneg
  limit := h.limit
  below hw' := absurd (hw.symm.trans hw') Bool.false_ne_true
  counted _ := h.counted
  bound t := (h.counted t).trans h.limit

theorem Entering.after (h : f.Entering) (hx : f.executing = false) (k : Int)
    (es : List IterationEvent) (hafter : (f.after k es).executing = false) :
    (f.after k es).Entering := by
  induction es generalizing f with
  | nil => exact h
  | cons e es ih =>
    have hnext : (f.step k e).executing = false := by
      by_contra hno
      have hstay (es : List IterationEvent) (f : IteratingFederate) (hf : f.executing = true) :
          (f.after k es).executing = true := by
        induction es generalizing f with
        | nil => exact hf
        | cons e es ih => exact ih _ (executing_step k hf e)
      have htrue := hstay es _ (Bool.eq_true_of_not_eq_false hno)
      exact Bool.false_ne_true (hafter.symm.trans htrue)
    exact ih (h.step hx k e) hnext hafter

def Counted (f : IteratingFederate) : Prop :=
  f.executing = false ∧ f.Entering ∨ f.executing = true ∧ f.Executing

theorem Counted.step (h : f.Counted) (e : IterationEvent)
    (hk : f.Limited k e) : (f.step k e).Counted := by
  obtain ⟨hx, h⟩ | ⟨hx, h⟩ := h
  · have hn := h.step hx k e
    cases hx' : (f.step k e).executing with
    | false => exact .inl ⟨hx', hn⟩
    | true => exact .inr ⟨hx', hn.executing (waiting_of_entered k hx e hx')⟩
  · exact .inr ⟨executing_step k hx e, h.step hx e hk⟩

theorem Counted.after (h : f.Counted) (es : List IterationEvent)
    (hk : AllLimited k f es) : (f.after k es).Counted := by
  induction es generalizing f with
  | nil => exact h
  | cons e es ih => exact ih (h.step e hk.1) hk.2

theorem Counted.bound (h : f.Counted) (t : Time) :
    (streak t f.results : Int) ≤ max f.coord.info.maxIterations 0 := by
  obtain ⟨-, h⟩ | ⟨-, h⟩ := h
  · exact (h.counted t).trans h.limit
  · exact h.bound t

theorem after_info (k : Int) (f : IteratingFederate) (es : List IterationEvent) :
    (f.after k es).coord.info = f.coord.info := by
  induction es generalizing f with
  | nil => rfl
  | cons e es ih => exact (ih (f.step k e)).trans (step_info k f e)

/-- Entering execution iterates at most as often as the limit says. A request for time does so if it
is made below the limit and none that has iterated is held back when it is checked. -/
theorem iterations_limited (k : Int) (c₀ : TimeCoordinator) (h₀ : c₀.iteration = 0)
    (es : List IterationEvent) (t : Time) : let f := after k ⟨c₀, false, false, []⟩ es
    (f.executing = false → streak t f.results ≤ c₀.info.maxIterations.toNat) ∧
      (AllLimited k ⟨c₀, false, false, []⟩ es →
        streak t f.results ≤ c₀.info.maxIterations.toNat) := by
  have hinit : Entering ⟨c₀, false, false, []⟩ :=
    ⟨h₀.symm.le, h₀.le.trans (le_max_right _ _), fun _ => h₀.symm.le⟩
  have hinfo := after_info k ⟨c₀, false, false, []⟩ es
  intro f
  have hbound (h : f.Counted) : streak t f.results ≤ c₀.info.maxIterations.toNat := by
    have hle := h.bound t
    rw [hinfo] at hle
    dsimp only at hle
    omega
  exact ⟨fun hx => hbound (.inl ⟨hx, hinit.after rfl k es hx⟩),
    fun hk => hbound (Counted.after (.inl ⟨rfl, hinit⟩) es hk)⟩

def oneIteration : TimeCoordinator := { info := { maxIterations := 1 } }

def askAgain : List IterationEvent :=
  [.requestTimeIterative .zero .iterateIfNeeded .maxVal .maxVal, .check]

/-- A federate limited to one iteration is told twice in a row to iterate at time zero. -/
theorem iterates_beyond_limit : streak .zero (after 10000 ⟨oneIteration, false, false, []⟩
      ([.enterExecutingMode .noIterations, .check] ++ askAgain ++ askAgain)).results = 2 := by
  decide +kernel

theorem iterates_within_limit : streak .zero (after 10000 ⟨oneIteration, false, false, []⟩
      ([.enterExecutingMode .noIterations, .check] ++ askAgain)).results ≤ 1 := by
  refine (iterations_limited 10000 oneIteration rfl _ .zero).2 ⟨trivial, ?_, ?_, ?_, trivial⟩
  · exact fun hx => absurd hx (by decide +kernel)
  · exact fun _ _ _ => by decide +kernel
  · exact fun _ _ _ hc => absurd hc (by decide +kernel)

end IteratingFederate

end Helics
