import Helics.GrantSteps

namespace Helics

open TimeCoordinator

namespace TimeCoordinator

def allowedSendTime (c : TimeCoordinator) : Time := c.timeGranted + c.info.outputDelay

theorem SameRequest.nextExecutionTime (h : SameRequest c c') :
    c'.nextExecutionTime = c.nextExecutionTime := by
  have hpending : c'.pendingExecutionTime = c.pendingExecutionTime := by
    unfold pendingExecutionTime
    rw [h.message, h.value, h.requested, h.info, h.granted, h.iterating, h.getNextPossibleTime]
  unfold TimeCoordinator.nextExecutionTime
  rw [hpending, h.info, h.requested, h.granted, generateAllowedTime_congr h.base h.info]

/-- The time before which no event can make a coordinator act, if it is not iterating. -/
def eventBound (c : TimeCoordinator) : Time :=
  if c.timeMinminDe < .maxVal ∧ c.getNextPossibleTime < c.timeMinminDe + c.info.inputDelay then
    c.generateAllowedTime (c.timeMinminDe + c.info.inputDelay)
  else c.getNextPossibleTime

variable {c : TimeCoordinator}

theorem nextPossibleEventTime_plain (hi : c.iterating = false) :
    c.nextPossibleEventTime = if c.info.uninterruptible then c.timeRequested
      else min c.eventBound c.timeExec + c.info.outputDelay := by
  unfold nextPossibleEventTime eventBound
  rw [hi]
  rfl

section Alone
variable {c : TimeCoordinator} (hd : c.dependencies.entries = [])
include hd

theorem timeFactors_alone : c.timeFactors =
    ⟨.maxVal, min c.timeValue c.timeMessage, min c.timeValue c.timeMessage⟩ := by
  unfold timeFactors
  rw [hd]
  rfl

theorem allowedTime_alone : c.allowedTime = .maxVal := by
  unfold allowedTime
  rw [timeFactors_alone hd]
  exact if_neg (lt_irrefl _)

theorem grantsTime_alone (he : c.nextExecutionTime ≠ .maxVal) :
    c.updateTimeFactors.2.grantsTime = true := by
  have hlt : c.nextExecutionTime < c.allowedTime := by
    rw [allowedTime_alone hd]
    exact lt_of_le_of_ne (Time.le_maxVal _) he
  unfold grantsTime
  exact Bool.or_eq_true_iff.mpr (.inl (decide_eq_true hlt))

theorem checkTimeGrant_alone : ∀ msg ∈ c.checkTimeGrant.2.2, msg.messageAction = .cmdDisconnect ∨
      msg.messageAction = .cmdTimeGrant ∧ msg.actionTime = c.nextExecutionTime ∧
        returnableResult c.checkTimeGrant.1 = true ∧
        c.checkTimeGrant.2.1.timeGranted = c.nextExecutionTime := by
  unfold checkTimeGrant
  dsimp only
  intro msg hmsg
  split at hmsg
  · obtain ⟨dest, -, rfl⟩ := List.mem_map.mp hmsg
    exact .inl rfl
  rename_i hmax
  split at hmsg
  · exact absurd hmsg List.not_mem_nil
  rename_i hblock
  have hexec : c.nextExecutionTime ≠ .maxVal := fun he => hmax ⟨he, allowedTime_alone hd⟩
  rw [if_pos (grantsTime_alone hd hexec)] at hmsg
  obtain ⟨dest, -, rfl⟩ := List.mem_map.mp hmsg
  rw [if_neg hmax, if_neg hblock, if_pos (grantsTime_alone hd hexec)]
  refine .inr ⟨rfl, countIteration_exec _, ?_, countIteration_exec _⟩
  split <;> rfl

end Alone

theorem updateTime_alone {t : TimeDependencies} (ht : t.entries = []) (cmd : ActionMessage) :
    (t.updateTime cmd).2.entries = [] := by
  have hkeys := t.keys_updateTime cmd
  unfold SortedTable.Table.keys at hkeys
  rw [ht, List.map_nil] at hkeys
  exact List.map_eq_nil_iff.mp hkeys

section
variable (hd : c.dependencies.entries = [])
include hd

theorem checkTimeGrant_stays_alone : c.checkTimeGrant.2.1.dependencies.entries = [] := by
  have hcount : c.updateTimeFactors.2.countIteration.dependencies.entries = [] := by
    rw [countIteration_eq]
    exact hd
  unfold checkTimeGrant
  dsimp only
  split
  · unfold disconnect
    split
    · exact updateTime_alone hd _
    · exact hd
  split
  · exact hd
  split
  · unfold updateTimeGrant
    dsimp only
    split
    · exact List.map_eq_nil_iff.mpr hcount
    · exact hcount
  · split <;> exact hcount

theorem timeRequest_stays_alone (t : Time) (iterate : IterationRequest) (v m : Time) :
    (c.timeRequest t iterate v m).1.dependencies.entries = [] := by
  have hw : (c.withRequest t iterate).dependencies = c.dependencies := by
    unfold withRequest
    dsimp only
    split <;> rfl
  exact List.map_eq_nil_iff.mpr (hw ▸ hd)

def announcing (c : TimeCoordinator) (t v m : Time) : TimeCoordinator :=
  let c' := (c.withRequest t .noIterations).withEventTimes v m
  { c' with timeMinminDe := min c'.timeValue c'.timeMessage }

theorem timeRequest_next (t v m : Time) :
    (c.timeRequest t .noIterations v m).1.timeNext =
      (c.announcing t v m).nextPossibleEventTime := by
  have halone : ((c.withRequest t .noIterations).withEventTimes v m).dependencies.entries = [] :=
    List.map_eq_nil_iff.mpr hd
  have hmin : min ((c.withRequest t .noIterations).withEventTimes v m).timeFactors.minDe
      ((c.withRequest t .noIterations).withEventTimes v m).timeFactors.minminDe =
      (c.announcing t v m).timeMinminDe := by
    rw [timeFactors_alone halone]
    exact min_self _
  unfold announcing
  dsimp only
  rw [← show _ = (min _ _ : Time) from hmin]
  rfl

end

/-- The requested time and the time of the first event, neither before the next possible time. -/
def requestedTime (c : TimeCoordinator) (t : Time) : Time := max t c.getNextPossibleTime

def eventFrom (c : TimeCoordinator) (event : Time) : Time := max event c.getNextPossibleTime

/-- The time for which a request is due: the requested one, or that of the first event with the
input delay. -/
def dueTime (c : TimeCoordinator) (t event : Time) : Time :=
  min (c.requestedTime t) (if c.eventFrom event < .maxVal
    then c.eventFrom event + c.info.inputDelay else c.eventFrom event)

/-- The time from which on the federate may act: that of the first event or the request, or the next
possible one if there is no event. -/
def actTime (c : TimeCoordinator) (t event : Time) : Time :=
  if c.eventFrom event < .maxVal then min (c.eventFrom event) (c.requestedTime t)
  else c.getNextPossibleTime

/-- The sums that a request leads to fit, and the periods are counted exactly. -/
def RequestFits (c : TimeCoordinator) (t event : Time) : Prop :=
  c.NextFits ∧ (c.info.uninterruptible = false →
    (c.eventFrom event < .maxVal →
      (c.eventFrom event).ns + c.info.inputDelay.ns < 9223372036854775808 ∧
        c.AllowedFits (c.eventFrom event + c.info.inputDelay)) ∧
    c.AllowedFits (c.dueTime t event) ∧
    (c.actTime t event).ns + c.info.outputDelay.ns < 9223372036854775808)

/-- The output delay ends at the latest at the first allowed time that is not before the due one. -/
def DelayEnds (c : TimeCoordinator) (t event : Time) : Prop :=
  c.info.uninterruptible = false → (c.actTime t event).ns + c.info.outputDelay.ns ≤
    if c.timeGranted < c.dueTime t event then c.roundUp (c.dueTime t event)
    else (c.dueTime t event).ns

theorem next_le_actTime (c : TimeCoordinator) (t event : Time) :
    c.getNextPossibleTime ≤ c.actTime t event := by
  unfold actTime
  split
  · exact le_min (le_max_right _ _) (le_max_right _ _)
  · exact le_rfl

section Announcing
variable {c : TimeCoordinator} (hu : c.info.uninterruptible = false)
include hu

theorem announcing_minminDe (t v m : Time) :
    (c.announcing t v m).timeMinminDe = c.eventFrom (min v m) := by
  change min (max v (if c.info.uninterruptible then _ else c.getNextPossibleTime))
    (max m (if c.info.uninterruptible then _ else c.getNextPossibleTime)) = max (min v m) _
  rw [hu, if_neg Bool.false_ne_true, max_min_distrib_right]

theorem announcing_exec (t v m : Time) :
    (c.announcing t v m).timeExec = min (c.eventFrom (min v m)) (c.requestedTime t) := by
  rw [← announcing_minminDe hu t v m]
  change (if c.info.uninterruptible then _ else min _ _) = _
  rw [hu]
  rfl

theorem announcing_soonest (t v m : Time) :
    (c.announcing t v m).soonest = c.dueTime t (min v m) := by
  have hevent : min (c.announcing t v m).timeMessage (c.announcing t v m).timeValue =
      c.eventFrom (min v m) :=
    (min_comm _ _).trans (announcing_minminDe hu t v m)
  unfold soonest
  rw [hevent]
  rfl

variable (hi : .zero ≤ c.info.inputDelay) (h0 : .zero ≤ c.timeGranted)
  (hn : c.timeGranted ≤ c.getNextPossibleTime) (h : c.RequestFits t (min v m))
include hi h0 hn h

theorem RequestFits.due : c.getNextPossibleTime ≤ c.dueTime t (min v m) := by
  obtain ⟨hsum, -, -⟩ := h.2 hu
  refine le_min (le_max_right _ _) ?_
  split
  · rename_i hlt
    have hle : c.getNextPossibleTime ≤ c.eventFrom (min v m) := le_max_right _ _
    simp only [Time.le_def, Time.ns_zero] at hi h0 hn hle ⊢
    rw [Time.ns_add_of_fits (by omega) (hsum hlt).1]
    omega
  · exact le_max_right _ _

variable (hb : c.timeGrantBase = c.timeGranted) (ho : .zero ≤ c.info.outputDelay)
include hb

/-- The bound by the next event never lowers the time from which on the federate may act. -/
theorem RequestFits.act : min (c.announcing t v m).eventBound (c.announcing t v m).timeExec =
    c.actTime t (min v m) := by
  obtain ⟨hsum, -, -⟩ := h.2 hu
  have hnext : (c.announcing t v m).getNextPossibleTime = c.getNextPossibleTime := rfl
  have hle : c.getNextPossibleTime ≤ c.eventFrom (min v m) := le_max_right _ _
  have hreq : c.getNextPossibleTime ≤ c.requestedTime t := le_max_right _ _
  unfold eventBound actTime
  rw [announcing_minminDe hu, announcing_exec hu, hnext]
  by_cases hlt : c.eventFrom (min v m) < .maxVal
  · obtain ⟨hfits, hallowed⟩ := hsum hlt
    have hadd : (c.eventFrom (min v m) + c.info.inputDelay).ns =
        (c.eventFrom (min v m)).ns + c.info.inputDelay.ns := by
      simp only [Time.le_def, Time.ns_zero] at hi h0 hn hle
      exact Time.ns_add_of_fits (by omega) hfits
    have hafter : c.eventFrom (min v m) ≤ c.eventFrom (min v m) + c.info.inputDelay := by
      simp only [Time.le_def, Time.ns_zero] at hi ⊢
      omega
    rw [if_pos hlt]
    refine min_eq_right ((min_le_left _ _).trans ?_)
    split
    · have hround := hallowed.le (hb ▸ h0) (hb ▸ (hn.trans hle).trans hafter)
      exact hafter.trans hround
    · rename_i hnot
      exact hafter.trans (not_lt.mp fun hlater => hnot ⟨hlt, hlater⟩)
  · rw [if_neg hlt, if_neg fun hboth => hlt hboth.1]
    exact min_eq_left (le_min hle hreq)

include ho

theorem RequestFits.announced : (c.announcing t v m).nextPossibleEventTime.ns =
    (c.actTime t (min v m)).ns + c.info.outputDelay.ns := by
  have hact := h.act hu hi h0 hn hb
  have hplain := nextPossibleEventTime_plain (c := c.announcing t v m) rfl
  have hlow := c.next_le_actTime t (min v m)
  rw [show (c.announcing t v m).info = c.info from rfl, hu, if_neg Bool.false_ne_true,
    hact] at hplain
  rw [hplain]
  simp only [Time.le_def, Time.ns_zero] at ho hlow h0 hn
  exact Time.ns_add_of_fits (by omega) (h.2 hu).2.2

/-- A request whose output delay ends in time is granted a time not before the announced one. -/
theorem RequestFits.announced_le (hend : c.DelayEnds t (min v m)) :
    (c.announcing t v m).nextPossibleEventTime ≤ (c.announcing t v m).nextExecutionTime := by
  have hnext := h.due hu hi h0 hn
  have hends := hend hu
  obtain ⟨-, hallowed, hsum⟩ := h.2 hu
  rw [Time.le_def, h.announced hu hi h0 hn hb ho]
  have hpending := (c.announcing t v m).pendingExecutionTime_eq
  rw [announcing_soonest hu] at hpending
  by_cases hlt : c.timeGranted < c.dueTime t (min v m)
  · have hpending : (c.announcing t v m).pendingExecutionTime = c.dueTime t (min v m) :=
      hpending.trans (if_neg (not_le.mpr hlt))
    have hexec := nextExecutionTime_interruptible (c := c.announcing t v m) hu h0
      (hpending ▸ hlt.le)
    rw [hpending] at hexec
    rw [if_pos hlt] at hends
    rw [show _ = c.generateAllowedTime _ from hexec.trans (if_pos hlt)]
    obtain ⟨-, hmax⟩ | ⟨-, hround⟩ := hallowed.exact (hb ▸ h0) (hb ▸ hlt.le)
    · rw [hmax, Time.ns_maxVal]
      omega
    · exact hround ▸ hends
  · -- without a minimum step and a period the federate may be due at the time it has been granted
    have hle := not_lt.mp hlt
    have hpending : (c.announcing t v m).pendingExecutionTime = c.getNextPossibleTime :=
      hpending.trans (if_pos hle)
    have heq : c.getNextPossibleTime = c.timeGranted := le_antisymm (hnext.trans hle) hn
    have hexec := nextExecutionTime_interruptible (c := c.announcing t v m) hu h0 (hpending ▸ hn)
    rw [hpending] at hexec
    rw [if_neg hlt] at hends
    rw [show _ = c.getNextPossibleTime from hexec.trans (if_neg (not_lt.mpr heq.le))]
    exact hends.trans (heq ▸ hle)

end Announcing

/-- A request announces a time from the granted one to the one that it will be granted. -/
theorem request_in_time (hd : c.dependencies.entries = [])
    (hdelta : .zero ≤ c.info.timeDelta) (hoff : .zero ≤ c.info.offset)
    (hi : .zero ≤ c.info.inputDelay) (ho : .zero ≤ c.info.outputDelay)
    (hb : c.timeGrantBase = c.timeGranted) (h0 : .zero ≤ c.timeGranted)
    (h : c.RequestFits t (min v m)) (hend : c.DelayEnds t (min v m)) :
    c.timeGranted ≤ (c.timeRequest t .noIterations v m).1.timeNext ∧
      (c.timeRequest t .noIterations v m).1.timeNext ≤
        (c.timeRequest t .noIterations v m).1.nextExecutionTime := by
  have hnext : c.timeGranted ≤ c.getNextPossibleTime := by
    have hroom := h.1.granted_add_le hdelta hoff hb h0
    simp only [Time.le_def, Time.ns_zero] at hdelta ⊢
    omega
  have hexec : (c.timeRequest t .noIterations v m).1.nextExecutionTime =
      (c.announcing t v m).nextExecutionTime :=
    (updateTimeFactors_sameRequest _).nextExecutionTime
  rw [timeRequest_next hd, hexec]
  obtain hu | hu := Bool.eq_false_or_eq_true c.info.uninterruptible
  · have hevent : (c.announcing t v m).nextPossibleEventTime = c.requestedTime t := by
      rw [nextPossibleEventTime_plain rfl]
      exact if_pos hu
    have hexec : (c.announcing t v m).nextExecutionTime = c.requestedTime t := if_pos hu
    rw [hevent, hexec]
    exact ⟨hnext.trans (le_max_right _ _), le_rfl⟩
  · refine ⟨?_, h.announced_le hu hi h0 hnext hb ho hend⟩
    have hlow := c.next_le_actTime t (min v m)
    rw [Time.le_def, h.announced hu hi h0 hnext hb ho]
    simp only [Time.le_def, Time.ns_zero] at ho hlow hnext
    omega

end TimeCoordinator

/-- What a federate tells a dependent: a time from which on it may act, or a value with its time. -/
inductive Notice where
  | announced (t : Time)
  | published (t : Time)
deriving DecidableEq

namespace Notice

def time : Notice → Time
  | .announced t | .published t => t

def announcements (l : List Notice) : List Time :=
  l.filterMap fun
    | .announced t => some t
    | .published _ => none

theorem mem_announcements : t ∈ announcements l ↔ .announced t ∈ l := by
  unfold announcements
  rw [List.mem_filterMap]
  constructor
  · rintro ⟨x, hx, ht⟩
    cases x with
    | announced =>
      cases ht
      exact hx
    | published => cases ht
  · exact fun h => ⟨_, h, rfl⟩

/-- The announced times do not decrease, and a value is not before the last one announced. -/
structure NeverRetreats (l : List Notice) : Prop where
  announced : (announcements l).Pairwise (· ≤ ·)
  published : ∀ pre t post, l = pre ++ .published t :: post →
    ∀ a, (announcements pre).getLast? = some a → a ≤ t

def Ordered (l : List Notice) : Prop := l.Pairwise fun x y => ∀ t, x = .announced t → t ≤ y.time

theorem Ordered.append (h : Ordered l) (h' : Ordered l')
    (hle : ∀ t, .announced t ∈ l → ∀ y ∈ l', t ≤ y.time) : Ordered (l ++ l') :=
  List.pairwise_append.mpr ⟨h, h', fun _ hx y hy t ht => hle t (ht ▸ hx) y hy⟩

theorem Ordered.neverRetreats (h : Ordered l) : NeverRetreats l := by
  constructor
  · refine List.Pairwise.filterMap _ (fun x y hxy a ha b hb => ?_) h
    cases x with
    | announced =>
      cases y with
      | announced =>
        cases ha
        cases hb
        exact hxy _ rfl
      | published => cases hb
    | published => cases ha
  · rintro pre t post rfl a ha
    have hmem := mem_announcements.mp (List.mem_of_getLast? ha)
    exact (List.pairwise_append.mp h).2.2 _ hmem _ List.mem_cons_self a rfl

end Notice

def announcementsTo (dependent : GlobalId) (out : List ActionMessage) : List Notice :=
  (out.filter fun msg => decide (msg.destId = dependent) &&
    (decide (msg.messageAction = .cmdTimeRequest) ||
      decide (msg.messageAction = .cmdTimeGrant))).map
    fun msg => .announced msg.actionTime

theorem mem_announcementsTo (h : x ∈ announcementsTo dependent out) : ∃ msg ∈ out,
    (msg.messageAction = .cmdTimeRequest ∨ msg.messageAction = .cmdTimeGrant) ∧
      x = .announced msg.actionTime := by
  obtain ⟨msg, hmsg, rfl⟩ := List.mem_map.mp h
  obtain ⟨hmem, hkind⟩ := List.mem_filter.mp hmsg
  rw [Bool.and_eq_true, Bool.or_eq_true, decide_eq_true_iff, decide_eq_true_iff,
    decide_eq_true_iff] at hkind
  exact ⟨msg, hmem, hkind.2, rfl⟩

theorem ordered_of_all_eq (h : ∀ x ∈ l, x = .announced t) : Notice.Ordered l := by
  refine List.pairwise_of_forall_mem_list fun x hx y hy u hu => ?_
  rw [h y hy]
  rw [h x hx] at hu
  cases hu
  exact le_rfl

structure Announcer where
  requester : Requester
  log : List Notice := []

inductive SendEvent where
  | request (nextTime newValueTime newMessageTime : Time)
  | check
  | publish

namespace Announcer

open Invariants

/-- A federate publishes only between a grant and its next request. -/
def step (dependent : GlobalId) (s : Announcer) : SendEvent → Announcer
  | .request t v m =>
    if s.requester.request = none then
      ⟨s.requester.step (.request t .noIterations v m),
        s.log ++ announcementsTo dependent (s.requester.coord.timeRequest t .noIterations v m).2⟩
    else s
  | .check =>
    if s.requester.request = none then s
    else ⟨s.requester.step .check,
      s.log ++ announcementsTo dependent s.requester.coord.checkTimeGrant.2.2⟩
  | .publish =>
    if s.requester.request = none then
      { s with log := s.log ++ [.published s.requester.coord.allowedSendTime] }
    else s

/-- No sum of the step overflows, the periods are counted exactly, and the output delay of a request
ends in time. -/
def InTime (s : Announcer) : SendEvent → Prop
  | .request t v m => s.requester.request = none →
      s.requester.coord.RequestFits t (min v m) ∧ s.requester.coord.DelayEnds t (min v m)
  | .check => True
  | .publish => s.requester.request = none →
      s.requester.coord.timeGranted.ns + s.requester.coord.info.outputDelay.ns < 9223372036854775808

def StepInTime (dependent : GlobalId) (s : Announcer) (e : SendEvent) (s' : Announcer) : Prop :=
  s.InTime e ∧ s' = s.step dependent e

/-- Everything announced is at most the granted time, or the time to be granted while a request is
being answered. -/
structure Bounded (o : TcOptions) (s : Announcer) : Prop
    extends Requester.Consistent s.requester where
  info : s.requester.coord.info = o
  alone : s.requester.coord.dependencies.entries = []
  granted : .zero ≤ s.requester.coord.timeGranted
  ordered : Notice.Ordered s.log
  idle : s.requester.request = none → ∀ t, .announced t ∈ s.log → t ≤ s.requester.coord.timeGranted
  waiting : s.requester.request ≠ none →
    s.requester.coord.timeGranted ≤ s.requester.coord.nextExecutionTime ∧
      ∀ t, .announced t ∈ s.log → t ≤ s.requester.coord.nextExecutionTime

theorem bounded_entered (hd : c.dependencies.entries = []) :
    Bounded c.info ⟨.entered c, []⟩ :=
  { Requester.consistent_entered c with
    info := rfl
    alone := hd
    granted := le_rfl
    ordered := List.Pairwise.nil
    idle := fun _ _ h => absurd h List.not_mem_nil
    waiting := fun h => absurd rfl h }

section Steps
variable {s : Announcer} (h : Bounded o s)
include h

theorem Bounded.request (hdelta : .zero ≤ o.timeDelta) (hoff : .zero ≤ o.offset)
    (hdelay : .zero ≤ o.inputDelay) (hout : .zero ≤ o.outputDelay) (dependent : GlobalId)
    (t v m : Time) (hin : s.InTime (.request t v m)) :
    Bounded o (s.step dependent (.request t v m)) := by
  have hc := h.toConsistent.step (.request t .noIterations v m) fun hcfg => absurd hcfg id
  unfold step
  dsimp only
  split
  · rename_i hr
    obtain ⟨hfits, hend⟩ := hin hr
    obtain rfl := h.info
    have hstep : s.requester.step (.request t .noIterations v m) =
        ⟨(s.requester.coord.timeRequest t .noIterations v m).1, some .noIterations⟩ := if_pos hr
    have hnew : ∀ x ∈ announcementsTo dependent
        (s.requester.coord.timeRequest t .noIterations v m).2,
        x = .announced (s.requester.coord.timeRequest t .noIterations v m).1.timeNext := by
      intro x hx
      obtain ⟨msg, hmsg, -, rfl⟩ := mem_announcementsTo hx
      unfold timeRequest at hmsg
      dsimp only at hmsg
      split at hmsg
      · exact absurd hmsg List.not_mem_nil
      · obtain ⟨dest, -, rfl⟩ := List.mem_map.mp hmsg
        rfl
    obtain ⟨hge, hle⟩ := request_in_time h.alone hdelta hoff hdelay hout h.base h.granted hfits hend
    have hlog : ∀ a, .announced a ∈ s.log →
        a ≤ (s.requester.coord.timeRequest t .noIterations v m).1.timeNext := fun a ha =>
      (h.idle hr a ha).trans hge
    rw [hstep] at hc ⊢
    refine { hc with info := ?_, alone := ?_, granted := ?_, ordered := ?_, idle := ?_,
                     waiting := ?_ }
    · exact s.requester.coord.timeRequest_info t .noIterations v m
    · exact timeRequest_stays_alone h.alone t .noIterations v m
    · dsimp only
      rw [s.requester.coord.timeRequest_granted]
      exact h.granted
    · refine h.ordered.append (ordered_of_all_eq hnew) fun a ha y hy => ?_
      rw [hnew y hy]
      exact hlog a ha
    · exact nofun
    · intro _
      refine ⟨?_, fun a ha => ?_⟩
      · dsimp only
        rw [s.requester.coord.timeRequest_granted]
        exact hge.trans hle
      · obtain ha | ha := List.mem_append.mp ha
        · exact (hlog a ha).trans hle
        · cases hnew _ ha
          exact hle
  · exact h

theorem Bounded.check (dependent : GlobalId) : Bounded o (s.step dependent .check) := by
  have hc := h.toConsistent.step .check fun hcfg => absurd hcfg id
  unfold step
  dsimp only
  split
  · exact h
  rename_i hr
  obtain ⟨hgrant, hlog⟩ := h.waiting hr
  have hstep : s.requester.step .check = s.requester.checkGrant := if_neg hr
  have hmsgs := checkTimeGrant_alone h.alone
  have hnew : ∀ x ∈ announcementsTo dependent s.requester.coord.checkTimeGrant.2.2,
      x = .announced s.requester.coord.nextExecutionTime ∧
        returnableResult s.requester.coord.checkTimeGrant.1 = true := by
    intro x hx
    obtain ⟨msg, hmsg, hkind, rfl⟩ := mem_announcementsTo hx
    obtain hdis | ⟨-, htime, hret, -⟩ := hmsgs msg hmsg
    · rw [hdis] at hkind
      obtain hkind | hkind := hkind <;> cases hkind
    · exact ⟨congrArg Notice.announced htime, hret⟩
  have hall : ∀ a, .announced a ∈ s.log ++
      announcementsTo dependent s.requester.coord.checkTimeGrant.2.2 →
      a ≤ s.requester.coord.nextExecutionTime := by
    intro a ha
    obtain ha | ha := List.mem_append.mp ha
    · exact hlog a ha
    · cases (hnew _ ha).1
      exact le_rfl
  have hordered : Notice.Ordered (s.log ++
      announcementsTo dependent s.requester.coord.checkTimeGrant.2.2) := by
    refine h.ordered.append (ordered_of_all_eq fun x hx => (hnew x hx).1) fun a ha y hy => ?_
    rw [(hnew y hy).1]
    exact hlog a ha
  have halone := checkTimeGrant_stays_alone h.alone
  have hout := s.requester.coord.checkTimeGrant_outcome
  rw [hstep] at hc ⊢
  unfold Requester.checkGrant at hc ⊢
  generalize s.requester.coord.checkTimeGrant = x at hout hc halone hordered hall ⊢
  cases hout with
  | halts hexec _ hg _ hi =>
    refine { hc with info := hi.trans h.info, alone := halone, granted := ?_, ordered := hordered,
                     idle := fun _ a ha => ?_, waiting := fun hne => absurd rfl hne }
    · exact hg ▸ Time.le_maxVal _
    · exact hg ▸ Time.le_maxVal _
  | grants hret _ hg _ hi =>
    refine { hc with info := hi.trans h.info, alone := halone, granted := ?_, ordered := hordered,
                     idle := fun _ a ha => hg ▸ hall a ha,
                     waiting := fun hne => absurd (if_pos hret) hne }
    exact hg ▸ h.granted.trans hgrant
  | waits hs =>
    refine { hc with info := hs.info.trans h.info, alone := halone,
                     granted := hs.granted ▸ h.granted, ordered := hordered,
                     idle := fun hnone => absurd hnone hr, waiting := fun _ => ?_ }
    rw [hs.granted, hs.nextExecutionTime]
    exact ⟨hgrant, hall⟩

theorem Bounded.publish (hout : .zero ≤ o.outputDelay) (dependent : GlobalId)
    (hin : s.InTime .publish) : Bounded o (s.step dependent .publish) := by
  unfold step
  dsimp only
  split
  · rename_i hr
    have hsum := hin hr
    have hle : s.requester.coord.timeGranted ≤ s.requester.coord.allowedSendTime := by
      rw [h.info] at hsum
      have h0 := h.granted
      unfold allowedSendTime
      rw [h.info]
      simp only [Time.le_def, Time.ns_zero] at hout h0 ⊢
      rw [Time.ns_add_of_fits (by omega) hsum]
      omega
    have hold : ∀ a, .announced a ∈ s.log ++ [.published s.requester.coord.allowedSendTime] →
        .announced a ∈ s.log := by
      intro a ha
      obtain ha | ha := List.mem_append.mp ha
      · exact ha
      · cases List.mem_singleton.mp ha
    refine { h with ordered := ?_, idle := fun _ a ha => h.idle hr a (hold a ha),
                    waiting := fun hne => absurd hr hne }
    refine h.ordered.append (List.pairwise_singleton _ _) fun a ha y hy => ?_
    rw [List.mem_singleton.mp hy]
    exact (h.idle hr a ha).trans hle
  · exact h

end Steps

/-- In every run without overflow in which the output delay of every request ends in time, the times
that a federate without dependencies announces do not retreat. -/
theorem announcements_never_retreat (c : TimeCoordinator) (hd : c.dependencies.entries = [])
    (hdelta : .zero ≤ c.info.timeDelta) (hoff : .zero ≤ c.info.offset)
    (hdelay : .zero ≤ c.info.inputDelay) (hout : .zero ≤ c.info.outputDelay) (dependent : GlobalId)
    (hrun : Run (StepInTime dependent) ⟨.entered c, []⟩ es s) : Notice.NeverRetreats s.log := by
  have h : Bounded c.info s := by
    refine hrun.invariant ?_ (bounded_entered hd)
    rintro s e _ h ⟨hin, rfl⟩
    cases e with
    | request t v m => exact h.request hdelta hoff hdelay hout dependent t v m hin
    | check => exact h.check dependent
    | publish => exact h.publish hout dependent hin
  exact h.ordered.neverRetreats

def delayedOutput : TimeCoordinator where
  info := { outputDelay := .wrap 10 }
  dependents := (Dependents.addDependent .empty 7).2

/-- A request for 1 announces 11, and then 1 is granted. -/
theorem announcement_retreats :
    let s := [SendEvent.request (.wrap 1) .maxVal .maxVal, .check].foldl (step 7)
      ⟨.entered delayedOutput, []⟩
    s.log = [.announced (.wrap 11), .announced (.wrap 1)] ∧ ¬ Notice.NeverRetreats s.log := by
  have hlog : ([SendEvent.request (.wrap 1) .maxVal .maxVal, .check].foldl (step 7)
      ⟨.entered delayedOutput, []⟩).log = [.announced (.wrap 11), .announced (.wrap 1)] := by
    decide +kernel
  refine ⟨hlog, fun h => ?_⟩
  have hle := h.announced
  rw [hlog] at hle
  exact absurd hle (by decide)

theorem announcements_in_time_to_twenty :
    Notice.NeverRetreats ([SendEvent.request (.wrap 20) .maxVal .maxVal, .check, .publish].foldl
      (step 7) ⟨.entered delayedOutput, []⟩).log := by
  let s₀ : Announcer := ⟨.entered delayedOutput, []⟩
  have hrequest : s₀.InTime (.request (.wrap 20) .maxVal .maxVal) := fun _ => by
    unfold TimeCoordinator.RequestFits TimeCoordinator.DelayEnds
    decide +kernel
  have hcheck : (s₀.step 7 (.request (.wrap 20) .maxVal .maxVal)).InTime .check := trivial
  have hpublish :
      ((s₀.step 7 (.request (.wrap 20) .maxVal .maxVal)).step 7 .check).InTime .publish :=
    fun _ => by decide +kernel
  exact announcements_never_retreat delayedOutput rfl (by decide) (by decide) (by decide)
    (by decide) 7 (.cons ⟨hrequest, rfl⟩ (.cons ⟨hcheck, rfl⟩ (.cons ⟨hpublish, rfl⟩ (.nil _))))

end Announcer

end Helics
