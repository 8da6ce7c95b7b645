import Helics.PlainStepping
import Helics.TimeRequests

namespace Helics

open Grid TimeCoordinator

namespace TimeCoordinator

section Dependencies
variable {c : TimeCoordinator} (hg : c.updateTimeFactors.2.grantsTime = true)
  (hm : c.nextExecutionTime < .maxVal) (hd : .zero ≤ c.info.inputDelay)

include hg in
theorem exec_le_allowed : c.nextExecutionTime ≤ c.allowedTime := by
  unfold grantsTime at hg
  obtain h | h := (Bool.or_eq_true_iff.mp hg)
  · exact (of_decide_eq_true h).le
  · have heq : c.allowedTime = c.nextExecutionTime :=
      of_decide_eq_true (Bool.and_eq_true_iff.mp h).1
    exact heq.ge

include hg hm hd

theorem exec_le_dependency (hdep : d ∈ c.dependencies.entries) :
    c.nextExecutionTime.ns ≤ c.info.inputDelay.ns + d.Tnext.ns := by
  have hle := exec_le_allowed hg
  have hn := c.timeFactors_covers.next d hdep
  have hlow := c.timeFactors.minNext.lower
  simp only [Time.le_def, Time.lt_def, Time.ns_zero, Time.ns_maxVal] at hle hm hd hn
  by_cases hmin : c.timeFactors.minNext < .maxVal
  · have ha : c.allowedTime.ns ≤ c.info.inputDelay.ns + c.timeFactors.minNext.ns := by
      unfold allowedTime
      rw [if_pos hmin]
      exact Time.ns_wrap_le (by omega)
    omega
  · simp only [Time.lt_def, Time.ns_maxVal] at hmin
    omega

/-- A time that meets the bound of a dependency is only granted early when no dependency at that
time still has something to say. -/
theorem exec_meets_dependency (hdep : d ∈ c.dependencies.entries)
    (heq : c.nextExecutionTime.ns = c.info.inputDelay.ns + d.Tnext.ns)
    (hreq : c.nextExecutionTime < c.timeRequested) :
    ∀ d' ∈ c.dependencies.entries, d'.Tnext = c.nextExecutionTime →
      d'.timeState ≠ .timeGranted := by
  have hle := exec_le_allowed hg
  have hn := c.timeFactors_covers.next d hdep
  have hlow := c.timeFactors.minNext.lower
  have hmin : c.timeFactors.minNext < .maxVal := by
    simp only [Time.le_def, Time.lt_def, Time.ns_zero, Time.ns_maxVal] at hm hd hn ⊢
    omega
  have ha : c.allowedTime.ns ≤ c.info.inputDelay.ns + c.timeFactors.minNext.ns := by
    unfold allowedTime
    rw [if_pos hmin]
    simp only [Time.le_def, Time.ns_zero] at hd
    exact Time.ns_wrap_le (by omega)
  have hready : c.dependencies.checkIfReadyForTimeGrant
      (decide (c.iterating ∧ c.nextExecutionTime ≤ c.timeGranted)) c.nextExecutionTime = true := by
    unfold grantsTime at hg
    obtain h | h := Bool.or_eq_true_iff.mp hg
    · have hlt : c.nextExecutionTime < c.allowedTime := of_decide_eq_true h
      simp only [Time.le_def, Time.lt_def] at hlt hn
      omega
    obtain h' | h' := Bool.or_eq_true_iff.mp (Bool.and_eq_true_iff.mp h).2
    · have hr : c.timeRequested ≤ c.nextExecutionTime :=
        of_decide_eq_true (Bool.and_eq_true_iff.mp h').2
      exact absurd hreq (not_lt.mpr hr)
    · exact h'
  intro d' hd' ht hs
  have h := List.all_eq_true.mp hready d' hd'
  simp [ht, hs] at h

end Dependencies

variable {c : TimeCoordinator}

theorem nextExecutionTime_interruptible (hu : c.info.uninterruptible = false)
    (h0 : .zero ≤ c.timeGranted) (hp : c.timeGranted ≤ c.pendingExecutionTime) :
    c.nextExecutionTime = if c.timeGranted < c.pendingExecutionTime then
      c.generateAllowedTime c.pendingExecutionTime else c.pendingExecutionTime := by
  have hu' := c.pendingExecutionTime.upper
  have hs : (c.pendingExecutionTime - c.timeGranted).ns =
      c.pendingExecutionTime.ns - c.timeGranted.ns := by
    simp only [Time.le_def, Time.ns_zero] at h0 hp
    exact Time.ns_sub_of_fits (by omega) (by omega)
  have hiff : .zero < c.pendingExecutionTime - c.timeGranted ↔
      c.timeGranted < c.pendingExecutionTime := by
    rw [Time.lt_def, Time.lt_def, hs, Time.ns_zero]
    omega
  unfold nextExecutionTime
  rw [hu, if_neg Bool.false_ne_true]
  exact if_congr hiff rfl rfl

def soonest (c : TimeCoordinator) : Time :=
  min c.timeRequested (if min c.timeMessage c.timeValue < .maxVal
    then min c.timeMessage c.timeValue + c.info.inputDelay else min c.timeMessage c.timeValue)

theorem pendingExecutionTime_eq (c : TimeCoordinator) : c.pendingExecutionTime =
    if c.soonest ≤ c.timeGranted then if c.iterating then c.timeGranted else c.getNextPossibleTime
    else c.soonest := rfl

theorem pendingExecutionTime_le (ha : c.Asked) : c.pendingExecutionTime ≤ c.timeRequested := by
  rw [pendingExecutionTime_eq]
  split
  · obtain hi | hi := Bool.eq_false_or_eq_true c.iterating
    · rw [hi, if_pos rfl]
      exact (asked_iterating hi).mp ha
    · rw [hi, if_neg Bool.false_ne_true]
      exact ((asked_plain hi).mp ha).1
  · exact min_le_left _ _

theorem granted_le_pending (hn : c.iterating = false → c.timeGranted ≤ c.getNextPossibleTime) :
    c.timeGranted ≤ c.pendingExecutionTime := by
  rw [pendingExecutionTime_eq]
  split
  · obtain hi | hi := Bool.eq_false_or_eq_true c.iterating
    · rw [hi, if_pos rfl]
    · rw [hi, if_neg Bool.false_ne_true]
      exact hn hi
  · rename_i h
    exact (not_le.mp h).le

theorem exec_le_roundUp (ha : c.Asked) (hb : c.timeGrantBase = c.timeGranted)
    (h0 : .zero ≤ c.timeGranted) (hn : c.timeGranted ≤ c.getNextPossibleTime)
    (hq : c.PeriodsExact c.pendingExecutionTime) :
    c.nextExecutionTime.ns ≤ c.roundUp c.timeRequested := by
  obtain hu | hu := Bool.eq_false_or_eq_true c.info.uninterruptible
  · have he : c.nextExecutionTime = c.timeRequested := by
      unfold nextExecutionTime
      rw [hu, if_pos rfl]
    rw [he]
    exact c.le_roundUp _
  · have hle := pendingExecutionTime_le ha
    have hge := granted_le_pending fun _ => hn
    rw [nextExecutionTime_interruptible hu h0 hge]
    split
    · rw [← hb] at h0 hge
      exact (c.generateAllowedTime_le_roundUp h0 hge hq).trans (c.roundUp_mono hle)
    · exact ((Time.le_def _ _).mp hle).trans (c.le_roundUp _)

end TimeCoordinator

namespace Requester

open Invariants

def OrderlyStep (r : Requester) (e : CoordinatorEvent) (r' : Requester) : Prop :=
  (Configures e → r.request = none) ∧ r' = r.step e

theorem consistent_run (hr : Run OrderlyStep r es r') (h : r.Consistent) : r'.Consistent := by
  refine hr.invariant ?_ h
  rintro s e _ hs ⟨hc, rfl⟩
  exact hs.step e hc

theorem run_of_fixed (es : List CoordinatorEvent) (h : ∀ e ∈ es, ¬ Configures e) (r : Requester) :
    Run OrderlyStep r es (es.foldl step r) := by
  induction es generalizing r with
  | nil => exact .nil r
  | cons e es ih =>
    have he := h e List.mem_cons_self
    exact .cons ⟨fun hc => absurd hc he, rfl⟩ (ih (fun e he => h e (List.mem_cons_of_mem _ he)) _)

/-- Whenever a request is answered with a time below the maximum, every dependency allows that time;
where it meets the bound of one before the requested time, none that stands there is granted; and it
is at most the requested time rounded up, as long as the granted times are at least zero, the next
possible time is after them and the periods are counted exactly. -/
theorem grants_respect_dependencies (c : TimeCoordinator)
    (hr : Run OrderlyStep (entered c) es r) (hg : r.granted = some t) (hm : t < .maxVal)
    (hd : .zero ≤ r.coord.info.inputDelay) :
    (∀ d ∈ r.coord.dependencies.entries, t.ns ≤ r.coord.info.inputDelay.ns + d.Tnext.ns) ∧
    ((∃ d ∈ r.coord.dependencies.entries, t.ns = r.coord.info.inputDelay.ns + d.Tnext.ns) →
      t < r.coord.timeRequested →
      ∀ d ∈ r.coord.dependencies.entries, d.Tnext = t → d.timeState ≠ .timeGranted) ∧
    (.zero ≤ r.coord.timeGranted → r.coord.timeGranted ≤ r.coord.getNextPossibleTime →
      r.coord.PeriodsExact r.coord.pendingExecutionTime →
      t.ns ≤ r.coord.roundUp r.coord.timeRequested) := by
  obtain ⟨hreq, rfl, hgrants⟩ := granted_eq hg
  have hc := consistent_run hr (consistent_entered c)
  refine ⟨fun d hdep => ?_, ?_, fun h0 hn hq => ?_⟩
  · exact exec_le_dependency (hgrants hm) hm hd hdep
  · rintro ⟨d, hdep, heq⟩ hlt
    exact exec_meets_dependency (hgrants hm) hm hd hdep heq hlt
  · exact exec_le_roundUp (hc.asked hreq) hc.base h0 hn hq

/-- A dependency at twenty seconds; the period is five seconds and the next message due at
twelve. -/
def untilTwenty : List CoordinatorEvent :=
  [.dependency { messageAction := .cmdAddDependency, sourceId := 7 },
    .timing { messageAction := .cmdTimeRequest, sourceId := 7, actionTime := .wrap 20000000000 },
    .request (.wrap 18000000000) .noIterations .maxVal (.wrap 12000000000)]

def fiveSeconds : TimeCoordinator where
  info := { period := .wrap 5000000000 }

theorem grants_respect_dependencies_fifteen :
    let r := untilTwenty.foldl step (entered fiveSeconds)
    r.granted = some (.wrap 15000000000) ∧
      (∀ d ∈ r.coord.dependencies.entries, 15000000000 ≤ 0 + d.Tnext.ns) ∧
      (15000000000 : Int) ≤ r.coord.roundUp r.coord.timeRequested := by
  have hrun := run_of_fixed untilTwenty (by decide) (entered fiveSeconds)
  have hall := grants_respect_dependencies (t := .wrap 15000000000) fiveSeconds hrun
    (by decide +kernel) (by decide) (by decide +kernel)
  exact ⟨by decide +kernel, hall.1,
    hall.2.2 (by decide +kernel) (by decide +kernel)
      (periodsExact_seconds (m := 12) (n := 5) (by decide +kernel) (by decide +kernel) (by decide))⟩

/-- The input delay is set below zero and the only dependency has left. -/
def delayedBackwards : List CoordinatorEvent :=
  [.property .inputDelay (.wrap (-10)),
    .dependency { messageAction := .cmdAddDependency, sourceId := 7 },
    .timing { messageAction := .cmdDisconnect, sourceId := 7 },
    .request (.wrap 9223372036854775802) .noIterations .maxVal .maxVal]

/-- The minimum step grows while a request waits whose only event overflows with the input delay. -/
def widenedStep : List CoordinatorEvent :=
  [.property .inputDelay (.wrap 10),
    .request (.wrap 5) .noIterations (.wrap 9223372036854775806) .maxVal,
    .property .timeDelta (.wrap 1000)]

/-- Thirty nanoseconds are three periods of ten, and a little more than that as doubles. -/
def thirdPeriod : List CoordinatorEvent :=
  [.property .period (.wrap 10), .request (.wrap 30) .noIterations .maxVal .maxVal]

theorem grant_after_dependency :
    ((delayedBackwards.foldl step (entered {})).granted = some (.wrap 9223372036854775802) ∧
      ∃ d ∈ (delayedBackwards.foldl step (entered {})).coord.dependencies.entries,
        (delayedBackwards.foldl step (entered {})).coord.info.inputDelay.ns + d.Tnext.ns <
          9223372036854775802) ∧
    ((widenedStep.foldl step (entered {})).granted = some (.wrap 1000) ∧
      (widenedStep.foldl step (entered {})).coord.roundUp
        (widenedStep.foldl step (entered {})).coord.timeRequested = 5) ∧
    ((thirdPeriod.foldl step (entered {})).granted = some (.wrap 40) ∧
      (thirdPeriod.foldl step (entered {})).coord.roundUp
        (thirdPeriod.foldl step (entered {})).coord.timeRequested = 30) := by
  decide +kernel

end Requester

structure TcOptions.Proper (o : TcOptions) : Prop where
  timeDelta : .zero < o.timeDelta
  period : .zero ≤ o.period
  offset : .zero ≤ o.offset
  inputDelay : .zero ≤ o.inputDelay
  outputDelay : .zero ≤ o.outputDelay

namespace TimeCoordinator

/-- Rounding `t` up to the period neither overflows nor counts too many periods, and counts them
exactly. -/
def AllowedFits (c : TimeCoordinator) (t : Time) : Prop :=
  .epsilon < c.info.period → t ≠ .maxVal →
    t.ns - c.timeGrantBase.ns ≤ 2147483647 * c.info.period.ns ∧
      c.roundUp t < 9223372036854775808 ∧ c.PeriodsExact t

instance (c : TimeCoordinator) : DecidablePred c.AllowedFits := fun _ =>
  inferInstanceAs (Decidable (_ → _ → _ ∧ _ ∧ _))

def NextFits (c : TimeCoordinator) : Prop :=
  if c.timeGranted = .zero then
    if c.info.timeDelta < c.info.offset then True
    else if c.info.offset = .zero then c.AllowedFits (max c.info.timeDelta c.info.period)
    else if c.info.period ≤ .epsilon then True
    else alignUp c.info.offset.ns c.info.period.ns c.info.timeDelta.ns < 9223372036854775808
  else
    c.timeGrantBase.ns + (max c.info.timeDelta c.info.period).ns < 9223372036854775808 ∧
      c.AllowedFits (c.timeGrantBase + max c.info.timeDelta c.info.period)

instance : DecidablePred NextFits := fun c => by unfold NextFits; infer_instance

def ExecFits (c : TimeCoordinator) : Prop :=
  c.info.uninterruptible = false →
    (min c.timeMessage c.timeValue < .maxVal →
      (min c.timeMessage c.timeValue).ns + c.info.inputDelay.ns < 9223372036854775808) ∧
    (c.timeGranted < c.pendingExecutionTime → c.AllowedFits c.pendingExecutionTime)

instance : DecidablePred ExecFits := fun c => by unfold ExecFits; infer_instance

variable {c : TimeCoordinator}

theorem AllowedFits.exact (h : c.AllowedFits t) (hb : .zero ≤ c.timeGrantBase)
    (ht : c.timeGrantBase ≤ t) : t = .maxVal ∧ c.generateAllowedTime t = .maxVal ∨
      t ≠ .maxVal ∧ (c.generateAllowedTime t).ns = c.roundUp t := by
  by_cases hm : t = .maxVal
  · subst hm
    exact .inl ⟨rfl, c.generateAllowedTime_maxVal⟩
  refine .inr ⟨hm, ?_⟩
  by_cases hp : .epsilon < c.info.period
  · obtain ⟨hc, hz, hq⟩ := h hp hm
    have hms : c.Measured t := ⟨hq, hp, hb, ht, hm⟩
    rw [hms.counted hc]
    exact Time.ns_wrap ((c.le_roundUp t).trans' t.lower) hz
  · rw [generateAllowedTime_plain hp]
    unfold roundUp
    rw [if_neg hp]

theorem AllowedFits.le (h : c.AllowedFits t) (hb : .zero ≤ c.timeGrantBase)
    (ht : c.timeGrantBase ≤ t) : t ≤ c.generateAllowedTime t := by
  obtain ⟨hm, he⟩ | ⟨_, he⟩ := h.exact hb ht
  · rw [he, hm]
  · rw [Time.le_def, he]
    exact c.le_roundUp t

/-- The loop over the periods ends at the first point from the offset that reaches the bound. -/
theorem stepPeriods_exact (hp : 0 < period.ns)
    (hz : alignUp o period.ns stop.ns < 9223372036854775808) (fuel : Nat) (t : Time) (k : Int)
    (hk : 1 ≤ k) (ht : t.ns = o + k * period.ns) (hle : t.ns ≤ alignUp o period.ns stop.ns)
    (hf : stop.ns - t.ns ≤ fuel) :
    (stepPeriods period stop fuel t).ns = alignUp o period.ns stop.ns := by
  have hend : stop.ns ≤ t.ns → t.ns = alignUp o period.ns stop.ns := by
    intro h
    have hmin := alignUp_le hp hk (ht ▸ h)
    omega
  induction fuel generalizing t k with
  | zero => exact hend (by omega)
  | succ fuel ih =>
    unfold stepPeriods
    split
    · rename_i hlt
      rw [Time.lt_def] at hlt
      have hstep := add_step_le_alignUp (k := k) hp (ht ▸ hlt)
      have hlow := t.lower
      have hadd : (t + period).ns = t.ns + period.ns :=
        Time.ns_add_of_fits (by omega) (by omega)
      have ht' : (t + period).ns = o + (k + 1) * period.ns := by
        rw [hadd, ht, Int.add_mul, Int.one_mul]
        omega
      apply ih (t + period) (k + 1) (by omega) ht' (by omega) (by omega)
      intro h
      have hmin := alignUp_le hp (show 1 ≤ k + 1 by omega) (ht' ▸ h)
      omega
    · rename_i hlt
      exact hend (not_lt.mp hlt)

theorem NextFits.loop
    (hz : alignUp c.info.offset.ns c.info.period.ns c.info.timeDelta.ns < 9223372036854775808)
    (ho : .zero ≤ c.info.offset) (hp : .epsilon < c.info.period) :
    (stepPeriods c.info.period c.info.timeDelta
      (c.info.timeDelta.ns - (c.info.offset + c.info.period).ns).toNat
      (c.info.offset + c.info.period)).ns =
        alignUp c.info.offset.ns c.info.period.ns c.info.timeDelta.ns := by
  have hpos := period_pos hp
  have hstep := step_le_alignUp hpos c.info.offset.ns c.info.timeDelta.ns
  rw [Time.le_def, Time.ns_zero] at ho
  have hadd : (c.info.offset + c.info.period).ns = c.info.offset.ns + c.info.period.ns :=
    Time.ns_add_of_fits (by omega) (by omega)
  apply stepPeriods_exact hpos hz _ _ 1 le_rfl
  · rw [hadd, Int.one_mul]
  · omega
  · omega

theorem NextFits.granted_add_le (h : c.NextFits)
    (hd : .zero ≤ c.info.timeDelta) (ho : .zero ≤ c.info.offset)
    (hb : c.timeGrantBase = c.timeGranted) (h0 : .zero ≤ c.timeGranted) :
    c.timeGranted.ns + c.info.timeDelta.ns ≤ c.getNextPossibleTime.ns := by
  have hmax := le_max_left c.info.timeDelta c.info.period
  unfold NextFits at h
  unfold getNextPossibleTime
  by_cases hz : c.timeGranted = .zero
  · rw [if_pos hz] at h ⊢
    rw [hz] at hb
    rw [hz, Time.ns_zero, Int.zero_add]
    by_cases h₁ : c.info.timeDelta < c.info.offset
    · rw [if_pos h₁]
      exact h₁.le
    rw [if_neg h₁] at h ⊢
    by_cases h₂ : c.info.offset = .zero
    · rw [if_pos h₂] at h ⊢
      have hle := h.le hb.ge (hb.le.trans (hd.trans hmax))
      exact hmax.trans hle
    rw [if_neg h₂] at h ⊢
    by_cases h₃ : c.info.period ≤ .epsilon
    · rw [if_pos h₃]
    · rw [if_neg h₃] at h ⊢
      rw [NextFits.loop h ho (not_le.mp h₃)]
      exact le_alignUp (period_pos (not_le.mp h₃)) _ _
  · rw [if_neg hz] at h ⊢
    obtain ⟨hs, hf⟩ := h
    simp only [Time.le_def, Time.ns_zero] at h0 hd hmax
    rw [← hb] at h0 ⊢
    have hadd : (c.timeGrantBase + max c.info.timeDelta c.info.period).ns =
        c.timeGrantBase.ns + (max c.info.timeDelta c.info.period).ns :=
      Time.ns_add_of_fits (by omega) hs
    have hle := hf.le h0 (by rw [Time.le_def, hadd]; omega)
    rw [Time.le_def, hadd] at hle
    omega

theorem ExecFits.next_le (h : c.ExecFits) (ha : c.Asked)
    (hi : c.iterating = false) (hb : c.timeGrantBase = c.timeGranted) (h0 : .zero ≤ c.timeGranted)
    (hd : .zero ≤ c.info.inputDelay) (hn : c.timeGranted < c.getNextPossibleTime) :
    c.getNextPossibleTime ≤ c.nextExecutionTime := by
  obtain ⟨hr, hv, hm⟩ := (asked_plain hi).mp ha
  obtain hu | hu := Bool.eq_false_or_eq_true c.info.uninterruptible
  · unfold nextExecutionTime
    rw [hu, if_pos rfl]
    exact hr
  obtain ⟨hevent, hfits⟩ := h hu
  have hmin := le_min hm hv
  have hs : c.getNextPossibleTime ≤ c.soonest := by
    apply le_min hr
    split
    · rename_i hlt
      have hsum := hevent hlt
      simp only [Time.le_def, Time.lt_def, Time.ns_zero] at hd hmin h0 hn ⊢
      rw [Time.ns_add_of_fits (by omega) hsum]
      omega
    · exact hmin
  have hp : c.pendingExecutionTime = c.soonest := by
    rw [pendingExecutionTime_eq, if_neg (not_le.mpr (hn.trans_le hs))]
  have hlt : c.timeGranted < c.pendingExecutionTime := hp ▸ hn.trans_le hs
  rw [nextExecutionTime_interruptible hu h0 hlt.le, if_pos hlt]
  refine le_trans (hp ▸ hs) ((hfits hlt).le ?_ ?_)
  · exact hb ▸ h0
  · exact hb ▸ hlt.le

theorem ExecFits.granted_le (h : c.ExecFits) (ha : c.Asked)
    (hi : c.iterating = true) (hb : c.timeGrantBase = c.timeGranted) (h0 : .zero ≤ c.timeGranted) :
    c.timeGranted ≤ c.nextExecutionTime := by
  obtain hu | hu := Bool.eq_false_or_eq_true c.info.uninterruptible
  · unfold nextExecutionTime
    rw [hu, if_pos rfl]
    exact (asked_iterating hi).mp ha
  have hp : c.timeGranted ≤ c.pendingExecutionTime :=
    granted_le_pending fun hf => absurd (hi.symm.trans hf) Bool.noConfusion
  rw [nextExecutionTime_interruptible hu h0 hp]
  split
  · rename_i hlt
    refine hp.trans (((h hu).2 hlt).le ?_ ?_)
    · exact hb ▸ h0
    · exact hb ▸ hp
  · exact hp

end TimeCoordinator

namespace Requester

open Invariants

def Fits (r : Requester) : CoordinatorEvent → Prop
  | .request _ .noIterations _ _ => r.request = none → r.coord.NextFits
  | .check => r.request ≠ none → r.coord.ExecFits
  | _ => True

def FittingStep (r : Requester) (e : CoordinatorEvent) (r' : Requester) : Prop :=
  ¬ Configures e ∧ r.Fits e ∧ r' = r.step e

structure Advancing (o : TcOptions) (r : Requester) : Prop extends Consistent r where
  info : r.coord.info = o
  granted : .zero ≤ r.coord.timeGranted
  room : r.request = some .noIterations →
    r.coord.timeGranted.ns + o.timeDelta.ns ≤ r.coord.getNextPossibleTime.ns

theorem advancing_entered (c : TimeCoordinator) : Advancing c.info (entered c) :=
  { consistent_entered c with info := rfl, granted := le_rfl, room := nofun }

variable {r : Requester}

theorem Advancing.sameGrant (h : Advancing o r)
    (hc : Consistent { r with coord := c }) (hs : r.coord.SameGrant c) :
    Advancing o { r with coord := c } :=
  { hc with
    info := hs.info.trans h.info
    granted := hs.granted ▸ h.granted
    room := fun hr => by
      rw [hs.granted, hs.getNextPossibleTime]
      exact h.room hr }

theorem advancing_of_none (hc : r.Consistent) (hi : r.coord.info = o)
    (hg : .zero ≤ r.coord.timeGranted) (hr : r.request = none) : Advancing o r :=
  { hc with info := hi, granted := hg, room := fun h => by rw [hr] at h; cases h }

theorem Advancing.lt_next (h : Advancing o r) (ho : o.Proper)
    (hr : r.request = some .noIterations) : r.coord.timeGranted < r.coord.getNextPossibleTime := by
  have hroom := h.room hr
  have hd := ho.timeDelta
  simp only [Time.lt_def, Time.ns_zero] at hd ⊢
  omega

theorem Advancing.exec (h : Advancing o r) (ho : o.Proper) (hr : r.request = some i)
    (hf : r.coord.ExecFits) : r.coord.timeGranted ≤ r.coord.nextExecutionTime ∧ (i = .noIterations →
      r.coord.timeGranted.ns + o.timeDelta.ns ≤ r.coord.nextExecutionTime.ns) := by
  have ha := h.asked (by rw [hr]; exact Option.some_ne_none i)
  have hmode := h.mode i hr
  by_cases hi : i = .noIterations
  · subst hi
    have hlt := h.lt_next ho hr
    have hdelay : .zero ≤ r.coord.info.inputDelay := by
      rw [h.info]
      exact ho.inputDelay
    have hle := hf.next_le ha hmode h.base h.granted hdelay hlt
    exact ⟨hlt.le.trans hle, fun _ => (h.room hr).trans hle⟩
  · have hit : r.coord.iterating = true := hmode.trans (decide_eq_true hi)
    exact ⟨hf.granted_le ha hit h.base h.granted, fun hn => absurd hn hi⟩

theorem Advancing.checkGrant (h : Advancing o r) (ho : o.Proper)
    (hr : r.request = some i) (hf : r.coord.ExecFits) : Advancing o r.checkGrant := by
  have hc := h.toConsistent.checkGrant
  have hle := (h.exec ho hr hf).1
  have hout := r.coord.checkTimeGrant_outcome
  unfold Requester.checkGrant at hc ⊢
  generalize r.coord.checkTimeGrant = x at hout hc ⊢
  cases hout with
  | halts _ _ hg _ hi =>
    exact advancing_of_none hc (hi.trans h.info) (hg ▸ Time.le_maxVal _) rfl
  | grants hret _ hg _ hi =>
    exact advancing_of_none hc (hi.trans h.info) (hg ▸ h.granted.trans hle) (if_pos hret)
  | waits hs => exact h.sameGrant hc hs.sameGrant

theorem Advancing.processTiming (h : Advancing o r) (cmd : ActionMessage) :
    Advancing o (r.processTiming cmd) := by
  have hc := h.toConsistent.processTiming cmd
  obtain ⟨hs, hr⟩ | ⟨c, hs, he⟩ | ⟨_, hlt, he⟩ := r.processTiming_cases cmd
  · exact advancing_of_none hc (hs.info ▸ h.info) (hs.granted ▸ h.granted) hr
  · rw [he] at hc ⊢
    exact h.sameGrant hc hs.sameGrant
  · rw [he] at hc ⊢
    exact advancing_of_none hc h.info (h.granted.trans hlt.le) rfl

theorem Advancing.step (h : Advancing o r) (ho : o.Proper)
    (hs : FittingStep r e r') : Advancing o r' := by
  obtain ⟨hfix, hfit, rfl⟩ := hs
  have hc := h.toConsistent.step e fun hcfg => absurd hcfg hfix
  cases e with
  | request t iterate v m =>
    by_cases hr : r.request = none
    · have heq : r.step (.request t iterate v m) =
          ⟨(r.coord.timeRequest t iterate v m).1, some iterate⟩ := if_pos hr
      rw [heq] at hc ⊢
      refine { hc with info := ?_, granted := ?_, room := ?_ }
      · exact (r.coord.timeRequest_info t iterate v m).trans h.info
      · dsimp only
        rw [r.coord.timeRequest_granted]
        exact h.granted
      · rintro hi
        cases hi
        rw [r.coord.timeRequest_granted, r.coord.timeRequest_getNextPossibleTime, ← h.info]
        exact (hfit hr).granted_add_le (h.info ▸ ho.timeDelta.le) (h.info ▸ ho.offset)
          h.base h.granted
    · have heq : r.step (.request t iterate v m) = r := if_neg hr
      rw [heq]
      exact h
  | value t => exact h.sameGrant hc (r.coord.updateValueTime_sameGrant t)
  | message t => exact h.sameGrant hc (r.coord.updateMessageTime_sameGrant t)
  | timing cmd => exact h.processTiming cmd
  | dependency cmd =>
    exact h.sameGrant hc (r.coord.processDependencyUpdateMessage_sameRequest cmd).sameGrant
  | property => exact absurd trivial hfix
  | optionFlag => exact absurd trivial hfix
  | check =>
    show Advancing o (if r.request = none then r else r.checkGrant)
    split
    · exact h
    · rename_i hne
      obtain ⟨i, hr⟩ := Option.ne_none_iff_exists'.mp hne
      exact h.checkGrant ho hr (hfit hne)

/-- In a run with fixed proper options and without overflow, every grant that answers a plain
request is at least a minimum step after the time granted before, and every grant that answers an
iterating one is not before that time. -/
theorem granted_time_advances (c : TimeCoordinator) (ho : c.info.Proper)
    (hrun : Run FittingStep (entered c) es r) (hfit : r.Fits .check) (hg : r.granted = some t) :
    (r.request = some .noIterations → r.coord.timeGranted.ns + c.info.timeDelta.ns ≤ t.ns) ∧
    ((r.request = some .forceIteration ∨ r.request = some .iterateIfNeeded) →
      r.coord.timeGranted ≤ t) := by
  have h : Advancing c.info r :=
    hrun.invariant (fun _ _ _ h hs => h.step ho hs) (advancing_entered c)
  obtain ⟨hreq, rfl, _⟩ := granted_eq hg
  have hf := hfit hreq
  refine ⟨fun hr => (h.exec ho hr hf).2 rfl, ?_⟩
  rintro (hr | hr)
  · exact (h.exec ho hr hf).1
  · exact (h.exec ho hr hf).1

def fiveByTwo : TimeCoordinator where
  info := { period := .wrap 5000000000, timeDelta := .wrap 2000000000 }

theorem granted_time_advances_seven :
    ((entered fiveByTwo).step (.request (.wrap 7000000000) .noIterations .maxVal .maxVal)).granted =
        some (.wrap 10000000000) ∧ (0 : Int) + 2000000000 ≤ 10000000000 := by
  have hstep : FittingStep (entered fiveByTwo)
    (.request (.wrap 7000000000) .noIterations .maxVal .maxVal)
      ((entered fiveByTwo).step (.request (.wrap 7000000000) .noIterations .maxVal .maxVal)) :=
    ⟨id, fun _ => by decide +kernel, rfl⟩
  have hg : ((entered fiveByTwo).step
    (.request (.wrap 7000000000) .noIterations .maxVal .maxVal)).granted =
      some (.wrap 10000000000) := by
    decide +kernel
  exact ⟨hg, (granted_time_advances fiveByTwo
    ⟨by decide, by decide, by decide, by decide, by decide⟩ (.cons hstep (.nil _))
    (fun _ => by decide +kernel) hg).1 rfl⟩

/-- A minimum step of one nanosecond more than `2^24` seconds is lost in the quotient by the
period. -/
def longStep : TimeCoordinator where
  info := { period := .wrap 1000000000, timeDelta := .wrap 16777216000000001 }

theorem step_below_minimum :
    let r := (entered longStep).step (.request .zero .noIterations .maxVal .maxVal)
    longStep.info.Proper ∧ r.request = some .noIterations ∧
      r.granted = some (.wrap 16777216000000000) ∧
      16777216000000000 < r.coord.timeGranted.ns + longStep.info.timeDelta.ns := by
  refine ⟨⟨by decide, by decide, by decide, by decide, by decide⟩, ?_⟩
  decide +kernel

end Requester

end Helics
