import Helics.Grid
import Helics.TimeCoordinator
import Helics.Invariants

namespace Helics

open Grid Binary64

theorem toInt32_of_fits (h₁ : -2147483648 ≤ z) (h₂ : z < 2147483648) : toInt32 z = z :=
  if_pos ⟨h₁, h₂⟩

theorem toInt32_of_large (h : 2147483648 ≤ z) : toInt32 z = -2147483648 :=
  if_neg (by omega)

namespace Time

theorem add_wrap (t : Time) (y : Int) : t + wrap y = wrap (t.ns + y) :=
  Time.ext Int.add_bmod_bmod

theorem ns_wrap_le (h : -9223372036854775808 ≤ z) : (wrap z).ns ≤ z := by
  by_cases hz : z < 9223372036854775808
  · exact (ns_wrap h hz).le
  · have hu := (wrap z).upper
    omega

theorem ns_sub_of_fits (h₁ : -9223372036854775808 ≤ a.ns - b.ns)
    (h₂ : a.ns - b.ns < 9223372036854775808) : (a - b : Time).ns = a.ns - b.ns :=
  ns_wrap h₁ h₂

theorem toDouble_seconds {t : Time} {n : Nat} (h : t.ns = n * 1000000000) : t.toDouble = n := by
  have hu := t.upper
  have hn : n < 2 ^ 53 := by omega
  have hzero : rounded 0 = 0 := by simpa using rounded_natCast (n := 0) (by norm_num)
  unfold toDouble
  rw [h, Int.mul_tdiv_cancel _ (by decide), Int.mul_tmod_left, Int.cast_natCast, Int.cast_zero,
    hzero, zero_mul, hzero, rounded_natCast hn, Rat.add_zero, rounded_natCast hn]

/-- Whole seconds are divided exactly. -/
theorem ceilRatio_seconds {a b : Time} {m n : Nat} (ha : a.ns = m * 1000000000)
    (hb : b.ns = n * 1000000000) (hm : 0 < m) (hn : 0 < n) :
    a.ceilRatio b = ceilDiv a.ns b.ns := by
  have hu := a.upper
  unfold ceilRatio ceilDiv
  rw [toDouble_seconds ha, toDouble_seconds hb, ceil_rounded_div hm (by omega) hn, ha, hb,
    ← Int.neg_mul, Int.mul_ediv_mul_of_pos_left _ _ (by decide), ← Int.cast_natCast m,
    Rat.ceil_intCast_div_natCast]

end Time

namespace TimeCoordinator

/-- The first time at or after `t` that the period allows, as an exact number. -/
def roundUp (c : TimeCoordinator) (t : Time) : Int :=
  if .epsilon < c.info.period then alignUp c.timeGrantBase.ns c.info.period.ns t.ns else t.ns

variable {c : TimeCoordinator}

theorem period_pos (hp : .epsilon < c.info.period) : 0 < c.info.period.ns := by
  simp only [Time.lt_def, Time.ns_epsilon] at hp
  omega

theorem roundUp_period (hp : .epsilon < c.info.period) (t : Time) :
    c.roundUp t = alignUp c.timeGrantBase.ns c.info.period.ns t.ns :=
  if_pos hp

theorem le_roundUp (c : TimeCoordinator) (t : Time) : t.ns ≤ c.roundUp t := by
  unfold roundUp
  split
  · rename_i hp
    exact le_alignUp (period_pos hp) _ _
  · exact le_rfl

theorem roundUp_mono (c : TimeCoordinator) (h : t ≤ u) : c.roundUp t ≤ c.roundUp u := by
  unfold roundUp
  split
  · rename_i hp
    exact alignUp_mono (period_pos hp) _ h
  · exact h

theorem generateAllowedTime_plain (hp : ¬ .epsilon < c.info.period)
    (t : Time) : c.generateAllowedTime t = t :=
  if_neg hp

theorem generateAllowedTime_maxVal (c : TimeCoordinator) :
    c.generateAllowedTime .maxVal = .maxVal := by
  unfold generateAllowedTime
  rw [if_pos rfl, ite_self]

theorem generateAllowedTime_near (hp : .epsilon < c.info.period)
    (hm : t ≠ .maxVal) (h : t - c.timeGrantBase ≤ c.info.period) :
    c.generateAllowedTime t = .wrap (c.timeGrantBase.ns + c.info.period.ns) := by
  unfold generateAllowedTime
  rw [if_pos hp, if_neg hm, if_neg (not_lt.mpr h)]
  rfl

theorem generateAllowedTime_far (hp : .epsilon < c.info.period)
    (hm : t ≠ .maxVal) (h : c.info.period < t - c.timeGrantBase) :
    c.generateAllowedTime t = .wrap (c.timeGrantBase.ns +
      toInt32 ((t - c.timeGrantBase).ceilRatio c.info.period) * c.info.period.ns) := by
  unfold generateAllowedTime
  rw [if_pos hp, if_neg hm, if_pos h, Time.add_wrap]

/-- The number of periods that reach `t`, a quotient of doubles, is the exact one. -/
def PeriodsExact (c : TimeCoordinator) (t : Time) : Prop :=
  c.info.period < t - c.timeGrantBase → (t - c.timeGrantBase).ceilRatio c.info.period =
    ceilDiv (t - c.timeGrantBase).ns c.info.period.ns

instance (c : TimeCoordinator) : DecidablePred c.PeriodsExact := fun _ =>
  inferInstanceAs (Decidable (_ → _))

theorem periodsExact_seconds {m n : Nat} (ht : (t - c.timeGrantBase).ns = m * 1000000000)
    (hp : c.info.period.ns = n * 1000000000) (hn : 0 < n) : c.PeriodsExact t := by
  intro h
  rw [Time.lt_def] at h
  exact Time.ceilRatio_seconds ht hp (by omega) hn

/-- The numbers met on the way from the base to an allowed time. -/
structure Measured (c : TimeCoordinator) (t : Time) : Prop where
  periods : c.PeriodsExact t
  period : .epsilon < c.info.period
  base : .zero ≤ c.timeGrantBase
  after : c.timeGrantBase ≤ t
  below : t ≠ .maxVal

section
variable {c : TimeCoordinator} {t : Time} (h : c.Measured t)
include h

theorem Measured.ns_sub : (t - c.timeGrantBase).ns = t.ns - c.timeGrantBase.ns := by
  have hb := h.base
  have ha := h.after
  have hu := t.upper
  simp only [Time.le_def, Time.ns_zero] at hb ha
  exact Time.ns_sub_of_fits (by omega) (by omega)

theorem Measured.counted (hc : t.ns - c.timeGrantBase.ns ≤ 2147483647 * c.info.period.ns) :
    c.generateAllowedTime t = .wrap (c.roundUp t) := by
  have hp := period_pos h.period
  rw [roundUp_period h.period]
  by_cases hn : t - c.timeGrantBase ≤ c.info.period
  · rw [generateAllowedTime_near h.period h.below hn]
    simp only [Time.le_def, h.ns_sub] at hn
    rw [alignUp_near hp (by omega)]
  rw [generateAllowedTime_far h.period h.below (not_le.mp hn), h.periods (not_le.mp hn)]
  simp only [Time.le_def, h.ns_sub] at hn
  have h₁ : 1 < ceilDiv (t.ns - c.timeGrantBase.ns) c.info.period.ns :=
    (lt_ceilDiv_iff hp).mpr (by omega)
  have h₂ : ceilDiv (t.ns - c.timeGrantBase.ns) c.info.period.ns ≤ 2147483647 :=
    (ceilDiv_le_iff hp).mpr hc
  rw [h.ns_sub, toInt32_of_fits (by omega) (by omega), alignUp_far hp (by omega)]

section
variable (hc : 2147483647 * c.info.period.ns < t.ns - c.timeGrantBase.ns)
include hc

theorem Measured.miscounted :
    c.generateAllowedTime t = .wrap (c.timeGrantBase.ns - 2147483648 * c.info.period.ns) := by
  have hp := period_pos h.period
  have hf : c.info.period < t - c.timeGrantBase := by
    rw [Time.lt_def, h.ns_sub]
    omega
  have hk : 2147483647 < ceilDiv (t.ns - c.timeGrantBase.ns) c.info.period.ns :=
    (lt_ceilDiv_iff hp).mpr hc
  rw [generateAllowedTime_far h.period h.below hf, h.periods hf, h.ns_sub,
    toInt32_of_large (by omega)]
  congr 1
  omega

theorem Measured.miscounted_far :
    c.timeGrantBase.ns + 2147483648 * c.info.period.ns ≤ c.roundUp t := by
  have hp := period_pos h.period
  have hk : 2147483647 < ceilDiv (t.ns - c.timeGrantBase.ns) c.info.period.ns :=
    (lt_ceilDiv_iff hp).mpr hc
  have hm := Int.mul_le_mul_of_nonneg_right (show 2147483648 ≤ _ from hk) hp.le
  rw [roundUp_period h.period, alignUp_far hp (by omega)]
  omega

end

end

theorem generateAllowedTime_le_roundUp (c : TimeCoordinator) (hb : .zero ≤ c.timeGrantBase)
    (ht : c.timeGrantBase ≤ t) (hq : c.PeriodsExact t) :
    (c.generateAllowedTime t).ns ≤ c.roundUp t := by
  by_cases hp : .epsilon < c.info.period
  · by_cases hm : t = .maxVal
    · rw [hm, generateAllowedTime_maxVal]
      exact c.le_roundUp _
    have h : c.Measured t := ⟨hq, hp, hb, ht, hm⟩
    have hlow := (c.le_roundUp t).trans' t.lower
    by_cases hc : t.ns - c.timeGrantBase.ns ≤ 2147483647 * c.info.period.ns
    · rw [h.counted hc]
      exact Time.ns_wrap_le hlow
    have hfar := h.miscounted_far (not_le.mp hc)
    have hu := (c.generateAllowedTime t).upper
    have hpos := period_pos hp
    simp only [Time.le_def, Time.ns_zero] at hb
    by_cases hz : c.roundUp t < 9223372036854775808
    · rw [h.miscounted (not_le.mp hc), Time.ns_wrap (by omega) (by omega)]
      omega
    · omega
  · rw [generateAllowedTime_plain hp]
    exact c.le_roundUp _

/-- From a base at or after zero the allowed time is the least whole number of periods after it that
is not before `t`, if that is a time at all and the quotient is exact, exactly when at most
`2^31 - 1` periods reach `t`. -/
theorem generateAllowedTime_least (c : TimeCoordinator) (t : Time) (hp : .epsilon < c.info.period)
    (hb : .zero ≤ c.timeGrantBase) (ht : c.timeGrantBase < t) (hm : t < .maxVal)
    (hq : c.PeriodsExact t) : ∃ z : Int,
      IsLeast {z | ∃ k : Int, 1 ≤ k ∧ z = c.timeGrantBase.ns + k * c.info.period.ns ∧ t.ns ≤ z} z ∧
      (z < 9223372036854775808 → ((c.generateAllowedTime t).ns = z ↔
        t.ns - c.timeGrantBase.ns ≤ 2147483647 * c.info.period.ns)) := by
  have h : c.Measured t := ⟨hq, hp, hb, ht.le, hm.ne⟩
  have hlow := (c.le_roundUp t).trans' t.lower
  have hpos := period_pos hp
  refine ⟨c.roundUp t, ?_, fun hz => ⟨fun heq => ?_, fun hc => ?_⟩⟩
  · rw [roundUp_period hp]
    exact isLeast_alignUp hpos _ _
  · by_contra hc
    have hfar := h.miscounted_far (not_le.mp hc)
    simp only [Time.le_def, Time.ns_zero] at hb
    rw [h.miscounted (not_le.mp hc), Time.ns_wrap (by omega) (by omega)] at heq
    omega
  · rw [h.counted hc]
    exact Time.ns_wrap hlow hz

def shortPeriod : TimeCoordinator where
  timeGranted := .zero
  timeGrantBase := .zero
  info := { period := .wrap 2 }

theorem generateAllowedTime_least_ten : ∃ z : Int,
    IsLeast {z | ∃ k : Int, 1 ≤ k ∧ z = 0 + k * 2 ∧ 9 ≤ z} z ∧ (z < 9223372036854775808 →
        ((shortPeriod.generateAllowedTime (.wrap 9)).ns = z ↔ 9 - 0 ≤ 2147483647 * (2 : Int))) :=
  generateAllowedTime_least shortPeriod (.wrap 9) (by decide) (by decide) (by decide) (by decide)
    (by decide +kernel)

/-- About eight seconds ahead the count of two nanosecond periods is too large for an `int`. -/
theorem allowed_time_miscounted :
    IsLeast {z : Int | ∃ k : Int, 1 ≤ k ∧ z = 0 + k * 2 ∧ 8589934592 ≤ z} 8589934592 ∧
      (shortPeriod.generateAllowedTime (.wrap 8589934592)).ns = -4294967296 := by
  refine ⟨⟨⟨4294967296, by decide, by decide, by decide⟩, ?_⟩, by decide +kernel⟩
  rintro z ⟨_, _, _, hz⟩
  exact hz

end TimeCoordinator

inductive TimeProperty where
  | outputDelay
  | inputDelay
  | timeDelta
  | period
  | offset
deriving DecidableEq, Repr

namespace TimeCoordinator

def setProperty (c : TimeCoordinator) (timeProperty : TimeProperty) (propertyVal : Time) :
    TimeCoordinator :=
  match timeProperty with
  | .outputDelay => { c with info := { c.info with outputDelay := propertyVal } }
  | .inputDelay => { c with info := { c.info with inputDelay := propertyVal } }
  | .timeDelta => { c with info := { c.info with
      timeDelta := if propertyVal ≤ .zero then .epsilon else propertyVal } }
  | .period => { c with info := { c.info with period := propertyVal } }
  | .offset => { c with info := { c.info with offset := propertyVal } }

/-- The option that lets events end a request early can be switched at any time. -/
def setOptionFlag (c : TimeCoordinator) (uninterruptible : Bool) : TimeCoordinator :=
  { c with info := { c.info with uninterruptible := uninterruptible } }

structure SameRequest (c c' : TimeCoordinator) : Prop where
  granted : c'.timeGranted = c.timeGranted
  base : c'.timeGrantBase = c.timeGrantBase
  requested : c'.timeRequested = c.timeRequested
  value : c'.timeValue = c.timeValue
  message : c'.timeMessage = c.timeMessage
  iterating : c'.iterating = c.iterating
  info : c'.info = c.info

theorem SameRequest.refl (c : TimeCoordinator) : SameRequest c c := by
  constructor <;> rfl

theorem SameRequest.trans (h : SameRequest a b) (h' : SameRequest b c) : SameRequest a c :=
  ⟨h'.granted.trans h.granted, h'.base.trans h.base, h'.requested.trans h.requested,
    h'.value.trans h.value, h'.message.trans h.message, h'.iterating.trans h.iterating,
    h'.info.trans h.info⟩

theorem generateAllowedTime_congr {c c' : TimeCoordinator} (hb : c'.timeGrantBase = c.timeGrantBase)
    (hi : c'.info = c.info) (t : Time) : c'.generateAllowedTime t = c.generateAllowedTime t := by
  unfold generateAllowedTime
  rw [hb, hi]

theorem getNextPossibleTime_congr {c c' : TimeCoordinator} (hg : c'.timeGranted = c.timeGranted)
    (hb : c'.timeGrantBase = c.timeGrantBase) (hi : c'.info = c.info) :
    c'.getNextPossibleTime = c.getNextPossibleTime := by
  unfold getNextPossibleTime
  rw [hg, generateAllowedTime_congr hb hi, generateAllowedTime_congr hb hi, hb, hi]

theorem SameRequest.getNextPossibleTime (h : SameRequest c c') :
    c'.getNextPossibleTime = c.getNextPossibleTime :=
  getNextPossibleTime_congr h.granted h.base h.info

variable (c : TimeCoordinator)

theorem updateTimeFactors_sameRequest : SameRequest c c.updateTimeFactors.2 := by
  constructor <;> rfl

theorem countIteration_sameRequest : SameRequest c c.countIteration := by
  rw [countIteration_eq]
  constructor <;> rfl

theorem countIteration_exec : c.countIteration.timeExec = c.timeExec :=
  (congrArg timeExec c.countIteration_eq :)

variable (cmd : ActionMessage)

theorem processTimeMessage_sameRequest {cmd : ActionMessage}
    (h : cmd.messageAction ≠ .cmdForceTimeGrant) :
    SameRequest c (c.processTimeMessage cmd).2.1 := by
  obtain ⟨_, _, _, _, _, _, he, hf⟩ := c.processTimeMessage_eq cmd
  obtain ⟨rfl, rfl⟩ := hf h
  rw [he]
  constructor <;> rfl

theorem processDependencyUpdateMessage_sameRequest :
    SameRequest c (c.processDependencyUpdateMessage cmd) := by
  rw [processDependencyUpdateMessage_eq]
  constructor <;> rfl

theorem afterEventUpdate_sameRequest (lowered : Bool) :
    SameRequest c (c.afterEventUpdate lowered).1 := by
  rw [afterEventUpdate_eq]
  constructor <;> rfl

/-- What a coordinator knows while it answers a request: nothing pending is before the earliest time
that it may grant. -/
def Asked (c : TimeCoordinator) : Prop :=
  if c.iterating then c.timeGranted ≤ c.timeRequested
  else c.getNextPossibleTime ≤ c.timeRequested ∧ c.getNextPossibleTime ≤ c.timeValue ∧
    c.getNextPossibleTime ≤ c.timeMessage

theorem Asked.same {c c' : TimeCoordinator} (h : c.Asked) (hs : SameRequest c c') : c'.Asked := by
  unfold Asked at h ⊢
  rw [hs.iterating, hs.granted, hs.requested, hs.getNextPossibleTime, hs.value, hs.message]
  exact h

variable {c}

theorem asked_plain (hi : c.iterating = false) :
    c.Asked ↔ c.getNextPossibleTime ≤ c.timeRequested ∧ c.getNextPossibleTime ≤ c.timeValue ∧
      c.getNextPossibleTime ≤ c.timeMessage := by
  unfold Asked
  rw [hi]
  exact Iff.rfl

theorem asked_iterating (hi : c.iterating = true) : c.Asked ↔ c.timeGranted ≤ c.timeRequested := by
  unfold Asked
  rw [hi]
  exact Iff.rfl

theorem eventTime_le (hi : c.iterating = false) (t : Time) :
    c.getNextPossibleTime ≤ c.eventTime t := by
  unfold eventTime
  rw [hi, if_neg Bool.false_ne_true]
  split
  · exact le_rfl
  · rename_i h
    exact (not_le.mp h).le

theorem Asked.withValue (h : c.Asked) (t : Time) : Asked { c with timeValue := c.eventTime t } := by
  obtain hi | hi := Bool.eq_false_or_eq_true c.iterating
  · exact (asked_iterating (c := { c with timeValue := c.eventTime t }) hi).mpr
      ((asked_iterating hi).mp h)
  · obtain ⟨hr, _, hm⟩ := (asked_plain hi).mp h
    exact (asked_plain (c := { c with timeValue := c.eventTime t }) hi).mpr
      ⟨hr, eventTime_le hi t, hm⟩

theorem Asked.withMessage (h : c.Asked) (t : Time) :
    Asked { c with timeMessage := c.eventTime t } := by
  obtain hi | hi := Bool.eq_false_or_eq_true c.iterating
  · exact (asked_iterating (c := { c with timeMessage := c.eventTime t }) hi).mpr
      ((asked_iterating hi).mp h)
  · obtain ⟨hr, hv, _⟩ := (asked_plain hi).mp h
    exact (asked_plain (c := { c with timeMessage := c.eventTime t }) hi).mpr
      ⟨hr, hv, eventTime_le hi t⟩

theorem Asked.updateValueTime (h : c.Asked) (t : Time) : (c.updateValueTime t).1.Asked := by
  unfold TimeCoordinator.updateValueTime
  split
  · split
    · exact h.same ⟨rfl, rfl, rfl, rfl, rfl, rfl, rfl⟩
    · exact h
  · split
    · exact (h.withValue t).same (afterEventUpdate_sameRequest _ _)
    · exact h

theorem Asked.updateMessageTime (h : c.Asked) (t : Time) : (c.updateMessageTime t).1.Asked := by
  unfold TimeCoordinator.updateMessageTime
  split
  · split
    · exact h.same ⟨rfl, rfl, rfl, rfl, rfl, rfl, rfl⟩
    · exact h
  · split
    · exact (h.withMessage t).same (afterEventUpdate_sameRequest _ _)
    · exact h

structure SameGrant (c c' : TimeCoordinator) : Prop where
  granted : c'.timeGranted = c.timeGranted
  base : c'.timeGrantBase = c.timeGrantBase
  iterating : c'.iterating = c.iterating
  info : c'.info = c.info

theorem SameRequest.sameGrant (h : SameRequest c c') : SameGrant c c' :=
  ⟨h.granted, h.base, h.iterating, h.info⟩

theorem SameGrant.getNextPossibleTime (h : SameGrant c c') :
    c'.getNextPossibleTime = c.getNextPossibleTime :=
  getNextPossibleTime_congr h.granted h.base h.info

variable (c) (t : Time)

theorem updateValueTime_sameGrant : SameGrant c (c.updateValueTime t).1 := by
  rw [updateValueTime_eq]
  exact ⟨rfl, rfl, rfl, rfl⟩

theorem updateMessageTime_sameGrant : SameGrant c (c.updateMessageTime t).1 := by
  rw [updateMessageTime_eq]
  exact ⟨rfl, rfl, rfl, rfl⟩

variable (iterate : IterationRequest)

variable (v m : Time)

theorem timeRequest_granted : (c.timeRequest t iterate v m).1.timeGranted = c.timeGranted :=
  (congrArg timeGranted (c.withRequest_eq t iterate) :)

theorem timeRequest_base : (c.timeRequest t iterate v m).1.timeGrantBase = c.timeGrantBase :=
  (congrArg timeGrantBase (c.withRequest_eq t iterate) :)

theorem timeRequest_info : (c.timeRequest t iterate v m).1.info = c.info :=
  (congrArg TimeCoordinator.info (c.withRequest_eq t iterate) :)

theorem timeRequest_iterating :
    (c.timeRequest t iterate v m).1.iterating = decide (iterate ≠ .noIterations) :=
  (congrArg TimeCoordinator.iterating (c.withRequest_eq t iterate) :)

theorem timeRequest_getNextPossibleTime :
    (c.timeRequest t iterate v m).1.getNextPossibleTime = c.getNextPossibleTime :=
  getNextPossibleTime_congr (c.timeRequest_granted t iterate v m) (c.timeRequest_base t iterate v m)
    (c.timeRequest_info t iterate v m)

theorem asked_withEventTimes (hi : c.iterating = false)
    (hr : c.getNextPossibleTime ≤ c.timeRequested) (hn : c.getNextPossibleTime ≤ c.timeNext) :
    (c.withEventTimes v m).Asked :=
  (asked_plain (c := c.withEventTimes v m) hi).mpr
    ⟨hr, hn.trans (le_max_right _ _), hn.trans (le_max_right _ _)⟩

theorem asked_timeRequest : (c.timeRequest t iterate v m).1.Asked := by
  refine Asked.same ?_ (updateTimeFactors_sameRequest
    ((c.withRequest t iterate).withEventTimes v m))
  by_cases hi : iterate = .noIterations
  · subst hi
    have hn : c.getNextPossibleTime ≤ (c.withRequest t .noIterations).timeNext := by
      show _ ≤ if c.info.uninterruptible then max t c.getNextPossibleTime else c.getNextPossibleTime
      split
      · exact le_max_right _ _
      · exact le_rfl
    exact asked_withEventTimes _ v m rfl (le_max_right _ _) hn
  · have h : (c.withRequest t iterate).iterating = true :=
      (c.timeRequest_iterating t iterate v m).trans (decide_eq_true hi)
    refine (asked_iterating (c := (c.withRequest t iterate).withEventTimes v m) h).mpr ?_
    show (c.withRequest t iterate).timeGranted ≤ (c.withRequest t iterate).timeRequested
    rw [show (c.withRequest t iterate).timeGranted = _ from c.timeRequest_granted t iterate v m]
    unfold withRequest
    rw [if_pos (decide_eq_true hi)]
    exact le_max_right _ _

theorem disconnect_sameRequest : SameRequest c c.disconnect.1 := by
  rw [disconnect_eq]
  constructor <;> rfl

/-- How a check ends: it grants the execution time, or the same request goes on. -/
inductive CheckOutcome (c : TimeCoordinator) :
    MessageProcessingResult × TimeCoordinator × List ActionMessage → Prop
  | halts (he : c.nextExecutionTime = .maxVal) (ha : c.allowedTime = .maxVal)
      (hg : c'.timeGranted = .maxVal) (hb : c'.timeGrantBase = .maxVal) (hi : c'.info = c.info) :
      CheckOutcome c (.halted, c', out)
  | grants (hr : returnableResult r = true) (hs : c.updateTimeFactors.2.grantsTime = true)
      (hg : c'.timeGranted = c.nextExecutionTime) (hb : c'.timeGrantBase = c.nextExecutionTime)
      (hi : c'.info = c.info) : CheckOutcome c (r, c', out)
  | waits (hs : SameRequest c c') : CheckOutcome c (.continueProcessing, c', out)

theorem checkTimeGrant_outcome : CheckOutcome c c.checkTimeGrant := by
  have hu := c.updateTimeFactors_sameRequest
  have hc := hu.trans (countIteration_sameRequest _)
  unfold checkTimeGrant
  dsimp only
  split
  · rename_i h
    have hd := disconnect_sameRequest
      { c.updateTimeFactors.2 with timeGranted := .maxVal, timeGrantBase := .maxVal }
    exact .halts h.1 h.2 hd.granted hd.base hd.info
  split
  · exact .waits hu
  split
  · rename_i hg
    have he := countIteration_exec c.updateTimeFactors.2
    refine .grants ?_ hg he he hc.info
    split <;> rfl
  · split <;> exact .waits hc

end TimeCoordinator

/-- What can happen to the coordinator of an executing federate. -/
inductive CoordinatorEvent where
  | request (nextTime : Time) (iterate : IterationRequest) (newValueTime newMessageTime : Time)
  | value (updateTime : Time)
  | message (updateTime : Time)
  | timing (cmd : ActionMessage)
  | dependency (cmd : ActionMessage)
  | property (timeProperty : TimeProperty) (propertyVal : Time)
  | optionFlag (uninterruptible : Bool)
  | check

structure Requester where
  coord : TimeCoordinator
  request : Option IterationRequest := none

namespace Requester

/-- A forced grant at or after the granted time ends the request, as the federate returns from
it. -/
def processTiming (r : Requester) (cmd : ActionMessage) : Requester :=
  if cmd.messageAction = .cmdForceTimeGrant then
    if cmd.actionTime < r.coord.timeGranted then r
    else ⟨(r.coord.processTimeMessage cmd).2.1, none⟩
  else { r with coord := (r.coord.processTimeMessage cmd).2.1 }

def checkGrant (r : Requester) : Requester :=
  ⟨r.coord.checkTimeGrant.2.1,
    if returnableResult r.coord.checkTimeGrant.1 then none else r.request⟩

/-- A federate asks only after the previous grant, and a grant is only looked for while it waits. -/
def step (r : Requester) : CoordinatorEvent → Requester
  | .request nextTime iterate value message =>
    if r.request = none then ⟨(r.coord.timeRequest nextTime iterate value message).1, some iterate⟩
    else r
  | .value t => { r with coord := (r.coord.updateValueTime t).1 }
  | .message t => { r with coord := (r.coord.updateMessageTime t).1 }
  | .timing cmd => r.processTiming cmd
  | .dependency cmd => { r with coord := r.coord.processDependencyUpdateMessage cmd }
  | .property timeProperty propertyVal =>
    { r with coord := r.coord.setProperty timeProperty propertyVal }
  | .optionFlag uninterruptible => { r with coord := r.coord.setOptionFlag uninterruptible }
  | .check => if r.request = none then r else r.checkGrant

def granted (r : Requester) : Option Time :=
  if r.request ≠ none ∧ returnableResult r.coord.checkTimeGrant.1 then
    some r.coord.checkTimeGrant.2.1.timeGranted
  else none

def entered (c : TimeCoordinator) : Requester := ⟨c.enterExecution.1, none⟩

def Configures : CoordinatorEvent → Prop
  | .property _ _ | .optionFlag _ => True
  | _ => False

instance : DecidablePred Configures := fun e => by
  cases e <;> first | exact isTrue trivial | exact isFalse id

/-- The base of the period is the granted time, and a request that is being answered is known. -/
structure Consistent (r : Requester) : Prop where
  base : r.coord.timeGrantBase = r.coord.timeGranted
  asked : r.request ≠ none → r.coord.Asked
  mode : ∀ i, r.request = some i → r.coord.iterating = decide (i ≠ .noIterations)

theorem consistent_entered (c : TimeCoordinator) : (entered c).Consistent :=
  ⟨rfl, fun h => absurd rfl h, fun _ h => nomatch h⟩

variable {r : Requester}

theorem Consistent.same (h : r.Consistent)
    (hs : r.coord.SameRequest c) : Consistent { r with coord := c } :=
  ⟨by rw [hs.base, hs.granted]; exact h.base, fun hr => (h.asked hr).same hs,
    fun i hr => hs.iterating.trans (h.mode i hr)⟩

theorem Consistent.sameGrant (h : r.Consistent)
    (hs : r.coord.SameGrant c) (ha : r.coord.Asked → c.Asked) : Consistent { r with coord := c } :=
  ⟨by rw [hs.base, hs.granted]; exact h.base, fun hr => ha (h.asked hr),
    fun i hr => hs.iterating.trans (h.mode i hr)⟩

theorem consistent_of_none (hb : r.coord.timeGrantBase = r.coord.timeGranted)
    (hr : r.request = none) : r.Consistent :=
  ⟨hb, fun h => absurd hr h, fun i h => by rw [hr] at h; cases h⟩

theorem forceTimeGrant_cases (c : TimeCoordinator) (cmd : ActionMessage) :
    (c.forceTimeGrant cmd).2.1 = c ∨ (c.timeGranted < cmd.actionTime ∧ (c.forceTimeGrant cmd).2.1 =
        { c with timeGranted := cmd.actionTime, timeGrantBase := cmd.actionTime }) := by
  unfold TimeCoordinator.forceTimeGrant
  split
  · rename_i h
    exact .inr ⟨h, rfl⟩
  · exact .inl rfl

theorem processTiming_cases (r : Requester) (cmd : ActionMessage) :
    (r.processTiming cmd).coord.SameRequest r.coord ∧ (r.processTiming cmd).request = none ∨
      (∃ c, r.coord.SameRequest c ∧ r.processTiming cmd = { r with coord := c }) ∨
      (cmd.messageAction = .cmdForceTimeGrant ∧ r.coord.timeGranted < cmd.actionTime ∧
        r.processTiming cmd = ⟨{ r.coord with
          timeGranted := cmd.actionTime
          timeGrantBase := cmd.actionTime }, none⟩) := by
  unfold processTiming
  split
  · rename_i hf
    have hp : (r.coord.processTimeMessage cmd).2.1 = (r.coord.forceTimeGrant cmd).2.1 := by
      unfold TimeCoordinator.processTimeMessage
      rw [hf]
    split
    · exact .inr (.inl ⟨r.coord, .refl _, rfl⟩)
    obtain h | ⟨hlt, h⟩ := forceTimeGrant_cases r.coord cmd
    · rw [hp, h]
      exact .inl ⟨.refl _, rfl⟩
    · rw [hp, h]
      exact .inr (.inr ⟨hf, hlt, rfl⟩)
  · rename_i hf
    exact .inr (.inl ⟨_, r.coord.processTimeMessage_sameRequest hf, rfl⟩)

theorem Consistent.processTiming (h : r.Consistent) (cmd : ActionMessage) :
    (r.processTiming cmd).Consistent := by
  obtain ⟨hs, hr⟩ | ⟨c, hs, he⟩ | ⟨_, _, he⟩ := r.processTiming_cases cmd
  · exact consistent_of_none (hs.base.symm.trans (h.base.trans hs.granted)) hr
  · rw [he]
    exact h.same hs
  · rw [he]
    exact consistent_of_none rfl rfl

theorem Consistent.checkGrant (h : r.Consistent) : r.checkGrant.Consistent := by
  have ho := r.coord.checkTimeGrant_outcome
  unfold Requester.checkGrant
  generalize r.coord.checkTimeGrant = x at ho ⊢
  cases ho with
  | halts _ _ hg hb => exact consistent_of_none (hb.trans hg.symm) rfl
  | grants hr _ hg hb => exact consistent_of_none (hb.trans hg.symm) (if_pos hr)
  | waits hs => exact h.same hs

/-- While the options change only between requests, every step keeps the bookkeeping. -/
theorem Consistent.step (h : r.Consistent) (e : CoordinatorEvent)
    (hc : Configures e → r.request = none) : (r.step e).Consistent := by
  cases e with
  | request t iterate v m =>
    show (if r.request = none then
      (⟨(r.coord.timeRequest t iterate v m).1, some iterate⟩ : Requester) else r).Consistent
    split
    · refine ⟨?_, fun _ => r.coord.asked_timeRequest t iterate v m, ?_⟩
      · dsimp only
        rw [TimeCoordinator.timeRequest_base, TimeCoordinator.timeRequest_granted]
        exact h.base
      · rintro i hi
        cases hi
        exact r.coord.timeRequest_iterating t iterate v m
    · exact h
  | value t =>
    exact h.sameGrant (r.coord.updateValueTime_sameGrant t) fun ha => ha.updateValueTime t
  | message t =>
    exact h.sameGrant (r.coord.updateMessageTime_sameGrant t) fun ha => ha.updateMessageTime t
  | timing cmd => exact h.processTiming cmd
  | dependency cmd => exact h.same (r.coord.processDependencyUpdateMessage_sameRequest cmd)
  | property p v =>
    have hb : (r.coord.setProperty p v).timeGrantBase = (r.coord.setProperty p v).timeGranted := by
      cases p <;> exact h.base
    exact consistent_of_none hb (hc trivial)
  | optionFlag b => exact consistent_of_none h.base (hc trivial)
  | check =>
    show (if r.request = none then r else r.checkGrant).Consistent
    split
    · exact h
    · exact h.checkGrant

theorem granted_eq (h : r.granted = some t) : r.request ≠ none ∧ t = r.coord.nextExecutionTime ∧
      (t < .maxVal → r.coord.updateTimeFactors.2.grantsTime = true) := by
  have ho := r.coord.checkTimeGrant_outcome
  unfold granted at h
  generalize r.coord.checkTimeGrant = x at ho h
  split at h
  · rename_i hr
    cases h
    cases ho with
    | halts hx _ hg => exact ⟨hr.1, hg.trans hx.symm, fun hlt => absurd hg hlt.ne⟩
    | grants _ hs hg => exact ⟨hr.1, hg, fun _ => hs⟩
    | waits => exact absurd hr.2 Bool.false_ne_true
  · cases h

end Requester

end Helics
