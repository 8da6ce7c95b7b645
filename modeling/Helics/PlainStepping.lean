import Helics.Federation

namespace Helics

namespace TimeFactors

/-- What the minima computed so far say about the dependencies already visited. -/
structure Covers (f : TimeFactors) (deps : List DependencyInfo) : Prop where
  next : ∀ d ∈ deps, f.minNext ≤ d.Tnext
  event : ∀ d ∈ deps, f.minDe ≤ d.Te
  demin : (∀ d ∈ deps, f.minminDe ≤ d.Tdemin) ∨ f.minminDe ≤ .untrusted

theorem ite_lt_eq_min (a b : Time) : (if a < b then a else b) = min b a := by
  split
  · rename_i h
    exact (min_eq_right h.le).symm
  · rename_i h
    exact (min_eq_left (not_lt.mp h)).symm

theorem min_covers {g : DependencyInfo → Time} (h : ∀ d ∈ deps, t ≤ g d)
    (dep : DependencyInfo) : ∀ d ∈ deps ++ [dep], min t (g dep) ≤ g d := by
  intro d hd
  obtain hd | hd := List.mem_append.mp hd
  · exact le_trans (min_le_left _ _) (h d hd)
  · obtain rfl := List.mem_singleton.mp hd
    exact min_le_right _ _

theorem Covers.step (f : TimeFactors) (deps : List DependencyInfo) (dep : DependencyInfo)
    (h : Covers f deps) : Covers (f.addDependency dep) (deps ++ [dep]) := by
  unfold addDependency
  simp only [ite_lt_eq_min]
  refine ⟨min_covers h.next dep, min_covers h.event dep, ?_⟩
  split
  · obtain hd | hu := h.demin
    · exact .inl (min_covers hd dep)
    · exact .inr (le_trans (min_le_left _ _) hu)
  · exact .inr le_rfl

theorem foldl_minminDe_eq (deps : List DependencyInfo) (f : TimeFactors)
    (hf : f.minminDe = f.minDe) (h : ∀ d ∈ deps, d.Tnext ≤ d.Tdemin ∧ d.Te = d.Tdemin) :
    (deps.foldl addDependency f).minminDe = (deps.foldl addDependency f).minDe := by
  induction deps generalizing f with
  | nil => exact hf
  | cons dep deps ih =>
    obtain ⟨hv, he⟩ := h dep List.mem_cons_self
    apply ih
    · unfold addDependency
      rw [if_pos hv, hf, he]
    · exact fun d hd => h d (List.mem_cons_of_mem _ hd)

end TimeFactors

namespace TimeCoordinator

theorem timeFactors_covers (c : TimeCoordinator) :
    TimeFactors.Covers c.timeFactors c.dependencies.entries :=
  Invariants.foldl_invariant ⟨by simp, by simp, .inl (by simp)⟩ TimeFactors.Covers.step _

/-- The settings of plain stepping and what holds of the granted time under them. -/
structure Plain (c : TimeCoordinator) : Prop where
  executionMode : c.executionMode = true
  iterating : c.iterating = false
  period : c.info.period = .zero
  inputDelay : c.info.inputDelay = .zero
  outputDelay : c.info.outputDelay = .zero
  timeDelta : .zero < c.info.timeDelta
  grantBase : c.timeGrantBase = c.timeGranted
  block : c.timeBlock = .maxVal
  granted : .zero ≤ c.timeGranted

def HasRoom (c : TimeCoordinator) : Prop :=
  c.timeGranted.ns + c.info.timeDelta.ns ≤ Time.maxVal.ns

variable {c : TimeCoordinator}

section
variable (h : c.Plain)
include h

theorem Plain.generateAllowedTime (t : Time) : c.generateAllowedTime t = t := by
  unfold TimeCoordinator.generateAllowedTime
  rw [h.period, if_neg (by decide)]

theorem Plain.granted_lt_next (hr : c.HasRoom) : c.timeGranted < c.getNextPossibleTime := by
  have hd := h.timeDelta
  have hg := h.granted
  have hmax : max c.info.timeDelta .zero = c.info.timeDelta := max_eq_left hd.le
  unfold getNextPossibleTime
  rw [h.generateAllowedTime, h.generateAllowedTime, h.period, hmax, h.grantBase]
  by_cases hz : c.timeGranted = .zero
  · rw [if_pos hz, hz]
    by_cases ho : c.info.timeDelta < c.info.offset
    · rw [if_pos ho]
      exact lt_trans hd ho
    · rw [if_neg ho, if_pos (show Time.zero ≤ .epsilon by decide)]
      split <;> exact hd
  · rw [if_neg hz, Time.lt_def]
    unfold HasRoom at hr
    simp only [Time.lt_def, Time.le_def, Time.ns_zero, Time.ns_maxVal] at hd hg hr
    rw [Time.ns_add_of_fits (by omega) (by omega)]
    omega

def targetTime (c : TimeCoordinator) : Time :=
  if c.info.uninterruptible then c.timeRequested
  else min c.timeRequested (min c.timeMessage c.timeValue)

theorem Plain.nextExecutionTime :
    c.nextExecutionTime = if c.info.uninterruptible then c.timeRequested
      else if c.targetTime ≤ c.timeGranted then c.getNextPossibleTime else c.targetTime := by
  unfold TimeCoordinator.nextExecutionTime
  by_cases hu : c.info.uninterruptible
  · rw [if_pos hu, if_pos hu]
  rw [if_neg hu, if_neg hu, h.generateAllowedTime, ite_self]
  unfold pendingExecutionTime targetTime
  simp only [h.inputDelay, h.iterating, Time.add_zero, ite_self, if_neg hu, Bool.false_eq_true,
    if_false]

theorem Plain.updateTimeFactors : c.updateTimeFactors.2.Plain :=
  ⟨h.executionMode, h.iterating, h.period, h.inputDelay, h.outputDelay, h.timeDelta, h.grantBase,
    h.block, h.granted⟩

/-- Every record is kept by its dependency, and the granted time by all of them. -/
def Kept (lim : GlobalId → Time) (c : TimeCoordinator) : Prop :=
  ∀ d ∈ c.dependencies.entries, d.bound ≤ lim d.fedID ∧ c.timeGranted ≤ lim d.fedID

/-- A waiting coordinator whose next grant is not below the floor. -/
structure Armed (lim : GlobalId → Time) (floor : Time) (c : TimeCoordinator) : Prop where
  room : c.HasRoom
  target : c.getNextPossibleTime ≤ c.targetTime
  exec : c.timeExec = c.targetTime
  below : floor ≤ c.timeExec
  caused : c.info.uninterruptible ∨ floor ≤ c.getNextPossibleTime ∨
    ∀ j ∈ c.dependencies.keys, floor ≤ lim j

/-- A waiting coordinator that has announced nothing above the floor. -/
structure Waiting (lim : GlobalId → Time) (floor : Time) (c : TimeCoordinator) : Prop
    extends Armed lim floor c where
  next : c.timeNext ≤ floor
  announced : c.dependents.entries ≠ [] → min c.timeExec (max c.timeMinDe c.timeNext) ≤ floor

/-- What is left of the previous grant in a coordinator that is not waiting. -/
structure Settled (c : TimeCoordinator) : Prop where
  next : c.timeNext ≤ c.timeGranted
  fixed : c.info.uninterruptible → c.timeExec = c.timeRequested
  spent : c.info.uninterruptible ∨ c.targetTime ≤ c.timeGranted ∨ c.timeMinDe ≤ c.timeGranted

theorem Plain.nextExecutionTime_target (hr : c.HasRoom)
    (ht : c.getNextPossibleTime ≤ c.targetTime) : c.nextExecutionTime = c.targetTime := by
  have hlt : c.timeGranted < c.targetTime := lt_of_lt_of_le (h.granted_lt_next hr) ht
  rw [h.nextExecutionTime, if_neg (not_le.mpr hlt)]
  by_cases hu : c.info.uninterruptible
  · rw [if_pos hu, targetTime, if_pos hu]
  · rw [if_neg hu]

end

theorem Armed.nextExecutionTime (hp : c.Plain) (h : Armed lim floor c) :
    c.nextExecutionTime = c.timeExec :=
  (hp.nextExecutionTime_target h.room h.target).trans h.exec.symm

/-- The floor that the dependency table supports. -/
def supportedFloor (c : TimeCoordinator) : Time :=
  if c.info.uninterruptible then c.timeExec
  else min c.timeExec (max c.getNextPossibleTime (min c.timeFactors.minDe c.timeFactors.minminDe))

theorem Armed.updateTimeFactors_exec (hp : c.Plain)
    (h : Armed lim floor c) : c.updateTimeFactors.2.timeExec = c.timeExec := by
  have he : c.nextExecutionTime = c.timeExec := h.nextExecutionTime hp
  exact he

theorem Armed.updateTimeFactors_next_le (hp : c.Plain)
    (h : Armed lim floor c) : c.updateTimeFactors.2.timeNext ≤ c.supportedFloor := by
  have he := h.exec
  show nextPossibleEventTime _ ≤ _
  unfold nextPossibleEventTime supportedFloor
  by_cases hu : c.info.uninterruptible
  · rw [if_pos hu, if_pos hu, he, targetTime, if_pos hu]
  rw [if_neg hu, if_neg hu, hp.outputDelay, hp.inputDelay, hp.iterating]
  simp only [Time.add_zero, Bool.false_eq_true, if_false]
  refine le_min (min_le_right _ _) (le_trans (min_le_left _ _) ?_)
  split
  · exact (hp.generateAllowedTime _).le.trans (le_max_right _ _)
  · exact le_max_left _ _

theorem Plain.updateTimeFactors_minDe (h : c.Plain) :
    c.updateTimeFactors.2.timeMinDe = c.timeFactors.minDe := by
  show c.minDependentEvent = _
  unfold minDependentEvent
  rw [h.generateAllowedTime, h.outputDelay, Time.add_zero, ite_self]

theorem Plain.updateTimeFactors_allow (h : c.Plain) :
    c.updateTimeFactors.2.timeAllow = c.timeFactors.minNext := by
  show c.allowedTime = _
  unfold allowedTime
  rw [h.inputDelay, Time.zero_add]
  split
  · rfl
  · rename_i hn
    exact (Time.eq_maxVal (not_lt.mp hn)).symm

theorem Armed.supported_caused (hp : c.Plain) (h : Armed lim floor c)
    (hk : Kept lim c) : c.info.uninterruptible ∨ c.supportedFloor ≤ c.getNextPossibleTime ∨
      ∀ j ∈ c.dependencies.keys, c.supportedFloor ≤ lim j := by
  by_cases hu : c.info.uninterruptible
  · exact .inl hu
  right
  unfold supportedFloor
  rw [if_neg hu]
  obtain hmm | hmm := le_total (min c.timeFactors.minDe c.timeFactors.minminDe)
    c.getNextPossibleTime
  · left
    rw [max_eq_left hmm]
    exact min_le_right _ _
  rw [max_eq_right hmm]
  obtain hd | hun := c.timeFactors_covers.demin
  · right
    intro j hj
    obtain ⟨d, hd', rfl⟩ := List.mem_map.mp hj
    have hmin := min_le_min (c.timeFactors_covers.event d hd') (hd d hd')
    exact (min_le_right _ _).trans (hmin.trans ((le_max_right _ _).trans (hk d hd').1))
  · have hneg : c.getNextPossibleTime ≤ .untrusted :=
      hmm.trans ((min_le_right _ _).trans hun)
    have hpos : Time.zero < c.getNextPossibleTime :=
      lt_of_le_of_lt hp.granted (hp.granted_lt_next h.room)
    exact absurd (lt_of_lt_of_le hpos hneg) (by decide)

theorem Armed.supported_le : c.supportedFloor ≤ c.timeExec := by
  unfold supportedFloor
  split
  · exact le_rfl
  · exact min_le_left _ _

theorem Armed.raise (hp : c.Plain) (h : Armed lim floor c)
    (hk : Kept lim c) : Armed lim (max floor c.supportedFloor) c := by
  refine { h with below := max_le h.below supported_le, caused := ?_ }
  obtain hf | hf := le_total floor c.supportedFloor
  · rw [max_eq_right hf]
    exact h.supported_caused hp hk
  · rw [max_eq_left hf]
    exact h.caused

/-- Recomputing the time factors announces nothing above the supported floor, unless the
coordinator hides an event. -/
theorem Armed.updateTimeFactors (hp : c.Plain) (h : Armed lim floor c)
    (hk : Kept lim c) (hh : c.hidesEvent = false) :
    Waiting lim (max floor c.supportedFloor) c.updateTimeFactors.2 := by
  have ha := h.raise hp hk
  have hexec := h.updateTimeFactors_exec hp
  have hnext := h.updateTimeFactors_next_le hp
  refine ⟨⟨ha.room, ha.target, hexec.trans ha.exec, hexec ▸ ha.below, ha.caused⟩,
    hnext.trans (le_max_right _ _), ?_⟩
  intro hd
  have hd' : c.dependents.entries ≠ [] := hd
  refine le_trans ?_ (le_max_right floor _)
  rw [hexec, hp.updateTimeFactors_minDe, min_max_distrib_left]
  refine max_le ?_ (min_le_of_right_le hnext)
  by_cases hu : c.info.uninterruptible
  · unfold supportedFloor
    rw [if_pos hu]
    exact min_le_left _ _
  unfold hidesEvent at hh
  rw [hexec, hp.updateTimeFactors_minDe] at hh
  simp only [hu, hd', Bool.not_false, ne_eq, not_false_eq_true, decide_true, Bool.true_and,
    decide_eq_false_iff_not, not_lt] at hh
  unfold supportedFloor
  rw [if_neg hu]
  exact le_min (min_le_left _ _) hh

end TimeCoordinator

end Helics
