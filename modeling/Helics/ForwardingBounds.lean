import Helics.ForwardingTimeCoordinator
import Helics.Invariants
import Mathlib.Data.List.DropRight
import Mathlib.Order.MinMax

namespace Helics

open MinTimeSet

namespace DependencyInfo

/-- A dependent event before the next time is invalid. -/
def trusted (d : DependencyInfo) : Bool := decide (d.Tnext ≤ d.Tdemin)

/-- The smallest value of a time field, the maximum time where there is no record. -/
def smallest (f : DependencyInfo → Time) (ds : List DependencyInfo) : Time :=
  ds.foldl (fun t d => min t (f d)) .maxVal

def attaining (f : DependencyInfo → Time) (ds : List DependencyInfo) : List DependencyInfo :=
  ds.filter fun d => decide (f d = smallest f ds)

variable (f : DependencyInfo → Time) (ds : List DependencyInfo) (d : DependencyInfo)

theorem smallest_concat : smallest f (ds ++ [d]) = min (smallest f ds) (f d) :=
  List.foldl_concat ..

theorem smallest_perm (h : ds'.Perm ds) :
    smallest f ds' = smallest f ds :=
  h.foldl_eq' (fun a _ b _ t => min_right_comm t (f a) (f b)) _

theorem attaining_perm (h : ds'.Perm ds) :
    (attaining f ds').Perm (attaining f ds) := by
  unfold attaining
  rw [smallest_perm f ds h]
  exact h.filter _

variable {f ds d}

theorem mem_attaining : d ∈ attaining f ds ↔ d ∈ ds ∧ f d = smallest f ds := by
  rw [attaining, List.mem_filter, decide_eq_true_iff]

theorem smallest_le (h : d ∈ ds) : smallest f ds ≤ f d := by
  induction ds using List.reverseRecOn with
  | nil => cases h
  | append_singleton ds e ih =>
    rw [smallest_concat]
    obtain h | h := List.mem_append.mp h
    · exact (min_le_left _ _).trans (ih h)
    · exact List.mem_singleton.mp h ▸ min_le_right _ _

theorem le_smallest (h : ∀ d ∈ ds, t ≤ f d) : t ≤ smallest f ds := by
  induction ds using List.reverseRecOn with
  | nil => exact Time.le_maxVal t
  | append_singleton ds e ih =>
    rw [smallest_concat]
    exact le_min (ih fun d hd => h d (List.mem_append_left _ hd)) (h e (by simp))

theorem attaining_concat_lt (h : f d < smallest f ds) : attaining f (ds ++ [d]) = [d] := by
  unfold attaining
  rw [smallest_concat, min_eq_right h.le, List.filter_append, List.filter_cons_of_pos (by simp),
    List.filter_eq_nil_iff.mpr]
  · rfl
  · intro e he
    exact fun hd => (smallest_le he).not_gt (of_decide_eq_true hd ▸ h)

theorem attaining_concat_eq (h : f d = smallest f ds) :
    attaining f (ds ++ [d]) = attaining f ds ++ [d] := by
  unfold attaining
  rw [smallest_concat, min_eq_left h.ge, List.filter_append, List.filter_cons_of_pos (by simpa)]
  rfl

theorem attaining_concat_gt (h : smallest f ds < f d) :
    attaining f (ds ++ [d]) = attaining f ds := by
  unfold attaining
  rw [smallest_concat, min_eq_left h.le, List.filter_append,
    List.filter_cons_of_neg (by simpa using h.ne')]
  exact List.append_nil _

theorem attaining_ne_nil (h : smallest f ds < .maxVal) : attaining f ds ≠ [] := by
  induction ds using List.reverseRecOn with
  | nil => exact absurd h (lt_irrefl _)
  | append_singleton ds d ih =>
    obtain hd | hd | hd := lt_trichotomy (f d) (smallest f ds)
    · rw [attaining_concat_lt hd]
      exact List.cons_ne_nil _ _
    · rw [attaining_concat_eq hd]
      exact List.append_ne_nil_of_right_ne_nil _ (List.cons_ne_nil _ _)
    · rw [smallest_concat, min_eq_left hd.le] at h
      rw [attaining_concat_gt hd]
      exact ih h

end DependencyInfo

namespace MinTimeSet

open DependencyInfo

def ofRecords (ignore : GlobalId) (l : List DependencyInfo) : MinTimeSet :=
  (l.foldl (addDependency ignore) {}).finish

def considered (ignore : GlobalId) (l : List DependencyInfo) : List DependencyInfo :=
  l.filter fun d => decide (d.fedID ≠ ignore)

def addRecord (mt : MinTimeSet) (dep : DependencyInfo) : MinTimeSet :=
  ((mt.addNext dep).addDemin dep).addTe dep

def minima (ds : List DependencyInfo) : MinTimeSet := ds.foldl addRecord {}

theorem ofRecords_eq (ignore : GlobalId) (l : List DependencyInfo) :
    ofRecords ignore l = (minima (considered ignore l)).finish := by
  unfold ofRecords minima considered
  rw [List.foldl_filter]
  congr
  funext mt d
  unfold addDependency
  by_cases h : d.fedID = ignore
  · rw [if_pos h, if_neg (by simpa using h)]
  · rw [if_neg h, if_pos (by simpa using h)]
    rfl

variable (mt : MinTimeSet) (dep : DependencyInfo)

theorem addNext_frame : mt.addNext dep =
    { mt with minNext := (mt.addNext dep).minNext, tState := (mt.addNext dep).tState } := by
  unfold addNext
  split
  · rfl
  · split <;> rfl

theorem addDemin_frame (next : Time) (state : TimeState) :
    addDemin { mt with minNext := next, tState := state } dep = { mt with
      minNext := next, tState := state
      minminDe := (mt.addDemin dep).minminDe, minFed := (mt.addDemin dep).minFed } := by
  unfold addDemin
  split
  · split
    · rfl
    · split <;> rfl
  · rfl

theorem addTe_frame : mt.addTe dep = { mt with minDe := min mt.minDe dep.Te } := by
  unfold addTe
  split
  · rename_i h
    rw [min_eq_right h.le]
  · rename_i h
    rw [min_eq_left (not_lt.mp h)]

/-- What one record does to the summary: the three parts do not touch each other. -/
theorem addRecord_eq : mt.addRecord dep = { mt with
    minNext := (mt.addNext dep).minNext, tState := (mt.addNext dep).tState
    minminDe := (mt.addDemin dep).minminDe, minFed := (mt.addDemin dep).minFed
    minDe := min mt.minDe dep.Te } := by
  unfold addRecord
  rw [addTe_frame, addNext_frame, addDemin_frame]

/-- The state of the record that set the smallest next time, or of a granted one at that time. -/
structure StateOf (ds : List DependencyInfo) (mt : MinTimeSet) : Prop where
  next : mt.minNext = smallest Tnext ds
  granted : mt.tState = .timeGranted ↔ ∃ d ∈ attaining Tnext ds, d.timeState = .timeGranted
  source : mt.minNext < .maxVal → ∃ d ∈ attaining Tnext ds, d.timeState = mt.tState
  idle : mt.minNext = .maxVal → mt.tState ≠ .timeGranted → mt.tState = .timeRequested

/-- The record that alone attains the smallest dependent event time, while all are trusted. -/
structure MinFedOf (ds : List DependencyInfo) (mt : MinTimeSet) : Prop where
  demin : mt.minminDe = smallest Tdemin ds
  single : ∀ d, attaining Tdemin ds = [d] → mt.minminDe < .maxVal → mt.minFed = d.fedID
  tied : (∀ d, attaining Tdemin ds ≠ [d]) ∨ mt.minminDe = .maxVal → mt.minFed = invalidGlobalId

variable {mt dep}

theorem StateOf.step (h : StateOf ds mt) : StateOf (ds ++ [dep]) (mt.addNext dep) := by
  unfold addNext
  rw [h.next]
  obtain hd | hd | hd := lt_trichotomy dep.Tnext (smallest Tnext ds)
  · rw [if_pos hd]
    have ha := attaining_concat_lt hd
    refine ⟨?_, ?_, fun _ => ?_, fun hm => absurd hm (hd.trans_le (Time.le_maxVal _)).ne⟩
    · rw [smallest_concat, min_eq_right hd.le]
    · simp [ha]
    · simp [ha]
  · rw [if_neg hd.not_lt]
    have ha := attaining_concat_eq hd
    have hn : smallest Tnext ds = smallest Tnext (ds ++ [dep]) := by
      rw [smallest_concat, min_eq_left hd.ge]
    split
    · rename_i hg
      refine ⟨hn, ?_, fun _ => ?_, fun _ hne => absurd hg.2 hne⟩
      · simp [ha, hg.2]
      · exact ⟨dep, ha ▸ List.mem_append_right _ (List.mem_singleton.mpr rfl), rfl⟩
    · rename_i hg
      have hg : dep.timeState ≠ .timeGranted := fun he => hg ⟨hd, he⟩
      refine ⟨h.next.trans hn, ?_, fun hm => ?_, h.idle⟩
      · simp [ha, hg, h.granted]
      · obtain ⟨d, hd, hs⟩ := h.source hm
        exact ⟨d, ha ▸ List.mem_append_left _ hd, hs⟩
  · rw [if_neg hd.not_gt, if_neg fun he => hd.ne' he.1]
    have ha := attaining_concat_gt hd
    refine ⟨?_, ha ▸ h.granted, ha ▸ h.source, h.idle⟩
    rw [smallest_concat, min_eq_left hd.le, h.next]

theorem MinFedOf.step (h : MinFedOf ds mt) (ht : dep.trusted = true) :
    MinFedOf (ds ++ [dep]) (mt.addDemin dep) := by
  unfold addDemin
  rw [if_pos (of_decide_eq_true ht), h.demin]
  obtain hd | hd | hd := lt_trichotomy dep.Tdemin (smallest Tdemin ds)
  · rw [if_pos hd]
    have ha := attaining_concat_lt hd
    refine ⟨?_, fun d he _ => ?_, ?_⟩
    · rw [smallest_concat, min_eq_right hd.le]
    · rw [List.singleton_inj.mp (ha.symm.trans he)]
    · rintro (hn | hm)
      · exact absurd ha (hn dep)
      · exact absurd hm (hd.trans_le (Time.le_maxVal _)).ne
  · rw [if_neg hd.not_lt, if_pos hd]
    have ha := attaining_concat_eq hd
    refine ⟨?_, fun d he hm => ?_, fun _ => rfl⟩
    · rw [smallest_concat, min_eq_left hd.ge]
    · -- the smallest value was attained before, so that this record is not the only one
      have hl := congrArg List.length (ha.symm.trans he)
      rw [List.length_append] at hl
      have hp := List.length_pos_iff.mpr (attaining_ne_nil hm)
      simp only [List.length_singleton] at hl
      omega
  · rw [if_neg hd.not_gt, if_neg hd.ne']
    have ha := attaining_concat_gt hd
    refine ⟨?_, ha ▸ h.single, ha ▸ h.tied⟩
    rw [smallest_concat, min_eq_left hd.le, h.demin]

theorem minima_concat : minima (ds ++ [dep]) = (minima ds).addRecord dep :=
  List.foldl_concat ..

theorem minima_minDe (ds : List DependencyInfo) : (minima ds).minDe = smallest Te ds := by
  induction ds using List.reverseRecOn with
  | nil => rfl
  | append_singleton ds d ih => rw [minima_concat, addRecord_eq, smallest_concat, ← ih]

theorem minima_stateOf (ds : List DependencyInfo) : StateOf ds (minima ds) := by
  induction ds using List.reverseRecOn with
  | nil => exact ⟨rfl, by simp [attaining, minima], fun h => absurd h (lt_irrefl _), fun _ _ => rfl⟩
  | append_singleton ds d ih =>
    have h : StateOf (ds ++ [d]) ((minima ds).addNext d) := ih.step
    rw [minima_concat, addRecord_eq]
    exact ⟨h.next, h.granted, h.source, h.idle⟩

theorem minima_minFedOf (h : ∀ d ∈ ds, d.trusted = true) : MinFedOf ds (minima ds) := by
  induction ds using List.reverseRecOn with
  | nil => exact ⟨rfl, fun _ h => absurd h (List.cons_ne_nil _ _).symm, fun _ => rfl⟩
  | append_singleton ds d ih =>
    have hd := h d (List.mem_append_right _ (List.mem_singleton.mpr rfl))
    have h := (ih fun d hd => h d (List.mem_append_left _ hd)).step hd
    rw [minima_concat, addRecord_eq]
    exact ⟨h.demin, h.single, h.tied⟩

theorem addDemin_minminDe (mt : MinTimeSet) (dep : DependencyInfo) : (mt.addDemin dep).minminDe =
    if dep.trusted then min mt.minminDe dep.Tdemin else .untrusted := by
  unfold addDemin
  by_cases ht : dep.trusted = true
  · rw [if_pos (of_decide_eq_true ht), if_pos ht]
    split
    · rename_i h
      exact (min_eq_right h.le).symm
    · rename_i h
      rw [min_eq_left (not_lt.mp h)]
      split <;> rfl
  · rw [if_neg fun h => ht (decide_eq_true h), if_neg ht]

/-- The marker of an untrusted record can only be replaced by the records after it. -/
theorem minima_untrusted (h : ¬ ∀ d ∈ ds, d.trusted = true) :
    (minima ds).minminDe = min .untrusted (smallest Tdemin (ds.rtakeWhile trusted)) := by
  induction ds using List.reverseRecOn with
  | nil => exact absurd (by simp) h
  | append_singleton ds d ih =>
    have hmin : (minima (ds ++ [d])).minminDe = ((minima ds).addDemin d).minminDe := by
      rw [minima_concat, addRecord_eq]
    rw [hmin, addDemin_minminDe]
    by_cases hd : d.trusted = true
    · have hds : ¬ ∀ d ∈ ds, d.trusted = true := fun hds => h fun e he => by
        obtain he | he := List.mem_append.mp he
        · exact hds e he
        · exact List.mem_singleton.mp he ▸ hd
      rw [if_pos hd, ih hds, List.rtakeWhile_concat_pos _ _ _ hd, smallest_concat, min_assoc]
    · rw [if_neg hd, List.rtakeWhile_concat_neg _ _ _ hd]
      exact (min_eq_left (Time.le_maxVal _)).symm

def deminOf (ds : List DependencyInfo) : Time :=
  if ∀ d ∈ ds, d.trusted = true then smallest Tdemin ds
  else min .untrusted (smallest Tdemin (ds.rtakeWhile trusted))

theorem minima_minminDe (ds : List DependencyInfo) : (minima ds).minminDe = deminOf ds := by
  unfold deminOf
  split
  · rename_i h
    exact (minima_minFedOf h).demin
  · rename_i h
    exact minima_untrusted h

theorem finish_minNext (mt : MinTimeSet) : mt.finish.minNext =
    if mt.finish.minminDe < .maxVal then max mt.minNext mt.finish.minminDe else mt.minNext := by
  unfold finish
  dsimp only
  by_cases hm : min mt.minDe mt.minminDe < .maxVal
  · rw [if_pos hm]
    split
    · rename_i h
      exact (max_eq_right h.2.le).symm
    · rename_i h
      exact (max_eq_left (not_lt.mp fun hlt => h ⟨hm, hlt⟩)).symm
  · rw [if_neg hm, if_neg fun h => hm h.1]

theorem MinFedOf.demin_single (h : MinFedOf ds mt) (hd : attaining Tdemin ds = [d]) :
    d.Tdemin = mt.minminDe := by
  have hmem : d ∈ attaining Tdemin ds := hd ▸ List.mem_singleton.mpr rfl
  rw [h.demin, (mem_attaining.mp hmem).2]

theorem MinFedOf.valid_iff (h : MinFedOf ds mt) : mt.minFed ≠ invalidGlobalId ↔
    ∃ d, attaining Tdemin ds = [d] ∧ d.Tdemin < .maxVal ∧ d.fedID ≠ invalidGlobalId := by
  constructor
  · intro hv
    obtain ⟨hs, hm⟩ := not_or.mp fun ho => hv (h.tied ho)
    obtain ⟨d, hd⟩ := not_forall_not.mp hs
    have hlt := lt_of_le_of_ne (Time.le_maxVal _) hm
    exact ⟨d, hd, h.demin_single hd ▸ hlt, h.single d hd hlt ▸ hv⟩
  · rintro ⟨d, hd, hlt, hv⟩
    rwa [h.single d hd (h.demin_single hd ▸ hlt)]

theorem MinFedOf.perm (h : MinFedOf ds mt) (h' : MinFedOf ds' mt') (hp : ds'.Perm ds) :
    mt'.minFed = mt.minFed := by
  have ha := attaining_perm Tdemin ds hp
  have hmin : mt'.minminDe = mt.minminDe := by rw [h'.demin, h.demin, smallest_perm _ _ hp]
  by_cases ho : (∀ d, attaining Tdemin ds ≠ [d]) ∨ mt.minminDe = .maxVal
  · rw [h.tied ho]
    refine h'.tied (ho.imp (fun hn d hd => ?_) hmin.trans)
    rw [hd] at ha
    exact hn d (List.singleton_perm.mp ha).symm
  · obtain ⟨hs, hm⟩ := not_or.mp ho
    obtain ⟨d, hd⟩ := not_forall_not.mp hs
    have hlt := lt_of_le_of_ne (Time.le_maxVal _) hm
    rw [hd] at ha
    rw [h.single d hd hlt, h'.single d (List.perm_singleton.mp ha) (hmin ▸ hlt)]

theorem StateOf.perm (h : StateOf ds mt) (h' : StateOf ds' mt') (hp : ds'.Perm ds) :
    mt'.tState = mt.tState ∨ (mt'.tState ≠ .timeGranted ∧ mt.tState ≠ .timeGranted ∧
      ∃ d ∈ attaining Tnext ds, ∃ d' ∈ attaining Tnext ds,
        d.timeState = mt.tState ∧ d'.timeState = mt'.tState) := by
  have ha := attaining_perm Tnext ds hp
  have hmin : mt'.minNext = mt.minNext := by rw [h'.next, h.next, smallest_perm _ _ hp]
  have hg : mt'.tState = .timeGranted ↔ mt.tState = .timeGranted := by
    rw [h'.granted, h.granted]
    simp only [ha.mem_iff]
  by_cases hs : mt.tState = .timeGranted
  · exact .inl ((hg.mpr hs).trans hs.symm)
  have hs' : mt'.tState ≠ .timeGranted := fun he => hs (hg.mp he)
  by_cases hm : mt.minNext = .maxVal
  · exact .inl ((h'.idle (hmin.trans hm) hs').trans (h.idle hm hs).symm)
  have hlt := lt_of_le_of_ne (Time.le_maxVal _) hm
  obtain ⟨d, hd, he⟩ := h.source hlt
  obtain ⟨d', hd', he'⟩ := h'.source (hmin ▸ hlt)
  exact .inr ⟨hs', hs, d, hd, d', ha.mem_iff.mp hd', he, he'⟩

/-- What the summary of a list of records is, and that the order of trusted records only decides
between the states of records that are not granted. -/
theorem ofRecords_summary (ignore : GlobalId) (l : List DependencyInfo) :
    let ds := considered ignore l
    let s := ofRecords ignore l
    s.minDe = smallest Te ds ∧
    s.minminDe = min s.minDe (deminOf ds) ∧
    s.minNext = (if s.minminDe < .maxVal then max (smallest Tnext ds) s.minminDe
      else smallest Tnext ds) ∧
    (s.tState = .timeGranted ↔ ∃ d ∈ attaining Tnext ds, d.timeState = .timeGranted) ∧
    ((∀ d ∈ ds, d.trusted = true) →
      (s.minFed ≠ invalidGlobalId ↔ ∃ d, attaining Tdemin ds = [d] ∧ d.Tdemin < .maxVal ∧
        d.fedID ≠ invalidGlobalId) ∧
      (∀ d, attaining Tdemin ds = [d] → d.Tdemin < .maxVal → s.minFed = d.fedID) ∧
      ∀ l' : List DependencyInfo, l'.Perm l →
        let s' := ofRecords ignore l'
        s'.minNext = s.minNext ∧ s'.minminDe = s.minminDe ∧ s'.minDe = s.minDe ∧
        s'.minFed = s.minFed ∧
        (s'.tState = s.tState ∨ (s'.tState ≠ .timeGranted ∧ s.tState ≠ .timeGranted ∧
          ∃ d ∈ attaining Tnext ds, ∃ d' ∈ attaining Tnext ds,
            d.timeState = s.tState ∧ d'.timeState = s'.tState))) := by
  rw [ofRecords_eq]
  have hstate := minima_stateOf (considered ignore l)
  have hevent := minima_minDe (considered ignore l)
  have hdemin := minima_minminDe (considered ignore l)
  have hnext := finish_minNext (minima (considered ignore l))
  refine ⟨hevent, congrArg (min _) hdemin, hstate.next ▸ hnext, hstate.granted, fun ht => ?_⟩
  have hfed := minima_minFedOf ht
  refine ⟨hfed.valid_iff, fun d hd hlt => hfed.single d hd (hfed.demin_single hd ▸ hlt),
    fun l' hp => ?_⟩
  rw [ofRecords_eq]
  have hp : (considered ignore l').Perm (considered ignore l) := hp.filter _
  have hfed' := minima_minFedOf fun d hd => ht d (hp.mem_iff.mp hd)
  have hstate' := minima_stateOf (considered ignore l')
  have hde : (minima (considered ignore l')).minDe = (minima (considered ignore l)).minDe := by
    rw [minima_minDe, hevent, smallest_perm _ _ hp]
  have hmm : (minima (considered ignore l')).finish.minminDe =
      (minima (considered ignore l)).finish.minminDe :=
    congrArg₂ min hde (by rw [hfed'.demin, hfed.demin, smallest_perm _ _ hp])
  refine ⟨?_, hmm, hde, (hfed.perm hfed' hp :), (hstate.perm hstate' hp :)⟩
  rw [finish_minNext, hnext, hmm, hstate'.next, hstate.next, smallest_perm _ _ hp]

def markerReplaced : List DependencyInfo :=
  [{ fedID := 131073, Tnext := .zero, Te := .zero, Tdemin := .untrusted },
    { fedID := 131074, Tnext := .wrap (-3000000000), Te := .zero, Tdemin := .wrap (-2000000000) }]

/-- The later record replaces the marker, although no event is before minus one second. -/
theorem marker_replaced :
    (∃ d ∈ markerReplaced, d.Tdemin < d.Tnext) ∧ (∀ d ∈ markerReplaced, .untrusted ≤ d.Te) ∧
      (ofRecords invalidGlobalId markerReplaced).minminDe ≠ .untrusted ∧
      (ofRecords invalidGlobalId markerReplaced.reverse).minminDe = .untrusted := by
  decide

open DependencyInfo

variable {ignore : GlobalId} {l : List DependencyInfo}

theorem mem_considered (he : e ∈ l) (hne : e.fedID ≠ ignore) : e ∈ considered ignore l :=
  List.mem_filter.mpr ⟨he, decide_eq_true hne⟩

theorem minNext_le_smallest (ignore : GlobalId) (l : List DependencyInfo) :
    (ofRecords ignore l).minNext ≤ max (smallest Tnext (considered ignore l))
      (min (smallest Te (considered ignore l)) (deminOf (considered ignore l))) := by
  rw [ofRecords_eq, finish_minNext, (minima_stateOf _).next, ← minima_minDe, ← minima_minminDe]
  split
  · rfl
  · exact le_max_left _ _

theorem minNext_le (ignore : GlobalId) (l : List DependencyInfo) : (∀ e ∈ l, e.fedID ≠ ignore →
      (ofRecords ignore l).minNext ≤ max e.Tnext (min e.Te e.Tdemin)) ∨
      ((∃ e ∈ l, e.Tdemin < e.Tnext) ∧ (ofRecords ignore l).minNext ≤ .untrusted) := by
  have hle := minNext_le_smallest ignore l
  by_cases ht : ∀ d ∈ considered ignore l, d.trusted = true
  · rw [deminOf, if_pos ht] at hle
    refine .inl fun e he hne => hle.trans ?_
    have he := mem_considered he hne
    exact max_le_max (smallest_le he) (min_le_min (smallest_le he) (smallest_le he))
  rw [deminOf, if_neg ht] at hle
  obtain h | h := le_max_iff.mp hle
  · exact .inl fun e he hne =>
      h.trans ((smallest_le (mem_considered he hne)).trans (le_max_left _ _))
  · simp only [not_forall, exists_prop] at ht
    obtain ⟨e, he, hlt⟩ := ht
    have hlt : e.Tdemin < e.Tnext := not_le.mp fun h => hlt (decide_eq_true h)
    exact .inr ⟨⟨e, List.mem_of_mem_filter he, hlt⟩,
      h.trans ((min_le_right _ _).trans (min_le_left _ _))⟩

theorem not_granted_of_tState (hs : (ofRecords ignore l).tState ≠ .timeGranted) (he : e ∈ l)
    (hne : e.fedID ≠ ignore) (hmin : ∀ e' ∈ l, e.Tnext ≤ e'.Tnext) :
    e.timeState ≠ .timeGranted := by
  rw [ofRecords_eq] at hs
  have he := mem_considered he hne
  refine fun hg => hs ((minima_stateOf _).granted.mpr ⟨e, mem_attaining.mpr ⟨he, ?_⟩, hg⟩)
  refine le_antisymm (le_smallest fun e' he' => ?_) (smallest_le he)
  exact hmin e' (List.mem_of_mem_filter he')

end MinTimeSet

theorem MinTimeSet.finish_settled (mt : MinTimeSet) :
    ¬ (mt.finish.minminDe < .maxVal ∧ mt.finish.minNext < mt.finish.minminDe) := by
  unfold finish
  dsimp only
  split
  · exact fun h => lt_irrefl _ h.2
  · assumption

namespace ForwardingTimeCoordinator

variable (c : ForwardingTimeCoordinator)

theorem generateTimeRequestIgnoreDependency_spec (msg : ActionMessage) (iFed : GlobalId) :
    (c.generateTimeRequestIgnoreDependency msg iFed).destId = iFed ∧
      (c.generateTimeRequestIgnoreDependency msg iFed).actionTime =
        (generateMinTimeSet c.dependencies iFed).minNext ∧
      ((c.generateTimeRequestIgnoreDependency msg iFed).messageAction = .cmdTimeRequest →
        (generateMinTimeSet c.dependencies iFed).tState ≠ .timeGranted) := by
  unfold generateTimeRequestIgnoreDependency
  dsimp only
  split
  all_goals simp_all

variable {c}

theorem mem_transmitTimingMessage (h : m ∈ c.transmitTimingMessage msg) : ∃ dep,
      m = { msg with destId := dep } ∨ m = c.generateTimeRequestIgnoreDependency msg dep := by
  unfold transmitTimingMessage at h
  split at h
  · obtain ⟨dep, _, hm⟩ := List.mem_filterMap.mp h
    unfold timingMessageFor at hm
    refine ⟨dep, ?_⟩
    split at hm
    · split at hm
      · exact .inr (Option.some.inj hm).symm
      · split at hm
        · cases hm
        · exact .inl (Option.some.inj hm).symm
    · exact .inl (Option.some.inj hm).symm
  · obtain ⟨dep, _, rfl⟩ := List.mem_map.mp h
    exact ⟨dep, .inl rfl⟩

theorem timeRequestMessage_spec (c : ForwardingTimeCoordinator) :
    c.timeRequestMessage.actionTime = c.timeNext ∧
      (c.timeRequestMessage.messageAction = .cmdTimeRequest → c.timeState ≠ .timeGranted) := by
  unfold timeRequestMessage
  split
  · exact ⟨rfl, fun h => by cases h⟩
  · rename_i h
    exact ⟨rfl, fun _ => h⟩

theorem mem_updateTimeFactors (h : m ∈ c.updateTimeFactors.2) :
    ∃ ignore, (ignore = m.destId ∨ ignore = invalidGlobalId) ∧
      m.actionTime = (generateMinTimeSet c.dependencies ignore).minNext ∧
      (m.messageAction = .cmdTimeRequest →
        (generateMinTimeSet c.dependencies ignore).tState ≠ .timeGranted) := by
  unfold updateTimeFactors at h
  split at h
  · obtain ⟨dep, rfl | rfl⟩ := mem_transmitTimingMessage h
    · obtain ⟨ht, hs⟩ := c.withTimeFactors.timeRequestMessage_spec
      exact ⟨invalidGlobalId, .inr rfl, ht.trans (if_neg (finish_settled _)), hs⟩
    · obtain ⟨hd, ht, hs⟩ := c.withTimeFactors.generateTimeRequestIgnoreDependency_spec
        c.withTimeFactors.timeRequestMessage dep
      exact ⟨dep, .inl hd.symm, ht, hs⟩
  · cases h

theorem mem_receive (h : m ∈ (c.receive cmd).2) :
    ∃ c' : ForwardingTimeCoordinator, m ∈ c'.updateTimeFactors.2 ∧
      (c.receive cmd).1 = c'.withTimeFactors := by
  unfold receive at h ⊢
  by_cases hc : isTimingCommand cmd.messageAction
  · rw [if_pos hc] at h ⊢
    by_cases hp : (c.processTimeMessage cmd).1
    · rw [if_pos hp] at h ⊢
      exact ⟨_, h, rfl⟩
    · rw [if_neg hp] at h
      cases h
  · rw [if_neg hc] at h
    split at h <;> cases h

/-- No timing message of a run promises a time that a dependency may still precede. -/
theorem receive_promise (c : ForwardingTimeCoordinator) (cmds : List ActionMessage)
    (cmd m : ActionMessage) (hm : m ∈ ((c.receiveAll cmds).receive cmd).2) :
    ((∀ e ∈ ((c.receiveAll cmds).receive cmd).1.dependencies.entries,
      e.fedID ≠ m.destId → e.fedID ≠ invalidGlobalId →
        m.actionTime ≤ max e.Tnext (min e.Te e.Tdemin)) ∨
      ((∃ e ∈ ((c.receiveAll cmds).receive cmd).1.dependencies.entries, e.Tdemin < e.Tnext) ∧
        m.actionTime ≤ .untrusted)) ∧ (m.messageAction = .cmdTimeRequest →
      ∀ e ∈ ((c.receiveAll cmds).receive cmd).1.dependencies.entries,
        e.fedID ≠ m.destId → e.fedID ≠ invalidGlobalId →
        (∀ e' ∈ ((c.receiveAll cmds).receive cmd).1.dependencies.entries, e.Tnext ≤ e'.Tnext) →
        e.timeState ≠ .timeGranted) := by
  obtain ⟨c', hm', heq⟩ := mem_receive hm
  rw [heq]
  obtain ⟨ignore, hi, ht, hs⟩ := mem_updateTimeFactors hm'
  have hkeep : ∀ e : DependencyInfo, e.fedID ≠ m.destId → e.fedID ≠ invalidGlobalId →
      e.fedID ≠ ignore := by
    intro e hd hv
    obtain rfl | rfl := hi
    · exact hd
    · exact hv
  refine ⟨?_, fun hr e he hd hv hmin =>
    not_granted_of_tState (hs hr) he (hkeep e hd hv) hmin⟩
  rw [ht]
  obtain h | h := minNext_le ignore c'.dependencies.entries
  · exact .inl fun e he hd hv => h e he (hkeep e hd hv)
  · exact .inr h

def negativeTimes : List ActionMessage :=
  [{ messageAction := .cmdAddDependency, sourceId := 131073 },
    { messageAction := .cmdAddDependency, sourceId := 131074 },
    { messageAction := .cmdAddDependent, sourceId := 131075 },
    { messageAction := .cmdTimeRequest, sourceId := 131073, actionTime := .wrap (-6000000000),
      Te := .wrap 10000000000, Tdemin := .wrap (-5000000000) }]

def invalidDemin : ActionMessage :=
  { messageAction := .cmdTimeRequest, sourceId := 131074, actionTime := .zero,
    Te := .wrap 5000000000, Tdemin := .wrap (-2000000000) }

def negativeTimesRequest : ActionMessage :=
  { messageAction := .cmdTimeRequest, sourceId := 1, destId := 131075, actionTime := .untrusted,
    Te := .wrap 5000000000, Tdemin := .untrusted }

/-- The marker of the second dependency lifts the announced time above the first one. -/
theorem marker_exceeds_negative_time : negativeTimesRequest ∈
      ((receiveAll { sourceId := 1, executionMode := true } negativeTimes).receive
        invalidDemin).2 ∧
    ∃ e ∈ ((receiveAll { sourceId := 1, executionMode := true } negativeTimes).receive
        invalidDemin).1.dependencies.entries, e.fedID ≠ negativeTimesRequest.destId ∧
      max e.Tnext (min e.Te e.Tdemin) < negativeTimesRequest.actionTime := by
  decide

theorem receive_promise_marker :
    (∃ e ∈ ((receiveAll { sourceId := 1, executionMode := true } negativeTimes).receive
        invalidDemin).1.dependencies.entries, e.Tdemin < e.Tnext) ∧
      negativeTimesRequest.actionTime ≤ .untrusted := by
  obtain ⟨h | h, _⟩ := receive_promise { sourceId := 1, executionMode := true } negativeTimes
    invalidDemin negativeTimesRequest (by decide)
  · exact absurd h (by decide)
  · exact h

end ForwardingTimeCoordinator

end Helics
