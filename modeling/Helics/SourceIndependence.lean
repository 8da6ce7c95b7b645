import Helics.ValueSelection

namespace Helics

namespace InputQueues

open QueueScan

def updateSource (onlyUpdateOnChange : Bool) (u : QueueScan) (t : Time) (s : InputSource) :
    Bool × InputSource :=
  match u.take t s.queue with
  | none => (false, s)
  | some (last, rest) =>
    ((updateData onlyUpdateOnChange s.current last).1,
      { s with current := (updateData onlyUpdateOnChange s.current last).2, queue := rest })

theorem update_alone (u : QueueScan) (inp : InputQueues) (s : InputSource) (t : Time) :
    update u { inp with sources := [s] } t =
      ((updateSource inp.onlyUpdateOnChange u t s).1,
        { inp with sources := [(updateSource inp.onlyUpdateOnChange u t s).2] }) := by
  unfold update updateSources updateSource
  cases u.take t s.queue with
  | none => rfl
  | some p =>
    dsimp only [updateSources]
    rw [Bool.false_or]

theorem updateSource_of_not_due (h : ¬ Due t s.queue) (only : Bool)
    (u : QueueScan) : updateSource only u t s = (false, s) := by
  unfold updateSource
  rw [(u.take_eq_none_iff t s.queue).mpr h]

theorem updateSource_ne (h : Due t s.queue) (only : Bool) (u : QueueScan) :
    (updateSource only u t s).2 ≠ s := by
  obtain ⟨r, l, hq, ht⟩ := h
  obtain ⟨rest, hu, hrest⟩ := u.take_due hq ht
  intro heq
  unfold updateSource at heq
  rw [hu] at heq
  have hlen : rest.records.length = s.queue.records.length :=
    congrArg (fun s => s.queue.records.length) heq
  have hle := (u.suffix t r l).length_le
  rw [hrest, hq, List.length_cons] at hlen
  omega

/-- What the loop over the sources does, up to the first one that has nothing to take. -/
inductive Stopped (only : Bool) (u : QueueScan) (t : Time) (updated : Bool)
    (l : List InputSource) (r : Bool × List InputSource) : Prop
  | through (hdue : ∀ s ∈ l, Due t s.queue)
      (hr : r = (updated || l.any (fun s => (updateSource only u t s).1),
        l.map fun s => (updateSource only u t s).2))
  | stopped (pre : List InputSource) (s : InputSource) (post : List InputSource)
      (hl : l = pre ++ s :: post) (hdue : ∀ s ∈ pre, Due t s.queue) (hs : ¬ Due t s.queue)
      (hr : r = (false, pre.map (fun s => (updateSource only u t s).2) ++ s :: post))

theorem updateSources_stopped (only : Bool) (u : QueueScan) (t : Time) (updated : Bool)
    (l : List InputSource) : Stopped only u t updated l (updateSources only u t updated l) := by
  induction l generalizing updated with
  | nil => exact .through (fun _ hs => absurd hs List.not_mem_nil) (by simp [updateSources])
  | cons s l ih =>
    by_cases hdue : Due t s.queue
    · have htake : u.take t s.queue ≠ none := fun h => (u.take_eq_none_iff t s.queue).mp h hdue
      obtain ⟨⟨last, rest⟩, hu⟩ := Option.ne_none_iff_exists'.mp htake
      have hone : updateSource only u t s = ((updateData only s.current last).1,
          { s with current := (updateData only s.current last).2, queue := rest }) := by
        unfold updateSource
        rw [hu]
      have hstep : updateSources only u t updated (s :: l) =
          ((updateSources only u t (updated || (updateSource only u t s).1) l).1,
            (updateSource only u t s).2 ::
              (updateSources only u t (updated || (updateSource only u t s).1) l).2) := by
        rw [hone, updateSources, hu]
      rw [hstep]
      cases ih (updated || (updateSource only u t s).1) with
      | through hall hr =>
        refine .through (fun x hx => ?_) ?_
        · obtain rfl | hx := List.mem_cons.mp hx
          · exact hdue
          · exact hall x hx
        · rw [hr, List.any_cons, List.map_cons, Bool.or_assoc]
      | stopped pre x post hl hpre hx hr =>
        refine .stopped (s :: pre) x post (by rw [hl]; rfl) (fun y hy => ?_) hx ?_
        · obtain rfl | hy := List.mem_cons.mp hy
          · exact hdue
          · exact hpre y hy
        · rw [hr]
          rfl
    · refine .stopped [] s l rfl (fun _ h => absurd h List.not_mem_nil) hdue ?_
      unfold updateSources
      rw [(u.take_eq_none_iff t s.queue).mpr hdue]
      rfl

/-- Each source ends as if it were the only one, and the flags are combined. -/
structure Independent (u : QueueScan) (inp : InputQueues) (t : Time) : Prop where
  sources : (update u inp t).2.sources =
    inp.sources.flatMap fun s => (update u { inp with sources := [s] } t).2.sources
  flag : (update u inp t).1 = inp.sources.any fun s => (update u { inp with sources := [s] } t).1

/-- The source has a value, and the last record that the scan of its queue reaches carries the same
data. -/
def SameData (u : QueueScan) (t : Time) (s : InputSource) : Prop :=
  s.current.data ≠ none ∧
    ∃ r l, s.queue.records = r :: l ∧ (u.scan t r l).1.data = s.current.data

/-- The sources that have something to take come first. If others follow them, only changes are
reported and they bring none. -/
def DueFirst (u : QueueScan) (inp : InputQueues) (t : Time) : Prop :=
  ∃ pre post, inp.sources = pre ++ post ∧ (∀ s ∈ pre, Due t s.queue) ∧
    (∀ s ∈ post, ¬ Due t s.queue) ∧
    (post = [] ∨ ∀ s ∈ pre, inp.onlyUpdateOnChange = true ∧ SameData u t s)

theorem updateData_eq_false_iff (only : Bool) (current update : DataRecord) :
    (updateData only current update).1 = false ↔
      only = true ∧ current.data ≠ none ∧ update.data = current.data := by
  unfold updateData
  cases only with
  | false => exact iff_of_false nofun nofun
  | true =>
    by_cases hnone : current.data = none
    · rw [decide_eq_true hnone]
      exact iff_of_false nofun fun h => h.2.1 hnone
    rw [decide_eq_false hnone, if_neg nofun]
    by_cases hne : current.data = update.data
    · rw [if_neg (not_not.mpr hne)]
      exact iff_of_true (by split <;> rfl) ⟨rfl, hnone, hne.symm⟩
    · rw [if_pos hne]
      exact iff_of_false nofun fun h => hne h.2.2.symm

theorem updateSource_quiet_iff (h : Due t s.queue) (only : Bool) (u : QueueScan) :
    (updateSource only u t s).1 = false ↔ only = true ∧ SameData u t s := by
  obtain ⟨r, l, hq, ht⟩ := h
  obtain ⟨rest, hu, -⟩ := u.take_due hq ht
  unfold updateSource
  rw [hu]
  rw [updateData_eq_false_iff]
  refine and_congr_right fun _ => and_congr_right fun _ => ⟨fun hd => ⟨r, l, hq, hd⟩, ?_⟩
  rintro ⟨r', l', hq', hd⟩
  cases hq.symm.trans hq'
  exact hd

theorem independent_iff_single (u : QueueScan) (inp : InputQueues) (t : Time) :
    Independent u inp t ↔ updateSources inp.onlyUpdateOnChange u t false inp.sources =
        (inp.sources.any fun s => (updateSource inp.onlyUpdateOnChange u t s).1,
          inp.sources.map fun s => (updateSource inp.onlyUpdateOnChange u t s).2) := by
  have hmap : (inp.sources.flatMap fun s => (update u { inp with sources := [s] } t).2.sources) =
      inp.sources.map fun s => (updateSource inp.onlyUpdateOnChange u t s).2 := by
    rw [List.map_eq_flatMap]
    refine congrArg (inp.sources.flatMap ·) (funext fun s => ?_)
    rw [update_alone]
  have hany : (inp.sources.any fun s => (update u { inp with sources := [s] } t).1) =
      inp.sources.any fun s => (updateSource inp.onlyUpdateOnChange u t s).1 := by
    refine congrArg (inp.sources.any ·) (funext fun s => ?_)
    rw [update_alone]
  constructor
  · intro h
    exact Prod.ext (h.flag.trans hany) (h.sources.trans hmap)
  · intro h
    exact ⟨(congrArg Prod.snd h).trans hmap.symm, (congrArg Prod.fst h).trans hany.symm⟩

/-- The sources of an input do not disturb each other exactly if no source that has something to
take comes after one that has not, and a change is not reported in front of one. -/
theorem independent_iff (u : QueueScan) (inp : InputQueues) (t : Time) :
    Independent u inp t ↔ DueFirst u inp t := by
  rw [independent_iff_single]
  cases updateSources_stopped inp.onlyUpdateOnChange u t false inp.sources with
  | through hdue hr =>
    refine iff_of_true (by rw [hr, Bool.false_or]) ?_
    exact ⟨inp.sources, [], (List.append_nil _).symm, hdue,
      fun _ h => absurd h List.not_mem_nil, .inl rfl⟩
  | stopped pre s post hl hdue hs hr =>
    rw [hr, hl]
    constructor
    · intro h
      obtain ⟨hflag, hsources⟩ := Prod.mk.inj h
      rw [List.map_append, List.append_cancel_left_eq] at hsources
      refine ⟨pre, s :: post, hl, hdue, fun x hx hd => ?_, .inr fun x hx => ?_⟩
      · have hsame : ∀ y ∈ s :: post, (updateSource inp.onlyUpdateOnChange u t y).2 = y :=
          List.map_inj_left.mp (hsources.symm.trans (List.map_id' _).symm)
        exact updateSource_ne hd _ u (hsame x hx)
      · have hno := List.any_eq_false.mp hflag.symm x (List.mem_append_left _ hx)
        exact (updateSource_quiet_iff (hdue x hx) _ u).mp (Bool.eq_false_iff.mpr hno)
    · rintro ⟨pre', post', hl', hdue', hnot', hflags⟩
      -- the sources that have something to take are the same in both splits
      have hpre : pre' = pre ∧ post' = s :: post := by
        have hsplit : pre' ++ post' = pre ++ s :: post := hl'.symm.trans hl
        obtain ⟨c, hc, hc'⟩ | ⟨c, hc, hc'⟩ := List.append_eq_append_iff.mp hsplit
        · cases c with
          | nil =>
            rw [List.append_nil] at hc
            exact ⟨hc.symm, hc'⟩
          | cons x c =>
            have hx : x ∈ post' := by
              rw [hc']
              exact List.mem_cons_self
            have hx' : x ∈ pre := by
              rw [hc]
              exact List.mem_append_right _ List.mem_cons_self
            exact absurd (hdue x hx') (hnot' x hx)
        · cases c with
          | nil =>
            rw [List.append_nil] at hc
            exact ⟨hc, hc'.symm⟩
          | cons x c =>
            have hx : s ∈ pre' := by
              rw [hc, (List.cons.inj hc').1]
              exact List.mem_append_right _ List.mem_cons_self
            exact absurd (hdue' s hx) hs
      obtain ⟨rfl, rfl⟩ := hpre
      have hquiet := hflags.resolve_left (List.cons_ne_nil _ _)
      have hpost : ∀ x ∈ s :: post,
          updateSource inp.onlyUpdateOnChange u t x = (false, x) := fun x hx =>
        updateSource_of_not_due (hnot' x hx) _ u
      refine Prod.ext ?_ ?_
      · refine (List.any_eq_false.mpr fun x hx => ?_).symm
        obtain hx | hx := List.mem_append.mp hx
        · exact Bool.eq_false_iff.mp ((updateSource_quiet_iff (hdue x hx) _ u).mpr (hquiet x hx))
        · rw [hpost x hx]
          exact Bool.false_ne_true
      · dsimp only
        have hsame : (s :: post).map (fun x => (updateSource inp.onlyUpdateOnChange u t x).2) =
            s :: post :=
          (List.map_congr_left fun x hx => congrArg Prod.snd (hpost x hx)).trans (List.map_id' _)
        rw [List.map_append, hsame]

/-- The three updates of an input. -/
theorem sources_independent_iff (inp : InputQueues) (t : Time) :
    (Independent .upTo inp t ↔ DueFirst .upTo inp t) ∧
      (Independent .inclusive inp t ↔ DueFirst .inclusive inp t) ∧
      (Independent .nextIteration inp t ↔ DueFirst .nextIteration inp t) :=
  ⟨independent_iff _ inp t, independent_iff _ inp t, independent_iff _ inp t⟩

def quietSource : InputSource := { id := ⟨131074, 1⟩ }

/-- A source without values keeps the value of the next source from becoming current. -/
theorem empty_source_blocks_next :
    let inp : InputQueues := { handle := 1, sources := [quietSource, receivedSource valueAt5] }
    inp.updateTimeInclusive (.wrap 5) = (false, inp) ∧
      (updateTimeInclusive { inp with sources := [receivedSource valueAt5] } (.wrap 5)).1 = true ∧
      ¬ Independent .inclusive inp (.wrap 5) := by
  refine ⟨by decide, by decide, fun h => absurd h.flag (by decide)⟩

end InputQueues

end Helics
