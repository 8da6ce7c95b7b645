import Helics.InputQueues

namespace Helics

open ListRuns DataRecord

namespace QueueScan

def Due (t : Time) (q : ValueQueue) : Prop := ∃ r l, q.records = r :: l ∧ r.time ≤ t

variable (u : QueueScan)

theorem take_nil (t : Time) (hq : q.records = []) : u.take t q = none := by
  obtain ⟨records, sorted⟩ := q
  cases hq
  rfl

theorem take_late (hq : q.records = r :: l) (ht : t < r.time) : u.take t q = none := by
  obtain ⟨records, sorted⟩ := q
  cases hq
  exact if_pos ht

theorem take_due (hq : q.records = r :: l) (ht : r.time ≤ t) :
    ∃ rest, u.take t q = some ((u.scan t r l).1, rest) ∧ rest.records = (u.scan t r l).2 := by
  obtain ⟨records, sorted⟩ := q
  cases hq
  exact ⟨_, if_neg (not_lt.mpr ht), rfl⟩

theorem take_eq_none_iff (t : Time) (q : ValueQueue) : u.take t q = none ↔ ¬ Due t q := by
  cases hq : q.records with
  | nil =>
    refine iff_of_true (u.take_nil t hq) ?_
    rintro ⟨r, l, hr, -⟩
    cases hq.symm.trans hr
  | cons r l =>
    by_cases ht : r.time ≤ t
    · obtain ⟨rest, hrest, -⟩ := u.take_due hq ht
      refine iff_of_false (by rw [hrest]; exact nofun) fun h => h ⟨r, l, hq, ht⟩
    refine iff_of_true (u.take_late hq (not_le.mp ht)) ?_
    rintro ⟨r', l', hr, ht'⟩
    cases hq.symm.trans hr
    exact ht ht'

end QueueScan

namespace InputQueues

/-- An update takes the picked records from the only source and makes the last of them current. -/
structure Selects (inp : InputQueues) (s : InputSource) (pick : DataRecord → Bool)
    (r : Bool × InputQueues) : Prop where
  flag : r.1 = true ↔ ∃ x ∈ s.queue.records, pick x = true
  input : r.2 = { inp with sources := [{ s with
    current := (s.queue.records.filter pick).getLast?.getD s.current
    queue := s.queue.filter fun x => !pick x }] }

variable {inp : InputQueues} {s : InputSource} {u : QueueScan}

section
variable (hs : inp.sources = [s])
include hs

theorem update_none (hu : u.take t s.queue = none) : update u inp t = (false, inp) := by
  unfold update
  rw [hs]
  unfold updateSources
  rw [hu]
  rw [← hs]

theorem update_some (hc : inp.onlyUpdateOnChange = false)
    (hu : u.take t s.queue = some (last, rest)) :
    update u inp t = (true, { inp with
      sources := [{ s with current := last, queue := rest }] }) := by
  unfold update
  rw [hs]
  unfold updateSources
  rw [hu, hc]
  rfl

theorem selects_none (hu : u.take t s.queue = none)
    (hp : ∀ x ∈ s.queue.records, pick x = false) : Selects inp s pick (update u inp t) := by
  rw [update_none hs hu]
  have hnil : s.queue.records.filter pick = [] :=
    List.filter_eq_nil_iff.mpr fun x hx => Bool.eq_false_iff.mp (hp x hx)
  have hall : s.queue.filter (fun x => !pick x) = s.queue := by
    apply ValueQueue.ext
    exact List.filter_eq_self.mpr fun x hx => by rw [hp x hx]; rfl
  refine ⟨iff_of_false Bool.false_ne_true ?_, ?_⟩
  · rintro ⟨x, hx, hpick⟩
    exact Bool.false_ne_true ((hp x hx).symm.trans hpick)
  · have heq : inp = { inp with sources := [s] } := by rw [← hs]
    rw [hnil, hall]
    exact heq

theorem selects_some (hc : inp.onlyUpdateOnChange = false)
    (hu : u.take t s.queue = some (last, rest)) : Selects inp s pick (update u inp t) ↔
      some last = (s.queue.records.filter pick).getLast? ∧
        rest.records = s.queue.records.filter fun x => !pick x := by
  rw [update_some hs hc hu]
  constructor
  · intro h
    obtain ⟨x, hx, hpick⟩ := h.flag.mp rfl
    have hsrc : ({ s with current := last, queue := rest } : InputSource) = { s with
        current := (s.queue.records.filter pick).getLast?.getD s.current
        queue := s.queue.filter fun x => !pick x } := by
      have hlist := congrArg InputQueues.sources h.input
      exact (List.cons.inj hlist).1
    have hlast : last = (s.queue.records.filter pick).getLast?.getD s.current :=
      congrArg InputSource.current hsrc
    refine ⟨?_, congrArg (fun s => s.queue.records) hsrc⟩
    cases hget : (s.queue.records.filter pick).getLast? with
    | none =>
      have hmem : x ∈ s.queue.records.filter pick := List.mem_filter.mpr ⟨hx, hpick⟩
      rw [List.getLast?_eq_none_iff.mp hget] at hmem
      exact absurd hmem List.not_mem_nil
    | some y =>
      rw [hget] at hlast
      exact congrArg some hlast
  · rintro ⟨hlast, hrest⟩
    have hmem := List.mem_of_getLast? hlast.symm
    have hq : rest = s.queue.filter fun x => !pick x := ValueQueue.ext hrest
    refine ⟨iff_of_true rfl ⟨last, List.mem_filter.mp hmem⟩, ?_⟩
    rw [← hlast, hq]
    rfl

end

theorem leading_upTo (q : ValueQueue) (t : Time) : Leading (isUpTo t) q.records :=
  q.sorted.imp fun hab hb => isUpTo_iff.mpr (hab.time.trans (isUpTo_iff.mp hb))

theorem leading_before (q : ValueQueue) (t : Time) : Leading (isBefore t) q.records :=
  q.sorted.imp fun hab hb => isBefore_iff.mpr (hab.time.trans_lt (isBefore_iff.mp hb))

variable {q : ValueQueue}

theorem time_le_of_mem (hq : q.records = r :: l) (hx : x ∈ q.records) : r.time ≤ x.time := by
  rw [hq] at hx
  obtain rfl | hx := List.mem_cons.mp hx
  · exact le_rfl
  · have hsorted := q.sorted
    rw [hq] at hsorted
    exact ((List.pairwise_cons.mp hsorted).1 x hx).time

theorem filter_before_eq_nil (hq : q.records = r :: l) (ht : t ≤ r.time) :
    q.records.filter (isBefore t) = [] :=
  List.filter_eq_nil_iff.mpr fun _ hx hlt =>
    absurd (isBefore_iff.mp hlt) (not_lt.mpr (ht.trans (time_le_of_mem hq hx)))

theorem selects_inclusive (hs : inp.sources = [s]) (hc : inp.onlyUpdateOnChange = false)
    (t : Time) :
    Selects inp s (isUpTo t) (inp.updateTimeInclusive t) := by
  cases hq : s.queue.records with
  | nil =>
    refine selects_none hs (QueueScan.take_nil _ t hq) fun x hx => ?_
    rw [hq] at hx
    exact absurd hx List.not_mem_nil
  | cons r l =>
    by_cases ht : r.time ≤ t
    · obtain ⟨rest, hu, hrest⟩ := QueueScan.inclusive.take_due hq ht
      refine (selects_some hs hc hu).mpr ?_
      rw [hrest, hq]
      exact Leading.scan (hq ▸ leading_upTo s.queue t) (isUpTo_iff.mpr ht)
    · refine selects_none hs (QueueScan.take_late _ hq (not_le.mp ht)) fun x hx => ?_
      exact decide_eq_false (not_le.mpr ((not_le.mp ht).trans_le (time_le_of_mem hq hx)))

theorem selects_upTo_iff (hs : inp.sources = [s]) (hc : inp.onlyUpdateOnChange = false)
    (t : Time) : Selects inp s (isBefore t) (inp.updateTimeUpTo t) ↔
      ∀ r, s.queue.records.head? = some r → r.time ≠ t := by
  cases hq : s.queue.records with
  | nil =>
    refine iff_of_true (selects_none hs (QueueScan.take_nil _ t hq) fun x hx => ?_)
      fun r hr => by cases hr
    rw [hq] at hx
    exact absurd hx List.not_mem_nil
  | cons r l =>
    obtain ht | ht | ht := lt_trichotomy r.time t
    · refine iff_of_true ?_ fun r' hr' => Option.some.inj hr' ▸ ht.ne
      obtain ⟨rest, hu, hrest⟩ := QueueScan.upTo.take_due hq ht.le
      refine (selects_some hs hc hu).mpr ?_
      rw [hrest, hq]
      exact Leading.scan (hq ▸ leading_before s.queue t) (isBefore_iff.mpr ht)
    · refine iff_of_false ?_ fun h => h r rfl ht
      obtain ⟨rest, hu, -⟩ := QueueScan.upTo.take_due hq ht.le
      intro hsel
      obtain ⟨hlast, -⟩ := (selects_some hs hc hu).mp hsel
      rw [filter_before_eq_nil hq ht.ge] at hlast
      cases hlast
    · refine iff_of_true ?_ fun r' hr' => Option.some.inj hr' ▸ ht.ne'
      refine selects_none hs (QueueScan.take_late _ hq ht) fun x hx => ?_
      exact decide_eq_false (not_lt.mpr (ht.le.trans (time_le_of_mem hq hx)))

def firstIteration (q : ValueQueue) (t : Time) (x : DataRecord) : Bool :=
  isBefore t x || (isAt t x &&
    q.records.all fun y => decide (y.time = t → x.iteration ≤ y.iteration))

def atIteration (t : Time) (i : Nat) (x : DataRecord) : Bool :=
  isAt t x && decide (x.iteration = i)

theorem atIteration_iff : atIteration t i x = true ↔ x.time = t ∧ x.iteration = i := by
  unfold atIteration
  rw [Bool.and_eq_true_iff, isAt_iff, decide_eq_true_iff]

theorem atIteration_eq_false (h : ¬ x.time = t) (i : Nat) : atIteration t i x = false :=
  Bool.eq_false_iff.mpr fun hx => h (atIteration_iff.mp hx).1

def firstAt (q : ValueQueue) (t : Time) : Option DataRecord := (q.records.filter (isAt t)).head?

theorem firstAt_eq_none_iff : firstAt q t = none ↔ ∀ x ∈ q.records, ¬ x.time = t := by
  unfold firstAt
  rw [List.head?_eq_none_iff, List.filter_eq_nil_iff]
  simp only [isAt_iff]

theorem firstAt_least (ha : firstAt q t = some a) :
    a ∈ q.records ∧ a.time = t ∧ ∀ y ∈ q.records, y.time = t → a.iteration ≤ y.iteration := by
  obtain ⟨l, hl⟩ := List.head?_eq_some_iff.mp ha
  have hmem : a ∈ q.records.filter (isAt t) := by
    rw [hl]
    exact List.mem_cons_self
  obtain ⟨hamem, hatime⟩ := List.mem_filter.mp hmem
  have hatime := isAt_iff.mp hatime
  have hsorted := q.sorted.filter (isAt t)
  rw [hl] at hsorted
  refine ⟨hamem, hatime, fun y hy hyt => ?_⟩
  have hmem : y ∈ a :: l := hl ▸ List.mem_filter.mpr ⟨hy, isAt_iff.mpr hyt⟩
  obtain rfl | hmem := List.mem_cons.mp hmem
  · exact le_rfl
  · exact ((List.pairwise_cons.mp hsorted).1 y hmem).iteration (hatime.trans hyt.symm)

theorem firstIteration_eq (ha : firstAt q t = some a) (x : DataRecord) (hx : x ∈ q.records) :
    firstIteration q t x = (isBefore t x || atIteration t a.iteration x) := by
  obtain ⟨hamem, hatime, hleast⟩ := firstAt_least ha
  unfold firstIteration atIteration
  by_cases hxt : x.time = t
  · have hiff : (q.records.all fun y => decide (y.time = t → x.iteration ≤ y.iteration)) =
        decide (x.iteration = a.iteration) := by
      rw [Bool.eq_iff_iff, List.all_eq_true, decide_eq_true_iff]
      constructor
      · intro hall
        exact le_antisymm (of_decide_eq_true (hall a hamem) hatime) (hleast x hx hxt)
      · intro heq y hy
        exact decide_eq_true fun hyt => heq ▸ hleast y hy hyt
    rw [hiff]
  · have hno : isAt t x = false := decide_eq_false hxt
    rw [hno, Bool.false_and, Bool.false_and]

theorem firstIteration_eq_before (ha : firstAt q t = none) (x : DataRecord)
    (hx : x ∈ q.records) : firstIteration q t x = isBefore t x := by
  have hno : isAt t x = false := decide_eq_false (firstAt_eq_none_iff.mp ha x hx)
  unfold firstIteration
  rw [hno, Bool.false_and, Bool.or_false]

theorem nextIteration_scan (t : Time) (r : DataRecord) (l : List DataRecord) :
    QueueScan.nextIteration.scan t r l =
      scan (atIteration t (scan (isBefore t) r l).1.iteration) (scan (isBefore t) r l).1
        (scan (isBefore t) r l).2 := by
  unfold QueueScan.nextIteration
  dsimp only
  generalize scan (isBefore t) r l = p
  obtain ⟨last, rest⟩ := p
  cases rest with
  | nil => rfl
  | cons x rest =>
    dsimp only
    split
    · rfl
    · rename_i hx
      unfold scan
      rw [if_neg (by rw [atIteration_eq_false hx]; exact Bool.false_ne_true)]

theorem firstAt_head (ha : firstAt q t = some a) :
    ∃ l, (q.records.filter fun x => !isBefore t x) = a :: l := by
  have hsame : (q.records.filter fun x => !isBefore t x).filter (isAt t) =
      q.records.filter (isAt t) := by
    rw [List.filter_filter]
    refine List.filter_congr fun x _ => ?_
    cases hx : isAt t x with
    | true =>
      rw [isBefore_of_isAt hx]
      rfl
    | false => rfl
  have hsorted := q.sorted.filter fun x => !isBefore t x
  have hge : ∀ x ∈ q.records.filter (fun x => !isBefore t x), t ≤ x.time := fun x hx =>
    not_isBefore_iff.mp (List.mem_filter.mp hx).2
  unfold firstAt at ha
  rw [← hsame] at ha
  generalize (q.records.filter fun x => !isBefore t x) = rest at ha hsorted hge
  cases rest with
  | nil => cases ha
  | cons x rest =>
    cases hx : isAt t x with
    | true =>
      rw [List.filter_cons_of_pos hx] at ha
      exact ⟨rest, by rw [Option.some.inj ha]⟩
    | false =>
      obtain ⟨hmem, hat⟩ := List.mem_filter.mp (List.mem_of_mem_head? ha)
      have hat := isAt_iff.mp hat
      have hlt : t < x.time :=
        lt_of_le_of_ne (hge x List.mem_cons_self) (Ne.symm (of_decide_eq_false hx))
      obtain rfl | hmem := List.mem_cons.mp hmem
      · exact absurd hat hlt.ne'
      · have hle := ((List.pairwise_cons.mp hsorted).1 a hmem).time
        exact absurd (hlt.trans_le hle) (hat ▸ lt_irrefl _)

theorem leading_atIteration (ha : ∀ a, firstAt q t = some a → i = a.iteration) :
    Leading (atIteration t i) (q.records.filter fun x => !isBefore t x) := by
  have hsorted := q.sorted.filter fun x => !isBefore t x
  refine hsorted.imp_of_mem fun {x y} hx hy hxy hpy => ?_
  obtain ⟨hyt, hyi⟩ := atIteration_iff.mp hpy
  obtain ⟨hxq, hxt⟩ := List.mem_filter.mp hx
  have hxt : x.time = t := le_antisymm (hyt ▸ hxy.time) (not_isBefore_iff.mp hxt)
  have hle : i ≤ x.iteration := by
    cases hfirst : firstAt q t with
    | none => exact absurd hxt (firstAt_eq_none_iff.mp hfirst x hxq)
    | some a =>
      rw [ha a hfirst]
      exact (firstAt_least hfirst).2.2 x hxq hxt
  have hge : x.iteration ≤ i := hyi ▸ hxy.iteration (hxt.trans hyt.symm)
  exact atIteration_iff.mpr ⟨hxt, le_antisymm hge hle⟩

def SameIteration (q : ValueQueue) (t : Time) : Prop :=
  ∀ b a, (q.records.filter (isBefore t)).getLast? = some b → firstAt q t = some a →
    b.iteration = a.iteration

theorem filter_split
    (h : ∀ x ∈ q.records, p x = p' x) : q.records.filter p = q.records.filter p' ∧
      (q.records.filter fun x => !p x) = q.records.filter fun x => !p' x :=
  ⟨List.filter_congr h, List.filter_congr fun x hx => congrArg not (h x hx)⟩

theorem nextIteration_before (hq : q.records = r :: l) (ht : r.time < t) :
    (some (QueueScan.nextIteration.scan t r l).1 =
          (q.records.filter (firstIteration q t)).getLast? ∧
        (QueueScan.nextIteration.scan t r l).2 =
          q.records.filter fun x => !firstIteration q t x) ↔ SameIteration q t := by
  have hlead : Leading (isBefore t) (r :: l) := hq ▸ leading_before q t
  obtain ⟨hlast, hrest⟩ := hlead.scan (isBefore_iff.mpr ht)
  rw [nextIteration_scan]
  by_cases hsame : SameIteration q t
  · refine iff_of_true ?_ hsame
    generalize hb : (scan (isBefore t) r l).1.iteration = i
    have hi : ∀ a, firstAt q t = some a → i = a.iteration := by
      intro a ha
      rw [← hb]
      refine hsame _ a ?_ ha
      rw [hq]
      exact hlast.symm
    have hpick : ∀ x ∈ q.records, firstIteration q t x = (isBefore t x || atIteration t i x) := by
      intro x hx
      cases hfirst : firstAt q t with
      | none =>
        have hxt := firstAt_eq_none_iff.mp hfirst x hx
        rw [firstIteration_eq_before hfirst x hx, atIteration_eq_false hxt, Bool.or_false]
      | some a => rw [firstIteration_eq hfirst x hx, hi a hfirst]
    obtain ⟨htaken, hkept⟩ := filter_split hpick
    rw [htaken, hkept, hq]
    exact hlead.scan_scan (isBefore_iff.mpr ht) (hq ▸ leading_atIteration hi)
  · refine iff_of_false ?_ hsame
    rintro ⟨-, hkept⟩
    unfold SameIteration at hsame
    push Not at hsame
    obtain ⟨b, a, hb, ha, hne⟩ := hsame
    obtain ⟨l', hl'⟩ := firstAt_head ha
    obtain ⟨hamem, hatime, -⟩ := firstAt_least ha
    rw [hq] at hb hl'
    have hfirst : (scan (isBefore t) r l).1 = b := Option.some.inj (hlast.trans hb)
    have hstop : atIteration t b.iteration a ≠ true := fun h => hne (atIteration_iff.mp h).2.symm
    -- the scan stops at the first record at the time, which should be taken
    rw [hfirst, hrest, hl'] at hkept
    unfold scan at hkept
    rw [if_neg hstop] at hkept
    have hmem : a ∈ q.records.filter fun x => !firstIteration q t x := by
      rw [← hkept]
      exact List.mem_cons_self
    have hpick : firstIteration q t a = true := by
      rw [firstIteration_eq ha a hamem, atIteration_iff.mpr ⟨hatime, rfl⟩, Bool.or_true]
    have hnot := (List.mem_filter.mp hmem).2
    rw [hpick] at hnot
    cases hnot

theorem nextIteration_at (hq : q.records = r :: l) (ht : r.time = t) :
    some (QueueScan.nextIteration.scan t r l).1 = (q.records.filter (firstIteration q t)).getLast? ∧
      (QueueScan.nextIteration.scan t r l).2 = q.records.filter fun x => !firstIteration q t x := by
  have hnot : ∀ x ∈ r :: l, isBefore t x = false := fun x hx =>
    decide_eq_false (not_lt.mpr (ht ▸ time_le_of_mem hq (hq ▸ hx)))
  have hscan : scan (isBefore t) r l = (r, l) := by
    cases l with
    | nil => rfl
    | cons x l =>
      have hx := hnot x (List.mem_cons_of_mem _ List.mem_cons_self)
      unfold scan
      rw [if_neg (Bool.eq_false_iff.mp hx)]
  have hfirst : firstAt q t = some r := by
    unfold firstAt
    rw [hq, List.filter_cons_of_pos (isAt_iff.mpr ht)]
    rfl
  have hlead : Leading (atIteration t r.iteration) (r :: l) := by
    have h := leading_atIteration (q := q) (t := t) (i := r.iteration) fun a ha =>
      congrArg DataRecord.iteration (Option.some.inj (hfirst.symm.trans ha))
    have hall : (q.records.filter fun x => !isBefore t x) = r :: l := by
      rw [hq]
      exact List.filter_eq_self.mpr fun x hx => by rw [hnot x hx]; rfl
    rwa [hall] at h
  have hpick : ∀ x ∈ q.records, firstIteration q t x = atIteration t r.iteration x := by
    intro x hx
    rw [firstIteration_eq hfirst x hx, hnot x (hq ▸ hx), Bool.false_or]
  obtain ⟨htaken, hkept⟩ := filter_split hpick
  rw [nextIteration_scan, hscan, htaken, hkept, hq]
  exact hlead.scan (atIteration_iff.mpr ⟨ht, rfl⟩)

/-- The records of the next iteration are taken exactly if the last record before the time has the
iteration of the first one at it. -/
theorem selects_nextIteration_iff (hs : inp.sources = [s]) (hc : inp.onlyUpdateOnChange = false)
    (t : Time) : Selects inp s (firstIteration s.queue t) (inp.updateTimeNextIteration t) ↔
      SameIteration s.queue t := by
  cases hq : s.queue.records with
  | nil =>
    refine iff_of_true (selects_none hs (QueueScan.take_nil _ t hq) fun x hx => ?_) ?_
    · rw [hq] at hx
      exact absurd hx List.not_mem_nil
    · intro b a hb
      rw [hq] at hb
      cases hb
  | cons r l =>
    obtain ht | ht | ht := lt_trichotomy r.time t
    · obtain ⟨rest, hu, hrest⟩ := QueueScan.nextIteration.take_due hq ht.le
      have hsel : Selects inp s (firstIteration s.queue t) (inp.updateTimeNextIteration t) ↔ _ :=
        selects_some hs hc hu
      rw [hsel, hrest]
      exact nextIteration_before hq ht
    · obtain ⟨rest, hu, hrest⟩ := QueueScan.nextIteration.take_due hq ht.le
      refine iff_of_true ((selects_some hs hc hu).mpr ?_) ?_
      · rw [hrest]
        exact nextIteration_at hq ht
      · intro b a hb
        rw [filter_before_eq_nil hq ht.ge] at hb
        cases hb
    · have hlate : ∀ x ∈ s.queue.records, t < x.time := fun x hx =>
        ht.trans_le (time_le_of_mem hq hx)
      refine iff_of_true (selects_none hs (QueueScan.take_late _ hq ht) fun x hx => ?_) ?_
      · have hlt := hlate x hx
        unfold firstIteration isBefore isAt
        rw [decide_eq_false (not_lt.mpr hlt.le), decide_eq_false hlt.ne']
        rfl
      · intro b a hb
        rw [filter_before_eq_nil hq ht.le] at hb
        cases hb

/-- What the three updates of an input with one source do. -/
theorem selection_iff (inp : InputQueues) (s : InputSource) (hs : inp.sources = [s])
    (hc : inp.onlyUpdateOnChange = false) (t : Time) :
    Selects inp s (isUpTo t) (inp.updateTimeInclusive t) ∧
      (Selects inp s (isBefore t) (inp.updateTimeUpTo t) ↔
        ∀ r, s.queue.records.head? = some r → r.time ≠ t) ∧
      (Selects inp s (firstIteration s.queue t) (inp.updateTimeNextIteration t) ↔
        SameIteration s.queue t) :=
  ⟨selects_inclusive hs hc t, selects_upTo_iff hs hc t, selects_nextIteration_iff hs hc t⟩

def receivedSource (values : List DataRecord) : InputSource where
  id := ⟨131073, 1⟩
  queue := values.foldl ValueQueue.store {}

def receivedInput (values : List DataRecord) : InputQueues where
  handle := 1
  sources := [receivedSource values]

def valueAt5 : List DataRecord := [⟨.wrap 5, 0, some "a"⟩]

def valuesAt3And5 (i : Nat) : List DataRecord :=
  [⟨.wrap 3, 0, some "a"⟩, ⟨.wrap 5, i, some "b"⟩]

/-- The value at 5 is taken by an update up to 5, and an update of the next iteration at 5 leaves
the value of iteration 1 behind that of iteration 0 at 3. -/
theorem selection_at_five :
    ¬ Selects (receivedInput valueAt5) (receivedSource valueAt5) (isBefore (.wrap 5))
        ((receivedInput valueAt5).updateTimeUpTo (.wrap 5)) ∧
      ((receivedInput valueAt5).updateTimeUpTo (.wrap 5)).1 = true ∧
      ¬ Selects (receivedInput (valuesAt3And5 1)) (receivedSource (valuesAt3And5 1))
        (firstIteration (receivedSource (valuesAt3And5 1)).queue (.wrap 5))
        ((receivedInput (valuesAt3And5 1)).updateTimeNextIteration (.wrap 5)) ∧
      ((receivedInput (valuesAt3And5 1)).updateTimeNextIteration (.wrap 5)).2.sources.map
        (fun s => s.queue.records) = [[⟨.wrap 5, 1, some "b"⟩]] := by
  refine ⟨fun h => ?_, by decide, fun h => ?_, by decide⟩
  · exact absurd (h.flag.mp (by decide)) (by decide)
  · have hinput := congrArg (fun i => i.sources.map fun s => s.queue.records) h.input
    exact absurd hinput (by decide)

theorem selection_before_five :
    Selects (receivedInput (valuesAt3And5 0)) (receivedSource (valuesAt3And5 0))
      (isBefore (.wrap 5)) ((receivedInput (valuesAt3And5 0)).updateTimeUpTo (.wrap 5)) := by
  refine (selection_iff _ _ rfl rfl (.wrap 5)).2.1.mpr fun r hr => ?_
  cases hr
  decide

end InputQueues

end Helics
