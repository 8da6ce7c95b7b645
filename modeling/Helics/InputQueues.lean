import Helics.ActionMessage
import Helics.ListRuns
import Mathlib.Data.List.DropRight

namespace Helics

open ListRuns

structure DataRecord where
  time : Time := .minVal
  iteration : Nat := 0
  data : Option String := none
deriving DecidableEq

namespace DataRecord

def before (a b : DataRecord) : Bool :=
  if a.time < b.time then true else if a.time = b.time then decide (a.iteration < b.iteration)
  else false

theorem before_iff (a b : DataRecord) :
    a.before b = true ↔ a.time < b.time ∨ a.time = b.time ∧ a.iteration < b.iteration := by
  unfold before
  split
  · rename_i h
    exact iff_of_true rfl (.inl h)
  rename_i h
  split
  · rename_i he
    rw [decide_eq_true_iff, or_iff_right h, and_iff_right he]
  · rename_i he
    exact iff_of_false Bool.false_ne_true (not_or.mpr ⟨h, fun h' => he h'.1⟩)

def isBefore (t : Time) (x : DataRecord) : Bool := decide (x.time < t)

def isUpTo (t : Time) (x : DataRecord) : Bool := decide (x.time ≤ t)

def isAt (t : Time) (x : DataRecord) : Bool := decide (x.time = t)

theorem isBefore_iff : isBefore t x = true ↔ x.time < t := decide_eq_true_iff

theorem isUpTo_iff : isUpTo t x = true ↔ x.time ≤ t := decide_eq_true_iff

theorem isAt_iff : isAt t x = true ↔ x.time = t := decide_eq_true_iff

theorem not_isBefore_iff : (!isBefore t x) = true ↔ t ≤ x.time := by
  rw [Bool.not_eq_true', ← Bool.not_eq_true, isBefore_iff, not_lt]

theorem isBefore_of_isAt (h : isAt t x = true) : isBefore t x = false :=
  decide_eq_false (not_lt.mpr (isAt_iff.mp h).ge)

def Le (a b : DataRecord) : Prop := b.before a = false

theorem not_before_iff (a b : DataRecord) : (!b.before a) = true ↔ a.Le b := by
  unfold Le
  rw [Bool.not_eq_true']

theorem le_iff (a b : DataRecord) :
    a.Le b ↔ a.time < b.time ∨ a.time = b.time ∧ a.iteration ≤ b.iteration := by
  unfold Le
  rw [← Bool.not_eq_true, before_iff, Time.lt_def, Time.lt_def, Time.eq_def, Time.eq_def]
  omega

theorem Le.time (h : Le a b) : a.time ≤ b.time := by
  obtain h | h := (le_iff a b).mp h
  · exact h.le
  · exact h.1.le

theorem Le.iteration (h : Le a b) (ht : a.time = b.time) : a.iteration ≤ b.iteration := by
  obtain h | h := (le_iff a b).mp h
  · exact absurd ht h.ne
  · exact h.2

theorem Le.trans (h : Le a b) (h' : Le b c) : Le a c := by
  rw [le_iff, Time.lt_def, Time.eq_def] at h h' ⊢
  omega

theorem le_of_before (h : before a b = true) : Le a b := by
  rw [before_iff, Time.lt_def, Time.eq_def] at h
  rw [le_iff, Time.lt_def, Time.eq_def]
  omega

end DataRecord

structure ValueQueue where
  records : List DataRecord := []
  sorted : records.Pairwise DataRecord.Le := by exact List.Pairwise.nil

namespace ValueQueue

@[ext] theorem ext {q q' : ValueQueue} (h : q.records = q'.records) : q = q' := by
  cases q
  cases q'
  cases h
  rfl

instance : DecidableEq ValueQueue := fun q q' =>
  if h : q.records = q'.records then isTrue (ext h) else isFalse fun he => h (he ▸ rfl)

/-- Where `upper_bound` puts a record: before the first one that it precedes. -/
def insertRecord (r : DataRecord) (l : List DataRecord) : List DataRecord :=
  l.takeWhile (fun x => !r.before x) ++ r :: l.dropWhile (fun x => !r.before x)

theorem perm_insertRecord (r : DataRecord) (l : List DataRecord) :
    (insertRecord r l).Perm (r :: l) := by
  unfold insertRecord
  refine List.perm_middle.trans ?_
  rw [List.takeWhile_append_dropWhile]

variable {l : List DataRecord}

section
variable (h : l.Pairwise DataRecord.Le)
include h

theorem leading_not_before (r : DataRecord) :
    Leading (fun x => !r.before x) l := by
  refine h.imp fun {a b} hab hb => ?_
  exact (DataRecord.not_before_iff a r).mpr (hab.trans ((DataRecord.not_before_iff b r).mp hb))

theorem sorted_insertRecord (r : DataRecord) :
    (insertRecord r l).Pairwise DataRecord.Le := by
  have hlead := leading_not_before h r
  unfold insertRecord
  rw [hlead.takeWhile, hlead.dropWhile]
  have hpre : ∀ a ∈ l.filter (fun x => !r.before x), a.Le r := fun a ha =>
    (DataRecord.not_before_iff a r).mp (List.mem_filter.mp ha).2
  have hpost : ∀ b ∈ l.filter (fun x => !!r.before x), r.Le b := fun b hb =>
    DataRecord.le_of_before (by simpa using (List.mem_filter.mp hb).2)
  refine List.pairwise_append.mpr ⟨h.filter _, List.pairwise_cons.mpr ⟨hpost, h.filter _⟩, ?_⟩
  intro a ha b hb
  obtain rfl | hb := List.mem_cons.mp hb
  · exact hpre a ha
  · exact (hpre a ha).trans (hpost b hb)

theorem sorted_push
    (hl : l.getLast? = none ∨ ∃ b, l.getLast? = some b ∧ b.time < r.time) :
    (l ++ [r]).Pairwise DataRecord.Le := by
  refine List.pairwise_append.mpr ⟨h, List.pairwise_singleton _ _, fun a ha r' hr' => ?_⟩
  obtain rfl := List.mem_singleton.mp hr'
  obtain hnone | ⟨b, hb, hlt⟩ := hl
  · rw [List.getLast?_eq_none_iff.mp hnone] at ha
    exact absurd ha List.not_mem_nil
  refine (DataRecord.le_iff _ _).mpr (.inl (lt_of_le_of_lt ?_ hlt))
  obtain ⟨l', rfl⟩ := List.getLast?_eq_some_iff.mp hb
  obtain ha | ha := List.mem_append.mp ha
  · exact ((List.pairwise_append.mp h).2.2 a ha b (List.mem_singleton.mpr rfl)).time
  · exact (List.mem_singleton.mp ha) ▸ le_rfl

end

def store (q : ValueQueue) (r : DataRecord) : ValueQueue :=
  if h : q.records.getLast? = none ∨ ∃ b, q.records.getLast? = some b ∧ b.time < r.time then
    ⟨q.records ++ [r], sorted_push q.sorted h⟩
  else ⟨insertRecord r q.records, sorted_insertRecord q.sorted r⟩

theorem perm_store (q : ValueQueue) (r : DataRecord) :
    (q.store r).records.Perm (r :: q.records) := by
  unfold store
  split
  · exact List.perm_append_singleton r q.records
  · exact perm_insertRecord r q.records

def dropAfter (q : ValueQueue) (minTime : Time) : ValueQueue :=
  ⟨q.records.rdropWhile fun r => decide (minTime < r.time),
    q.sorted.sublist (List.rdropWhile_prefix _ _).sublist⟩

def filter (q : ValueQueue) (p : DataRecord → Bool) : ValueQueue :=
  ⟨q.records.filter p, q.sorted.filter p⟩

def rest (q : ValueQueue) {l : List DataRecord} (h : l <:+ q.records) : ValueQueue :=
  ⟨l, q.sorted.sublist h.sublist⟩

end ValueQueue

structure QueueScan where
  scan : Time → DataRecord → List DataRecord → DataRecord × List DataRecord
  suffix : ∀ t r l, (scan t r l).2 <:+ l

namespace QueueScan

def upTo : QueueScan where
  scan newTime := ListRuns.scan (DataRecord.isBefore newTime)
  suffix _ _ _ := scan_suffix _ _ _

def inclusive : QueueScan where
  scan newTime := ListRuns.scan (DataRecord.isUpTo newTime)
  suffix _ _ _ := scan_suffix _ _ _

/-- The records before the time, and then those at the time with the iteration of the last one. -/
def nextIteration : QueueScan where
  scan newTime r l :=
    let s := ListRuns.scan (DataRecord.isBefore newTime) r l
    match s.2 with
    | [] => s
    | x :: _ =>
      if x.time = newTime then
        ListRuns.scan (fun y => DataRecord.isAt newTime y && decide (y.iteration = s.1.iteration))
          s.1 s.2
      else s
  suffix t r l := by
    have hs := scan_suffix (DataRecord.isBefore t) r l
    dsimp only
    split
    · exact hs
    · split
      · exact (scan_suffix _ _ _).trans hs
      · exact hs

/-- The record that becomes current and the records that stay; nothing happens to a queue that is
empty or starts after the time. -/
def take (u : QueueScan) (newTime : Time) (q : ValueQueue) : Option (DataRecord × ValueQueue) :=
  match h : q.records with
  | [] => none
  | r :: l =>
    if newTime < r.time then none
    else some ((u.scan newTime r l).1,
      q.rest (h ▸ (u.suffix newTime r l).trans (List.suffix_cons r l)))

end QueueScan

structure InputSource where
  id : GlobalHandle
  deactivated : Time := .maxVal
  current : DataRecord := {}
  queue : ValueQueue := {}
deriving DecidableEq

structure InputQueues where
  handle : InterfaceHandle
  onlyUpdateOnChange : Bool := false
  notInterruptible : Bool := false
  sources : List InputSource := []
deriving DecidableEq

namespace InputQueues

/-- The first entry of the source takes the record unless it was deactivated before. -/
def addDataTo (source : GlobalHandle) (r : DataRecord) : List InputSource → List InputSource
  | [] => []
  | s :: l =>
    if s.id = source then
      if s.deactivated < r.time then s :: l else { s with queue := s.queue.store r } :: l
    else s :: addDataTo source r l

def addData (inp : InputQueues) (source : GlobalHandle) (valueTime : Time) (iteration : Nat)
    (data : String) : InputQueues :=
  { inp with sources := addDataTo source ⟨valueTime, iteration, some data⟩ inp.sources }

def addSource (inp : InputQueues) (newSource : GlobalHandle) : InputQueues :=
  { inp with sources := inp.sources ++ [{ id := newSource }] }

def removeSource (inp : InputQueues) (sourceToRemove : GlobalHandle) (minTime : Time) :
    InputQueues :=
  { inp with sources := inp.sources.map fun s =>
      if s.id = sourceToRemove then
        { s with queue := s.queue.dropAfter minTime, deactivated := minTime }
      else s }

/-- The new current record of a source, and whether it counts as a change. -/
def updateData (onlyUpdateOnChange : Bool) (current update : DataRecord) : Bool × DataRecord :=
  if !onlyUpdateOnChange || decide (current.data = none) then (true, update)
  else if current.data ≠ update.data then (true, update)
  else if current.time = update.time then (false, { current with iteration := update.iteration })
  else (false, current)

/-- The loop over the sources, which ends at the first one that has nothing to take. -/
def updateSources (onlyUpdateOnChange : Bool) (u : QueueScan) (newTime : Time) :
    Bool → List InputSource → Bool × List InputSource
  | updated, [] => (updated, [])
  | updated, s :: l =>
    match u.take newTime s.queue with
    | none => (false, s :: l)
    | some (last, rest) =>
      let res := updateData onlyUpdateOnChange s.current last
      let tail := updateSources onlyUpdateOnChange u newTime (updated || res.1) l
      (tail.1, { s with current := res.2, queue := rest } :: tail.2)

def update (u : QueueScan) (inp : InputQueues) (newTime : Time) : Bool × InputQueues :=
  let r := updateSources inp.onlyUpdateOnChange u newTime false inp.sources
  (r.1, { inp with sources := r.2 })

def updateTimeUpTo (inp : InputQueues) (newTime : Time) : Bool × InputQueues :=
  update .upTo inp newTime

def updateTimeInclusive (inp : InputQueues) (newTime : Time) : Bool × InputQueues :=
  update .inclusive inp newTime

def updateTimeNextIteration (inp : InputQueues) (newTime : Time) : Bool × InputQueues :=
  update .nextIteration inp newTime

end InputQueues

end Helics
