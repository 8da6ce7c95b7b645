import Helics.InputQueues
import Helics.Invariants
import Mathlib.Data.List.Forall2

namespace Helics

open ListRuns ValueQueue DataRecord

inductive InputOp where
  | addSource (newSource : GlobalHandle)
  | addData (source : GlobalHandle) (valueTime : Time) (iteration : Nat) (data : String)
  | removeSource (source : GlobalHandle) (minTime : Time)
  | updateTimeUpTo (newTime : Time)
  | updateTimeNextIteration (newTime : Time)
  | updateTimeInclusive (newTime : Time)

namespace InputOp

def perform (inp : InputQueues) : InputOp → InputQueues
  | addSource newSource => inp.addSource newSource
  | addData source valueTime iteration data => inp.addData source valueTime iteration data
  | removeSource source minTime => inp.removeSource source minTime
  | updateTimeUpTo newTime => (inp.updateTimeUpTo newTime).2
  | updateTimeNextIteration newTime => (inp.updateTimeNextIteration newTime).2
  | updateTimeInclusive newTime => (inp.updateTimeInclusive newTime).2

def arrival (source : GlobalHandle) : InputOp → Option DataRecord
  | addData id valueTime iteration data =>
    if id = source then some ⟨valueTime, iteration, some data⟩ else none
  | _ => none

def arrivals (ops : List InputOp) (source : GlobalHandle) : List DataRecord :=
  ops.filterMap (arrival source)

end InputOp

def DataRecord.sameKey (t : Time) (i : Nat) (r : DataRecord) : Bool :=
  decide (r.time = t ∧ r.iteration = i)

namespace ValueQueue

open DataRecord

/-- A new record goes behind those of the same key. -/
theorem filter_store (q : ValueQueue) (r : DataRecord) (t : Time) (i : Nat) :
    (q.store r).records.filter (sameKey t i) =
      q.records.filter (sameKey t i) ++ [r].filter (sameKey t i) := by
  unfold store
  split
  · exact List.filter_append ..
  have hlead := leading_not_before q.sorted r
  have hsplit := List.takeWhile_append_dropWhile (p := fun x => !r.before x) (l := q.records)
  unfold insertRecord
  conv_rhs => rw [← hsplit]
  rw [List.filter_append, List.filter_append, List.filter_cons]
  by_cases hk : sameKey t i r = true
  · -- the records that the new one precedes have a greater key
    have hnil : (q.records.dropWhile fun x => !r.before x).filter (sameKey t i) = [] := by
      rw [hlead.dropWhile]
      refine List.filter_eq_nil_iff.mpr fun b hb hb' => ?_
      have hlt : r.before b = true := by simpa using (List.mem_filter.mp hb).2
      obtain ⟨ht, hi⟩ := of_decide_eq_true hk
      obtain ⟨ht', hi'⟩ := of_decide_eq_true hb'
      obtain h | h := (before_iff r b).mp hlt
      · exact absurd (ht.trans ht'.symm) h.ne
      · exact absurd (hi.trans hi'.symm) h.2.ne
    rw [if_pos hk, hnil, List.append_nil, List.filter_cons_of_pos hk]
    rfl
  · rw [if_neg hk, List.filter_cons_of_neg hk]
    exact (List.append_nil _).symm

theorem dropAfter_records (q : ValueQueue) (minTime : Time) :
    (q.dropAfter minTime).records = q.records.filter (isUpTo minTime) := by
  have hlead : Leading (fun r => decide (minTime < r.time)) q.records.reverse := by
    refine List.pairwise_reverse.mpr (q.sorted.imp fun {a b} hab ha => ?_)
    exact decide_eq_true ((of_decide_eq_true ha).trans_le hab.time)
  unfold dropAfter
  dsimp only [List.rdropWhile]
  rw [hlead.dropWhile, ← List.filter_reverse, List.reverse_reverse]
  exact List.filter_congr fun r _ => by simp [isUpTo, ← decide_not]

end ValueQueue

namespace InputSource

open DataRecord

/-- The queue of a source against the values that have come from it: nothing is beyond the end of
the source, and the records of a key are the last ones that came under it. -/
structure Holds (arrived : List DataRecord) (s : InputSource) : Prop where
  bounded : ∀ r ∈ s.queue.records, r.time ≤ s.deactivated
  arrival : ∀ t i, s.queue.records.filter (sameKey t i) <:+ arrived.filter (sameKey t i)

/-- A change of a source that holds on to what it keeps. -/
structure Follows (s s' : InputSource) : Prop where
  id : s'.id = s.id
  holds : ∀ arrived, Holds arrived s → Holds arrived s'
  empty : s.queue.records = [] → s'.queue.records = []

theorem follows_refl (s : InputSource) : Follows s s := ⟨rfl, fun _ h => h, fun h => h⟩

theorem holds_of_empty (h : s.queue.records = []) : Holds arrived s := by
  constructor
  · simp [h]
  · simp [h]

theorem Holds.store (h : Holds arrived s) (hr : r.time ≤ s.deactivated) :
    Holds (arrived ++ [r]) { s with queue := s.queue.store r } := by
  refine ⟨fun r' hr' => ?_, fun t i => ?_⟩
  · obtain rfl | hr' := List.mem_cons.mp ((s.queue.perm_store r).mem_iff.mp hr')
    · exact hr
    · exact h.bounded r' hr'
  · rw [filter_store, List.filter_append]
    obtain ⟨l, hl⟩ := h.arrival t i
    exact ⟨l, by rw [← hl, List.append_assoc]⟩

theorem Holds.refuse (h : Holds arrived s) (hr : s.deactivated < r.time) :
    Holds (arrived ++ [r]) s := by
  refine ⟨h.bounded, fun t i => ?_⟩
  rw [List.filter_append]
  by_cases hk : sameKey t i r = true
  · -- nothing in the queue is as late as the refused record
    have hnil : s.queue.records.filter (sameKey t i) = [] := by
      refine List.filter_eq_nil_iff.mpr fun b hb hb' => ?_
      have ht := (of_decide_eq_true hb').1.trans (of_decide_eq_true hk).1.symm
      exact (h.bounded b hb).not_gt (ht ▸ hr)
    rw [hnil]
    exact List.nil_suffix
  · rw [List.filter_cons_of_neg hk]
    exact (List.append_nil _).symm ▸ h.arrival t i

theorem follows_dropAfter (s : InputSource) (minTime : Time) :
    Follows s { s with queue := s.queue.dropAfter minTime, deactivated := minTime } := by
  refine ⟨rfl, fun arrived h => ⟨fun r hr => ?_, fun t i => ?_⟩, fun h => ?_⟩
  · rw [dropAfter_records] at hr
    exact isUpTo_iff.mp (List.mem_filter.mp hr).2
  · rw [dropAfter_records, List.filter_filter]
    by_cases ht : t ≤ minTime
    · rw [List.filter_congr (q := sameKey t i)]
      · exact h.arrival t i
      · intro r _
        rw [Bool.and_eq_left_iff_imp]
        exact fun hk => isUpTo_iff.mpr ((of_decide_eq_true hk).1 ▸ ht)
    · rw [List.filter_eq_nil_iff.mpr]
      · exact List.nil_suffix
      · intro r _ hr
        obtain ⟨hk, hup⟩ := Bool.and_eq_true_iff.mp hr
        exact ht ((of_decide_eq_true hk).1 ▸ isUpTo_iff.mp hup)
  · rw [dropAfter_records, h]
    rfl

theorem follows_suffix (h : q.records <:+ s.queue.records) (current : DataRecord) :
    Follows s { s with queue := q, current := current } := by
  refine ⟨rfl, fun arrived hs => ⟨fun r hr => hs.bounded r (h.subset hr), fun t i => ?_⟩, ?_⟩
  · exact (h.filter _).trans (hs.arrival t i)
  · intro he
    exact List.suffix_nil.mp (he ▸ h)

end InputSource

theorem QueueScan.take_suffix {u : QueueScan} (h : u.take t q = some (r, q')) :
    q'.records <:+ q.records := by
  unfold take at h
  split at h
  · cases h
  · rename_i r l hq
    split at h
    · cases h
    · cases h
      exact ((u.suffix t r l).trans (List.suffix_cons r l)).trans ⟨[], hq.symm⟩

namespace InputQueues

open InputSource

/-- Every source holds what has come from it, and only the first entry of a source has values. -/
structure Orderly (arrived : GlobalHandle → List DataRecord) (l : List InputSource) : Prop where
  holds : ∀ s ∈ l, Holds (arrived s.id) s
  repeated : l.Pairwise fun s s' => s.id = s'.id → s'.queue.records = []

theorem exists_follows (hf : List.Forall₂ Follows l l') (h : s' ∈ l') : ∃ s ∈ l, Follows s s' := by
  induction hf with
  | nil => cases h
  | @cons s x' l l' hs hl ih =>
    obtain rfl | h := List.mem_cons.mp h
    · exact ⟨s, List.mem_cons_self, hs⟩
    · obtain ⟨x, hx, hf⟩ := ih h
      exact ⟨x, List.mem_cons_of_mem _ hx, hf⟩

theorem Orderly.follows (h : Orderly arrived l) (hf : List.Forall₂ Follows l l') :
    Orderly arrived l' := by
  induction hf with
  | nil => exact h
  | @cons s s' l l' hs hl ih =>
    obtain ⟨hrep, hpair⟩ := List.pairwise_cons.mp h.repeated
    have hrest := ih ⟨fun s hs => h.holds s (List.mem_cons_of_mem _ hs), hpair⟩
    refine ⟨List.forall_mem_cons.mpr ⟨?_, hrest.holds⟩, List.pairwise_cons.mpr ⟨?_, hrest.repeated⟩⟩
    · exact hs.id ▸ hs.holds _ (h.holds s List.mem_cons_self)
    · intro x' hx' he
      obtain ⟨x, hx, hxx⟩ := exists_follows hl hx'
      exact hxx.empty (hrep x hx (hs.id.symm.trans (he.trans hxx.id)))

theorem follows_updateSources (only : Bool) (u : QueueScan) (t : Time) (updated : Bool)
    (l : List InputSource) : List.Forall₂ Follows l (updateSources only u t updated l).2 := by
  induction l generalizing updated with
  | nil => exact .nil
  | cons s l ih =>
    unfold updateSources
    split
    · exact List.forall₂_same.mpr fun s _ => follows_refl s
    · rename_i last rest h
      exact .cons (follows_suffix (QueueScan.take_suffix h) _) (ih _)

theorem mem_addDataTo (h : s ∈ addDataTo source r l) : s ∈ l ∨ s.id = source := by
  induction l with
  | nil => cases h
  | cons x l ih =>
    unfold addDataTo at h
    split at h
    · rename_i hx
      split at h
      · exact .inl h
      · obtain rfl | h := List.mem_cons.mp h
        · exact .inr hx
        · exact .inl (List.mem_cons_of_mem _ h)
    · obtain rfl | h := List.mem_cons.mp h
      · exact .inl List.mem_cons_self
      · exact (ih h).imp_left (List.mem_cons_of_mem _)

theorem Orderly.addDataTo (h : Orderly arrived l) (source : GlobalHandle) (r : DataRecord) :
    Orderly (fun id => arrived id ++ if source = id then [r] else []) (addDataTo source r l) := by
  induction l with
  | nil => exact ⟨fun _ hs => absurd hs List.not_mem_nil, .nil⟩
  | cons s l ih =>
    obtain ⟨hrep, hpair⟩ := List.pairwise_cons.mp h.repeated
    obtain ⟨hs, hl⟩ := List.forall_mem_cons.mp h.holds
    unfold InputQueues.addDataTo
    by_cases hid : s.id = source
    · -- the later entries of the source stay empty, the other sources get nothing
      have hrest : ∀ x ∈ l, Holds (arrived x.id ++ if source = x.id then [r] else []) x := by
        intro x hx
        split
        · rename_i he
          exact holds_of_empty (hrep x hx (hid.trans he))
        · rw [List.append_nil]
          exact hl x hx
      rw [if_pos hid]
      split
      · rename_i hr
        refine ⟨List.forall_mem_cons.mpr ⟨?_, hrest⟩, h.repeated⟩
        rw [if_pos hid.symm]
        exact hs.refuse hr
      · rename_i hr
        refine ⟨List.forall_mem_cons.mpr ⟨?_, hrest⟩, List.pairwise_cons.mpr ⟨hrep, hpair⟩⟩
        rw [if_pos hid.symm]
        exact hs.store (not_lt.mp hr)
    · rw [if_neg hid]
      have hrest := ih ⟨hl, hpair⟩
      refine ⟨List.forall_mem_cons.mpr ⟨?_, hrest.holds⟩,
        List.pairwise_cons.mpr ⟨fun x hx he => ?_, hrest.repeated⟩⟩
      · rw [if_neg (Ne.symm hid), List.append_nil]
        exact hs
      · obtain hx | hx := mem_addDataTo hx
        · exact hrep x hx he
        · exact absurd (he.trans hx) hid

theorem Orderly.perform (ops : List InputOp) (op : InputOp)
    (h : Orderly (InputOp.arrivals ops) inp.sources) :
    Orderly (InputOp.arrivals (ops ++ [op])) (op.perform inp).sources := by
  have harr : InputOp.arrivals (ops ++ [op]) =
      fun id => InputOp.arrivals ops id ++ (op.arrival id).toList := by
    funext id
    unfold InputOp.arrivals
    rw [List.filterMap_append, List.filterMap_cons]
    cases op.arrival id <;> rfl
  have hupdate : ∀ (u : QueueScan) (t : Time),
      Orderly (InputOp.arrivals ops) (update u inp t).2.sources := fun u t =>
    h.follows (follows_updateSources inp.onlyUpdateOnChange u t false inp.sources)
  rw [harr]
  cases op with
  | addData source valueTime iteration data =>
    have hadd := h.addDataTo source ⟨valueTime, iteration, some data⟩
    simp only [InputOp.arrival, apply_ite Option.toList]
    exact hadd
  | addSource newSource =>
    simp only [InputOp.arrival, Option.toList_none, List.append_nil]
    refine ⟨List.forall_mem_append.mpr ⟨h.holds, ?_⟩, List.pairwise_append.mpr
      ⟨h.repeated, List.pairwise_singleton _ _, fun s _ x hx _ => ?_⟩⟩
    · simpa using holds_of_empty rfl
    · rw [List.mem_singleton.mp hx]
  | removeSource source minTime =>
    simp only [InputOp.arrival, Option.toList_none, List.append_nil]
    refine h.follows (List.forall₂_map_right_iff.mpr (List.forall₂_same.mpr fun s _ => ?_))
    split
    · exact follows_dropAfter s minTime
    · exact follows_refl s
  | updateTimeUpTo newTime | updateTimeNextIteration newTime | updateTimeInclusive newTime =>
    simp only [InputOp.arrival, Option.toList_none, List.append_nil]
    exact hupdate _ newTime

/-- After any sequence of calls every queue is sorted, the records of one time and iteration are
the last ones that came, in the order in which they came, and none is beyond the end of its
source. -/
theorem queues_sorted_bounded (inp : InputQueues) (ops : List InputOp) :
    ∀ s ∈ (ops.foldl InputOp.perform { inp with sources := [] }).sources,
      s.queue.records.Pairwise (fun a b =>
        a.time < b.time ∨ a.time = b.time ∧ a.iteration ≤ b.iteration) ∧
      (∀ t i, s.queue.records.filter (sameKey t i) <:+
        (InputOp.arrivals ops s.id).filter (sameKey t i)) ∧
      ∀ r ∈ s.queue.records, r.time ≤ s.deactivated := by
  have h : Orderly (InputOp.arrivals ops)
      (ops.foldl InputOp.perform { inp with sources := [] }).sources :=
    Invariants.foldl_invariant (P := fun (inp : InputQueues) ops =>
      Orderly (InputOp.arrivals ops) inp.sources)
      ⟨fun _ hs => absurd hs List.not_mem_nil, .nil⟩
      (fun inp ops op hi => hi.perform ops op) ops
  intro s hs
  have hsorted := s.queue.sorted.imp fun {a b} hab => (le_iff a b).mp hab
  exact ⟨hsorted, (h.holds s hs).arrival, (h.holds s hs).bounded⟩

def twoValues : List InputOp :=
  [.addSource ⟨131073, 0⟩, .addData ⟨131073, 0⟩ .zero 0 "a", .addData ⟨131073, 0⟩ .zero 0 "b"]

theorem two_values_queued :
    ∃ s, (twoValues.foldl InputOp.perform { handle := 1, sources := [] }).sources = [s] ∧
      s.queue.records.map data = [some "a", some "b"] ∧
      ∀ r ∈ s.queue.records, r.time ≤ s.deactivated :=
  ⟨_, rfl, by decide,
    (queues_sorted_bounded { handle := 1 } twoValues _ (List.mem_singleton.mpr rfl)).2.2⟩

end InputQueues

end Helics
