import Helics.InputQueues
import Mathlib.Data.List.Sort
import Mathlib.Data.String.Basic
import Helics.Invariants

namespace Helics

open ListRuns

namespace Message

def sortsBefore (m m' : Message) : Bool :=
  if m.time ≠ m'.time then decide (m.time < m'.time)
  else decide (m.originalSource < m'.originalSource)

def Le (m m' : Message) : Prop := m'.sortsBefore m = false

instance : DecidableRel Le := fun m m' => inferInstanceAs (Decidable (m'.sortsBefore m = false))

theorem le_iff (m m' : Message) :
    m.Le m' ↔ m.time < m'.time ∨ m.time = m'.time ∧ m.originalSource ≤ m'.originalSource := by
  unfold Le sortsBefore
  by_cases h : m'.time = m.time
  · rw [if_neg (not_not.mpr h), decide_eq_false_iff_not, not_lt,
      or_iff_right (by rw [h]; exact lt_irrefl _), and_iff_right h.symm]
  rw [if_pos h, decide_eq_false_iff_not, not_lt]
  constructor
  · exact fun hle => .inl (lt_of_le_of_ne hle (Ne.symm h))
  · rintro (hlt | ⟨heq, -⟩)
    · exact hlt.le
    · exact absurd heq.symm h

theorem Le.time (h : Le m m') : m.time ≤ m'.time := by
  obtain h | h := (le_iff m m').mp h
  · exact h.le
  · exact h.1.le

instance : IsTrans Message Le where
  trans a b c hab hbc := by
    rw [le_iff] at hab hbc ⊢
    obtain hab | ⟨hab, hs⟩ := hab
    · obtain hbc | ⟨hbc, -⟩ := hbc
      · exact .inl (hab.trans hbc)
      · exact .inl (hbc ▸ hab)
    · obtain hbc | ⟨hbc, hs'⟩ := hbc
      · exact .inl (hab ▸ hbc)
      · exact .inr ⟨hab.trans hbc, hs.trans hs'⟩

instance : Std.Total Le where
  total a b := by
    rw [le_iff, le_iff]
    obtain h | h | h := lt_trichotomy a.time b.time
    · exact .inl (.inl h)
    · obtain hs | hs := le_total a.originalSource b.originalSource
      · exact .inl (.inr ⟨h, hs⟩)
      · exact .inr (.inr ⟨h.symm, hs⟩)
    · exact .inr (.inl h)

end Message

structure MessageQueue where
  messages : List Message := []
  sorted : messages.Pairwise Message.Le := by exact List.Pairwise.nil

namespace MessageQueue

/-- The stable sort of the queue after the message has been put to its end. -/
def add (q : MessageQueue) (message : Message) : MessageQueue :=
  ⟨(q.messages ++ [message]).insertionSort Message.Le, List.pairwise_insertionSort _ _⟩

theorem filter_add (q : MessageQueue) (m : Message)
    (hp : ∀ a b, p a = true → p b = true → a.Le b) :
    (q.add m).messages.filter p = (q.messages ++ [m]).filter p := by
  have hpair : ((q.messages ++ [m]).filter p).Pairwise Message.Le :=
    List.pairwise_of_forall_mem_list fun a ha b hb =>
      hp a b (List.mem_filter.mp ha).2 (List.mem_filter.mp hb).2
  have hsub : ((q.messages ++ [m]).filter p).Sublist (q.add m).messages :=
    List.sublist_insertionSort hpair List.filter_sublist
  have hsub' := hsub.filter p
  simp only [List.filter_filter, Bool.and_self] at hsub'
  exact (hsub'.eq_of_length ((List.perm_insertionSort _ _).filter p).length_eq.symm).symm

def tail (q : MessageQueue) : MessageQueue := ⟨q.messages.tail, q.sorted.tail⟩

theorem leading_upTo (q : MessageQueue) (t : Time) :
    Leading (fun m : Message => decide (m.time ≤ t)) q.messages :=
  q.sorted.imp fun hab hb => decide_eq_true (hab.time.trans (of_decide_eq_true hb))

end MessageQueue

structure EndpointQueue where
  id : GlobalHandle
  queue : MessageQueue := {}

namespace EndpointQueue

def getMessage (e : EndpointQueue) (maxTime : Time) : Option (Message × EndpointQueue) :=
  match e.queue.messages with
  | [] => none
  | m :: _ => if m.time ≤ maxTime then some (m, { e with queue := e.queue.tail }) else none

def firstMessageTime (e : EndpointQueue) : Time :=
  match e.queue.messages with
  | [] => .maxVal
  | m :: _ => m.time

def addMessage (e : EndpointQueue) (message : Message) : EndpointQueue :=
  { e with queue := e.queue.add message }

/-- The loop that counts the messages up to a time stops at the first later one. -/
def countUpTo (maxTime : Time) : List Message → Nat
  | [] => 0
  | m :: l => if m.time ≤ maxTime then countUpTo maxTime l + 1 else 0

def queueSize (e : EndpointQueue) (maxTime : Time) : Nat := countUpTo maxTime e.queue.messages

theorem countUpTo_eq (t : Time) (l : List Message) :
    countUpTo t l = (l.takeWhile fun m => decide (m.time ≤ t)).length := by
  induction l with
  | nil => rfl
  | cons m l ih =>
    unfold countUpTo
    by_cases h : m.time ≤ t
    · rw [if_pos h, List.takeWhile_cons_of_pos (by simpa using h), ih]
      rfl
    · rw [if_neg h, List.takeWhile_cons_of_neg (by simpa using h)]
      rfl

theorem queueSize_eq (e : EndpointQueue) (t : Time) :
    e.queueSize t = (e.queue.messages.filter fun m => decide (m.time ≤ t)).length := by
  unfold queueSize
  rw [countUpTo_eq, (e.queue.leading_upTo t).takeWhile]

end EndpointQueue

def InputSource.firstValueTime (s : InputSource) : Time :=
  match s.queue.records with
  | [] => .maxVal
  | r :: _ => r.time

def InputQueues.nextValueTime (inp : InputQueues) : Time :=
  if inp.notInterruptible then .maxVal
  else least (fun s : InputSource => !s.queue.records.isEmpty) InputSource.firstValueTime .maxVal
    inp.sources

/-- The values and messages that a federate has got, under the handles of its interfaces. -/
structure FederateData where
  timeGranted : Time := .minVal
  inputs : List InputQueues := []
  endpoints : List EndpointQueue := []
  distinct : (endpoints.map fun e => e.id.handle).Nodup := by decide

namespace FederateData

/-- Changing the queues keeps the handles of the endpoints apart. -/
def mapQueues (f : FederateData) (g : EndpointQueue → MessageQueue) : FederateData :=
  { f with
    endpoints := f.endpoints.map fun e => { e with queue := g e }
    distinct := by
      rw [List.map_map]
      exact f.distinct }

def setQueue (f : FederateData) (handle : InterfaceHandle) (q : MessageQueue) : FederateData :=
  f.mapQueues fun e => if e.id.handle = handle then q else e.queue

def getEndpoint (f : FederateData) (handle : InterfaceHandle) : Option EndpointQueue :=
  f.endpoints.find? fun e => decide (e.id.handle = handle)

/-- The arrival of a message; one for an endpoint that the federate does not have is dropped. -/
def sendMessage (f : FederateData) (handle : InterfaceHandle) (message : Message) : FederateData :=
  match f.getEndpoint handle with
  | some e => f.setQueue handle (e.addMessage message).queue
  | none => f

def getQueueSize (f : FederateData) : Nat :=
  f.endpoints.foldl (fun cnt e => cnt + e.queueSize f.timeGranted) 0

def receive (f : FederateData) (handle : InterfaceHandle) : Option Message × FederateData :=
  match f.getEndpoint handle with
  | some e =>
    match e.getMessage f.timeGranted with
    | some (m, e') => (some m, f.setQueue handle e'.queue)
    | none => (none, f)
  | none => (none, f)

/-- The first endpoint with the earliest message, if that is before the end of time. -/
def earliestEndpoint (endpoints : List EndpointQueue) : Time × Option EndpointQueue :=
  endpoints.foldl (fun best e =>
    if e.firstMessageTime < best.1 then (e.firstMessageTime, some e) else best) (.maxVal, none)

def receiveAny (f : FederateData) : Option (InterfaceHandle × Message) × FederateData :=
  match earliestEndpoint f.endpoints with
  | (_, none) => (none, f)
  | (earliestTime, some e) =>
    if earliestTime ≤ f.timeGranted then
      match e.getMessage f.timeGranted with
      | some (m, e') => (some (e.id.handle, m), f.setQueue e.id.handle e'.queue)
      | none => (none, f)
    else (none, f)

def nextMessageTime (f : FederateData) : Time :=
  least (fun e : EndpointQueue => decide (f.timeGranted ≤ e.firstMessageTime))
    EndpointQueue.firstMessageTime .maxVal f.endpoints

def nextValueTime (f : FederateData) : Time :=
  least (fun inp : InputQueues => decide (f.timeGranted ≤ inp.nextValueTime))
    InputQueues.nextValueTime .maxVal f.inputs

end FederateData

open Invariants EndpointQueue

theorem EndpointQueue.firstMessageTime_le {e : EndpointQueue} (hm : m ∈ e.queue.messages) :
    e.firstMessageTime ≤ m.time := by
  have hsorted := e.queue.sorted
  unfold firstMessageTime
  cases hq : e.queue.messages with
  | nil =>
    rw [hq] at hm
    exact absurd hm List.not_mem_nil
  | cons a l =>
    rw [hq] at hm hsorted
    obtain rfl | hm := List.mem_cons.mp hm
    · exact le_rfl
    · exact ((List.pairwise_cons.mp hsorted).1 m hm).time

namespace FederateData

def waiting (f : FederateData) (handle : InterfaceHandle) : List Message :=
  match f.getEndpoint handle with
  | some e => e.queue.messages
  | none => []

theorem waiting_sorted (f : FederateData) (h : InterfaceHandle) :
    (f.waiting h).Pairwise Message.Le := by
  unfold waiting
  split
  · exact queue _ |>.sorted
  · exact List.Pairwise.nil

section
variable {f : FederateData}

theorem getEndpoint_some (h : f.getEndpoint hd = some e) :
    e ∈ f.endpoints ∧ e.id.handle = hd :=
  ⟨List.mem_of_find?_eq_some h, by simpa using List.find?_some h⟩

theorem getEndpoint_of_mem (he : e ∈ f.endpoints) :
    f.getEndpoint e.id.handle = some e := by
  obtain ⟨x, hx⟩ : ∃ x, f.getEndpoint e.id.handle = some x :=
    Option.isSome_iff_exists.mp (List.find?_isSome.mpr ⟨e, he, by simp⟩)
  obtain ⟨hmem, hid⟩ := getEndpoint_some hx
  rw [hx, List.inj_on_of_nodup_map f.distinct hmem he hid]

theorem waiting_eq (he : e ∈ f.endpoints) :
    f.waiting e.id.handle = e.queue.messages := by
  rw [waiting, getEndpoint_of_mem he]

theorem mem_waiting (hm : m ∈ f.waiting hd) :
    ∃ e ∈ f.endpoints, e.id.handle = hd ∧ m ∈ e.queue.messages := by
  unfold waiting at hm
  split at hm
  · rename_i e he
    obtain ⟨hmem, hid⟩ := getEndpoint_some he
    exact ⟨e, hmem, hid, hm⟩
  · exact absurd hm List.not_mem_nil

theorem getEndpoint_setQueue (f : FederateData) (hd hd' : InterfaceHandle) (q : MessageQueue) :
    (f.setQueue hd q).getEndpoint hd' =
      (f.getEndpoint hd').map
        fun e => { e with queue := if e.id.handle = hd then q else e.queue } := by
  exact List.find?_map

theorem waiting_setQueue_self (h : f.getEndpoint hd = some e) :
    (f.setQueue hd q).waiting hd = q.messages := by
  rw [waiting, getEndpoint_setQueue, h]
  simp only [Option.map_some, (getEndpoint_some h).2, if_true]

theorem waiting_setQueue_ne (h : hd' ≠ hd) :
    (f.setQueue hd q).waiting hd' = f.waiting hd' := by
  unfold waiting
  rw [getEndpoint_setQueue]
  cases he : f.getEndpoint hd' with
  | none => rfl
  | some e =>
    have hne : ¬ e.id.handle = hd := (getEndpoint_some he).2 ▸ h
    simp only [Option.map_some, if_neg hne]

structure Takes (f : FederateData) (hd : InterfaceHandle) (m : Message)
    (f' : FederateData) : Prop where
  granted : f'.timeGranted = f.timeGranted
  front : f.waiting hd = m :: f'.waiting hd
  others : ∀ hd', hd' ≠ hd → f'.waiting hd' = f.waiting hd'
  due : m.time ≤ f.timeGranted
  sizes : ∀ t, m.time ≤ t → (f.endpoints.map fun e => e.queueSize t).sum =
    (f'.endpoints.map fun e => e.queueSize t).sum + 1

theorem getMessage_some {e e' : EndpointQueue} (h : e.getMessage t = some (m, e')) :
    ∃ l, e.queue.messages = m :: l ∧ e'.queue.messages = l ∧ m.time ≤ t := by
  unfold getMessage at h
  split at h
  · cases h
  rename_i m' l hq
  split at h
  · rename_i hle
    cases h
    exact ⟨l, hq, congrArg List.tail hq, hle⟩
  · cases h

theorem endpoints_setQueue (h : f.getEndpoint hd = some e) (q : MessageQueue) :
    ∃ l₁ l₂, f.endpoints = l₁ ++ e :: l₂ ∧
      (f.setQueue hd q).endpoints = l₁ ++ { e with queue := q } :: l₂ := by
  obtain ⟨hmem, hid⟩ := getEndpoint_some h
  obtain ⟨l₁, l₂, hl⟩ := List.append_of_mem hmem
  refine ⟨l₁, l₂, hl, ?_⟩
  have hnodup := f.distinct
  rw [hl, List.map_append, List.map_cons, List.nodup_middle, List.nodup_cons, hid] at hnodup
  have hkeep : ∀ l : List EndpointQueue, (∀ x ∈ l, x.id.handle ≠ hd) →
      l.map (fun x => { x with queue := if x.id.handle = hd then q else x.queue }) = l := by
    intro l hne
    refine (List.map_congr_left fun x hx => ?_).trans (List.map_id' l)
    rw [if_neg (hne x hx)]
  have hout : ∀ x, x ∈ l₁ ∨ x ∈ l₂ → x.id.handle ≠ hd := by
    intro x hx he
    refine hnodup.1 (List.mem_append.mpr ?_)
    rw [← he]
    exact hx.imp (List.mem_map_of_mem (f := fun e : EndpointQueue => e.id.handle))
      (List.mem_map_of_mem (f := fun e : EndpointQueue => e.id.handle))
  change f.endpoints.map (fun x => { x with queue := if x.id.handle = hd then q else x.queue }) = _
  rw [hl, List.map_append, List.map_cons, hkeep l₁ fun x hx => hout x (.inl hx),
    hkeep l₂ fun x hx => hout x (.inr hx), if_pos hid]

theorem takes_of_getMessage (he : f.getEndpoint hd = some e)
    (hm : e.getMessage f.timeGranted = some (m, e')) : f.Takes hd m (f.setQueue hd e'.queue) := by
  obtain ⟨l, hq, hq', hle⟩ := getMessage_some hm
  constructor
  case granted => rfl
  case front =>
    rw [waiting_setQueue_self he, hq', waiting, he]
    exact hq
  case others => exact fun hd' hne => waiting_setQueue_ne hne
  case due => exact hle
  case sizes =>
    intro t ht
    obtain ⟨l₁, l₂, hl, hl'⟩ := endpoints_setQueue he e'.queue
    have hsize : e.queueSize t = queueSize { e with queue := e'.queue } t + 1 := by
      unfold queueSize
      rw [hq, hq', countUpTo, if_pos ht]
    rw [hl, hl', List.map_append, List.map_append, List.map_cons, List.map_cons, List.sum_append,
      List.sum_append, List.sum_cons, List.sum_cons, hsize]
    omega

theorem getQueueSize_eq_sum (f : FederateData) :
    f.getQueueSize = (f.endpoints.map fun e => e.queueSize f.timeGranted).sum := by
  rw [List.sum_eq_foldl, List.foldl_map]
  rfl

theorem Takes.getQueueSize (h : f.Takes hd m f') :
    f.getQueueSize = f'.getQueueSize + 1 := by
  rw [getQueueSize_eq_sum, getQueueSize_eq_sum, h.granted]
  exact h.sizes _ h.due

theorem earliestEndpoint_spec (l : List EndpointQueue) :
    (∀ e ∈ l, (earliestEndpoint l).1 ≤ e.firstMessageTime) ∧
      ((earliestEndpoint l = (.maxVal, none)) ∨
        ∃ e ∈ l, earliestEndpoint l = (e.firstMessageTime, some e) ∧
        e.firstMessageTime < .maxVal) := by
  unfold earliestEndpoint
  -- after a part of the list the pair shows the earliest endpoint of that part
  refine foldl_invariant (P := fun best l => (∀ e ∈ l, best.1 ≤ e.firstMessageTime) ∧
    (best = (Time.maxVal, none) ∨ ∃ e ∈ l, best = (e.firstMessageTime, some e) ∧
      e.firstMessageTime < .maxVal)) ⟨fun e he => absurd he List.not_mem_nil, .inl rfl⟩ ?_ l
  rintro best pre x ⟨hle, hbest⟩
  have hmax : best.1 ≤ .maxVal := Time.le_maxVal _
  split
  · rename_i hlt
    refine ⟨fun e he => ?_, .inr ⟨x, by simp, rfl, hlt.trans_le hmax⟩⟩
    obtain he | he := List.mem_append.mp he
    · exact hlt.le.trans (hle e he)
    · rw [List.mem_singleton.mp he]
  · rename_i hge
    refine ⟨fun e he => ?_, hbest.imp_right fun ⟨e, he, h⟩ => ⟨e, List.mem_append_left _ he, h⟩⟩
    obtain he | he := List.mem_append.mp he
    · exact hle e he
    · rw [List.mem_singleton.mp he]
      exact not_lt.mp hge

theorem receiveAny_some (h : f.receiveAny = (some (hd, m), f')) :
    f.Takes hd m f' ∧ m.time < .maxVal ∧ ∀ hd', ∀ m' ∈ f.waiting hd', m.time ≤ m'.time := by
  obtain ⟨hle, hnone | ⟨e, he, hsome, hlt⟩⟩ := earliestEndpoint_spec f.endpoints
  · rw [receiveAny, hnone] at h
    cases h
  rw [hsome] at hle
  unfold receiveAny at h
  simp only [hsome] at h
  split at h
  · split at h
    · rename_i m₀ e' hget
      cases h
      obtain ⟨l, hq, -, -⟩ := getMessage_some hget
      have hfirst : e.firstMessageTime = m.time := by
        unfold firstMessageTime
        rw [hq]
      refine ⟨takes_of_getMessage (getEndpoint_of_mem he) hget, hfirst ▸ hlt, fun hd' m' hm' => ?_⟩
      obtain ⟨e₁, he₁, -, hm₁⟩ := mem_waiting hm'
      exact hfirst ▸ (hle e₁ he₁).trans (firstMessageTime_le hm₁)
    · cases h
  · cases h

theorem receiveAny_none (h : f.receiveAny = (none, f')) :
    f' = f ∧ ∀ hd, ∀ m ∈ f.waiting hd, m.time ≤ f.timeGranted → m.time = .maxVal := by
  obtain ⟨hle, hnone | ⟨e, he, hsome, hlt⟩⟩ := earliestEndpoint_spec f.endpoints
  · rw [hnone] at hle
    rw [receiveAny, hnone] at h
    cases h
    refine ⟨rfl, fun hd m hm _ => ?_⟩
    obtain ⟨e, he, -, hm⟩ := mem_waiting hm
    exact Time.eq_maxVal ((hle e he).trans (firstMessageTime_le hm))
  · rw [hsome] at hle
    unfold receiveAny at h
    simp only [hsome] at h
    split at h
    · rename_i hdue
      split at h
      · cases h
      rename_i hget
      exfalso
      unfold getMessage at hget
      unfold firstMessageTime at hlt hdue
      split at hget
      · rename_i hq
        rw [hq] at hlt
        exact lt_irrefl _ hlt
      rename_i m l hq
      rw [hq] at hdue
      rw [if_pos hdue] at hget
      cases hget
    · rename_i hlate
      cases h
      refine ⟨rfl, fun hd m hm hm' => absurd ?_ hlate⟩
      obtain ⟨e₁, he₁, -, hm⟩ := mem_waiting hm
      exact ((hle e₁ he₁).trans (firstMessageTime_le hm)).trans hm'

theorem receive_some (h : f.receive hd = (some m, f')) : f.Takes hd m f' := by
  unfold receive at h
  split at h
  · rename_i e he
    split at h
    · rename_i hget
      cases h
      exact takes_of_getMessage he hget
    · cases h
  · cases h

theorem receive_none (h : f.receive hd = (none, f')) : f' = f := by
  unfold receive at h
  split at h
  · split at h
    · cases h
    · cases h
      rfl
  · cases h
    rfl

end

/-- The messages that repeated calls of `receiveAny` return until one returns nothing. -/
inductive Drains : FederateData → List (InterfaceHandle × Message) → FederateData → Prop
  | done (h : f.receiveAny = (none, f)) : Drains f [] f
  | more (h : f.receiveAny = (some (hd, m), f')) (rest : Drains f' ms f'') :
    Drains f ((hd, m) :: ms) f''

theorem exists_drains (f : FederateData) : ∃ ms f', f.Drains ms f' := by
  -- each call that returns a message makes the count of due messages smaller
  induction hn : f.getQueueSize using Nat.strong_induction_on generalizing f with
  | _ n ih =>
    cases hr : f.receiveAny with
    | mk o f' =>
      cases o with
      | none =>
        obtain rfl := (receiveAny_none hr).1
        exact ⟨[], f', .done hr⟩
      | some x =>
        obtain ⟨hd, m⟩ := x
        have hsize := (receiveAny_some hr).1.getQueueSize
        obtain ⟨ms, f'', hd'⟩ := ih f'.getQueueSize (by omega) f' rfl
        exact ⟨(hd, m) :: ms, f'', .more hr hd'⟩

end FederateData

end Helics
