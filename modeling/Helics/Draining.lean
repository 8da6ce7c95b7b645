import Helics.Receiving

namespace Helics

open Invariants Message FederateData

def inbox (hd : InterfaceHandle) (l : List (InterfaceHandle × Message)) : List Message :=
  (l.filter fun x => decide (x.1 = hd)).map Prod.snd

theorem inbox_append (hd : InterfaceHandle) (l l' : List (InterfaceHandle × Message)) :
    inbox hd (l ++ l') = inbox hd l ++ inbox hd l' := by
  unfold inbox
  rw [List.filter_append, List.map_append]

theorem inbox_cons_self (hd : InterfaceHandle) (m : Message)
    (l : List (InterfaceHandle × Message)) :
    inbox hd ((hd, m) :: l) = m :: inbox hd l := by
  unfold inbox
  rw [List.filter_cons_of_pos (by simp), List.map_cons]

theorem inbox_cons_ne (h : hd' ≠ hd) (m : Message) (l : List (InterfaceHandle × Message)) :
    inbox hd ((hd', m) :: l) = inbox hd l := by
  unfold inbox
  rw [List.filter_cons_of_neg (by simpa using h)]

theorem mem_inbox : m ∈ inbox hd l ↔ (hd, m) ∈ l := by
  unfold inbox
  simp

def Message.isDue (t : Time) (m : Message) : Bool := decide (m.time ≤ t)

/-- The messages that `receiveAny` returns: its search for the earliest one starts at the maximum
time. -/
def Message.isFound (t : Time) (m : Message) : Bool := m.isDue t && decide (m.time < .maxVal)

def Message.isFrom (t : Time) (source : String) (m : Message) : Bool :=
  decide (m.time = t) && decide (m.originalSource = source)

theorem Message.isFrom_iff {source : String} {m : Message} :
    m.isFrom t source = true ↔ m.time = t ∧ m.originalSource = source := by
  rw [isFrom, Bool.and_eq_true, decide_eq_true_iff, decide_eq_true_iff]

theorem Message.le_of_isFrom {source : String} {a b : Message} (ha : a.isFrom t source = true)
    (hb : b.isFrom t source = true) : a.Le b := by
  rw [isFrom_iff] at ha hb
  exact (le_iff a b).mpr (.inr ⟨ha.1.trans hb.1.symm, (ha.2.trans hb.2.symm).le⟩)

namespace FederateData

variable {f : FederateData}

theorem getQueueSize_eq_zero
    (h : ∀ hd, ∀ m ∈ f.waiting hd, ¬ m.time ≤ f.timeGranted) : f.getQueueSize = 0 := by
  rw [getQueueSize_eq_sum]
  apply List.sum_eq_zero_iff_forall_eq_nat.mpr
  intro n hn
  obtain ⟨e, he, rfl⟩ := List.mem_map.mp hn
  rw [EndpointQueue.queueSize_eq, List.length_eq_zero_iff, List.filter_eq_nil_iff]
  intro m hm
  rw [← waiting_eq he] at hm
  simpa using h e.id.handle m hm

section
variable (h : f.Drains ms f')
include h

theorem Drains.inbox_eq (hd : InterfaceHandle) :
    inbox hd ms = (f.waiting hd).filter (isFound f.timeGranted) := by
  induction h with
  | done h =>
    symm
    rw [inbox, List.filter_nil, List.map_nil, List.filter_eq_nil_iff]
    intro m hm hfound
    rw [isFound, isDue, Bool.and_eq_true, decide_eq_true_iff, decide_eq_true_iff]
      at hfound
    exact hfound.2.ne ((receiveAny_none h).2 hd m hm hfound.1)
  | @more hd' m f' ms f'' f h rest ih =>
    obtain ⟨htakes, hlt, -⟩ := receiveAny_some h
    rw [htakes.granted] at ih
    by_cases he : hd' = hd
    · subst he
      have hfound : isFound f.timeGranted m = true := by
        rw [isFound, isDue, decide_eq_true htakes.due, decide_eq_true hlt]
        rfl
      rw [inbox_cons_self, htakes.front, List.filter_cons_of_pos hfound, ih]
    · rw [inbox_cons_ne he, ← htakes.others hd (Ne.symm he), ih]

theorem Drains.mem_waiting (hx : x ∈ ms) :
    x.2 ∈ f.waiting x.1 ∧ isFound f.timeGranted x.2 = true := by
  have hmem : x.2 ∈ inbox x.1 ms := mem_inbox.mpr hx
  rw [h.inbox_eq] at hmem
  exact List.mem_filter.mp hmem

theorem Drains.times : ms.Pairwise fun x y => x.2.time ≤ y.2.time := by
  induction h with
  | done => exact List.Pairwise.nil
  | @more hd m f' ms f'' f h rest ih =>
    obtain ⟨htakes, -, hfirst⟩ := receiveAny_some h
    refine List.pairwise_cons.mpr ⟨fun x hx => ?_, ih⟩
    have hwait := (rest.mem_waiting hx).1
    by_cases he : x.1 = hd
    · refine hfirst hd x.2 ?_
      rw [htakes.front]
      exact List.mem_cons_of_mem m (he ▸ hwait)
    · rw [htakes.others x.1 he] at hwait
      exact hfirst x.1 x.2 hwait

theorem Drains.count : f.getQueueSize = ms.length + f'.getQueueSize := by
  induction h with
  | done => simp
  | more h rest ih =>
    have hsize := (receiveAny_some h).1.getQueueSize
    rw [List.length_cons]
    omega

theorem Drains.left : f'.timeGranted = f.timeGranted ∧ ∀ hd, ∀ m ∈ f'.waiting hd,
      m ∈ f.waiting hd ∧ (m.time ≤ f.timeGranted → m.time = .maxVal) := by
  induction h with
  | done h => exact ⟨rfl, fun hd m hm => ⟨hm, (receiveAny_none h).2 hd m hm⟩⟩
  | @more hd m f' ms f'' f h rest ih =>
    obtain ⟨htakes, -, -⟩ := receiveAny_some h
    rw [htakes.granted] at ih
    refine ⟨ih.1, fun hd' m' hm' => ?_⟩
    obtain ⟨hwait, hmax⟩ := ih.2 hd' m' hm'
    refine ⟨?_, hmax⟩
    by_cases he : hd' = hd
    · subst he
      rw [htakes.front]
      exact List.mem_cons_of_mem m hwait
    · rw [← htakes.others hd' he]
      exact hwait

end

/-- The registration of an endpoint; a handle that is taken stays with the first endpoint. -/
def createEndpoint (f : FederateData) (id : GlobalHandle) : FederateData :=
  if h : id.handle ∈ f.endpoints.map fun e => e.id.handle then f
  else { f with
    endpoints := f.endpoints ++ [{ id := id }]
    distinct := by
      rw [List.map_append, List.map_cons, List.map_nil]
      refine List.nodup_append.mpr ⟨f.distinct, List.nodup_singleton _, fun a ha b hb hab => h ?_⟩
      rw [← List.mem_singleton.mp hb, ← hab]
      exact ha }

theorem waiting_createEndpoint (f : FederateData) (id : GlobalHandle) (hd : InterfaceHandle) :
    (f.createEndpoint id).waiting hd = f.waiting hd := by
  unfold createEndpoint
  split
  · rfl
  unfold waiting getEndpoint
  rw [List.find?_append]
  cases hf : f.endpoints.find? fun e => decide (e.id.handle = hd) with
  | some e => rfl
  | none =>
    by_cases hid : id.handle = hd
    · rw [Option.none_or, List.find?_cons_of_pos (by simpa using hid)]
    · rw [Option.none_or, List.find?_cons_of_neg (by simpa using hid)]
      rfl

theorem waiting_sendMessage (f : FederateData) (hd : InterfaceHandle) (m : Message)
    (hd' : InterfaceHandle) : (f.sendMessage hd m).waiting hd' = f.waiting hd' ∧
        (hd' = hd → f.getEndpoint hd = none) ∨
      hd' = hd ∧ f.getEndpoint hd ≠ none ∧ ∃ q : MessageQueue, q.messages = f.waiting hd ∧
        (f.sendMessage hd m).waiting hd' = (q.add m).messages := by
  unfold sendMessage
  cases he : f.getEndpoint hd with
  | none => exact .inl ⟨rfl, fun _ => rfl⟩
  | some e =>
    by_cases h : hd' = hd
    · refine .inr ⟨h, Option.some_ne_none e, e.queue, ?_, ?_⟩
      · rw [waiting, he]
      · rw [h, waiting_setQueue_self he]
        rfl
    · exact .inl ⟨waiting_setQueue_ne h, fun h' => absurd h' h⟩

end FederateData

inductive MailEvent where
  | createEndpoint (id : GlobalHandle)
  | sendMessage (handle : InterfaceHandle) (message : Message)
  | receive (handle : InterfaceHandle)
  | receiveAny
  | grant (time : Time)
deriving DecidableEq

structure Mailbox where
  fed : FederateData := {}
  arrived : List (InterfaceHandle × Message) := []
  received : List (InterfaceHandle × Message) := []

namespace Mailbox

def step (s : Mailbox) : MailEvent → Mailbox
  | .createEndpoint id => { s with fed := s.fed.createEndpoint id }
  | .sendMessage hd m =>
    { s with
      fed := s.fed.sendMessage hd m
      arrived := if s.fed.getEndpoint hd = none then s.arrived else s.arrived ++ [(hd, m)] }
  | .receive hd =>
    match s.fed.receive hd with
    | (some m, f) => { s with fed := f, received := s.received ++ [(hd, m)] }
    | (none, f) => { s with fed := f }
  | .receiveAny =>
    match s.fed.receiveAny with
    | (some x, f) => { s with fed := f, received := s.received ++ [x] }
    | (none, f) => { s with fed := f }
  | .grant t => { s with fed := { s.fed with timeGranted := t } }

def after (es : List MailEvent) : Mailbox := es.foldl step {}

/-- For each time and source, the messages that were handed out and those that wait, in this order,
are the ones that came. -/
def Conserved (s : Mailbox) : Prop :=
  ∀ hd t source, (inbox hd s.received ++ s.fed.waiting hd).filter (isFrom t source) =
    (inbox hd s.arrived).filter (isFrom t source)

variable {s : Mailbox}

theorem Conserved.takes (h : s.Conserved) (ht : s.fed.Takes hd m f) :
    Conserved { s with fed := f, received := s.received ++ [(hd, m)] } := by
  intro hd' t source
  rw [← h hd' t source, inbox_append]
  by_cases he : hd' = hd
  · subst he
    rw [inbox_cons_self, ht.front, List.append_assoc]
    rfl
  · rw [inbox_cons_ne (Ne.symm he), ht.others hd' he]
    exact congrArg (fun l => (l ++ s.fed.waiting hd').filter (isFrom t source))
      (List.append_nil (inbox hd' s.received))

theorem Conserved.step (h : s.Conserved) (e : MailEvent) : (s.step e).Conserved := by
  cases e with
  | createEndpoint id =>
    intro hd t source
    change (inbox hd s.received ++ (s.fed.createEndpoint id).waiting hd).filter _ = _
    rw [waiting_createEndpoint]
    exact h hd t source
  | sendMessage hd m =>
    intro hd' t source
    change (inbox hd' s.received ++ (s.fed.sendMessage hd m).waiting hd').filter _ =
      (inbox hd' (if s.fed.getEndpoint hd = none then s.arrived
        else s.arrived ++ [(hd, m)])).filter _
    obtain ⟨hw, hnone⟩ | ⟨he, hknown, q, hq, hw⟩ := s.fed.waiting_sendMessage hd m hd'
    · rw [hw, h hd' t source]
      split
      · rfl
      · rename_i hne
        rw [inbox_append, inbox_cons_ne fun he => hne (hnone he.symm)]
        exact congrArg (List.filter _) (List.append_nil _).symm
    · -- the stable sort does not move the new message before others of its time and source
      rw [hw, he, if_neg hknown, inbox_append, List.filter_append, List.filter_append,
        q.filter_add m fun a b => le_of_isFrom, ← h hd t source, hq, List.filter_append,
        List.filter_append, List.append_assoc, inbox_cons_self]
      rfl
  | receive hd =>
    unfold Mailbox.step
    dsimp only
    split
    · rename_i m f hr
      exact h.takes (receive_some hr)
    · rename_i f hr
      obtain rfl := receive_none hr
      exact h
  | receiveAny =>
    unfold Mailbox.step
    dsimp only
    split
    · rename_i x f hr
      exact h.takes (receiveAny_some hr).1
    · rename_i f hr
      obtain rfl := (receiveAny_none hr).1
      exact h
  | grant t => exact h

theorem conserved_after (es : List MailEvent) : (after es).Conserved :=
  foldl_invariant (P := fun s _ => Conserved s) (fun _ _ _ => rfl) (fun _ _ e h => h.step e) es

theorem received_step (s : Mailbox) (e : MailEvent) : (s.step e).received = s.received ∨
    ∃ x, (s.step e).received = s.received ++ [x] ∧ x.2.time ≤ s.fed.timeGranted := by
  cases e with
  | createEndpoint id => exact .inl rfl
  | sendMessage hd m => exact .inl rfl
  | receive hd =>
    unfold Mailbox.step
    dsimp only
    split
    · exact .inr ⟨_, rfl, (receive_some ‹_›).due⟩
    · exact .inl rfl
  | receiveAny =>
    unfold Mailbox.step
    dsimp only
    split
    · exact .inr ⟨_, rfl, (receiveAny_some ‹_›).1.due⟩
    · exact .inl rfl
  | grant t => exact .inl rfl

/-- In every history, the messages handed out and those that wait are the ones that arrived, each
once. Those of one time and source are handed out in the order of their arrival, and no message is
handed out before its time. -/
theorem mail_conserved (es : List MailEvent) :
    (∀ hd, (inbox hd (after es).received ++ (after es).fed.waiting hd).Perm
        (inbox hd (after es).arrived) ∧
      ∀ t source, (inbox hd (after es).received).filter (isFrom t source) <+:
        (inbox hd (after es).arrived).filter (isFrom t source)) ∧
    ∀ e, ((after es).step e).received = (after es).received ∨
      ∃ x, ((after es).step e).received = (after es).received ++ [x] ∧
        x.2.time ≤ (after es).fed.timeGranted := by
  have hkept := conserved_after es
  refine ⟨fun hd => ⟨List.perm_iff_count.mpr fun m => ?_, fun t source => ?_⟩,
    (after es).received_step⟩
  · have hm : isFrom m.time m.originalSource m = true := isFrom_iff.mpr ⟨rfl, rfl⟩
    rw [← List.count_filter hm, hkept hd, List.count_filter hm]
  · rw [← hkept hd, List.filter_append]
    exact List.prefix_append _ _

/-- The messages are the due ones, each once, in order, and as many as were counted. -/
structure Delivers (s : Mailbox) (ms : List (InterfaceHandle × Message)) : Prop where
  due : ∀ hd, inbox hd ms = (s.fed.waiting hd).filter (isDue s.fed.timeGranted)
  times : ms.Pairwise fun x y => x.2.time ≤ y.2.time
  sources : ∀ hd, (inbox hd ms).Pairwise Le
  arrival : ∀ hd t source, t ≤ s.fed.timeGranted →
    (inbox hd (s.received ++ ms)).filter (isFrom t source) =
      (inbox hd s.arrived).filter (isFrom t source)
  count : ms.length = s.fed.getQueueSize

def NoneAtEnd (f : FederateData) : Prop :=
  f.timeGranted < .maxVal ∨ ∀ hd, ∀ m ∈ f.waiting hd, m.time ≠ .maxVal

theorem NoneAtEnd.isFound_eq (h : NoneAtEnd f) (hm : m ∈ f.waiting hd) :
    isFound f.timeGranted m = isDue f.timeGranted m := by
  unfold isFound isDue
  by_cases hdue : m.time ≤ f.timeGranted
  · have hlt : m.time < .maxVal := by
      obtain hg | hno := h
      · exact hdue.trans_lt hg
      · exact lt_of_le_of_ne m.time.le_maxVal (hno hd m hm)
    rw [decide_eq_true hlt, Bool.and_true]
  · rw [decide_eq_false hdue, Bool.false_and]

theorem NoneAtEnd.delivers (h : NoneAtEnd s.fed) (hs : s.Conserved)
    (hd : s.fed.Drains ms f') : s.Delivers ms := by
  have hdue : ∀ hd, inbox hd ms = (s.fed.waiting hd).filter (isDue s.fed.timeGranted) := by
    intro hd'
    rw [hd.inbox_eq]
    exact List.filter_congr fun m hm => h.isFound_eq hm
  constructor
  case due => exact hdue
  case times => exact hd.times
  case sources =>
    intro hd'
    rw [hdue]
    exact (s.fed.waiting_sorted hd').filter _
  case arrival =>
    intro hd' t source ht
    rw [← hs hd' t source, inbox_append, hdue, List.filter_append, List.filter_append,
      List.filter_filter]
    congr 1
    refine List.filter_congr fun m _ => ?_
    cases hf : m.isFrom t source with
    | false => rfl
    | true =>
      rw [Bool.true_and, isDue, (isFrom_iff.mp hf).1]
      exact decide_eq_true ht
  case count =>
    obtain ⟨hg, hleft⟩ := hd.left
    have hzero : f'.getQueueSize = 0 := by
      apply getQueueSize_eq_zero
      intro hd' m hm hle
      rw [hg] at hle
      obtain ⟨hwait, hmax⟩ := hleft hd' m hm
      obtain hlt | hno := h
      · exact absurd (hmax hle) (hle.trans_lt hlt).ne
      · exact hno hd' m hwait (hmax hle)
    rw [hd.count, hzero, Nat.add_zero]

theorem Delivers.noneAtEnd (h : s.Delivers ms) (hd : s.fed.Drains ms f') : NoneAtEnd s.fed := by
  obtain hlt | hge := lt_or_ge s.fed.timeGranted .maxVal
  · exact .inl hlt
  refine .inr fun hd' m hm hmax => ?_
  have hmem : m ∈ inbox hd' ms := by
    rw [h.due]
    exact List.mem_filter.mpr ⟨hm, decide_eq_true (m.time.le_maxVal.trans hge)⟩
  have hfound := (hd.mem_waiting (mem_inbox.mp hmem)).2
  rw [isFound, Bool.and_eq_true, decide_eq_true_iff] at hfound
  exact hfound.2.ne hmax

/-- After any history the calls of `receiveAny` come to an end, and they deliver the due messages
exactly if none of them is stamped with the maximum time. -/
theorem drains_in_order_iff (es : List MailEvent) :
    ∃ ms f', (after es).fed.Drains ms f' ∧ ((after es).Delivers ms ↔ NoneAtEnd (after es).fed) := by
  obtain ⟨ms, f', hd⟩ := (after es).fed.exists_drains
  exact ⟨ms, f', hd, fun h => h.noneAtEnd hd, fun h => h.delivers (conserved_after es) hd⟩

/-- A message for the maximum time is counted and due, but `receiveAny` does not return it. -/
theorem message_at_end_not_received :
    ∃ es, (after es).fed.getQueueSize = 1 ∧ (after es).fed.Drains [] (after es).fed ∧
      ¬ (after es).Delivers [] := by
  refine ⟨[.createEndpoint ⟨131072, 1⟩, .sendMessage 1 { time := .maxVal }, .grant .maxVal], ?_⟩
  have hcount : (after [.createEndpoint ⟨131072, 1⟩, .sendMessage 1 { time := .maxVal },
      .grant .maxVal]).fed.getQueueSize = 1 := by decide
  refine ⟨hcount, .done rfl, fun h => ?_⟩
  have hlen := h.count
  rw [hcount] at hlen
  cases hlen

end Mailbox

open ListRuns InputSource

theorem EndpointQueue.firstMessageTime_mem (e : EndpointQueue) :
    e.firstMessageTime = .maxVal ∨ ∃ m ∈ e.queue.messages, m.time = e.firstMessageTime := by
  unfold firstMessageTime
  cases e.queue.messages with
  | nil => exact .inl rfl
  | cons m l => exact .inr ⟨m, List.mem_cons_self, rfl⟩

theorem InputSource.firstValueTime_le {s : InputSource} (hr : r ∈ s.queue.records) :
    s.firstValueTime ≤ r.time := by
  have hsorted := s.queue.sorted
  unfold firstValueTime
  cases hq : s.queue.records with
  | nil =>
    rw [hq] at hr
    exact absurd hr List.not_mem_nil
  | cons a l =>
    rw [hq] at hr hsorted
    obtain rfl | hr := List.mem_cons.mp hr
    · exact le_rfl
    · exact ((List.pairwise_cons.mp hsorted).1 r hr).time

namespace InputQueues

/-- A value is waiting at an input that may be woken by it. -/
def Interrupts (inp : InputQueues) (t : Time) : Prop :=
  inp.notInterruptible = false ∧ ∃ s ∈ inp.sources, ∃ r ∈ s.queue.records, r.time = t

theorem nextValueTime_le {inp : InputQueues} (h : inp.Interrupts t) : inp.nextValueTime ≤ t := by
  obtain ⟨hint, s, hs, r, hr, rfl⟩ := h
  have hle := (isLeast_least (fun s : InputSource => !s.queue.records.isEmpty)
    firstValueTime .maxVal inp.sources).2
  have hne : (!s.queue.records.isEmpty) = true := by
    cases hq : s.queue.records with
    | nil =>
      rw [hq] at hr
      exact absurd hr List.not_mem_nil
    | cons => rfl
  have hnext : inp.nextValueTime ≤ s.firstValueTime := by
    rw [nextValueTime, hint]
    exact hle (.inr ⟨s, hs, hne, rfl⟩)
  exact hnext.trans (firstValueTime_le hr)

theorem nextValueTime_mem (inp : InputQueues) :
    inp.nextValueTime = .maxVal ∨ inp.Interrupts inp.nextValueTime := by
  cases hint : inp.notInterruptible with
  | true =>
    rw [nextValueTime, hint]
    exact .inl rfl
  | false =>
    have hnext : inp.nextValueTime = least (fun s : InputSource => !s.queue.records.isEmpty)
        firstValueTime .maxVal inp.sources := by
      rw [nextValueTime, hint]
      rfl
    rw [hnext]
    obtain hmax | ⟨s, hs, hne, ht⟩ :=
      (isLeast_least (fun s : InputSource => !s.queue.records.isEmpty)
      firstValueTime .maxVal inp.sources).1
    · exact .inl hmax
    rw [ht]
    refine .inr ⟨hint, s, hs, ?_⟩
    unfold firstValueTime
    cases hq : s.queue.records with
    | nil =>
      rw [hq] at hne
      cases hne
    | cons r l => exact ⟨r, List.mem_cons_self, rfl⟩

end InputQueues

namespace FederateData

/-- The times from the granted one on for which a message waits, and the end of time. -/
def messageTimes (f : FederateData) : Set Time :=
  {t | t = .maxVal ∨ f.timeGranted ≤ t ∧ ∃ e ∈ f.endpoints, ∃ m ∈ e.queue.messages, m.time = t}

/-- The times from the granted one on for which an interruptible input has a value, and the end of
time. -/
def valueTimes (f : FederateData) : Set Time :=
  {t | t = .maxVal ∨ f.timeGranted ≤ t ∧ ∃ inp ∈ f.inputs, inp.Interrupts t}

/-- A message that waits behind an overdue one is not before the first message of some endpoint that
is not overdue. -/
def MessagesShown (f : FederateData) : Prop :=
  ∀ e ∈ f.endpoints, e.firstMessageTime < f.timeGranted →
    ∀ m ∈ e.queue.messages, f.timeGranted ≤ m.time → m.time = .maxVal ∨
      ∃ e' ∈ f.endpoints, f.timeGranted ≤ e'.firstMessageTime ∧ e'.firstMessageTime ≤ m.time

/-- A value of an input with an overdue one is not before the next value of some input that has no
overdue one. -/
def ValuesShown (f : FederateData) : Prop :=
  ∀ inp ∈ f.inputs, inp.nextValueTime < f.timeGranted →
    ∀ t, inp.Interrupts t → f.timeGranted ≤ t → t = .maxVal ∨
      ∃ inp' ∈ f.inputs, f.timeGranted ≤ inp'.nextValueTime ∧ inp'.nextValueTime ≤ t

theorem isLeast_nextMessageTime_iff (f : FederateData) :
    IsLeast f.messageTimes f.nextMessageTime ↔ f.MessagesShown := by
  have hiff := isLeast_contents_iff EndpointQueue.firstMessageTime
    (fun e => {t | ∃ m ∈ e.queue.messages, m.time = t}) f.timeGranted Time.le_maxVal f.endpoints
    fun e _ => ⟨fun t ⟨m, hm, ht⟩ => ht ▸ EndpointQueue.firstMessageTime_le hm,
      e.firstMessageTime_mem⟩
  refine hiff.trans (forall₃_congr fun e he hlt => ?_)
  constructor
  · exact fun h m hm hge => h m.time ⟨m, hm, rfl⟩ hge
  · rintro h t ⟨m, hm, rfl⟩ hge
    exact h m hm hge

theorem isLeast_nextValueTime_iff (f : FederateData) :
    IsLeast f.valueTimes f.nextValueTime ↔ f.ValuesShown :=
  isLeast_contents_iff InputQueues.nextValueTime InputQueues.Interrupts f.timeGranted Time.le_maxVal
    f.inputs fun inp _ => ⟨fun _ ht => InputQueues.nextValueTime_le ht, inp.nextValueTime_mem⟩

/-- The times at which waiting data wakes a federate are the next ones exactly if no later data
hides behind data that is overdue. -/
theorem wake_up_iff (f : FederateData) :
    (IsLeast f.messageTimes f.nextMessageTime ↔ f.MessagesShown) ∧
      (IsLeast f.valueTimes f.nextValueTime ↔ f.ValuesShown) :=
  ⟨f.isLeast_nextMessageTime_iff, f.isLeast_nextValueTime_iff⟩

/-- A federate granted 10 seconds that has not read a message and a value for 5 seconds, with
another one of each for 20 seconds. -/
def unreadData : FederateData where
  timeGranted := .wrap 10000000000
  inputs :=
    [{ handle := 2
       sources := [{ id := ⟨131073, 1⟩
                     queue := (ValueQueue.store {} ⟨.wrap 5000000000, 0, some "a"⟩).store
                       ⟨.wrap 20000000000, 0, some "b"⟩ }] }]
  endpoints :=
    [{ id := ⟨131072, 1⟩
       queue := (MessageQueue.add {} { time := .wrap 5000000000 }).add
         { time := .wrap 20000000000 } }]

/-- Neither of the functions tells of the data for 20 seconds. -/
theorem unread_data_hides_next : unreadData.nextMessageTime = .maxVal ∧
      ¬ IsLeast unreadData.messageTimes unreadData.nextMessageTime ∧
      unreadData.nextValueTime = .maxVal ∧
      ¬ IsLeast unreadData.valueTimes unreadData.nextValueTime := by
  have hmessage : .wrap 20000000000 ∈ unreadData.messageTimes :=
    .inr ⟨by decide, _, List.mem_singleton.mpr rfl, { time := .wrap 20000000000 }, by decide, rfl⟩
  have hvalue : .wrap 20000000000 ∈ unreadData.valueTimes :=
    .inr ⟨by decide, _, List.mem_singleton.mpr rfl, rfl, _, List.mem_singleton.mpr rfl,
      ⟨.wrap 20000000000, 0, some "b"⟩, by decide, rfl⟩
  have hnextMessage : unreadData.nextMessageTime = .maxVal := by decide
  have hnextValue : unreadData.nextValueTime = .maxVal := by decide
  refine ⟨hnextMessage, fun h => ?_, hnextValue, fun h => ?_⟩
  · have hle : unreadData.nextMessageTime ≤ .wrap 20000000000 := h.2 hmessage
    rw [hnextMessage] at hle
    exact absurd hle (by decide)
  · have hle : unreadData.nextValueTime ≤ .wrap 20000000000 := h.2 hvalue
    rw [hnextValue] at hle
    exact absurd hle (by decide)

end FederateData

end Helics
