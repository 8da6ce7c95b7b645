import Helics.FederateState

namespace Helics

/-- What a federate does with a command, apart from the queues: the coordinator and the rest of its
state are left open, but no command of the federate itself is answered with a delay, and a command
that is has no effect. What a request finds in the interfaces of the federate is an input. -/
structure CommandHandler (σ ρ : Type) where
  globalId : GlobalId
  ended : σ → Bool
  process : σ → ActionMessage → MessageProcessingResult × σ
  start : ρ → σ → ActionMessage → σ
  check : σ → ActionMessage → MessageProcessingResult × σ
  delayable : ∀ fed cmd, (process fed cmd).1 = .delayMessage → cmd.sourceId ≠ globalId
  unchanged : ∀ fed cmd, (process fed cmd).1 = .delayMessage → (process fed cmd).2 = fed
  checked : ∀ fed cmd, (check fed cmd).1 ≠ .delayMessage

namespace CommandHandler

def isOwnRequest (h : CommandHandler σ ρ) (cmd : ActionMessage) : Bool :=
  (decide (cmd.messageAction = .cmdExecRequest) || decide (cmd.messageAction = .cmdTimeRequest)) &&
    decide (cmd.sourceId = h.globalId) && decide (cmd.destId = parentBrokerId)

/-- The state of a federate after exactly these commands have taken effect in this order: an own
request starts and is checked later, every other command is processed without a delay. -/
inductive Acts (h : CommandHandler σ ρ) (initial : σ) : List ActionMessage → σ → Prop
  | nil : Acts h initial [] initial
  | own (r : ρ) (hown : h.isOwnRequest cmd = true) (ha : Acts h initial cmds fed) :
    Acts h initial (cmds ++ [cmd]) (h.start r fed cmd)
  | other (hown : h.isOwnRequest cmd = false) (hd : (h.process fed cmd).1 ≠ .delayMessage)
    (ha : Acts h initial cmds fed) : Acts h initial (cmds ++ [cmd]) (h.process fed cmd).2
  | check (hown : h.isOwnRequest cmd = true) (hmem : cmd ∈ cmds) (ha : Acts h initial cmds fed) :
    Acts h initial cmds (h.check fed cmd).2

/-- A command was tried between two points of the run and answered with a delay. -/
def Delays (h : CommandHandler σ ρ) (initial : σ) (before after : List ActionMessage)
    (cmd : ActionMessage) : Prop :=
  ∃ fed cmds, before <+: cmds ∧ cmds <+: after ∧ h.Acts initial cmds fed ∧
    (h.process fed cmd).1 = .delayMessage

theorem isOwnRequest_source {h : CommandHandler σ ρ} (hown : h.isOwnRequest cmd = true) :
    cmd.sourceId = h.globalId := by
  unfold isOwnRequest at hown
  exact of_decide_eq_true (Bool.and_eq_true_iff.mp (Bool.and_eq_true_iff.mp hown).1).2

end CommandHandler

structure FederateQueue (σ : Type) where
  fed : σ
  queue : List ActionMessage := []
  delayQueues : List (GlobalId × List ActionMessage) := []
  delayedFederates : List GlobalId := []
  processing : Bool := false
  pushed : List ActionMessage := []
  handled : List ActionMessage := []

def addFederateToDelay (id : GlobalId) : List GlobalId → List GlobalId
  | [] => [id]
  | a :: l =>
    if a < id then a :: addFederateToDelay id l else if a = id then a :: l else id :: a :: l

/-- Up to two delayed federates are compared one by one, more are searched. -/
def messageShouldBeDelayed (delayedFederates : List GlobalId) (cmd : ActionMessage) : Bool :=
  match delayedFederates with
  | [] => false
  | [a] => decide (cmd.sourceId = a)
  | [a, b] => decide (cmd.sourceId = a) || decide (cmd.sourceId = b)
  | l => decide ((l.dropWhile (fun a => decide (a < cmd.sourceId))).head? = some cmd.sourceId)

/-- A delayed command goes to the end of the queue of its sender, which may be new. -/
def pushDelayed (cmd : ActionMessage) :
    List (GlobalId × List ActionMessage) → List (GlobalId × List ActionMessage)
  | [] => [(cmd.sourceId, [cmd])]
  | (id, q) :: rest =>
    if id < cmd.sourceId then (id, q) :: pushDelayed cmd rest
    else if id = cmd.sourceId then (id, q ++ [cmd]) :: rest
    else (cmd.sourceId, [cmd]) :: (id, q) :: rest

def delayedFor (id : GlobalId) : List (GlobalId × List ActionMessage) → List ActionMessage
  | [] => []
  | (id', q) :: rest => if id' = id then q else delayedFor id rest

structure Drained (σ : Type) where
  result : MessageProcessingResult
  fed : σ
  delayedFederates : List GlobalId
  rest : List ActionMessage
  handled : List ActionMessage

/-- Processing one delay queue until it is empty, delayed again or has a result to return. -/
def drain (h : CommandHandler σ ρ) (fed : σ) (delayed : List GlobalId) :
    List ActionMessage → Drained σ
  | [] => ⟨.continueProcessing, fed, delayed, [], []⟩
  | cmd :: q =>
    if messageShouldBeDelayed delayed cmd then ⟨.delayMessage, fed, delayed, cmd :: q, []⟩
    else match (h.process fed cmd).1 with
      | .delayMessage => ⟨.delayMessage, (h.process fed cmd).2,
          addFederateToDelay cmd.sourceId delayed, cmd :: q, []⟩
      | .continueProcessing =>
        let d := drain h (h.process fed cmd).2 delayed q
        { d with handled := cmd :: d.handled }
      | r => ⟨r, (h.process fed cmd).2, delayed, q, [cmd]⟩

structure DrainedAll (σ : Type) where
  result : MessageProcessingResult
  fed : σ
  delayedFederates : List GlobalId
  delayQueues : List (GlobalId × List ActionMessage)
  handled : List ActionMessage

/-- The loop over the delay queues leaves the later ones alone once there is a result to return. -/
def drainAll (h : CommandHandler σ ρ) (result : MessageProcessingResult) (fed : σ)
    (delayed : List GlobalId) : List (GlobalId × List ActionMessage) → DrainedAll σ
  | [] => ⟨result, fed, delayed, [], []⟩
  | (id, q) :: rest =>
    let d := drain h fed delayed q
    if returnableResult d.result then
      ⟨d.result, d.fed, d.delayedFederates, (id, d.rest) :: rest, d.handled⟩
    else
      let r := drainAll h d.result d.fed d.delayedFederates rest
      { r with delayQueues := (id, d.rest) :: r.delayQueues, handled := d.handled ++ r.handled }

namespace FederateQueue

variable (h : CommandHandler σ ρ)

/-- The set of delayed federates is cleared and built again. The delay queues hold only commands of
others, so the scan does not meet an own request, which would start it again. -/
def processDelayQueue (s : FederateQueue σ) : MessageProcessingResult × FederateQueue σ :=
  let r := drainAll h .continueProcessing s.fed [] s.delayQueues
  (r.result, { s with
    fed := r.fed
    delayedFederates := r.delayedFederates
    delayQueues := r.delayQueues
    handled := s.handled ++ r.handled })

def processActionMessage (found : ρ) (s : FederateQueue σ) (cmd : ActionMessage) :
    MessageProcessingResult × FederateQueue σ :=
  if h.isOwnRequest cmd then
    let r := processDelayQueue h { s with
      fed := h.start found s.fed cmd
      handled := s.handled ++ [cmd] }
    if returnableResult r.1 then r
    else ((h.check r.2.fed cmd).1, { r.2 with fed := (h.check r.2.fed cmd).2 })
  else if (h.process s.fed cmd).1 = .delayMessage then
    (.delayMessage, { s with
      fed := (h.process s.fed cmd).2
      delayedFederates := addFederateToDelay cmd.sourceId s.delayedFederates })
  else ((h.process s.fed cmd).1, { s with
    fed := (h.process s.fed cmd).2
    handled := s.handled ++ [cmd] })

def enterProcessQueue (s : FederateQueue σ) : FederateQueue σ :=
  if h.ended s.fed then s
  else { (s.processDelayQueue h).2 with processing := !returnableResult (s.processDelayQueue h).1 }

def turn (found : ρ) (s : FederateQueue σ) (cmd : ActionMessage) : FederateQueue σ :=
  if messageShouldBeDelayed s.delayedFederates cmd then
    { s with delayQueues := pushDelayed cmd s.delayQueues }
  else
    let r := s.processActionMessage h found cmd
    if r.1 = .delayMessage then { r.2 with delayQueues := pushDelayed cmd r.2.delayQueues }
    else { r.2 with processing := !returnableResult r.1 }

def popCommand (found : ρ) (s : FederateQueue σ) : FederateQueue σ :=
  match s.queue with
  | [] => s
  | cmd :: queue => turn h found { s with queue := queue } cmd

end FederateQueue

/-- Commands arrive at any time; a call of `processQueue` starts and then takes turns until it
returns. -/
inductive QueueEvent (ρ : Type) where
  | push (cmd : ActionMessage)
  | call
  | pop (found : ρ)

def QueueEvent.pushed : QueueEvent ρ → List ActionMessage
  | .push cmd => if cmd.messageAction = .cmdIgnore then [] else [cmd]
  | .call => []
  | .pop _ => []

def FederateQueue.step (h : CommandHandler σ ρ) (s : FederateQueue σ) :
    QueueEvent ρ → FederateQueue σ
  | .push cmd =>
    if cmd.messageAction = .cmdIgnore then s
    else { s with queue := s.queue ++ [cmd], pushed := s.pushed ++ [cmd] }
  | .call => if s.processing then s else s.enterProcessQueue h
  | .pop found => if s.processing then s.popCommand h found else s

theorem mem_addFederateToDelay (src : GlobalId) (l : List GlobalId) :
    x ∈ addFederateToDelay src l ↔ x = src ∨ x ∈ l := by
  induction l with
  | nil => exact List.mem_cons
  | cons a l ih =>
    unfold addFederateToDelay
    split
    · rw [List.mem_cons, ih, List.mem_cons]
      exact or_left_comm
    split
    · rename_i heq
      rw [heq, List.mem_cons]
      exact (or_iff_right_of_imp .inl).symm
    · exact List.mem_cons

theorem sorted_addFederateToDelay (src : GlobalId)
    (h : l.Pairwise (· < ·)) : (addFederateToDelay src l).Pairwise (· < ·) := by
  induction l with
  | nil => exact List.pairwise_singleton _ _
  | cons a l ih =>
    obtain ⟨ha, hl⟩ := List.pairwise_cons.mp h
    unfold addFederateToDelay
    split
    · rename_i hlt
      refine List.pairwise_cons.mpr ⟨fun b hb => ?_, ih hl⟩
      obtain rfl | hb := (mem_addFederateToDelay src l).mp hb
      · exact hlt
      · exact ha b hb
    · split
      · exact h
      rename_i hnlt hne
      have hlt : src < a := lt_of_le_of_ne (not_lt.mp hnlt) (Ne.symm hne)
      refine List.pairwise_cons.mpr ⟨fun b hb => ?_, h⟩
      obtain rfl | hb := List.mem_cons.mp hb
      · exact hlt
      · exact hlt.trans (ha b hb)

theorem head?_dropWhile_lt {l : List GlobalId} (h : l.Pairwise (· < ·)) :
    (l.dropWhile (fun a => decide (a < x))).head? = some x ↔ x ∈ l := by
  induction l with
  | nil => simp
  | cons a l ih =>
    obtain ⟨ha, hl⟩ := List.pairwise_cons.mp h
    by_cases hlt : a < x
    · rw [List.dropWhile_cons_of_pos (by simpa using hlt), ih hl, List.mem_cons]
      exact (or_iff_right hlt.ne').symm
    rw [List.dropWhile_cons_of_neg (by simpa using hlt), List.head?_cons, Option.some.injEq,
      List.mem_cons]
    constructor
    · exact fun heq => .inl heq.symm
    · rintro (rfl | hx)
      · rfl
      · exact absurd (ha x hx) hlt

theorem messageShouldBeDelayed_iff (h : l.Pairwise (· < ·))
    (cmd : ActionMessage) : messageShouldBeDelayed l cmd = true ↔ cmd.sourceId ∈ l := by
  match l with
  | [] => exact iff_of_false Bool.false_ne_true List.not_mem_nil
  | [a] => exact decide_eq_true_iff.trans List.mem_singleton.symm
  | [a, b] =>
    unfold messageShouldBeDelayed
    simp only [Bool.or_eq_true, decide_eq_true_eq, List.mem_cons, List.not_mem_nil, or_false]
  | a :: b :: c :: l => exact decide_eq_true_iff.trans (head?_dropWhile_lt h)

/-- The delay queues are kept in the order of their senders, and each holds commands of its own. -/
structure DelayQueues (l : List (GlobalId × List ActionMessage)) : Prop where
  sorted : (l.map Prod.fst).Pairwise (· < ·)
  sender : ∀ e ∈ l, ∀ cmd ∈ e.2, cmd.sourceId = e.1

theorem DelayQueues.tail (h : DelayQueues (e :: l)) : DelayQueues l :=
  ⟨(List.pairwise_cons.mp h.sorted).2, fun e' he' => h.sender e' (List.mem_cons_of_mem _ he')⟩

theorem delayedFor_cons_self (src : GlobalId) (q : List ActionMessage)
    (l : List (GlobalId × List ActionMessage)) : delayedFor src ((src, q) :: l) = q :=
  if_pos rfl

theorem delayedFor_cons_ne (h : src ≠ x) (q : List ActionMessage)
    (l : List (GlobalId × List ActionMessage)) : delayedFor x ((src, q) :: l) = delayedFor x l :=
  if_neg h

theorem delayedFor_of_not_mem
    (h : x ∉ l.map Prod.fst) : delayedFor x l = [] := by
  induction l with
  | nil => rfl
  | cons e l ih =>
    obtain ⟨hne, hl⟩ := List.ne_and_not_mem_of_not_mem_cons h
    exact (delayedFor_cons_ne (Ne.symm hne) e.2 l).trans (ih hl)

theorem DelayQueues.not_mem_tail (h : DelayQueues ((src, q) :: l)) : src ∉ l.map Prod.fst :=
  fun hmem => lt_irrefl src ((List.pairwise_cons.mp h.sorted).1 src hmem)

theorem keys_pushDelayed (cmd : ActionMessage) (l : List (GlobalId × List ActionMessage)) :
    (pushDelayed cmd l).map Prod.fst = addFederateToDelay cmd.sourceId (l.map Prod.fst) := by
  induction l with
  | nil => rfl
  | cons e l ih =>
    rw [List.map_cons]
    unfold pushDelayed addFederateToDelay
    split
    · exact congrArg (e.1 :: ·) ih
    · split <;> rfl

theorem DelayQueues.delayedFor_push (h : DelayQueues l) (cmd : ActionMessage) (x : GlobalId) :
    delayedFor x (pushDelayed cmd l) =
      delayedFor x l ++ if cmd.sourceId = x then [cmd] else [] := by
  induction l with
  | nil =>
    show (if cmd.sourceId = x then [cmd] else []) = _
    rfl
  | cons e l ih =>
    obtain ⟨src, q⟩ := e
    have ih := ih h.tail
    unfold pushDelayed
    by_cases hlt : src < cmd.sourceId
    · rw [if_pos hlt]
      by_cases hx : src = x
      · subst hx
        rw [delayedFor_cons_self, delayedFor_cons_self, if_neg hlt.ne', List.append_nil]
      · rw [delayedFor_cons_ne hx, delayedFor_cons_ne hx, ih]
    · rw [if_neg hlt]
      by_cases heq : src = cmd.sourceId
      · subst heq
        rw [if_pos rfl]
        by_cases hx : cmd.sourceId = x
        · subst hx
          rw [delayedFor_cons_self, delayedFor_cons_self, if_pos rfl]
        · rw [delayedFor_cons_ne hx, delayedFor_cons_ne hx, if_neg hx, List.append_nil]
      · rw [if_neg heq]
        by_cases hx : cmd.sourceId = x
        · subst hx
          have hnot : cmd.sourceId ∉ ((src, q) :: l).map Prod.fst := by
            rw [List.map_cons, List.mem_cons]
            rintro (hid | hmem)
            · exact heq hid.symm
            · exact hlt ((List.pairwise_cons.mp h.sorted).1 _ hmem)
          rw [delayedFor_cons_self, delayedFor_of_not_mem hnot, if_pos rfl, List.nil_append]
        · rw [delayedFor_cons_ne hx, if_neg hx, List.append_nil]

theorem DelayQueues.push (h : DelayQueues l) (cmd : ActionMessage) :
    DelayQueues (pushDelayed cmd l) := by
  constructor
  · rw [keys_pushDelayed]
    exact sorted_addFederateToDelay _ h.sorted
  · induction l with
    | nil =>
      intro e he c hc
      obtain rfl := List.mem_singleton.mp he
      obtain rfl := List.mem_singleton.mp hc
      rfl
    | cons e l ih =>
      obtain ⟨src, q⟩ := e
      unfold pushDelayed
      split
      · intro e' he'
        obtain rfl | he' := List.mem_cons.mp he'
        · exact h.sender _ List.mem_cons_self
        · exact ih h.tail e' he'
      split
      · rename_i heq
        intro e' he'
        obtain rfl | he' := List.mem_cons.mp he'
        · intro c hc
          obtain hc | hc := List.mem_append.mp hc
          · exact h.sender (src, q) List.mem_cons_self c hc
          · obtain rfl := List.mem_singleton.mp hc
            exact heq.symm
        · exact h.sender e' (List.mem_cons_of_mem _ he')
      · intro e' he'
        obtain rfl | he' := List.mem_cons.mp he'
        · intro c hc
          obtain rfl := List.mem_singleton.mp hc
          rfl
        · exact h.sender e' he'

def sentBy (x : GlobalId) (l : List ActionMessage) : List ActionMessage :=
  l.filter fun cmd => decide (cmd.sourceId = x)

theorem sentBy_append (x : GlobalId) (l l' : List ActionMessage) :
    sentBy x (l ++ l') = sentBy x l ++ sentBy x l' :=
  List.filter_append ..

theorem sentBy_singleton (x : GlobalId) (cmd : ActionMessage) :
    sentBy x [cmd] = if cmd.sourceId = x then [cmd] else [] := by
  unfold sentBy
  rw [List.filter_singleton]
  by_cases h : cmd.sourceId = x
  · rw [decide_eq_true h, if_pos h]
    rfl
  · rw [decide_eq_false h, if_neg h]
    rfl

theorem sentBy_all (h : ∀ cmd ∈ l, cmd.sourceId = x) : sentBy x l = l :=
  List.filter_eq_self.mpr fun cmd hc => decide_eq_true (h cmd hc)

theorem sentBy_none (h : ∀ cmd ∈ l, cmd.sourceId ≠ x) : sentBy x l = [] :=
  List.filter_eq_nil_iff.mpr fun cmd hc => by simpa using h cmd hc

theorem sentBy_comm_delayedFor (h : delayedFor cmd.sourceId l = []) (x : GlobalId) :
    sentBy x [cmd] ++ delayedFor x l = delayedFor x l ++ sentBy x [cmd] := by
  rw [sentBy_singleton]
  split
  · rename_i hx
    rw [← hx, h]
    rfl
  · exact (List.append_nil _).symm

/-- What processing one delay queue does: it takes commands from the front, and what stays has its
sender delayed unless the scan stops. -/
structure DrainOutcome (h : CommandHandler σ ρ) (fed : σ) (src : GlobalId)
    (delayed : List GlobalId) (q : List ActionMessage) (d : Drained σ) : Prop where
  split : q = d.handled ++ d.rest
  acts : ∀ {initial cmds}, h.Acts initial cmds fed → h.Acts initial (cmds ++ d.handled) d.fed
  sorted : d.delayedFederates.Pairwise (· < ·)
  foreign : h.globalId ∉ d.delayedFederates
  mono : ∀ x ∈ delayed, x ∈ d.delayedFederates
  exact : ∀ x ∈ d.delayedFederates, x ∈ delayed ∨ (x = src ∧ d.rest ≠ [])
  tried : src ∉ delayed → returnableResult d.result = false →
    ∀ cmd rest, d.rest = cmd :: rest → (h.process d.fed cmd).1 = .delayMessage
  blocked : returnableResult d.result = false → d.rest ≠ [] → src ∈ d.delayedFederates

theorem foreign_addFederateToDelay (h : src ≠ own) (hl : own ∉ delayed) :
    own ∉ addFederateToDelay src delayed := by
  rw [mem_addFederateToDelay, not_or]
  exact ⟨h.symm, hl⟩

theorem drain_outcome (h : CommandHandler σ ρ) (fed : σ) (hs : delayed.Pairwise (· < ·))
    (hf : h.globalId ∉ delayed) (hsrc : src ≠ h.globalId) (hq : ∀ cmd ∈ q, cmd.sourceId = src) :
    DrainOutcome h fed src delayed q (drain h fed delayed q) := by
  induction q generalizing fed with
  | nil =>
    exact ⟨rfl, fun ha => (List.append_nil _).symm ▸ ha, hs, hf, fun _ hx => hx, fun _ => .inl,
      fun _ _ _ _ he => (nomatch he), fun _ hne => absurd rfl hne⟩
  | cons cmd q ih =>
    have hid := hq cmd List.mem_cons_self
    have hother : h.isOwnRequest cmd = false := Bool.eq_false_iff.mpr fun hown =>
      hsrc (hid ▸ CommandHandler.isOwnRequest_source hown)
    unfold drain
    split
    · rename_i hd
      have hmem : src ∈ delayed := hid ▸ (messageShouldBeDelayed_iff hs cmd).mp hd
      exact ⟨rfl, fun ha => (List.append_nil _).symm ▸ ha, hs, hf, fun _ hx => hx, fun _ => .inl,
        fun hfree => absurd hmem hfree, fun _ _ => hmem⟩
    split
    · rename_i hdelay
      refine ⟨rfl, fun ha => ?_, sorted_addFederateToDelay _ hs,
        foreign_addFederateToDelay (h.delayable fed cmd hdelay) hf,
        fun x hx => (mem_addFederateToDelay _ _).mpr (.inr hx), fun x hx => ?_,
        fun _ _ _ _ he => ?_, fun _ _ => (mem_addFederateToDelay _ _).mpr (.inl hid.symm)⟩
      · dsimp only
        rw [h.unchanged fed cmd hdelay, List.append_nil]
        exact ha
      · rcases (mem_addFederateToDelay _ _).mp hx with rfl | hx
        · exact .inr ⟨hid, List.cons_ne_nil _ _⟩
        · exact .inl hx
      · dsimp only
        rw [h.unchanged fed cmd hdelay, ← (List.cons.inj he).1, hdelay]
    · rename_i hcont
      have hd := ih (h.process fed cmd).2 fun c hc => hq c (List.mem_cons_of_mem _ hc)
      refine ⟨congrArg (cmd :: ·) hd.split, fun ha => ?_, hd.sorted, hd.foreign, hd.mono, hd.exact,
        hd.tried, hd.blocked⟩
      have hstep := hd.acts (ha.other hother (by rw [hcont]; exact nofun))
      rw [List.append_assoc] at hstep
      exact hstep
    · rename_i hdelay hcont
      have hstop : returnableResult (h.process fed cmd).1 ≠ false := by
        unfold returnableResult
        rw [decide_eq_true (p := _ ≠ _) hcont, decide_eq_true (p := _ ≠ _) hdelay]
        exact nofun
      exact ⟨rfl, fun ha => ha.other hother hdelay, hs, hf, fun _ hx => hx, fun _ => .inl,
        fun _ hret => absurd hret hstop, fun hret => absurd hret hstop⟩

structure DrainAllOutcome (h : CommandHandler σ ρ) (fed : σ) (delayed : List GlobalId)
    (l : List (GlobalId × List ActionMessage)) (r : DrainedAll σ) : Prop where
  queues : DelayQueues r.delayQueues
  acts : ∀ {initial cmds}, h.Acts initial cmds fed → h.Acts initial (cmds ++ r.handled) r.fed
  keys : r.delayQueues.map Prod.fst = l.map Prod.fst
  senders : ∀ cmd ∈ r.handled, cmd.sourceId ∈ l.map Prod.fst
  account : ∀ x, sentBy x r.handled ++ delayedFor x r.delayQueues = delayedFor x l
  sorted : r.delayedFederates.Pairwise (· < ·)
  foreign : h.globalId ∉ r.delayedFederates
  mono : ∀ x ∈ delayed, x ∈ r.delayedFederates
  exact : ∀ x ∈ r.delayedFederates, x ∈ delayed ∨ delayedFor x r.delayQueues ≠ []
  tried : (∀ x ∈ l.map Prod.fst, x ∉ delayed) → returnableResult r.result = false →
    ∀ {initial cmds}, h.Acts initial cmds fed → ∀ x cmd rest,
      delayedFor x r.delayQueues = cmd :: rest → h.Delays initial cmds (cmds ++ r.handled) cmd
  blocked : returnableResult r.result = false →
    ∀ x, delayedFor x r.delayQueues ≠ [] → x ∈ r.delayedFederates

theorem account_cons (hq : ∀ cmd ∈ handled ++ rest, cmd.sourceId = src)
    (hl : ∀ cmd ∈ later, cmd.sourceId ≠ src)
    (h : ∀ x, sentBy x later ++ delayedFor x l' = delayedFor x l) (x : GlobalId) :
    sentBy x (handled ++ later) ++ delayedFor x ((src, rest) :: l') =
      delayedFor x ((src, handled ++ rest) :: l) := by
  have hh : ∀ cmd ∈ handled, cmd.sourceId = src := fun c hc => hq c (List.mem_append_left _ hc)
  rw [sentBy_append]
  by_cases hx : src = x
  · subst hx
    rw [delayedFor_cons_self, delayedFor_cons_self, sentBy_all hh, sentBy_none hl, List.append_nil]
  · have hnone : sentBy x handled = [] := sentBy_none fun c hc he => hx ((hh c hc).symm.trans he)
    rw [delayedFor_cons_ne hx, delayedFor_cons_ne hx, hnone, List.nil_append, h]

section
variable {h : CommandHandler σ ρ} {d : Drained σ} (hd : DrainOutcome h fed src delayed q d)
  (hl : DelayQueues ((src, q) :: l))
include hd hl

theorem DrainOutcome.sender : ∀ cmd ∈ d.handled ++ d.rest, cmd.sourceId = src := by
  rw [← hd.split]
  exact hl.sender (src, q) List.mem_cons_self

theorem DrainOutcome.senders (hl' : ∀ e ∈ l', ∀ cmd ∈ e.2, cmd.sourceId = e.1) :
    ∀ e ∈ (src, d.rest) :: l', ∀ cmd ∈ e.2, cmd.sourceId = e.1 :=
  List.forall_mem_cons.mpr ⟨fun c hc => hd.sender hl c (List.mem_append_right _ hc), hl'⟩

/-- The scan stops at the first queue. -/
theorem DrainOutcome.stops (hret : returnableResult d.result = true) :
    DrainAllOutcome h fed delayed ((src, q) :: l)
      ⟨d.result, d.fed, d.delayedFederates, (src, d.rest) :: l, d.handled⟩ := by
  have hq := hd.sender hl
  have hstop : returnableResult d.result ≠ false := fun hfalse => nomatch hret.symm.trans hfalse
  refine ⟨⟨hl.sorted, hd.senders hl hl.tail.sender⟩, hd.acts, rfl, ?_, ?_, hd.sorted, hd.foreign,
    hd.mono, ?_, fun _ hfalse => absurd hfalse hstop, fun hfalse => absurd hfalse hstop⟩
  · intro cmd hc
    rw [hq cmd (List.mem_append_left _ hc)]
    exact List.mem_cons_self
  · have hnone : ∀ cmd ∈ ([] : List ActionMessage), cmd.sourceId ≠ src := fun _ hc => nomatch hc
    have hacc := account_cons (l := l) hq hnone (fun _ => rfl)
    rw [hd.split]
    simpa only [List.append_nil] using hacc
  · intro x hx
    exact (hd.exact x hx).imp_right fun ⟨hx, hne⟩ => by rwa [hx, delayedFor_cons_self]

section
variable (hret : returnableResult d.result = false)
  (hr : DrainAllOutcome h d.fed d.delayedFederates l r)
include hr

theorem DrainOutcome.exact_cons (x : GlobalId) (hx : x ∈ r.delayedFederates) :
    x ∈ delayed ∨ delayedFor x ((src, d.rest) :: r.delayQueues) ≠ [] := by
  by_cases hxs : src = x
  · subst hxs
    rw [delayedFor_cons_self]
    refine (hr.exact src hx).elim (fun hx => (hd.exact src hx).imp_right And.right) fun hne => ?_
    exact absurd (delayedFor_of_not_mem (hr.keys ▸ hl.not_mem_tail)) hne
  · rw [delayedFor_cons_ne hxs]
    refine (hr.exact x hx).elim (fun hx => .inl ?_) .inr
    exact (hd.exact x hx).resolve_right fun ⟨he, _⟩ => hxs he.symm

include hret

theorem DrainOutcome.tried_cons (hfree : ∀ x ∈ src :: l.map Prod.fst, x ∉ delayed)
    (hfalse : returnableResult r.result = false) (ha : h.Acts initial cmds fed)
    (hq : delayedFor x ((src, d.rest) :: r.delayQueues) = cmd :: rest) :
    h.Delays initial cmds (cmds ++ (d.handled ++ r.handled)) cmd := by
  rw [← List.append_assoc]
  by_cases hx : src = x
  · subst hx
    rw [delayedFor_cons_self] at hq
    exact ⟨d.fed, cmds ++ d.handled, List.prefix_append _ _, List.prefix_append _ _,
      hd.acts ha, hd.tried (hfree src List.mem_cons_self) hret cmd rest hq⟩
  · rw [delayedFor_cons_ne hx] at hq
    have htail : ∀ y ∈ l.map Prod.fst, y ∉ d.delayedFederates := fun y hy hmem =>
      (hd.exact y hmem).elim (hfree y (List.mem_cons_of_mem _ hy))
        fun ⟨he, _⟩ => hl.not_mem_tail (he ▸ hy)
    obtain ⟨f, tried, hbefore, hafter⟩ := hr.tried htail hfalse (hd.acts ha) x cmd rest hq
    exact ⟨f, tried, (List.prefix_append _ _).trans hbefore, hafter⟩

/-- The scan goes on with the next queue. -/
theorem DrainOutcome.goesOn : DrainAllOutcome h fed delayed ((src, q) :: l) { r with
    delayQueues := (src, d.rest) :: r.delayQueues
    handled := d.handled ++ r.handled } := by
  have hq := hd.sender hl
  have hlater : ∀ cmd ∈ r.handled, cmd.sourceId ≠ src := fun c hc he =>
    hl.not_mem_tail (he ▸ hr.senders c hc)
  refine ⟨⟨?_, hd.senders hl hr.queues.sender⟩, fun ha => ?_, congrArg (src :: ·) hr.keys, ?_, ?_,
    hr.sorted, hr.foreign, fun x hx => hr.mono x (hd.mono x hx), hd.exact_cons hl hr,
    fun hfree hfalse _ _ ha _ _ _ hq => hd.tried_cons hl hret hr hfree hfalse ha hq, ?_⟩
  · rw [List.map_cons, hr.keys]
    exact hl.sorted
  · rw [← List.append_assoc]
    exact hr.acts (hd.acts ha)
  · intro cmd hc
    obtain hc | hc := List.mem_append.mp hc
    · rw [hq cmd (List.mem_append_left _ hc)]
      exact List.mem_cons_self
    · exact List.mem_cons_of_mem _ (hr.senders cmd hc)
  · rw [hd.split]
    exact account_cons hq hlater hr.account
  · intro hfalse x hne
    by_cases hx : src = x
    · subst hx
      rw [delayedFor_cons_self] at hne
      exact hr.mono _ (hd.blocked hret hne)
    · rw [delayedFor_cons_ne hx] at hne
      exact hr.blocked hfalse x hne

end

end

theorem drainAll_outcome (h : CommandHandler σ ρ) (result : MessageProcessingResult) (fed : σ)
    (hs : delayed.Pairwise (· < ·)) (hf : h.globalId ∉ delayed) (hl : DelayQueues l)
    (hkeys : h.globalId ∉ l.map Prod.fst) :
    DrainAllOutcome h fed delayed l (drainAll h result fed delayed l) := by
  induction l generalizing result fed delayed with
  | nil =>
    exact ⟨hl, fun ha => (List.append_nil _).symm ▸ ha, rfl, fun _ hc => absurd hc List.not_mem_nil,
      fun _ => rfl, hs, hf, fun _ hx => hx, fun _ => .inl, fun _ _ _ _ _ _ _ _ he => (nomatch he),
      fun _ _ hne => absurd rfl hne⟩
  | cons e l ih =>
    have hsrc : e.1 ≠ h.globalId := fun he => hkeys (he ▸ List.mem_cons_self)
    have hd := drain_outcome h fed hs hf hsrc (hl.sender e List.mem_cons_self)
    unfold drainAll
    dsimp only
    split
    · rename_i hret
      exact hd.stops hl hret
    · rename_i hret
      exact hd.goesOn hl (Bool.eq_false_iff.mpr hret) (ih _ _ hd.sorted hd.foreign hl.tail
        fun hmem => hkeys (List.mem_cons_of_mem _ hmem))

namespace FederateQueue

variable {h : CommandHandler σ ρ}

/-- The queues without the account of the commands: nothing of the federate itself is delayed, only
senders with a waiting command are, and while a call takes its turns all of them. -/
structure Sound (own : GlobalId) (s : FederateQueue σ) : Prop where
  queues : DelayQueues s.delayQueues
  sorted : s.delayedFederates.Pairwise (· < ·)
  notDelayed : own ∉ s.delayedFederates
  foreign : own ∉ s.delayQueues.map Prod.fst
  waiting : ∀ x ∈ s.delayedFederates, delayedFor x s.delayQueues ≠ []
  blocked : s.processing = true → ∀ x, delayedFor x s.delayQueues ≠ [] → x ∈ s.delayedFederates

/-- The commands of a sender that have taken effect and those that are held back, in this order. -/
def taken (s : FederateQueue σ) (x : GlobalId) : List ActionMessage :=
  sentBy x s.handled ++ delayedFor x s.delayQueues

/-- The second state has the effects of the commands taken since the first. -/
def Continues (h : CommandHandler σ ρ) (s s' : FederateQueue σ) : Prop :=
  ∀ {initial}, h.Acts initial s.handled s.fed → h.Acts initial s'.handled s'.fed

variable {s : FederateQueue σ}

theorem Sound.drained (hs : s.Sound h.globalId) :
    DrainAllOutcome h s.fed [] s.delayQueues
      (drainAll h .continueProcessing s.fed [] s.delayQueues) :=
  drainAll_outcome h .continueProcessing s.fed List.Pairwise.nil List.not_mem_nil hs.queues
    hs.foreign

theorem Sound.processDelayQueue (hs : s.Sound h.globalId) :
    (∀ b : Bool, (b = true → returnableResult (s.processDelayQueue h).1 = false) →
      Sound h.globalId { (s.processDelayQueue h).2 with processing := b }) ∧
    ∀ x, (s.processDelayQueue h).2.taken x = s.taken x := by
  have hr := hs.drained
  constructor
  · intro b hb
    exact ⟨hr.queues, hr.sorted, hr.foreign, hr.keys ▸ hs.foreign,
      fun x hx => (hr.exact x hx).resolve_left List.not_mem_nil, fun hp => hr.blocked (hb hp)⟩
  · intro x
    show sentBy x (s.handled ++ _) ++ delayedFor x _ = sentBy x s.handled ++ _
    rw [sentBy_append, List.append_assoc]
    exact congrArg _ (hr.account x)

/-- A command is held back behind those of its sender that are, or as the first of them. -/
theorem Sound.hold (hs : s.Sound own) (hsrc : cmd.sourceId ≠ own) (hsorted : d.Pairwise (· < ·))
    (hd : ∀ x, x ∈ d ↔ x = cmd.sourceId ∨ x ∈ s.delayedFederates) :
    Sound own { s with delayedFederates := d, delayQueues := pushDelayed cmd s.delayQueues } ∧
      ∀ x, taken { s with delayQueues := pushDelayed cmd s.delayQueues } x =
        s.taken x ++ sentBy x [cmd] := by
  refine ⟨⟨hs.queues.push cmd, hsorted, ?_, ?_, fun x hx => ?_, fun hp x hne => ?_⟩, fun x => ?_⟩
  · exact fun hown => ((hd own).mp hown).elim (fun he => hsrc he.symm) hs.notDelayed
  · show own ∉ (pushDelayed cmd s.delayQueues).map Prod.fst
    rw [keys_pushDelayed]
    exact foreign_addFederateToDelay hsrc hs.foreign
  · show delayedFor x (pushDelayed cmd s.delayQueues) ≠ []
    rw [hs.queues.delayedFor_push]
    by_cases hx' : cmd.sourceId = x
    · rw [if_pos hx']
      exact List.append_ne_nil_of_right_ne_nil _ (List.cons_ne_nil _ _)
    · rw [if_neg hx', List.append_nil]
      exact hs.waiting x (((hd x).mp hx).resolve_left fun he => hx' he.symm)
  · dsimp only at hne
    rw [hs.queues.delayedFor_push] at hne
    by_cases hx : cmd.sourceId = x
    · exact (hd x).mpr (.inl hx.symm)
    · rw [if_neg hx, List.append_nil] at hne
      exact (hd x).mpr (.inr (hs.blocked hp x hne))
  · show sentBy x s.handled ++ delayedFor x (pushDelayed cmd s.delayQueues) = _
    rw [hs.queues.delayedFor_push, ← sentBy_singleton]
    exact (List.append_assoc ..).symm

theorem taken_handled (hn : delayedFor cmd.sourceId s.delayQueues = []) (x : GlobalId) :
    sentBy x (s.handled ++ [cmd]) ++ delayedFor x s.delayQueues = s.taken x ++ sentBy x [cmd] := by
  rw [sentBy_append, List.append_assoc, sentBy_comm_delayedFor hn, ← List.append_assoc]
  rfl

/-- A command can take effect at once: no earlier one of its sender is held back, and the federate
does not answer it with a delay. -/
def Free (h : CommandHandler σ ρ) (s : FederateQueue σ) (cmd : ActionMessage) : Prop :=
  delayedFor cmd.sourceId s.delayQueues = [] ∧
    (h.isOwnRequest cmd = true ∨ (h.process s.fed cmd).1 ≠ .delayMessage)

/-- A command that is free takes effect next, any other changes nothing in the federate. -/
structure Took (h : CommandHandler σ ρ) (cmd : ActionMessage) (s s' : FederateQueue σ) : Prop where
  sound : s'.Sound h.globalId
  taken : ∀ x, s'.taken x = s.taken x ++ sentBy x [cmd]
  acts : s.Continues h s'
  effect : s.Free h cmd → ∃ released, s'.handled = s.handled ++ cmd :: released
  held : ¬ s.Free h cmd → s'.fed = s.fed ∧ s'.handled = s.handled
  queue : s'.queue = s.queue
  pushed : s'.pushed = s.pushed

/-- An own request takes effect and then lets the delay queues move on. -/
theorem Sound.ownRequest (hs : s.Sound h.globalId) (found : ρ) (hown : h.isOwnRequest cmd = true) :
    (s.processActionMessage h found cmd).1 ≠ .delayMessage ∧
      Took h cmd s { (s.processActionMessage h found cmd).2 with
        processing := !returnableResult (s.processActionMessage h found cmd).1 } := by
  have hsrc := CommandHandler.isOwnRequest_source hown
  have hempty : delayedFor cmd.sourceId s.delayQueues = [] :=
    delayedFor_of_not_mem (hsrc ▸ hs.foreign)
  have hfree : s.Free h cmd := ⟨hempty, .inl hown⟩
  have hstart : Sound h.globalId { s with
      fed := h.start found s.fed cmd, handled := s.handled ++ [cmd] } :=
    ⟨hs.queues, hs.sorted, hs.notDelayed, hs.foreign, hs.waiting, hs.blocked⟩
  obtain ⟨hsound, htaken⟩ := hstart.processDelayQueue
  have htook := fun x => (htaken x).trans (taken_handled hempty x)
  have hacts {initial} (ha : h.Acts initial s.handled s.fed) :=
    hstart.drained.acts (ha.own found hown)
  have hmem (l : List ActionMessage) : cmd ∈ s.handled ++ [cmd] ++ l :=
    List.mem_append_left _ (List.mem_append_right _ List.mem_cons_self)
  unfold FederateQueue.processActionMessage
  rw [if_pos hown]
  dsimp only
  split
  · rename_i hret
    refine ⟨fun hd => ?_, hsound _ fun hb => ?_, htook, hacts,
      fun _ => ⟨_, List.append_assoc ..⟩, fun hn => absurd hfree hn, rfl, rfl⟩
    · rw [hd] at hret
      cases hret
    · rw [hret] at hb
      cases hb
  · rename_i hret
    have hs' := hsound true fun _ => Bool.eq_false_iff.mpr hret
    exact ⟨h.checked _ cmd, ⟨hs'.queues, hs'.sorted, hs'.notDelayed, hs'.foreign, hs'.waiting,
      fun _ => hs'.blocked rfl⟩, htook, fun ha => (hacts ha).check hown (hmem _),
      fun _ => ⟨_, List.append_assoc ..⟩, fun hn => absurd hfree hn, rfl, rfl⟩

theorem Sound.turn (hs : s.Sound h.globalId) (hp : s.processing = true) (found : ρ)
    (cmd : ActionMessage) : Took h cmd s (s.turn h found cmd) := by
  unfold FederateQueue.turn
  split
  · -- an earlier command of the sender is held back
    rename_i hd
    have hmem := (messageShouldBeDelayed_iff hs.sorted cmd).mp hd
    have hnot : ¬ s.Free h cmd := fun hfree => hs.waiting _ hmem hfree.1
    obtain ⟨hsound, htaken⟩ := hs.hold (fun he => hs.notDelayed (he ▸ hmem)) hs.sorted
      fun x => ⟨.inr, fun hx => hx.elim (fun he => he ▸ hmem) id⟩
    exact ⟨hsound, htaken, id, fun hfree => absurd hfree hnot, fun _ => ⟨rfl, rfl⟩, rfl, rfl⟩
  rename_i hd
  have hempty : delayedFor cmd.sourceId s.delayQueues = [] := by
    by_contra hne
    exact hd ((messageShouldBeDelayed_iff hs.sorted cmd).mpr (hs.blocked hp _ hne))
  by_cases hown : h.isOwnRequest cmd = true
  · obtain ⟨hne, htook⟩ := hs.ownRequest found hown
    rw [if_neg hne]
    exact htook
  unfold FederateQueue.processActionMessage
  rw [if_neg hown]
  by_cases hdelay : (h.process s.fed cmd).1 = .delayMessage
  · have hnot : ¬ s.Free h cmd := fun hfree => hfree.2.elim hown fun hne => hne hdelay
    have hkeep := h.unchanged s.fed cmd hdelay
    obtain ⟨hsound, htaken⟩ := hs.hold (h.delayable _ _ hdelay)
      (sorted_addFederateToDelay _ hs.sorted) fun x => mem_addFederateToDelay _ _
    rw [if_pos hdelay, if_pos rfl, hkeep]
    exact ⟨hsound, htaken, id, fun hfree => absurd hfree hnot, fun _ => ⟨rfl, rfl⟩, rfl, rfl⟩
  · rw [if_neg hdelay, if_neg hdelay]
    exact ⟨⟨hs.queues, hs.sorted, hs.notDelayed, hs.foreign, hs.waiting, fun _ => hs.blocked hp⟩,
      taken_handled hempty, fun ha => ha.other (Bool.eq_false_iff.mpr hown) hdelay,
      fun _ => ⟨[], rfl⟩, fun hn => absurd ⟨hempty, .inr hdelay⟩ hn, rfl, rfl⟩

/-- The queues are sound and hold every command that was pushed and has not taken effect. -/
structure Ordered (h : CommandHandler σ ρ) (initial : σ) (s : FederateQueue σ) : Prop where
  sound : s.Sound h.globalId
  account : ∀ x, s.taken x ++ sentBy x s.queue = sentBy x s.pushed
  acts : h.Acts initial s.handled s.fed

/-- What a turn does with the first command of the queue. -/
theorem Sound.popCommand (hs : s.Sound h.globalId) (hp : s.processing = true) (found : ρ)
    (hq : s.queue = cmd :: rest) :
    Took h cmd { s with queue := rest } (s.popCommand h found) := by
  have hs' : Sound h.globalId { s with queue := rest } :=
    ⟨hs.queues, hs.sorted, hs.notDelayed, hs.foreign, hs.waiting, hs.blocked⟩
  unfold FederateQueue.popCommand
  rw [hq]
  exact hs'.turn hp found cmd

section
variable (hs : s.Ordered h initial)
include hs

theorem Ordered.popCommand (hp : s.processing = true) (found : ρ) :
    (s.popCommand h found).Ordered h initial := by
  cases hq : s.queue with
  | nil =>
    unfold FederateQueue.popCommand
    rw [hq]
    exact hs
  | cons cmd queue =>
    have htook := hs.sound.popCommand hp found hq
    refine ⟨htook.sound, fun x => ?_, htook.acts hs.acts⟩
    have hacc := hs.account x
    rw [hq, ← List.singleton_append, sentBy_append, ← List.append_assoc] at hacc
    rw [htook.taken, htook.queue, htook.pushed]
    exact hacc

theorem Ordered.enterProcessQueue :
    (s.enterProcessQueue h).Ordered h initial := by
  unfold FederateQueue.enterProcessQueue
  split
  · exact hs
  · obtain ⟨hsound, htaken⟩ := hs.sound.processDelayQueue
    refine ⟨hsound _ fun hb => by simpa using hb, fun x => ?_, hs.sound.drained.acts hs.acts⟩
    exact (congrArg (· ++ sentBy x s.queue) (htaken x)).trans (hs.account x)

theorem Ordered.push (cmd : ActionMessage) :
    Ordered h initial { s with queue := s.queue ++ [cmd], pushed := s.pushed ++ [cmd] } := by
  refine ⟨⟨hs.sound.queues, hs.sound.sorted, hs.sound.notDelayed, hs.sound.foreign,
    hs.sound.waiting, hs.sound.blocked⟩, fun x => ?_, hs.acts⟩
  show s.taken x ++ sentBy x (s.queue ++ [cmd]) = sentBy x (s.pushed ++ [cmd])
  rw [sentBy_append, sentBy_append, ← List.append_assoc, hs.account]

theorem Ordered.step (e : QueueEvent ρ) :
    (s.step h e).Ordered h initial := by
  cases e with
  | push cmd => exact iteInduction (fun _ => hs) fun _ => hs.push cmd
  | call => exact iteInduction (fun _ => hs) fun _ => hs.enterProcessQueue
  | pop found => exact iteInduction (fun hp => hs.popCommand hp found) fun _ => hs

end

theorem ordered_initial (h : CommandHandler σ ρ) (fed : σ) : Ordered h fed { fed := fed } :=
  ⟨⟨⟨List.Pairwise.nil, fun _ he => absurd he List.not_mem_nil⟩, List.Pairwise.nil,
    List.not_mem_nil, List.not_mem_nil, fun _ hx => absurd hx List.not_mem_nil,
    fun hp => nomatch hp⟩, fun _ => rfl, .nil⟩

def run (h : CommandHandler σ ρ) (fed : σ) (es : List (QueueEvent ρ)) : FederateQueue σ :=
  es.foldl (step h) { fed := fed }

theorem ordered_run (h : CommandHandler σ ρ) (fed : σ) (es : List (QueueEvent ρ)) :
    (run h fed es).Ordered h fed := by
  unfold run
  suffices hall : ∀ s : FederateQueue σ, s.Ordered h fed →
      (es.foldl (step h) s).Ordered h fed from hall _ (ordered_initial h fed)
  induction es with
  | nil => exact fun s hs => hs
  | cons e es ih => exact fun s hs => ih _ (hs.step e)

variable (s)

theorem processActionMessage_pushed (found : ρ) (cmd : ActionMessage) :
    (s.processActionMessage h found cmd).2.pushed = s.pushed := by
  unfold FederateQueue.processActionMessage
  dsimp only
  split
  · split <;> rfl
  · split <;> rfl

theorem turn_pushed (found : ρ) (cmd : ActionMessage) :
    (s.turn h found cmd).pushed = s.pushed := by
  unfold FederateQueue.turn
  dsimp only
  split
  · rfl
  · split <;> exact processActionMessage_pushed s found cmd

theorem step_pushed (e : QueueEvent ρ) : (s.step h e).pushed = s.pushed ++ e.pushed := by
  cases e with
  | push cmd =>
    show (if _ then s else _ : FederateQueue σ).pushed = s.pushed ++ if _ then [] else [cmd]
    split
    · exact (List.append_nil _).symm
    · rfl
  | call =>
    show (if _ then s else _ : FederateQueue σ).pushed = s.pushed ++ []
    rw [List.append_nil]
    unfold FederateQueue.enterProcessQueue
    split
    · rfl
    · split <;> rfl
  | pop found =>
    show (if _ then _ else s : FederateQueue σ).pushed = s.pushed ++ []
    rw [List.append_nil]
    unfold FederateQueue.popCommand
    split
    · split
      · rfl
      · exact turn_pushed _ _ _
    · rfl

theorem foldl_pushed (es : List (QueueEvent ρ)) :
    (es.foldl (step h) s).pushed = s.pushed ++ es.flatMap QueueEvent.pushed := by
  induction es generalizing s with
  | nil => exact (List.append_nil _).symm
  | cons e es ih => rw [List.foldl_cons, ih, step_pushed, List.flatMap_cons, List.append_assoc]

/-- The commands of every sender take effect in the order in which they were pushed. Those that
have, those that are held back and those still in the queue make up all that was pushed; the state
of the federate has exactly the effects of the first, one after the other; and a command is held
back only while the coordinator delays it or an earlier one of its sender is held back. -/
structure InOrder (h : CommandHandler σ ρ) (initial : σ) (pushed : List ActionMessage)
    (s : FederateQueue σ) : Prop where
  account : ∀ x, sentBy x s.handled ++ delayedFor x s.delayQueues ++ sentBy x s.queue =
    sentBy x pushed
  effects : h.Acts initial s.handled s.fed
  first : ∀ found cmd rest, s.processing = true → s.queue = cmd :: rest →
    (s.popCommand h found).queue = rest ∧
    (s.Free h cmd → ∃ released, (s.popCommand h found).handled = s.handled ++ cmd :: released) ∧
    (¬ s.Free h cmd →
      (s.popCommand h found).fed = s.fed ∧ (s.popCommand h found).handled = s.handled)
  tried : (s.enterProcessQueue h).processing = true → s.processing = false →
    ∀ x cmd rest, delayedFor x (s.enterProcessQueue h).delayQueues = cmd :: rest →
      h.Delays initial s.handled (s.enterProcessQueue h).handled cmd

theorem Ordered.inOrder (hs : s.Ordered h initial) : s.InOrder h initial s.pushed := by
  refine ⟨hs.account, hs.acts, fun found cmd rest hp hq => ?_, fun hp hidle x cmd rest hheld => ?_⟩
  · have htook := hs.sound.popCommand hp found hq
    exact ⟨htook.queue, htook.effect, htook.held⟩
  · unfold FederateQueue.enterProcessQueue at hp hheld ⊢
    split at hp
    · rw [hidle] at hp
      cases hp
    · rename_i hended
      rw [if_neg hended] at hheld ⊢
      exact hs.sound.drained.tried (fun _ _ => List.not_mem_nil) (Bool.not_eq_true' _ ▸ hp) hs.acts
        x cmd rest hheld

theorem pushed_run (h : CommandHandler σ ρ) (fed : σ) (es : List (QueueEvent ρ)) :
    (run h fed es).pushed = es.flatMap QueueEvent.pushed :=
  foldl_pushed _ es

/-- A federate that delays the grants of others until its first own request, and counts these. -/
def waitingFederate : CommandHandler Nat Unit where
  globalId := 5
  ended _ := false
  process n cmd :=
    if n = 0 ∧ cmd.messageAction = .cmdTimeGrant ∧ cmd.sourceId ≠ 5 then (.delayMessage, n)
    else (.continueProcessing, n)
  start _ n _ := n + 1
  check n _ := (.continueProcessing, n)
  delayable n cmd hd := by
    split at hd
    · rename_i hcond
      exact hcond.2.2
    · cases hd
  unchanged n cmd _ := by split <;> rfl
  checked _ _ := nofun

end FederateQueue

end Helics
