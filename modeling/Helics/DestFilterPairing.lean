import Helics.Invariants
import Helics.DestFilterMarks

namespace Helics

namespace CommonCore

def numberAt (start : Int) (j : Nat) : Int := (start + j + 1).bmod (2 ^ 32)

theorem nextMessageId_numberAt (start : Int) (j : Nat) :
    nextMessageId (numberAt start j) = numberAt start (j + 1) := by
  unfold nextMessageId numberAt
  rw [Int.bmod_add_bmod]
  congr 1
  push_cast
  omega

theorem emod_eq_of_bmod_eq {a b : Int} (h : a.bmod (2 ^ 32) = b.bmod (2 ^ 32)) :
    a % 4294967296 = b % 4294967296 := by
  have ha : a.bmod (2 ^ 32) % 4294967296 = a % 4294967296 := Int.bmod_emod
  have hb : b.bmod (2 ^ 32) % 4294967296 = b % 4294967296 := Int.bmod_emod
  rw [← ha, ← hb, h]

theorem nextMessageId_ne (n : Int) : nextMessageId n ≠ n := by
  intro h
  have hmod : (n + 1) % 4294967296 = n % 4294967296 := by
    have he : (n + 1).bmod (2 ^ 32) % 4294967296 = (n + 1) % 4294967296 := Int.bmod_emod
    rw [← he]
    exact congrArg (· % 4294967296) h
  omega

theorem numberAt_notMem (start : Int) (n : Nat) (h : n < 2 ^ 32) :
    numberAt start n ∉ (List.range n).map (numberAt start) := by
  intro hm
  obtain ⟨j, hj, he⟩ := List.mem_map.mp hm
  have hlt := List.mem_range.mp hj
  have hmod := emod_eq_of_bmod_eq he
  omega

theorem late_append {late : List DestMark} (h : ∀ mark ∈ late, mark.isReply = true)
    (hm : mark.isReply = true) : ∀ mark' ∈ late ++ [mark], mark'.isReply = true := by
  intro mark' hmark'
  cases List.mem_append.mp hmark' with
  | inl hl => exact h mark' hl
  | inr hr =>
    obtain rfl := List.mem_singleton.mp hr
    exact hm

theorem stepMarks_request (hpre : ∀ e ∈ pre, Silent home e) (hpost : ∀ e ∈ post, Silent home e)
    (hr : isDestReply cmd.messageAction = false) (mid : Int) (es : List CoreEffect) :
    stepMarks home mid cmd (pre ++ es ++ post) = es.filterMap (effectMark home mid cmd) := by
  have hnone {l : List CoreEffect} (h : ∀ e ∈ l, Silent home e) :
      l.filterMap (effectMark home mid cmd) = [] := by
    have hquiet := stepMarks_quiet h hr mid
    unfold stepMarks at hquiet
    exact (List.append_eq_nil_iff.mp hquiet).2
  unfold stepMarks
  rw [replyMark_eq_nil hr, List.nil_append, List.filterMap_append, List.filterMap_append,
    hnone hpre, hnone hpost, List.append_nil]
  rfl

theorem range_concat (h : l = (List.range l.length).map (numberAt start)) :
    l ++ [numberAt start l.length] =
      (List.range (l ++ [numberAt start l.length]).length).map (numberAt start) := by
  rw [List.length_append, List.length_singleton, List.range_succ, List.map_append, ← h]
  rfl

/-- Among silent effects, a block and a request, only the request is a request. -/
theorem request_among (hpre : ∀ e ∈ pre, Silent home e) (hpost : ∀ e ∈ post, Silent home e)
    (hb : block.messageAction = .cmdTimeBlock) (hc : Carries q e)
    (h : ∃ e' ∈ pre ++ [.addAction fed block, e] ++ post, ¬Silent home e' ∧
      e'.carried = some q' ∧ q'.messageAction = .cmdSendForDestFilterAndReturn) : q' = q := by
  obtain ⟨e', he', hloud, hcarried, hact⟩ := h
  simp only [List.mem_append, List.mem_cons, List.not_mem_nil, or_false] at he'
  obtain (he' | rfl | rfl) | he' := he'
  · exact absurd (hpre e' he') hloud
  · obtain rfl := Option.some.inj hcarried
    rw [hb] at hact
    cases hact
  · rw [carried_of_carries hc] at hcarried
    exact (Option.some.inj hcarried).symm
  · exact absurd (hpost e' he') hloud

variable [DualMapped String GlobalId]

/-- A core, the commands it has processed with their effects, and the message numbers it has
drawn. -/
structure DestRun where
  core : CommonCore
  trace : List (ActionMessage × List CoreEffect) := []
  drawn : List Int := []

inductive DestEvent where
  | command (cmd : ActionMessage)
  | number

def drawnBy (c c' : CommonCore) : List Int :=
  if c'.messageCounter = c.messageCounter then [] else [c'.messageCounter]

namespace DestRun

def record (s : DestRun) (cmd : ActionMessage) (res : CommonCore × List CoreEffect)
    (numbers : List Int) : DestRun where
  core := res.1
  trace := s.trace ++ [(cmd, res.2)]
  drawn := s.drawn ++ numbers

def next (s : DestRun) : DestEvent → DestRun
  | .command cmd => s.record cmd (s.core.step cmd) (drawnBy s.core (s.core.step cmd).1)
  | .number =>
    let core := { s.core with messageCounter := nextMessageId s.core.messageCounter }
    { s with core := core, drawn := s.drawn ++ drawnBy s.core core }

def marks (home : GlobalId → Bool) (mid : Int) (s : DestRun) : List DestMark :=
  s.trace.flatMap (fun p => stepMarks home mid p.1 p.2)

def Requested (home : GlobalId → Bool) (s : DestRun) (q : ActionMessage) : Prop :=
  ∃ p ∈ s.trace, ∃ e ∈ p.2, e.carried = some q ∧
    q.messageAction = .cmdSendForDestFilterAndReturn ∧ home q.sourceId = true

/-- Replies answer requests that have been sent; requests that pass through come from elsewhere;
the core is registered already. -/
def Admits (home : GlobalId → Bool) (s : DestRun) : DestEvent → Prop
  | .command cmd =>
    cmd.messageAction ≠ .cmdBrokerAck ∧
      (cmd.messageAction = .cmdSendForDestFilterAndReturn → home cmd.sourceId = false) ∧
      (isDestReply cmd.messageAction = true → ∃ q, s.Requested home q ∧ RepliesTo q cmd)
  | .number => True

end DestRun

/-- The four stages of a message number: not in use; blocked while the filter works on the
message; and unblocked after the message was delivered or dropped, where later replies count for
nothing. -/
inductive Paired (c : CommonCore) (mid : Int) : List DestMark → Prop
  | unused (h : ∀ fed, (fed, mid) ∉ c.ongoingDestFilterProcesses) : Paired c mid []
  | blocked (hown : c.ownsEndpoint fed = true)
      (h : ∀ fed', (fed', mid) ∈ c.ongoingDestFilterProcesses ↔ fed' = fed) :
      Paired c mid [.block fed, .request fed]
  | delivered (hown : c.ownsEndpoint fed = true)
      (h : ∀ fed', (fed', mid) ∉ c.ongoingDestFilterProcesses)
      (hlate : ∀ mark ∈ l, mark.isReply = true) :
      Paired c mid
        ([.block fed, .request fed, .result fed, .message fed, .unblock fed] ++ l)
  | dropped (hown : c.ownsEndpoint fed = true)
      (h : ∀ fed', (fed', mid) ∉ c.ongoingDestFilterProcesses)
      (hlate : ∀ mark ∈ l, mark.isReply = true) :
      Paired c mid ([.block fed, .request fed, .drop fed, .unblock fed] ++ l)

/-- The identifiers of the endpoints are in order, and nothing of destination filtering is under
way in the core. -/
structure DestReady (c : CommonCore) : Prop where
  federates : ∀ ept ∈ c.endpoints.entries, LocalFederate c ept.getFederateId
  clean : Clean c.ownsEndpoint c
  idle : c.ongoingDestFilterProcesses = []

/-- What holds in every state of a run from a core. -/
structure DestInv (start : CommonCore) (s : DestRun) : Prop where
  endpoints : s.core.endpoints = start.endpoints
  federates : ∀ ept ∈ s.core.endpoints.entries, LocalFederate s.core ept.getFederateId
  clean : Clean start.ownsEndpoint s.core
  number : nextMessageId s.core.messageCounter = numberAt start.messageCounter s.drawn.length
  drawn : s.drawn = (List.range s.drawn.length).map (numberAt start.messageCounter)
  paired : ∀ mid, Paired s.core mid (s.marks start.ownsEndpoint mid)
  known : ∀ mid, s.marks start.ownsEndpoint mid ≠ [] → mid ∈ s.drawn
  requested : ∀ q, s.Requested start.ownsEndpoint q →
    ∃ ept ∈ s.core.endpoints.entries, IsRequest ept q.messageID q ∧
      (s.core.filterCoord.lookup ept.getInterfaceHandle).isSome = true ∧
      .request ept.getFederateId ∈ s.marks start.ownsEndpoint q.messageID

theorem destInv_start (h : DestReady c) : DestInv c { core := c } where
  endpoints := rfl
  federates := h.federates
  clean := h.clean
  number := by
    unfold nextMessageId numberAt
    simp
  drawn := rfl
  paired mid := .unused (by rw [h.idle]; exact fun _ => List.not_mem_nil)
  known mid hne := absurd rfl hne
  requested q hq := by
    obtain ⟨p, hp, _⟩ := hq
    cases hp

theorem ownsEndpoint_eq {c c' : CommonCore} (h : c'.endpoints = c.endpoints) (fed : GlobalId) :
    c'.ownsEndpoint fed = c.ownsEndpoint fed := by
  unfold ownsEndpoint
  rw [h]

theorem Paired.congr (h : Paired c mid l) (hend : c'.endpoints = c.endpoints)
    (hon : ∀ fed, (fed, mid) ∈ c'.ongoingDestFilterProcesses ↔
      (fed, mid) ∈ c.ongoingDestFilterProcesses) : Paired c' mid l := by
  have howns := ownsEndpoint_eq hend
  cases h with
  | unused h => exact .unused fun fed hf => h fed ((hon fed).mp hf)
  | blocked hown h => exact .blocked ((howns _).trans hown) fun fed => (hon fed).trans (h fed)
  | delivered hown h hlate =>
    exact .delivered ((howns _).trans hown) (fun fed hf => h fed ((hon fed).mp hf)) hlate
  | dropped hown h hlate =>
    exact .dropped ((howns _).trans hown) (fun fed hf => h fed ((hon fed).mp hf)) hlate

theorem Paired.late (h : Paired c mid l) (hreq : .request fed ∈ l)
    (hno : (fed, mid) ∉ c.ongoingDestFilterProcesses) (hm : mark.isReply = true) :
    Paired c mid (l ++ [mark]) := by
  cases h with
  | unused h => cases hreq
  | blocked hown h =>
    simp only [List.mem_cons, DestMark.request.injEq, reduceCtorEq, List.not_mem_nil, or_false,
      false_or] at hreq
    exact absurd ((h fed).mpr hreq) hno
  | delivered hown h hlate =>
    rw [List.append_assoc]
    exact .delivered hown h (late_append hlate hm)
  | dropped hown h hlate =>
    rw [List.append_assoc]
    exact .dropped hown h (late_append hlate hm)

theorem Paired.of_ongoing (h : Paired c mid l) (hin : (fed, mid) ∈ c.ongoingDestFilterProcesses) :
    l = [.block fed, .request fed] ∧ c.ownsEndpoint fed = true ∧
      ∀ fed', (fed', mid) ∈ c.ongoingDestFilterProcesses ↔ fed' = fed := by
  cases h with
  | unused h => exact absurd hin (h fed)
  | blocked hown h =>
    obtain rfl := (h fed).mp hin
    exact ⟨rfl, hown, h⟩
  | delivered hown h hlate => exact absurd hin (h fed)
  | dropped hown h hlate => exact absurd hin (h fed)

namespace DestInv

theorem own (h : DestInv start s) : start.ownsEndpoint s.core.globalBrokerIdLocal = false := by
  cases ho : start.ownsEndpoint s.core.globalBrokerIdLocal with
  | false => rfl
  | true =>
    obtain ⟨ept, hept, hf⟩ := List.any_eq_true.mp ho
    rw [← h.endpoints] at hept
    have hne := (h.federates ept hept).own
    exact absurd (of_decide_eq_true hf) hne

theorem owns (h : DestInv start s) (hept : ept ∈ s.core.endpoints.entries) :
    start.ownsEndpoint ept.getFederateId = true := by
  rw [h.endpoints] at hept
  exact List.any_eq_true.mpr ⟨ept, hept, decide_eq_true rfl⟩

end DestInv

theorem SameHome.federates (h : SameHome home c c')
    (hf : ∀ ept ∈ c.endpoints.entries, LocalFederate c ept.getFederateId) :
    ∀ ept ∈ c'.endpoints.entries, LocalFederate c' ept.getFederateId := by
  intro ept hept
  rw [h.endpoints] at hept
  have hl := hf ept hept
  exact ⟨h.known _ hl.known, hl.root, by rw [h.higher]; exact hl.higher,
    by rw [h.own]; exact hl.own⟩

theorem marks_record (home : GlobalId → Bool) (mid : Int) (s : DestRun) (cmd : ActionMessage)
    (res : CommonCore × List CoreEffect) (numbers : List Int) :
    (s.record cmd res numbers).marks home mid =
      s.marks home mid ++ stepMarks home mid cmd res.2 := by
  unfold DestRun.marks DestRun.record
  rw [List.flatMap_append, List.flatMap_singleton]

theorem requested_record {s : DestRun} (h : (s.record cmd res numbers).Requested home q) :
    s.Requested home q ∨ ∃ e ∈ res.2, ¬Silent home e ∧ e.carried = some q ∧
      q.messageAction = .cmdSendForDestFilterAndReturn := by
  obtain ⟨p, hp, e, he, hq⟩ := h
  cases List.mem_append.mp hp with
  | inl hp => exact .inl ⟨p, hp, e, he, hq⟩
  | inr hp =>
    obtain rfl := List.mem_singleton.mp hp
    refine .inr ⟨e, he, ?_, hq.1, hq.2.1⟩
    intro hs
    have hfalse := (hs q hq.1).request hq.2.1
    rw [hq.2.2] at hfalse
    cases hfalse

/-- A command that makes no request and is no reply. -/
theorem destInv_quiet (h : DestInv start s) (hsame : SameDest start.ownsEndpoint s.core c')
    (hes : ∀ e ∈ es, Silent start.ownsEndpoint e) (hr : isDestReply cmd.messageAction = false) :
    DestInv start (s.record cmd (c', es) []) := by
  have hmarks (mid : Int) : (s.record cmd (c', es) []).marks start.ownsEndpoint mid =
      s.marks start.ownsEndpoint mid := by
    rw [marks_record, stepMarks_quiet hes hr, List.append_nil]
  have hdrawn : (s.record cmd (c', es) []).drawn = s.drawn := List.append_nil _
  refine ⟨hsame.endpoints.trans h.endpoints, hsame.toSameHome.federates h.federates,
    hsame.clean h.clean, ?_, by rw [hdrawn]; exact h.drawn, ?_, ?_, ?_⟩
  · rw [hdrawn, ← h.number]
    exact congrArg nextMessageId hsame.counter
  · intro mid
    rw [hmarks]
    exact (h.paired mid).congr hsame.endpoints (by simp [DestRun.record, hsame.ongoingDest])
  · intro mid
    rw [hmarks, hdrawn]
    exact h.known mid
  · intro q hq
    rw [hmarks]
    cases requested_record hq with
    | inl hq =>
      have hreq := h.requested q hq
      rw [← hsame.endpoints, ← hsame.filterCoord] at hreq
      exact hreq
    | inr hq =>
      obtain ⟨e, he, hn, _⟩ := hq
      exact absurd (hes e he) hn

theorem lookup_of_destFilter (hr : RequestsDestFilter c ept filt) :
    (c.filterCoord.lookup ept.getInterfaceHandle).isSome = true := by
  obtain ⟨ffunc, hf, hdest⟩ := hr.filter
  unfold getFilterCoordinator at hf
  cases hl : c.filterCoord.lookup ept.getInterfaceHandle with
  | some coordinator => rfl
  | none =>
    rw [hl] at hf
    dsimp only at hf
    split at hf
    · obtain rfl := Option.some.inj hf
      cases hdest
    · cases hf

theorem mem_noteDestRequest (c : CommonCore) (fed : GlobalId) (n : Int) (p : GlobalId × Int) :
    p ∈ (c.noteDestRequest fed n).ongoingDestFilterProcesses ↔
      p ∈ c.ongoingDestFilterProcesses ∨ p = (fed, n) := by
  dsimp only [noteDestRequest]
  split
  case isTrue h =>
    constructor
    · exact .inl
    · rintro (hp | rfl)
      · exact hp
      · exact h
  case isFalse => simp

theorem Paired.of_nil (h : Paired c mid l) (hl : l = []) (fed : GlobalId) :
    (fed, mid) ∉ c.ongoingDestFilterProcesses := by
  cases h with
  | unused h => exact h fed
  | blocked _ _ => cases hl
  | delivered _ h _ => exact h fed
  | dropped _ h _ => exact h fed

/-- The next number has left no mark. -/
theorem DestInv.fresh (h : DestInv start s) (hn : s.drawn.length < 2 ^ 32) :
    s.marks start.ownsEndpoint (numberAt start.messageCounter s.drawn.length) = [] := by
  by_contra hne
  have hmem := h.known _ hne
  rw [h.drawn] at hmem
  exact numberAt_notMem _ _ hn (by simpa using hmem)

/-- A command that makes a request, under a number that has not been drawn before. -/
theorem destInv_request (h : DestInv start s) (hn : s.drawn.length < 2 ^ 32)
    (hs : SameDest start.ownsEndpoint s.core c₁) (hr : RequestsDestFilter c₁ ept filt)
    (h' : SameDest start.ownsEndpoint (c₁.requestDestFilter m ept filt).1 c')
    (hpre : ∀ e ∈ pre, Silent start.ownsEndpoint e)
    (hpost : ∀ e ∈ post, Silent start.ownsEndpoint e)
    (hcmd : isDestReply cmd.messageAction = false) :
    DestInv start (s.record cmd (c', pre ++ (c₁.requestDestFilter m ept filt).2 ++ post)
      [numberAt start.messageCounter s.drawn.length]) := by
  have hept : ept ∈ s.core.endpoints.entries := by
    rw [← hs.endpoints]
    exact hr.known
  have hnum : nextMessageId c₁.messageCounter =
      numberAt start.messageCounter s.drawn.length := by
    rw [hs.counter]
    exact h.number
  obtain ⟨block, q, e, heq, hb, hbn, hc, hq⟩ := requestDestFilter_spec hr
    (hs.known _ (h.federates ept hept).known) m
  rw [hnum] at heq hbn hq
  rw [heq] at h' ⊢
  have hfresh := h.fresh hn
  have hlast := nextMessageId_numberAt start.messageCounter s.drawn.length
  have hrange := range_concat h.drawn
  generalize numberAt start.messageCounter s.drawn.length = n at *
  have hmarks (mid : Int) : (s.record cmd
    (c', pre ++ [.addAction ept.getFederateId block, e] ++ post)
      [n]).marks start.ownsEndpoint mid = s.marks start.ownsEndpoint mid ++
        if mid = n then [.block ept.getFederateId, .request ept.getFederateId] else [] := by
    rw [marks_record, stepMarks_request hpre hpost hcmd, marks_request hb hbn hq hc (h.owns hept)]
  have hon (mid : Int) (fed : GlobalId) : (fed, mid) ∈ c'.ongoingDestFilterProcesses ↔
      (fed, mid) ∈ s.core.ongoingDestFilterProcesses ∨ (fed, mid) = (ept.getFederateId, n) := by
    rw [h'.ongoingDest, mem_noteDestRequest, hs.ongoingDest]
  have hsame := (hs.toSameHome.trans (sameHome_noteDestRequest _ c₁ _ n)).trans h'.toSameHome
  have hnew : Paired c' n [.block ept.getFederateId, .request ept.getFederateId] := by
    refine .blocked ((ownsEndpoint_eq (hsame.endpoints.trans h.endpoints) _).trans (h.owns hept)) ?_
    intro fed
    rw [hon]
    have hnone := (h.paired n).of_nil hfresh fed
    simp [hnone]
  refine ⟨hsame.endpoints.trans h.endpoints, hsame.federates h.federates, hsame.clean h.clean,
    ?_, hrange, ?_, ?_, ?_⟩
  · have hcount : c'.messageCounter = n := h'.counter
    dsimp only [DestRun.record]
    rw [hcount, hlast, List.length_append, List.length_singleton]
  · intro mid
    rw [hmarks]
    by_cases hmid : mid = n
    · rw [if_pos hmid, hmid, hfresh]
      exact hnew
    rw [if_neg hmid, List.append_nil]
    refine (h.paired mid).congr hsame.endpoints ?_
    intro fed
    refine (hon mid fed).trans ?_
    simp [hmid]
  · intro mid hne
    rw [hmarks] at hne
    by_cases hmid : mid = n
    · rw [hmid]
      exact List.mem_append_right _ List.mem_cons_self
    · rw [if_neg hmid, List.append_nil] at hne
      exact List.mem_append_left _ (h.known mid hne)
  · intro q' hq'
    rw [hmarks]
    cases requested_record hq' with
    | inl hq' =>
      obtain ⟨ept', hept', hreq, hcoord, hmark⟩ := h.requested q' hq'
      rw [← hsame.endpoints] at hept'
      rw [← hsame.filterCoord] at hcoord
      exact ⟨ept', hept', hreq, hcoord, List.mem_append_left _ hmark⟩
    | inr hq' =>
      obtain rfl := request_among hpre hpost hb hc hq'
      rw [← hsame.endpoints] at hept
      have hcoord := lookup_of_destFilter hr
      rw [hs.filterCoord, ← hsame.filterCoord] at hcoord
      refine ⟨ept, hept, hq.number.symm ▸ hq, hcoord, List.mem_append_right _ ?_⟩
      rw [if_pos hq.number]
      exact List.mem_cons_of_mem _ List.mem_cons_self

end CommonCore

end Helics
