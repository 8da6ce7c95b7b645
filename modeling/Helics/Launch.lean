import Helics.Federation
import Helics.LaunchSteps

namespace Helics

open Invariants DependencyInfo TimeDependencies FederateState

def FederateState.execRequestCommand (f : FederateState) : ActionMessage where
  messageAction := .cmdExecRequest
  sourceId := f.globalId

structure Launch where
  net : Federation
  sent : GlobalId → List ActionMessage := fun _ => []

inductive LaunchEvent where
  | enterExecutingMode (i : GlobalId)
  | requestTime (i : GlobalId) (nextTime : Time)
  | processQueue (i : GlobalId)
  | startRequest (i : GlobalId) (nextValueTime nextMessageTime : Time)
  | command (i : GlobalId) (cmd : ActionMessage)
  | deliver (j i : GlobalId)

namespace Launch

def coord (s : Launch) (i : GlobalId) : TimeCoordinator := (s.net.fed i).timeCoord

/-- The commands that reach a federate from its own core or interface and not from a dependency. -/
def Command (s : Launch) (i : GlobalId) (cmd : ActionMessage) : Prop :=
  match cmd.messageAction with
  | .cmdTimeBlock | .cmdTimeUnblock | .cmdExecCheck | .cmdTimeCheck | .cmdStop
  | .cmdTerminateImmediately | .cmdDisconnectFedAck | .cmdSendMessage | .cmdPub | .cmdError => True
  | .cmdDisconnect | .cmdDisconnectFed => cmd.sourceId = i
  | .cmdBroadcastDisconnect | .cmdDisconnectCore | .cmdDisconnectBroker =>
    cmd.sourceId ∉ s.net.members
  | .cmdForceTimeGrant => (s.net.fed i).state = .executing
  | _ => False

instance (s : Launch) (i : GlobalId) (cmd : ActionMessage) : Decidable (s.Command i cmd) := by
  unfold Command
  split <;> infer_instance

def perform (s : Launch) (net : Federation) (i : GlobalId)
    (r : MessageProcessingResult × FederateState × List ActionMessage) : Launch where
  net := net.complete i r
  sent := fun k => if k = i then s.sent k ++ r.2.2 else s.sent k

def startCall (s : Launch) (i : GlobalId) : Launch :=
  { s with net := s.net.setFed i { s.net.fed i with processing := true } }

def ask (s : Launch) (i : GlobalId) (cmd : ActionMessage) : Launch :=
  { s.startCall i with net := (s.startCall i).net.setRequest i (some cmd) }

def step (s : Launch) : LaunchEvent → Option Launch
  | .enterExecutingMode i =>
    if i ∈ s.net.members ∧ (s.net.fed i).state = .initializing ∧
      (s.net.fed i).processing = false then
      some (s.ask i (s.net.fed i).execRequestCommand)
    else none
  | .requestTime i nextTime =>
    if i ∈ s.net.members ∧ (s.net.fed i).state = .executing ∧ (s.net.fed i).processing = false then
      some (s.ask i ((s.net.fed i).timeRequestCommand nextTime .noIterations))
    else none
  | .processQueue i =>
    if i ∈ s.net.members ∧ (s.net.fed i).processing = false then some (s.startCall i) else none
  | .startRequest i nextValueTime nextMessageTime =>
    match s.net.request i with
    | some cmd =>
      if i ∈ s.net.members then
        some (s.perform (s.net.setRequest i none) i
          ((s.net.fed i).processActionMessage cmd nextValueTime nextMessageTime))
      else none
    | none => none
  | .command i cmd =>
    if i ∈ s.net.members ∧ (s.net.fed i).processing ∧ s.Command i cmd then
      some (s.perform s.net i ((s.net.fed i).processActionMessage cmd .maxVal .maxVal))
    else none
  | .deliver j i =>
    match s.net.chan j i with
    | [] => none
    | m :: _ =>
      if i ∈ s.net.members ∧ (s.net.fed i).processing ∧
          ((s.net.fed i).processActionMessage m .maxVal .maxVal).1 ≠ .delayMessage then
        some (s.perform (s.net.consume j i) i
          ((s.net.fed i).processActionMessage m .maxVal .maxVal))
      else none

def Asked (s : Launch) (j i : GlobalId) : Prop :=
  ∃ m ∈ s.sent j, m.messageAction = .cmdExecRequest ∧ m.destId = i

def Left (s : Launch) (j i : GlobalId) : Prop :=
  ∃ m ∈ s.sent j, m.messageAction.endsConnection = true ∧ m.destId = i

/-- Federates that do not iterate have just been granted initialization, with tables that mirror
each other. -/
structure Initialized (s : Launch) : Prop where
  ids : ∀ i ∈ s.net.members, isFederateId i
  globalId : ∀ i ∈ s.net.members, (s.net.fed i).globalId = i
  sourceId : ∀ i ∈ s.net.members, (s.coord i).sourceId = i
  state : ∀ i ∈ s.net.members, (s.net.fed i).state = .initializing ∧
    (s.net.fed i).timeGrantedMode = true
  mode : ∀ i ∈ s.net.members, (s.coord i).executionMode = false ∧
    (s.coord i).checkingExec = false ∧ (s.coord i).iterating = false
  records : ∀ i ∈ s.net.members, ∀ d ∈ (s.coord i).dependencies.entries, d.timeState = .initialized
  mirrored : ∀ i ∈ s.net.members, ∀ j ∈ (s.coord i).dependencies.keys,
    j ∈ s.net.members ∧ i ∈ (s.coord j).dependents.entries
  request : ∀ i, s.net.request i = none
  chan : ∀ j i, s.net.chan j i = []
  sent : ∀ j, s.sent j = []

structure Record (s : Launch) (i : GlobalId) (d : DependencyInfo) : Prop where
  member : d.fedID ∈ s.net.members
  asked : TimeState.execRequested.code ≤ d.timeState.code →
    s.Asked d.fedID i ∨ (s.coord d.fedID).executionMode = true ∨ s.Left d.fedID i ∨
      d.fedID = i ∧ (s.net.fed i).state ≠ .initializing
  entered : TimeState.timeGranted.code ≤ d.timeState.code →
    (s.coord d.fedID).executionMode = true ∨ d.Tnext = .maxVal

structure Sound (s : Launch) : Prop where
  ids : ∀ i ∈ s.net.members, isFederateId i
  globalId : ∀ i ∈ s.net.members, (s.net.fed i).globalId = i
  launchable : ∀ i ∈ s.net.members, (s.net.fed i).Launchable
  pending : ∀ i ∈ s.net.members, ∀ cmd, s.net.request i = some cmd →
    cmd.sourceId = i ∧ cmd.destId = parentBrokerId ∧ FederateState.iterationOf cmd = .noIterations ∧
      (cmd.messageAction = .cmdExecRequest ∨
        cmd.messageAction = .cmdTimeRequest ∧ (s.coord i).executionMode = true)
  linked : ∀ i ∈ s.net.members, ∀ j ∈ (s.coord i).dependencies.keys,
    i ∈ (s.coord j).dependents.entries ∨ (s.net.fed i).state ≠ .initializing
  asked : ∀ j ∈ s.net.members, (s.coord j).checkingExec = true →
    ∀ i ∈ (s.coord j).dependents.entries, s.Asked j i
  chan : ∀ j i, ∀ m ∈ s.net.chan j i, m ∈ s.sent j ∧ m.destId = i
  senders : ∀ j, ∀ m ∈ s.sent j, j ∈ s.net.members
  honest : ∀ j ∈ s.net.members, ∀ m ∈ s.sent j, (s.net.fed j).Honest m
  records : ∀ i ∈ s.net.members, ∀ d ∈ (s.coord i).dependencies.entries, s.Record i d

theorem Initialized.sound (h : Initialized s) : Sound s where
  ids := h.ids
  globalId := h.globalId
  launchable := by
    intro i hi
    obtain ⟨hexec, -, hiter⟩ := h.mode i hi
    obtain ⟨hstate, hmode⟩ := h.state i hi
    refine ⟨(h.sourceId i hi).trans (h.globalId i hi).symm, hiter, fun hx => ?_, fun ha => ?_⟩
    · rw [hstate] at hx
      cases hx
    · obtain ha | ⟨-, ha⟩ := ha
      · exact absurd (ha.symm.trans hexec) Bool.noConfusion
      · exact absurd (hmode.symm.trans ha) Bool.noConfusion
  pending := fun i _ cmd hcmd => by
    rw [h.request i] at hcmd
    cases hcmd
  linked := fun i hi j hj => .inl (h.mirrored i hi j hj).2
  asked := fun j hj hc => absurd (hc.symm.trans (h.mode j hj).2.1) Bool.noConfusion
  chan := fun j i m hm => by
    rw [h.chan j i] at hm
    cases hm
  senders := fun j m hm => by
    rw [h.sent j] at hm
    cases hm
  honest := fun j _ m hm => by
    rw [h.sent j] at hm
    cases hm
  records := by
    intro i hi d hd
    have hinit := h.records i hi d hd
    refine ⟨(h.mirrored i hi d.fedID (List.mem_map_of_mem hd)).1, fun hc => ?_, fun hc => ?_⟩
    · rw [hinit] at hc
      exact absurd hc (by decide)
    · rw [hinit] at hc
      exact absurd hc (by decide)

structure Later (s t : Launch) : Prop where
  members : t.net.members = s.net.members
  sent : ∀ j, ∀ m ∈ s.sent j, m ∈ t.sent j
  execution : ∀ j ∈ s.net.members, (s.coord j).executionMode = true →
    (t.coord j).executionMode = true
  state : ∀ j ∈ s.net.members, (t.net.fed j).state = .initializing →
    (s.net.fed j).state = .initializing

section Later
variable {s t : Launch} (h : Later s t)
include h

theorem Later.asked (ha : s.Asked j i) : t.Asked j i := by
  obtain ⟨m, hm, hkind⟩ := ha
  exact ⟨m, h.sent j m hm, hkind⟩

theorem Later.left (hl : s.Left j i) : t.Left j i := by
  obtain ⟨m, hm, hkind⟩ := hl
  exact ⟨m, h.sent j m hm, hkind⟩

theorem Later.record (hi : i ∈ s.net.members) (hr : s.Record i d) : t.Record i d := by
  refine ⟨h.members ▸ hr.member, fun hc => ?_, fun hc => ?_⟩
  · obtain ha | hx | hl | ⟨he, hs⟩ := hr.asked hc
    · exact .inl (h.asked ha)
    · exact .inr (.inl (h.execution _ hr.member hx))
    · exact .inr (.inr (.inl (h.left hl)))
    · exact .inr (.inr (.inr ⟨he, fun hs' => hs (h.state i hi hs')⟩))
  · exact (hr.entered hc).imp_left (h.execution _ hr.member)

end Later

/-- A message that a federate may record without being misled about its sender. -/
inductive Truthful (s : Launch) (i : GlobalId) (m : ActionMessage) : Prop
  | request (hk : m.messageAction = .cmdExecRequest) (ha : s.Asked m.sourceId i)
  | executing (hk : m.messageAction = .cmdExecGrant ∨ m.messageAction = .cmdTimeRequest ∨
      m.messageAction = .cmdTimeGrant) (hj : m.sourceId ∈ s.net.members)
      (hx : (s.coord m.sourceId).executionMode = true)
  | gone (hk : m.messageAction = .cmdDisconnect ∨ m.messageAction = .cmdDisconnectFed)
      (hj : m.sourceId ∈ s.net.members)
      (hl : s.Left m.sourceId i) (hs : (s.net.fed m.sourceId).state ≠ .initializing)
  | outside (hk : m.messageAction ≠ .cmdSendMessage) (hj : m.sourceId ∉ s.net.members)
  | neutral (hk : m.messageAction.endsConnection = false)
      (hd : ∀ d, processMessage d m = (false, d))

theorem Later.truthful (h : Later s t) (hm : s.Truthful i m) : t.Truthful i m := by
  cases hm with
  | request hk ha => exact .request hk (h.asked ha)
  | executing hk hj hx => exact .executing hk (h.members ▸ hj) (h.execution _ hj hx)
  | gone hk hj hl hs => exact .gone hk (h.members ▸ hj) (h.left hl) fun hs' => hs (h.state _ hj hs')
  | outside hk hj => exact .outside hk (h.members ▸ hj)
  | neutral hk hd => exact .neutral hk hd

theorem Truthful.record {s : Launch} (h : s.Truthful i m)
    (hd : d.fedID = dependencyOf m) (hr : s.Record i d) : s.Record i (d.processMessage m).2 := by
  have hsource (hk : m.messageAction ≠ .cmdSendMessage) : d.fedID = m.sourceId := by
    rw [hd, dependencyOf, if_neg hk]
  have hid := d.processMessage_fedID m
  cases h with
  | request hk ha =>
    have he := hsource (by rw [hk]; exact nofun)
    refine ⟨hid ▸ hr.member, fun _ => .inl (by rw [hid, he]; exact ha), fun hc => ?_⟩
    unfold processMessage onExecRequest at hc
    simp only [hk] at hc
    split at hc <;> exact absurd hc (by decide)
  | executing hk hj hx =>
    have he : d.fedID = m.sourceId := hsource (by
      obtain hk | hk | hk := hk
      all_goals
        rw [hk]
        exact nofun)
    have hx' : (s.coord (d.processMessage m).2.fedID).executionMode = true := by
      rw [hid, he]; exact hx
    exact ⟨hid ▸ hr.member, fun _ => .inr (.inl hx'), fun _ => .inl hx'⟩
  | gone hk hj hl hs =>
    have he : d.fedID = m.sourceId := hsource (by
      obtain hk | hk := hk
      all_goals
        rw [hk]
        exact nofun)
    refine ⟨hid ▸ hr.member, fun _ => .inr (.inr (.inl (by rw [hid, he]; exact hl))),
      fun _ => .inr ?_⟩
    unfold processMessage
    obtain hk | hk := hk
    all_goals
      rw [hk]
      rfl
  | outside hk hj => exact absurd (hsource hk ▸ hr.member) hj
  | neutral hk hsame =>
    rw [hsame d]
    exact hr

theorem stable_record (s : Launch) (i : GlobalId) : Stable (s.Record i) := by
  intro d d' hid hstate hnext h
  refine ⟨hid ▸ h.member, fun hc => ?_, fun hc => ?_⟩
  · rw [hstate] at hc
    rw [hid]
    exact h.asked hc
  · rw [hstate] at hc
    rw [hid, hnext]
    exact h.entered hc

theorem Record.ownBye {s : Launch} {c : TimeCoordinator} (hr : s.Record i d)
    (hd : d.fedID = dependencyOf c.ownBye) (hc : c.sourceId = i)
    (hs : (s.net.fed i).state ≠ .initializing) : s.Record i (d.processMessage c.ownBye).2 := by
  have he : d.fedID = i := hd.trans hc
  exact ⟨hr.member, fun _ => .inr (.inr (.inr ⟨he, hs⟩)), fun _ => .inr rfl⟩

end Launch

namespace FederateState

theorem Honest.later {f f' : FederateState} (h : f.Honest m) (hg : f'.globalId = f.globalId)
    (hx : f.timeCoord.executionMode = true → f'.timeCoord.executionMode = true)
    (hs : f'.state = .initializing → f.state = .initializing) : f'.Honest m := by
  obtain ⟨hsource, hk | ⟨hk, hm⟩ | ⟨hk, hm⟩⟩ := h
  · exact ⟨hsource.trans hg.symm, .inl hk⟩
  · exact ⟨hsource.trans hg.symm, .inr (.inl ⟨hk, hx hm⟩)⟩
  · exact ⟨hsource.trans hg.symm, .inr (.inr ⟨hk, fun hi => hm (hs hi)⟩)⟩

end FederateState

namespace Launch

section Perform
variable {s : Launch} {net : Federation} {i : GlobalId}
  {r : MessageProcessingResult × FederateState × List ActionMessage}

theorem fed_perform_self : (s.perform net i r).net.fed i = Federation.returned r := if_pos rfl

theorem fed_perform_ne (hk : k ≠ i) : (s.perform net i r).net.fed k = net.fed k := if_neg hk

theorem coord_perform_self : (s.perform net i r).coord i = r.2.1.timeCoord := by
  unfold coord
  rw [fed_perform_self]
  rfl

theorem coord_perform_ne (hk : k ≠ i) : (s.perform net i r).coord k = (net.fed k).timeCoord := by
  unfold coord
  rw [fed_perform_ne hk]

theorem mem_sent_perform : m ∈ (s.perform net i r).sent k ↔ m ∈ s.sent k ∨ k = i ∧ m ∈ r.2.2 := by
  unfold perform
  dsimp only
  by_cases hk : k = i
  · rw [if_pos hk, List.mem_append, and_iff_right hk]
  · rw [if_neg hk]
    exact ⟨.inl, fun h => h.resolve_right fun h' => hk h'.1⟩

end Perform

structure Acts (s : Launch) (i : GlobalId) (cmd : Option ActionMessage) (net : Federation)
    (r : MessageProcessingResult × FederateState × List ActionMessage) : Prop where
  member : i ∈ s.net.members
  members : net.members = s.net.members
  fed : net.fed = s.net.fed
  chan : ∀ a b, ∀ m ∈ net.chan a b, m ∈ s.net.chan a b
  request : ∀ k cmd, net.request k = some cmd → s.net.request k = some cmd
  progress : Progress cmd (s.net.fed i) r.2.1 r.2.2
  truthful : ∀ m, cmd = some m → s.Truthful i m

section Acts
variable {s : Launch} {net : Federation} (h : Sound s) (ha : Acts s i cmd net r)
include ha

theorem Acts.later : Later s (s.perform net i r) where
  members := ha.members
  sent := fun j m hm => mem_sent_perform.mpr (.inl hm)
  execution := by
    intro j _ hx
    by_cases hj : j = i
    · subst hj
      rw [coord_perform_self]
      exact ha.progress.execution hx
    · rw [coord_perform_ne hj, ha.fed]
      exact hx
  state := by
    intro j _ hs
    by_cases hj : j = i
    · subst hj
      rw [fed_perform_self] at hs
      exact ha.progress.state hs
    · rw [fed_perform_ne hj, ha.fed] at hs
      exact hs

include h

theorem Acts.launchable : ∀ k ∈ s.net.members, ((s.perform net i r).net.fed k).globalId = k ∧
    ((s.perform net i r).net.fed k).Launchable := by
  intro k hk
  by_cases hki : k = i
  · subst hki
    have hl := ha.progress.launchable
    rw [fed_perform_self]
    exact ⟨ha.progress.globalId.trans (h.globalId k hk),
      ⟨hl.sourceId, hl.iterating, hl.executing, hl.asked⟩⟩
  · rw [fed_perform_ne hki, ha.fed]
    exact ⟨h.globalId k hk, h.launchable k hk⟩

theorem Acts.lost (hk : k ∈ s.net.members) (hd : k ∈ (s.coord i).dependents.entries) :
    k ∈ ((s.perform net i r).coord i).dependents.entries ∨
      ((s.perform net i r).net.fed k).state ≠ .initializing := by
  rw [coord_perform_self]
  obtain ⟨ms, hms, ht⟩ := ha.progress.tables
  obtain hd | ⟨m, hm, hend, hsource⟩ := ht.kept k hd
  · exact .inl hd
  refine .inr fun hs => ?_
  obtain hcmd | ⟨rfl, hs'⟩ := hms m hm
  · have hs₀ := ha.later.state k hk hs
    cases ha.truthful m hcmd with
    | request hkind =>
      rw [hkind] at hend
      cases hend
    | executing hkind =>
      obtain hkind | hkind | hkind := hkind
      all_goals
        rw [hkind] at hend
        cases hend
    | gone _ _ _ hgone => exact hgone (hsource ▸ hs₀)
    | outside _ hout => exact hout (hsource ▸ hk)
    | neutral hkind => exact absurd (hend.symm.trans hkind) Bool.noConfusion
  · have hki : k = i := by
      rw [← hsource]
      exact (h.launchable i ha.member).sourceId.trans (h.globalId i ha.member)
    subst hki
    rw [fed_perform_self] at hs
    exact hs' hs

theorem Acts.linked : ∀ k ∈ s.net.members, ∀ j ∈ ((s.perform net i r).coord k).dependencies.keys,
    k ∈ ((s.perform net i r).coord j).dependents.entries ∨
      ((s.perform net i r).net.fed k).state ≠ .initializing := by
  intro k hk j hj
  have hj₀ : j ∈ (s.coord k).dependencies.keys := by
    by_cases hki : k = i
    · subst hki
      obtain ⟨ms, -, ht⟩ := ha.progress.tables
      rw [coord_perform_self, ht.keys] at hj
      exact hj
    · rw [coord_perform_ne hki, ha.fed] at hj
      exact hj
  obtain hd | hs := h.linked k hk j hj₀
  · by_cases hji : j = i
    · subst hji
      exact ha.lost h hk hd
    · rw [coord_perform_ne hji, ha.fed]
      exact .inl hd
  · exact .inr fun hs' => hs (ha.later.state k hk hs')

theorem Acts.asked : ∀ j ∈ s.net.members, ((s.perform net i r).coord j).checkingExec = true →
    ∀ k ∈ ((s.perform net i r).coord j).dependents.entries, (s.perform net i r).Asked j k := by
  intro j hj hc k hk
  by_cases hji : j = i
  · subst hji
    rw [coord_perform_self] at hc hk
    cases hc₀ : (s.coord j).checkingExec with
    | true =>
      obtain ⟨ms, -, ht⟩ := ha.progress.tables
      exact ha.later.asked (h.asked j hj hc₀ k (ht.dependents k hk))
    | false =>
      obtain ⟨m, hm, hkind⟩ := ha.progress.asks hc₀ hc k hk
      exact ⟨m, mem_sent_perform.mpr (.inr ⟨rfl, hm⟩), hkind⟩
  · rw [coord_perform_ne hji, ha.fed] at hc hk
    exact ha.later.asked (h.asked j hj hc k hk)

theorem Acts.chan_sent : ∀ j k, ∀ m ∈ (s.perform net i r).net.chan j k,
    m ∈ (s.perform net i r).sent j ∧ m.destId = k := by
  intro j k m hm
  have hold (hm : m ∈ net.chan j k) : m ∈ (s.perform net i r).sent j ∧ m.destId = k := by
    obtain ⟨hsent, hdest⟩ := h.chan j k m (ha.chan j k m hm)
    exact ⟨ha.later.sent j m hsent, hdest⟩
  change m ∈ if j = i then net.chan j k ++ r.2.2.filter (fun m => decide (m.destId = k))
    else net.chan j k at hm
  split at hm
  · rename_i hji
    obtain hm | hm := List.mem_append.mp hm
    · exact hold hm
    · obtain ⟨hm, hdest⟩ := List.mem_filter.mp hm
      exact ⟨mem_sent_perform.mpr (.inr ⟨hji, hm⟩), of_decide_eq_true hdest⟩
  · exact hold hm

theorem Acts.honest : ∀ j ∈ s.net.members, ∀ m ∈ (s.perform net i r).sent j,
    ((s.perform net i r).net.fed j).Honest m := by
  intro j hj m hm
  by_cases hji : j = i
  · subst hji
    rw [fed_perform_self]
    obtain hm | ⟨-, hm⟩ := mem_sent_perform.mp hm
    · exact (h.honest j hj m hm).later ha.progress.globalId ha.progress.execution ha.progress.state
    · exact ha.progress.honest m hm
  · rw [fed_perform_ne hji, ha.fed]
    exact h.honest j hj m ((mem_sent_perform.mp hm).resolve_right fun hnew => hji hnew.1)

theorem Acts.records : ∀ k ∈ s.net.members,
    ∀ d ∈ ((s.perform net i r).coord k).dependencies.entries,
    (s.perform net i r).Record k d := by
  intro k hk d hd
  by_cases hki : k = i
  · subst hki
    rw [coord_perform_self] at hd
    obtain ⟨ms, hms, ht⟩ := ha.progress.tables
    refine ht.records _ (stable_record _ k) (fun m hm d hid hr => ?_)
      (fun d hd => ha.later.record hk (h.records k hk d hd)) d hd
    obtain hcmd | ⟨rfl, hs⟩ := hms m hm
    · exact (ha.later.truthful (ha.truthful m hcmd)).record hid hr
    have hsource := (h.launchable k hk).sourceId.trans (h.globalId k hk)
    refine hr.ownBye hid hsource ?_
    rw [fed_perform_self]
    exact hs
  · rw [coord_perform_ne hki, ha.fed] at hd
    exact ha.later.record hk (h.records k hk d hd)

theorem Acts.sound : Sound (s.perform net i r) where
  ids := by
    change ∀ i ∈ net.members, _
    rw [ha.members]
    exact h.ids
  globalId := by
    change ∀ i ∈ net.members, _
    rw [ha.members]
    exact fun k hk => (ha.launchable h k hk).1
  launchable := by
    change ∀ i ∈ net.members, _
    rw [ha.members]
    exact fun k hk => (ha.launchable h k hk).2
  pending := by
    change ∀ i ∈ net.members, _
    rw [ha.members]
    intro k hk cmd hcmd
    obtain ⟨hsource, hdest, hiter, hkind⟩ := h.pending k hk cmd (ha.request k cmd hcmd)
    refine ⟨hsource, hdest, hiter, hkind.imp_right fun hkind => ?_⟩
    exact ⟨hkind.1, ha.later.execution k hk hkind.2⟩
  linked := by
    change ∀ i ∈ net.members, _
    rw [ha.members]
    exact ha.linked h
  asked := by
    change ∀ i ∈ net.members, _
    rw [ha.members]
    exact ha.asked h
  chan := ha.chan_sent h
  senders := by
    intro j m hm
    change j ∈ net.members
    rw [ha.members]
    obtain hm | ⟨rfl, -⟩ := mem_sent_perform.mp hm
    · exact h.senders j m hm
    · exact ha.member
  honest := by
    change ∀ i ∈ net.members, _
    rw [ha.members]
    exact ha.honest h
  records := by
    change ∀ i ∈ net.members, _
    rw [ha.members]
    exact ha.records h

/-- When a federate enters execution, all its dependencies have asked for it before or have left. -/
theorem Acts.entry (hx : (s.coord i).executionMode = false)
    (hx' : ((s.perform net i r).coord i).executionMode = true)
    (hj : j ∈ (s.coord i).dependencies.keys) : s.Asked j i ∨ s.Left j i := by
  rw [coord_perform_self] at hx'
  obtain ⟨hs, -, hready, ms, hms, ht⟩ := ha.progress.entry hx hx'
  have hrec : ∀ d ∈ r.2.1.timeCoord.dependencies.entries, s.Record i d :=
    ht.records _ (stable_record s i)
      (fun m hm d hid hr => (ha.truthful m (hms m hm)).record hid hr) (h.records i ha.member)
  have hkeys : r.2.1.timeCoord.dependencies.keys = (s.coord i).dependencies.keys := ht.keys
  rw [← hkeys] at hj
  obtain ⟨d, hd, rfl⟩ := List.mem_map.mp hj
  have hcode : TimeState.execRequested.code ≤ d.timeState.code :=
    of_decide_eq_true (List.all_eq_true.mp hready d hd)
  obtain hask | hexec | hleft | ⟨-, hne⟩ := (hrec d hd).asked hcode
  · exact .inl hask
  · -- a dependency that is executing has asked all its dependents, and this one is among them
    have hmem := (hrec d hd).member
    have hchecking := (h.launchable d.fedID hmem).asked (.inl hexec)
    have hkey : d.fedID ∈ (s.coord i).dependencies.keys := hkeys ▸ hj
    obtain hdep | hne := h.linked i ha.member d.fedID hkey
    · exact .inl (h.asked d.fedID hmem hchecking i hdep)
    · exact absurd hs hne
  · exact .inr hleft
  · exact absurd hs hne

end Acts

end Launch

end Helics
