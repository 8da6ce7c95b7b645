import Helics.Launch

namespace Helics

open Invariants

namespace Launch

open FederateState

structure Calls (s t : Launch) : Prop where
  members : t.net.members = s.net.members
  fed : ∀ k, ∃ p, t.net.fed k = { s.net.fed k with processing := p }
  chan : t.net.chan = s.net.chan
  sent : t.sent = s.sent
  pending : ∀ i ∈ s.net.members, ∀ cmd, t.net.request i = some cmd → s.net.request i = some cmd ∨
    cmd.sourceId = i ∧ cmd.destId = parentBrokerId ∧ iterationOf cmd = .noIterations ∧
      (cmd.messageAction = .cmdExecRequest ∨
        cmd.messageAction = .cmdTimeRequest ∧ (s.coord i).executionMode = true)

section Calls
variable {s t : Launch} (hc : Calls s t)
include hc

theorem Calls.coord (k : GlobalId) : t.coord k = s.coord k := by
  obtain ⟨p, hp⟩ := hc.fed k
  unfold Launch.coord
  rw [hp]

theorem Calls.state (k : GlobalId) : (t.net.fed k).state = (s.net.fed k).state := by
  obtain ⟨p, hp⟩ := hc.fed k
  rw [hp]

theorem Calls.later : Later s t where
  members := hc.members
  sent := fun j m hm => by
    rw [hc.sent]
    exact hm
  execution := fun j _ hx => by
    rw [hc.coord]
    exact hx
  state := fun j _ hs => by
    rw [hc.state] at hs
    exact hs

theorem Calls.sound (h : Sound s) : Sound t where
  ids := hc.members ▸ h.ids
  globalId := by
    rw [hc.members]
    intro k hk
    obtain ⟨p, hp⟩ := hc.fed k
    rw [hp]
    exact h.globalId k hk
  launchable := by
    rw [hc.members]
    intro k hk
    obtain ⟨p, hp⟩ := hc.fed k
    have hl := h.launchable k hk
    rw [hp]
    exact ⟨hl.sourceId, hl.iterating, hl.executing, hl.asked⟩
  pending := by
    rw [hc.members]
    intro k hk cmd hcmd
    rw [hc.coord]
    obtain hold | hnew := hc.pending k hk cmd hcmd
    · exact h.pending k hk cmd hold
    · exact hnew
  linked := by
    rw [hc.members]
    intro k hk j hj
    rw [hc.coord] at hj
    rw [hc.coord, hc.state]
    exact h.linked k hk j hj
  asked := by
    rw [hc.members]
    intro j hj hch k hk
    rw [hc.coord] at hch hk
    exact hc.later.asked (h.asked j hj hch k hk)
  chan := by
    rw [hc.chan, hc.sent]
    exact h.chan
  senders := by
    rw [hc.sent, hc.members]
    exact h.senders
  honest := by
    rw [hc.members, hc.sent]
    intro j hj m hm
    obtain ⟨p, hp⟩ := hc.fed j
    rw [hp]
    exact (h.honest j hj m hm).later rfl id id
  records := by
    rw [hc.members]
    intro k hk d hd
    rw [hc.coord] at hd
    exact hc.later.record hk (h.records k hk d hd)

end Calls

theorem calls_startCall (s : Launch) (i : GlobalId) : Calls s (s.startCall i) where
  members := rfl
  fed := by
    intro k
    by_cases hk : k = i
    · subst hk
      exact ⟨true, if_pos rfl⟩
    · exact ⟨(s.net.fed k).processing, if_neg hk⟩
  chan := rfl
  sent := rfl
  pending := fun _ _ _ hcmd => .inl hcmd

theorem calls_ask (s : Launch) (i : GlobalId) (hsource : cmd.sourceId = i)
    (hdest : cmd.destId = parentBrokerId) (hiter : iterationOf cmd = .noIterations)
    (hkind : cmd.messageAction = .cmdExecRequest ∨
      cmd.messageAction = .cmdTimeRequest ∧ (s.coord i).executionMode = true) :
    Calls s (s.ask i cmd) :=
  { s.calls_startCall i with
    pending := by
      intro k _ cmd' hcmd
      change (if k = i then some cmd else s.net.request k) = some cmd' at hcmd
      split at hcmd
      · rename_i hk
        subst hk
        cases hcmd
        exact .inr ⟨hsource, hdest, hiter, hkind⟩
      · exact .inl hcmd }

theorem iterationOf_of_flags (h : cmd.flags = 0) :
    iterationOf cmd = .noIterations := by
  unfold iterationOf
  rw [h]
  decide

theorem Sound.startRequest (h : Sound s) (hi : i ∈ s.net.members)
    (hcmd : s.net.request i = some cmd) (v w : Time) :
    Progress none (s.net.fed i) ((s.net.fed i).processActionMessage cmd v w).2.1
      ((s.net.fed i).processActionMessage cmd v w).2.2 := by
  obtain ⟨hsource, hdest, hiter, hkind⟩ := h.pending i hi cmd hcmd
  have hown : (s.net.fed i).isOwnRequest cmd = true := by
    rw [isOwnRequest, Bool.and_eq_true, decide_eq_true_iff, decide_eq_true_iff, h.globalId i hi]
    exact ⟨hsource, hdest⟩
  unfold processActionMessage
  obtain hkind | ⟨hkind, hx⟩ := hkind
  · rw [hkind]
    rw [if_pos hown]
    exact (h.launchable i hi).startExecRequest hiter
  rw [hkind]
  dsimp only
  rw [if_pos hown]
  exact (h.launchable i hi).startTimeRequest hiter hx v w

theorem Sound.delivered (h : Sound s) (hi : i ∈ s.net.members)
    (hm : m ∈ s.net.chan j i) :
    Progress (some m) (s.net.fed i) ((s.net.fed i).processActionMessage m .maxVal .maxVal).2.1
        ((s.net.fed i).processActionMessage m .maxVal .maxVal).2.2 ∧ s.Truthful i m := by
  obtain ⟨hsent, hdest⟩ := h.chan j i m hm
  have hj := h.senders j m hsent
  have hl := h.launchable i hi
  have hown : ¬ (s.net.fed i).isOwnRequest m = true := by
    intro hown
    rw [isOwnRequest, Bool.and_eq_true, decide_eq_true_iff, decide_eq_true_iff, hdest] at hown
    have hid := h.ids i hi
    rw [hown.2] at hid
    exact absurd hid (by decide)
  obtain ⟨hsource, hkind⟩ := h.honest j hj m hsent
  rw [h.globalId j hj] at hsource
  subst hsource
  unfold processActionMessage
  obtain hk | ⟨hk, hx⟩ | ⟨hk, hs⟩ := hkind
  · refine ⟨?_, .request hk ⟨m, hsent, hk, hdest⟩⟩
    rw [hk]
    rw [if_neg hown]
    exact hl.processThen (by rw [hk]; exact nofun) fun f hf => hf.execCheck
  · refine ⟨?_, .executing hk hj hx⟩
    obtain hk | hk | hk := hk
    · rw [hk]
      exact hl.processThen (by rw [hk]; exact nofun) fun f hf => hf.execCheck
    · rw [hk]
      dsimp only
      rw [if_neg hown]
      exact hl.processThen (by rw [hk]; exact nofun) fun f hf => hf.timeCheck
    · rw [hk]
      exact hl.processThen (by rw [hk]; exact nofun) fun f hf => hf.timeCheck
  · have hend : m.messageAction.endsConnection = true := by
      obtain hk | hk := hk
      all_goals
        rw [hk]
        rfl
    refine ⟨?_, .gone hk hj ⟨m, hsent, hend, hdest⟩ hs⟩
    have hp := hl.processDisconnect hk
    obtain hk | hk := hk
    all_goals
      rw [hk]
      exact hp

theorem Sound.commanded (h : Sound s) (hi : i ∈ s.net.members) (hc : s.Command i cmd) :
    ∃ c, Progress c (s.net.fed i) ((s.net.fed i).processActionMessage cmd .maxVal .maxVal).2.1
        ((s.net.fed i).processActionMessage cmd .maxVal .maxVal).2.2 ∧
      ∀ m, c = some m → s.Truthful i m := by
  have hl := h.launchable i hi
  have hnone {m : ActionMessage} : none = some m → s.Truthful i m := by rintro ⟨⟩
  unfold Command at hc
  unfold processActionMessage
  split at hc
  case h_1 hk | h_2 hk =>
    have hneutral : s.Truthful i cmd := by
      refine .neutral (by rw [hk]; rfl) fun d => ?_
      unfold DependencyInfo.processMessage
      rw [hk]
    rw [hk]
    refine ⟨some cmd, hl.processTimeBlock (by rw [hk]; decide), fun m hm => ?_⟩
    cases hm
    exact hneutral
  case h_3 hk => rw [hk]; exact ⟨none, hl.execCheck, fun _ => hnone⟩
  case h_4 hk => rw [hk]; exact ⟨none, hl.timeCheck, fun _ => hnone⟩
  case h_5 hk => rw [hk]; exact ⟨none, hl.stop, fun _ => hnone⟩
  case h_6 hk => rw [hk]; exact ⟨none, hl.ends (by decide) (by decide), fun _ => hnone⟩
  case h_7 hk => rw [hk]; exact ⟨none, hl.acknowledgeDisconnect cmd, fun _ => hnone⟩
  case h_8 hk => rw [hk]; exact ⟨none, hl.receiveMessage cmd, fun _ => hnone⟩
  case h_9 hk => rw [hk]; exact ⟨none, hl.receivePublication cmd, fun _ => hnone⟩
  case h_10 hk => rw [hk]; exact ⟨none, hl.ends (by decide) (by decide), fun _ => hnone⟩
  case h_11 hk | h_12 hk =>
    have hkind : cmd.messageAction = .cmdDisconnect ∨ cmd.messageAction = .cmdDisconnectFed := by
      rw [hk]
      decide
    have hp := hl.processOwnDisconnect hkind (hc.trans (h.globalId i hi).symm)
    rw [hk]
    exact ⟨none, hp, fun _ => hnone⟩
  case h_13 hk | h_14 hk | h_15 hk =>
    have hout : s.Truthful i cmd := .outside (by rw [hk]; decide) hc
    rw [hk]
    refine ⟨some cmd, hl.processThen (by rw [hk]; decide) fun f hf => hf.timeCheck, fun m hm => ?_⟩
    cases hm
    exact hout
  case h_16 hk =>
    have hneutral : s.Truthful i cmd := by
      refine .neutral (by rw [hk]; rfl) fun d => ?_
      unfold DependencyInfo.processMessage
      rw [hk]
    rw [hk]
    refine ⟨some cmd, hl.forceTimeGrant hk hc, fun m hm => ?_⟩
    cases hm
    exact hneutral
  case h_17 => exact hc.elim

theorem Sound.step_cases (h : Sound s) (hs : s.step e = some t) :
    Calls s t ∨ ∃ i cmd net r, Acts s i cmd net r ∧ t = s.perform net i r := by
  cases e with
  | enterExecutingMode i =>
    obtain ⟨hi, ⟨⟩⟩ := Option.ite_none_right_eq_some.mp hs
    exact .inl (s.calls_ask i (h.globalId i hi.1) rfl (iterationOf_of_flags rfl) (.inl rfl))
  | requestTime i t =>
    obtain ⟨hi, ⟨⟩⟩ := Option.ite_none_right_eq_some.mp hs
    exact .inl (s.calls_ask i (h.globalId i hi.1) rfl (iterationOf_of_flags rfl)
      (.inr ⟨rfl, (h.launchable i hi.1).executing hi.2.1⟩))
  | processQueue i =>
    obtain ⟨-, ⟨⟩⟩ := Option.ite_none_right_eq_some.mp hs
    exact .inl (s.calls_startCall i)
  | startRequest i v w =>
    unfold step at hs
    dsimp only at hs
    split at hs
    · rename_i cmd hcmd
      obtain ⟨hi, ⟨⟩⟩ := Option.ite_none_right_eq_some.mp hs
      have hreq : ∀ k c, (s.net.setRequest i none).request k = some c →
          s.net.request k = some c := by
        intro k c hk
        change (if k = i then none else s.net.request k) = some c at hk
        split at hk
        · cases hk
        · exact hk
      have htrue : ∀ m, none = some m → s.Truthful i m := by
        intro m hm
        cases hm
      exact .inr ⟨i, none, s.net.setRequest i none, _, ⟨hi, rfl, rfl, fun _ _ _ hm => hm, hreq,
        h.startRequest hi hcmd v w, htrue⟩, rfl⟩
    · cases hs
  | command i cmd =>
    obtain ⟨⟨hi, -, hc⟩, ⟨⟩⟩ := Option.ite_none_right_eq_some.mp hs
    obtain ⟨c, hp, htrue⟩ := h.commanded hi hc
    exact .inr ⟨i, c, _, _, ⟨hi, rfl, rfl, fun _ _ _ hm => hm, fun _ _ hk => hk, hp, htrue⟩, rfl⟩
  | deliver j i =>
    unfold step at hs
    dsimp only at hs
    split at hs
    · cases hs
    rename_i m l hchan
    obtain ⟨⟨hi, -, -⟩, ⟨⟩⟩ := Option.ite_none_right_eq_some.mp hs
    have hm : m ∈ s.net.chan j i := by
      rw [hchan]
      exact List.mem_cons_self
    obtain ⟨hp, htrue⟩ := h.delivered hi hm
    refine .inr ⟨i, some m, s.net.consume j i, _, ⟨hi, rfl, rfl, fun a b x hx => ?_,
      fun _ _ hk => hk, hp, fun x hx => Option.some.inj hx ▸ htrue⟩, rfl⟩
    change x ∈ if a = j ∧ b = i then (s.net.chan a b).tail else s.net.chan a b at hx
    split at hx
    · exact List.mem_of_mem_tail hx
    · exact hx

theorem Sound.step (h : Sound s) (hs : s.step e = some t) : Sound t := by
  obtain hc | ⟨i, cmd, net, r, ha, rfl⟩ := h.step_cases hs
  · exact hc.sound h
  · exact ha.sound h

/-- Whenever a federate enters execution, each of its dependencies has asked for it before or has
left, and every dependency that is recorded as granted at time zero is executing. -/
theorem nobody_left_behind (s₀ : Launch) (h₀ : s₀.Initialized)
    (hrun : Run (fun s e t => s.step e = some t) s₀ es s) :
    (∀ e t, s.step e = some t → ∀ i ∈ s.net.members, (s.coord i).executionMode = false →
      (t.coord i).executionMode = true →
      ∀ j ∈ (s.coord i).dependencies.keys, s.Asked j i ∨ s.Left j i) ∧
    ∀ i ∈ s.net.members, ∀ d ∈ (s.coord i).dependencies.entries, d.timeState = .timeGranted →
      d.Tnext = .zero → (s.coord d.fedID).executionMode = true := by
  have h : Sound s := hrun.invariant (fun _ _ _ h hs => h.step hs) h₀.sound
  constructor
  · intro e t hs i _ hx hx' j hj
    obtain hc | ⟨k, cmd, net, r, ha, rfl⟩ := h.step_cases hs
    · rw [hc.coord, hx] at hx'
      cases hx'
    by_cases hik : i = k
    · subst hik
      exact ha.entry h hx hx' hj
    · rw [coord_perform_ne hik, ha.fed] at hx'
      exact absurd (hx.symm.trans hx') Bool.noConfusion
  · intro i hi d hd hstate hnext
    obtain hx | hmax := (h.records i hi d hd).entered (by rw [hstate])
    · exact hx
    · rw [hnext] at hmax
      exact absurd hmax (by decide)

def pairOf (i j : GlobalId) : Launch where
  net :=
    { members := [i, j]
      fed := fun k =>
        { globalId := k
          state := .initializing
          timeGrantedMode := true
          timeCoord :=
            { sourceId := k
              dependencies := TimeDependencies.empty.insert { fedID := if k = i then j else i }
              dependents := Dependents.empty.insert (if k = i then j else i) } } }

def entering (i : GlobalId) : List LaunchEvent :=
  [.enterExecutingMode i, .startRequest i .maxVal .maxVal]

/-- Both federates ask, the second one enters and the first one hears of the request. -/
def bothAsk : List LaunchEvent := entering 131073 ++ entering 131074 ++ [.deliver 131073 131074]

theorem pairOf_initialized : (pairOf 131073 131074).Initialized where
  ids := by decide
  globalId _ _ := rfl
  sourceId _ _ := rfl
  state _ _ := ⟨rfl, rfl⟩
  mode _ _ := ⟨rfl, rfl, rfl⟩
  records := by decide
  mirrored := by decide
  request _ := rfl
  chan _ _ := rfl
  sent _ := rfl

theorem pairOf_run : (execute step (pairOf 131073 131074) bothAsk).bind (fun s =>
    (s.step (.deliver 131074 131073)).bind fun t =>
      (execute step t [.processQueue 131073, .deliver 131074 131073]).map fun u =>
        decide (131073 ∈ s.net.members ∧ (s.coord 131073).executionMode = false ∧
          (t.coord 131073).executionMode = true ∧ 131074 ∈ (s.coord 131073).dependencies.keys ∧
          131073 ∈ u.net.members ∧ ∃ d ∈ (u.coord 131073).dependencies.entries,
            d.timeState = .timeGranted ∧ d.Tnext = .zero ∧ d.fedID = 131074)) = some true := by
  decide +kernel

theorem pair_not_left_behind : ∃ s u,
    Run (fun s e t => s.step e = some t) (pairOf 131073 131074) bothAsk s ∧
    (s.Asked 131074 131073 ∨ s.Left 131074 131073) ∧ Run (fun s e t => s.step e = some t) s
      [.deliver 131074 131073, .processQueue 131073, .deliver 131074 131073] u ∧
    (u.coord 131074).executionMode = true := by
  obtain ⟨s, hs, h⟩ := Option.bind_eq_some_iff.mp pairOf_run
  obtain ⟨t, ht, h⟩ := Option.bind_eq_some_iff.mp h
  obtain ⟨u, hu, h⟩ := Option.map_eq_some_iff.mp h
  obtain ⟨hi, hx, hx', hk, hi', d, hd, hstate, hnext, hid⟩ := of_decide_eq_true h
  have hrun : Run (fun s e t => s.step e = some t) (pairOf 131073 131074) bothAsk s :=
    .of_execute hs
  have hrun' : Run (fun s e t => s.step e = some t) s
      [.deliver 131074 131073, .processQueue 131073, .deliver 131074 131073] u :=
    .cons ht (.of_execute hu)
  have hentry := nobody_left_behind _ pairOf_initialized hrun
  have hgranted := nobody_left_behind _ pairOf_initialized (hrun.append hrun')
  exact ⟨s, u, hrun, hentry.1 _ t ht 131073 hi hx hx' 131074 hk, hrun',
    hid ▸ hgranted.2 131073 hi' d hd hstate hnext⟩

end Launch

end Helics
