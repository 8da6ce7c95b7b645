import Mathlib.Data.List.Induction
import Mathlib.Data.List.Nodup
import Helics.DisconnectAcks

namespace Helics

namespace CoreBroker

theorem sources_concat (cmds : List ActionMessage) (cmd : ActionMessage) :
    sources (cmds ++ [cmd]) = sources cmds ++ [cmd.sourceId] := by
  simp [sources]

theorem filter_key_eq [DecidableEq κ] {l : List α} {key : α → κ} (h : (l.map key).Nodup)
    (hx : x ∈ l) : l.filter (fun y => decide (key y = key x)) = [x] := by
  induction l with
  | nil => cases hx
  | cons y l ih =>
    obtain ⟨hy, hl⟩ := List.nodup_cons.mp h
    cases hx with
    | head =>
      have hrest : l.filter (fun z => decide (key z = key x)) = [] := by
        rw [List.filter_eq_nil_iff]
        intro z hz hkey
        exact hy (of_decide_eq_true hkey ▸ List.mem_map_of_mem hz)
      rw [List.filter_cons, if_pos (by simp), hrest]
    | tail _ hx =>
      have hne : key y ≠ key x := fun heq => hy (heq ▸ List.mem_map_of_mem hx)
      rw [List.filter_cons_of_neg (by simpa using hne), ih hl hx]

section
variable [DualMapped String GlobalId]

instance decidableAllGone (b : CoreBroker) (gone : List GlobalId) : Decidable (AllGone b gone) :=
  inferInstanceAs (Decidable (∀ brk ∈ b.brokers.data, brk.nonLocal = false → brk.globalId ∈ gone))

/-- The children acknowledged after some departures: below the root the last one has to wait. -/
def ackedAmong (b : CoreBroker) (departures : List ActionMessage) : List GlobalId :=
  if b.isRootc = false ∧ AllGone b (sources departures) then sources departures.dropLast
  else sources departures

structure AckState (b : CoreBroker) (departures : List ActionMessage) : Prop where
  state : Departed b (sources departures) (ackedAmong b departures) (b.after departures)
  acks : ∀ brk ∈ b.brokers.data, acksTo brk.globalId (b.sentDuring departures) =
    if brk.globalId ∈ ackedAmong b departures then [(brk.route, b.disconnectAck brk)] else []
  stopped : stops (b.sentDuring departures) ↔
    b.isRootc = true ∧ AllGone b (sources departures) ∧ departures ≠ []

theorem ackState_nil (b : CoreBroker) : AckState b [] := by
  have hnone : ackedAmong b [] = [] := by
    unfold ackedAmong
    split <;> rfl
  refine ⟨?_, ?_, ?_⟩
  · rw [hnone]
    exact departed_start
  · intro brk _
    rw [hnone, if_neg List.not_mem_nil]
    rfl
  · exact iff_of_false List.not_mem_nil (fun h => h.2.2 rfl)

variable {b : CoreBroker}

theorem ackedAmong_of_later (hd : IsDeparture b cmd)
    (hnew : cmd.sourceId ∉ sources departures) : ackedAmong b departures = sources departures := by
  obtain ⟨brk, hbrk, hlocal, hid⟩ := hd.source
  apply if_neg
  rintro ⟨_, hall⟩
  apply hnew
  rw [← hid]
  exact hall brk hbrk hlocal

theorem ackState_departures (hb : AllConnected b)
    (hd : ∀ cmd ∈ departures, IsDeparture b cmd) (hnd : (sources departures).Nodup) :
    AckState b departures := by
  induction departures using List.reverseRecOn with
  | nil => exact ackState_nil b
  | append_singleton pre cmd ih =>
    rw [sources_concat, List.nodup_append] at hnd
    obtain ⟨hpre, _, hne⟩ := hnd
    have hprev := ih (fun m hm => hd m (List.mem_append_left _ hm)) hpre
    have hcmd := hd cmd (List.mem_append_right _ List.mem_cons_self)
    have hnew : cmd.sourceId ∉ sources pre := fun hm => hne _ hm _ List.mem_cons_self rfl
    have hacked := ackedAmong_of_later hcmd hnew
    have hstate := hprev.state
    have hacks := hprev.acks
    rw [hacked] at hstate hacks
    have hrun : ¬ stops (b.sentDuring pre) := by
      intro hs
      obtain ⟨brk, hbrk, hlocal, hid⟩ := hcmd.source
      exact hnew (hid ▸ (hprev.stopped.mp hs).2.1 brk hbrk hlocal)
    obtain ⟨child, hchild, hlocal, hid⟩ := hcmd.source
    have hdrop : (pre ++ [cmd]).dropLast = pre := List.dropLast_concat
    rcases departed_step hb hstate hchild hlocal hcmd hid.symm with
      ⟨hroot, hall, hdep, hquiet⟩ | ⟨hcond, hdep, hstop, hsent⟩
    · rw [hid] at hall hdep
      have hnow : ackedAmong b (pre ++ [cmd]) = sources pre := by
        rw [ackedAmong, sources_concat, if_pos ⟨hroot, hall⟩, hdrop]
      refine ⟨?_, ?_, ?_⟩
      · rw [hnow, sources_concat, after_concat]
        exact hdep
      · intro brk hbrk
        rw [hnow, sentDuring_concat, acksTo_append, hquiet.acksTo, List.append_nil]
        exact hacks brk hbrk
      · rw [sentDuring_concat]
        refine iff_of_false ?_ (fun h => by rw [hroot] at h; cases h.1)
        intro hs
        rcases stops_append.mp hs with hs | hs
        · exact hrun hs
        · exact hquiet.not_stops hs
    · rw [hid] at hcond hdep hstop
      have hnow : ackedAmong b (pre ++ [cmd]) = sources pre ++ [cmd.sourceId] := by
        rw [ackedAmong, sources_concat, if_neg hcond]
      refine ⟨?_, ?_, ?_⟩
      · rw [hnow, sources_concat, after_concat]
        exact hdep
      · intro brk hbrk
        rw [hnow, sentDuring_concat, acksTo_append, hacks brk hbrk, hsent]
        by_cases heq : child.globalId = brk.globalId
        · have hsame := hb.unique hchild hbrk heq
          subst hsame
          rw [if_pos rfl, hid, if_neg hnew, if_pos (by simp)]
          rfl
        have hother : brk.globalId ≠ cmd.sourceId := by
          rw [← hid]
          exact fun h => heq h.symm
        rw [if_neg heq, List.append_nil]
        simp [hother]
      · rw [sentDuring_concat, stops_append, or_iff_right hrun, hstop, sources_concat]
        constructor
        · intro hall
          refine ⟨?_, hall, by simp⟩
          by_contra hroot
          exact hcond ⟨Bool.eq_false_iff.mpr hroot, hall⟩
        · exact fun h => h.2.1

theorem AllConnected.nodup (h : AllConnected b) :
    (b.brokers.data.map BasicBrokerInfo.globalId).Nodup := by
  rw [List.nodup_iff_getElem?_ne_getElem?]
  intro i j hij hj heq
  rw [List.getElem?_map, List.getElem?_map] at heq
  rw [List.length_map] at hj
  have hi := List.getElem?_eq_getElem (lt_trans hij hj)
  have hj' := List.getElem?_eq_getElem hj
  have hfound := h.found i _ hi
  rw [hi, hj', Option.map_some, Option.map_some] at heq
  rw [Option.some.inj heq, h.found j _ hj'] at hfound
  exact (ne_of_gt hij) (Option.some.inj hfound)

/-- The acknowledgement of its own departure makes a broker acknowledge every entry that has no
acknowledgement yet, and stop. -/
theorem parentAck_spec (hb : AllConnected b) (h : Departed b gone acked s)
    (hack : IsParentAck b cmd) :
    stops (s.step cmd).2 ∧ ∀ brk ∈ b.brokers.data, acksTo brk.globalId (s.step cmd).2 =
      if brk.globalId ∈ acked then [] else [(brk.route, b.disconnectAck brk)] := by
  have hstep : (s.step cmd).2 =
      (s.brokers.data.filter (fun brk => !brk.sentDisconnectAck)).flatMap (fun brk =>
        [.transmit brk.route (s.disconnectAck brk), .removeRoute brk.route]) ++
      [.addActionMessage { messageAction := .cmdStop }] := by
    rw [step, hack.action]
    simp only [isPriorityCommand, Bool.false_eq_true, if_false, processCommand, hack.action,
      processBrokerDisconnectAck]
    rw [if_pos ⟨hack.dest.trans h.own.symm, hack.source.trans h.higher.symm⟩]
  have hacks : (s.step cmd).2.filterMap Effect.sentAck =
      (b.brokers.data.filter (fun brk => decide (brk.globalId ∉ acked))).map
        (fun brk => (brk.route, b.disconnectAck brk)) := by
    have hwaiting : b.brokers.data.filter
        ((fun brk => !brk.sentDisconnectAck) ∘ markEntry gone acked) =
        b.brokers.data.filter (fun brk => decide (brk.globalId ∉ acked)) := by
      apply List.filter_congr
      intro brk hbrk
      simp [markEntry, hb.unacked brk hbrk]
    rw [hstep, h.data, List.filter_map, hwaiting, List.filterMap_append, List.flatMap_map]
    induction b.brokers.data.filter (fun brk => decide (brk.globalId ∉ acked)) with
    | nil => rfl
    | cons brk l ih =>
      rw [List.flatMap_cons, List.filterMap_append, List.append_assoc, ih,
        disconnectAck_departed h, List.filterMap_cons, sentAck_disconnectAck]
      rfl
  refine ⟨?_, ?_⟩
  · rw [hstep, stops]
    exact List.mem_append_right _ List.mem_cons_self
  · intro brk hbrk
    have hfilter : (b.brokers.data.filter (fun brk => decide (brk.globalId ∉ acked))).filter
        (fun x => decide (x.globalId = brk.globalId)) =
        if brk.globalId ∈ acked then [] else [brk] := by
      rw [List.filter_filter, ← List.filter_filter, List.filter_comm, filter_key_eq hb.nodup hbrk]
      by_cases hmem : brk.globalId ∈ acked
      · simp [hmem]
      · simp [hmem]
    rw [acksTo, hacks, List.filter_map]
    rw [show ((fun ack : RouteId × ActionMessage => decide (ack.2.destId = brk.globalId)) ∘
      fun brk => (brk.route, b.disconnectAck brk)) =
      (fun x => decide (x.globalId = brk.globalId)) from rfl, hfilter]
    split <;> rfl

theorem mem_ackedAmong (h : dest ∈ ackedAmong b departures) : dest ∈ sources departures := by
  unfold ackedAmong at h
  split at h
  · exact List.map_subset _ (List.dropLast_subset _) h
  · exact h

section
variable (hb : AllConnected b)
include hb

theorem not_departed_of_nonLocal
    (hd : ∀ cmd ∈ departures, IsDeparture b cmd) (hbrk : brk ∈ b.brokers.data)
    (hlocal : brk.nonLocal = true) : brk.globalId ∉ sources departures := by
  intro hmem
  obtain ⟨cmd, hcmd, hid⟩ := List.mem_map.mp hmem
  obtain ⟨child, hchild, hdirect, hsource⟩ := (hd cmd hcmd).source
  have hsame := hb.unique hchild hbrk (hsource.trans hid)
  rw [hsame, hlocal] at hdirect
  cases hdirect

theorem acksRight_departures
    (hd : ∀ cmd ∈ departures, IsDeparture b cmd) (hnd : (sources departures).Nodup) :
    AcksRight b departures := by
  have hstate := ackState_departures hb hd hnd
  refine ⟨?_, ?_, ?_⟩
  · intro hs brk hbrk _ hmem
    have hroot := (hstate.stopped.mp hs).1
    have hacked : ackedAmong b departures = sources departures := if_neg (by simp [hroot])
    rw [hstate.acks brk hbrk, hacked, if_pos hmem]
  · intro brk hbrk _ hmem
    rw [hstate.acks brk hbrk, if_neg (fun h => hmem (mem_ackedAmong h))]
  · intro brk hbrk hlocal
    rw [hstate.acks brk hbrk,
      if_neg (fun h => not_departed_of_nonLocal hb hd hbrk hlocal (mem_ackedAmong h))]

theorem acksTo_complete
    (hd : ∀ cmd ∈ departures, IsDeparture b cmd) (hnd : (sources departures).Nodup)
    (hack : IsParentAck b cmd) (hbrk : brk ∈ b.brokers.data) :
    acksTo brk.globalId (b.sentDuring (departures ++ [cmd])) =
      [(brk.route, b.disconnectAck brk)] := by
  have hstate := ackState_departures hb hd hnd
  rw [sentDuring_concat, acksTo_append, hstate.acks brk hbrk,
    (parentAck_spec hb hstate.state hack).2 brk hbrk]
  split <;> rfl

theorem acksRight_parentAck (h : DisconnectRun b departures cmds) (hack : IsParentAck b cmd) :
    AcksRight b (departures ++ [cmd]) ↔ ∀ brk ∈ b.brokers.data, brk.nonLocal = false := by
  constructor
  · intro hright brk hbrk
    by_contra hlocal
    have hnone := hright.indirect brk hbrk (Bool.not_eq_false _ ▸ hlocal)
    rw [acksTo_complete hb h.departs h.once hack hbrk] at hnone
    cases hnone
  · intro hdirect
    refine ⟨?_, ?_, ?_⟩
    · intro _ brk hbrk _ _
      exact acksTo_complete hb h.departs h.once hack hbrk
    · intro brk hbrk hlocal hmem
      rw [sources_concat] at hmem
      exact absurd (List.mem_append_left _ (h.complete brk hbrk hlocal)) hmem
    · intro brk hbrk hlocal
      rw [hdirect brk hbrk] at hlocal
      cases hlocal

end

/-- The acknowledgements of a broker are right at every point of a complete run of departures
exactly if it is the root or has no indirect entry. -/
theorem disconnect_acks_iff (b : CoreBroker) (hb : AllConnected b)
    (departures cmds : List ActionMessage) (h : DisconnectRun b departures cmds) :
    (cmds ≠ [] → stops (b.sentDuring cmds)) ∧ ((∀ pre, pre <+: cmds → AcksRight b pre) ↔
        (b.isRootc = true ∨ ∀ brk ∈ b.brokers.data, brk.nonLocal = false)) := by
  have hpre : ∀ pre, pre <+: departures → AcksRight b pre := by
    intro pre hp
    apply acksRight_departures hb
    · exact fun cmd hcmd => h.departs cmd (hp.subset hcmd)
    · exact h.once.sublist (hp.sublist.map _)
  have hstate := ackState_departures hb h.departs h.once
  rcases h.ending with ⟨hroot, rfl⟩ | ⟨hroot, ack, hack, rfl⟩
  · exact ⟨fun hne => hstate.stopped.mpr ⟨hroot, h.complete, hne⟩,
      iff_of_true hpre (.inl hroot)⟩
  refine ⟨?_, ?_⟩
  · intro _
    rw [sentDuring_concat, stops_append]
    exact .inr (parentAck_spec hb hstate.state hack).1
  · rw [or_iff_right (by simp [hroot])]
    constructor
    · intro hall
      exact (acksRight_parentAck hb h hack).mp (hall _ (List.prefix_refl _))
    · intro hdirect pre hp
      rcases List.prefix_concat_iff.mp hp with rfl | hp
      · exact (acksRight_parentAck hb h hack).mpr hdirect
      · exact hpre pre hp

end

attribute [local instance] DualMapped.listVectors

/-- A broker, its core, and a core of the broker `own` itself. -/
def brokersBelow (own : GlobalId) : DualMapped.Vector String GlobalId BasicBrokerInfo :=
  ((DualMapped.Vector.empty.add "sub" (some 1879048192)
    { name := "sub", globalId := 1879048192, route := 1, parent := own }).add "core"
      (some 1879048193) { name := "core", globalId := 1879048193, route := 1,
                          parent := 1879048192, core := true, nonLocal := true }).add "near"
      (some 1879048194) { name := "near", globalId := 1879048194, route := 2, parent := own,
                          core := true }

def rootAboveCore : CoreBroker where
  globalBrokerIdLocal := 1
  isRootc := true
  brokers := brokersBelow 1

def innerAboveCore : CoreBroker where
  globalBrokerIdLocal := 1879048195
  higherBrokerId := 1
  brokers := brokersBelow 1879048195

def bothDepart : List ActionMessage :=
  [{ messageAction := .cmdDisconnect, sourceId := 1879048194 },
    { messageAction := .cmdDisconnect, sourceId := 1879048192 }]

def parentAck : ActionMessage :=
  { messageAction := .cmdDisconnectBrokerAck, sourceId := 1, destId := 1879048195 }

theorem forall_brokersBelow {p : Nat → BasicBrokerInfo → Prop}
    (h0 : ∀ brk, (brokersBelow own).data[0]? = some brk → p 0 brk)
    (h1 : ∀ brk, (brokersBelow own).data[1]? = some brk → p 1 brk)
    (h2 : ∀ brk, (brokersBelow own).data[2]? = some brk → p 2 brk) (i : Nat)
    (brk : BasicBrokerInfo) (h : (brokersBelow own).data[i]? = some brk) : p i brk := by
  match i with
  | 0 => exact h0 brk h
  | 1 => exact h1 brk h
  | 2 => exact h2 brk h
  | i + 3 => cases h

theorem allConnected_rootAboveCore : AllConnected rootAboveCore where
  found := forall_brokersBelow (by rintro _ ⟨⟩; decide) (by rintro _ ⟨⟩; decide)
    (by rintro _ ⟨⟩; decide)
  unacked := by decide
  connected := by decide
  registered := by decide
  parent := by decide

theorem allConnected_innerAboveCore : AllConnected innerAboveCore where
  found := forall_brokersBelow (by rintro _ ⟨⟩; decide) (by rintro _ ⟨⟩; decide)
    (by rintro _ ⟨⟩; decide)
  unacked := by decide
  connected := by decide
  registered := by decide
  parent := by decide

theorem isDeparture_bothDepart (h : b.brokers = brokersBelow own) :
    ∀ cmd ∈ bothDepart, IsDeparture b cmd := by
  refine List.forall_mem_cons.mpr ⟨⟨rfl, rfl, ?_⟩, List.forall_mem_singleton.mpr ⟨rfl, rfl, ?_⟩⟩
  all_goals rw [h]
  · exact ⟨_, .tail _ (.tail _ (.head _)), rfl, rfl⟩
  · exact ⟨_, .head _, rfl, rfl⟩

theorem disconnectRun_rootAboveCore : DisconnectRun rootAboveCore bothDepart bothDepart where
  departs := isDeparture_bothDepart rfl
  once := by decide
  complete := by decide
  ending := .inl ⟨rfl, rfl⟩

theorem disconnectRun_innerAboveCore :
    DisconnectRun innerAboveCore bothDepart (bothDepart ++ [parentAck]) where
  departs := isDeparture_bothDepart rfl
  once := by decide
  complete := by decide
  ending := .inr ⟨rfl, parentAck, ⟨rfl, rfl, rfl⟩, rfl⟩

theorem disconnect_acks_of_root :
    AllConnected rootAboveCore ∧ DisconnectRun rootAboveCore bothDepart bothDepart ∧
      stops (rootAboveCore.sentDuring bothDepart) ∧ AcksRight rootAboveCore bothDepart := by
  have h := disconnect_acks_iff rootAboveCore allConnected_rootAboveCore bothDepart bothDepart
    disconnectRun_rootAboveCore
  exact ⟨allConnected_rootAboveCore, disconnectRun_rootAboveCore, h.1 (by decide),
    h.2.mpr (.inl rfl) _ (List.prefix_refl _)⟩

/-- A broker acknowledges a core that has never departed from it. -/
theorem indirect_entry_acknowledged : AllConnected innerAboveCore ∧
      DisconnectRun innerAboveCore bothDepart (bothDepart ++ [parentAck]) ∧
      acksTo 1879048193 (innerAboveCore.sentDuring (bothDepart ++ [parentAck])) =
        [(1, { messageAction := .cmdDisconnectCoreAck, sourceId := 1879048195,
               destId := 1879048193 })] ∧
      ¬ AcksRight innerAboveCore (bothDepart ++ [parentAck]) := by
  have hacks : acksTo 1879048193 (innerAboveCore.sentDuring (bothDepart ++ [parentAck])) =
      [(1, { messageAction := .cmdDisconnectCoreAck, sourceId := 1879048195,
             destId := 1879048193 })] := by decide +kernel
  refine ⟨allConnected_innerAboveCore, disconnectRun_innerAboveCore, hacks, ?_⟩
  intro h
  have hnone := h.indirect _ (List.mem_cons_of_mem _ List.mem_cons_self) rfl
  exact absurd (hacks.symm.trans hnone) (List.cons_ne_nil _ _)

end CoreBroker

end Helics
