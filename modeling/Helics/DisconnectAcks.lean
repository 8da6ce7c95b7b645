import Helics.ExecGrants

namespace Helics

def Effect.sentAck : Effect → Option (RouteId × ActionMessage)
  | .transmit route cmd =>
    if cmd.messageAction = .cmdDisconnectCoreAck ∨ cmd.messageAction = .cmdDisconnectBrokerAck then
      some (route, cmd)
    else none
  | _ => none

def acksTo (dest : GlobalId) (es : List Effect) : List (RouteId × ActionMessage) :=
  (es.filterMap Effect.sentAck).filter (fun ack => decide (ack.2.destId = dest))

def stops (es : List Effect) : Prop := Effect.addActionMessage { messageAction := .cmdStop } ∈ es

theorem acksTo_append (dest : GlobalId) (es fs : List Effect) :
    acksTo dest (es ++ fs) = acksTo dest es ++ acksTo dest fs := by
  simp [acksTo]

variable {es : List Effect}

theorem acksTo_eq_nil (h : ∀ e ∈ es, e.sentAck = none) (dest : GlobalId) : acksTo dest es = [] := by
  have hes : es.filterMap Effect.sentAck = [] := List.filterMap_eq_nil_iff.mpr h
  rw [acksTo, hes, List.filter_nil]

theorem stops_append : stops (es ++ fs) ↔ stops es ∨ stops fs :=
  List.mem_append

namespace CoreBroker

theorem modify_eq_map {l : List α} (p : α → Prop) [DecidablePred p]
    (h : ∀ j x, l[j]? = some x → (p x ↔ j = i)) :
    l.modify i f = l.map (fun x => if p x then f x else x) := by
  apply List.ext_getElem?
  intro j
  rw [List.getElem?_modify, List.getElem?_map]
  cases hx : l[j]? with
  | none => rfl
  | some x =>
    have hp := h j x hx
    by_cases hj : i = j
    · simp [hp, hj]
    · have hj' : j ≠ i := fun heq => hj heq.symm
      simp [hp, hj, hj']

def Quiet (es : List Effect) : Prop :=
  ∀ e ∈ es, e.sentAck = none ∧ e ≠ .addActionMessage { messageAction := .cmdStop }

theorem Quiet.acksTo (h : Quiet es) (dest : GlobalId) : acksTo dest es = [] :=
  acksTo_eq_nil (fun e he => (h e he).1) dest

theorem Quiet.not_stops (h : Quiet es) : ¬ stops es :=
  fun hs => (h _ hs).2 rfl

end CoreBroker

variable [DualMapped String GlobalId]

namespace CoreBroker

structure AllConnected (b : CoreBroker) : Prop where
  found : ∀ i brk, b.brokers.data[i]? = some brk → b.brokerIndex brk.globalId = some i
  unacked : ∀ brk ∈ b.brokers.data, brk.sentDisconnectAck = false
  connected : ∀ brk ∈ b.brokers.data, brk.nonLocal = false → brk.isDisconnected = false
  registered : b.globalBrokerIdLocal ≠ parentBrokerId
  parent : b.isRootc = false → ∀ brk ∈ b.brokers.data, brk.globalId ≠ b.higherBrokerId

theorem AllConnected.unique (h : AllConnected b) (hbrk : brk ∈ b.brokers.data)
    (hbrk' : brk' ∈ b.brokers.data) (heq : brk.globalId = brk'.globalId) : brk = brk' := by
  obtain ⟨i, hi⟩ := List.mem_iff_getElem?.mp hbrk
  obtain ⟨j, hj⟩ := List.mem_iff_getElem?.mp hbrk'
  have hindex := h.found i brk hi
  rw [heq, h.found j brk' hj] at hindex
  obtain rfl := Option.some.inj hindex
  exact Option.some.inj (hi.symm.trans hj)

structure IsDeparture (b : CoreBroker) (cmd : ActionMessage) : Prop where
  action : cmd.messageAction = .cmdDisconnect
  dest : cmd.destId = parentBrokerId
  source : ∃ brk ∈ b.brokers.data, brk.nonLocal = false ∧ brk.globalId = cmd.sourceId

structure IsParentAck (b : CoreBroker) (cmd : ActionMessage) : Prop where
  action : cmd.messageAction = .cmdDisconnectBrokerAck
  dest : cmd.destId = b.globalBrokerIdLocal
  source : cmd.sourceId = b.higherBrokerId

def sources (cmds : List ActionMessage) : List GlobalId := cmds.map ActionMessage.sourceId

/-- Every direct child departs once, in any order, and a broker below the root is then
acknowledged by its parent. -/
structure DisconnectRun (b : CoreBroker) (departures cmds : List ActionMessage) : Prop where
  departs : ∀ cmd ∈ departures, IsDeparture b cmd
  once : (sources departures).Nodup
  complete : ∀ brk ∈ b.brokers.data, brk.nonLocal = false → brk.globalId ∈ sources departures
  ending : (b.isRootc = true ∧ cmds = departures) ∨
    (b.isRootc = false ∧ ∃ ack, IsParentAck b ack ∧ cmds = departures ++ [ack])

structure AcksRight (b : CoreBroker) (cmds : List ActionMessage) : Prop where
  departed : stops (b.sentDuring cmds) → ∀ brk ∈ b.brokers.data, brk.nonLocal = false →
    brk.globalId ∈ sources cmds →
    acksTo brk.globalId (b.sentDuring cmds) = [(brk.route, b.disconnectAck brk)]
  connected : ∀ brk ∈ b.brokers.data, brk.nonLocal = false → brk.globalId ∉ sources cmds →
    acksTo brk.globalId (b.sentDuring cmds) = []
  indirect : ∀ brk ∈ b.brokers.data, brk.nonLocal = true →
    acksTo brk.globalId (b.sentDuring cmds) = []

/-- The entry after the departure of some identifiers and the acknowledgement of others. -/
def markEntry (gone acked : List GlobalId) (brk : BasicBrokerInfo) : BasicBrokerInfo :=
  { brk with
    isDisconnected := brk.isDisconnected || decide (brk.globalId ∈ gone)
    sentDisconnectAck := brk.sentDisconnectAck || decide (brk.globalId ∈ acked) }

structure Departed (b : CoreBroker) (gone acked : List GlobalId) (s : CoreBroker) : Prop where
  data : s.brokers.data = b.brokers.data.map (markEntry gone acked)
  ids : s.brokers.indexOfId = b.brokers.indexOfId
  isRootc : s.isRootc = b.isRootc
  own : s.globalBrokerIdLocal = b.globalBrokerIdLocal
  higher : s.higherBrokerId = b.higherBrokerId

def AllGone (b : CoreBroker) (gone : List GlobalId) : Prop :=
  ∀ brk ∈ b.brokers.data, brk.nonLocal = false → brk.globalId ∈ gone

theorem departed_start : Departed b [] [] b where
  data := by
    have hid : markEntry [] [] = id := by
      funext brk
      simp [markEntry]
    rw [hid, List.map_id]
  ids := rfl
  isRootc := rfl
  own := rfl
  higher := rfl

variable {b s : CoreBroker}

theorem brokerIndex_departed (h : Departed b gone acked s) (brkId : GlobalId) :
    s.brokerIndex brkId = b.brokerIndex brkId := by
  have hsize : s.brokers.size = b.brokers.size := by
    simp [DualMapped.Vector.size, h.data]
  simp [brokerIndex, h.isRootc, hsize, h.ids]

section
variable (hb : AllConnected b)
include hb

section
variable (h : Departed b gone acked s)
include h

section
variable (hbrk : brk ∈ b.brokers.data)
include hbrk

theorem data_modifyBrokerById (f : BasicBrokerInfo → BasicBrokerInfo) :
    (s.modifyBrokerById brk.globalId f).brokers.data =
      b.brokers.data.map (fun x => if x.globalId = brk.globalId then f (markEntry gone acked x)
        else markEntry gone acked x) := by
  obtain ⟨i, hi⟩ := List.mem_iff_getElem?.mp hbrk
  have hindex := hb.found i brk hi
  have hmod : (s.modifyBrokerById brk.globalId f).brokers.data = s.brokers.data.modify i f := by
    rw [modifyBrokerById, brokerIndex_departed h, hindex]
    exact DualMapped.data_modify s.brokers i f
  rw [hmod, h.data, modify_eq_map (fun x => x.globalId = brk.globalId), List.map_map]
  · apply List.map_congr_left
    intro x _
    rfl
  · intro j x hx
    rw [List.getElem?_map] at hx
    obtain ⟨y, hy, rfl⟩ := Option.map_eq_some_iff.mp hx
    constructor
    · intro heq
      have hj := hb.found j y hy
      rw [show y.globalId = brk.globalId from heq, hindex] at hj
      exact (Option.some.inj hj).symm
    · rintro rfl
      rw [hi] at hy
      rw [← Option.some.inj hy]
      rfl

theorem departed_modify (f : BasicBrokerInfo → BasicBrokerInfo)
    (hf : ∀ x, markEntry gone' acked' x =
      if x.globalId = brk.globalId then f (markEntry gone acked x) else markEntry gone acked x) :
    Departed b gone' acked' (s.modifyBrokerById brk.globalId f) where
  data := by
    rw [data_modifyBrokerById hb h hbrk, funext hf]
  ids := by
    unfold modifyBrokerById
    cases s.brokerIndex brk.globalId with
    | none => exact h.ids
    | some i => exact (DualMapped.indexOfId_modify s.brokers i f).trans h.ids
  isRootc := h.isRootc
  own := h.own
  higher := h.higher

theorem departed_disconnected : Departed b (gone ++ [brk.globalId]) acked
      (s.modifyBrokerById brk.globalId (fun brk => { brk with isDisconnected := true })) := by
  refine departed_modify hb h hbrk _ fun x => ?_
  by_cases hx : x.globalId = brk.globalId <;> simp [markEntry, hx]

theorem departed_markAckSent :
    Departed b gone (acked ++ [brk.globalId]) (s.markAckSent brk.globalId) := by
  refine departed_modify hb h hbrk _ fun x => ?_
  by_cases hx : x.globalId = brk.globalId <;> simp [markEntry, hx]

theorem getBrokerById_departed :
    s.getBrokerById brk.globalId = some (markEntry gone acked brk) := by
  obtain ⟨i, hi⟩ := List.mem_iff_getElem?.mp hbrk
  rw [getBrokerById, brokerIndex_departed h, hb.found i brk hi, h.data]
  simp [hi]

end

theorem allDisconnected_departed : s.allDisconnected = true ↔ AllGone b gone := by
  rw [allDisconnected, h.data, List.all_map, List.all_eq_true]
  constructor
  · intro hall brk hbrk hlocal
    have hone := hall brk hbrk
    simpa [markEntry, hlocal, hb.connected brk hbrk hlocal] using hone
  · intro hgone brk hbrk
    cases hlocal : brk.nonLocal with
    | true => simp [markEntry, hlocal]
    | false => simp [markEntry, hgone brk hbrk hlocal]

end

end

theorem quiet_timeDisconnect (s : CoreBroker) : Quiet s.timeDisconnect.2 := by
  intro e he
  obtain ⟨m, hm, rfl⟩ := List.mem_map.mp he
  refine ⟨rfl, ?_⟩
  intro heq
  have haction := ForwardingTimeCoordinator.disconnect_action hm
  rw [Effect.addActionMessage.inj heq] at haction
  cases haction

theorem quiet_broadcast (s : CoreBroker) (source : GlobalId) :
    Quiet (s.broadcast { messageAction := .cmdBroadcastDisconnect, sourceId := source }) := by
  intro e he
  obtain ⟨brk, _, rfl⟩ := List.mem_map.mp he
  exact ⟨rfl, Effect.noConfusion⟩

theorem departed_disconnectBroker (hb : AllConnected b)
    (h : Departed b gone acked s) (hbrk : brk ∈ b.brokers.data) (entry : BasicBrokerInfo) :
    Departed b (gone ++ [brk.globalId]) acked (s.disconnectBroker brk.globalId entry).1 ∧
      Quiet (s.disconnectBroker brk.globalId entry).2 := by
  have hmark := departed_disconnected hb h hbrk
  unfold disconnectBroker
  dsimp only
  split
  · exact ⟨⟨hmark.data, hmark.ids, hmark.isRootc, hmark.own, hmark.higher⟩, quiet_broadcast _ _⟩
  · exact ⟨hmark, List.forall_mem_nil _⟩

theorem disconnectAck_departed (h : Departed b gone acked s)
    (brk : BasicBrokerInfo) (gone' acked' : List GlobalId) :
    s.disconnectAck (markEntry gone' acked' brk) = b.disconnectAck brk := by
  unfold disconnectAck
  rw [h.own]
  rfl

theorem sentAck_disconnectAck (b : CoreBroker) (brk : BasicBrokerInfo) (route : RouteId) :
    (Effect.transmit route (b.disconnectAck brk)).sentAck = some (route, b.disconnectAck brk) := by
  cases hcore : brk.core <;> simp [Effect.sentAck, disconnectAck, hcore]

theorem acksTo_disconnectAck (b : CoreBroker) (brk : BasicBrokerInfo)
    (hes : Quiet es) (hfs : ∀ e ∈ fs, e.sentAck = none) (dest : GlobalId) :
    acksTo dest (es ++ .transmit brk.route (b.disconnectAck brk) :: fs) =
      if brk.globalId = dest then [(brk.route, b.disconnectAck brk)] else [] := by
  have hfs' : fs.filterMap Effect.sentAck = [] := List.filterMap_eq_nil_iff.mpr hfs
  rw [acksTo_append, hes.acksTo, acksTo, List.filterMap_cons, sentAck_disconnectAck, hfs']
  by_cases hdest : brk.globalId = dest
  · simp [disconnectAck, hdest]
  · simp [disconnectAck, hdest]

theorem departed_partialDisconnect (hb : AllConnected b)
    (h : Departed b gone acked s) (hbrk : brk ∈ b.brokers.data) (hlocal : brk.nonLocal = false)
    (hsource : cmd.sourceId = brk.globalId) (gone' acked' : List GlobalId) :
    let r := s.partialDisconnect cmd (some (markEntry gone' acked' brk))
    Departed b gone (acked ++ [brk.globalId]) r.1 ∧ ¬ stops r.2 ∧
      ∀ dest, acksTo dest r.2 =
        if brk.globalId = dest then [(brk.route, b.disconnectAck brk)] else [] := by
  have hmark := departed_markAckSent hb h hbrk
  have hlocal' : (markEntry gone' acked' brk).nonLocal = false := hlocal
  simp only [partialDisconnect, hlocal', disconnectAck_departed h, hsource]
  refine ⟨hmark, ?_, ?_⟩
  · intro hs
    simp only [Bool.false_eq_true, if_false, stops, List.mem_append] at hs
    rcases hs with (hs | hs) | hs
    · cases List.mem_singleton.mp hs
    · split at hs
      · cases List.mem_singleton.mp hs
      · cases hs
    · cases List.mem_singleton.mp hs
  · intro dest
    refine acksTo_disconnectAck b brk (List.forall_mem_nil _) ?_ dest
    intro e he
    rcases List.mem_append.mp he with he | he
    · split at he
      · obtain rfl := List.mem_singleton.mp he
        cases hcore : (markEntry gone' acked' brk).core <;>
          simp [Effect.sentAck, ActionMessage.setAction]
      · cases he
    · obtain rfl := List.mem_singleton.mp he
      rfl

theorem departed_lastDisconnect_root (hb : AllConnected b)
    (h : Departed b gone acked s) (hroot : b.isRootc = true) (hbrk : brk ∈ b.brokers.data)
    (hlocal : brk.nonLocal = false) (gone' acked' : List GlobalId) :
    let r := s.lastDisconnect brk.globalId (some (markEntry gone' acked' brk))
    Departed b gone (acked ++ [brk.globalId]) r.1 ∧ stops r.2 ∧
      ∀ dest, acksTo dest r.2 =
        if brk.globalId = dest then [(brk.route, b.disconnectAck brk)] else [] := by
  have hleft : Departed b gone acked s.timeDisconnect.1 :=
    ⟨h.data, h.ids, h.isRootc, h.own, h.higher⟩
  have hlocal' : (markEntry gone' acked' brk).nonLocal = false := hlocal
  simp only [lastDisconnect, h.isRootc, hroot, if_true, Option.filter_some, hlocal', Bool.not_false,
    disconnectAck_departed h]
  refine ⟨departed_markAckSent hb hleft hbrk, by simp [stops], ?_⟩
  intro dest
  refine acksTo_disconnectAck b brk (quiet_timeDisconnect s) ?_ dest
  intro e he
  rcases List.mem_cons.mp he with rfl | he
  · rfl
  · obtain rfl := List.mem_singleton.mp he
    rfl

theorem departed_lastDisconnect_inner (h : Departed b gone acked s)
    (hroot : b.isRootc = false) (brkId : GlobalId) (brk : Option BasicBrokerInfo) :
    Departed b gone acked (s.lastDisconnect brkId brk).1 ∧
      Quiet (s.lastDisconnect brkId brk).2 := by
  simp only [lastDisconnect, h.isRootc, hroot, Bool.false_eq_true, if_false]
  refine ⟨⟨h.data, h.ids, h.isRootc, h.own, h.higher⟩, ?_⟩
  intro e he
  rcases List.mem_append.mp he with he | he
  · exact quiet_timeDisconnect s e he
  · obtain rfl := List.mem_singleton.mp he
    exact ⟨rfl, Effect.noConfusion⟩

theorem step_departure (hb : AllConnected b) (h : Departed b gone acked s)
    (hbrk : brk ∈ b.brokers.data) (hd : IsDeparture b cmd) (hsource : cmd.sourceId = brk.globalId) :
    s.step cmd = let found := s.disconnectBroker brk.globalId (markEntry gone acked brk)
      let rest :=
        if found.1.allDisconnected then
          found.1.lastDisconnect brk.globalId (some (markEntry gone acked brk))
        else found.1.partialDisconnect cmd (some (markEntry gone acked brk))
      (rest.1, found.2 ++ rest.2) := by
  have hstep : s.step cmd = s.departure cmd := by
    have hown : cmd.destId ≠ s.globalBrokerIdLocal := by
      rw [hd.dest, h.own]
      exact hb.registered.symm
    rw [step, hd.action]
    simp only [isPriorityCommand, Bool.false_eq_true, if_false, processCommand, hd.action,
      processDisconnect]
    rw [if_neg hown, if_pos hd.dest]
  have hparent : ¬ (s.isRootc = false ∧ cmd.sourceId = s.higherBrokerId) := by
    rw [h.isRootc, h.higher, hsource]
    rintro ⟨hroot, heq⟩
    exact hb.parent hroot brk hbrk heq
  rw [hstep, departure, if_neg hparent, hsource, getBrokerById_departed hb h hbrk]
  rfl

/-- One departure: it is acknowledged at once unless it is the last one below the root, and the
last one at the root stops the broker. -/
theorem departed_step (hb : AllConnected b) (h : Departed b gone acked s)
    (hbrk : brk ∈ b.brokers.data) (hlocal : brk.nonLocal = false) (hd : IsDeparture b cmd)
    (hsource : cmd.sourceId = brk.globalId) :
    (b.isRootc = false ∧ AllGone b (gone ++ [brk.globalId]) ∧
      Departed b (gone ++ [brk.globalId]) acked (s.step cmd).1 ∧ Quiet (s.step cmd).2) ∨
    (¬ (b.isRootc = false ∧ AllGone b (gone ++ [brk.globalId])) ∧
      Departed b (gone ++ [brk.globalId]) (acked ++ [brk.globalId]) (s.step cmd).1 ∧
      (stops (s.step cmd).2 ↔ AllGone b (gone ++ [brk.globalId])) ∧
      ∀ dest, acksTo dest (s.step cmd).2 =
        if brk.globalId = dest then [(brk.route, b.disconnectAck brk)] else []) := by
  obtain ⟨hgone, hquiet⟩ := departed_disconnectBroker hb h hbrk (markEntry gone acked brk)
  have hall := allDisconnected_departed hb hgone
  rw [step_departure hb h hbrk hd hsource]
  dsimp only
  by_cases hlast : AllGone b (gone ++ [brk.globalId])
  · rw [if_pos (hall.mpr hlast)]
    cases hroot : b.isRootc with
    | true =>
      obtain ⟨hdep, hstop, hacks⟩ :=
        departed_lastDisconnect_root hb hgone hroot hbrk hlocal gone acked
      refine Or.inr ⟨by simp, hdep, ?_, ?_⟩
      · exact iff_of_true (stops_append.mpr (.inr hstop)) hlast
      · intro dest
        rw [acksTo_append, hquiet.acksTo, List.nil_append, hacks dest]
    | false =>
      obtain ⟨hdep, hquiet'⟩ := departed_lastDisconnect_inner hgone hroot brk.globalId
        (some (markEntry gone acked brk))
      refine Or.inl ⟨rfl, hlast, hdep, ?_⟩
      exact List.forall_mem_append.mpr ⟨hquiet, hquiet'⟩
  · rw [if_neg (fun hd => hlast (hall.mp hd))]
    obtain ⟨hdep, hstop, hacks⟩ :=
      departed_partialDisconnect hb hgone hbrk hlocal hsource gone acked
    refine Or.inr ⟨fun hboth => hlast hboth.2, hdep, ?_, ?_⟩
    · refine iff_of_false ?_ hlast
      intro hs
      rcases stops_append.mp hs with hs | hs
      · exact hquiet.not_stops hs
      · exact hstop hs
    · intro dest
      rw [acksTo_append, hquiet.acksTo, List.nil_append, hacks dest]

end CoreBroker

end Helics
