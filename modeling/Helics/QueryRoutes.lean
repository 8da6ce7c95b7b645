import Helics.BrokerQueries
import Helics.BrokerTree
import Helics.InterfaceNetwork

namespace Helics

open BrokerTables BrokerTree

/-- A broker tree in which every member has registered: each broker knows the brokers, cores and
federates below it and the routes to them. -/
structure QueryTree extends BrokerTree where
  child : GlobalId → RouteId → Option GlobalId
  home : String → Option GlobalId
  tables : GlobalId → BrokerTables
  cores : GlobalId → CoreAnswers
  ids : ∀ n ∈ nodes, n ≠ parentBrokerId ∧ n ≠ invalidGlobalId
  table_id : ∀ n ∈ nodes, isCore n = false → (tables n).globalBrokerIdLocal = n
  table_root : ∀ n ∈ nodes, isCore n = false → ((tables n).isRootc = true ↔ n = root)
  table_higher : ∀ n ∈ nodes, isCore n = false → (tables n).higherBrokerId =
    if n = root then parentBrokerId else parent n
  core_id : ∀ n ∈ nodes, isCore n = true → (cores n).globalBrokerIdLocal = n
  route_below : ∀ n ∈ nodes, isCore n = false → ∀ d ∈ nodes, toBrokerTree.Below n d →
    ∃ r c, (tables n).routingTable.lookup d = some r ∧ r ≠ parentRouteId ∧ child n r = some c ∧
      c ∈ nodes ∧ c ≠ root ∧ parent c = n ∧ (c = d ∨ toBrokerTree.Below c d)
  route_other : ∀ n ∈ nodes, isCore n = false → ∀ d ∈ nodes, ¬ toBrokerTree.Below n d →
    (tables n).routingTable.lookup d = none
  brokers_below : ∀ n ∈ nodes, isCore n = false → ∀ brk ∈ (tables n).brokers,
    brk.globalId ∈ nodes ∧ toBrokerTree.Below n brk.globalId ∧
      brk.name = (if isCore brk.globalId then (cores brk.globalId).identifier
        else (tables brk.globalId).identifier) ∧
      brk.route = (tables n).getRoute brk.globalId
  brokers_known : ∀ n ∈ nodes, isCore n = false → ∀ d ∈ nodes, toBrokerTree.Below n d →
    ∃ brk ∈ (tables n).brokers, brk.globalId = d
  federates_below : ∀ n ∈ nodes, isCore n = false → ∀ fed ∈ (tables n).federates,
    ∃ c ∈ nodes, home fed.name = some c ∧ isCore c = true ∧ toBrokerTree.Below n c ∧
      fed.route = (tables n).getRoute c
  federates_known : ∀ n ∈ nodes, isCore n = false → ∀ name c, home name = some c → c ∈ nodes →
    toBrokerTree.Below n c → ∃ fed ∈ (tables n).federates, fed.name = name
  names : ∀ n ∈ nodes, ∀ n' ∈ nodes,
    (if isCore n then (cores n).identifier else (tables n).identifier) =
      (if isCore n' then (cores n').identifier else (tables n').identifier) → n = n'
  plain : ∀ n ∈ nodes, isCore n = false →
    (tables n).identifier ≠ "root" ∧ (tables n).identifier ≠ "global" ∧
      (tables n).identifier ≠ "parent"

/-- The node that a broker asks; a broker can be asked by its identifier. -/
inductive QueryTarget where
  | root
  | global
  | parent
  | identifier (node : GlobalId)
deriving DecidableEq, Repr

/-- The state of all brokers, the queries asked so far and the messages under way. -/
structure QueryNet where
  states : GlobalId → QueryState := fun _ => {}
  asked : GlobalId → List (Int × QueryTarget × String) := fun _ => []
  flight : List (Link × QueryMessage) := []

inductive QueryEvent where
  | query (node : GlobalId) (target : QueryTarget) (request : String)
  | setGlobal (node : GlobalId) (name value : String)
  | deliver (link : Link)

namespace QueryTree

variable (t : QueryTree)

def text : QueryTarget → String
  | .root => "root"
  | .global => "global"
  | .parent => "parent"
  | .identifier node => (t.tables node).identifier

def isBroker (n : GlobalId) : Bool := decide (n ∈ t.nodes) && !t.isCore n

def valid : QueryTarget → Bool
  | .identifier node => t.isBroker node
  | _ => true

def endOf : Link → GlobalId
  | .own n | .down n | .federate n => n
  | .up n => t.parent n

def linkOf (n : GlobalId) (route : RouteId) : Option Link :=
  if route = parentRouteId then if n = t.root then none else some (.up n)
  else (t.child n route).map .down

def outlet (n : GlobalId) : BrokerTables.QueryOutlet → Link
  | .ownQueue => .own n
  | .parent => .up n

def emit (n : GlobalId) (sent : Sent) : List (Link × QueryMessage) :=
  sent.filterMap fun x => (t.linkOf n x.1).map fun link => (link, x.2)

def receive (net : QueryNet) (n : GlobalId) (m : QueryMessage) : QueryNet :=
  if t.isCore n then
    { net with flight := net.flight ++ t.emit n ((t.cores n).processPriorityCommand m) }
  else
    let r := (t.tables n).processPriorityCommand (net.states n) m
    { net with
      states := Function.update net.states n r.1
      flight := net.flight ++ t.emit n r.2 }

/-- One event: a call at a broker, or the next message of a link arrives. -/
def step (net : QueryNet) : QueryEvent → Option QueryNet
  | .query u target request =>
    if t.isBroker u && t.valid target then
      ((t.tables u).query (net.states u) (t.text target) request).map fun r => { net with
        states := Function.update net.states u r.1
        asked := Function.update net.asked u
          (net.asked u ++ [(r.2.2.messageID, target, request)])
        flight := net.flight ++ [(outlet u r.2.1, r.2.2)] }
    else none
  | .setGlobal u name value =>
    if t.isBroker u then
      let r := (t.tables u).setGlobal name value
      some { net with flight := net.flight ++ [(outlet u r.1, r.2)] }
    else none
  | .deliver link =>
    (LinkNetwork.takeFirst link net.flight).map fun taken =>
      t.receive { net with flight := taken.2 } (t.endOf link) taken.1

end QueryTree

namespace BrokerTables

variable {b : BrokerTables}

def passes (b : BrokerTables) (m : QueryMessage) : Option RouteId :=
  match m.action with
  | .brokerQuery =>
    if m.destId = b.globalBrokerIdLocal ∨ (b.isRootc ∧ m.destId = parentBrokerId) then none
    else some (b.getRoute m.destId)
  | .query =>
    if m.target = b.identifier ∨ m.target = "broker" ∨
        (b.isRootc ∧ (m.target = "root" ∨ m.target = "federation")) ∨ m.target = "global" ∨
        (b.routeByName m.target = parentRouteId ∧ b.isRootc) then none
    else some (b.routeByName m.target)
  | .queryReply =>
    if m.destId = b.globalBrokerIdLocal then none else some (b.getRoute m.destId)
  | .setGlobal => if b.isRootc then none else some parentRouteId

def isLocal (b : BrokerTables) (m : QueryMessage) : Prop :=
  m.action = .brokerQuery ∨ m.action = .query ∧ (m.target = b.identifier ∨ m.target = "broker" ∨
    (b.isRootc ∧ (m.target = "root" ∨ m.target = "federation")))

instance (b : BrokerTables) (m : QueryMessage) : Decidable (b.isLocal m) :=
  inferInstanceAs (Decidable (_ ∨ _ ∧ (_ ∨ _ ∨ (_ ∧ (_ ∨ _)))))

theorem process_of_passes (h : b.passes m = some r) (s : QueryState) :
    b.processPriorityCommand s m = (s, [(r, m)]) := by
  unfold passes at h
  unfold processPriorityCommand
  generalize m.action = a at h ⊢
  cases a with
  | brokerQuery =>
    dsimp only at h ⊢
    split at h
    · cases h
    rename_i hn
    obtain ⟨hd, hr⟩ := not_or.mp hn
    rw [if_neg hd, if_neg hr, ← Option.some.inj h]
    rfl
  | query =>
    dsimp only at h ⊢
    split at h
    · cases h
    rename_i hn
    simp only [not_or] at hn
    obtain ⟨hid, hbroker, hroot, hglobal, hnone⟩ := hn
    unfold processQuery
    rw [if_neg (not_or.mpr ⟨hid, hbroker⟩), if_neg (by simpa using hroot), if_neg hglobal,
      if_neg hnone, ← Option.some.inj h]
  | queryReply =>
    dsimp only at h ⊢
    split at h
    · cases h
    · rename_i hn
      rw [if_neg hn, ← Option.some.inj h]
  | setGlobal =>
    dsimp only at h ⊢
    split at h
    · cases h
    · rename_i hn
      rw [if_neg hn, ← Option.some.inj h]

theorem process_query (ha : m.action = .brokerQuery ∨ m.action = .query)
    (h : b.passes m = none) (s : QueryState) :
    (b.isLocal m ∧ b.processPriorityCommand s m = b.processLocalQuery s m) ∨
      (¬ b.isLocal m ∧ m.action = .query ∧ ∃ text,
        b.processPriorityCommand s m = b.answerDirectly s m text ∧
          (m.target = "global" → text = b.globalAnswer s.globalValues m.payload)) := by
  unfold passes at h
  unfold processPriorityCommand
  obtain ha | ha := ha
  · rw [ha] at h ⊢
    dsimp only at h ⊢
    split at h
    · rename_i hc
      refine .inl ⟨.inl ha, ?_⟩
      obtain hc | hc := hc
      · rw [if_pos hc]
      · split <;> rfl
    · cases h
  · rw [ha] at h ⊢
    dsimp only at h ⊢
    split at h
    · rename_i hc
      unfold processQuery
      by_cases hid : m.target = b.identifier ∨ m.target = "broker"
      · exact .inl ⟨.inr ⟨ha, or_assoc.mp (.inl hid)⟩, if_pos hid⟩
      rw [if_neg hid]
      by_cases hroot : b.isRootc ∧ (m.target = "root" ∨ m.target = "federation")
      · exact .inl ⟨.inr ⟨ha, .inr (.inr hroot)⟩, if_pos hroot⟩
      rw [if_neg hroot]
      obtain ⟨hn, hn'⟩ := not_or.mp hid
      refine .inr ⟨?_, rfl, ?_⟩
      · rintro (hq | ⟨-, hq | hq | hq⟩)
        · rw [ha] at hq
          cases hq
        · exact hn hq
        · exact hn' hq
        · exact hroot hq
      · by_cases hglobal : m.target = "global"
        · exact ⟨_, if_pos hglobal, fun _ => rfl⟩
        · rw [if_neg hglobal]
          have hlast := ((hc.resolve_left hn).resolve_left hn').resolve_left hroot
          exact ⟨_, if_pos (hlast.resolve_left hglobal), fun h => absurd h hglobal⟩
    · cases h

theorem passes_congr (ha : m'.action = m.action) (hd : m'.destId = m.destId)
    (ht : m'.target = m.target) : b.passes m' = b.passes m := by
  unfold passes
  rw [ha, hd, ht]

end BrokerTables

namespace QueryTree

variable {t : QueryTree}

theorem isBroker_iff : t.isBroker n = true ↔ n ∈ t.nodes ∧ t.isCore n = false := by
  unfold isBroker
  rw [Bool.and_eq_true, decide_eq_true_iff, Bool.not_eq_true']

theorem id_eq (hn : t.isBroker n) : (t.tables n).globalBrokerIdLocal = n :=
  t.table_id n (isBroker_iff.mp hn).1 (isBroker_iff.mp hn).2

theorem isRootc_iff (hn : t.isBroker n) : (t.tables n).isRootc = true ↔ n = t.root :=
  t.table_root n (isBroker_iff.mp hn).1 (isBroker_iff.mp hn).2

theorem root_isBroker (t : QueryTree) : t.isBroker t.root :=
  isBroker_iff.mpr ⟨t.root_mem, t.root_broker⟩

theorem parent_isBroker (hn : n ∈ t.nodes) (hr : n ≠ t.root) : t.isBroker (t.parent n) :=
  isBroker_iff.mpr ⟨t.parent_mem n hn hr, t.parent_broker n hn hr⟩

theorem linkOf_parent (hr : n ≠ t.root) : t.linkOf n parentRouteId = some (.up n) := by
  unfold linkOf
  rw [if_pos rfl, if_neg hr]

theorem getRoute_parent (b : BrokerTables) : b.getRoute parentBrokerId = parentRouteId :=
  if_pos (.inl rfl)

section
variable (hn : t.isBroker n)
include hn

section
variable (hd : d ∈ t.nodes)
include hd

theorem getRoute_of_ne (hp : n ≠ t.root → d ≠ t.parent n) :
    (t.tables n).getRoute d = ((t.tables n).routingTable.lookup d).getD parentRouteId := by
  obtain ⟨hmem, hb⟩ := isBroker_iff.mp hn
  refine if_neg ?_
  rintro (hz | hh)
  · exact (t.ids d hd).1 hz
  rw [t.table_higher n hmem hb] at hh
  split at hh
  · exact (t.ids d hd).1 hh
  · rename_i hr
    exact hp hr hh

theorem route_down (h : t.Below n d) :
    ∃ c, t.linkOf n ((t.tables n).getRoute d) = some (.down c) ∧ c ∈ t.nodes ∧ c ≠ t.root ∧
      t.parent c = n ∧ (c = d ∨ t.Below c d) ∧ (t.tables n).getRoute d ≠ parentRouteId := by
  obtain ⟨hmem, hb⟩ := isBroker_iff.mp hn
  obtain ⟨r, c, hr, hne, hc, hcm, hcr, hcp, hcd⟩ := t.route_below n hmem hb d hd h
  have hroute : (t.tables n).getRoute d = r := by
    rw [getRoute_of_ne hn hd, hr]
    · rfl
    · rintro hroot rfl
      have habove := (h.above hd).2.2
      have hdepth := t.depth_parent n hmem hroot
      omega
  refine ⟨c, ?_, hcm, hcr, hcp, hcd, hroute ▸ hne⟩
  unfold linkOf
  rw [hroute, if_neg hne, hc]
  rfl

theorem route_up (h : ¬ t.Below n d) : (t.tables n).getRoute d = parentRouteId := by
  obtain ⟨hmem, hb⟩ := isBroker_iff.mp hn
  by_cases hp : n ≠ t.root ∧ d = t.parent n
  · refine if_pos (.inr ?_)
    rw [t.table_higher n hmem hb, if_neg hp.1, hp.2]
  · rw [getRoute_of_ne hn hd fun hr heq => hp ⟨hr, heq⟩, t.route_other n hmem hb d hd h]
    rfl

theorem route_toward (hne : n ≠ d) :
    ∃ link, t.linkOf n ((t.tables n).getRoute d) = some link ∧ t.Toward n d (t.endOf link) := by
  by_cases h : t.Below n d
  · obtain ⟨c, hlink, hcm, hcr, hcp, hcd, -⟩ := route_down hn hd h
    exact ⟨_, hlink, toward_child hcm hcr hcp hd hcd⟩
  have hr : n ≠ t.root := by
    rintro rfl
    exact h (below_root hd (Ne.symm hne))
  rw [route_up hn hd h, linkOf_parent hr]
  exact ⟨_, rfl, toward_parent (isBroker_iff.mp hn).1 hr hne h⟩

end

theorem route_broker (hd : t.isBroker d) (hne : d ≠ n) :
    ∃ link, t.linkOf n ((t.tables n).getRoute d) = some link ∧ t.isBroker (t.endOf link) := by
  obtain ⟨hmem, hb⟩ := isBroker_iff.mp hd
  obtain ⟨link, hl, htoward⟩ := route_toward hn hmem (Ne.symm hne)
  refine ⟨link, hl, isBroker_iff.mpr ⟨htoward.mem, ?_⟩⟩
  by_cases heq : t.endOf link = d
  · exact heq ▸ hb
  · exact htoward.broker heq

end

/-- A message at a node is passed on so many times until it is kept. -/
inductive Heads (t : QueryTree) (m : QueryMessage) : GlobalId → GlobalId → Nat → Prop
  | core (hn : n ∈ t.nodes) (hc : t.isCore n = true) : Heads t m n n 0
  | here (hn : t.isBroker n) (h : (t.tables n).passes m = none) : Heads t m n n 0
  | pass (hn : t.isBroker n) (h : (t.tables n).passes m = some route)
      (hl : t.linkOf n route = some link) (hh : Heads t m (t.endOf link) a k) :
      Heads t m n a (k + 1)

theorem Heads.mem (h : Heads t m n a k) : n ∈ t.nodes := by
  cases h with
  | core hn _ => exact hn
  | here hn _ => exact (isBroker_iff.mp hn).1
  | pass hn _ _ _ => exact (isBroker_iff.mp hn).1

theorem not_isCore (hn : t.isBroker n) : t.isCore n ≠ true := by
  rw [(isBroker_iff.mp hn).2]
  exact Bool.false_ne_true

theorem Heads.unique (h : Heads t m n a k) (h' : Heads t m n a' k') : a = a' ∧ k = k' := by
  induction h generalizing a' k' with
  | core hn hc =>
    cases h' with
    | core _ _ => exact ⟨rfl, rfl⟩
    | here hn' _ => exact absurd hc (not_isCore hn')
    | pass hn' _ _ _ => exact absurd hc (not_isCore hn')
  | here hn hp =>
    cases h' with
    | core _ hc => exact absurd hc (not_isCore hn)
    | here _ _ => exact ⟨rfl, rfl⟩
    | pass _ hp' _ _ => cases hp.symm.trans hp'
  | pass hn hp hl _ ih =>
    cases h' with
    | core _ hc => exact absurd hc (not_isCore hn)
    | here _ hp' => cases hp'.symm.trans hp
    | pass _ hp' hl' hh' =>
      obtain rfl := Option.some.inj (hp.symm.trans hp')
      obtain rfl := Option.some.inj (hl.symm.trans hl')
      obtain ⟨ha, hk⟩ := ih hh'
      exact ⟨ha, congrArg Nat.succ hk⟩

theorem Heads.congr (h : Heads t m n a k) (ha : m'.action = m.action) (hd : m'.destId = m.destId)
    (ht : m'.target = m.target) : Heads t m' n a k := by
  induction h with
  | core hn hc => exact .core hn hc
  | here hn hp => exact .here hn ((passes_congr ha hd ht).trans hp)
  | pass hn hp hl _ ih => exact .pass hn ((passes_congr ha hd ht).trans hp) hl ih

theorem heads_toward (hd : d ∈ t.nodes) (hend : Heads t m d d 0)
    (hpass : ∀ n, t.isBroker n → n ≠ d → (t.tables n).passes m = some ((t.tables n).getRoute d))
    (hn : n ∈ t.nodes) (hb : n ≠ d → t.isCore n = false) : ∃ k ≤ t.back n d, Heads t m n d k := by
  induction hk : t.back n d using Nat.strong_induction_on generalizing n with
  | _ j ih =>
    by_cases hne : n = d
    · exact ⟨0, Nat.zero_le _, hne ▸ hend⟩
    have hbroker := isBroker_iff.mpr ⟨hn, hb hne⟩
    obtain ⟨link, hlink, htoward⟩ := route_toward hbroker hd hne
    obtain ⟨k, hle, hh⟩ := ih _ (hk ▸ htoward.nearer) htoward.mem htoward.broker rfl
    have hlt := htoward.nearer
    exact ⟨k + 1, by omega, .pass hbroker (hpass n hbroker hne) hlink hh⟩

theorem heads_up (hend : Heads t m t.root t.root 0)
    (hpass : ∀ n, t.isBroker n → n ≠ t.root → (t.tables n).passes m = some parentRouteId)
    (hn : t.isBroker n) : ∃ k, Heads t m n t.root k := by
  obtain ⟨hmem, hb⟩ := isBroker_iff.mp hn
  induction hmem using climb with
  | root => exact ⟨0, hend⟩
  | step n hmem hr ih =>
    have hp := parent_isBroker hmem hr
    obtain ⟨k, hh⟩ := ih hp (isBroker_iff.mp hp).2
    exact ⟨k + 1, .pass hn (hpass n hn hr) (linkOf_parent hr) hh⟩

theorem heads_reply (ha : m.action = .queryReply) (hd : t.isBroker m.destId) (hn : t.isBroker n) :
    ∃ k ≤ t.back n m.destId, Heads t m n m.destId k := by
  obtain ⟨hmem, hb⟩ := isBroker_iff.mp hn
  refine heads_toward (isBroker_iff.mp hd).1 (.here hd ?_) (fun n hn hne => ?_) hmem fun _ => hb
  · unfold passes
    rw [ha, id_eq hd]
    exact if_pos rfl
  · unfold passes
    rw [ha, id_eq hn]
    exact if_neg (Ne.symm hne)

theorem heads_dest (ha : m.action = .brokerQuery) (hd : m.destId ∈ t.nodes) (hn : t.isBroker n) :
    ∃ k, Heads t m n m.destId k := by
  obtain ⟨hmem, hb⟩ := isBroker_iff.mp hn
  have hend : Heads t m m.destId m.destId 0 := by
    by_cases hc : t.isCore m.destId = true
    · exact .core hd hc
    have hbroker := isBroker_iff.mpr ⟨hd, Bool.eq_false_iff.mpr hc⟩
    refine .here hbroker ?_
    unfold passes
    rw [ha, id_eq hbroker]
    exact if_pos (.inl rfl)
  obtain ⟨k, -, hk⟩ := heads_toward (t := t) (m := m) hd hend (fun n hn hne => by
    unfold passes
    rw [ha, id_eq hn]
    exact if_neg (not_or.mpr ⟨Ne.symm hne, fun h => (t.ids _ hd).1 h.2⟩)) hmem fun _ => hb
  exact ⟨k, hk⟩

theorem heads_placeholder (ha : m.action = .brokerQuery) (hd : m.destId = parentBrokerId)
    (hn : t.isBroker n) : ∃ k, Heads t m n t.root k := by
  refine heads_up (.here t.root_isBroker ?_) (fun n hn hr => ?_) hn
  · unfold passes
    rw [ha]
    exact if_pos (.inr ⟨(isRootc_iff t.root_isBroker).mpr rfl, hd⟩)
  · unfold passes
    rw [ha, id_eq hn, hd]
    rw [if_neg, getRoute_parent]
    rintro (hz | ⟨hroot, -⟩)
    · exact (t.ids n (isBroker_iff.mp hn).1).1 hz.symm
    · exact hr ((isRootc_iff hn).mp hroot)

theorem heads_setGlobal (ha : m.action = .setGlobal) (hn : t.isBroker n) :
    ∃ k, Heads t m n t.root k := by
  refine heads_up (.here t.root_isBroker ?_) (fun n hn hr => ?_) hn
  · unfold passes
    rw [ha]
    exact if_pos ((isRootc_iff t.root_isBroker).mpr rfl)
  · unfold passes
    rw [ha]
    exact if_neg fun hroot => hr ((isRootc_iff hn).mp hroot)

end QueryTree

end Helics
