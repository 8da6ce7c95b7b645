import Helics.QueryCalls
import Mathlib.Algebra.Order.BigOperators.Group.List
import Mathlib.Algebra.Order.Group.Nat
import Mathlib.Data.Prod.Lex

namespace Helics

namespace QueryState

def inactiveMap (q : JsonMapBuilder) : Nat := if q.isActive then 0 else 1

def inactive (s : QueryState) : Nat :=
  inactiveMap (s.builder .federates) + inactiveMap (s.builder .dependencies)

def holding (s : QueryState) : Nat :=
  (s.requestors .federates).length + (s.requestors .dependencies).length

theorem inactive_update (s : QueryState) (kind : MapKind) (q : JsonMapBuilder) :
    inactive { s with builder := Function.update s.builder kind q } + inactiveMap (s.builder kind) =
      inactive s + inactiveMap q :=
  sum_update s.builder inactiveMap kind q

theorem holding_update (s : QueryState) (kind : MapKind) (l : List QueryMessage) :
    holding { s with requestors := Function.update s.requestors kind l } +
      (s.requestors kind).length = holding s + l.length :=
  sum_update s.requestors List.length kind l

end QueryState

namespace BrokerTables

open QueryState

variable {b : BrokerTables}

theorem Answered.starts (h : Answered b s request r) :
    r.2.1 = s ∧ r.2.2 = [] ∨ inactive r.2.1 < inactive s := by
  cases h with
  | ordinary _ => exact .inl ⟨rfl, rfl⟩
  | ready _ _ => exact .inl ⟨rfl, rfl⟩
  | busy _ _ _ => exact .inl ⟨rfl, rfl⟩
  | @started kind text _ ha _ =>
    right
    have hup := inactive_update s kind (b.initializeMap kind).1
    have hold : inactiveMap (s.builder kind) = 1 := by
      unfold inactiveMap
      rw [ha]
      rfl
    have hnew : inactiveMap (b.initializeMap kind).1 = 0 := by
      unfold inactiveMap
      rw [(b.initializeMap_started kind).active]
      rfl
    dsimp only
    omega

theorem addComponent_isActive (q : JsonMapBuilder) (info : String) (i : Int) :
    (q.addComponent info i).2.isActive = q.isActive := by
  unfold JsonMapBuilder.addComponent
  split <;> rfl

end BrokerTables

namespace QueryTree

open BrokerTables QueryState

variable {t : QueryTree}

def bound (t : QueryTree) : Nat := 2 * t.height + 1

open Classical in
noncomputable def hops (t : QueryTree) (n : GlobalId) (m : QueryMessage) : Nat :=
  if h : ∃ k a, Heads t m n a k then h.choose else 0

theorem Heads.hops_eq (h : Heads t m n a k) : t.hops n m = k := by
  have hex : ∃ k a, Heads t m n a k := ⟨k, a, h⟩
  obtain ⟨a', ha'⟩ := hex.choose_spec
  rw [hops, dif_pos hex]
  exact (ha'.unique h).2

/-- What a message at a node may still cause, apart from the maps it starts. -/
noncomputable def cost (t : QueryTree) (n : GlobalId) (m : QueryMessage) : Nat :=
  match m.action with
  | .brokerQuery | .query => t.hops n m + t.bound + 3
  | .queryReply | .setGlobal => t.hops n m + 1

theorem one_le_cost (t : QueryTree) (n : GlobalId) (m : QueryMessage) : 1 ≤ t.cost n m := by
  unfold cost
  split <;> omega

theorem cost_query (ha : m.action = .brokerQuery ∨ m.action = .query) :
    t.bound + 3 ≤ t.cost n m := by
  unfold cost
  obtain ha | ha := ha
  all_goals
    rw [ha]
    dsimp only
    omega

theorem Heads.cost_lt (h : Heads t m n a k) (hn : t.isBroker n)
    (hp : (t.tables n).passes m = some route) (hl : t.linkOf n route = some link) :
    t.cost (t.endOf link) m < t.cost n m := by
  have hhops : t.hops n m = t.hops (t.endOf link) m + 1 := by
    cases h with
    | core _ hc => exact absurd hc (not_isCore hn)
    | here _ hno => cases hno.symm.trans hp
    | pass _ hp' hl' hh =>
      cases hp.symm.trans hp'
      cases hl.symm.trans hl'
      rw [hh.hops_eq, (Heads.pass hn hp hl hh).hops_eq]
  unfold cost
  split <;> omega

noncomputable def sendCost (t : QueryTree) (n : GlobalId) (x : RouteId × QueryMessage) : Nat :=
  match t.linkOf n x.1 with
  | some link => t.cost (t.endOf link) x.2
  | none => 0

theorem cost_reply (ha : r.action = .queryReply) (hd : t.isBroker r.destId) (hn : t.isBroker n) :
    t.cost n r ≤ t.bound + 1 := by
  obtain ⟨k, hle, hh⟩ := heads_reply ha hd hn
  have hback := BrokerTree.back_le (isBroker_iff.mp hn).1 (isBroker_iff.mp hd).1
  unfold cost bound
  rw [ha]
  dsimp only
  rw [hh.hops_eq]
  omega

theorem sendCost_reply (hn : t.isBroker n)
    (hx : x.1 = (t.tables n).getRoute x.2.destId) (ha : x.2.action = .queryReply)
    (hd : t.isBroker x.2.destId) (hne : x.2.destId ≠ n) : t.sendCost n x ≤ t.bound + 1 := by
  obtain ⟨link, hl, hc⟩ := route_broker hn hd hne
  unfold sendCost
  rw [hx, hl]
  exact cost_reply ha hd hc

theorem sum_emit (t : QueryTree) (n : GlobalId) (sent : Sent) :
    ((t.emit n sent).map fun y => t.cost (t.endOf y.1) y.2).sum =
      (sent.map (t.sendCost n)).sum := by
  unfold emit
  induction sent with
  | nil => rfl
  | cons x sent ih =>
    rw [List.map_cons, List.sum_cons, ← ih, List.filterMap_cons]
    unfold sendCost
    cases t.linkOf n x.1 with
    | none => exact (Nat.zero_add _).symm
    | some link => rfl

/-- Handling a message of this price starts a map, or what it leaves behind is worth less. -/
def Cheaper (t : QueryTree) (n : GlobalId) (price : Nat) (s : QueryState)
    (r : QueryState × Sent) : Prop :=
  inactive r.1 < inactive s ∨ inactive r.1 = inactive s ∧
    (r.2.map (t.sendCost n)).sum + holding r.1 * (t.bound + 2) < price + holding s * (t.bound + 2)

section
variable (hn : t.isBroker n)
include hn

theorem cheaper_local (hm : Kept t asked n m) (s : QueryState)
    (hp : t.bound + 3 ≤ price) : t.Cheaper n price s ((t.tables n).processLocalQuery s m) := by
  have hout := (t.tables n).processLocalQuery_outcome s (t.ids _ (isBroker_iff.mp hm.source).1).2
  have hans := (t.tables n).generateQueryAnswer_answered s m.payload
  generalize (t.tables n).processLocalQuery s m = r at hout
  generalize (t.tables n).generateQueryAnswer s m.payload = a at hout hans
  obtain ⟨hs, hnil⟩ | hlt := hans.starts
  · right
    cases hout with
    | dropped _ _ =>
      rw [hs, hnil]
      refine ⟨rfl, ?_⟩
      change 0 + _ < _
      omega
    | @held kind _ _ =>
      rw [hs, hnil]
      have hup := holding_update s kind (s.requestors kind ++ [(t.tables n).localReply m a.1])
      rw [List.length_append, List.length_singleton] at hup
      have hone : holding { s with requestors := (Function.update s.requestors kind
          (s.requestors kind ++ [(t.tables n).localReply m a.1])) } = holding s + 1 := by omega
      refine ⟨rfl, ?_⟩
      rw [hone, Nat.add_mul]
      change 0 + _ < _
      omega
    | own _ _ =>
      rw [hs, hnil]
      refine ⟨rfl, ?_⟩
      change 0 + holding s * _ < _
      omega
    | sent _ hd =>
      rw [hs, hnil]
      rw [id_eq hn] at hd
      refine ⟨rfl, ?_⟩
      have hcost := sendCost_reply hn (x := ((t.tables n).getRoute m.sourceId,
        (t.tables n).localReply m a.1)) rfl rfl hm.source hd
      rw [List.nil_append, List.map_singleton, List.sum_singleton]
      omega
  · left
    cases hout with
    | dropped _ _ => exact hlt
    | held _ _ => exact hlt
    | own _ _ => exact hlt
    | sent _ _ => exact hlt

theorem cheaper_direct (hm : Kept t asked n m) (s : QueryState)
    (hp : t.bound + 3 ≤ price) (text : String) :
    t.Cheaper n price s ((t.tables n).answerDirectly s m text) := by
  unfold answerDirectly
  dsimp only
  right
  split
  · refine ⟨rfl, ?_⟩
    change 0 + holding s * _ < _
    omega
  rename_i hd
  rw [id_eq hn] at hd
  refine ⟨rfl, ?_⟩
  have hcost := sendCost_reply hn (x := ((t.tables n).getRoute m.sourceId, {
    action := .queryReply, destId := m.sourceId, sourceId := (t.tables n).globalBrokerIdLocal,
    messageID := m.messageID, payload := text })) rfl rfl hm.source hd
  dsimp only
  rw [List.map_singleton, List.sum_singleton]
  omega

theorem cheaper_requestors (hs : BrokerSound t asked n s) (q : JsonMapBuilder) (kind : MapKind) :
    (((t.tables n).answerRequestors { s with builder := Function.update s.builder kind q }
        kind).2.map (t.sendCost n)).sum +
      holding ((t.tables n).answerRequestors
        { s with builder := Function.update s.builder kind q } kind).1 * (t.bound + 2) ≤
      holding s * (t.bound + 2) := by
  have hup : holding ((t.tables n).answerRequestors
      { s with builder := Function.update s.builder kind q } kind).1 + (s.requestors kind).length =
        holding s + 0 := holding_update s kind []
  have hlen := List.length_filter_le (fun r : QueryMessage =>
    !decide (r.destId = (t.tables n).globalBrokerIdLocal)) (s.requestors kind)
  have hsum : (((t.tables n).answerRequestors { s with builder := Function.update s.builder kind q }
        kind).2.map (t.sendCost n)).sum ≤ ((s.requestors kind).filter fun r =>
          !decide (r.destId = (t.tables n).globalBrokerIdLocal)).length * (t.bound + 1) := by
    unfold answerRequestors routeMessage
    dsimp only
    rw [← List.map_eq_flatMap, List.map_map]
    refine (List.sum_le_card_nsmul _ (t.bound + 1) fun c hc => ?_).trans (le_of_eq ?_)
    · obtain ⟨r, hr, rfl⟩ := List.mem_map.mp hc
      obtain ⟨hmem, hd⟩ := List.mem_filter.mp hr
      have hheld := hs.held kind r hmem
      refine sendCost_reply hn rfl hheld.action hheld.dest fun heq => ?_
      rw [decide_eq_true (heq.trans (id_eq hn).symm)] at hd
      cases hd
    · rw [List.length_map]
      rfl
  have hle : ((s.requestors kind).filter fun r =>
      !decide (r.destId = (t.tables n).globalBrokerIdLocal)).length * (t.bound + 1) ≤
      (s.requestors kind).length * (t.bound + 2) := Nat.mul_le_mul hlen (by omega)
  rw [← Nat.add_zero (holding s), ← hup, Nat.add_mul]
  omega

theorem cheaper_response (hs : BrokerSound t asked n s) (hp : 1 ≤ price) :
    t.Cheaper n price s ((t.tables n).processQueryResponse s m) := by
  unfold processQueryResponse
  right
  split
  · refine ⟨rfl, ?_⟩
    change 0 + holding s * _ < _
    omega
  rename_i kind _
  dsimp only
  have hinactive : inactive { s with builder :=
      (Function.update s.builder kind ((s.builder kind).addComponent m.payload m.messageID).2) } =
        inactive s := by
    have hup := inactive_update s kind ((s.builder kind).addComponent m.payload m.messageID).2
    have heq : inactiveMap ((s.builder kind).addComponent m.payload m.messageID).2 =
        inactiveMap (s.builder kind) := by
      unfold inactiveMap
      rw [addComponent_isActive]
    omega
  split
  · have hle := cheaper_requestors hn hs
      ((s.builder kind).addComponent m.payload m.messageID).2 kind
    exact ⟨hinactive, by omega⟩
  · refine ⟨hinactive, ?_⟩
    change 0 + holding s * _ < _
    omega

end

theorem Handling.cheaper (h : Handling t asked n s m r) (hm : Tracked t asked n m)
    (hn : t.isBroker n) (hs : BrokerSound t asked n s) : t.Cheaper n (t.cost n m) s r := by
  cases h with
  | passed hp hl _ =>
    obtain ⟨a, k, hh, -⟩ := hm.heads
    have hlt := hh.cost_lt hn hp hl
    refine .inr ⟨rfl, ?_⟩
    rw [List.map_singleton, List.sum_singleton]
    unfold sendCost
    rw [hl]
    dsimp only
    omega
  | answered hk _ _ => exact cheaper_local hn hk s (cost_query hk.action)
  | direct hk _ _ _ _ _ => exact cheaper_direct hn hk s (cost_query hk.action) _
  | response _ _ _ => exact cheaper_response hn hs (t.one_le_cost n m)
  | stored _ =>
    have hone := t.one_le_cost n m
    refine .inr ⟨rfl, ?_⟩
    change 0 + holding s * _ < _
    omega

theorem Tracked.core_cost (hm : Tracked t asked n m) (hc : t.isCore n = true) :
    (((t.cores n).processPriorityCommand m).map (t.sendCost n)).sum < t.cost n m := by
  obtain ⟨r, hproc, hr⟩ := hm.core hc
  have hquery : t.bound + 3 ≤ t.cost n m := cost_query hr.query
  have hreply : t.cost (t.parent n) r ≤ t.bound + 1 := cost_reply hr.action hr.dest hr.parent
  rw [hproc, List.map_singleton, List.sum_singleton]
  unfold sendCost
  rw [hr.link]
  dsimp only [endOf]
  omega

/-- The maps that have not been started, and what the messages may still cause. -/
noncomputable def rank (t : QueryTree) (net : QueryNet) : Nat ×ₗ Nat :=
  toLex (∑ n ∈ t.nodes, inactive (net.states n),
    (net.flight.map fun x => t.cost (t.endOf x.1) x.2).sum +
      (∑ n ∈ t.nodes, holding (net.states n)) * (t.bound + 2))

/-- Every delivery lowers the rank. -/
theorem Sound.rank_lt (hs : Sound t net) (h : t.step net (.deliver link) = some net') :
    t.rank net' < t.rank net := by
  obtain ⟨m, l, hd, hm, hnext⟩ := hs.step_deliver h
  have hflight : (net.flight.map fun x => t.cost (t.endOf x.1) x.2).sum =
      t.cost (t.endOf link) m + (l.map fun x => t.cost (t.endOf x.1) x.2).sum :=
    (hd.perm.map _).sum_eq.trans List.sum_cons
  have hsent : ∀ sent, ((l ++ t.emit (t.endOf link) sent).map fun x =>
      t.cost (t.endOf x.1) x.2).sum = (l.map fun x => t.cost (t.endOf x.1) x.2).sum +
        (sent.map (t.sendCost (t.endOf link))).sum := by
    intro sent
    rw [List.map_append, List.sum_append, sum_emit]
  unfold rank
  rw [Prod.Lex.toLex_lt_toLex]
  obtain ⟨hc, rfl⟩ | ⟨r, hn, hr, -, rfl⟩ := hnext
  · right
    refine ⟨rfl, ?_⟩
    dsimp only
    rw [hsent, hflight]
    have hcheap := hm.core_cost hc
    omega
  · have hinactive := sum_update inactive net.states hm.node r.1
    have hholding := sum_update holding net.states hm.node r.1
    dsimp only
    rw [hsent, hflight]
    obtain hlt | ⟨heq, hlt⟩ := hr.cheaper hm hn (hs.brokers _ hn)
    · left
      omega
    right
    refine ⟨by omega, ?_⟩
    have hmul := congrArg (· * (t.bound + 2)) hholding
    simp only [Nat.add_mul] at hmul
    omega

theorem Sound.deliveries_end (hs : Sound t net) :
    Acc (fun net₂ net₁ => ∃ link, t.step net₁ (.deliver link) = some net₂) net := by
  induction hr : t.rank net using WellFoundedLT.induction generalizing net with
  | _ rank ih =>
    refine Acc.intro net fun net' ⟨link, h⟩ => ?_
    exact ih (t.rank net') (hr ▸ hs.rank_lt h) (hs.deliver h) rfl

end QueryTree

end Helics
