import Helics.QueryHandling
import Mathlib.Algebra.BigOperators.Group.Finset.Basic

namespace Helics

open LinkNetwork (takeFirst)

namespace QueryTree

open BrokerTables QueryState

variable {t : QueryTree}

theorem Heads.at_core (h : Heads t m n a k) (hc : t.isCore n = true) : a = n := by
  cases h with
  | core _ _ => rfl
  | here hn _ => exact absurd hc (not_isCore hn)
  | pass hn _ _ _ => exact absurd hc (not_isCore hn)

structure CoreReply (t : QueryTree) (asked : GlobalId → List (Int × QueryTarget × String))
    (n : GlobalId) (m r : QueryMessage) : Prop where
  query : m.action = .brokerQuery ∨ m.action = .query
  action : r.action = .queryReply
  key : (r.destId, r.counter, r.messageID) = (m.sourceId, m.counter, m.messageID)
  dest : t.isBroker r.destId
  link : t.linkOf n parentRouteId = some (.up n)
  parent : t.isBroker (t.parent n)
  tracked : Tracked t asked (t.parent n) r

theorem CoreReply.same_key (h : CoreReply t asked n m r) : r.key = m.key := by
  rw [QueryMessage.key_reply h.action, QueryMessage.key_query h.query, h.key]

theorem Tracked.core (hm : Tracked t asked n m) (hc : t.isCore n = true) :
    ∃ r, (t.cores n).processPriorityCommand m = [(parentRouteId, r)] ∧ CoreReply t asked n m r := by
  have hn := hm.node
  have hroot : n ≠ t.root := by
    rintro rfl
    exact not_isCore t.root_isBroker hc
  have hp := parent_isBroker hn hroot
  have hsent {r : QueryMessage} (ha : r.action = .queryReply) (hd : t.isBroker r.destId)
      (hr : r.counter = 0 ∧ t.Spoken asked r.destId r.messageID r.sourceId ∨
        ∃ kind, r.counter = MapKind.counter kind) : Tracked t asked (t.parent n) r := by
    obtain ⟨k, -, hh⟩ := heads_reply ha hd hp
    exact .reply ha hd hr hh
  unfold CoreAnswers.processPriorityCommand
  cases hm with
  | @user target a m₀ k hb hcount hq ha hal hh =>
    obtain rfl := hh.at_core hc
    obtain ⟨hact, hdest⟩ := ha.core hb hc
    have hact : m.action = .query := hal.action.trans hact
    rw [hact]
    refine ⟨_, rfl, .inr hact, rfl, rfl, hb, linkOf_parent hroot, hp,
      hsent rfl hb (.inl ⟨hcount, ?_⟩)⟩
    exact ⟨target, m.payload, a, m₀, hq, ha, .inl ⟨hc, hal.dest.trans hdest⟩, .inl hc⟩
  | map hact hcount hpay hd hb hh =>
    obtain ⟨hsm, hsb, -⟩ := hb.above hd
    have hb := isBroker_iff.mpr ⟨hsm, hsb⟩
    rw [hact]
    dsimp only
    rw [if_pos ((hh.at_core hc).trans (t.core_id n hn hc).symm)]
    exact ⟨_, rfl, .inl hact, rfl, rfl, hb, linkOf_parent hroot, hp,
      hsent rfl hb (.inr ⟨_, hcount⟩)⟩
  | reply _ hb _ hh =>
    rw [hh.at_core hc] at hb
    exact absurd hc (not_isCore hb)
  | global _ hh => exact absurd (hh.at_core hc).symm hroot

theorem emit_of_links (n : GlobalId)
    (h : ∀ x ∈ sent, ∃ link, t.linkOf n x.1 = some link) :
    (t.emit n sent).map Prod.snd = sent.map Prod.snd := by
  unfold emit
  induction sent with
  | nil => rfl
  | cons x sent ih =>
    obtain ⟨link, hl⟩ := h x List.mem_cons_self
    rw [List.filterMap_cons, hl, List.map_cons,
      ← ih fun y hy => h y (List.mem_cons_of_mem _ hy)]
    rfl

theorem mem_emit (h : y ∈ t.emit n sent) : ∃ x ∈ sent, t.linkOf n x.1 = some y.1 ∧ y.2 = x.2 := by
  obtain ⟨x, hx, heq⟩ := List.mem_filterMap.mp h
  obtain ⟨link, hl, rfl⟩ := Option.map_eq_some_iff.mp heq
  exact ⟨x, hx, hl, rfl⟩

def count (t : QueryTree) (key : QueryKey) (net : QueryNet) : Nat :=
  tally key (net.flight.map Prod.snd) + ∑ n ∈ t.nodes, waiting key (net.states n)

theorem sum_update (f : QueryState → Nat) (states : GlobalId → QueryState) (hn : n ∈ t.nodes)
    (s : QueryState) : ∑ k ∈ t.nodes, f (Function.update states n s k) + f (states n) =
      ∑ k ∈ t.nodes, f (states k) + f s := by
  have hsplit := Finset.add_sum_erase t.nodes (fun k => f (states k)) hn
  have hsplit' := Finset.add_sum_erase t.nodes (fun k => f (Function.update states n s k)) hn
  have hrest : ∑ k ∈ t.nodes.erase n, f (Function.update states n s k) =
      ∑ k ∈ t.nodes.erase n, f (states k) := by
    refine Finset.sum_congr rfl fun k hk => ?_
    rw [Function.update_of_ne (Finset.ne_of_mem_erase hk)]
  rw [Function.update_self] at hsplit'
  omega

/-- The invariant of the network: every message is on its way, and every query of a user that is
heard has one message or one reply. -/
structure Sound (t : QueryTree) (net : QueryNet) : Prop where
  flight : ∀ x ∈ net.flight, Tracked t net.asked (t.endOf x.1) x.2
  brokers : ∀ n, t.isBroker n → BrokerSound t net.asked n (net.states n)
  others : ∀ n, ¬ t.isBroker n → net.states n = {} ∧ net.asked n = []
  numbers : ∀ u, ∀ q ∈ net.asked u, q.1 ≤ (net.states u).queryCounter
  once : ∀ u, (net.asked u).Pairwise fun q q' => q.1 ≠ q'.1
  users : ∀ u id target request a m₀, (id, target, request) ∈ net.asked u →
    t.Answers u target a m₀ → t.Audible a m₀ request →
    t.count (u, 0, id) net + got u (u, 0, id) (net.states u) = 1
  maps : ∀ n kind i, t.isBroker n →
    t.count (n, MapKind.counter kind, i) net = owed n (n, kind.counter, i) (net.states n)

theorem sound_initial (t : QueryTree) : Sound t {} where
  flight x hx := absurd hx List.not_mem_nil
  brokers n _ := {
    held := fun _ r hr => absurd hr List.not_mem_nil
    results := fun r hr => absurd hr List.not_mem_nil
    idle := fun _ _ => rfl
    busy := fun _ h => absurd rfl h }
  others n _ := ⟨rfl, rfl⟩
  numbers u q hq := absurd hq List.not_mem_nil
  once u := List.Pairwise.nil
  users u id target request a m₀ hq _ _ := absurd hq List.not_mem_nil
  maps n kind i _ := by
    have hzero : ∑ k ∈ t.nodes, waiting (n, kind.counter, i) {} = 0 :=
      Finset.sum_eq_zero fun _ _ => rfl
    rw [owed_self]
    unfold count
    exact (Nat.zero_add _).trans hzero

theorem asked_broker (h : Sound t net) (hq : q ∈ net.asked u) : t.isBroker u := by
  by_contra hno
  rw [(h.others u hno).2] at hq
  exact List.not_mem_nil hq

theorem asked_unique (h : Sound t net) {id : Int} (hq : (id, target, request) ∈ net.asked u)
    (hq' : (id, target', request') ∈ net.asked u) : target = target' ∧ request = request' := by
  by_contra hne
  have hdiff : (id, target, request) ≠ (id, target', request') := by
    intro heq
    cases heq
    exact hne ⟨rfl, rfl⟩
  have : Std.Symm fun q q' : Int × QueryTarget × String => q.1 ≠ q'.1 := ⟨fun _ _ => Ne.symm⟩
  exact (h.once u).forall hq hq' hdiff rfl

theorem tally_perm {l l' : List (Link × QueryMessage)} (h : l.Perm l') (key : QueryKey) :
    tally key (l.map Prod.snd) = tally key (l'.map Prod.snd) :=
  (h.map Prod.snd).countP_eq _

theorem Sound.missing (h : Sound t net) (hm : (link, m) ∈ net.flight) (hn : t.isBroker n)
    (ha : m.action = .queryReply) (hd : m.destId = n) (hc : m.counter = MapKind.counter kind) :
    ∃ c ∈ ((net.states n).builder kind).missingComponents, c.1 = m.messageID := by
  have hkey : m.key = some (n, kind.counter, m.messageID) := by
    unfold QueryMessage.key
    rw [ha, hd, hc]
  have hpos : 0 < tally (n, kind.counter, m.messageID) (net.flight.map Prod.snd) :=
    List.countP_pos_iff.mpr ⟨m, List.mem_map_of_mem hm, decide_eq_true hkey⟩
  have hmap := h.maps n kind m.messageID hn
  rw [owed_self] at hmap
  unfold count at hmap
  have howed : 0 < ((net.states n).builder kind).missingComponents.countP fun c =>
    decide (c.1 = m.messageID) := by omega
  obtain ⟨c, hcm, heq⟩ := List.countP_pos_iff.mp howed
  exact ⟨c, hcm, of_decide_eq_true heq⟩

structure Delivers (net : QueryNet) (link : Link) (m : QueryMessage)
    (rest : List (Link × QueryMessage)) : Prop where
  perm : net.flight.Perm ((link, m) :: rest)

theorem Delivers.mem (h : Delivers net link m rest) : (link, m) ∈ net.flight :=
  h.perm.mem_iff.mpr List.mem_cons_self

theorem Delivers.of_rest (h : Delivers net link m l) (hx : x ∈ l) : x ∈ net.flight :=
  h.perm.mem_iff.mpr (List.mem_cons_of_mem _ hx)

theorem Delivers.tally (h : Delivers net link m rest) (key : QueryKey) :
    tally key (net.flight.map Prod.snd) = tally key [m] + tally key (rest.map Prod.snd) := by
  rw [tally_perm h.perm key, List.map_cons, ← List.singleton_append, tally_append]

theorem Tracked.not_silent (hm : Tracked t net.asked n m) (h : Sound t net) {id : Int}
    (hn : t.isBroker n) (hk : m.key = some (u, 0, id))
    (hq : (id, target, request) ∈ net.asked u) (ha : t.Answers u target a m₀)
    (haud : t.Audible a m₀ request) : ¬ Unanswered (t.tables n) m := by
  rintro ⟨hp, hl, hnone, hw⟩
  have hact : m.action = .brokerQuery ∨ m.action = .query := Or.imp_right And.left hl
  obtain ⟨rfl, -, rfl⟩ := QueryMessage.key_inj ((QueryMessage.key_query hact).symm.trans hk)
  obtain ⟨-, -, target', a', m', k, hq', ha', hal, hh⟩ | ⟨-, -, -, kind, k, -, hpay, -⟩ :=
    hm.query hact
  · obtain ⟨rfl, rfl⟩ := asked_unique h hq hq'
    obtain ⟨rfl, rfl⟩ := ha.unique ha'
    obtain rfl := hh.kept hn hp
    exact haud.resolve_left (not_isCore hn) ⟨hal.isLocal.mp hl, hnone, hw⟩
  · rw [hpay, MapKind.ofRequest_request] at hnone
    cases hnone

theorem Tracked.not_silent_map (hm : Tracked t asked n m)
    (hk : m.key = some (u, MapKind.counter kind, i)) : ¬ Unanswered (t.tables n) m := by
  rintro ⟨-, hl, hnone, -⟩
  have hact : m.action = .brokerQuery ∨ m.action = .query := Or.imp_right And.left hl
  obtain ⟨-, hmark, -⟩ := QueryMessage.key_inj ((QueryMessage.key_query hact).symm.trans hk)
  obtain ⟨-, hc, -⟩ | ⟨-, -, -, kind', k, -, hpay, -⟩ := hm.query hact
  · exact kind.counter_ne_zero (hmark.symm.trans hc)
  · rw [hpay, MapKind.ofRequest_request] at hnone
    cases hnone

theorem got_other (h : n ≠ u) (c : UInt16) (i : Int) (s : QueryState) : got n (u, c, i) s = 0 :=
  if_neg fun heq => h heq.1.symm

theorem got_map (n u : GlobalId) (kind : MapKind) (i : Int) (s : QueryState) :
    got n (u, kind.counter, i) s = 0 :=
  if_neg fun heq => kind.counter_ne_zero heq.2

theorem owed_other (h : n ≠ u) (c : UInt16) (i : Int) (s : QueryState) : owed n (u, c, i) s = 0 :=
  if_neg (Ne.symm h)

theorem owed_user (n u : GlobalId) (i : Int) (s : QueryState) : owed n (u, 0, i) s = 0 := by
  unfold owed
  split <;> rfl

theorem count_handled (h : Delivers net link m l) (hn : n ∈ t.nodes)
    (hh : Handled t net.asked n (net.states n) m r) (key : QueryKey)
    (hs : m.key = some key → ¬ Unanswered (t.tables n) m) : t.count key { net with
        states := Function.update net.states n r.1, flight := l ++ t.emit n r.2 } +
        got n key r.1 + owed n key (net.states n) =
      t.count key net + got n key (net.states n) + owed n key r.1 := by
  have hsum := sum_update (waiting key) net.states hn r.1
  have hcons := hh.conserves key hs
  have htally := h.tally key
  have hemit := emit_of_links n fun x hx => (hh.sent x hx).imp fun _ h => h.1
  unfold Conserves at hcons
  unfold count
  dsimp only
  rw [List.map_append, tally_append, hemit]
  omega

theorem Sound.handled (hs : Sound t net) (h : Delivers net link m l) (hend : t.endOf link = n)
    (hn : t.isBroker n) (hh : Handled t net.asked n (net.states n) m r) : Sound t { net with
      states := Function.update net.states n r.1, flight := l ++ t.emit n r.2 } := by
  have hmem := (isBroker_iff.mp hn).1
  have hm := hs.flight _ h.mem
  rw [hend] at hm
  refine ⟨List.forall_mem_append.mpr ⟨fun x hx => hs.flight x (h.of_rest hx), fun x hx => ?_⟩,
    ?_, ?_, ?_, hs.once, ?_, ?_⟩
  · obtain ⟨y, hy, hl, heq⟩ := mem_emit hx
    obtain ⟨link', hl', htr⟩ := hh.sent y hy
    cases hl.symm.trans hl'
    exact heq ▸ htr
  · exact (Function.forall_update_iff net.states fun k s =>
      t.isBroker k → BrokerSound t net.asked k s).mpr ⟨fun _ => hh.sound, fun k _ => hs.brokers k⟩
  · exact (Function.forall_update_iff net.states fun k s =>
      ¬ t.isBroker k → s = {} ∧ net.asked k = []).mpr
        ⟨fun hno => absurd hn hno, fun k _ => hs.others k⟩
  · exact (Function.forall_update_iff net.states fun u s =>
      ∀ q ∈ net.asked u, q.1 ≤ s.queryCounter).mpr
        ⟨fun q hq => hh.counter.symm ▸ hs.numbers n q hq, fun u _ => hs.numbers u⟩
  · intro u id target request a m₀ hq ha haud
    have husers := hs.users u id target request a m₀ hq ha haud
    have hcount := count_handled h hmem hh (u, 0, id) fun hk =>
      hm.not_silent hs hn hk hq ha haud
    rw [owed_user, owed_user] at hcount
    dsimp only
    by_cases heq : u = n
    · subst heq
      rw [Function.update_self]
      omega
    · rw [got_other (Ne.symm heq), got_other (Ne.symm heq)] at hcount
      rw [Function.update_of_ne heq]
      omega
  · intro k kind i hk
    have hmaps := hs.maps k kind i hk
    have hcount := count_handled h hmem hh (k, kind.counter, i) fun hkey =>
      hm.not_silent_map hkey
    rw [got_map, got_map] at hcount
    dsimp only
    by_cases heq : k = n
    · subst heq
      rw [Function.update_self]
      omega
    · rw [owed_other (Ne.symm heq), owed_other (Ne.symm heq)] at hcount
      rw [Function.update_of_ne heq]
      omega

theorem Sound.resend (hs : Sound t net) (hl : ∀ x ∈ l, Tracked t net.asked (t.endOf x.1) x.2)
    (hcount : ∀ key, tally key (l.map Prod.snd) = tally key (net.flight.map Prod.snd)) :
    Sound t { net with flight := l } := by
  have hsame : ∀ key, t.count key { net with flight := l } = t.count key net := by
    intro key
    unfold count
    rw [hcount]
  refine ⟨hl, hs.brokers, hs.others, hs.numbers, hs.once, ?_, ?_⟩
  · intro u id target request a m₀ hq ha haud
    rw [hsame]
    exact hs.users u id target request a m₀ hq ha haud
  · intro k kind i hk
    rw [hsame]
    exact hs.maps k kind i hk

theorem Sound.core (hs : Sound t net) (h : Delivers net link m l) (hend : t.endOf link = n)
    (hc : t.isCore n = true) :
    Sound t { net with flight := l ++ t.emit n ((t.cores n).processPriorityCommand m) } := by
  have hm := hs.flight _ h.mem
  rw [hend] at hm
  obtain ⟨r, hproc, hr⟩ := hm.core hc
  have hemit : t.emit n ((t.cores n).processPriorityCommand m) = [(.up n, r)] := by
    unfold emit
    rw [hproc, List.filterMap_cons, hr.link]
    rfl
  rw [hemit]
  refine hs.resend (List.forall_mem_append.mpr ⟨fun x hx => hs.flight x (h.of_rest hx),
    List.forall_mem_singleton.mpr hr.tracked⟩) fun key => ?_
  rw [List.map_append, tally_append, List.map_singleton, tally_congr hr.same_key key, h.tally key]
  exact Nat.add_comm _ _

theorem delivers_of_takeFirst (h : takeFirst link net.flight = some taken) :
    Delivers net link taken.1 taken.2 :=
  ⟨LinkNetwork.takeFirst_perm h⟩

/-- A delivery takes a message to a core or to a broker, which handles it. -/
theorem Sound.step_deliver (hs : Sound t net) (h : t.step net (.deliver link) = some net') :
    ∃ m l, Delivers net link m l ∧ Tracked t net.asked (t.endOf link) m ∧
      (t.isCore (t.endOf link) = true ∧ net' = { net with
          flight := l ++ t.emit (t.endOf link)
            ((t.cores (t.endOf link)).processPriorityCommand m) } ∨
        ∃ r, t.isBroker (t.endOf link) ∧
          Handling t net.asked (t.endOf link) (net.states (t.endOf link)) m r ∧
          Handled t net.asked (t.endOf link) (net.states (t.endOf link)) m r ∧ net' = { net with
            states := Function.update net.states (t.endOf link) r.1
            flight := l ++ t.emit (t.endOf link) r.2 }) := by
  obtain ⟨taken, htake, rfl⟩ := Option.map_eq_some_iff.mp h
  have hd := delivers_of_takeFirst htake
  have hm : Tracked t net.asked (t.endOf link) taken.1 := hs.flight _ hd.mem
  refine ⟨taken.1, taken.2, hd, hm, ?_⟩
  unfold receive
  split
  · rename_i hc
    exact .inl ⟨hc, rfl⟩
  rename_i hc
  have hn := isBroker_iff.mpr ⟨hm.node, Bool.eq_false_iff.mpr hc⟩
  exact .inr ⟨_, hn, hm.handling hn _, hm.handled hn (hs.brokers _ hn)
    fun kind ha hdest hcount => hs.missing hd.mem hn ha hdest hcount, rfl⟩

theorem Sound.deliver (hs : Sound t net) (h : t.step net (.deliver link) = some net') :
    Sound t net' := by
  obtain ⟨m, l, hd, hm, ⟨hc, rfl⟩ | ⟨r, hn, -, hh, rfl⟩⟩ := hs.step_deliver h
  · exact hs.core hd rfl hc
  · exact hs.handled hd rfl hn hh

theorem step_setGlobal (h : t.step net (.setGlobal u name value) = some net') :
    t.isBroker u ∧ net' = { net with flight := net.flight ++
      [(outlet u ((t.tables u).setGlobal name value).1,
        ((t.tables u).setGlobal name value).2)] } := by
  unfold QueryTree.step at h
  dsimp only at h
  split at h
  · rename_i hu
    exact ⟨hu, (Option.some.inj h).symm⟩
  · cases h

theorem Sound.setGlobal (hs : Sound t net)
    (h : t.step net (.setGlobal u name value) = some net') : Sound t net' := by
  obtain ⟨hu, rfl⟩ := step_setGlobal h
  refine hs.resend (List.forall_mem_append.mpr ⟨hs.flight, List.forall_mem_singleton.mpr ?_⟩)
    fun key => ?_
  · have hend : t.endOf (outlet u ((t.tables u).setGlobal name value).1) = t.asksAt u :=
      endOf_outlet hu
    rw [hend]
    obtain ⟨k, hk⟩ := heads_setGlobal (m := ((t.tables u).setGlobal name value).2) rfl
      (asksAt_isBroker hu)
    exact .global rfl hk
  · rw [List.map_append, tally_append]
    rfl

end QueryTree

end Helics
