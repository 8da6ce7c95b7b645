import Helics.QueryBalance
import Helics.QueryTargets

namespace Helics

namespace QueryTree

open BrokerTables QueryState

variable {t : QueryTree}

structure Alike (m m₀ : QueryMessage) : Prop where
  action : m.action = m₀.action
  dest : m.destId = m₀.destId
  target : m.target = m₀.target

theorem Alike.isLocal {b : BrokerTables} (h : Alike m m₀) : b.isLocal m ↔ b.isLocal m₀ := by
  unfold BrokerTables.isLocal
  rw [h.action, h.target]

/-- The answer to a request of a user is not lost at the node that keeps the query. -/
def Audible (t : QueryTree) (a : GlobalId) (m₀ : QueryMessage) (request : String) : Prop :=
  t.isCore a = true ∨
    ¬ ((t.tables a).isLocal m₀ ∧ MapKind.ofRequest request = none ∧
      (t.tables a).answer request = "#wait")

/-- A reply for a user names the node that keeps the query. -/
def Spoken (t : QueryTree) (asked : GlobalId → List (Int × QueryTarget × String)) (u : GlobalId)
    (id : Int) (src : GlobalId) : Prop :=
  ∃ target request a m₀, (id, target, request) ∈ asked u ∧ t.Answers u target a m₀ ∧
    (t.isCore a = true ∧ src = parentBrokerId ∨ t.isBroker a ∧ src = a) ∧ t.Audible a m₀ request

/-- A message that is to arrive at the node `n`. -/
inductive Tracked (t : QueryTree) (asked : GlobalId → List (Int × QueryTarget × String))
    (n : GlobalId) (m : QueryMessage) : Prop
  | user (hb : t.isBroker m.sourceId) (hc : m.counter = 0)
      (hq : (m.messageID, target, m.payload) ∈ asked m.sourceId)
      (ha : t.Answers m.sourceId target a m₀) (hm : Alike m m₀) (hh : Heads t m n a k)
  | map (ha : m.action = .brokerQuery) (hc : m.counter = MapKind.counter kind)
      (hp : m.payload = MapKind.request kind) (hd : m.destId ∈ t.nodes)
      (hb : t.Below m.sourceId m.destId) (hh : Heads t m n m.destId k)
  | reply (ha : m.action = .queryReply) (hb : t.isBroker m.destId)
      (hr : m.counter = 0 ∧ t.Spoken asked m.destId m.messageID m.sourceId ∨
        ∃ kind, m.counter = MapKind.counter kind)
      (hh : Heads t m n m.destId k)
  | global (ha : m.action = .setGlobal) (hh : Heads t m n t.root k)

/-- A reply that waits at the broker `n` until a map is complete. -/
structure Held (t : QueryTree) (asked : GlobalId → List (Int × QueryTarget × String))
    (n : GlobalId) (r : QueryMessage) : Prop where
  action : r.action = .queryReply
  dest : t.isBroker r.destId
  owner : r.counter = 0 ∧ t.Spoken asked r.destId r.messageID n ∨
    ∃ kind, r.counter = MapKind.counter kind ∧ t.Below r.destId n
  source : r.sourceId = n

/-- The state of a broker fits the messages it has handled. -/
structure BrokerSound (t : QueryTree) (asked : GlobalId → List (Int × QueryTarget × String))
    (n : GlobalId) (s : QueryState) : Prop where
  held : ∀ kind, ∀ r ∈ s.requestors kind, Held t asked n r
  results : ∀ r ∈ s.results, t.Spoken asked n r.messageID r.sourceId
  idle : Idle s
  busy : ∀ kind, s.requestors kind ≠ [] → (s.builder kind).missingComponents ≠ []

def AskedMore (asked asked' : GlobalId → List (Int × QueryTarget × String)) : Prop :=
  ∀ u, ∀ q ∈ asked u, q ∈ asked' u

theorem Spoken.mono {id : Int} (h : t.Spoken asked u id src) (hm : AskedMore asked asked') :
    t.Spoken asked' u id src := by
  obtain ⟨target, request, a, m₀, hq, hrest⟩ := h
  exact ⟨target, request, a, m₀, hm u _ hq, hrest⟩

theorem Tracked.mono (h : Tracked t asked n m) (hm : AskedMore asked asked') :
    Tracked t asked' n m := by
  cases h with
  | user hb hc hq ha hal hh => exact .user hb hc (hm _ _ hq) ha hal hh
  | map ha hc hp hd hb hh => exact .map ha hc hp hd hb hh
  | reply ha hb hr hh => exact .reply ha hb (hr.imp_left fun h => ⟨h.1, h.2.mono hm⟩) hh
  | global ha hh => exact .global ha hh

theorem BrokerSound.mono (h : BrokerSound t asked n s) (hm : AskedMore asked asked') :
    BrokerSound t asked' n s where
  held kind r hr := {
    action := (h.held kind r hr).action
    dest := (h.held kind r hr).dest
    owner := (h.held kind r hr).owner.imp_left fun h => ⟨h.1, h.2.mono hm⟩
    source := (h.held kind r hr).source }
  results r hr := (h.results r hr).mono hm
  idle := h.idle
  busy := h.busy

structure Handled (t : QueryTree) (asked : GlobalId → List (Int × QueryTarget × String))
    (n : GlobalId) (s : QueryState) (m : QueryMessage) (r : QueryState × Sent) : Prop where
  sound : BrokerSound t asked n r.1
  sent : ∀ x ∈ r.2, ∃ link, t.linkOf n x.1 = some link ∧ Tracked t asked (t.endOf link) x.2
  conserves : ∀ key, (m.key = some key → ¬ Unanswered (t.tables n) m) → Conserves n key s m r
  counter : r.1.queryCounter = s.queryCounter

theorem Heads.step (hn : t.isBroker n) (h : Heads t m n a k) :
    (a = n ∧ (t.tables n).passes m = none) ∨
      ∃ route link j, (t.tables n).passes m = some route ∧ t.linkOf n route = some link ∧
        Heads t m (t.endOf link) a j := by
  cases h with
  | core _ hc => exact absurd hc (not_isCore hn)
  | here _ hp => exact .inl ⟨rfl, hp⟩
  | pass _ hp hl hh => exact .inr ⟨_, _, _, hp, hl, hh⟩

theorem Heads.kept (h : Heads t m n a k) (hn : t.isBroker n) (hp : (t.tables n).passes m = none) :
    a = n := by
  obtain ⟨heq, -⟩ | ⟨route, link, j, hp', -, -⟩ := h.step hn
  · exact heq
  · cases hp.symm.trans hp'

theorem Tracked.heads (hm : Tracked t asked n m) :
    ∃ a k, Heads t m n a k ∧ ∀ n' k', Heads t m n' a k' → Tracked t asked n' m := by
  cases hm with
  | user hb hc hq ha hal hh => exact ⟨_, _, hh, fun _ _ => .user hb hc hq ha hal⟩
  | map ha hc hp hd hb hh => exact ⟨_, _, hh, fun _ _ => .map ha hc hp hd hb⟩
  | reply ha hb hr hh => exact ⟨_, _, hh, fun _ _ => .reply ha hb hr⟩
  | global ha hh => exact ⟨_, _, hh, fun _ _ => .global ha⟩

theorem Tracked.node (h : Tracked t asked n m) : n ∈ t.nodes := by
  obtain ⟨a, k, hh, -⟩ := h.heads
  exact hh.mem

theorem Tracked.pass (hm : Tracked t asked n m) (hn : t.isBroker n)
    (hp : (t.tables n).passes m = some route) :
    ∃ link, t.linkOf n route = some link ∧ Tracked t asked (t.endOf link) m := by
  obtain ⟨a, k, hh, hback⟩ := hm.heads
  obtain ⟨-, hno⟩ | ⟨route', link, j, hp', hl, hh'⟩ := hh.step hn
  · cases hno.symm.trans hp
  · cases hp.symm.trans hp'
    exact ⟨link, hl, hback _ _ hh'⟩

theorem Answers.query (h : t.Answers u target a m₀) :
    m₀.action = .brokerQuery ∨ m₀.action = .query := by
  obtain ⟨out, k, hf, -⟩ := h
  exact (first_user hf).action

theorem Tracked.query (hm : Tracked t asked n m)
    (hq : m.action = .brokerQuery ∨ m.action = .query) :
    (t.isBroker m.sourceId ∧ m.counter = 0 ∧ ∃ target a m₀ k,
        (m.messageID, target, m.payload) ∈ asked m.sourceId ∧ t.Answers m.sourceId target a m₀ ∧
          Alike m m₀ ∧ Heads t m n a k) ∨
      m.action = .brokerQuery ∧ m.destId ∈ t.nodes ∧ t.Below m.sourceId m.destId ∧ ∃ kind k,
        m.counter = MapKind.counter kind ∧ m.payload = MapKind.request kind ∧
          Heads t m n m.destId k := by
  cases hm with
  | user hb hc hasked ha hal hh => exact .inl ⟨hb, hc, _, _, _, _, hasked, ha, hal, hh⟩
  | map ha hc hp hd hb hh => exact .inr ⟨ha, hd, hb, _, _, hc, hp, hh⟩
  | reply ha _ _ _ =>
    rw [ha] at hq
    obtain hq | hq := hq <;> cases hq
  | global ha _ =>
    rw [ha] at hq
    obtain hq | hq := hq <;> cases hq

theorem reply_sent (hn : t.isBroker n) {x : RouteId × QueryMessage}
    (hx : x.1 = (t.tables n).getRoute x.2.destId) (ha : x.2.action = .queryReply)
    (hd : t.isBroker x.2.destId) (hne : x.2.destId ≠ n)
    (hr : x.2.counter = 0 ∧ t.Spoken asked x.2.destId x.2.messageID x.2.sourceId ∨
      ∃ kind, x.2.counter = MapKind.counter kind) :
    ∃ link, t.linkOf n x.1 = some link ∧ Tracked t asked (t.endOf link) x.2 := by
  obtain ⟨link, hl, hc⟩ := route_broker hn hd hne
  obtain ⟨k, -, hh⟩ := heads_reply ha hd hc
  exact ⟨link, hx ▸ hl, .reply ha hd hr hh⟩

theorem map_sent (hn : t.isBroker n) (hm : MapStarted (t.tables n) kind made) (hx : x ∈ made.2) :
    ∃ link, t.linkOf n x.1 = some link ∧ Tracked t asked (t.endOf link) x.2 := by
  obtain ⟨hmem, hb⟩ := isBroker_iff.mp hn
  obtain ⟨brk, hbrk, i, rfl⟩ := hm.sent x hx
  obtain ⟨hd, hbelow, -, hroute⟩ := t.brokers_below n hmem hb brk hbrk
  obtain ⟨c, hl, hcm, hcr, hcp, hcd, -⟩ := route_down hn hd hbelow
  have hsrc : ((t.tables n).mapQuery kind i brk).sourceId = n := id_eq hn
  refine ⟨.down c, hroute ▸ hl, ?_⟩
  by_cases hc : t.isCore c = true
  · obtain rfl | hcd := hcd
    · exact .map rfl rfl rfl hd (hsrc.symm ▸ hbelow) (.core hcm hc)
    · rw [(hcd.above hd).2.1] at hc
      cases hc
  · obtain ⟨k, hh⟩ := heads_dest (m := (t.tables n).mapQuery kind i brk) rfl hd
      (isBroker_iff.mpr ⟨hcm, Bool.eq_false_iff.mpr hc⟩)
    exact .map rfl rfl rfl hd (hsrc.symm ▸ hbelow) hh

theorem not_below_self (hn : t.isBroker n) : ¬ t.Below n n := fun h =>
  lt_irrefl _ (h.above (isBroker_iff.mp hn).1).2.2

/-- A query that a broker keeps, with what its reply says about it. -/
structure Kept (t : QueryTree) (asked : GlobalId → List (Int × QueryTarget × String))
    (n : GlobalId) (m : QueryMessage) : Prop where
  action : m.action = .brokerQuery ∨ m.action = .query
  source : t.isBroker m.sourceId
  owner : m.counter = 0 ∧
      (¬ Unanswered (t.tables n) m → t.Spoken asked m.sourceId m.messageID n) ∨
    m.action = .brokerQuery ∧ (∃ kind, m.counter = MapKind.counter kind ∧
      MapKind.ofRequest m.payload = some kind) ∧ t.Below m.sourceId n

theorem Kept.own (h : Kept t asked n m) (hn : t.isBroker n) : OwnUser (t.tables n) m := by
  intro heq
  rw [id_eq hn] at heq
  obtain ⟨hc, -⟩ | ⟨-, -, hb⟩ := h.owner
  · exact hc
  · exact absurd (heq ▸ hb) (not_below_self hn)

theorem Kept.valid (h : Kept t asked n m) : m.sourceId ≠ invalidGlobalId :=
  (t.ids _ (isBroker_iff.mp h.source).1).2

theorem Kept.replies (h : Kept t asked n m) (hs : ¬ Unanswered (t.tables n) m) :
    m.counter = 0 ∧ t.Spoken asked m.sourceId m.messageID n ∨
      ∃ kind, m.counter = MapKind.counter kind ∧ t.Below m.sourceId n := by
  obtain ⟨hc, hsp⟩ | ⟨-, ⟨kind, hk, -⟩, hb⟩ := h.owner
  · exact .inl ⟨hc, hsp hs⟩
  · exact .inr ⟨kind, hk, hb⟩

theorem kept_user (hn : t.isBroker n) (hp : (t.tables n).passes m = none)
    (hb : t.isBroker m.sourceId) (hc : m.counter = 0)
    (hq : (m.messageID, target, m.payload) ∈ asked m.sourceId)
    (ha : t.Answers m.sourceId target n m₀) (hm : Alike m m₀) : Kept t asked n m := by
  refine ⟨by rw [hm.action]; exact ha.query, hb, .inl ⟨hc, fun hs => ?_⟩⟩
  exact ⟨target, m.payload, n, m₀, hq, ha, .inr ⟨hn, rfl⟩, .inr fun h =>
    hs ⟨hp, hm.isLocal.mpr h.1, h.2⟩⟩

theorem Tracked.kept (hm : Tracked t asked n m) (hn : t.isBroker n)
    (hp : (t.tables n).passes m = none) (hq : m.action = .brokerQuery ∨ m.action = .query) :
    Kept t asked n m := by
  obtain ⟨hb, hc, target, a, m₀, k, hasked, ha, hal, hh⟩ | ⟨ha, hd, hb, kind, k, hc, hpay, hh⟩ :=
    hm.query hq
  · obtain rfl := hh.kept hn hp
    exact kept_user hn hp hb hc hasked ha hal
  obtain ⟨hsm, hsb, -⟩ := hb.above hd
  refine ⟨.inl ha, isBroker_iff.mpr ⟨hsm, hsb⟩, .inr ⟨ha, ⟨kind, hc, ?_⟩, hh.kept hn hp ▸ hb⟩⟩
  rw [hpay]
  exact MapKind.ofRequest_request kind

/-- What a broker does with a message that is on its way. -/
inductive Handling (t : QueryTree) (asked : GlobalId → List (Int × QueryTarget × String))
    (n : GlobalId) (s : QueryState) (m : QueryMessage) : QueryState × Sent → Prop
  | passed (hp : (t.tables n).passes m = some route) (hl : t.linkOf n route = some link)
      (hm : Tracked t asked (t.endOf link) m) : Handling t asked n s m (s, [(route, m)])
  | answered (hk : Kept t asked n m) (hp : (t.tables n).passes m = none)
      (hlocal : (t.tables n).isLocal m) :
      Handling t asked n s m ((t.tables n).processLocalQuery s m)
  | direct (hk : Kept t asked n m) (hp : (t.tables n).passes m = none)
      (hlocal : ¬ (t.tables n).isLocal m) (ha : m.action = .query) (hc : m.counter = 0)
      {text : String}
      (hg : m.target = "global" → text = (t.tables n).globalAnswer s.globalValues m.payload) :
      Handling t asked n s m ((t.tables n).answerDirectly s m text)
  | response (ha : m.action = .queryReply) (hd : m.destId = n)
      (hr : m.counter = 0 ∧ t.Spoken asked n m.messageID m.sourceId ∨
        ∃ kind, m.counter = MapKind.counter kind) :
      Handling t asked n s m ((t.tables n).processQueryResponse s m)
  | stored (ha : m.action = .setGlobal) : Handling t asked n s m
      ({ s with globalValues := (setGlobalValue s.globalValues m.payload m.target) }, [])

theorem Tracked.handling (hm : Tracked t asked n m) (hn : t.isBroker n) (s : QueryState) :
    Handling t asked n s m ((t.tables n).processPriorityCommand s m) := by
  cases hp : (t.tables n).passes m with
  | some route =>
    obtain ⟨link, hl, hm'⟩ := hm.pass hn hp
    rw [process_of_passes hp]
    exact .passed hp hl hm'
  | none =>
    have hquery (hq : m.action = .brokerQuery ∨ m.action = .query) :
        Handling t asked n s m ((t.tables n).processPriorityCommand s m) := by
      have hk := hm.kept hn hp hq
      obtain ⟨hlocal, heq⟩ | ⟨hlocal, ha, text, heq, hg⟩ := process_query hq hp s
      · rw [heq]
        exact .answered hk hp hlocal
      rw [heq]
      obtain ⟨hc, -⟩ | ⟨hb, -⟩ := hk.owner
      · exact .direct hk hp hlocal ha hc hg
      · cases hb.symm.trans ha
    cases hm with
    | user _ _ _ ha hal _ => exact hquery (by rw [hal.action]; exact ha.query)
    | map ha _ _ _ _ _ => exact hquery (.inl ha)
    | reply ha _ hr hh =>
      have heq := hh.kept hn hp
      have hproc : (t.tables n).processPriorityCommand s m =
          (t.tables n).processQueryResponse s m := by
        unfold processPriorityCommand
        rw [ha]
        exact if_pos (heq.trans (id_eq hn).symm)
      rw [hproc]
      exact .response ha heq (hr.imp_left fun h => ⟨h.1, heq ▸ h.2⟩)
    | global ha _ =>
      have hroot : (t.tables n).isRootc = true := by
        unfold passes at hp
        rw [ha] at hp
        by_contra hno
        cases (if_neg hno).symm.trans hp
      unfold processPriorityCommand
      rw [ha]
      rw [if_pos hroot]
      exact .stored ha

section
variable (hs : BrokerSound t asked n s)
include hs

theorem BrokerSound.hold (hl : ∀ r ∈ l, Held t asked n r)
    (hm : l ≠ [] → (s.builder kind).missingComponents ≠ []) :
    BrokerSound t asked n { s with requestors := Function.update s.requestors kind l } where
  held := (Function.forall_update_iff s.requestors fun _ l => ∀ r ∈ l, Held t asked n r).mpr
    ⟨hl, fun k _ => hs.held k⟩
  results := hs.results
  idle := hs.idle
  busy := (Function.forall_update_iff s.requestors fun k l =>
    l ≠ [] → (s.builder k).missingComponents ≠ []).mpr ⟨hm, fun k _ => hs.busy k⟩

theorem BrokerSound.build (hq : q.isActive = true)
    (hm : s.requestors kind ≠ [] → q.missingComponents ≠ []) :
    BrokerSound t asked n { s with builder := Function.update s.builder kind q } where
  held := hs.held
  results := hs.results
  idle := (Function.forall_update_iff s.builder fun _ q =>
    q.isActive = false → q.missingComponents = []).mpr
      ⟨fun hno => absurd (hq.symm.trans hno) nofun, fun k _ => hs.idle k⟩
  busy := (Function.forall_update_iff s.builder fun k q =>
    s.requestors k ≠ [] → q.missingComponents ≠ []).mpr ⟨hm, fun k _ => hs.busy k⟩

theorem BrokerSound.result (hl : ∀ r ∈ l, t.Spoken asked n r.messageID r.sourceId) :
    BrokerSound t asked n { s with results := s.results ++ l } where
  held := hs.held
  results := List.forall_mem_append.mpr ⟨hs.results, hl⟩
  idle := hs.idle
  busy := hs.busy

theorem BrokerSound.answered (h : Answered (t.tables n) s request r) :
    BrokerSound t asked n r.2.1 := by
  cases h with
  | ordinary _ => exact hs
  | ready _ _ => exact hs
  | busy _ _ _ => exact hs
  | started _ ha _ =>
    exact hs.build (initializeMap_started _ _).active fun hne =>
      absurd (hs.idle _ ha) (hs.busy _ hne)

end

theorem answered_sent (h : Answered (t.tables n) s request r) (hn : t.isBroker n) :
    ∀ x ∈ r.2.2, ∃ link, t.linkOf n x.1 = some link ∧ Tracked t asked (t.endOf link) x.2 := by
  cases h with
  | ordinary _ => exact List.forall_mem_nil _
  | ready _ _ => exact List.forall_mem_nil _
  | busy _ _ _ => exact List.forall_mem_nil _
  | started _ _ _ => exact fun x hx => map_sent hn (initializeMap_started _ _) hx

theorem handled_local (hn : t.isBroker n) (hs : BrokerSound t asked n s) (hm : Kept t asked n m)
    (hp : (t.tables n).passes m = none) (hlocal : (t.tables n).isLocal m) :
    Handled t asked n s m ((t.tables n).processLocalQuery s m) := by
  have hans := (t.tables n).generateQueryAnswer_answered s m.payload
  have hcons : ∀ key, (m.key = some key → ¬ Unanswered (t.tables n) m) →
      Conserves n key s m ((t.tables n).processLocalQuery s m) := by
    intro key hsil
    have hc : Conserves (t.tables n).globalBrokerIdLocal key s m
        ((t.tables n).processLocalQuery s m) :=
      processLocalQuery_conserves hs.idle hm.action (hm.own hn) hm.valid
        (fun hk hw => hsil hk ⟨hp, hlocal, hw⟩)
    rwa [id_eq hn] at hc
  have hout := (t.tables n).processLocalQuery_outcome s hm.valid
  generalize (t.tables n).processLocalQuery s m = r at hout hcons
  generalize (t.tables n).generateQueryAnswer s m.payload = a at hans hout
  have hsound := hs.answered hans
  have hsent : ∀ x ∈ a.2.2, ∃ link, t.linkOf n x.1 = some link ∧
    Tracked t asked (t.endOf link) x.2 :=
    answered_sent hans hn
  have hsrc : ∀ text, ((t.tables n).localReply m text).sourceId = n := fun _ => id_eq hn
  cases hout with
  | dropped _ _ => exact ⟨hsound, hsent, hcons, hans.counter⟩
  | held hw hk =>
    have hnot : ¬ Unanswered (t.tables n) m := by
      rintro ⟨-, -, hnone, -⟩
      cases hk.symm.trans hnone
    refine ⟨hsound.hold ?_ fun _ => hans.waits hw hk, hsent, hcons, hans.counter⟩
    exact List.forall_mem_append.mpr ⟨hsound.held _,
      List.forall_mem_singleton.mpr ⟨rfl, hm.source, hm.replies hnot, hsrc _⟩⟩
  | own hw hd =>
    rw [id_eq hn] at hd
    obtain ⟨-, hsp⟩ | ⟨-, -, hb⟩ := hm.replies (hans.audible hw)
    · refine ⟨hsound.result (List.forall_mem_singleton.mpr ?_), hsent, hcons, hans.counter⟩
      rw [id_eq hn]
      exact hd ▸ hsp
    · exact absurd (hd ▸ hb) (not_below_self hn)
  | sent hw hd =>
    rw [id_eq hn] at hd
    refine ⟨hsound, List.forall_mem_append.mpr ⟨hsent, List.forall_mem_singleton.mpr ?_⟩, hcons,
      hans.counter⟩
    refine reply_sent hn rfl rfl hm.source hd ?_
    obtain ⟨hc, hsp⟩ | ⟨kind, hk, -⟩ := hm.replies (hans.audible hw)
    · exact .inl ⟨hc, (hsrc a.1).symm ▸ hsp⟩
    · exact .inr ⟨kind, hk⟩

theorem handled_direct (hn : t.isBroker n) (hs : BrokerSound t asked n s) (hm : Kept t asked n m)
    (hlocal : ¬ (t.tables n).isLocal m) (ha : m.action = .query) (hc : m.counter = 0)
    (text : String) : Handled t asked n s m ((t.tables n).answerDirectly s m text) := by
  have hsp : t.Spoken asked m.sourceId m.messageID n := by
    obtain ⟨-, hsp⟩ | ⟨kind, hk, -⟩ := hm.replies fun h => hlocal h.2.1
    · exact hsp
    · exact absurd (hk.symm.trans hc) kind.counter_ne_zero
  have hcons : ∀ key, Conserves n key s m ((t.tables n).answerDirectly s m text) := by
    intro key
    have h : Conserves (t.tables n).globalBrokerIdLocal key s m
        ((t.tables n).answerDirectly s m text) := answerDirectly_conserves ha hc text
    rwa [id_eq hn] at h
  revert hcons
  unfold answerDirectly
  intro hcons
  by_cases hd : m.sourceId = (t.tables n).globalBrokerIdLocal
  · rw [if_pos hd] at hcons ⊢
    refine ⟨hs.result (List.forall_mem_singleton.mpr ?_), List.forall_mem_nil _,
      fun key _ => hcons key, rfl⟩
    rw [id_eq hn] at hd ⊢
    exact hd ▸ hsp
  · rw [if_neg hd] at hcons ⊢
    rw [id_eq hn] at hd
    refine ⟨hs, List.forall_mem_singleton.mpr ?_, fun key _ => hcons key, rfl⟩
    refine reply_sent hn rfl rfl hm.source hd (.inl ⟨rfl, ?_⟩)
    rw [id_eq hn]
    exact hsp

theorem Held.waits (h : Held t asked n r) (hn : t.isBroker n) : Waits (t.tables n) r := by
  refine ⟨h.action, fun hd => ?_⟩
  rw [id_eq hn] at hd
  obtain ⟨hc, -⟩ | ⟨kind, -, hb⟩ := h.owner
  · exact hc
  · exact absurd (hd ▸ hb) (not_below_self hn)

theorem handled_requestors (hn : t.isBroker n) (hs : BrokerSound t asked n s)
    (hq : q.isActive = true) (kind : MapKind) : BrokerSound t asked n ((t.tables n).answerRequestors
        { s with builder := Function.update s.builder kind q } kind).1 ∧
      ∀ x ∈ ((t.tables n).answerRequestors
          { s with builder := Function.update s.builder kind q } kind).2,
        ∃ link, t.linkOf n x.1 = some link ∧ Tracked t asked (t.endOf link) x.2 := by
  unfold answerRequestors routeMessage
  dsimp only
  have hnone : BrokerSound t asked n
      { s with requestors := Function.update s.requestors kind [] } :=
    hs.hold (List.forall_mem_nil _) fun h => absurd rfl h
  have hbuilt : BrokerSound t asked n { s with
      builder := Function.update s.builder kind q
      requestors := Function.update s.requestors kind [] } :=
    hnone.build hq fun h => absurd (Function.update_self ..) h
  refine ⟨hbuilt.result fun r hr => ?_, fun x hx => ?_⟩
  · obtain ⟨r', hr', rfl⟩ := List.mem_map.mp hr
    obtain ⟨hmem, hd⟩ := List.mem_filter.mp hr'
    have hd : r'.destId = n := (of_decide_eq_true hd).trans (id_eq hn)
    obtain ⟨-, hsp⟩ | ⟨kind', -, hb⟩ := (hs.held kind r' hmem).owner
    · dsimp only
      rw [id_eq hn]
      exact hd ▸ hsp
    · exact absurd (hd ▸ hb) (not_below_self hn)
  · obtain ⟨r, hr, hx⟩ := List.mem_flatMap.mp hx
    obtain rfl := List.mem_singleton.mp hx
    obtain ⟨hmem, hd⟩ := List.mem_filter.mp hr
    have hheld := hs.held kind r hmem
    have hd : r.destId ≠ n := by
      intro heq
      rw [decide_eq_true (heq.trans (id_eq hn).symm)] at hd
      cases hd
    refine reply_sent hn rfl hheld.action hheld.dest hd ?_
    obtain ⟨hc, hsp⟩ | ⟨kind', hk, -⟩ := hheld.owner
    · exact .inl ⟨hc, hheld.source.symm ▸ hsp⟩
    · exact .inr ⟨kind', hk⟩

/-- A reply that has arrived, for a user or for a map that misses it. -/
structure Arrived (t : QueryTree) (asked : GlobalId → List (Int × QueryTarget × String))
    (n : GlobalId) (s : QueryState) (m : QueryMessage) : Prop where
  action : m.action = .queryReply
  dest : m.destId = n
  owner : m.counter = 0 ∧ t.Spoken asked n m.messageID m.sourceId ∨
    ∃ kind, m.counter = MapKind.counter kind ∧
      ∃ c ∈ (s.builder kind).missingComponents, c.1 = m.messageID

theorem handled_response (hn : t.isBroker n) (hs : BrokerSound t asked n s)
    (hm : Arrived t asked n s m) :
    Handled t asked n s m ((t.tables n).processQueryResponse s m) := by
  have hcons : ∀ key, Conserves n key s m ((t.tables n).processQueryResponse s m) := by
    intro key
    have h : Conserves (t.tables n).globalBrokerIdLocal key s m
        ((t.tables n).processQueryResponse s m) := processQueryResponse_conserves hm.action
      (hm.dest.trans (id_eq hn).symm) (hm.owner.imp_left And.left)
      fun kind r hr => (hs.held kind r hr).waits hn
    rwa [id_eq hn] at h
  revert hcons
  unfold processQueryResponse
  obtain ⟨hc, hsp⟩ | ⟨kind, hk, hmiss⟩ := hm.owner
  · rw [hc]
    intro hcons
    exact ⟨hs.result (List.forall_mem_singleton.mpr hsp), List.forall_mem_nil _,
      fun key _ => hcons key, rfl⟩
  rw [hk, MapKind.ofCounter_counter]
  dsimp only
  obtain ⟨-, hactive, hempty⟩ := addComponent_missing hmiss m.payload
  have hq : ((s.builder kind).addComponent m.payload m.messageID).2.isActive = true := by
    rw [hactive]
    by_contra hno
    obtain ⟨c, hc, -⟩ := hmiss
    rw [hs.idle kind (Bool.eq_false_iff.mpr hno)] at hc
    exact List.not_mem_nil hc
  intro hcons
  by_cases hlast : ((s.builder kind).addComponent m.payload m.messageID).1 = true
  · rw [if_pos hlast] at hcons ⊢
    obtain ⟨hsound, hsent⟩ := handled_requestors hn hs hq kind
    exact ⟨hsound, hsent, fun key _ => hcons key, rfl⟩
  · rw [if_neg hlast] at hcons ⊢
    rw [hempty, List.isEmpty_iff] at hlast
    exact ⟨hs.build hq fun _ => hlast, List.forall_mem_nil _, fun key _ => hcons key, rfl⟩

theorem Tracked.handled (hm : Tracked t asked n m) (hn : t.isBroker n)
    (hs : BrokerSound t asked n s)
    (hmiss : ∀ kind, m.action = .queryReply → m.destId = n → m.counter = MapKind.counter kind →
      ∃ c ∈ (s.builder kind).missingComponents, c.1 = m.messageID) :
    Handled t asked n s m ((t.tables n).processPriorityCommand s m) := by
  have h := hm.handling hn s
  generalize (t.tables n).processPriorityCommand s m = r at h
  cases h with
  | passed _ hl hm' =>
    exact ⟨hs, List.forall_mem_singleton.mpr ⟨_, hl, hm'⟩, fun _ _ => by unfold Conserves; rfl, rfl⟩
  | answered hk hp hlocal => exact handled_local hn hs hk hp hlocal
  | direct hk _ hlocal ha hc _ => exact handled_direct hn hs hk hlocal ha hc _
  | response ha hd hr =>
    exact handled_response hn hs
      ⟨ha, hd, hr.imp_right fun ⟨kind, hk⟩ => ⟨kind, hk, hmiss kind ha hd hk⟩⟩
  | stored ha =>
    refine ⟨⟨hs.held, hs.results, hs.idle, hs.busy⟩, List.forall_mem_nil _, fun key _ => ?_, rfl⟩
    have hkey : m.key ≠ some key := by
      unfold QueryMessage.key
      rw [ha]
      exact nofun
    have hzero : tally key [m] = 0 := by rw [tally_singleton, if_neg hkey]
    unfold Conserves
    rw [hzero]
    rfl

end QueryTree

end Helics
