import Helics.QueryNames

namespace Helics

open BrokerTables

namespace QueryTree

open BrokerTables

variable {t : QueryTree}

def first (t : QueryTree) (u : GlobalId) (target : QueryTarget) :
    Option (QueryOutlet × QueryMessage) :=
  ((t.tables u).query {} (t.text target) "").map Prod.snd

theorem query_eq (b : BrokerTables) (s : QueryState) (target request : String) :
    b.query s target request = (b.query {} target "").map fun r =>
      ({ s with queryCounter := s.queryCounter + 1 }, r.2.1,
        { r.2.2 with messageID := s.queryCounter + 1, payload := request }) := by
  unfold query
  dsimp only
  split
  · rfl
  · split
    · split <;> rfl
    · split <;> rfl

structure UserQuery (b : BrokerTables) (m : QueryMessage) : Prop where
  action : m.action = .brokerQuery ∨ m.action = .query
  source : m.sourceId = b.globalBrokerIdLocal
  counter : m.counter = 0
  dest : m.destId = parentBrokerId ∨ m.destId = b.globalBrokerIdLocal ∧ m.action = .brokerQuery

theorem query_user (h : b.query s target request = some (s', out, m)) : UserQuery b m := by
  unfold query at h
  dsimp only at h
  split at h
  · cases h
    exact ⟨.inl rfl, rfl, rfl, .inr ⟨rfl, rfl⟩⟩
  split at h
  · split at h
    · cases h
    · cases h
      exact ⟨.inl rfl, rfl, rfl, .inl rfl⟩
  split at h
  · cases h
    exact ⟨.inl rfl, rfl, rfl, .inl rfl⟩
  · cases h
    exact ⟨.inr rfl, rfl, rfl, .inl rfl⟩

theorem first_user (h : t.first u target = some (out, m)) : UserQuery (t.tables u) m := by
  obtain ⟨⟨s', r⟩, hr, heq⟩ := Option.map_eq_some_iff.mp h
  cases heq
  exact query_user hr

/-- The message of a query to a target is kept by the node `a`. -/
def Answers (t : QueryTree) (u : GlobalId) (target : QueryTarget) (a : GlobalId)
    (m : QueryMessage) : Prop :=
  ∃ out k, t.first u target = some (out, m) ∧ Heads t m (t.endOf (outlet u out)) a k

theorem Answers.unique (h : t.Answers u target a m) (h' : t.Answers u target a' m') :
    a = a' ∧ m = m' := by
  obtain ⟨out, k, hf, hh⟩ := h
  obtain ⟨out', k', hf', hh'⟩ := h'
  cases hf.symm.trans hf'
  exact ⟨(hh.unique hh').1, rfl⟩

theorem first_isBroker (hu : t.isBroker u) (h : t.first u target = some (out, m)) :
    t.isBroker (t.endOf (outlet u out)) := by
  cases out with
  | ownQueue => exact hu
  | parent =>
    refine parent_isBroker (isBroker_iff.mp hu).1 fun hr => ?_
    have hroot := (isRootc_iff hu).mpr hr
    obtain ⟨r, hq, heq⟩ := Option.map_eq_some_iff.mp h
    unfold query at hq
    dsimp only at hq
    rw [hroot] at hq
    split at hq
    · cases hq
      cases heq
    split at hq
    · cases hq
    split at hq
    · cases hq
      cases heq
    · cases hq
      cases heq

theorem heads_brokerQuery (hu : t.isBroker u) (hm : UserQuery (t.tables u) m)
    (ha : m.action = .brokerQuery) (hn : t.isBroker n) : ∃ a k, t.isBroker a ∧ Heads t m n a k := by
  obtain hd | ⟨hd, -⟩ := hm.dest
  · obtain ⟨k, hk⟩ := heads_placeholder ha hd hn
    exact ⟨t.root, k, t.root_isBroker, hk⟩
  · rw [id_eq hu] at hd
    obtain ⟨k, hk⟩ := heads_dest ha (hd ▸ (isBroker_iff.mp hu).1) hn
    exact ⟨m.destId, k, hd ▸ hu, hk⟩

theorem Answers.core (h : t.Answers u target a m) (hu : t.isBroker u) (hc : t.isCore a = true) :
    m.action = .query ∧ m.destId = parentBrokerId := by
  obtain ⟨out, k, hf, hh⟩ := h
  have hm := first_user hf
  have ha : m.action = .query := by
    obtain ha | ha := hm.action
    · obtain ⟨a', k', hb, hh'⟩ := heads_brokerQuery hu hm ha (first_isBroker hu hf)
      obtain ⟨rfl, -⟩ := hh.unique hh'
      exact absurd hc (not_isCore hb)
    · exact ha
  refine ⟨ha, ?_⟩
  obtain hd | ⟨-, hb⟩ := hm.dest
  · exact hd
  · rw [ha] at hb
    cases hb

def named (t : QueryTree) (u : GlobalId) : QueryTarget → GlobalId
  | .root => t.root
  | .global => t.root
  | .parent => t.parent u
  | .identifier v => v

def asksAt (t : QueryTree) (u : GlobalId) : GlobalId := if u = t.root then t.root else t.parent u

def Reaches (t : QueryTree) (u : GlobalId) : QueryTarget → Prop
  | .root => True
  | .global => u = t.root ∨ t.parent u = t.root
  | .parent => t.parent u = t.root
  | .identifier v => u = v ∨ (t.tables v).identifier ≠ "broker" ∧
      if (t.tables v).identifier = "rootbroker" then v = t.root else Straight t v (t.asksAt u)

theorem asksAt_isBroker (hu : t.isBroker u) : t.isBroker (t.asksAt u) := by
  unfold asksAt
  split
  · exact t.root_isBroker
  · rename_i hr
    exact parent_isBroker (isBroker_iff.mp hu).1 hr

theorem asksAt_eq_root : t.asksAt u = t.root ↔ u = t.root ∨ t.parent u = t.root := by
  unfold asksAt
  split
  · rename_i hr
    exact iff_of_true rfl (.inl hr)
  · rename_i hr
    exact (or_iff_right hr).symm

theorem endOf_outlet (hu : t.isBroker u) :
    t.endOf (outlet u (if (t.tables u).isRootc then .ownQueue else .parent)) = t.asksAt u := by
  unfold asksAt
  by_cases hr : u = t.root
  · rw [if_pos hr, if_pos ((isRootc_iff hu).mpr hr)]
    exact hr
  · rw [if_neg hr, if_neg fun h => hr ((isRootc_iff hu).mp h)]
    rfl

/-- The node that answers a query, and whether it does so with its query function. -/
structure Outcome (t : QueryTree) (u : GlobalId) (target : QueryTarget) (a : GlobalId)
    (m : QueryMessage) : Prop where
  answers : t.Answers u target a m
  reaches : a = t.named u target ↔ t.Reaches u target
  locally : a = t.named u target → ((t.tables a).isLocal m ↔ target ≠ .global)

theorem outcome_placeholder (hf : t.first u target = some (out, m))
    (hn : t.endOf (outlet u out) = n) (hb : t.isBroker n)
    (ha : m.action = .brokerQuery) (hd : m.destId = parentBrokerId) (ht : target ≠ .global)
    (hr : t.root = t.named u target ↔ t.Reaches u target) : Outcome t u target t.root m := by
  obtain ⟨k, hk⟩ := heads_placeholder ha hd hb
  exact ⟨⟨out, k, hf, hn.symm ▸ hk⟩, hr, fun _ => iff_of_true (.inl ha) ht⟩

section
variable (hu : t.isBroker u)
include hu

theorem outcome_root : ∃ m, Outcome t u .root t.root m := by
  obtain ⟨hroot, -, -⟩ := t.plain u (isBroker_iff.mp hu).1 (isBroker_iff.mp hu).2
  have hf : t.first u .root = some (if (t.tables u).isRootc then .ownQueue else .parent, {
      action := .brokerQuery, sourceId := (t.tables u).globalBrokerIdLocal, messageID := 1 }) := by
    unfold first query text
    dsimp only
    rw [if_neg (by simpa using Ne.symm hroot), if_neg (by decide), if_pos (.inl rfl)]
    rfl
  exact ⟨_, outcome_placeholder hf (endOf_outlet hu) (asksAt_isBroker hu) rfl rfl nofun
    (iff_of_true rfl trivial)⟩

theorem outcome_parent (hr : u ≠ t.root) : ∃ m, Outcome t u .parent t.root m := by
  obtain ⟨-, -, hparent⟩ := t.plain u (isBroker_iff.mp hu).1 (isBroker_iff.mp hu).2
  have hf : t.first u .parent = some (.ownQueue, {
      action := .brokerQuery, sourceId := (t.tables u).globalBrokerIdLocal, messageID := 1 }) := by
    unfold first query text
    rw [if_neg (by simpa using Ne.symm hparent), if_pos rfl,
      if_neg fun h => hr ((isRootc_iff hu).mp h)]
    rfl
  exact ⟨_, outcome_placeholder hf rfl hu rfl rfl nofun eq_comm⟩

theorem first_parent_root (hr : u = t.root) : t.first u .parent = none := by
  obtain ⟨-, -, hparent⟩ := t.plain u (isBroker_iff.mp hu).1 (isBroker_iff.mp hu).2
  unfold first query text
  rw [if_neg (by simpa using Ne.symm hparent), if_pos rfl, if_pos ((isRootc_iff hu).mpr hr)]
  rfl

theorem first_global :
    t.first u .global = some (if (t.tables u).isRootc then .ownQueue else .parent, {
      action := .query, sourceId := (t.tables u).globalBrokerIdLocal, messageID := 1,
      target := "global" }) := by
  obtain ⟨-, hglobal, -⟩ := t.plain u (isBroker_iff.mp hu).1 (isBroker_iff.mp hu).2
  unfold first query text
  dsimp only
  rw [if_neg (by simpa using Ne.symm hglobal), if_neg (by decide), if_neg (by decide)]
  rfl

theorem outcome_global : ∃ m, Outcome t u .global (t.asksAt u) m := by
  have hf := first_global hu
  have hs := asksAt_isBroker hu
  refine ⟨_, ⟨_, 0, hf, (endOf_outlet hu).symm ▸ .here hs ?_⟩, asksAt_eq_root, fun _ => ?_⟩
  · exact if_pos (.inr (.inr (.inr (.inl rfl))))
  · refine iff_of_false ?_ (fun h => h rfl)
    obtain ⟨-, hname, -⟩ := t.plain _ (isBroker_iff.mp hs).1 (isBroker_iff.mp hs).2
    rintro (h | ⟨-, h | h | ⟨-, h | h⟩⟩)
    · cases h
    · exact hname h.symm
    all_goals
      dsimp only at h
      exact absurd h (by decide)

theorem outcome_identifier (hv : t.isBroker v) : ∃ a m, Outcome t u (.identifier v) a m := by
  obtain ⟨hroot, -, hparent⟩ := t.plain v (isBroker_iff.mp hv).1 (isBroker_iff.mp hv).2
  by_cases hown : (t.tables v).identifier = "broker" ∨
      (t.tables v).identifier = (t.tables u).identifier
  · -- the broker asks itself
    have hf : t.first u (.identifier v) = some (.ownQueue, {
        action := .brokerQuery, sourceId := (t.tables u).globalBrokerIdLocal, messageID := 1,
        destId := (t.tables u).globalBrokerIdLocal }) := by
      unfold first query text
      rw [if_pos hown]
      rfl
    refine ⟨u, _, ⟨_, 0, hf, .here hu (if_pos (.inl rfl))⟩, ?_,
      fun _ => iff_of_true (.inl rfl) nofun⟩
    refine ⟨.inl, ?_⟩
    rintro (heq | ⟨hb, -⟩)
    · exact heq
    · by_contra hne
      exact identifier_ne hu hv hne (hown.resolve_left hb)
  · obtain ⟨hb, hid⟩ := not_or.mp hown
    have hne : u ≠ v := by
      rintro rfl
      exact hid rfl
    by_cases hrb : (t.tables v).identifier = "rootbroker"
    · have hf : t.first u (.identifier v) = some
          (if (t.tables u).isRootc then .ownQueue else .parent, {
          action := .brokerQuery, sourceId := (t.tables u).globalBrokerIdLocal,
          messageID := 1 }) := by
        unfold first query text
        rw [if_neg hown, if_neg hparent, if_pos (.inr hrb)]
        rfl
      refine ⟨t.root, _, outcome_placeholder hf (endOf_outlet hu) (asksAt_isBroker hu) rfl rfl
        nofun ?_⟩
      dsimp only [named, Reaches]
      rw [if_pos hrb]
      exact ⟨fun h => .inr ⟨hb, h.symm⟩, fun h => (h.resolve_left hne).2.symm⟩
    · have hf : t.first u (.identifier v) = some
          (if (t.tables u).isRootc then .ownQueue else .parent, {
          action := .query, sourceId := (t.tables u).globalBrokerIdLocal,
          messageID := 1, target := (t.tables v).identifier }) := by
        unfold first query text
        rw [if_neg hown, if_neg hparent, if_neg (not_or.mpr ⟨hroot, hrb⟩)]
        rfl
      generalize hm : ({
          action := .query, sourceId := (t.tables u).globalBrokerIdLocal,
          messageID := 1, target := (t.tables v).identifier } : QueryMessage) = m at hf
      have hnames : t.Names v m := by
        subst hm
        exact ⟨hv, rfl, rfl, hb⟩
      have hreach : t.Reaches u (.identifier v) ↔ Straight t v (t.asksAt u) := by
        dsimp only [Reaches]
        rw [if_neg hrb]
        exact ⟨fun h => (h.resolve_left hne).2, fun h => .inr ⟨hb, h⟩⟩
      by_cases hs : Straight t v (t.asksAt u)
      · obtain ⟨k, hk⟩ := hnames.heads_straight hs (asksAt_isBroker hu)
        exact ⟨v, m, ⟨_, k, hf, (endOf_outlet hu).symm ▸ hk⟩, iff_of_true rfl (hreach.mpr hs),
          fun _ => iff_of_true (.inr ⟨hnames.action, .inl hnames.target⟩) nofun⟩
      · obtain ⟨a, k, ha, hk⟩ := hnames.heads_astray (asksAt_isBroker hu) hs
        exact ⟨a, m, ⟨_, k, hf, (endOf_outlet hu).symm ▸ hk⟩,
          iff_of_false ha fun h => hs (hreach.mp h), fun h => absurd h ha⟩

theorem outcome (ht : t.valid target = true)
    (hf : t.first u target ≠ none) : ∃ a m, Outcome t u target a m := by
  cases target with
  | root => exact ⟨_, outcome_root hu⟩
  | global => exact ⟨_, outcome_global hu⟩
  | parent => exact ⟨_, outcome_parent hu fun hr => hf (first_parent_root hu hr)⟩
  | identifier v => exact outcome_identifier hu ht

end

end QueryTree

end Helics
