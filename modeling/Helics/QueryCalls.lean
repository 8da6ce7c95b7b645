import Helics.QueryRuns

namespace Helics

open LinkNetwork (takeFirst)

namespace QueryTree

open BrokerTables QueryState

variable {t : QueryTree}

theorem Spoken.was_asked {id : Int} (h : t.Spoken asked u id src) :
    ∃ target request, (id, target, request) ∈ asked u := by
  obtain ⟨target, request, _, _, hq, -⟩ := h
  exact ⟨target, request, hq⟩

theorem Tracked.was_asked {id : Int} (h : Tracked t asked n m) (hk : m.key = some (u, 0, id)) :
    ∃ target request, (id, target, request) ∈ asked u := by
  have hquery (hq : m.action = .brokerQuery ∨ m.action = .query) :
      ∃ target request, (id, target, request) ∈ asked u := by
    obtain ⟨rfl, hz, rfl⟩ := QueryMessage.key_inj ((QueryMessage.key_query hq).symm.trans hk)
    obtain ⟨-, -, target, a, m₀, k, hasked, -⟩ | ⟨-, -, -, kind, k, hc, -⟩ := h.query hq
    · exact ⟨_, _, hasked⟩
    · exact absurd (hc.symm.trans hz) kind.counter_ne_zero
  cases h with
  | user _ _ _ ha hal _ => exact hquery (by rw [hal.action]; exact ha.query)
  | map ha _ _ _ _ _ => exact hquery (.inl ha)
  | reply ha hb hr hh =>
    obtain ⟨rfl, hz, rfl⟩ := QueryMessage.key_inj ((QueryMessage.key_reply ha).symm.trans hk)
    obtain ⟨-, hsp⟩ | ⟨kind, hc⟩ := hr
    · exact hsp.was_asked
    · exact absurd (hc.symm.trans hz) kind.counter_ne_zero
  | global ha hh =>
    unfold QueryMessage.key at hk
    rw [ha] at hk
    cases hk

theorem Held.was_asked {id : Int} (h : Held t asked n r) (hk : r.key = some (u, 0, id)) :
    ∃ target request, (id, target, request) ∈ asked u := by
  obtain ⟨rfl, hz, rfl⟩ := QueryMessage.key_inj ((QueryMessage.key_reply h.action).symm.trans hk)
  obtain ⟨-, hsp⟩ | ⟨kind, hc, -⟩ := h.owner
  · exact hsp.was_asked
  · exact absurd (hc.symm.trans hz) kind.counter_ne_zero

theorem Sound.fresh (hs : Sound t net) (hu : t.isBroker u) {id : Int}
    (hq : ∀ target request, (id, target, request) ∉ net.asked u) :
    t.count (u, 0, id) net = 0 ∧ got u (u, 0, id) (net.states u) = 0 := by
  have hno : ¬ ∃ target request, (id, target, request) ∈ net.asked u := fun ⟨target, request, h⟩ =>
    hq target request h
  refine ⟨Nat.add_eq_zero_iff.mpr ⟨tally_eq_zero fun m hm hk => ?_,
    Finset.sum_eq_zero fun n _ => ?_⟩, ?_⟩
  · obtain ⟨x, hx, rfl⟩ := List.mem_map.mp hm
    exact hno ((hs.flight x hx).was_asked hk)
  · by_cases hn : t.isBroker n
    · exact Nat.add_eq_zero_iff.mpr
        ⟨tally_eq_zero fun r hr hk => hno (((hs.brokers n hn).held _ r hr).was_asked hk),
          tally_eq_zero fun r hr hk => hno (((hs.brokers n hn).held _ r hr).was_asked hk)⟩
    · rw [(hs.others n hn).1]
      rfl
  · unfold got
    rw [if_pos ⟨rfl, rfl⟩, List.countP_eq_zero]
    intro r hr heq
    have heq : r.messageID = id := by simpa using heq
    exact hno (heq ▸ ((hs.brokers u hu).results r hr).was_asked)

def asking (net : QueryNet) (u : GlobalId) (target : QueryTarget) (request : String)
    (out : QueryOutlet) (m : QueryMessage) : QueryNet :=
  { states := Function.update net.states u
      { net.states u with queryCounter := (net.states u).queryCounter + 1 }
    asked := Function.update net.asked u (net.asked u ++ [(m.messageID, target, request)])
    flight := net.flight ++ [(outlet u out, m)] }

theorem step_query (h : t.step net (.query u target request) = some net') :
    t.isBroker u ∧ t.valid target = true ∧ ∃ out m₀, t.first u target = some (out, m₀) ∧
      net' = asking net u target request out
        { m₀ with messageID := (net.states u).queryCounter + 1, payload := request } := by
  unfold QueryTree.step at h
  dsimp only at h
  split at h
  · rename_i hvalid
    obtain ⟨hu, hvalid⟩ := Bool.and_eq_true_iff.mp hvalid
    rw [query_eq, Option.map_map] at h
    obtain ⟨⟨s₀, out, m₀⟩, hq, rfl⟩ := Option.map_eq_some_iff.mp h
    refine ⟨hu, hvalid, out, m₀, ?_, rfl⟩
    unfold first
    rw [hq]
    rfl
  · cases h

theorem askedMore_asking : AskedMore net.asked (asking net u target request out m).asked := by
  intro v q hq
  unfold asking
  dsimp only
  by_cases heq : v = u
  · subst heq
    rw [Function.update_self]
    exact List.mem_append_left _ hq
  · rw [Function.update_of_ne heq]
    exact hq

theorem mem_asking (h : q ∈ (asking net u target request out m).asked v) :
    q ∈ net.asked v ∨ v = u ∧ q = (m.messageID, target, request) := by
  unfold asking at h
  dsimp only at h
  by_cases heq : v = u
  · subst heq
    rw [Function.update_self] at h
    obtain h | h := List.mem_append.mp h
    · exact .inl h
    · exact .inr ⟨rfl, List.mem_singleton.mp h⟩
  · rw [Function.update_of_ne heq] at h
    exact .inl h

theorem Sound.asked_before (hs : Sound t net) {id : Int}
    (hm : m.messageID = (net.states u).queryCounter + 1)
    (hq : (id, target', request') ∈ (asking net u target request out m).asked v)
    (hold : ∃ target request, (id, target, request) ∈ net.asked v) :
    (id, target', request') ∈ net.asked v := by
  obtain hq | ⟨rfl, heq⟩ := mem_asking hq
  · exact hq
  obtain ⟨target, request, hold⟩ := hold
  have hle : id ≤ (net.states v).queryCounter := hs.numbers v _ hold
  have hid : id = m.messageID := congrArg Prod.fst heq
  omega

theorem states_asking (net : QueryNet) (u : GlobalId) (target : QueryTarget) (request : String)
    (out : QueryOutlet) (m : QueryMessage) (n : GlobalId) :
    ∃ c, (asking net u target request out m).states n = { net.states n with queryCounter := c } ∧
      (net.states n).queryCounter ≤ c ∧ (n = u → c = (net.states n).queryCounter + 1) := by
  unfold asking
  dsimp only
  by_cases heq : n = u
  · subst heq
    rw [Function.update_self]
    exact ⟨_, rfl, by omega, fun _ => rfl⟩
  · rw [Function.update_of_ne heq]
    exact ⟨_, rfl, le_refl _, fun h => absurd h heq⟩

theorem count_asking (net : QueryNet) (u : GlobalId) (target : QueryTarget) (request : String)
    (out : QueryOutlet) (m : QueryMessage) (key : QueryKey) :
    t.count key (asking net u target request out m) = t.count key net + tally key [m] := by
  have hsum : ∑ n ∈ t.nodes, waiting key ((asking net u target request out m).states n) =
      ∑ n ∈ t.nodes, waiting key (net.states n) := by
    refine Finset.sum_congr rfl fun n _ => ?_
    obtain ⟨c, heq, -⟩ := states_asking net u target request out m n
    rw [heq]
    rfl
  unfold count
  rw [hsum]
  unfold asking
  rw [List.map_append, tally_append, List.map_singleton]
  exact Nat.add_right_comm _ _ _

section
variable {m : QueryMessage} (hs : Sound t net)
  (hnew : ∀ target request, (m.messageID, target, request) ∉ net.asked u)
include hs hnew

theorem Sound.once_asking (v : GlobalId) :
    ((asking net u target request out m).asked v).Pairwise fun q q' => q.1 ≠ q'.1 := by
  unfold asking
  dsimp only
  by_cases heq : v = u
  · subst heq
    rw [Function.update_self]
    refine List.pairwise_append.mpr ⟨hs.once v, List.pairwise_singleton _ _, ?_⟩
    rintro ⟨j, target', request'⟩ hq q' hq' heq
    obtain rfl := List.mem_singleton.mp hq'
    obtain rfl : j = m.messageID := heq
    exact hnew target' request' hq
  · rw [Function.update_of_ne heq]
    exact hs.once v

theorem Sound.users_asking (hu : t.isBroker u) (hkey : m.key = some (u, 0, m.messageID))
    (hq : (j, target', request') ∈ (asking net u target request out m).asked v)
    (ha : t.Answers v target' a m') (haud : t.Audible a m' request') :
    t.count (v, 0, j) (asking net u target request out m) +
      got v (v, 0, j) ((asking net u target request out m).states v) = 1 := by
  obtain ⟨c, heq, -⟩ := states_asking net u target request out m v
  rw [heq, count_asking, tally_of_key hkey]
  obtain hq | ⟨rfl, hlast⟩ := mem_asking hq
  · have hne : ((v, 0, j) : QueryKey) ≠ (u, 0, m.messageID) := by
      intro h
      cases h
      exact hnew _ _ hq
    rw [if_neg hne]
    exact hs.users v j target' request' a m' hq ha haud
  · obtain rfl : j = m.messageID := congrArg Prod.fst hlast
    obtain ⟨hcount, hgot⟩ := hs.fresh hu hnew
    rw [if_pos rfl, hcount]
    unfold got at hgot ⊢
    rw [hgot]

end

theorem Sound.query (hs : Sound t net) (h : t.step net (.query u target request) = some net') :
    Sound t net' := by
  obtain ⟨hu, hvalid, out, m₀, hfirst, rfl⟩ := step_query h
  obtain ⟨a, m₁, hout⟩ := outcome hu hvalid (by rw [hfirst]; exact nofun)
  obtain ⟨out', k, hf', hh⟩ := id hout.answers
  cases hfirst.symm.trans hf'
  have huser := first_user hfirst
  have hsrc : m₀.sourceId = u := huser.source.trans (id_eq hu)
  generalize hm : ({ m₀ with messageID := (net.states u).queryCounter + 1, payload := request } :
    QueryMessage) = m
  have hmid : m.messageID = (net.states u).queryCounter + 1 := by rw [← hm]
  have hkey : m.key = some (u, 0, m.messageID) := by
    have hact : m.action = .brokerQuery ∨ m.action = .query := by
      rw [← hm]
      exact huser.action
    rw [QueryMessage.key_query hact, ← hm, ← hsrc, ← huser.counter]
  have hnew : ∀ target request, (m.messageID, target, request) ∉ net.asked u := by
    intro target request hq
    have hle : m.messageID ≤ (net.states u).queryCounter := hs.numbers u _ hq
    omega
  have hmore : AskedMore net.asked (asking net u target request out m).asked := askedMore_asking
  refine ⟨fun x hx => ?_, fun n hn => ?_, fun n hn => ?_, fun v q hq => ?_, hs.once_asking hnew,
    fun _ _ _ _ _ _ => hs.users_asking hnew hu hkey, ?_⟩
  · obtain hx | hx := List.mem_append.mp hx
    · exact (hs.flight x hx).mono hmore
    obtain rfl := List.mem_singleton.mp hx
    have hin : (m.messageID, target, request) ∈ (asking net u target request out m).asked u := by
      unfold asking
      dsimp only
      rw [Function.update_self]
      exact List.mem_append_right _ (List.mem_singleton.mpr rfl)
    subst hm
    have hans : t.Answers m₀.sourceId target a m₀ := hsrc.symm ▸ hout.answers
    exact .user (hsrc.symm ▸ hu) huser.counter (hsrc.symm ▸ hin) hans ⟨rfl, rfl, rfl⟩
      (hh.congr rfl rfl rfl)
  · obtain ⟨c, heq, -⟩ := states_asking net u target request out m n
    rw [heq]
    have hb := (hs.brokers n hn).mono hmore
    exact ⟨hb.held, hb.results, hb.idle, hb.busy⟩
  · have hne : n ≠ u := by
      rintro rfl
      exact hn hu
    unfold asking
    dsimp only
    rw [Function.update_of_ne hne, Function.update_of_ne hne]
    exact hs.others n hn
  · obtain ⟨c, heq, hle, hc⟩ := states_asking net u target request out m v
    rw [heq]
    obtain hq | ⟨rfl, rfl⟩ := mem_asking hq
    · exact (hs.numbers v q hq).trans hle
    · rw [hc rfl, hmid]
  · intro n kind j hn
    obtain ⟨c, heq, -⟩ := states_asking net u target request out m n
    have hne : ((n, kind.counter, j) : QueryKey) ≠ (u, 0, m.messageID) := by
      intro h
      exact kind.counter_ne_zero (congrArg (fun key : QueryKey => key.2.1) h)
    rw [heq, count_asking, tally_of_key hkey, if_neg hne]
    exact hs.maps n kind j hn

theorem Sound.step (hs : Sound t net) (h : t.step net e = some net') : Sound t net' := by
  cases e with
  | query u target request => exact hs.query h
  | setGlobal u name value => exact hs.setGlobal h
  | deliver link => exact hs.deliver h

end QueryTree

end Helics
