import Helics.CoreBalance
import Helics.NetworkInvariant

namespace Helics

open InterfaceAction HandleType
open LinkNetwork (takeFirst total total_takeFirst total_append mem_of_takeFirst)

section
variable [DualMapped String GlobalId]

theorem BrokerOutcome.parks_nothing (h : BrokerOutcome t r n b m result)
    (hinner : b.isRootc = false) :
    result.1.unknownHandles = b.unknownHandles := by
  cases h with
  | refused | ended | dropped | passed => rfl
  | announced => exact (InterfaceBroker.joinFor_frame _ _).2.2.1
  | recorded _ hroot | linked _ _ hroot => cases hroot.symm.trans hinner
  | asked _ _ _ _ _ hc =>
    cases hc with
    | answered | passed => rfl
    | parked hroot => cases hroot.symm.trans hinner

namespace InterfaceNet

def weight (w : Weights) (t : Topology) (net : InterfaceNet) : Nat :=
  total (fun x => w.message x.2) net.flight + w.parked (net.brokers t.root).unknownHandles

variable {t : Topology} {r : Roster} {net net' : InterfaceNet} {w : Weights}

/-- What is handled by a core or broker is not lost, and nothing is added. -/
theorem Sound.handled_weight (hw : w.Fair r) (ht : t.IsTree) (hv : r.Valid t) (h : Sound t r net)
    (htake : takeFirst link net.flight = some (m, rest)) (htarget : target t link = some k)
    (hkeep : m.action.givesUp = none) :
    ({ net with flight := rest }.handleAt t k m).weight w t ≤ net.weight w t ∧
      (w.Carried → ({ net with flight := rest }.handleAt t k m).weight w t = net.weight w t) := by
  have hflight := total_takeFirst htake (fun x => w.message x.2)
  cases hk : t.isCore k with
  | true =>
    have hpasses := hw.coreCommand ht hv hk (h.wiredCore hk) hkeep
      (h.coreReceives hv htake htarget hk)
    have hnew : ({ net with flight := rest }.handleAt t k m).weight w t =
        total (fun x => w.message x.2) rest + w.emitted t k ((net.cores k).processCommand m).2 +
          w.parked (net.brokers t.root).unknownHandles := by
      rw [handleAt_core hk]
      unfold weight
      show total _ (rest ++ _) + _ = _
      rw [total_append]
      rfl
    rw [hnew]
    unfold weight
    rw [hflight]
    refine ⟨?_, fun hcarried => ?_⟩
    · have hle := hpasses.1
      dsimp only
      omega
    · rw [hpasses.2 hcarried]
      dsimp only
      omega
  | false =>
    have ho := h.brokerReceives hv htake htarget hk
    have hbalance := hw.brokerCommand hv (h.brokers hk) (h.wiredBroker hk) hkeep ho
    have hnew : ({ net with flight := rest }.handleAt t k m).weight w t = net.weight w t := by
      rw [handleAt_broker hk]
      unfold weight
      show total _ (rest ++ _) +
        w.parked (Function.update net.brokers k _ t.root).unknownHandles = _
      rw [total_append, hflight]
      dsimp only
      by_cases hroot : t.root = k
      · subst hroot
        rw [Function.update_self]
        have hsent : total (fun x => w.message x.2)
            (((net.brokers t.root).processCommand m).2.filterMap (emit t t.root)) =
          w.emitted t t.root ((net.brokers t.root).processCommand m).2 := rfl
        omega
      · rw [Function.update_of_ne hroot]
        have hinner : (net.brokers k).isRootc = false := by
          rw [(h.wiredBroker hk).root]
          exact decide_eq_false (fun heq => hroot heq.symm)
        rw [ho.parks_nothing hinner] at hbalance
        have hsent : total (fun x => w.message x.2)
            (((net.brokers k).processCommand m).2.filterMap (emit t k)) =
          w.emitted t k ((net.brokers k).processCommand m).2 := rfl
        omega
    exact ⟨hnew.le, fun _ => hnew⟩

theorem weight_enter (hflight : net'.flight = net.flight ++ [(l, m)])
    (hbrokers : net'.brokers = net.brokers) : net'.weight w t = net.weight w t + w.message m := by
  have hone : total (fun x : Link × InterfaceMessage => w.message x.2) [(l, m)] = w.message m := by
    rw [LinkNetwork.total_cons]
    rfl
  unfold weight
  rw [hflight, hbrokers, total_append, hone]
  omega

theorem weight_send (net : InterfaceNet) (l : Link) (m : InterfaceMessage) :
    (net.send [(l, m)]).weight w t = net.weight w t + w.message m :=
  weight_enter rfl rfl

theorem message_of_weight_zero (h : net.weight w t = 0)
    (htake : takeFirst link net.flight = some (m, rest)) : w.message m = 0 := by
  unfold weight at h
  rw [total_takeFirst htake] at h
  dsimp only at h
  omega

theorem Sound.informed_weight (h : Sound t r net)
    (htake : takeFirst (.federate f) net.flight = some (m, rest)) :
    ({ net with flight := rest }.handleFederate t f m).weight w t + w.message m =
      net.weight w t := by
  unfold weight
  rw [h.informed_flight htake, total_takeFirst htake]
  show _ + w.parked (net.brokers t.root).unknownHandles + _ = _
  dsimp only
  omega

end InterfaceNet

end

theorem HandleType.addPartner_inj {what what' : HandleType}
    (h : what.addPartner = what'.addPartner) :
    what = what' := by
  cases what <;> cases what' <;> first | rfl | cases h

theorem InterfaceAction.linksFirst_eq_none {a : InterfaceAction}
    (h : a.registers ≠ none ∨ a.isFor ≠ none) : a.linksFirst = none := by
  cases a with
  | cmdDataLink | cmdFilterLink => rcases h with h | h <;> exact absurd rfl h
  | _ => rfl

def Told (a b : HandleInfo) (m : InterfaceMessage) : Prop :=
  m.action = a.handleType.addPartner ∧ m.dest = a.handle ∧ m.source = b.handle

instance : Decidable (Told a b m) := inferInstanceAs (Decidable (_ ∧ _ ∧ _))

def RequestsPair (a b : HandleInfo) (what : HandleType) (u : UnknownTarget) : Prop :=
  what = b.handleType ∧ u.key = b.key ∧ u.target = a.handle ∨
    what = a.handleType ∧ u.key = a.key ∧ u.target = b.handle

instance : Decidable (RequestsPair a b what u) := inferInstanceAs (Decidable (_ ∨ _))

def LinksPair (a b : HandleInfo) (what : HandleType) (p : String × String) : Prop :=
  what = a.handleType ∧ p = (a.key, b.key) ∨ what = b.handleType ∧ p = (b.key, a.key)

instance : Decidable (LinksPair a b what p) := inferInstanceAs (Decidable (_ ∨ _))

/-- Counts the requests for a connection of two interfaces, and the commands by which the first one
is told of the second. -/
def pairWeights (a b : HandleInfo) : Weights where
  message m :=
    match m.action.asksFor, m.action.linksFirst with
    | some what, _ => if RequestsPair a b what ⟨m.name, m.source, m.flags⟩ then 1 else 0
    | none, some what => if LinksPair a b what (m.name, m.getString targetStringLoc) then 1 else 0
    | none, none => if Told a b m then 1 else 0
  request what u := if RequestsPair a b what u then 1 else 0
  link what p := if LinksPair a b what p then 1 else 0

section

variable {a b : HandleInfo} {m : InterfaceMessage}

theorem pairWeights_ask (h : m.action.asksFor = some what) : (pairWeights a b).message m =
      if RequestsPair a b what ⟨m.name, m.source, m.flags⟩ then 1 else 0 := by
  unfold pairWeights
  dsimp only
  rw [h]

theorem pairWeights_link (h : m.action.linksFirst = some what) : (pairWeights a b).message m =
      if LinksPair a b what (m.name, m.getString targetStringLoc) then 1 else 0 := by
  unfold pairWeights
  dsimp only
  rw [h, (of_linksFirst h).2.1]

theorem pairWeights_told (h : m.action.asksFor = none) (h' : m.action.linksFirst = none) :
    (pairWeights a b).message m = if Told a b m then 1 else 0 := by
  unfold pairWeights
  dsimp only
  rw [h, h']

theorem pairWeights_isFor (h : m.action.isFor = some what) :
    (pairWeights a b).message m = if Told a b m then 1 else 0 :=
  have hfor := h.trans_ne (Option.some_ne_none _)
  pairWeights_told (of_isFor hfor).2 (linksFirst_eq_none (.inr hfor))

theorem Roster.Valid.handle_iff {r : Roster} (hv : r.Valid t) (ha : r.Has a) (hb : r.Has b) :
    a.handle = b.handle ↔ a.handleType = b.handleType ∧ a.key = b.key := by
  constructor
  · intro h
    rw [hv.eq_of_handle ha hb h]
    exact ⟨rfl, rfl⟩
  · rintro ⟨htype, hkey⟩
    exact hv.unique ha hb htype hkey

variable {r : Roster} (hv : r.Valid t) (ha : r.Has a) (hb : r.Has b)
  (hpartner : b.handleType = a.handleType.partner)
include hv ha hb hpartner

theorem pairWeights_answered (flags : UInt16)
    (hconnects : Connects asker what info.handle first second) (hinfo : r.Has info)
    (htype : info.handleType = what) : (pairWeights a b).message first +
      (pairWeights a b).message second =
        (pairWeights a b).request what ⟨info.key, asker, flags⟩ := by
  have hwhat : what ≠ .unknown := by
    rw [← htype]
    exact hv.typed hinfo
  have hother : a.handleType ≠ b.handleType := by
    rw [hpartner]
    exact (partner_ne (hv.typed ha)).symm
  have hfor : first.action.isFor = some what := by
    rw [hconnects.first_action]
    exact isFor_addPartner hwhat
  have hfor' : second.action.isFor = some what.partner := by
    rw [hconnects.second_action]
    exact isFor_addPartner (partner_ne_unknown hwhat)
  rw [pairWeights_isFor hfor, pairWeights_isFor hfor']
  have hfirst : Told a b first ↔ what = a.handleType ∧ info.key = a.key ∧ asker = b.handle := by
    unfold Told
    rw [hconnects.first_action, hconnects.first_dest, hconnects.first_source,
      hv.handle_iff hinfo ha, htype]
    constructor
    · rintro ⟨_, ⟨hw, hkey⟩, hasker⟩
      exact ⟨hw, hkey, hasker⟩
    · rintro ⟨hw, hkey, hasker⟩
      exact ⟨by rw [hw], ⟨hw, hkey⟩, hasker⟩
  have hsecond : Told a b second ↔ what = b.handleType ∧ info.key = b.key ∧ asker = a.handle := by
    unfold Told
    rw [hconnects.second_action, hconnects.second_dest, hconnects.second_source,
      hv.handle_iff hinfo hb, htype]
    constructor
    · rintro ⟨_, hasker, hw, hkey⟩
      exact ⟨hw, hkey, hasker⟩
    · rintro ⟨hw, hkey, hasker⟩
      exact ⟨by rw [hw, hpartner, partner_partner], hasker, hw, hkey⟩
  show _ = if RequestsPair a b what ⟨info.key, asker, flags⟩ then 1 else 0
  have hrequest : RequestsPair a b what ⟨info.key, asker, flags⟩ ↔
      Told a b second ∨ Told a b first := by
    rw [hfirst, hsecond]
    rfl
  by_cases h₁ : Told a b first
  · have h₂ : ¬ Told a b second :=
      fun h => hother ((hfirst.mp h₁).1.symm.trans (hsecond.mp h).1)
    rw [if_pos h₁, if_neg h₂, if_pos (hrequest.mpr (.inr h₁))]
  · by_cases h₂ : Told a b second
    · rw [if_neg h₁, if_pos h₂, if_pos (hrequest.mpr (.inl h₂))]
    · rw [if_neg h₁, if_neg h₂, if_neg (fun h => (hrequest.mp h).elim h₂ h₁)]

/-- The weights of a pair do not depend on where and how its requests are answered. -/
theorem pairWeights_fair : (pairWeights a b).Fair r where
  registration := by
    intro m hkind
    obtain ⟨what, hwhat⟩ := Option.ne_none_iff_exists'.mp hkind
    obtain ⟨_, hask, hfor⟩ := of_registers hwhat
    rw [pairWeights_told hask (linksFirst_eq_none (.inl hkind)), if_neg]
    rintro ⟨hact, _⟩
    rw [hact, isFor_addPartner (hv.typed ha)] at hfor
    cases hfor
  ask := fun h => pairWeights_ask h
  link := fun h => pairWeights_link h
  answered := fun flags hconnects hinfo htype =>
    pairWeights_answered hv ha hb hpartner flags hconnects hinfo htype
  linkFirst := by
    intro what info name flags hinfo htype _
    show (if LinksPair a b what (info.key, name) then 1 else 0) =
      if RequestsPair a b what.partner ⟨name, info.handle, flags⟩ then 1 else 0
    refine if_congr ?_ rfl rfl
    unfold LinksPair RequestsPair
    rw [hv.handle_iff hinfo ha, hv.handle_iff hinfo hb, htype, Prod.mk.injEq, Prod.mk.injEq]
    constructor
    · rintro (⟨hw, hkey, hname⟩ | ⟨hw, hkey, hname⟩)
      · exact .inl ⟨by rw [hw, hpartner], hname, hw, hkey⟩
      · exact .inr ⟨by rw [hw, hpartner, partner_partner], hname, hw, hkey⟩
    · rintro (⟨_, hname, hw, hkey⟩ | ⟨_, hname, hw, hkey⟩)
      · exact .inl ⟨hw, hkey, hname⟩
      · exact .inr ⟨hw, hkey, hname⟩
  linkSecond := by
    intro what info name flags hinfo htype _
    show (if LinksPair a b what (name, info.key) then 1 else 0) =
      if RequestsPair a b what ⟨name, info.handle, flags⟩ then 1 else 0
    refine if_congr ?_ rfl rfl
    unfold LinksPair RequestsPair
    rw [hv.handle_iff hinfo ha, hv.handle_iff hinfo hb, htype, Prod.mk.injEq, Prod.mk.injEq]
    constructor
    · rintro (⟨hw, hname, hkey⟩ | ⟨hw, hname, hkey⟩)
      · exact .inr ⟨hw, hname, by rw [hw, hpartner], hkey⟩
      · exact .inl ⟨hw, hname, by rw [hw, hpartner, partner_partner], hkey⟩
    · rintro (⟨hw, hname, _, hkey⟩ | ⟨hw, hname, _, hkey⟩)
      · exact .inr ⟨hw, hname, hkey⟩
      · exact .inl ⟨hw, hname, hkey⟩

end

theorem pairWeights_carried (b : HandleInfo)
    (hdata : a.handleType = .publication ∨ a.handleType = .input) : (pairWeights a b).Carried := by
  intro m hkind
  have htold : ∀ what, m.action.isFor = some what → what ≠ a.handleType →
      (pairWeights a b).message m = 0 := by
    intro what hfor hne
    rw [pairWeights_isFor hfor, if_neg]
    rintro ⟨hact, _⟩
    rw [hact, isFor_addPartner (by rcases hdata with h | h <;> rw [h] <;> exact nofun)] at hfor
    exact hne (Option.some.inj hfor).symm
  rcases hkind with hfor | hfor
  · exact htold _ hfor (by rcases hdata with h | h <;> rw [h] <;> exact nofun)
  · exact htold _ hfor (by rcases hdata with h | h <;> rw [h] <;> exact nofun)

def InterfaceAction.removes : InterfaceAction → Bool
  | .cmdRemoveNamedPublication | .cmdRemoveNamedInput | .cmdRemoveNamedEndpoint
  | .cmdRemoveNamedFilter | .cmdRemoveSubscriber | .cmdRemovePublication | .cmdRemoveEndpoint
  | .cmdRemoveFilter => true
  | _ => false

variable {a : InterfaceAction}

theorem InterfaceAction.removes_eq_false
    (h : a.registers ≠ none ∨ a.asksFor ≠ none ∨ a.linksFirst ≠ none) : a.removes = false := by
  cases a <;> first | rfl | (rcases h with h | h | h <;> exact absurd rfl h)

theorem InterfaceAction.removes_of_givesUp (h : a.givesUp = some what) : a.removes = true := by
  cases a <;> first | rfl | cases h

theorem InterfaceAction.eq_addPartner (h : a.removes = false)
    (hfor : a.isFor = some what) : a = what.addPartner := by
  cases a <;> cases h <;> cases hfor <;> rfl

def removalWeights : Weights where
  message m := if m.action.removes then 1 else 0
  request _ _ := 0
  link _ _ := 0

theorem removalWeights_fair (r : Roster) : removalWeights.Fair r where
  registration := by
    intro m hkind
    apply if_neg
    rw [removes_eq_false (.inl hkind)]
    exact Bool.false_ne_true
  ask := by
    intro m what hkind
    apply if_neg
    rw [removes_eq_false (.inr (.inl (hkind.trans_ne (Option.some_ne_none _))))]
    exact Bool.false_ne_true
  link := by
    intro m what hkind
    apply if_neg
    rw [removes_eq_false (.inr (.inr (hkind.trans_ne (Option.some_ne_none _))))]
    exact Bool.false_ne_true
  answered := by
    intro asker what info first second flags hconnects hinfo htype
    have hadd : ∀ k : HandleType, k.addPartner.removes = false := by
      intro k
      cases k <;> rfl
    show (if first.action.removes then 1 else 0) + (if second.action.removes then 1 else 0) = 0
    rw [hconnects.first_action, hconnects.second_action, hadd, hadd]
    rfl
  linkFirst := fun _ _ _ _ _ => rfl
  linkSecond := fun _ _ _ _ _ => rfl

end Helics
