import Helics.RunHistory
import Helics.TwoLevels

namespace Helics

open InterfaceAction NetEvent

open LinkNetwork (takeFirst total total_takeFirst mem_of_takeFirst)
open Invariants (Run)

namespace NetEvent

/-- The event requests a connection of the publication and the input: the input asks for the name of
the publication, the publication for the name of the input, or a link gives both names. -/
def requests (t : Topology) (pub inp : HandleInfo) : NetEvent → Bool
  | .addSourceTarget core handle target =>
    decide (t.home inp.handle.fedId = some core ∧ handle = inp.handle.handle ∧ target = pub.key)
  | .addDestinationTarget core handle target =>
    decide (t.home pub.handle.fedId = some core ∧ handle = pub.handle.handle ∧ target = inp.key)
  | .dataLink _ source target => decide (source = pub.key ∧ target = inp.key)
  | _ => false

def Keeps : NetEvent → Prop
  | .removeTarget _ _ _ => False
  | _ => True

instance : DecidablePred Keeps
  | .removeTarget .. => isFalse id
  | .register .. | .registerFilter .. | .addSourceTarget .. | .addDestinationTarget ..
  | .dataLink .. | .filterLink .. | .deliver _ => isTrue trivial

end NetEvent

namespace InterfaceNet

theorem requestsPair_comm (a b : HandleInfo) (what : HandleType) (u : UnknownTarget) :
    RequestsPair a b what u ↔ RequestsPair b a what u := or_comm

theorem linksPair_comm (a b : HandleInfo) (what : HandleType) (p : String × String) :
    LinksPair a b what p ↔ LinksPair b a what p := or_comm

theorem parked_pair_zero
    (hrequests : ∀ x ∈ [a, b], ∀ v ∈ u.requests x.handleType, v.key ≠ x.key)
    (hlinks : ∀ x ∈ [a, b], ∀ p ∈ u.links x.handleType, p.1 ≠ x.key) :
    (pairWeights a b).parked u = 0 := by
  have hfor : ∀ k, (pairWeights a b).parkedFor u k = 0 := by
    intro k
    have hreq : ∀ v ∈ u.requests k, (pairWeights a b).request k v = 0 := by
      intro v hv
      apply if_neg
      rintro (⟨rfl, hkey, _⟩ | ⟨rfl, hkey, _⟩)
      · exact hrequests b (List.mem_cons_of_mem _ List.mem_cons_self) v hv hkey
      · exact hrequests a List.mem_cons_self v hv hkey
    have hlink : ∀ p ∈ u.links k, (pairWeights a b).link k p = 0 := by
      intro p hp
      apply if_neg
      rintro (⟨rfl, rfl⟩ | ⟨rfl, rfl⟩)
      · exact hlinks a List.mem_cons_self _ hp rfl
      · exact hlinks b (List.mem_cons_of_mem _ List.mem_cons_self) _ hp rfl
    have hsum : ∀ {α : Type} (l : List α) (f : α → Nat), (∀ x ∈ l, f x = 0) →
        (l.map f).sum = 0 := by
      intro α l f hf
      apply List.sum_eq_zero
      intro y hy
      obtain ⟨x, hx, rfl⟩ := List.mem_map.mp hy
      exact hf x hx
    unfold Weights.parkedFor
    rw [hsum _ _ hreq, hsum _ _ hlink]
  unfold Weights.parked
  rw [hfor, hfor, hfor, hfor]

theorem pair_sides (hv : Roster.Valid t r) (hpub : r.Has pub) (hinp : r.Has inp)
    (htype : pub.handleType = .publication) (htype' : inp.handleType = .input)
    (hpair : a = pub ∧ b = inp ∨ a = inp ∧ b = pub) :
    (a.handleType = .publication ∨ a.handleType = .input) ∧
    (pairWeights a b).Fair r ∧ (∀ what u, RequestsPair a b what u ↔ RequestsPair pub inp what u) ∧
    ∀ what p, LinksPair a b what p ↔ LinksPair pub inp what p := by
  rcases hpair with ⟨rfl, rfl⟩ | ⟨rfl, rfl⟩
  · exact ⟨.inl htype, pairWeights_fair hv hpub hinp (by rw [htype, htype']; rfl),
      fun _ _ => Iff.rfl, fun _ _ => Iff.rfl⟩
  · exact ⟨.inr htype', pairWeights_fair hv hinp hpub (by rw [htype, htype']; rfl),
      fun _ _ => requestsPair_comm _ _ _ _, fun _ _ => linksPair_comm _ _ _ _⟩

section
variable [DualMapped String GlobalId]

variable {t : Topology} {r : Roster} {net₀ net net' : InterfaceNet} {pub inp : HandleInfo}

theorem Reached.handle_iff (h : Reached t r net) (hv : r.Valid t) (hn : t.isCore n = true)
    (hinfo : (net.cores n).handles.getHandleInfo handle = some info) (hx : r.Has x) :
    info.handle = x.handle ↔ t.home x.handle.fedId = some n ∧ handle = x.handle.handle := by
  unfold HandleManager.getHandleInfo at hinfo
  split at hinfo
  · rename_i hpos
    obtain ⟨i, rfl⟩ := Int.eq_ofNat_of_zero_le hpos
    rw [Int.toNat_natCast] at hinfo
    constructor
    · intro heq
      rw [← heq]
      exact ⟨(h.registry.entry hn (List.mem_of_getElem? hinfo)).1,
        (h.registry.position hn hinfo).symm⟩
    · rintro ⟨hhome, hhandle⟩
      obtain ⟨core, hmem⟩ := hx
      cases hhome.symm.trans (hv.home hmem)
      obtain ⟨j, hj⟩ := List.mem_iff_getElem?.mp hmem
      have hij : (i : Int) = j := hhandle.trans (hv.position hj)
      have hsame := (h.sound.cores hn).user hinfo
      rw [Int.ofNat_inj.mp hij, hj] at hsame
      rw [Option.some.inj hsame]
  · cases hinfo

section Events

variable (hv : r.Valid t) (hpub : r.Has pub) (hinp : r.Has inp)
  (htype : pub.handleType = .publication) (htype' : inp.handleType = .input)
include hv hpub hinp htype htype'

theorem Reached.asked_iff {ev : NetEvent} (h : Reached t r net) (hn : t.isCore n = true)
    (hev : ev = .addSourceTarget n handle name ∧ info.handleType ≠ .publication ∨
      ev = .addDestinationTarget n handle name ∧ info.handleType ≠ .input)
    (hinfo : (net.cores n).handles.getHandleInfo handle = some info)
    (hkind : info.handleType = what.partner) (flags : UInt16) :
    RequestsPair pub inp what ⟨name, info.handle, flags⟩ ↔ ev.requests t pub inp = true := by
  have hhas : r.Has info := ⟨n, (h.sound.cores hn).users.subset (mem_of_getHandleInfo hinfo)⟩
  have hwhat : what = info.handleType.partner := by
    rw [hkind, HandleType.partner_partner]
  have hsame : ∀ {x}, r.Has x → info.handle = x.handle → what = x.handleType.partner := by
    intro x hx heq
    rw [hwhat, hv.eq_of_handle hhas hx heq]
  unfold RequestsPair
  rcases hev with ⟨rfl, hno⟩ | ⟨rfl, hno⟩
  · show _ ↔ decide _ = true
    rw [decide_eq_true_iff]
    constructor
    · rintro (⟨_, _, heq⟩ | ⟨_, hname, heq⟩)
      · rw [hv.eq_of_handle hhas hpub heq] at hno
        exact absurd htype hno
      · obtain ⟨hhome, hhandle⟩ := (h.handle_iff hv hn hinfo hinp).mp heq
        exact ⟨hhome, hhandle, hname⟩
    · rintro ⟨hhome, hhandle, hname⟩
      have heq := (h.handle_iff hv hn hinfo hinp).mpr ⟨hhome, hhandle⟩
      refine .inr ⟨?_, hname, heq⟩
      rw [hsame hinp heq, htype', htype]
      rfl
  · show _ ↔ decide _ = true
    rw [decide_eq_true_iff]
    constructor
    · rintro (⟨_, hname, heq⟩ | ⟨_, _, heq⟩)
      · obtain ⟨hhome, hhandle⟩ := (h.handle_iff hv hn hinfo hpub).mp heq
        exact ⟨hhome, hhandle, hname⟩
      · rw [hv.eq_of_handle hhas hinp heq] at hno
        exact absurd htype' hno
    · rintro ⟨hhome, hhandle, hname⟩
      have heq := (h.handle_iff hv hn hinfo hpub).mpr ⟨hhome, hhandle⟩
      refine .inl ⟨?_, hname, heq⟩
      rw [hsame hpub heq, htype, htype']
      rfl

omit hv hpub hinp in
omit [DualMapped String GlobalId] in
theorem dataLinked_iff (n : GlobalId) (source target : String) :
    LinksPair pub inp .publication (source, target) ↔
      (dataLink n source target).requests t pub inp = true := by
  show _ ↔ decide _ = true
  rw [decide_eq_true_iff]
  unfold LinksPair
  rw [htype, htype', Prod.mk.injEq]
  constructor
  · rintro (⟨_, h⟩ | ⟨h, _⟩)
    · exact h
    · cases h
  · exact fun h => .inl ⟨rfl, h⟩

end Events

theorem keeps_of_weight_zero (h : net.weight removalWeights t = 0)
    (htake : takeFirst link net.flight = some (m, rest)) :
    m.action.removes = false ∧ m.action.givesUp = none := by
  have hmessage := message_of_weight_zero h htake
  have hremoves : m.action.removes = false := by
    cases hremoves : m.action.removes with
    | false => rfl
    | true =>
      rw [show removalWeights.message m = 1 from if_pos hremoves] at hmessage
      cases hmessage
  refine ⟨hremoves, ?_⟩
  cases hgive : m.action.givesUp with
  | none => rfl
  | some what =>
    rw [removes_of_givesUp hgive] at hremoves
    cases hremoves

theorem Reached.removal_weight (h : Reached t r net) (ht : t.IsTree) (hv : r.Valid t)
    (hnone : net.weight removalWeights t = 0) (hs : Transition t net ev net') (hkeeps : ev.Keeps) :
    net'.weight removalWeights t = 0 := by
  have hsend : ∀ {k m}, m.action.removes = false →
      (net.send [(.own k, m)]).weight removalWeights t = 0 := by
    intro k m hremoves
    have hzero : removalWeights.message m = 0 :=
      if_neg (by rw [hremoves]; exact Bool.false_ne_true)
    rw [weight_send, hnone, hzero]
  cases hs with
  | registered hnew =>
    rw [weight_enter hnew.flight hnew.brokers, hnone,
      (removalWeights_fair r).registration
      (by rw [hnew.announces.kind]; exact Option.some_ne_none _)]
  | asked _ _ _ hkind _ heq =>
    subst heq
    exact hsend (removes_eq_false (.inr (.inl (hkind.trans_ne (Option.some_ne_none _)))))
  | gaveUp hev =>
    subst hev
    exact hkeeps.elim
  | dataLinked _ heq =>
    subst heq
    exact hsend rfl
  | @filterLinked n filter endpoint destination _ heq =>
    subst heq
    cases destination with
    | true => exact hsend rfl
    | false => exact hsend rfl
  | @handled link m rest k _ htake htarget heq =>
    subst heq
    have hkeep := (keeps_of_weight_zero hnone htake).2
    have hle := (h.sound.handled_weight (removalWeights_fair r) ht hv htake htarget hkeep).1
    omega
  | informed _ htake heq =>
    subst heq
    have heq := h.sound.informed_weight (w := removalWeights) htake
    omega

def partners (net : InterfaceNet) (a : HandleInfo) : List GlobalHandle :=
  (net.federates a.handle.fedId).partners a.handleType a.handle.handle

theorem Reached.informed_count (h : Reached t r net) (hrecorded : Recorded t net)
    (htake : takeFirst (.federate f) net.flight = some (m, rest)) (hadds : m.action.removes = false)
    (b : HandleInfo) (ha : a.handleType = .publication ∨ a.handleType = .input) :
    (({ net with flight := rest }.handleFederate t f m).partners a).count b.handle =
      (net.partners a).count b.handle + (pairWeights a b).message m := by
  obtain ⟨hfor, hdest, n, hfits⟩ := h.now.placed (mem_of_takeFirst htake)
  obtain ⟨_, _, info, hkind, hhas, hinfo, _⟩ := hfits.connected hfor
  have hact := eq_addPartner hadds hkind
  have htyped : ∀ {x}, (roster t net).Has x → x.handleType ≠ .unknown := by
    intro x hx
    obtain ⟨k, hk, hmem⟩ := has_roster hx
    exact (h.registry.entry hk hmem).2.2.1
  rw [pairWeights_isFor hkind]
  show List.count b.handle
    ((Function.update net.federates f _ a.handle.fedId).partners a.handleType a.handle.handle) = _
  by_cases hf : a.handle.fedId = f
  · rw [hf, Function.update_self]
    have htold : Told a b m ↔ (a.handleType = info.handleType ∧ a.handle.handle = m.dest.handle) ∧
        m.source = b.handle := by
      unfold Told
      rw [hact]
      constructor
      · rintro ⟨hkind', hdest', hsource⟩
        exact ⟨⟨(HandleType.addPartner_inj hkind').symm, by rw [hdest']⟩, hsource⟩
      · rintro ⟨⟨hkind', hhandle⟩, hsource⟩
        refine ⟨by rw [hkind'], ?_, hsource⟩
        cases hd : m.dest with
        | mk fed handle =>
          rw [hd] at hdest hhandle
          cases hb : a.handle with
          | mk fed' handle' =>
            rw [hb] at hf hhandle
            cases hdest.trans hf.symm
            cases hhandle
            rfl
    have hholds : (net.federates f).Holds info.handleType m.dest.handle := by
      rw [← hdest, hinfo]
      exact hrecorded _ hhas
    rw [FederateInterfaces.partners_addPartner hact (htyped hhas) ha hholds, List.count_append]
    have hold : (net.partners a).count b.handle =
        ((net.federates f).partners a.handleType a.handle.handle).count b.handle := by
      unfold partners
      rw [hf]
    rw [hold]
    congr 1
    by_cases hself : a.handleType = info.handleType ∧ a.handle.handle = m.dest.handle
    · rw [if_pos hself, List.count_singleton]
      by_cases hsource : m.source = b.handle
      · rw [if_pos (htold.mpr ⟨hself, hsource⟩), if_pos (by rw [hsource]; exact beq_self_eq_true _)]
      · rw [if_neg (fun ht => hsource (htold.mp ht).2),
          if_neg (fun hbeq => hsource (eq_of_beq hbeq))]
    · rw [if_neg hself, if_neg (fun ht => hself (htold.mp ht).1)]
      rfl
  · rw [Function.update_of_ne hf, if_neg]
    · rfl
    · rintro ⟨_, hdest', _⟩
      rw [← hdest', hdest] at hf
      exact hf rfl

theorem quiet_or_informed (hs : Transition t net ev net') :
    (∀ f, ev ≠ .deliver (.federate f)) ∨ ∃ f m rest, ev = .deliver (.federate f) ∧
      takeFirst (.federate f) net.flight = some (m, rest) ∧
      net' = { net with flight := rest }.handleFederate t f m := by
  cases hs with
  | registered hnew =>
    rcases hnew.event with ⟨_, _, _, _, _, rfl⟩ | ⟨_, _, _, _, rfl⟩ <;> exact .inl nofun
  | asked hev =>
    rcases hev with ⟨rfl, _⟩ | ⟨rfl, _⟩ <;> exact .inl nofun
  | gaveUp hev | dataLinked hev | filterLinked hev =>
    subst hev
    exact .inl nofun
  | handled hev _ htarget =>
    subst hev
    refine .inl ?_
    rintro f ⟨⟩
    cases htarget
  | informed hev htake heq => exact .inr ⟨_, _, _, hev, htake, heq⟩

theorem partners_unchanged (hs : Transition t net ev net')
    (hquiet : ∀ f, ev ≠ .deliver (.federate f))
    (a : HandleInfo) : net'.partners a = net.partners a := by
  unfold partners
  cases hs with
  | registered hnew =>
    rcases hnew.owner with ⟨_, _, hfederates, _⟩ | ⟨g, _, _, _, _, hfederates⟩
    · rw [hfederates]
    rw [hfederates]
    by_cases hf : a.handle.fedId = g
    · rw [hf, Function.update_self]
      exact FederateInterfaces.partners_createInterface _ _ _ _ _
    · rw [Function.update_of_ne hf]
  | asked _ _ _ _ _ heq | gaveUp _ _ _ _ _ _ heq | dataLinked _ heq | filterLinked _ heq =>
    subst heq
    rfl
  | @handled link m rest k _ _ _ heq =>
    subst heq
    rw [(handleAt_frame { net with flight := rest } k m).1]
  | informed hev => exact absurd hev (hquiet _)

section Counts

variable (ht : t.IsTree) (hv : r.Valid t) (hpub : r.Has pub) (hinp : r.Has inp)
  (htype : pub.handleType = .publication) (htype' : inp.handleType = .input)
  {a b : HandleInfo} (hpair : a = pub ∧ b = inp ∨ a = inp ∧ b = pub)
include ht hv hpub hinp htype htype' hpair

/-- What is still to be recorded grows by the requests, unless a federate is told. -/
theorem Reached.weight_step (h : Reached t r net) (hnone : net.weight removalWeights t = 0)
    (hs : Transition t net ev net') (hkeeps : ev.Keeps)
    (hquiet : ∀ f, ev ≠ .deliver (.federate f)) : net'.weight (pairWeights a b) t =
      net.weight (pairWeights a b) t + if ev.requests t pub inp then 1 else 0 := by
  obtain ⟨hdata, hfair, hrequests, hlinks⟩ := pair_sides hv hpub hinp htype htype' hpair
  cases hs with
  | registered hnew =>
    have hzero := hfair.registration (m := _)
      (by rw [hnew.announces.kind]; exact Option.some_ne_none _)
    have hno : ev.requests t pub inp = false := by
      rcases hnew.event with ⟨_, _, _, _, _, rfl⟩ | ⟨_, _, _, _, rfl⟩ <;> rfl
    rw [weight_enter hnew.flight hnew.brokers, hzero, hno]
    rfl
  | @asked n handle name info what m hev hcore hinfo hkind hasks heq =>
    subst heq
    rw [weight_send, pairWeights_ask hkind, hasks.name, hasks.source]
    congr 1
    refine if_congr ?_ rfl rfl
    rw [hrequests]
    exact h.asked_iff hv hpub hinp htype htype' hcore hev hinfo hasks.partner m.flags
  | gaveUp hev =>
    subst hev
    exact hkeeps.elim
  | @dataLinked n source target hev heq =>
    subst hev heq
    have hkind : (dataLinkCommand source target).action.linksFirst = some .publication := rfl
    rw [weight_send, pairWeights_link hkind]
    congr 1
    refine if_congr ?_ rfl rfl
    rw [hlinks]
    exact dataLinked_iff htype htype' n source target
  | @filterLinked n filter endpoint destination hev heq =>
    subst hev heq
    have hzero : ∀ m : InterfaceMessage, m.action.linksFirst = some .filter →
        (pairWeights a b).message m = 0 := by
      intro m hkind
      rw [pairWeights_link hkind, if_neg]
      rw [hlinks]
      rintro (⟨hk, _⟩ | ⟨hk, _⟩)
      · rw [htype] at hk
        cases hk
      · rw [htype'] at hk
        cases hk
    rw [weight_send, hzero]
    · rfl
    · cases destination <;> rfl
  | handled hev htake htarget heq =>
    subst hev heq
    have hkeep := (keeps_of_weight_zero hnone htake).2
    exact (h.sound.handled_weight hfair ht hv htake htarget hkeep).2 (pairWeights_carried b hdata)
  | informed hev => exact absurd hev (hquiet _)

/-- Every request adds one to what is recorded or still to be recorded, and nothing else does. -/
theorem Reached.counted_step (h : Reached t r net) (hrecorded : Recorded t net)
    (hnone : net.weight removalWeights t = 0) (hs : Transition t net ev net') (hkeeps : ev.Keeps) :
    (net'.partners a).count b.handle + net'.weight (pairWeights a b) t =
      (net.partners a).count b.handle + net.weight (pairWeights a b) t +
        if ev.requests t pub inp then 1 else 0 := by
  obtain hquiet | ⟨f, m, rest, rfl, htake, rfl⟩ := quiet_or_informed hs
  · rw [partners_unchanged hs hquiet, h.weight_step ht hv hpub hinp htype htype' hpair hnone hs
      hkeeps hquiet, Nat.add_assoc]
  have hdata := (pair_sides hv hpub hinp htype htype' hpair).1
  have hcount := h.informed_count hrecorded htake (keeps_of_weight_zero hnone htake).1 b hdata
  have hweight := h.sound.informed_weight (w := pairWeights a b) htake
  show _ = _ + 0
  omega

end Counts

structure Tally (t : Topology) (pub inp : HandleInfo) (evs : List NetEvent) (net : InterfaceNet) :
    Prop where
  recorded : Recorded t net
  keeps : net.weight removalWeights t = 0
  subscribers : (net.partners pub).count inp.handle + net.weight (pairWeights pub inp) t =
    evs.countP (requests t pub inp)
  sources : (net.partners inp).count pub.handle + net.weight (pairWeights inp pub) t =
    evs.countP (requests t pub inp)

theorem Fresh.weight (h : net.Fresh t) (ht : t.IsTree) (w : Weights) : net.weight w t = 0 := by
  unfold InterfaceNet.weight
  rw [h.flight, (h.brokerTables ht.root_broker).2]
  rfl

theorem Fresh.tally (h : net.Fresh t) (ht : t.IsTree) (pub inp : HandleInfo) :
    Tally t pub inp [] net := by
  have hnobody : ∀ a b : HandleInfo, (net.partners a).count b.handle = 0 := by
    intro a b
    have hempty : net.partners a = [] := by
      obtain ⟨_, _, _, hpubs, hinps, _⟩ := h.federates a.handle.fedId
      unfold partners FederateInterfaces.partners FederateInterfaces.getPublication
        FederateInterfaces.getInput
      rw [hpubs, hinps]
      cases a.handleType <;> rfl
    rw [hempty]
    rfl
  refine ⟨?_, h.weight ht _, ?_, ?_⟩
  · intro info hinfo
    obtain ⟨n, hn, hmem⟩ := has_roster hinfo
    rw [(h.coreTables hn).1] at hmem
    cases hmem
  · rw [hnobody, h.weight ht]
    rfl
  · rw [hnobody, h.weight ht]
    rfl

theorem Fresh.tally_run (hfresh : net.Fresh t) (ht : t.IsTree) (hrun : Runs t net evs net')
    (hevs : ∀ ev ∈ evs, ev.Named ∧ ev.Keeps) (hv : (roster t net').Valid t)
    (hpub : (roster t net').Has pub) (hinp : (roster t net').Has inp)
    (htype : pub.handleType = .publication) (htype' : inp.handleType = .input) :
    Tally t pub inp evs net' := by
  refine hrun.history (hfresh.tally ht pub inp) ?_
  intro past s ev s' rest hpast hstep hrest heq htally
  have hpastevs : ∀ e ∈ past, e.Named := by
    intro e he
    exact (hevs e (by rw [heq]; exact List.mem_append_left _ he)).1
  have hkeeps : ev.Keeps :=
    (hevs ev (by rw [heq]; exact List.mem_append_right _ List.mem_cons_self)).2
  have hreached := hfresh.reached ht hpast (.cons hstep hrest) hpastevs hv
  have hs := transition_of_step hstep
  have hcount := hreached.counted_step ht hv hpub hinp htype htype' (.inl ⟨rfl, rfl⟩)
    htally.recorded htally.keeps hs hkeeps
  have hcount' := hreached.counted_step ht hv hpub hinp htype htype' (.inr ⟨rfl, rfl⟩)
    htally.recorded htally.keeps hs hkeeps
  have hsub := htally.subscribers
  have hsrc := htally.sources
  refine ⟨htally.recorded.step hreached.registry hreached.sound hs,
    hreached.removal_weight ht hv htally.keeps hs hkeeps, ?_, ?_⟩
  · rw [List.countP_append, List.countP_singleton]
    omega
  · rw [List.countP_append, List.countP_singleton]
    omega

theorem Waiting.nobody (h : Waiting (fun _ _ => False) (net.brokers t.root))
    (hknown : (net.brokers t.root).handles.find info.handleType info.key = some info) :
    (∀ u ∈ (net.brokers t.root).unknownHandles.requests info.handleType, u.key ≠ info.key) ∧
      ∀ p ∈ (net.brokers t.root).unknownHandles.links info.handleType, p.1 ≠ info.key := by
  constructor
  · intro u hu hkey
    have hnone := (h.requests hu).resolve_right id
    rw [hkey, hknown] at hnone
    cases hnone
  · intro p hp hkey
    have hnone := (h.links hp).resolve_right id
    rw [hkey, hknown] at hnone
    cases hnone

section
variable (ht : t.IsTree) (hfresh : net.Fresh t)
  (hrun : Run (fun s ev s' => s.step t ev = some s') net evs net')
  (hevs : ∀ ev ∈ evs, ev.Named ∧ ev.Keeps)
  (hunique : ∀ info info', (roster t net').Has info → (roster t net').Has info' →
    info.handleType = info'.handleType → info.key = info'.key → info.handle = info'.handle)
include ht hfresh hrun hevs hunique

theorem nobody_waits (hquiet : net'.flight = []) (info : HandleInfo)
    (hinfo : (roster t net').Has info) :
    (∀ u ∈ (net'.brokers t.root).unknownHandles.requests info.handleType, u.key ≠ info.key) ∧
      ∀ p ∈ (net'.brokers t.root).unknownHandles.links info.handleType, p.1 ≠ info.key := by
  have hv : (roster t net').Valid t := (hfresh.registry.run ht hrun).valid hunique
  have hreached := hfresh.reached ht hrun (.nil net') (fun ev hev => (hevs ev hev).1) hv
  have hwaiting : Waiting (fun _ _ => False) (net'.brokers t.root) := by
    refine hrun.history (P := fun _ s => Waiting (fun _ _ => False) (s.brokers t.root))
      (hfresh.waiting ht) ?_
    intro past s ev s' rest hpast hstep hrest heq hwaiting
    have hreached := hfresh.reached ht hpast (.cons hstep hrest)
      (fun e he => (hevs e (by rw [heq]; exact List.mem_append_left _ he)).1) hv
    exact waiting_step hv hwaiting hreached.sound (transition_of_step hstep)
  exact Waiting.nobody hwaiting (hreached.known_at_root ht hv hquiet hinfo hinfo)

theorem weight_pair_zero (hquiet : net'.flight = []) (ha : (roster t net').Has a)
    (hb : (roster t net').Has b) : net'.weight (pairWeights a b) t = 0 := by
  have hnobody := nobody_waits ht hfresh hrun hevs hunique hquiet
  unfold InterfaceNet.weight
  rw [hquiet, parked_pair_zero]
  · rfl
  · intro x hx
    rcases List.mem_pair.mp hx with rfl | rfl
    · exact (hnobody _ ha).1
    · exact (hnobody _ hb).1
  · intro x hx
    rcases List.mem_pair.mp hx with rfl | rfl
    · exact (hnobody _ ha).2
    · exact (hnobody _ hb).2

end

end

end InterfaceNet

namespace TwoLevels

attribute [local instance] DualMapped.listVectors

/-- An input asks for a publication of the other core before that is registered, a link names the
same two, and afterwards the publication asks for the input. -/
def threeRequests : List NetEvent :=
  [.register farCore farFed .input "i" "" "", .addSourceTarget farCore 0 "p",
    .dataLink branch "p" "i",
    .deliver (.own farCore), .deliver (.own farCore), .deliver (.up farCore),
      .deliver (.up farCore),
    .deliver (.own branch), .deliver (.up branch), .deliver (.up branch), .deliver (.up branch),
    .register nearCore nearFed .publication "p" "" "", .deliver (.own nearCore),
    .deliver (.up nearCore), .addDestinationTarget nearCore 0 "i", .deliver (.own nearCore),
    .deliver (.up nearCore), .deliver (.down nearCore), .deliver (.down nearCore),
    .deliver (.down nearCore), .deliver (.down branch), .deliver (.down branch),
    .deliver (.down branch), .deliver (.down farCore), .deliver (.down farCore),
    .deliver (.down farCore), .deliver (.federate nearFed), .deliver (.federate nearFed),
    .deliver (.federate nearFed), .deliver (.federate farFed), .deliver (.federate farFed),
    .deliver (.federate farFed)]

def nearPublication : HandleInfo :=
  { handle := ⟨nearFed, 0⟩, handleType := .publication, key := "p" }

def farInput : HandleInfo := { handle := ⟨farFed, 0⟩, handleType := .input, key := "i" }

end TwoLevels

end Helics
