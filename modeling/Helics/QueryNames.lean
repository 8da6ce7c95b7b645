import Helics.QueryRoutes

namespace Helics

open BrokerTree

namespace QueryTree

variable {t : QueryTree}

def nameOf (t : QueryTree) (n : GlobalId) : String :=
  if t.isCore n then (t.cores n).identifier else (t.tables n).identifier

theorem nameOf_broker (hn : t.isBroker n) : t.nameOf n = (t.tables n).identifier := by
  unfold nameOf
  rw [(isBroker_iff.mp hn).2]
  rfl

/-- No federate called like the broker `v` is below `n`, unless it is also below `v`. -/
def Harmless (t : QueryTree) (v n : GlobalId) : Prop :=
  ∀ c ∈ t.nodes, t.home (t.tables v).identifier = some c → t.Below n c →
    t.Below n v ∧ t.Below v c

/-- On the way up from a node the identifier of the broker `v` is met as the name of this broker
before it is met as that of a federate elsewhere, or, at the root, as the word for the
federation. -/
inductive Straight (t : QueryTree) (v : GlobalId) : GlobalId → Prop
  | here : Straight t v v
  | known (hne : n ≠ v) (hv : t.Below n v)
      (hf : n = t.root → (t.tables v).identifier ≠ "federation") (hh : Harmless t v n) :
      Straight t v n
  | unknown (hne : n ≠ v) (hv : ¬ t.Below n v) (hh : Harmless t v n)
      (hp : Straight t v (t.parent n)) : Straight t v n

theorem routeByName_cases (hn : t.isBroker n) (hv : t.isBroker v) :
    (∃ c ∈ t.nodes, t.home (t.tables v).identifier = some c ∧ t.isCore c = true ∧ t.Below n c ∧
      (t.tables n).routeByName (t.tables v).identifier = (t.tables n).getRoute c) ∨
    (∀ c ∈ t.nodes, t.home (t.tables v).identifier = some c → ¬ t.Below n c) ∧
      (t.Below n v ∧ (t.tables n).routeByName (t.tables v).identifier = (t.tables n).getRoute v ∨
        ¬ t.Below n v ∧ (t.tables n).routeByName (t.tables v).identifier = parentRouteId) := by
  obtain ⟨hmem, hb⟩ := isBroker_iff.mp hn
  obtain ⟨hvm, hvb⟩ := isBroker_iff.mp hv
  unfold BrokerTables.routeByName
  cases hfed : (t.tables n).federates.find? (fun fed => decide (fed.name = (t.tables v).identifier))
    with
  | some fed =>
    left
    have hname : fed.name = (t.tables v).identifier := by simpa using List.find?_some hfed
    obtain ⟨c, hc, hhome, hcore, hbelow, hroute⟩ :=
      t.federates_below n hmem hb fed (List.mem_of_find?_eq_some hfed)
    exact ⟨c, hc, hname ▸ hhome, hcore, hbelow, hroute⟩
  | none =>
    right
    refine ⟨fun c hc hhome hbelow => ?_, ?_⟩
    · obtain ⟨fed, hmemf, hname⟩ := t.federates_known n hmem hb _ c hhome hc hbelow
      exact absurd hname (by simpa using List.find?_eq_none.mp hfed fed hmemf)
    · cases hbrk : (t.tables n).brokers.find?
        (fun brk => decide (brk.name = (t.tables v).identifier)) with
      | some brk =>
        left
        have hname : brk.name = (t.tables v).identifier := by simpa using List.find?_some hbrk
        obtain ⟨hm, hbelow, hid, hroute⟩ :=
          t.brokers_below n hmem hb brk (List.mem_of_find?_eq_some hbrk)
        have heq : brk.globalId = v :=
          t.names _ hm v hvm ((hid.symm.trans hname).trans (nameOf_broker hv).symm)
        rw [heq] at hbelow hroute
        exact ⟨hbelow, hroute⟩
      | none =>
        right
        refine ⟨fun hbelow => ?_, rfl⟩
        obtain ⟨brk, hmemb, hid⟩ := t.brokers_known n hmem hb v hvm hbelow
        obtain ⟨-, -, hname, -⟩ := t.brokers_below n hmem hb brk hmemb
        rw [hid] at hname
        have hno := List.find?_eq_none.mp hbrk brk hmemb
        exact absurd (hname.trans (nameOf_broker hv)) (by simpa using hno)

/-- A query with the identifier of the broker `v`, which is not one of the words for other nodes. -/
structure Names (t : QueryTree) (v : GlobalId) (m : QueryMessage) : Prop where
  broker : t.isBroker v
  action : m.action = .query
  target : m.target = (t.tables v).identifier
  plain : m.target ≠ "broker"

theorem Names.heads_here (hm : t.Names v m) : Heads t m v v 0 := by
  refine .here hm.broker ?_
  unfold BrokerTables.passes
  rw [hm.action]
  exact if_pos (.inl hm.target)

theorem identifier_ne (hn : t.isBroker n) (hv : t.isBroker v) (hne : n ≠ v) :
    (t.tables v).identifier ≠ (t.tables n).identifier := by
  intro heq
  refine hne (t.names n (isBroker_iff.mp hn).1 v (isBroker_iff.mp hv).1 ?_)
  exact (nameOf_broker hn).trans (heq.symm.trans (nameOf_broker hv).symm)

theorem Names.passes (hm : t.Names v m) (hn : t.isBroker n) (hne : n ≠ v)
    (hf : n = t.root → (t.tables v).identifier ≠ "federation")
    (hr : n = t.root → (t.tables n).routeByName m.target ≠ parentRouteId) :
    (t.tables n).passes m = some ((t.tables n).routeByName m.target) := by
  obtain ⟨hvm, hvb⟩ := isBroker_iff.mp hm.broker
  obtain ⟨hroot, hglobal, -⟩ := t.plain v hvm hvb
  unfold BrokerTables.passes
  rw [hm.action]
  refine if_neg ?_
  rintro (hid | hb | ⟨hr', hw | hw⟩ | hg | ⟨hp, hr'⟩)
  · exact identifier_ne hn hm.broker hne (hm.target.symm.trans hid)
  · exact hm.plain hb
  · exact hroot (hm.target.symm.trans hw)
  · exact hf ((isRootc_iff hn).mp hr') (hm.target.symm.trans hw)
  · exact hglobal (hm.target.symm.trans hg)
  · exact hr ((isRootc_iff hn).mp hr') hp

theorem Names.federation (hm : t.Names v m)
    (hf : (t.tables v).identifier = "federation") : Heads t m t.root t.root 0 := by
  refine .here t.root_isBroker ?_
  unfold BrokerTables.passes
  rw [hm.action]
  refine if_pos (.inr (.inr (.inl ⟨(isRootc_iff t.root_isBroker).mpr rfl, .inr ?_⟩)))
  exact hm.target.trans hf

theorem between (hc : c ∈ t.nodes) (hr : c ≠ t.root) (hp : t.parent c = n) (hd : d ∈ t.nodes)
    (hcd : c = d ∨ t.Below c d) (hv : t.Below n v) (hvd : t.Below v d) : c = v ∨ t.Below c v := by
  have hvm := (hvd.above hd).1
  have habove : ¬ t.Below v c := by
    intro hvc
    obtain heq | hvn := (below_iff hc hr).mp hvc
    · rw [hp] at heq
      exact absurd (hv.above hvm).2.2 (by rw [heq]; exact lt_irrefl _)
    · rw [hp] at hvn
      have hnm : n ∈ t.nodes := hp ▸ t.parent_mem c hc hr
      exact absurd (hv.above hvm).2.2 (not_lt.mpr (hvn.above hnm).2.2.le)
  obtain rfl | hcd := hcd
  · exact absurd hvd habove
  obtain heq | hb | hb := hcd.chain hvd hd
  · exact .inl heq
  · exact .inr hb
  · exact absurd hb habove

section
variable (hm : t.Names v m)
include hm

theorem Names.heads_down (hn : t.isBroker n) (hv : n = v ∨ t.Below n v)
    (hf : n = t.root → n ≠ v → (t.tables v).identifier ≠ "federation")
    (hh : ∀ c ∈ t.nodes, t.home (t.tables v).identifier = some c → t.Below n c → t.Below v c) :
    ∃ k, Heads t m n v k := by
  obtain ⟨hvm, hvb⟩ := isBroker_iff.mp hm.broker
  induction hk : t.depth v - t.depth n using Nat.strong_induction_on generalizing n with
  | _ j ih =>
    obtain rfl | hv := hv
    · exact ⟨0, hm.heads_here⟩
    have hlt := (hv.above hvm).2.2
    have hne : n ≠ v := by
      rintro rfl
      exact lt_irrefl _ hlt
    -- the next node is the child above the named broker, whichever name is found
    have hnext : ∃ c, t.linkOf n ((t.tables n).routeByName m.target) = some (.down c) ∧
        c ∈ t.nodes ∧ c ≠ t.root ∧ t.parent c = n ∧ (c = v ∨ t.Below c v) ∧
        (t.tables n).routeByName m.target ≠ parentRouteId := by
      rw [hm.target]
      obtain ⟨d, hd, hhome, -, hbelow, hroute⟩ | ⟨-, ⟨-, hroute⟩ | ⟨hno, -⟩⟩ :=
        routeByName_cases hn hm.broker
      · obtain ⟨c, hlink, hcm, hcr, hcp, hcd, hpr⟩ := route_down hn hd hbelow
        rw [hroute]
        exact ⟨c, hlink, hcm, hcr, hcp, between hcm hcr hcp hd hcd hv (hh d hd hhome hbelow),
          hpr⟩
      · rw [hroute]
        exact route_down hn hvm hv
      · exact absurd hv hno
    obtain ⟨c, hlink, hcm, hcr, hcp, hcv, hpr⟩ := hnext
    have hdepth := t.depth_parent c hcm hcr
    rw [hcp] at hdepth
    have hcb : t.isCore c = false := by
      obtain rfl | hcv := hcv
      · exact hvb
      · exact (hcv.above hvm).2.1
    have hcn : t.Below n c := (below_iff hcm hcr).mpr (.inl hcp)
    have hc : t.isBroker c := isBroker_iff.mpr ⟨hcm, hcb⟩
    obtain ⟨k, hk⟩ := ih _ (by omega) hc hcv (fun hr => absurd hr hcr)
      (fun d hd hhome hbelow => hh d hd hhome (hcn.trans hbelow hd)) rfl
    exact ⟨k + 1, .pass hn (hm.passes hn hne (fun hr => hf hr hne) fun _ => hpr) hlink hk⟩

theorem Names.route_unknown (hn : t.isBroker n) (hv : ¬ t.Below n v)
    (hh : Harmless t v n) : (t.tables n).routeByName m.target = parentRouteId := by
  rw [hm.target]
  obtain ⟨c, hc, hhome, -, hbelow, -⟩ | ⟨-, ⟨hb, -⟩ | ⟨-, hroute⟩⟩ := routeByName_cases hn hm.broker
  · exact absurd (hh c hc hhome hbelow).1 hv
  · exact absurd hb hv
  · exact hroute

theorem Names.heads_straight (h : Straight t v n) (hn : t.isBroker n) : ∃ k, Heads t m n v k := by
  induction h with
  | here => exact ⟨0, hm.heads_here⟩
  | known hne hv hf hh =>
    exact hm.heads_down hn (.inr hv) (fun hr _ => hf hr) fun c hc hhome hb => (hh c hc hhome hb).2
  | @unknown n hne hv hh _ ih =>
    have hmem := (isBroker_iff.mp hn).1
    have hvm := (isBroker_iff.mp hm.broker).1
    have hr : n ≠ t.root := by
      rintro rfl
      exact hv (below_root hvm (Ne.symm hne))
    obtain ⟨k, hk⟩ := ih (parent_isBroker hmem hr)
    have hpass := hm.passes hn hne (fun h => absurd h hr) fun h => absurd h hr
    rw [hm.route_unknown hn hv hh] at hpass
    exact ⟨k + 1, .pass hn hpass (linkOf_parent hr) hk⟩

theorem Names.heads_federate (hn : t.isBroker n) (hne : n ≠ v)
    (hc : c ∈ t.nodes) (hhome : t.home (t.tables v).identifier = some c)
    (hcore : t.isCore c = true) (hbelow : t.Below n c) (hv : ¬ (t.Below n v ∧ t.Below v c))
    (hf : n = t.root → (t.tables v).identifier ≠ "federation") : ∃ k, Heads t m n c k := by
  induction hk : t.depth c - t.depth n using Nat.strong_induction_on generalizing n with
  | _ j ih =>
    have hlt := (hbelow.above hc).2.2
    have hroute : (t.tables n).routeByName m.target = (t.tables n).getRoute c := by
      rw [hm.target]
      obtain ⟨d, -, hd, -, -, hroute⟩ | ⟨hno, -⟩ := routeByName_cases hn hm.broker
      · obtain rfl := Option.some.inj (hhome.symm.trans hd)
        exact hroute
      · exact absurd hbelow (hno c hc hhome)
    obtain ⟨e, hlink, hem, her, hep, hec, hpr⟩ := route_down hn hc hbelow
    have hdepth := t.depth_parent e hem her
    rw [hep] at hdepth
    have hpass := hm.passes hn hne hf fun _ => hroute ▸ hpr
    rw [hroute] at hpass
    obtain rfl | hec := hec
    · exact ⟨1, .pass hn hpass hlink (.core hc hcore)⟩
    have hne' : t.Below n e := (below_iff hem her).mpr (.inl hep)
    have hev : e ≠ v := by
      rintro rfl
      exact hv ⟨hne', hec⟩
    have he : t.isBroker e := isBroker_iff.mpr ⟨hem, (hec.above hc).2.1⟩
    have hvm := (isBroker_iff.mp hm.broker).1
    obtain ⟨k, hk⟩ := ih _ (by omega) he hev hec
      (fun h => hv ⟨hne'.trans h.1 hvm, h.2⟩) (fun hr => absurd hr her) rfl
    exact ⟨k + 1, .pass hn hpass hlink hk⟩

end

theorem home_isCore (hn : t.isBroker n) (hc : c ∈ t.nodes) (hhome : t.home name = some c)
    (hbelow : t.Below n c) : t.isCore c = true := by
  obtain ⟨hmem, hb⟩ := isBroker_iff.mp hn
  obtain ⟨fed, hfed, hname⟩ := t.federates_known n hmem hb name c hhome hc hbelow
  obtain ⟨d, -, hd, hcore, -⟩ := t.federates_below n hmem hb fed hfed
  rw [hname] at hd
  obtain rfl := Option.some.inj (hhome.symm.trans hd)
  exact hcore

theorem Names.heads_harmed (hm : t.Names v m) (hn : t.isBroker n) (hne : n ≠ v)
    (h : ¬ Harmless t v n) : ∃ a k, a ≠ v ∧ Heads t m n a k := by
  by_cases hf : n = t.root ∧ (t.tables v).identifier = "federation"
  · obtain ⟨rfl, hf⟩ := hf
    exact ⟨t.root, 0, hne, hm.federation hf⟩
  unfold Harmless at h
  push Not at h
  obtain ⟨c, hc, hhome, hbelow, hno⟩ := h
  have hcore := home_isCore hn hc hhome hbelow
  obtain ⟨k, hk⟩ := hm.heads_federate hn hne hc hhome hcore hbelow (fun hb => hno hb.1 hb.2)
    fun hr hid => hf ⟨hr, hid⟩
  refine ⟨c, k, ?_, hk⟩
  rintro rfl
  exact not_isCore hm.broker hcore

theorem Names.heads_astray (hm : t.Names v m) (hn : t.isBroker n) (h : ¬ Straight t v n) :
    ∃ a k, a ≠ v ∧ Heads t m n a k := by
  obtain ⟨hmem, hb⟩ := isBroker_iff.mp hn
  have hvm := (isBroker_iff.mp hm.broker).1
  induction hmem using climb with
  | root =>
    have hne : t.root ≠ v := fun heq => h (heq ▸ .here)
    by_cases hf : (t.tables v).identifier = "federation"
    · exact ⟨t.root, 0, hne, hm.federation hf⟩
    · have hv := below_root hvm (Ne.symm hne)
      exact hm.heads_harmed hn hne fun hh => h (.known hne hv (fun _ => hf) hh)
  | step n hmem hr ih =>
    have hne : n ≠ v := fun heq => h (heq ▸ .here)
    by_cases hh : Harmless t v n
    · have hv : ¬ t.Below n v := fun hv => h (.known hne hv (fun heq => absurd heq hr) hh)
      have hp := parent_isBroker hmem hr
      obtain ⟨a, k, ha, hk⟩ := ih hp (fun hs => h (.unknown hne hv hh hs)) (isBroker_iff.mp hp).2
      have hpass := hm.passes hn hne (fun heq => absurd heq hr) fun heq => absurd heq hr
      rw [hm.route_unknown hn hv hh] at hpass
      exact ⟨a, k + 1, ha, .pass hn hpass (linkOf_parent hr) hk⟩
    · exact hm.heads_harmed hn hne hh

end QueryTree

end Helics
