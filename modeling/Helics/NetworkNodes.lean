import Helics.NetworkSound

namespace Helics

open InterfaceNet InterfaceAction

namespace CoreSound

theorem getHandleInfo (h : CoreSound r n c) (hv : r.Valid t) (hinfo : info ∈ c.handles.handles) :
    c.handles.getHandleInfo info.handle.handle = some info := by
  obtain ⟨i, hi⟩ := List.mem_iff_getElem?.mp hinfo
  have hpos := hv.position (h.user hi)
  unfold HandleManager.getHandleInfo
  rw [hpos, if_pos (Int.natCast_nonneg i)]
  exact hi

theorem findHandle_processCommand (h : CoreSound r n c) (hv : r.Valid t) (hm : Fits t r n m)
    (huser : m.action.registers ≠ none → ∃ info ∈ c.handles.handles, info.handle = m.source)
    (handle : GlobalHandle) : (c.processCommand m).1.loopHandles.findHandle handle ≠ none ↔
      c.loopHandles.findHandle handle ≠ none ∨ m.action.registers ≠ none ∧ m.source = handle := by
  by_cases hno : m.action.registers = none
  · rw [(c.kept_processCommand hno hm.stays_open).loop.findHandle]
    constructor
    · exact .inl
    · rintro (hold | ⟨hkind, _⟩)
      · exact hold
      · exact absurd hno hkind
  · obtain ⟨what, hkind⟩ := Option.ne_none_iff_exists'.mp hno
    obtain ⟨info, hinfo, hsource⟩ := huser hno
    have hdest := hm.dest_parent (of_registers hkind).2.2
    obtain ⟨c', joins, heq, hloop, _⟩ := InterfaceCore.registerInterface_frame (c := c) hdest
    rw [InterfaceCore.processCommand_registration hkind, heq, hloop]
    unfold InterfaceCore.copyHandle
    rw [← hsource, h.getHandleInfo hv hinfo]
    obtain ⟨i, hi⟩ := List.mem_iff_getElem?.mp hinfo
    rw [hv.position (h.user hi), HandleManager.findHandle_addHandleAtIndex]
    apply or_congr Iff.rfl
    constructor
    · exact fun heq => ⟨hno, heq.symm⟩
    · exact fun heq => heq.2.symm

theorem passes_registration (ho : CoreOutcome t r n c m result)
    (hkind : m.action.registers = some what) : .transmit parentRouteId m ∈ result.2 := by
  cases ho with
  | registered _ _ hdest hname =>
    obtain ⟨c', joins, heq, _, _⟩ := InterfaceCore.registerInterface_frame (c := c) hdest
    rw [heq, if_neg hname]
    exact List.mem_append_right _ (List.mem_singleton.mpr rfl)
  | asked _ hno => cases hno.symm.trans hkind
  | ended hgive => cases (of_givesUp hgive).1.symm.trans hkind
  | passed => exact List.mem_singleton.mpr rfl
  | added _ _ hfor | removed _ _ hfor => cases (of_isFor hfor).1.symm.trans hkind

end CoreSound

namespace CoreProper

theorem placed (h : CoreProper t r n c e) (hroot : n ≠ t.root)
    (hemit : InterfaceNet.emit t n e = some (l, m)) :
    Placed t r l m ∧ (∀ k, l ≠ .own k) ∧ ∀ k, l = .up k → k = n ∧
      (m.action.asksFor ≠ none → LoopIntroduced c m) := by
  cases e with
  | transmit route m' =>
    obtain ⟨rfl, hrise, hfits, hknown⟩ := h
    rw [InterfaceNet.emit_parent hroot] at hemit
    cases hemit
    refine ⟨⟨hroot, hrise, hfits⟩, fun k => nofun, ?_⟩
    rintro k ⟨⟩
    exact ⟨rfl, hknown⟩
  | addAction fed m' =>
    obtain ⟨hdest, hfor, hfits⟩ := h
    cases hemit
    exact ⟨⟨hfor, hdest, n, hfits⟩, fun k => nofun, nofun⟩
  | command | federateCommand | nullDereference => cases hemit

end CoreProper

variable [DualMapped String GlobalId]

namespace WiredBroker

variable {r : Roster}

theorem emit_routeMessage (hw : WiredBroker t n b) (hfits : Fits t r n m) :
    (m.action.isFor = none ∧ emit t n (b.routeMessage m) =
        if n = t.root then none else some (.up n, m)) ∨
      m.action.isFor ≠ none ∧ ∃ k, t.child n (b.getRoute m.dest.fedId) = some k ∧
        t.Inside m.dest.fedId k ∧ emit t n (b.routeMessage m) = some (.down k, m) := by
  unfold emit InterfaceBroker.routeMessage
  by_cases hrise : m.action.isFor = none
  · left
    have hroute : b.getRoute m.dest.fedId = parentRouteId := by
      unfold CoreBroker.getRoute
      rw [if_pos (.inl (hfits.dest_parent hrise))]
    refine ⟨hrise, ?_⟩
    dsimp only
    rw [hroute, if_pos rfl]
  · right
    obtain ⟨hne, k, hchild, hin⟩ := hw.routes (hfits.connected hrise).1
    refine ⟨hrise, k, hchild, hin, ?_⟩
    dsimp only
    rw [if_neg hne, hchild]
    rfl

end WiredBroker

namespace Proper

variable {r : Roster}

theorem placed (h : Proper t r n b e) (hw : WiredBroker t n b) (hemit : emit t n e = some (l, m)) :
    Placed t r l m ∧ (∀ k, l ≠ .own k) ∧ ∀ k, l = .up k → k = n ∧ e = b.routeMessage m ∧
      (m.action.asksFor ≠ none → Introduced b m) := by
  rcases h with ⟨m', rfl, hfits, hknown⟩ | ⟨_, _, rfl⟩
  · rcases hw.emit_routeMessage hfits with ⟨hrise, heq⟩ | ⟨hfor, k, _, hin, heq⟩
    · rw [heq] at hemit
      split at hemit
      · cases hemit
      rename_i hroot
      cases hemit
      refine ⟨⟨hroot, hrise, hfits⟩, fun k => nofun, ?_⟩
      rintro k ⟨⟩
      exact ⟨rfl, rfl, fun hask => (hknown hask).2⟩
    · rw [heq] at hemit
      cases hemit
      exact ⟨⟨hfor, (hfits.connected hfor).2.1 hin⟩, fun k => nofun, nofun⟩
  · cases hemit

end Proper

namespace InterfaceNet

variable {t : Topology} {r : Roster} {net net' : InterfaceNet}

theorem table_broker (hn : t.isCore n = false) : net.table t n = (net.brokers n).handles := by
  unfold table
  rw [if_neg (by rw [hn]; exact Bool.false_ne_true)]

theorem table_core (hn : t.isCore n = true) : net.table t n = (net.cores n).loopHandles := by
  unfold table
  rw [if_pos hn]

/-- The network after the step of a core or broker, by what the step does to its tables. -/
theorem NodeStep.of_knows (hflight : net'.flight = rest ++ new)
    (hbrokers : ∀ n, t.isCore n = false →
      WiredBroker t n (net'.brokers n) ∧ BrokerSound t r n (net'.brokers n))
    (hcores : ∀ n, t.isCore n = true → WiredCore t n (net'.cores n) ∧ CoreSound r n (net'.cores n))
    (husers : ∀ n, (net'.cores n).handles = (net.cores n).handles)
    (hothers : ∀ {n}, n ≠ k → net'.table t n = net.table t n)
    (hknows : ∀ handle, net'.Knows t k handle ↔
      net.Knows t k handle ∨ m.action.registers ≠ none ∧ m.source = handle)
    (hsent : m.action.registers ≠ none → k ≠ t.root → ¬ net.Knows t k m.source → (.up k, m) ∈ new)
    (hemitted : ∀ {l m'}, (l, m') ∈ new → Placed t r l m' ∧ (∀ n, l ≠ .own n) ∧
      ∀ n, l = .up n → n = k ∧
        (m'.action.asksFor ≠ none → m'.stringData = [] ∨ net.Knows t k m'.source)) :
    NodeStep t r { net with flight := rest } k m new net' where
  flight := hflight
  wiredBroker := fun hn => (hbrokers _ hn).1
  brokers := fun hn => (hbrokers _ hn).2
  wiredCore := fun hn => (hcores _ hn).1
  cores := fun hn => (hcores _ hn).2
  users := husers
  others := hothers
  grows := fun hold => (hknows _).mpr (.inl hold)
  learned := by
    intro handle hnew
    by_cases hold : net.Knows t k handle
    · exact .inl hold
    · obtain ⟨hreg, rfl⟩ := ((hknows handle).mp hnew).resolve_left hold
      exact .inr ⟨hreg, rfl, fun hroot => hsent hreg hroot hold⟩
  told := fun hreg => (hknows _).mpr (.inr ⟨hreg, rfl⟩)
  placed := fun hx => (hemitted hx).1
  rising := fun hx => (hemitted hx).2.2 _ rfl
  noOwn := fun hx => (hemitted hx).2.1 _ rfl

theorem Sound.brokerStep (h : Sound t r net) (hv : r.Valid t) (hk : t.isCore k = false)
    (hm : Fits t r k m)
    (ho : BrokerOutcome t r k (net.brokers k) m ((net.brokers k).processCommand m))
    (hbrokers : net'.brokers = Function.update net.brokers k ((net.brokers k).processCommand m).1)
    (hcores : net'.cores = net.cores)
    (hflight : net'.flight = rest ++ ((net.brokers k).processCommand m).2.filterMap (emit t k)) :
    NodeStep t r { net with flight := rest } k m
      (((net.brokers k).processCommand m).2.filterMap (emit t k)) net' := by
  have hw := h.wiredBroker hk
  obtain ⟨⟨hsound, hsame⟩, hproper⟩ := (h.brokers hk).after hv hw ho
  have hhandles := (h.brokers hk).handles_after hv hw ho
  have htable : ∀ n, net'.table t n = if n = k then ((net.brokers k).processCommand m).1.handles
      else net.table t n := by
    intro n
    unfold table
    rw [hcores, hbrokers]
    split
    · rename_i hn
      rw [if_neg (fun heq => by rw [heq, hk] at hn; cases hn)]
    · rw [Function.update_apply]
      split <;> rfl
  apply NodeStep.of_knows hflight _
    (by rw [hcores]; exact fun _ hn => ⟨h.wiredCore hn, h.cores hn⟩) (fun _ => by rw [hcores])
  · intro n hnk
    rw [htable, if_neg hnk]
  · intro handle
    unfold Knows
    rw [htable, if_pos rfl, table_broker hk]
    rcases hhandles with ⟨heq, htold⟩ | ⟨what, hkind, heq, _⟩
    · rw [heq]
      constructor
      · exact .inl
      · rintro (hold | ⟨hkind, rfl⟩)
        · exact hold
        · exact htold hkind
    · rw [heq, HandleManager.findHandle_push_ne_none, hkind]
      apply or_congr Iff.rfl
      constructor
      · exact fun hsource => ⟨Option.some_ne_none _, hsource.symm⟩
      · exact fun hsource => hsource.2.symm
  · intro hreg hroot hnew
    unfold Knows at hnew
    rw [table_broker hk] at hnew
    rcases hhandles with ⟨_, htold⟩ | ⟨what, hkind, _, hsent⟩
    · exact absurd (htold hreg) hnew
    refine List.mem_filterMap.mpr ⟨_, hsent (hw.root.trans (decide_eq_false hroot)), ?_⟩
    rcases hw.emit_routeMessage hm with ⟨_, heq⟩ | ⟨hfor, _⟩
    · rw [heq, if_neg hroot]
    · exact absurd (InterfaceAction.of_registers hkind).2.2 hfor
  · intro l m' hx
    obtain ⟨e, he, hemit⟩ := List.mem_filterMap.mp hx
    obtain ⟨hplaced, hown, hup⟩ := (hproper e he).placed hw hemit
    refine ⟨hplaced, hown, fun n hn => ⟨(hup n hn).1, fun hask => ?_⟩⟩
    unfold Knows
    rw [table_broker hk]
    exact (hup n hn).2.2 hask
  · rw [hbrokers]
    apply (Function.forall_update_iff _ fun n b =>
      t.isCore n = false → WiredBroker t n b ∧ BrokerSound t r n b).mpr
    exact ⟨fun _ => ⟨hw.of_sameRoutes hsame, hsound⟩,
      fun n _ hn => ⟨h.wiredBroker hn, h.brokers hn⟩⟩

end InterfaceNet

namespace CoreSound

variable {r : Roster}

end CoreSound

namespace CoreProper

variable {r : Roster}

end CoreProper

namespace InterfaceNet

variable {t : Topology} {r : Roster} {net net' : InterfaceNet}

theorem Sound.coreStep (ht : t.IsTree) (h : Sound t r net) (hv : r.Valid t) (hk : t.isCore k = true)
    (hm : Fits t r k m) (ho : CoreOutcome t r k (net.cores k) m ((net.cores k).processCommand m))
    (huser : m.action.registers ≠ none →
      ∃ info ∈ (net.cores k).handles.handles, info.handle = m.source)
    (hcores : net'.cores = Function.update net.cores k ((net.cores k).processCommand m).1)
    (hbrokers : net'.brokers = net.brokers)
    (hflight : net'.flight = rest ++ ((net.cores k).processCommand m).2.filterMap (emit t k)) :
    NodeStep t r { net with flight := rest } k m
      (((net.cores k).processCommand m).2.filterMap (emit t k)) net' := by
  have hroot := ht.core_ne_root hk
  have hw := h.wiredCore hk
  obtain ⟨hsound, hproper⟩ := (h.cores hk).after hv ho
  have hsame := (net.cores k).sameMembers_processCommand m
  apply NodeStep.of_knows hflight
    (by rw [hbrokers]; exact fun _ hn => ⟨h.wiredBroker hn, h.brokers hn⟩)
  · rw [hcores]
    apply (Function.forall_update_iff _ fun n c =>
      t.isCore n = true → WiredCore t n c ∧ CoreSound r n c).mpr
    exact ⟨fun _ => ⟨hw.of_sameMembers hsame, hsound⟩, fun n _ hn => ⟨h.wiredCore hn, h.cores hn⟩⟩
  · rw [hcores]
    apply (Function.forall_update_iff _ fun n (c : InterfaceCore) =>
      c.handles = (net.cores n).handles).mpr
    exact ⟨hsame.handles, fun _ _ => rfl⟩
  · intro n hnk
    unfold table
    rw [hcores, hbrokers, Function.update_of_ne hnk]
  · intro handle
    unfold Knows
    rw [table_core hk, table_core hk, hcores, Function.update_self]
    exact (h.cores hk).findHandle_processCommand hv hm huser handle
  · intro hreg _ _
    obtain ⟨what, hkind⟩ := Option.ne_none_iff_exists'.mp hreg
    exact List.mem_filterMap.mpr ⟨_, CoreSound.passes_registration ho hkind, emit_parent hroot m⟩
  · intro l m' hx
    obtain ⟨e, he, hemit⟩ := List.mem_filterMap.mp hx
    obtain ⟨hplaced, hown, hup⟩ := (hproper e he).placed hroot hemit
    refine ⟨hplaced, hown, fun n hn => ⟨(hup n hn).1, fun hask => ?_⟩⟩
    unfold Knows
    rw [table_core hk]
    exact (hup n hn).2 hask

end InterfaceNet

end Helics
