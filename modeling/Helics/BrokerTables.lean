import Helics.InterfaceRoster

namespace Helics

open HandleManager

open UnknownHandleManager (getTargets getLinks)
open InterfaceBroker (linkAsks mem_linkAsks)

namespace BrokerSound

theorem linkAsk (hhas : r.Has info) (hin : t.Inside info.handle.fedId n)
    (hcmd : cmd ∈ linkAsks u info.handleType info) :
    NameRequest t r n cmd info.handleType.partner info := by
  obtain ⟨_, _, hsource, _, hplain, hdest⟩ := mem_linkAsks hcmd
  exact ⟨hhas, hsource, (HandleType.partner_partner _).symm, hplain, hdest, hsource ▸ hin⟩

end BrokerSound

variable [DualMapped String GlobalId]

structure SameRoutes (b b' : InterfaceBroker) : Prop where
  root : b'.isRootc = b.isRootc
  id : b'.globalBrokerIdLocal = b.globalBrokerIdLocal
  higher : b'.higherBrokerId = b.higherBrokerId
  routes : b'.routingTable = b.routingTable
  federates : b'.federates = b.federates

namespace SameRoutes

theorem refl (b : InterfaceBroker) : SameRoutes b b := ⟨rfl, rfl, rfl, rfl, rfl⟩

section
variable {b b' : InterfaceBroker} (h : SameRoutes b b')
include h

theorem trans (h' : SameRoutes b' b'') : SameRoutes b b'' where
  root := h'.root.trans h.root
  id := h'.id.trans h.id
  higher := h'.higher.trans h.higher
  routes := h'.routes.trans h.routes
  federates := h'.federates.trans h.federates

theorem getRoute (dest : GlobalId) : b'.getRoute dest = b.getRoute dest := by
  unfold CoreBroker.getRoute
  rw [h.higher, h.routes]

theorem routeMessage (msg : InterfaceMessage) : b'.routeMessage msg = b.routeMessage msg := by
  unfold InterfaceBroker.routeMessage
  rw [h.getRoute]

theorem connected : b'.Connected fed ↔ b.Connected fed := by
  unfold InterfaceBroker.Connected
  rw [h.federates]

end

end SameRoutes

theorem InterfaceBroker.joinFor_frame (b : InterfaceBroker) (what : HandleType) :
    SameRoutes b (b.joinFor what).1 ∧ (b.joinFor what).1.handles = b.handles ∧
      (b.joinFor what).1.unknownHandles = b.unknownHandles ∧
      ∀ e ∈ (b.joinFor what).2, ∃ route cmd, e = .command route cmd := by
  have hframe : ∀ (b' : InterfaceBroker) (es : List InterfaceEffect), SameRoutes b b' →
      b'.handles = b.handles → b'.unknownHandles = b.unknownHandles →
      (es = [] ∨ ∃ route cmd, es = [.command route cmd]) →
      SameRoutes b b' ∧ b'.handles = b.handles ∧ b'.unknownHandles = b.unknownHandles ∧
        ∀ e ∈ es, ∃ route cmd, e = .command route cmd := by
    rintro b' es hs hh hu (rfl | ⟨route, cmd, rfl⟩)
    · exact ⟨hs, hh, hu, List.forall_mem_nil _⟩
    · exact ⟨hs, hh, hu, List.forall_mem_singleton.mpr ⟨route, cmd, rfl⟩⟩
  cases what with
  | endpoint =>
    unfold joinFor joinForEndpoint
    dsimp only
    split
    · exact hframe b [] (.refl b) rfl rfl (.inl rfl)
    · split
      · exact hframe _ _ ⟨rfl, rfl, rfl, rfl, rfl⟩ rfl rfl (.inr ⟨_, _, rfl⟩)
      · exact hframe b [] (.refl b) rfl rfl (.inl rfl)
  | filter =>
    unfold joinFor joinForFilter
    dsimp only
    split
    · exact hframe b [] (.refl b) rfl rfl (.inl rfl)
    · split
      · exact hframe _ _ ⟨rfl, rfl, rfl, rfl, rfl⟩ rfl rfl (.inr ⟨_, _, rfl⟩)
      · exact hframe _ [] ⟨rfl, rfl, rfl, rfl, rfl⟩ rfl rfl (.inl rfl)
  | publication | input | unknown => exact hframe b [] (.refl b) rfl rfl (.inl rfl)

/-- The place of a broker in the tree and its routes to the members below it. -/
structure WiredBroker (t : Topology) (n : GlobalId) (b : InterfaceBroker) : Prop where
  root : b.isRootc = decide (n = t.root)
  id : b.globalBrokerIdLocal = n
  distinct : ∀ {f}, t.Inside f n → f ≠ n
  routes : ∀ {f}, t.Inside f n → b.getRoute f ≠ parentRouteId ∧
    ∃ m, t.child n (b.getRoute f) = some m ∧ t.Inside f m
  connected : ∀ {f}, t.Inside f n → t.isCore f = false → b.Connected f

theorem WiredBroker.of_sameRoutes (h : WiredBroker t n b) (hs : SameRoutes b b') :
    WiredBroker t n b' where
  root := hs.root.trans h.root
  id := hs.id.trans h.id
  distinct := h.distinct
  routes := by
    intro f hf
    rw [hs.getRoute]
    exact h.routes hf
  connected := by
    intro f hf hcore
    rw [hs.connected]
    exact h.connected hf hcore

theorem WiredBroker.ne_root (h : WiredBroker t n b) (hinner : b.isRootc = false) : n ≠ t.root :=
  of_decide_eq_false (h.root.symm.trans hinner)

/-- A broker knows only registered interfaces below it, under their names and handles, and parks
only requests of registered interfaces below it. -/
structure BrokerSound (t : Topology) (r : Roster) (n : GlobalId) (b : InterfaceBroker) : Prop where
  table : ∀ {what name info}, b.handles.find what name = some info →
    r.Has info ∧ info.handleType = what ∧ info.key = name ∧ t.Inside info.handle.fedId n
  ids : ∀ {what name info}, b.handles.find what name = some info →
    b.handles.findHandle info.handle ≠ none
  named : ∀ {handle}, b.handles.findHandle handle ≠ none →
    ∃ info, b.handles.find info.handleType info.key = some info ∧ info.handle = handle
  parked : ∀ {what u}, u ∈ b.unknownHandles.requests what →
    checkActionFlag u.flags errorFlag = false ∧ t.Inside u.target.fedId n ∧
      ∃ info, r.Has info ∧ u.target = info.handle ∧ info.handleType = what.partner

def Introduced (b : InterfaceBroker) (cmd : InterfaceMessage) : Prop :=
  cmd.stringData = [] ∨ b.handles.findHandle cmd.source ≠ none

/-- An effect of a broker: a command that may be at the broker is routed, or it is another one. -/
def Proper (t : Topology) (r : Roster) (n : GlobalId) (b : InterfaceBroker) (e : InterfaceEffect) :
    Prop :=
  (∃ m, e = b.routeMessage m ∧ Fits t r n m ∧
    (m.action.asksFor ≠ none → b.isRootc = false ∧ Introduced b m)) ∨
  ∃ route cmd, e = .command route cmd

theorem Proper.route (hfits : Fits t r n m)
    (hno : m.action.asksFor = none) : Proper t r n b (b.routeMessage m) :=
  .inl ⟨m, rfl, hfits, fun hask => absurd hno hask⟩

theorem Proper.pair
    (h : PairFits t r n m m') : ∀ e ∈ [b.routeMessage m, b.routeMessage m'], Proper t r n b e :=
  List.forall_mem_cons.mpr ⟨.route h.first (InterfaceAction.of_isFor h.firstFor).2,
    List.forall_mem_singleton.mpr (.route h.second (InterfaceAction.of_isFor h.secondFor).2)⟩

theorem Proper.of_sameRoutes (h : Proper t r n b' e) (hs : SameRoutes b b')
    (hnew : b.isRootc = false → ∀ m, Introduced b' m → Introduced b m) : Proper t r n b e := by
  rcases h with ⟨m, rfl, hfits, hknown⟩ | hother
  · refine .inl ⟨m, hs.routeMessage m, hfits, fun hask => ?_⟩
    have hinner := hs.root.symm.trans (hknown hask).1
    exact ⟨hinner, hnew hinner m (hknown hask).2⟩
  · exact .inr hother

inductive AskOutcome (t : Topology) (r : Roster) (n : GlobalId) (b : InterfaceBroker)
    (cmd : InterfaceMessage) (what : HandleType) : InterfaceBroker × List InterfaceEffect → Prop
  | answered (hfound : r.Has found) (htype : found.handleType = what) (hkey : found.key = cmd.name)
      (hconnects : Connects cmd.source what found.handle first second)
      (hpair : PairFits t r n first second) :
      AskOutcome t r n b cmd what (b, [b.routeMessage first, b.routeMessage second])
  | parked (hroot : b.isRootc = true) (hnone : b.handles.find what cmd.name = none) :
      AskOutcome t r n b cmd what ({ b with
        unknownHandles := b.unknownHandles.park what ⟨cmd.name, cmd.source, cmd.flags⟩ }, [])
  | passed (hinner : b.isRootc = false) : AskOutcome t r n b cmd what (b, [b.routeMessage cmd])

theorem AskOutcome.frame (h : AskOutcome t r n b cmd what result) :
    SameRoutes b result.1 ∧ result.1.handles = b.handles := by
  cases h <;> exact ⟨⟨rfl, rfl, rfl, rfl, rfl⟩, rfl⟩

namespace BrokerSound

variable {r : Roster} {b : InterfaceBroker}

section
variable (h : BrokerSound t r n b)
include h

theorem park (hr : NameRequest t r n cmd what info) : BrokerSound t r n { b with
      unknownHandles := b.unknownHandles.park what ⟨cmd.name, cmd.source, cmd.flags⟩ } where
  table := h.table
  ids := h.ids
  named := h.named
  parked := by
    intro w u hu
    rw [UnknownHandleManager.requests_park] at hu
    rcases List.mem_append.mp hu with hu | hu
    · exact h.parked hu
    split at hu
    · rename_i hw
      rw [List.mem_singleton.mp hu, hw.1]
      exact ⟨hr.plain, hr.inside, info, hr.has, hr.source, hr.type⟩
    · cases hu

theorem drop
    (hsub : ∀ what, u.requests what ⊆ b.unknownHandles.requests what) :
    BrokerSound t r n { b with unknownHandles := u } where
  table := h.table
  ids := h.ids
  named := h.named
  parked := fun hu => h.parked (hsub _ hu)

theorem of_tables (hhandles : b'.handles = b.handles)
    (hunknown : b'.unknownHandles = b.unknownHandles) : BrokerSound t r n b' where
  table := by rw [hhandles]; exact h.table
  ids := by rw [hhandles]; exact h.ids
  named := by rw [hhandles]; exact h.named
  parked := by rw [hunknown]; exact h.parked

theorem checked (hv : r.Valid t) (hw : WiredBroker t n b)
    (hr : NameRequest t r n cmd what info) (hask : cmd.action.asksFor = some what)
    (hknown : Introduced b cmd) : AskOutcome t r n b cmd what (b.checkForNamedInterface cmd) := by
  rw [InterfaceBroker.checkForNamedInterface_eq hask]
  cases hfind : b.handles.find what cmd.name with
  | some found =>
    obtain ⟨hfound, htype, hkey, hin⟩ := h.table hfind
    have hfed : what ≠ .filter → b.Connected found.handle.fedId := by
      intro hwhat
      apply hw.connected hin
      rw [← Bool.not_eq_true, hv.owner hfound, htype]
      exact hwhat
    obtain ⟨first, second, heq, hconnects⟩ :=
      InterfaceBroker.connect_connects (hr.known hv) hfed hr.plain
    dsimp only
    rw [heq]
    exact .answered hfound htype hkey hconnects (hconnects.fits hfound rfl htype hr.has hr.source
      hr.type (hr.known hv) hin hr.inside)
  | none =>
    cases hroot : b.isRootc with
    | true =>
      rw [InterfaceBroker.parkRequest_root hroot hask hknown]
      exact .parked hroot hfind
    | false =>
      rw [InterfaceBroker.parkRequest_inner hroot]
      exact .passed hroot

theorem check (hr : NameRequest t r n cmd what info)
    (hask : cmd.action.asksFor = some what) (hknown : Introduced b cmd)
    (hc : AskOutcome t r n b cmd what result) :
    BrokerSound t r n result.1 ∧ ∀ e ∈ result.2, Proper t r n b e := by
  cases hc with
  | answered _ _ _ _ hpair => exact ⟨h, .pair hpair⟩
  | parked => exact ⟨h.park hr, List.forall_mem_nil _⟩
  | passed hinner =>
    exact ⟨h, List.forall_mem_singleton.mpr
      (.inl ⟨cmd, rfl, hr.fits (.inl hask), fun _ => ⟨hinner, hknown⟩⟩)⟩

end

section
variable (h : BrokerSound t r n b)
include h

section
variable (hv : r.Valid t)
include hv

theorem checkAll (hw : WiredBroker t n b)
    (hhas : r.Has info) (hin : t.Inside info.handle.fedId n)
    (hcmds : cmds ⊆ linkAsks u info.handleType info) {P : InterfaceBroker → Prop} (hP : P b)
    (hstep : ∀ {b cmd result}, AskOutcome t r n b cmd info.handleType.partner result → P b →
      P result.1) :
    (BrokerSound t r n (b.checkAll cmds).1 ∧ P (b.checkAll cmds).1) ∧
      SameRoutes b (b.checkAll cmds).1 ∧ (b.checkAll cmds).1.handles = b.handles ∧
      ∀ e ∈ (b.checkAll cmds).2, Proper t r n b e := by
  induction cmds generalizing b with
  | nil => exact ⟨⟨h, hP⟩, .refl b, rfl, List.forall_mem_nil _⟩
  | cons cmd cmds ih =>
    have hcmd := hcmds List.mem_cons_self
    have hr := linkAsk hhas hin hcmd
    obtain ⟨_, hask, _, hstrings, _⟩ := mem_linkAsks hcmd
    have hc := h.checked hv hw hr hask (.inl hstrings)
    obtain ⟨hsound, hproper⟩ := h.check hr hask (.inl hstrings) hc
    obtain ⟨hsame, hhandles⟩ := hc.frame
    obtain ⟨hrest, hsame', hhandles', hproper'⟩ := ih hsound (hw.of_sameRoutes hsame)
      (List.subset_of_cons_subset hcmds) (hstep hc hP)
    refine ⟨hrest, hsame.trans hsame', hhandles'.trans hhandles, ?_⟩
    refine List.forall_mem_append.mpr ⟨hproper, fun e he => ?_⟩
    refine (hproper' e he).of_sameRoutes hsame (fun _ m hm => ?_)
    unfold Introduced at hm ⊢
    rw [hhandles] at hm
    exact hm

theorem notified (hhas : r.Has info) (hin : t.Inside info.handle.fedId n)
    (hu : u ∈ getTargets (b.unknownHandles.requests info.handleType) info.key) :
    u.key = info.key ∧ ∃ first second,
      (b.notify info info.handleType u = [b.routeMessage first, b.routeMessage second] ∨
        b.notify info info.handleType u = [b.routeMessage second, b.routeMessage first]) ∧
      Connects u.target info.handleType info.handle first second ∧ PairFits t r n first second := by
  obtain ⟨hmem, hkey⟩ := List.mem_filter.mp hu
  obtain ⟨hplain, hin', info', hhas', htarget, htype⟩ := h.parked hmem
  obtain ⟨first, second, heq, hconnects⟩ := InterfaceBroker.notify_connects (hv.typed hhas)
    (hv.plain hhas).1 hplain (b := b)
  exact ⟨of_decide_eq_true hkey, first, second, heq, hconnects,
    hconnects.fits hhas rfl rfl hhas' htarget htype (hv.typed hhas) hin hin'⟩

theorem findandNotify (hw : WiredBroker t n b)
    (hhas : r.Has info) (hin : t.Inside info.handle.fedId n) :
    BrokerSound t r n (b.findandNotify info.handleType info).1 ∧
      SameRoutes b (b.findandNotify info.handleType info).1 ∧
      (b.findandNotify info.handleType info).1.handles = b.handles ∧
      ∀ e ∈ (b.findandNotify info.handleType info).2, Proper t r n b e := by
  obtain ⟨⟨hsound, _⟩, hsame, hhandles, hproper⟩ := h.checkAll hv hw hhas hin
    (List.Subset.refl (linkAsks b.unknownHandles info.handleType info)) (P := fun _ => True)
    trivial (fun _ _ => trivial)
  rw [b.findandNotify_eq info.handleType (hv.typed hhas)]
  refine ⟨hsound.drop fun what => ?_, hsame.trans ⟨rfl, rfl, rfl, rfl, rfl⟩, hhandles,
    List.forall_mem_append.mpr ⟨fun e he => ?_, hproper⟩⟩
  · rw [UnknownHandleManager.requests_clear]
    split
    · exact List.filter_subset_self _
    · exact List.Subset.refl _
  · obtain ⟨u, hu, he⟩ := List.mem_flatMap.mp he
    obtain ⟨_, first, second, heq, _, hpair⟩ := h.notified hv hhas hin hu
    rcases heq with heq | heq
    · exact Proper.pair hpair e (heq ▸ he)
    · exact Proper.pair hpair.symm e (heq ▸ he)

theorem push (hhas : r.Has info) (hin : t.Inside info.handle.fedId n)
    (hnew : b.handles.find info.handleType info.key = none) :
    BrokerSound t r n (b.withHandle info) where
  table := by
    intro what name info' hfind
    rcases find_push_cases (hv.typed hhas) (hv.named hhas) hfind with
      hold | ⟨_, rfl, rfl, rfl⟩
    · exact h.table hold
    · exact ⟨hhas, rfl, rfl, hin⟩
  ids := by
    intro what name info' hfind
    apply (b.handles.findHandle_push_ne_none info info'.handle).mpr
    rcases find_push_cases (hv.typed hhas) (hv.named hhas) hfind with
      hold | ⟨_, _, _, rfl⟩
    · exact .inl (h.ids hold)
    · exact .inr rfl
  named := by
    intro handle hhandle
    rcases (b.handles.findHandle_push_ne_none info handle).mp hhandle with hold | rfl
    · obtain ⟨info', hfind, heq⟩ := h.named hold
      exact ⟨info', find_push_of_some hfind info (hv.typed hhas) (hv.named hhas), heq⟩
    · refine ⟨info, ?_, rfl⟩
      show (b.handles.push info).find _ _ = _
      rw [find_push_of_none hnew info (hv.typed hhas) (hv.named hhas), if_pos rfl]
  parked := h.parked

end

end

end BrokerSound

end Helics
