import Helics.BrokerTables

namespace Helics

open InterfaceBroker InterfaceAction

variable [DualMapped String GlobalId]

/-- The registration of an interface below that a broker does not know yet. -/
structure Recorded (t : Topology) (r : Roster) (n : GlobalId) (b : InterfaceBroker)
    (m : InterfaceMessage) (info : HandleInfo) : Prop where
  kind : m.action.registers = some info.handleType
  fits : Fits t r n m
  has : r.Has info
  source : m.source = info.handle
  inside : t.Inside info.handle.fedId n
  record : b.registered m info.handleType = info
  new : b.handles.find info.handleType info.key = none

inductive BrokerOutcome (t : Topology) (r : Roster) (n : GlobalId) (b : InterfaceBroker)
    (m : InterfaceMessage) : InterfaceBroker × List InterfaceEffect → Prop
  | refused (hkind : m.action.registers ≠ none) (hknown : b.handles.findHandle m.source ≠ none)
      (word : String) : BrokerOutcome t r n b m (b, [b.duplicateError m word])
  | recorded (hnew : Recorded t r n b m info) (hroot : b.isRootc = true) :
      BrokerOutcome t r n b m ((b.withHandle info).findandNotify info.handleType info)
  | announced (hnew : Recorded t r n b m info) (hinner : b.isRootc = false) :
      BrokerOutcome t r n b m (((b.withHandle info).joinFor info.handleType).1,
        b.routeMessage m :: ((b.withHandle info).joinFor info.handleType).2)
  | asked (hr : NameRequest t r n cmd what info) (hno : m.action.registers = none)
      (hfrom : Becomes r m cmd what) (hask : cmd.action.asksFor = some what)
      (hknown : Introduced b cmd) (hc : AskOutcome t r n b cmd what result) :
      BrokerOutcome t r n b m result
  | linked (hkind : m.action.linksFirst = some first)
      (hfirst : first ∈ [HandleType.publication, .filter]) (hroot : b.isRootc = true)
      (hnone : b.handles.find first m.name = none) :
      BrokerOutcome t r n b m ({ b with
        unknownHandles := b.unknownHandles.parkLink first
          (checkActionFlag m.flags destinationTarget) (m.name, m.getString targetStringLoc) }, [])
  | ended (hgive : m.action.givesUp = some what) (hpair : PairFits t r n first second) :
      BrokerOutcome t r n b m (b, [b.routeMessage first, b.routeMessage second])
  | dropped (hgive : m.action.givesUp = some what) : BrokerOutcome t r n b m (b, [])
  | passed (hfits : Fits t r n m) (hno : m.action.registers = none) (hask : m.action.asksFor = none)
      (hrise : m.action.isFor = none → b.isRootc = false) :
      BrokerOutcome t r n b m (b, [b.routeMessage m])

namespace BrokerSound

variable {r : Roster} {b : InterfaceBroker} (h : BrokerSound t r n b) (hv : r.Valid t)
include h hv

theorem registration_outcome (hkind : m.action.registers = some info.handleType) (hhas : r.Has info)
    (hsource : m.source = info.handle) (hname : m.name = info.key) (hflags : m.flags = info.flags)
    (htype : m.getString typeStringLoc = info.type)
    (hunits : m.getString unitStringLoc = info.units)
    (hdest : m.dest.fedId = parentBrokerId) (hin : t.Inside m.source.fedId n) :
    BrokerOutcome t r n b m (b.processCommand m) := by
  have hrecord : b.registered m info.handleType = info :=
    registered_eq (hv.named hhas) hsource hname hflags htype hunits
  have hfits : Fits t r n m := .registration hkind hhas hsource hname hflags htype hunits hdest hin
  rw [processCommand_registration hkind hdest, hrecord]
  cases hfind : b.handles.find info.handleType m.name with
  | some found =>
    obtain ⟨hfound, htype', hkey, _⟩ := h.table hfind
    refine .refused (hkind.trans_ne (Option.some_ne_none _)) ?_ _
    rw [hsource, ← hv.unique hfound hhas htype' (hkey.trans hname)]
    exact h.ids hfind
  | none =>
    have hnew : Recorded t r n b m info :=
      ⟨hkind, hfits, hhas, hsource, hsource ▸ hin, hrecord, hname ▸ hfind⟩
    rw [if_neg (by exact Bool.false_ne_true)]
    cases hroot : b.isRootc with
    | true => exact .recorded hnew hroot
    | false =>
      have hroute : InterfaceEffect.transmit parentRouteId m = b.routeMessage m := by
        unfold routeMessage CoreBroker.getRoute
        rw [if_pos (.inl hdest)]
      rw [hroute]
      exact .announced hnew hroot

theorem link_outcome (hw : WiredBroker t n b) (hfits : Fits t r n m)
    (hkind : m.action.linksFirst = some first)
    (hplain : checkActionFlag m.flags errorFlag = false) (hdest : m.dest.fedId = parentBrokerId) :
    BrokerOutcome t r n b m (b.processCommand m) := by
  obtain ⟨hno, hnoask, _⟩ := of_linksFirst hkind
  obtain ⟨hfirst, askSecond, askFirst, hsecond, hask, heq⟩ :=
    processCommand_link (b := b) hkind
  have hself := first.partner_partner
  rw [heq]
  unfold processLink
  cases hfind : b.handles.find first m.name with
  | some info =>
    obtain ⟨hhas, htype, hkey, hin⟩ := h.table hfind
    have hr : NameRequest t r n { m with
        name := m.getString targetStringLoc
        action := askSecond
        source := info.handle } first.partner info :=
      ⟨hhas, rfl, htype.trans hself.symm, hplain, hdest, hin⟩
    exact .asked hr hno (.first (hself.symm ▸ hkind) hhas hr.type hkey rfl rfl) hsecond
      (.inr (h.ids hfind)) (h.checked hv hw hr hsecond (.inr (h.ids hfind)))
  | none =>
    cases hfind' : b.handles.find first.partner (m.getString targetStringLoc) with
    | some info =>
      obtain ⟨hhas, htype, hkey, hin⟩ := h.table hfind'
      have hr : NameRequest t r n { m with action := askFirst, source := info.handle } first info :=
        ⟨hhas, rfl, htype, hplain, hdest, hin⟩
      exact .asked hr hno (.second hkind hhas htype hkey rfl rfl) hask (.inr (h.ids hfind'))
        (h.checked hv hw hr hask (.inr (h.ids hfind')))
    | none =>
      dsimp only
      split
      · exact .linked hkind hfirst ‹_› hfind
      · exact .passed hfits hno hnoask (fun _ => Bool.eq_false_iff.mpr ‹_›)

theorem giveUp_outcome (hgive : m.action.givesUp = some what) (hr : NameRequest t r n m what info) :
    BrokerOutcome t r n b m (b.processCommand m) := by
  obtain ⟨hno, hnoask, _⟩ := of_givesUp hgive
  rw [processCommand_giveUp hgive]
  rcases removeNamedTarget_cases (b := b) hgive with
    ⟨found, back, hfind, hback, heq⟩ | heq
  · obtain ⟨hfound, rfl, _, hin⟩ := h.table hfind
    rw [heq]
    exact .ended hgive (pairFits hfound hr.has hr.type
      (HandleType.isFor_removePartner (hr.known hv))
      (hr.type ▸ hback) rfl hr.source hr.source rfl hr.plain hr.plain hin (hr.source ▸ hr.inside))
  rw [heq]
  cases hroot : b.isRootc with
  | true => exact .dropped hgive
  | false => exact .passed (hr.fits (.inr hgive)) hno hnoask (fun _ => hroot)

theorem outcome (hw : WiredBroker t n b) (hm : Fits t r n m)
    (hknown : m.action.asksFor ≠ none → Introduced b m) :
    BrokerOutcome t r n b m (b.processCommand m) := by
  cases hm with
  | registration hkind hhas hsource hname hflags htype hunits hdest hin =>
    exact h.registration_outcome hv hkind hhas hsource hname hflags htype hunits hdest hin
  | request hkind hhas hsource htype hplain hdest hin =>
    have hr : NameRequest t r n m _ _ := ⟨hhas, hsource, htype, hplain, hdest, hin⟩
    rcases hkind with hask | hgive
    · have hintro := hknown (hask.trans_ne (Option.some_ne_none _))
      rw [processCommand_ask hask]
      exact .asked hr (of_asksFor hask).1 (.same rfl) hask hintro
        (h.checked hv hw hr hask hintro)
    · exact h.giveUp_outcome hv hgive hr
  | link hkind hplain hdest =>
    have hfits : Fits t r n m := .link hkind hplain hdest
    rcases hkind with hact | hact
    · exact h.link_outcome hv hw hfits (by rw [hact]; rfl) hplain hdest
    · exact h.link_outcome hv hw hfits (by rw [hact]; rfl) hplain hdest
  | connection hkind hhas hdest hhas' hsource hpartner hplain hin =>
    have hfor := hkind.trans_ne (Option.some_ne_none _)
    rw [processCommand_connection hkind (by rw [hw.id]; exact hw.distinct hin)]
    exact .passed (.connection hkind hhas hdest hhas' hsource hpartner hplain hin)
      (of_isFor hfor).1 (of_isFor hfor).2 (fun hno => absurd hno hfor)

omit hv in
/-- A broker stays sound when it handles a command that may be there, and so does what it sends. -/
theorem after (hv : r.Valid t) (hw : WiredBroker t n b) (ho : BrokerOutcome t r n b m result) :
    (BrokerSound t r n result.1 ∧ SameRoutes b result.1) ∧ ∀ e ∈ result.2, Proper t r n b e := by
  have hadded : ∀ info, SameRoutes b (b.withHandle info) := fun _ => ⟨rfl, rfl, rfl, rfl, rfl⟩
  cases ho with
  | refused => exact ⟨⟨h, .refl b⟩, List.forall_mem_singleton.mpr (.inr ⟨_, _, rfl⟩)⟩
  | @recorded info hnew hroot =>
    obtain ⟨hsound, hsame, _, hproper⟩ := (h.push hv hnew.has hnew.inside hnew.new).findandNotify hv
      (hw.of_sameRoutes (hadded info)) hnew.has hnew.inside
    refine ⟨⟨hsound, (hadded info).trans hsame⟩, fun e he => ?_⟩
    exact (hproper e he).of_sameRoutes (hadded info)
      (fun hinner => by cases hroot.symm.trans hinner)
  | @announced info hnew =>
    obtain ⟨hsame, hhandles, hunknown, hother⟩ :=
      (b.withHandle info).joinFor_frame info.handleType
    refine ⟨⟨(h.push hv hnew.has hnew.inside hnew.new).of_tables hhandles hunknown,
      (hadded info).trans hsame⟩, List.forall_mem_cons.mpr ⟨?_, fun e he => .inr (hother e he)⟩⟩
    exact .route hnew.fits (of_registers hnew.kind).2.1
  | asked hr _ _ hask hknown hc =>
    obtain ⟨hsound, hproper⟩ := h.check hr hask hknown hc
    exact ⟨⟨hsound, hc.frame.1⟩, hproper⟩
  | linked =>
    refine ⟨⟨h.drop fun what => ?_, ⟨rfl, rfl, rfl, rfl, rfl⟩⟩, List.forall_mem_nil _⟩
    rw [UnknownHandleManager.requests_parkLink]
    exact List.Subset.refl _
  | ended _ hpair => exact ⟨⟨h, .refl b⟩, .pair hpair⟩
  | dropped => exact ⟨⟨h, .refl b⟩, List.forall_mem_nil _⟩
  | passed hfits _ hask => exact ⟨⟨h, .refl b⟩, List.forall_mem_singleton.mpr (.route hfits hask)⟩

/-- A broker learns of an interface only by its registration, which it passes on. -/
theorem handles_after (hw : WiredBroker t n b) (ho : BrokerOutcome t r n b m result) :
    result.1.handles = b.handles ∧
        (m.action.registers ≠ none → b.handles.findHandle m.source ≠ none) ∨
      ∃ what, m.action.registers = some what ∧
        result.1.handles = b.handles.push (b.registered m what) ∧
        (b.isRootc = false → b.routeMessage m ∈ result.2) := by
  cases ho with
  | refused _ hknown => exact .inl ⟨rfl, fun _ => hknown⟩
  | recorded hnew hroot =>
    obtain ⟨_, _, hhandles, _⟩ := (h.push hv hnew.has hnew.inside hnew.new).findandNotify hv
      (hw.of_sameRoutes ⟨rfl, rfl, rfl, rfl, rfl⟩) hnew.has hnew.inside
    refine .inr ⟨_, hnew.kind, ?_, fun hinner => by cases hroot.symm.trans hinner⟩
    rw [hhandles, hnew.record]
    rfl
  | announced hnew =>
    refine .inr ⟨_, hnew.kind, ?_, fun _ => List.mem_cons_self⟩
    rw [hnew.record]
    exact (joinFor_frame _ _).2.1
  | asked _ hno _ _ _ hc => exact .inl ⟨hc.frame.2, fun hreg => absurd hno hreg⟩
  | linked hkind =>
    exact .inl ⟨rfl, fun hreg => absurd (of_linksFirst hkind).1 hreg⟩
  | ended hgive | dropped hgive =>
    exact .inl ⟨rfl, fun hreg => absurd (of_givesUp hgive).1 hreg⟩
  | passed _ hno => exact .inl ⟨rfl, fun hreg => absurd hno hreg⟩

end BrokerSound

end Helics
