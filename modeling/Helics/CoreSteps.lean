import Helics.CoreAnswers

namespace Helics

open HandleManager InterfaceAction HandleType

/-- The interface that asks with strings of its own is known to the command loop. -/
def LoopIntroduced (c : InterfaceCore) (cmd : InterfaceMessage) : Prop :=
  cmd.stringData = [] ∨ c.loopHandles.findHandle cmd.source ≠ none

/-- An effect of a core: a command that goes up, a command about a connection for one of its
federates, or another one. -/
def CoreProper (t : Topology) (r : Roster) (n : GlobalId) (c : InterfaceCore) :
    InterfaceEffect → Prop
  | .transmit route m => route = parentRouteId ∧ m.action.isFor = none ∧ Fits t r n m ∧
      (m.action.asksFor ≠ none → LoopIntroduced c m)
  | .addAction fed m => m.dest.fedId = fed ∧ m.action.isFor ≠ none ∧ Fits t r n m
  | .nullDereference => False
  | _ => True

theorem Roster.Valid.place {r : Roster} (hv : r.Valid t) (ht : t.IsTree) (hcore : t.isCore n = true)
    (hw : WiredCore t n c) (hhas : r.Has info) (hin : t.Inside info.handle.fedId n) :
    info.handleType = .filter ∧ info.handle.fedId = c.globalBrokerIdLocal ∨
      info.handleType ≠ .filter ∧ info.handle.fedId ≠ c.globalBrokerIdLocal ∧
        c.isLocal info.handle.fedId = true := by
  have hhome := ht.home_of_inside hin hcore
  rw [hw.id]
  by_cases hfed : t.isCore info.handle.fedId = true
  · rw [ht.core_home hfed] at hhome
    exact .inl ⟨(hv.owner hhas).mp hfed, Option.some.inj hhome⟩
  refine .inr ⟨fun hfilter => hfed ((hv.owner hhas).mpr hfilter), ?_, ?_⟩
  · intro hself
    rw [hself] at hfed
    exact hfed hcore
  · exact hw.members.mpr ⟨Bool.not_eq_true _ ▸ hfed, hhome⟩

namespace InterfaceCore

variable {m : InterfaceMessage} {c : InterfaceCore}

theorem addTargetToInterface_data (hkind : m.action ≠ .cmdAddFilter)
    (hother : m.dest.fedId ≠ c.globalBrokerIdLocal) (hlocal : c.isLocal m.dest.fedId = true)
    (hplain : checkActionFlag m.flags errorFlag = false) :
    c.addTargetToInterface m = (c, [.addAction m.dest.fedId m]) := by
  unfold addTargetToInterface
  rw [if_neg hkind, if_neg hother, if_pos ⟨hlocal, hplain⟩]

theorem addTargetToInterface_filter (hkind : m.action = .cmdAddFilter) : c.addTargetToInterface m =
      ((c.processFilterInfo m).1,
        (c.processFilterInfo m).2 ++ (c.processFilterInfo m).1.dependentNotice m) := by
  unfold addTargetToInterface
  rw [if_pos hkind]

theorem addTargetToInterface_endpoint
    (hkind : m.action = .cmdAddEndpoint) (hself : m.dest.fedId = c.globalBrokerIdLocal) :
    c.addTargetToInterface m = (c.addFilterTarget m, []) := by
  unfold addTargetToInterface
  rw [if_neg (by rw [hkind]; exact nofun), if_pos hself, if_pos hkind]

theorem removeTargetFromInterface_data (hkind : m.action ≠ .cmdRemoveFilter)
    (hother : m.dest.fedId ≠ c.globalBrokerIdLocal) (hlocal : c.isLocal m.dest.fedId = true) :
    c.removeTargetFromInterface m = (c, [.addAction m.dest.fedId m]) := by
  unfold removeTargetFromInterface
  rw [if_neg hkind, if_neg hother, if_pos hlocal]

theorem removeTargetFromInterface_quiet (hkind : m.action = .cmdRemoveFilter ∨
      m.action = .cmdRemoveEndpoint ∧ m.dest.fedId = c.globalBrokerIdLocal) :
    (c.removeTargetFromInterface m).2 = [] := by
  unfold removeTargetFromInterface
  rcases hkind with hkind | ⟨hkind, hself⟩
  · rw [if_pos hkind]
    split
    · rfl
    · rfl
  · rw [if_neg (by rw [hkind]; exact nofun), if_pos hself]

end InterfaceCore

namespace CoreSound

variable {r : Roster}

theorem user {i : Nat} (h : CoreSound r n c) (hget : c.handles.handles[i]? = some info) :
    (r n)[i]? = some info := by
  obtain ⟨rest, hrest⟩ := h.users
  obtain ⟨hlt, _⟩ := List.getElem?_eq_some_iff.mp hget
  rw [← hrest, List.getElem?_append_left hlt]
  exact hget

theorem addHandleAtIndex {i : Nat} (h : CoreSound r n c) (hv : r.Valid t)
    (hi : (r n)[i]? = some info) :
    CoreSound r n { c with loopHandles := c.loopHandles.addHandleAtIndex info i } := by
  have hhas : r.Has info := ⟨n, List.mem_of_getElem? hi⟩
  have hnames : ∀ {what name j}, ((what, name), j) ∈ (c.loopHandles.addHandleAtIndex info i).names →
      what ≠ .unknown ∧ ∃ x, (c.loopHandles.addHandleAtIndex info i).handles[j]? = some x ∧
        x.handleType = what ∧ x.key = name := by
    intro what name j hmem
    rw [getElem_addHandleAtIndex]
    rw [names_addHandleAtIndex] at hmem
    rcases mem_searchName hmem with hold | hnew
    · obtain ⟨hwhat, x, hx, htype, hkey⟩ := h.names hold
      refine ⟨hwhat, ?_⟩
      split
      · rename_i hj
        subst hj
        rcases h.entries hx with hblank | ⟨info', hinfo', hlike⟩
        · exact absurd (htype.symm.trans hblank) hwhat
        · cases hi.symm.trans hinfo'
          exact ⟨info, rfl, hlike.handleType.symm.trans htype, hlike.key.symm.trans hkey⟩
      · obtain ⟨hlt, _⟩ := List.getElem?_eq_some_iff.mp hx
        rw [if_neg (by omega)]
        exact ⟨x, hx, htype, hkey⟩
    · cases hnew
      exact ⟨hv.typed hhas, info, if_pos rfl, rfl, rfl⟩
  refine ⟨h.users, ?_, hnames, ?_⟩
  · intro j x hx
    rw [getElem_addHandleAtIndex] at hx
    split at hx
    · rename_i hj
      subst hj
      cases hx
      exact .inr ⟨info, hi, .refl info⟩
    split at hx
    · cases hx
      exact .inl rfl
    · exact h.entries hx
  · intro what name x hfind
    obtain ⟨j, hj, hget⟩ := Option.bind_eq_some_iff.mp hfind
    obtain ⟨hwhat, x', hx', htype, _⟩ := hnames (mem_of_lookup hj)
    cases hx'.symm.trans hget
    rw [findHandle_addHandleAtIndex]
    rw [names_addHandleAtIndex,
      lookup_searchName (hv.typed hhas) (hv.named hhas)] at hj
    rw [getElem_addHandleAtIndex] at hget
    split at hget
    · cases hget
      exact .inr rfl
    rename_i hne
    split at hget
    · cases hget
      exact absurd htype.symm hwhat
    cases hlookup : c.loopHandles.names.lookup (what, name) with
    | some k =>
      rw [hlookup] at hj
      cases hj
      have hold : c.loopHandles.find what name = some x := by
        unfold find
        rw [hlookup]
        exact hget
      exact .inl (h.ids hold)
    | none =>
      rw [hlookup, Option.none_or] at hj
      split at hj
      · cases hj
        exact absurd rfl hne
      · cases hj

theorem copyHandle (h : CoreSound r n c) (hv : r.Valid t) (handle : InterfaceHandle) :
    CoreSound r n (c.copyHandle handle) := by
  unfold InterfaceCore.copyHandle
  cases hget : c.handles.getHandleInfo handle with
  | none => exact h
  | some info =>
    unfold getHandleInfo at hget
    split at hget
    · rename_i hpos
      obtain ⟨i, rfl⟩ := Int.eq_ofNat_of_zero_le hpos
      exact h.addHandleAtIndex hv (h.user hget)
    · cases hget

end CoreSound

section Effects

variable {r : Roster}

theorem addTargetToInterface_proper (hm : Fits t r n m) (hfor : m.action.isFor ≠ none)
    (he : e ∈ (InterfaceCore.addTargetToInterface c' m).2) : CoreProper t r n c e := by
  unfold InterfaceCore.addTargetToInterface at he
  split at he
  · rcases List.mem_append.mp he with he | he
    · rcases InterfaceCore.mem_processFilterInfo he with ⟨_, _, rfl⟩ | ⟨_, _, rfl⟩
      · trivial
      · trivial
    unfold InterfaceCore.dependentNotice at he
    split at he
    · rw [List.mem_singleton.mp he]
      trivial
    · cases he
  · split at he
    · cases he
    split at he
    · rw [List.mem_singleton.mp he]
      exact ⟨rfl, hfor, hm⟩
    · cases he

theorem removeTargetFromInterface_proper (hm : Fits t r n m) (hfor : m.action.isFor ≠ none)
    (he : e ∈ (InterfaceCore.removeTargetFromInterface c' m).2) : CoreProper t r n c e := by
  unfold InterfaceCore.removeTargetFromInterface at he
  split at he
  · split at he
    · cases he
    · cases he
  split at he
  · cases he
  split at he
  · rw [List.mem_singleton.mp he]
    exact ⟨rfl, hfor, hm⟩
  · cases he

theorem both_sound (h : CoreSound r n c)
    (hkept : ∀ c m, CoreKept c (handler c m).1)
    (hfirst : ∀ c', ∀ e ∈ (handler c' first).2, CoreProper t r n c e)
    (hsecond : ∀ c', ∀ e ∈ (handler c' second).2, CoreProper t r n c e) :
    CoreSound r n (c.both handler first second).1 ∧
      ∀ e ∈ (c.both handler first second).2, CoreProper t r n c e :=
  ⟨h.of_kept (InterfaceCore.kept_both hkept first second),
    List.forall_mem_append.mpr ⟨hfirst c, hsecond _⟩⟩

end Effects

inductive CoreAskOutcome (t : Topology) (r : Roster) (n : GlobalId) (c : InterfaceCore)
    (cmd : InterfaceMessage) (what : HandleType) : InterfaceCore × List InterfaceEffect → Prop
  | answered (hfound : r.Has found) (htype : found.handleType = what) (hkey : found.key = cmd.name)
      (hconnects : Connects cmd.source what found.handle first second)
      (hpair : PairFits t r n first second) :
      CoreAskOutcome t r n c cmd what (c.both InterfaceCore.addTargetToInterface first second)
  | passed : CoreAskOutcome t r n c cmd what (c, [.transmit parentRouteId cmd])

inductive CoreOutcome (t : Topology) (r : Roster) (n : GlobalId) (c : InterfaceCore)
    (m : InterfaceMessage) : InterfaceCore × List InterfaceEffect → Prop
  | registered (hkind : m.action.registers = some what) (hfits : Fits t r n m)
      (hdest : m.dest.fedId = parentBrokerId) (hname : m.name ≠ "") :
      CoreOutcome t r n c m (c.registerInterface m)
  | asked (hr : NameRequest t r n cmd what info) (hno : m.action.registers = none)
      (hfrom : Becomes r m cmd what) (hask : cmd.action.asksFor = some what)
      (hknown : LoopIntroduced c cmd) (hc : CoreAskOutcome t r n c cmd what result) :
      CoreOutcome t r n c m result
  | ended (hgive : m.action.givesUp = some what) (hpair : PairFits t r n first second) :
      CoreOutcome t r n c m (c.both InterfaceCore.removeTargetFromInterface first second)
  | passed (hfits : Fits t r n m) (hrise : m.action.isFor = none) (hask : m.action.asksFor = none) :
      CoreOutcome t r n c m (c, [.transmit parentRouteId m])
  | added {what : HandleType} (hfits : Fits t r n m) (hact : m.action = what.addPartner)
      (hfor : m.action.isFor ≠ none) : CoreOutcome t r n c m (c.addTargetToInterface m)
  | removed {what : HandleType} (hfits : Fits t r n m) (hact : m.action = what.removePartner)
      (hfor : m.action.isFor ≠ none) : CoreOutcome t r n c m (c.removeTargetFromInterface m)

namespace CoreSound

variable {r : Roster} (h : CoreSound r n c) (hv : r.Valid t)
include h hv

theorem found (hfind : c.loopHandles.find what name = some x) :
    ∃ info, r.Has info ∧ x.handle = info.handle ∧ info.handleType = what ∧ info.key = name ∧
      t.Inside x.handle.fedId n ∧ checkActionFlag x.flags disconnectedFlag = false := by
  obtain ⟨info, hmem, hlike, htype, hkey⟩ := h.table hfind
  refine ⟨info, ⟨n, hmem⟩, hlike.handle, hlike.handleType.symm.trans htype,
    hlike.key.symm.trans hkey, ?_, ?_⟩
  · rw [hlike.handle]
    exact Topology.inside_home (hv.home hmem)
  · rw [hlike.open_iff]
    exact (hv.plain ⟨n, hmem⟩).2

theorem checked (hr : NameRequest t r n cmd what info) (hask : cmd.action.asksFor = some what) :
    CoreAskOutcome t r n c cmd what (c.checkForNamedInterface cmd) := by
  cases hfind : c.loopHandles.find what cmd.name with
  | some x =>
    obtain ⟨found, hfound, hhandle, htype, hkey, hin, hopen⟩ := h.found hv hfind
    obtain ⟨first, second, heq, hconnects⟩ := InterfaceCore.checkForNamedInterface_of_known hask
      hfind hopen hr.plain
    rw [heq]
    exact .answered hfound htype hkey (hhandle ▸ hconnects) (hconnects.fits hfound hhandle htype
      hr.has hr.source hr.type (hr.known hv) hin hr.inside)
  | none =>
    rw [InterfaceCore.checkForNamedInterface_of_unknown hask hfind,
      InterfaceCore.routeMessage_parent hr.dest]
    exact .passed

theorem link_outcome (hfits : Fits t r n m) (hkind : m.action.linksFirst = some first)
    (hplain : checkActionFlag m.flags errorFlag = false) (hdest : m.dest.fedId = parentBrokerId) :
    CoreOutcome t r n c m (c.processCommand m) := by
  obtain ⟨askSecond, askFirst, heq, ⟨hask, hname, hflags, hto⟩, hask', hname', hflags', hto'⟩ :=
    InterfaceCore.processCommand_link (c := c) hkind
  obtain ⟨hno, hnoask, hrise⟩ := of_linksFirst hkind
  have hself := first.partner_partner
  rw [heq]
  cases hfind : c.loopHandles.find first m.name with
  | some x =>
    obtain ⟨info, hhas, hhandle, htype, hkey, hin, _⟩ := h.found hv hfind
    have hr : NameRequest t r n { askSecond with source := x.handle } first.partner info :=
      ⟨hhas, hhandle, htype.trans hself.symm, hflags ▸ hplain, hto ▸ hdest, hin⟩
    exact .asked hr hno (.first (hself.symm ▸ hkind) hhas hr.type hkey hname hhandle) hask
      (.inr (h.ids hfind)) (h.checked hv hr hask)
  | none =>
    cases hfind' : c.loopHandles.find first.partner (m.getString targetStringLoc) with
    | some x =>
      obtain ⟨info, hhas, hhandle, htype, hkey, hin, _⟩ := h.found hv hfind'
      have hr : NameRequest t r n { askFirst with source := x.handle } first info :=
        ⟨hhas, hhandle, htype, hflags' ▸ hplain, hto' ▸ hdest, hin⟩
      exact .asked hr hno (.second hkind hhas htype hkey hname' hhandle) hask'
        (.inr (h.ids hfind')) (h.checked hv hr hask')
    | none =>
      rw [InterfaceCore.routeMessage_parent hdest]
      exact .passed hfits hrise hnoask

theorem giveUp_outcome (hgive : m.action.givesUp = some what) (hr : NameRequest t r n m what info) :
    CoreOutcome t r n c m (c.processCommand m) := by
  rw [InterfaceCore.processCommand_giveUp hgive, InterfaceCore.removeNamedTarget_eq hgive]
  cases hfind : c.loopHandles.find what m.name with
  | some x =>
    obtain ⟨found, hfound, hhandle, rfl, _, hin, _⟩ := h.found hv hfind
    have hfor := isFor_removePartner (partner_ne_unknown (hr.known hv))
    exact .ended hgive (pairFits hfound hr.has hr.type (isFor_removePartner (hr.known hv))
      (hr.type ▸ hfor) hhandle hr.source hr.source hhandle hr.plain hr.plain (hhandle ▸ hin)
      (hr.source ▸ hr.inside))
  | none =>
    rw [InterfaceCore.routeMessage_parent hr.dest]
    exact .passed (hr.fits (.inr hgive)) (of_givesUp hgive).2.2
      (of_givesUp hgive).2.1

theorem outcome (hm : Fits t r n m) (hknown : m.action.asksFor ≠ none → LoopIntroduced c m) :
    CoreOutcome t r n c m (c.processCommand m) := by
  cases hm with
  | registration hkind hhas hsource hname hflags htype hunits hdest hin =>
    rw [InterfaceCore.processCommand_registration hkind]
    exact .registered hkind (.registration hkind hhas hsource hname hflags htype hunits hdest hin)
      hdest (hname ▸ hv.named hhas)
  | request hkind hhas hsource htype hplain hdest hin =>
    have hr : NameRequest t r n m _ _ := ⟨hhas, hsource, htype, hplain, hdest, hin⟩
    rcases hkind with hask | hgive
    · rw [InterfaceCore.processCommand_ask hask]
      exact .asked hr (of_asksFor hask).1 (.same rfl) hask
        (hknown (hask.trans_ne (Option.some_ne_none _))) (h.checked hv hr hask)
    · exact h.giveUp_outcome hv hgive hr
  | link hkind hplain hdest =>
    have hfits : Fits t r n m := .link hkind hplain hdest
    rcases hkind with hact | hact
    · exact h.link_outcome hv hfits (by rw [hact]; rfl) hplain hdest
    · exact h.link_outcome hv hfits (by rw [hact]; rfl) hplain hdest
  | connection hkind hhas hdest hhas' hsource hpartner hplain hin =>
    have hfits : Fits t r n m := .connection hkind hhas hdest hhas' hsource hpartner hplain hin
    have hfor := hkind.trans_ne (Option.some_ne_none _)
    rcases InterfaceCore.processCommand_connection (c := c) hkind with ⟨hact, heq⟩ | ⟨hact, heq⟩
    · exact heq ▸ .added hfits hact hfor
    · exact heq ▸ .removed hfits hact hfor

theorem registerInterface (hfits : Fits t r n cmd) (hkind : cmd.action.registers = some what)
    (hdest : cmd.dest.fedId = parentBrokerId) : CoreSound r n (c.registerInterface cmd).1 ∧
      ∀ e ∈ (c.registerInterface cmd).2, CoreProper t r n c e := by
  obtain ⟨c', joins, heq, hloop, hjoins⟩ :=
    InterfaceCore.registerInterface_frame (c := c) hdest
  have hsame := (c.sameMembers_registerInterface cmd).handles
  rw [heq] at hsame ⊢
  constructor
  · apply (h.copyHandle hv cmd.source.handle).of_relabeled
    · exact hsame.trans (c.sameMembers_copyHandle _).handles.symm
    · rw [hloop]
      exact .refl _
  · intro e he
    rcases List.mem_append.mp he with he | he
    · rcases hjoins e he with ⟨_, _, rfl⟩ | ⟨_, _, rfl⟩
      · trivial
      · trivial
    split at he
    · cases he
    · rw [List.mem_singleton.mp he]
      obtain ⟨_, hask, hfor⟩ := of_registers hkind
      exact ⟨rfl, hfor, hfits, fun hno => absurd hask hno⟩

/-- A core stays sound when it handles a command that may be there, and so does what it sends. -/
theorem after (ho : CoreOutcome t r n c m result) :
    CoreSound r n result.1 ∧ ∀ e ∈ result.2, CoreProper t r n c e := by
  cases ho with
  | registered hkind hfits hdest => exact h.registerInterface hv hfits hkind hdest
  | asked hr _ _ hask hknown hc =>
    cases hc with
    | answered _ _ _ _ hpair =>
      exact both_sound h InterfaceCore.kept_addTargetToInterface
        (fun _ e he => addTargetToInterface_proper hpair.first hpair.firstFor he)
        (fun _ e he => addTargetToInterface_proper hpair.second hpair.secondFor he)
    | passed =>
      exact ⟨h, List.forall_mem_singleton.mpr
        ⟨rfl, (of_asksFor hask).2, hr.fits (.inl hask), fun _ => hknown⟩⟩
  | ended _ hpair =>
    exact both_sound h InterfaceCore.kept_removeTargetFromInterface
      (fun _ e he => removeTargetFromInterface_proper hpair.first hpair.firstFor he)
      (fun _ e he => removeTargetFromInterface_proper hpair.second hpair.secondFor he)
  | passed hfits hrise hask =>
    exact ⟨h, List.forall_mem_singleton.mpr ⟨rfl, hrise, hfits, fun hno => absurd hask hno⟩⟩
  | added hfits _ hfor =>
    exact ⟨h.of_kept (c.kept_addTargetToInterface m),
      fun e he => addTargetToInterface_proper hfits hfor he⟩
  | removed hfits _ hfor =>
    exact ⟨h.of_kept (c.kept_removeTargetFromInterface m),
      fun e he => removeTargetFromInterface_proper hfits hfor he⟩

end CoreSound

end Helics
