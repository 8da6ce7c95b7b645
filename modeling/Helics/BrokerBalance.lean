import Helics.NetworkNodes

namespace Helics

open UnknownHandleManager InterfaceNet LinkNetwork HandleType
open LinkNetwork (total)
open UnknownHandleManager (getTargets getLinks)
open InterfaceBroker (linkAsks mem_linkAsks)

theorem sum_filter_add (p : α → Bool) (f : α → Nat) (l : List α) :
    (l.map f).sum = ((l.filter (fun x => !p x)).map f).sum + ((l.filter p).map f).sum := by
  induction l with
  | nil => rfl
  | cons x l ih =>
    cases hx : p x with
    | true => simp [hx, ih]; omega
    | false => simp [hx, ih]; omega

structure Weights where
  message : InterfaceMessage → Nat
  request : HandleType → UnknownTarget → Nat
  link : HandleType → String × String → Nat

namespace Weights

def parkedFor (w : Weights) (u : UnknownHandleManager) (what : HandleType) : Nat :=
  ((u.requests what).map (w.request what)).sum + ((u.links what).map (w.link what)).sum

def parked (w : Weights) (u : UnknownHandleManager) : Nat :=
  w.parkedFor u .publication + w.parkedFor u .input + w.parkedFor u .endpoint +
    w.parkedFor u .filter

def emitted (w : Weights) (t : Topology) (n : GlobalId) (es : List InterfaceEffect) : Nat :=
  total (fun x => w.message x.2) (es.filterMap (emit t n))

variable (w : Weights) (t : Topology)

@[simp] theorem emitted_nil (n : GlobalId) : w.emitted t n [] = 0 := rfl

theorem emitted_append (n : GlobalId) (es es' : List InterfaceEffect) :
    w.emitted t n (es ++ es') = w.emitted t n es + w.emitted t n es' := by
  unfold emitted
  rw [List.filterMap_append, total_append]

theorem emitted_cons (n : GlobalId) (e : InterfaceEffect) (es : List InterfaceEffect) :
    w.emitted t n (e :: es) = w.emitted t n [e] + w.emitted t n es :=
  w.emitted_append t n [e] es

theorem emitted_other {t : Topology}
    (h : ∀ e ∈ es, (∃ route m, e = .command route m) ∨ ∃ fed m, e = .federateCommand fed m) :
    w.emitted t n es = 0 := by
  unfold emitted
  rw [filterMap_emit_other h, total_nil]

theorem emitted_route [DualMapped String GlobalId] {b : InterfaceBroker} {t : Topology}
    (hw : WiredBroker t n b) (hfits : Fits t r n m)
    (hup : m.action.isFor = none → n ≠ t.root) :
    w.emitted t n [b.routeMessage m] = w.message m := by
  have hemit : ∃ l, emit t n (b.routeMessage m) = some (l, m) := by
    rcases hw.emit_routeMessage hfits with ⟨hrise, heq⟩ | ⟨_, k, _, _, heq⟩
    · rw [heq, if_neg (hup hrise)]
      exact ⟨_, rfl⟩
    · exact ⟨_, heq⟩
  obtain ⟨l, hl⟩ := hemit
  unfold emitted
  rw [List.filterMap_cons, hl]
  show total _ [(l, m)] = _
  rw [total_cons]
  rfl

variable {what : HandleType}

theorem parked_add (hwhat : what ≠ .unknown)
    (hfor : ∀ k, w.parkedFor u' k = w.parkedFor u k + if k = what then n else 0) :
    w.parked u' = w.parked u + n := by
  unfold parked
  rw [hfor, hfor, hfor, hfor]
  cases what with
  | unknown => exact absurd rfl hwhat
  | _ =>
    simp only [reduceCtorEq, if_false, if_true]
    omega

variable (u : UnknownHandleManager)

theorem parked_park (hwhat : what ≠ .unknown)
    (x : UnknownTarget) : w.parked (u.park what x) = w.parked u + w.request what x := by
  refine w.parked_add hwhat fun k => ?_
  unfold parkedFor
  rw [u.links_park, requests_park, List.map_append, List.sum_append,
    Nat.add_right_comm]
  by_cases hk : k = what
  · subst hk
    rw [if_pos ⟨rfl, hwhat⟩, if_pos rfl, List.map_singleton, List.sum_singleton]
  · rw [if_neg fun h => hk h.1, if_neg hk]
    rfl

theorem parked_clear (hwhat : what ≠ .unknown)
    (name : String) : w.parked u = w.parked (u.clear what name) +
      (((getTargets (u.requests what) name).map (w.request what)).sum +
      (((u.links what).filter (fun p => decide (p.1 = name))).map (w.link what)).sum) := by
  refine w.parked_add hwhat fun k => ?_
  unfold parkedFor
  rw [requests_clear, links_clear]
  by_cases hk : k = what
  · subst hk
    rw [if_pos rfl, if_pos rfl, if_pos rfl, sum_filter_add (fun x => decide (x.key = name)),
      sum_filter_add (fun p => decide (p.1 = name)) (w.link k)]
    simp only [withoutKey, withoutLinks, getTargets,
      decide_not]
    omega
  · rw [if_neg hk, if_neg hk, if_neg hk]
    rfl

theorem parked_parkLink (destination : Bool)
    (p : String × String) (hfirst : first ∈ [HandleType.publication, .filter]) :
    w.parked (u.parkLink first destination p) = w.parked u + w.link first p := by
  have hwhat : first ≠ .unknown := by
    rcases List.mem_pair.mp hfirst with rfl | rfl <;> exact nofun
  refine w.parked_add hwhat fun k => ?_
  unfold parkedFor
  rw [requests_parkLink,
    ((u.links_parkLink destination p hfirst k).map _).sum_eq, List.map_append, List.sum_append,
    ← Nat.add_assoc]
  by_cases hk : k = first
  · subst hk
    rw [if_pos rfl, if_pos rfl, List.map_singleton, List.sum_singleton]
  · rw [if_neg hk, if_neg hk]
    rfl

end Weights

/-- Weights that do not change when a request is answered, parked or taken from the parked ones. -/
structure Weights.Fair (w : Weights) (r : Roster) : Prop where
  registration : ∀ {m : InterfaceMessage}, m.action.registers ≠ none → w.message m = 0
  ask : ∀ {m : InterfaceMessage} {what}, m.action.asksFor = some what →
    w.message m = w.request what ⟨m.name, m.source, m.flags⟩
  link : ∀ {m : InterfaceMessage} {what}, m.action.linksFirst = some what →
    w.message m = w.link what (m.name, m.getString targetStringLoc)
  answered : ∀ {asker what info first second} (flags : UInt16),
    Connects asker what info.handle first second → r.Has info → info.handleType = what →
    w.message first + w.message second = w.request what ⟨info.key, asker, flags⟩
  linkFirst : ∀ {what info} (name : String) (flags : UInt16), r.Has info → info.handleType = what →
    what ∈ [publication, .filter] →
    w.link what (info.key, name) = w.request what.partner ⟨name, info.handle, flags⟩
  linkSecond : ∀ {what info} (name : String) (flags : UInt16), r.Has info →
    info.handleType = what.partner → what ∈ [publication, .filter] →
    w.link what (name, info.key) = w.request what ⟨name, info.handle, flags⟩

namespace Weights.Fair

variable {w : Weights} {t : Topology} {r : Roster}

theorem sum_linkAsks (hw : w.Fair r) (hhas : r.Has info) (htype : info.handleType = what)
    (u : UnknownHandleManager) : ((linkAsks u what info).map w.message).sum =
      (((u.links what).filter (fun p => decide (p.1 = info.key))).map (w.link what)).sum := by
  have hlink : ∀ (table : List (String × String)) (ask : String → InterfaceMessage),
      what ∈ [publication, .filter] →
      (∀ name, (ask name).action.asksFor = some what.partner ∧ (ask name).name = name ∧
        (ask name).source = info.handle) →
      (((getLinks table info.key).map ask).map w.message).sum =
        ((table.filter (fun p => decide (p.1 = info.key))).map (w.link what)).sum := by
    intro table ask hwhat hask
    unfold getLinks
    rw [List.map_map, List.map_map]
    congr 1
    apply List.map_congr_left
    rintro ⟨x, y⟩ hp
    have hx : x = info.key := of_decide_eq_true (List.mem_filter.mp hp).2
    obtain ⟨hkind, hname, hsource⟩ := hask y
    show w.message (ask y) = w.link what (x, y)
    rw [hw.ask hkind, hname, hsource, hx]
    exact (hw.linkFirst y _ hhas htype hwhat).symm
  cases what with
  | publication => exact hlink _ _ (by decide) (fun name => ⟨rfl, rfl, rfl⟩)
  | filter =>
    show (List.map w.message (_ ++ _)).sum = (List.map _ (List.filter _ (_ ++ _))).sum
    rw [List.map_append, List.sum_append, List.filter_append, List.map_append, List.sum_append,
      hlink _ _ (by decide) (fun name => ⟨rfl, rfl, rfl⟩),
      hlink _ _ (by decide) (fun name => ⟨rfl, rfl, rfl⟩)]
  | unknown | input | endpoint => rfl

theorem becomes (hw : w.Fair r) (h : Becomes r m cmd what)
    (hask : cmd.action.asksFor = some what) : w.message cmd = w.message m := by
  cases h with
  | same heq => rw [heq]
  | first hkind hhas htype hkey hname hsource =>
    rw [hw.ask hask, hw.link hkind, hname, hsource, ← hkey,
      hw.linkFirst _ cmd.flags hhas htype (InterfaceAction.mem_of_linksFirst hkind),
      partner_partner]
  | second hkind hhas htype hkey hname hsource =>
    rw [hw.ask hask, hw.link hkind, hname, hsource, ← hkey,
      hw.linkSecond _ cmd.flags hhas htype (InterfaceAction.mem_of_linksFirst hkind)]

variable [DualMapped String GlobalId]

theorem emitted_pair (hwired : WiredBroker t n b) (hpair : PairFits t r n first second) :
    w.emitted t n [b.routeMessage first, b.routeMessage second] =
      w.message first + w.message second := by
  rw [w.emitted_cons, w.emitted_route hwired hpair.first (fun h => absurd h hpair.firstFor),
    w.emitted_route hwired hpair.second (fun h => absurd h hpair.secondFor)]

variable (hw : w.Fair r) (hv : r.Valid t)
include hw hv

theorem check (hwired : WiredBroker t n b) (hr : NameRequest t r n cmd what info)
    (hask : cmd.action.asksFor = some what) (hc : AskOutcome t r n b cmd what result) :
    w.emitted t n result.2 + w.parked result.1.unknownHandles =
      w.message cmd + w.parked b.unknownHandles := by
  cases hc with
  | answered hfound htype hkey hconnects hpair =>
    rw [emitted_pair hwired hpair, hw.answered cmd.flags hconnects hfound htype, hkey, hw.ask hask]
  | parked =>
    rw [w.emitted_nil, w.parked_park _ (hr.known hv), hw.ask hask]
    omega
  | passed hinner =>
    rw [w.emitted_route hwired (hr.fits (.inl hask)) (fun _ => hwired.ne_root hinner)]

section
variable {b : InterfaceBroker} (hb : BrokerSound t r n b)
include hb

section
variable (hwired : WiredBroker t n b)
include hwired

theorem checkAll
    (hhas : r.Has info) (hin : t.Inside info.handle.fedId n)
    (hcmds : cmds ⊆ linkAsks u info.handleType info) :
    w.emitted t n (b.checkAll cmds).2 + w.parked (b.checkAll cmds).1.unknownHandles =
      (cmds.map w.message).sum + w.parked b.unknownHandles := by
  induction cmds generalizing b with
  | nil => rfl
  | cons cmd cmds ih =>
    have hcmd := hcmds List.mem_cons_self
    have hr := BrokerSound.linkAsk hhas hin hcmd
    obtain ⟨_, hask, _, hstrings, _⟩ := mem_linkAsks hcmd
    have hc := hb.checked hv hwired hr hask (.inl hstrings)
    have hfirst := hw.check hv hwired hr hask hc
    have hrest := ih (hb.check hr hask (.inl hstrings) hc).1 (hwired.of_sameRoutes hc.frame.1)
      (List.subset_of_cons_subset hcmds)
    show w.emitted t n (_ ++ _) + w.parked
      ((b.checkForNamedInterface cmd).1.checkAll cmds).1.unknownHandles = _
    rw [w.emitted_append, List.map_cons, List.sum_cons]
    omega

theorem notifyAll (hhas : r.Has info)
    (hin : t.Inside info.handle.fedId n) (targets : List UnknownTarget)
    (hsub : targets ⊆ getTargets (b.unknownHandles.requests info.handleType) info.key) :
    w.emitted t n (targets.flatMap (b.notify info info.handleType)) =
      (targets.map (w.request info.handleType)).sum := by
  induction targets with
  | nil => rfl
  | cons u targets ih =>
    obtain ⟨hkey, first, second, heq, hconnects, hpair⟩ :=
      hb.notified hv hhas hin (hsub List.mem_cons_self)
    have hone : w.emitted t n (b.notify info info.handleType u) = w.request info.handleType u := by
      have hsum := hw.answered u.flags hconnects hhas rfl
      rw [← hkey] at hsum
      rcases heq with heq | heq
      · rw [heq, emitted_pair hwired hpair]
        exact hsum
      · rw [heq, emitted_pair hwired hpair.symm, Nat.add_comm]
        exact hsum
    rw [List.flatMap_cons, w.emitted_append, hone, List.map_cons, List.sum_cons,
      ih (List.subset_of_cons_subset hsub)]

theorem findandNotify (hhas : r.Has info) (hin : t.Inside info.handle.fedId n) :
    w.emitted t n (b.findandNotify info.handleType info).2 +
        w.parked (b.findandNotify info.handleType info).1.unknownHandles =
      w.parked b.unknownHandles := by
  have hwhat := hv.typed hhas
  obtain ⟨⟨_, hrequests, hlinks⟩, _⟩ := hb.checkAll hv hwired hhas hin
    (List.Subset.refl (linkAsks b.unknownHandles info.handleType info))
    (P := fun b' => b'.unknownHandles.requests info.handleType =
        b.unknownHandles.requests info.handleType ∧
      b'.unknownHandles.links info.handleType = b.unknownHandles.links info.handleType)
    ⟨rfl, rfl⟩ (by
      intro b' cmd result hc hsame
      cases hc with
      | answered | passed => exact hsame
      | parked =>
        rw [UnknownHandleManager.requests_park, UnknownHandleManager.links_park,
          if_neg (fun h => partner_ne hwhat h.1.symm), List.append_nil]
        exact hsame)
  have hanswers := hw.notifyAll hv hb hwired hhas hin _ (List.Subset.refl _)
  have hall := hw.checkAll hv hb hwired hhas hin
    (List.Subset.refl (linkAsks b.unknownHandles info.handleType info))
  have hclear := w.parked_clear (b.checkAll
    (linkAsks b.unknownHandles info.handleType info)).1.unknownHandles hwhat info.key
  have hlinked := hw.sum_linkAsks hhas rfl b.unknownHandles
  rw [hrequests, hlinks] at hclear
  rw [b.findandNotify_eq info.handleType hwhat]
  dsimp only
  rw [w.emitted_append]
  omega

/-- A broker answers, parks or passes on what it handles, and loses nothing. -/
theorem brokerCommand
    (hkeep : m.action.givesUp = none) (ho : BrokerOutcome t r n b m result) :
    w.emitted t n result.2 + w.parked result.1.unknownHandles =
      w.message m + w.parked b.unknownHandles := by
  cases ho with
  | refused hkind _ word =>
    have hquiet : w.emitted t n [b.duplicateError m word] = 0 :=
      w.emitted_other (List.forall_mem_singleton.mpr (.inl ⟨_, _, rfl⟩))
    rw [hw.registration hkind, hquiet]
  | @recorded info hnew =>
    have hnone := hw.registration (hnew.kind.trans_ne (Option.some_ne_none _))
    rw [hnone, Nat.zero_add]
    exact hw.findandNotify hv (hb.push hv hnew.has hnew.inside hnew.new)
      (hwired.of_sameRoutes ⟨rfl, rfl, rfl, rfl, rfl⟩) hnew.has hnew.inside
  | @announced info hnew hinner =>
    obtain ⟨_, _, hunknown, hother⟩ := (b.withHandle info).joinFor_frame info.handleType
    rw [hunknown, w.emitted_cons, w.emitted_other (fun e he => .inl (hother e he)),
      w.emitted_route hwired hnew.fits (fun _ => hwired.ne_root hinner)]
    rfl
  | asked hr _ hfrom hask _ hc => rw [hw.check hv hwired hr hask hc, hw.becomes hfrom hask]
  | linked hkind hfirst =>
    rw [w.emitted_nil, w.parked_parkLink _ _ _ hfirst, hw.link hkind]
    omega
  | ended hgive | dropped hgive => cases hkeep.symm.trans hgive
  | passed hfits _ _ hrise =>
    rw [w.emitted_route hwired hfits (fun h => hwired.ne_root (hrise h))]

end

end

end Weights.Fair

end Helics
