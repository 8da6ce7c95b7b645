import Helics.NetworkRuns

namespace Helics

open InterfaceAction FederateInterfaces

open LinkNetwork (takeFirst takeFirst_perm mem_of_takeFirst mem_rest Ordered)
open Invariants (Run)

namespace InterfaceNet

theorem mem_of_getHandleInfo {m : HandleManager} (h : m.getHandleInfo handle = some info) :
    info ∈ m.handles := by
  unfold HandleManager.getHandleInfo at h
  split at h
  · exact List.mem_of_getElem? h
  · cases h

end InterfaceNet

theorem Asks.fits (h : Asks info what key m)
    (hkind : m.action.asksFor = some what ∨ m.action.givesUp = some what) (hv : Roster.Valid t r)
    (hinfo : info ∈ r n) : Fits t r n m := by
  have hhas : r.Has info := ⟨n, hinfo⟩
  apply Fits.request hkind hhas h.source h.partner (h.plain (hv.plain hhas).1) h.dest
  rw [h.source]
  exact Topology.inside_home (hv.home hinfo)

variable [DualMapped String GlobalId]

namespace InterfaceNet

variable {t : Topology} {r : Roster} {net net' : InterfaceNet}

theorem handleAt_frame (net : InterfaceNet) (k : GlobalId) (m : InterfaceMessage) :
    (net.handleAt t k m).federates = net.federates ∧
      ∀ n, SameMembers (net.cores n) ((net.handleAt t k m).cores n) := by
  cases hk : t.isCore k with
  | true =>
    rw [handleAt_core hk]
    refine ⟨rfl, fun n => ?_⟩
    show SameMembers (net.cores n) (Function.update net.cores k _ n)
    by_cases hn : n = k
    · subst hn
      rw [Function.update_self]
      exact (net.cores n).sameMembers_processCommand m
    · rw [Function.update_of_ne hn]
      exact .refl _
  | false =>
    rw [handleAt_broker hk]
    exact ⟨rfl, fun n => .refl _⟩

theorem handleFederate_frame (net : InterfaceNet) (f : GlobalId) (m : InterfaceMessage) :
    (net.handleFederate t f m).cores = net.cores ∧
      ∀ k, ((net.handleFederate t f m).federates k).globalId = (net.federates k).globalId ∧
        ((net.handleFederate t f m).federates k).interfaceFlags =
          (net.federates k).interfaceFlags := by
  refine ⟨rfl, fun k => ?_⟩
  show (Function.update net.federates f _ k).globalId = _ ∧
    (Function.update net.federates f _ k).interfaceFlags = _
  by_cases hk : k = f
  · subst hk
    rw [Function.update_self]
    exact (net.federates k).processActionMessage_id m
  · rw [Function.update_of_ne hk]
    exact ⟨rfl, rfl⟩

end InterfaceNet

section
variable {net net' : InterfaceNet} (h : Registers t net ev k info m net')
include h

theorem Registers.handles (n : GlobalId) : (net'.cores n).handles.handles =
    (net.cores n).handles.handles ++ if n = k then [info] else [] := by
  by_cases hn : n = k
  · rw [if_pos hn, hn, h.announces.core]
    rfl
  · rw [if_neg hn, h.cores n hn, List.append_nil]

theorem Registers.loopHandles (n : GlobalId) :
    (net'.cores n).loopHandles = (net.cores n).loopHandles := by
  by_cases hn : n = k
  · rw [hn, h.announces.core]
  · rw [h.cores n hn]

theorem Registers.mem_handles : info ∈ (net'.cores k).handles.handles := by
  rw [h.handles, if_pos rfl]
  exact List.mem_append_right _ (List.mem_singleton.mpr rfl)

theorem Registers.of_mem (hx : x ∈ (net'.cores n).handles.handles) :
    x ∈ (net.cores n).handles.handles ∨ n = k ∧ x = info := by
  rw [h.handles] at hx
  refine (List.mem_append.mp hx).imp_right fun hx => ?_
  split at hx
  · rename_i hn
    exact ⟨hn, List.mem_singleton.mp hx⟩
  · cases hx

end

open InterfaceNet in
theorem Transition.users (h : Transition t net ev net') (n : GlobalId) :
    (net.cores n).handles.handles <+: (net'.cores n).handles.handles := by
  cases h with
  | registered hnew =>
    rw [hnew.handles]
    exact List.prefix_append _ _
  | asked _ _ _ _ _ heq | gaveUp _ _ _ _ _ _ heq | dataLinked _ heq | filterLinked _ heq =>
    exact heq ▸ List.prefix_refl _
  | handled _ _ _ heq =>
    have hsame : (net'.cores n).handles.handles = (net.cores n).handles.handles := by
      rw [heq, ((handleAt_frame _ _ _).2 n).handles]
    exact hsame ▸ List.prefix_refl _
  | informed _ _ heq =>
    have hsame : net'.cores n = net.cores n := by
      rw [heq, (handleFederate_frame _ _ _).1]
    exact hsame ▸ List.prefix_refl _

namespace InterfaceNet

variable {t : Topology} {r : Roster} {net net' : InterfaceNet}

/-- A federate of the core or, for a filter, the core itself owns a new interface. -/
theorem Registry.owner (ht : t.IsTree) (h : Registry t net)
    (hnew : Registers t net ev k info m net') : t.home info.handle.fedId = some k ∧
      info.handleType ≠ .unknown ∧ (t.isCore info.handle.fedId = true ↔ info.handleType = .filter) ∧
      checkActionFlag info.flags errorFlag = false ∧
      checkActionFlag info.flags disconnectedFlag = false := by
  rcases hnew.owner with ⟨htype, hid, _, hplain⟩ | ⟨f, hlocal, htype, hid, hflags, _⟩
  · rw [hid, (h.wired hnew.core).id, htype]
    exact ⟨ht.core_home hnew.core, nofun, ⟨fun _ => rfl, fun _ => hnew.core⟩, hplain⟩
  obtain ⟨hfed, herror, hdisc⟩ := h.federate f
  obtain ⟨hcore, hhome⟩ := (h.wired hnew.core).members.mp hlocal
  obtain ⟨hunknown, hfilter⟩ := not_or.mp (fun hor => htype (List.mem_pair.mpr hor))
  rw [hid, hflags, hfed]
  refine ⟨hhome, hunknown, ?_, herror, hdisc⟩
  rw [hcore]
  exact ⟨nofun, fun h => absurd h hfilter⟩

theorem Registry.registers (ht : t.IsTree) (h : Registry t net)
    (hnew : Registers t net ev k info m net') : Registry t net' where
  federate f := by
    rcases hnew.owner with ⟨_, _, hfeds, _⟩ | ⟨f', _, _, _, _, hfeds⟩
    · rw [hfeds]
      exact h.federate f
    rw [hfeds]
    by_cases hf : f = f'
    · subst hf
      rw [Function.update_self, (createInterface_id _ _ _).1, (createInterface_id _ _ _).2]
      exact h.federate f
    · rw [Function.update_of_ne hf]
      exact h.federate f
  wired {n} hn := by
    by_cases hk : n = k
    · subst hk
      rw [hnew.announces.core]
      exact ⟨(h.wired hn).id, (h.wired hn).members⟩
    · rw [hnew.cores n hk]
      exact h.wired hn
  position {n i info'} hn hinfo := by
    rw [hnew.handles, List.getElem?_append] at hinfo
    split at hinfo
    · exact h.position hn hinfo
    rename_i hlt
    split at hinfo
    · rename_i hk
      subst hk
      rw [List.getElem?_singleton] at hinfo
      split at hinfo
      · rename_i hi
        cases hinfo
        rw [hnew.announces.position, Nat.le_antisymm (Nat.sub_eq_zero_iff_le.mp hi) (not_lt.mp hlt)]
      · cases hinfo
    · cases hinfo
  entry hn hinfo := by
    obtain hold | ⟨rfl, rfl⟩ := hnew.of_mem hinfo
    · exact h.entry hn hold
    · obtain ⟨hhome, hrest⟩ := h.owner ht hnew
      exact ⟨hhome, hnew.key, hrest⟩

theorem Registry.step (ht : t.IsTree) (h : Registry t net) (hs : Transition t net ev net') :
    Registry t net' := by
  have hsame : net'.federates = net.federates → (∀ n, SameMembers (net.cores n) (net'.cores n)) →
      Registry t net' := by
    intro hfeds hcores
    refine ⟨by rw [hfeds]; exact h.federate,
      fun hn => (h.wired hn).of_sameMembers (hcores _), ?_, ?_⟩
    · intro n i info hn hinfo
      rw [(hcores n).handles] at hinfo
      exact h.position hn hinfo
    · intro n info hn hinfo
      rw [(hcores n).handles] at hinfo
      exact h.entry hn hinfo
  cases hs with
  | registered hnew => exact h.registers ht hnew
  | asked _ _ _ _ _ heq | gaveUp _ _ _ _ _ _ heq | dataLinked _ heq | filterLinked _ heq =>
    subst heq
    exact hsame rfl (fun _ => .refl _)
  | @handled link m rest k _ _ _ heq =>
    subst heq
    obtain ⟨hfeds, hcores⟩ := handleAt_frame { net with flight := rest } k m
    exact hsame hfeds hcores
  | informed _ _ heq =>
    subst heq
    obtain ⟨hcores, hids⟩ := handleFederate_frame (t := t) _ _ _
    refine ⟨?_, h.wired, h.position, h.entry⟩
    intro f
    rw [(hids f).1, (hids f).2]
    exact h.federate f

section
variable (h : Sound t r net)
include h

theorem Sound.enter (hbrokers : net'.brokers = net.brokers)
    (hloop : ∀ n, (net'.cores n).loopHandles = (net.cores n).loopHandles)
    (hwired : ∀ {n}, t.isCore n = true → WiredCore t n (net'.cores n))
    (husers : ∀ {n}, t.isCore n = true → (net'.cores n).handles.handles <+: r n)
    (hflight : net'.flight = net.flight ++ [(.own k, m)]) (hplaced : Placed t r (.own k) m) :
    Sound t r net' := by
  have hknows : ∀ n handle, net'.Knows t n handle ↔ net.Knows t n handle := by
    intro n handle
    unfold Knows table
    rw [hbrokers, hloop]
  refine ⟨by rw [hbrokers]; exact h.wiredBroker, by rw [hbrokers]; exact h.brokers, hwired,
    ?_, ?_, ?_, ?_⟩
  · intro n hn
    have hold := h.cores hn
    exact ⟨husers hn, by rw [hloop]; exact hold.entries, by rw [hloop]; exact hold.names,
      by rw [hloop]; exact hold.ids⟩
  · intro l m' hx
    rw [hflight] at hx
    rcases List.mem_append.mp hx with hx | hx
    · exact h.placed hx
    · cases List.mem_singleton.mp hx
      exact hplaced
  · intro n handle hn hold
    rw [hknows, hflight]
    exact (h.trail hn ((hknows n handle).mp hold)).imp_right
      (fun hway => hway.mono (List.subset_append_left _ _))
  · rw [hflight]
    apply Ordered.append
    · intro before x after hx n hn hask
      rw [hknows]
      exact h.order before x after hx n hn hask
    · intro before x after hx n hn
      have hmem : x ∈ [(Link.own k, m)] := by
        rw [hx]
        exact List.mem_append_right _ List.mem_cons_self
      rw [List.mem_singleton.mp hmem] at hn
      cases hn

theorem Sound.leave
    (htake : takeFirst (.federate f) net.flight = some (m, rest))
    (hbrokers : net'.brokers = net.brokers)
    (hcores : net'.cores = net.cores) (hflight : net'.flight = rest) : Sound t r net' := by
  have hknows : ∀ n handle, net'.Knows t n handle ↔ net.Knows t n handle := by
    intro n handle
    unfold Knows table
    rw [hbrokers, hcores]
  refine ⟨by rw [hbrokers]; exact h.wiredBroker, by rw [hbrokers]; exact h.brokers,
    by rw [hcores]; exact h.wiredCore, by rw [hcores]; exact h.cores, ?_, ?_, ?_⟩
  · intro l m' hx
    rw [hflight] at hx
    exact h.placed (mem_rest htake hx)
  · intro n handle hn hold
    rw [hknows, hflight]
    refine (h.trail hn ((hknows n handle).mp hold)).imp_right ?_
    rintro ⟨m', hx, hkind⟩
    rcases List.mem_cons.mp ((takeFirst_perm htake).mem_iff.mp hx) with heq | hx
    · cases heq
    · exact ⟨m', hx, hkind⟩
  · rw [hflight]
    refine h.order.take htake ?_
    intro before before' x hsub hx n hn hask
    rw [hknows]
    refine (hx n hn hask).imp_right (Or.imp_right ?_)
    rintro ⟨m', hm', hkind⟩
    rcases hsub _ hm' with hx | heq
    · exact ⟨m', hx, hkind⟩
    · cases heq

theorem Sound.received (htake : takeFirst link net.flight = some (m, rest))
    (htarget : target t link = some k) :
    Fits t r k m ∧ (m.action.asksFor ≠ none → m.stringData = [] ∨ net.Knows t k m.source) := by
  have hplaced := h.placed (mem_of_takeFirst htake)
  cases link with
  | own n =>
    cases htarget
    exact ⟨hplaced.2.1, fun hask => .inl (hplaced.2.2 hask)⟩
  | up n =>
    cases htarget
    refine ⟨hplaced.2.2.parent hplaced.2.1 hplaced.1, fun hask => ?_⟩
    obtain ⟨before, hordered, hbefore⟩ := h.order.first htake
    rcases hordered n rfl hask with hstrings | hknows | ⟨m', hm', _⟩
    · exact .inl hstrings
    · exact .inr hknows
    · exact absurd rfl (hbefore _ hm')
  | down n =>
    cases htarget
    refine ⟨hplaced.2, fun hask => ?_⟩
    exact absurd (of_isFor hplaced.1).2 hask
  | federate f => cases htarget

theorem Sound.brokerReceives (hv : r.Valid t)
    (htake : takeFirst link net.flight = some (m, rest)) (htarget : target t link = some k)
    (hk : t.isCore k = false) :
    BrokerOutcome t r k (net.brokers k) m ((net.brokers k).processCommand m) := by
  obtain ⟨hfits, hintro⟩ := h.received htake htarget
  unfold Knows at hintro
  rw [table_broker hk] at hintro
  exact (h.brokers hk).outcome hv (h.wiredBroker hk) hfits hintro

theorem Sound.coreReceives (hv : r.Valid t)
    (htake : takeFirst link net.flight = some (m, rest)) (htarget : target t link = some k)
    (hk : t.isCore k = true) :
    CoreOutcome t r k (net.cores k) m ((net.cores k).processCommand m) := by
  obtain ⟨hfits, hintro⟩ := h.received htake htarget
  unfold Knows at hintro
  rw [table_core hk] at hintro
  exact (h.cores hk).outcome hv hfits hintro

end

theorem Sound.handled (ht : t.IsTree) (h : Sound t r net) (he : Entered t net) (hv : r.Valid t)
    (htake : takeFirst link net.flight = some (m, rest)) (htarget : target t link = some k) :
    ∃ new, NodeStep t r { net with flight := rest } k m new
      ({ net with flight := rest }.handleAt t k m) := by
  have hmem := mem_of_takeFirst htake
  have hplaced := h.placed hmem
  cases hk : t.isCore k with
  | true =>
    refine ⟨_, h.coreStep ht hv hk (h.received htake htarget).1 (h.coreReceives hv htake htarget hk)
      ?_ ?_ ?_ ?_⟩
    · intro hkind
      cases link with
      | own n =>
        cases htarget
        exact (he.user hmem hkind).2
      | up n =>
        cases htarget
        rw [ht.parent_broker hplaced.1] at hk
        cases hk
      | down n => exact absurd (of_isFor hplaced.1).1 hkind
      | federate f => cases htarget
    all_goals rw [handleAt_core hk]; rfl
  | false =>
    refine ⟨_, h.brokerStep hv hk (h.received htake htarget).1
      (h.brokerReceives hv htake htarget hk) ?_ ?_ ?_⟩
    all_goals rw [handleAt_broker hk]; rfl

theorem Sound.request (h : Sound t r net) (hplaced : Placed t r (.own k) m) :
    Sound t r (net.send [(.own k, m)]) :=
  h.enter rfl (fun _ => rfl) h.wiredCore (fun hn => (h.cores hn).users) rfl hplaced

theorem Entered.request (h : Entered t net) (hkind : m.action.registers = none) :
    Entered t (net.send [(.own k, m)]) where
  user := by
    intro n m' hx hkind'
    rcases List.mem_append.mp hx with hx | hx
    · exact h.user hx hkind'
    · cases List.mem_singleton.mp hx
      exact absurd hkind hkind'
  taken := by
    intro n info hn hinfo
    exact (h.taken hn hinfo).imp_right (fun hway => hway.mono (List.subset_append_left _ _))

end InterfaceNet

theorem Registers.placed (h : Registers t net ev n info m net') (hev : ev.Named)
    (hv : Roster.Valid t r)
    (hinfo : info ∈ r n) : Placed t r (.own n) m := by
  have hann := h.announces
  obtain ⟨_, hno, hrise⟩ := of_registers hann.kind
  refine ⟨hrise, ?_, fun hask => absurd hno hask⟩
  apply Fits.registration hann.kind ⟨n, hinfo⟩ hann.source (h.named hev) hann.flags hann.type
    hann.units hann.dest
  rw [hann.source]
  exact Topology.inside_home (hv.home hinfo)

namespace InterfaceNet

variable {t : Topology} {r : Roster} {net net' : InterfaceNet}

theorem Entered.registers (he : Entered t net) (hnew : Registers t net ev k info m net') :
    Entered t net' where
  user {n m'} hx hkind := by
    rw [hnew.flight] at hx
    rcases List.mem_append.mp hx with hx | hx
    · obtain ⟨hn, info', hinfo', hsource⟩ := he.user hx hkind
      exact ⟨hn, info', ((Transition.registered hnew).users n).subset hinfo', hsource⟩
    · cases List.mem_singleton.mp hx
      exact ⟨hnew.core, info, hnew.mem_handles, hnew.announces.source.symm⟩
  taken {n info'} hn hinfo' := by
    rw [hnew.flight]
    obtain hold | ⟨rfl, rfl⟩ := hnew.of_mem hinfo'
    · refine (he.taken hn hold).imp ?_ (fun hway => hway.mono (List.subset_append_left _ _))
      unfold Knows table
      rw [hnew.loopHandles, hnew.brokers]
      exact id
    · refine .inr ⟨m, List.mem_append_right _ (List.mem_singleton.mpr rfl), ?_,
        hnew.announces.source⟩
      rw [hnew.announces.kind]
      exact Option.some_ne_none _

section
variable (h : Sound t r net) (htake : takeFirst (.federate f) net.flight = some (m, rest))
include h htake

theorem Sound.informed_flight :
    ({ net with flight := rest }.handleFederate t f m).flight = rest := by
  show rest ++ ((net.federates f).processActionMessage m).2.map _ = rest
  rw [processActionMessage_connection (h.placed (mem_of_takeFirst htake)).1]
  exact List.append_nil rest

theorem Sound.informed (he : Entered t net) :
    Sound t r ({ net with flight := rest }.handleFederate t f m) ∧
      Entered t ({ net with flight := rest }.handleFederate t f m) := by
  have hflight := h.informed_flight htake
  refine ⟨h.leave htake rfl rfl hflight, ?_, ?_⟩
  · intro n m' hx
    rw [hflight] at hx
    exact he.user (mem_rest htake hx)
  · intro n info hn hinfo
    rw [hflight]
    refine (he.taken hn hinfo).imp_right ?_
    rintro ⟨m', hx, hkind⟩
    rcases List.mem_cons.mp ((takeFirst_perm htake).mem_iff.mp hx) with heq | hx
    · cases heq
    · exact ⟨m', hx, hkind⟩

end

/-- One event keeps the network sound. -/
theorem Sound.step (ht : t.IsTree) (h : Sound t r net) (he : Entered t net) (hreg : Registry t net')
    (hv : r.Valid t) (hs : Transition t net ev net') (hev : ev.Named)
    (husers : ∀ {n}, t.isCore n = true → (net'.cores n).handles.handles <+: r n) :
    Sound t r net' ∧ Entered t net' := by
  cases hs with
  | @registered k info m hnew =>
    have hinfo : info ∈ r k := (husers hnew.core).subset hnew.mem_handles
    exact ⟨h.enter hnew.brokers hnew.loopHandles hreg.wired husers hnew.flight
      (hnew.placed hev hv hinfo), he.registers hnew⟩
  | @asked n handle name info what m _ hcore hinfo hkind hasks heq =>
    subst heq
    have hmem : info ∈ r n := (h.cores hcore).users.subset (mem_of_getHandleInfo hinfo)
    obtain ⟨hno, hrise⟩ := of_asksFor hkind
    exact ⟨h.request ⟨hrise, hasks.fits (.inl hkind) hv hmem,
      fun _ => hasks.strings (hv.named ⟨n, hmem⟩)⟩, he.request hno⟩
  | @gaveUp n handle name info what m _ hcore hinfo hkind hasks _ heq =>
    subst heq
    have hmem : info ∈ r n := (h.cores hcore).users.subset (mem_of_getHandleInfo hinfo)
    obtain ⟨hno, _, hrise⟩ := of_givesUp hkind
    exact ⟨h.request ⟨hrise, hasks.fits (.inr hkind) hv hmem,
      fun _ => hasks.strings (hv.named ⟨n, hmem⟩)⟩, he.request hno⟩
  | dataLinked _ heq =>
    subst heq
    exact ⟨h.request ⟨rfl, .link (.inl rfl) noError_zero rfl, fun hask => absurd rfl hask⟩,
      he.request rfl⟩
  | @filterLinked n filter endpoint destination _ heq =>
    subst heq
    cases destination with
    | true => exact ⟨h.request ⟨rfl, .link (.inr rfl) noError_destination rfl,
        fun hask => absurd rfl hask⟩, he.request rfl⟩
    | false => exact ⟨h.request ⟨rfl, .link (.inr rfl) noError_zero rfl,
      fun hask => absurd rfl hask⟩,
        he.request rfl⟩
  | handled _ htake htarget heq =>
    subst heq
    obtain ⟨new, hnode⟩ := h.handled ht he hv htake htarget
    exact ⟨h.deliver htake htarget hnode, he.deliver htake htarget hnode⟩
  | informed _ htake heq =>
    subst heq
    exact h.informed htake he

theorem Fresh.registry (h : net.Fresh t) : Registry t net where
  federate := fun f => ⟨(h.federates f).1, (h.federates f).2.1, (h.federates f).2.2.1⟩
  wired := h.wiredCore
  position := by
    intro n i info hn hinfo
    rw [(h.coreTables hn).1] at hinfo
    cases hinfo
  entry := by
    intro n info hn hinfo
    rw [(h.coreTables hn).1] at hinfo
    cases hinfo

theorem Fresh.sound (h : net.Fresh t) (r : Roster) : Sound t r net where
  wiredBroker := h.wiredBroker
  brokers := by
    intro n hn
    obtain ⟨hhandles, hunknown⟩ := h.brokerTables hn
    refine ⟨?_, ?_, ?_, ?_⟩
    · intro what name info hfind
      rw [hhandles] at hfind
      cases hfind
    · intro what name info hfind
      rw [hhandles] at hfind
      cases hfind
    · intro handle hfind
      rw [hhandles] at hfind
      exact absurd rfl hfind
    · intro what u hu
      rw [hunknown] at hu
      cases what <;> cases hu
  wiredCore := h.wiredCore
  cores := by
    intro n hn
    obtain ⟨husers, hloop, _⟩ := h.coreTables hn
    refine ⟨?_, ?_, ?_, ?_⟩
    · rw [husers]
      exact List.nil_prefix
    · intro i x hx
      rw [hloop] at hx
      cases hx
    · intro what name i hx
      rw [hloop] at hx
      cases hx
    · intro what name x hfind
      rw [hloop] at hfind
      cases hfind
  placed := by
    intro l m hx
    rw [h.flight] at hx
    cases hx
  trail := by
    intro n handle _ hknows
    unfold Knows table at hknows
    split at hknows
    · rw [(h.coreTables ‹_›).2.1] at hknows
      exact absurd rfl hknows
    · rw [(h.brokerTables (Bool.not_eq_true _ ▸ ‹_›)).1] at hknows
      exact absurd rfl hknows
  order := by
    rw [h.flight]
    exact .nil _

theorem Fresh.entered (h : net.Fresh t) : Entered t net where
  user := by
    intro n m hx
    rw [h.flight] at hx
    cases hx
  taken := by
    intro n info hn hinfo
    rw [(h.coreTables hn).1] at hinfo
    cases hinfo

theorem Registry.run (ht : t.IsTree) (hrun : Runs t net evs net')
    (h : Registry t net) : Registry t net' :=
  hrun.invariant (fun _ _ _ h hstep => h.step ht (transition_of_step hstep)) h

theorem users_run (hrun : Runs t net evs net') (n : GlobalId) :
    (net.cores n).handles.handles <+: (net'.cores n).handles.handles := by
  induction hrun with
  | nil => exact List.prefix_refl _
  | cons hstep _ ih => exact ((transition_of_step hstep).users n).trans ih

theorem Sound.run (ht : t.IsTree) (hrun : Runs t net evs net')
    (hevs : ∀ ev ∈ evs, ev.Named) (hreg : Registry t net) (h : Sound t r net) (he : Entered t net)
    (hv : r.Valid t) (husers : ∀ {n}, t.isCore n = true → (net'.cores n).handles.handles <+: r n) :
    Sound t r net' ∧ Entered t net' := by
  induction hrun with
  | nil => exact ⟨h, he⟩
  | cons hstep hrest ih =>
    have hs := transition_of_step hstep
    have hreg' := hreg.step ht hs
    obtain ⟨h', he'⟩ := h.step ht he hreg' hv hs (hevs _ List.mem_cons_self)
      (fun hn => (users_run hrest _).trans (husers hn))
    exact ih (fun ev hev => hevs ev (List.mem_cons_of_mem _ hev)) hreg' h' he' husers

end InterfaceNet

end Helics
