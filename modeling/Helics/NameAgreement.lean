import Helics.TwoLevels

namespace Helics

open InterfaceBroker InterfaceAction HandleManager Invariants InterfaceNet
open LinkNetwork (takeFirst mem_of_takeFirst mem_rest takeFirst_perm)

section
variable [DualMapped String GlobalId]

def NetEvent.Registers : NetEvent → Prop
  | .register .. | .registerFilter .. | .deliver _ => True
  | _ => False

instance : DecidablePred NetEvent.Registers
  | .register .. | .registerFilter .. | .deliver _ => isTrue trivial
  | .addSourceTarget .. | .addDestinationTarget .. | .removeTarget .. | .dataLink ..
  | .filterLink .. => isFalse id

theorem InterfaceBroker.findandNotify_nobody {b : InterfaceBroker} (h : b.unknownHandles = {})
    (what : HandleType) (info : HandleInfo) : b.findandNotify what info = (b, []) := by
  obtain ⟨⟨_⟩, _, _⟩ := b
  cases h
  cases what <;> rfl

namespace InterfaceNet

/-- Only registrations are under way, and a broker that sends one has recorded it. -/
structure OnlyRegistrations (t : Topology) (net : InterfaceNet) : Prop where
  root : ∀ {n}, t.isCore n = false → (net.brokers n).isRootc = decide (n = t.root)
  unasked : ∀ {n}, t.isCore n = false → (net.brokers n).unknownHandles = {}
  kind : ∀ {l m}, (l, m) ∈ net.flight → m.action.registers ≠ none ∧ m.dest.fedId = parentBrokerId
  place : ∀ {l m}, (l, m) ∈ net.flight → (∃ n, l = .own n ∧ t.isCore n = true) ∨
    ∃ n, l = .up n ∧ n ≠ t.root ∧ m.name ≠ ""
  recorded : ∀ {n m what}, (.up n, m) ∈ net.flight → t.isCore n = false →
    m.action.registers = some what → ∃ info,
      (net.brokers n).handles.find what m.name = some info ∧ info.handle = m.source

/-- What one event changes: registrations enter or leave the queues, and a broker may record the
one that it received. -/
inductive RegistrationStep (t : Topology) (net : InterfaceNet) (ev : NetEvent)
    (net' : InterfaceNet) : Prop
  | entered (hcore : t.isCore core = true) (hkind : m.action.registers ≠ none)
      (hdest : m.dest.fedId = parentBrokerId) (hbrokers : net'.brokers = net.brokers)
      (hflight : net'.flight = net.flight ++ [(.own core, m)])
  | copied (hcore : t.isCore core = true)
      (htake : takeFirst (.own core) net.flight = some (m, rest))
      (hbrokers : net'.brokers = net.brokers)
      (hflight : net'.flight = rest ++ if m.name = "" then [] else [(.up core, m)])
  | refused (hev : ev = .deliver (.up n)) (hkind : m.action.registers = some what)
      (htake : takeFirst (.up n) net.flight = some (m, rest)) (hroot : n ≠ t.root)
      (hknown : (net.brokers (t.parent n)).handles.find what m.name = some info)
      (hbrokers : net'.brokers = net.brokers) (hflight : net'.flight = rest)
  | recorded (hkind : m.action.registers = some what) (hname : m.name ≠ "")
      (htake : takeFirst (.up n) net.flight = some (m, rest)) (hroot : n ≠ t.root)
      (hnew : (net.brokers (t.parent n)).handles.find what m.name = none)
      (hbrokers : net'.brokers = Function.update net.brokers (t.parent n) b)
      (hrootc : b.isRootc = (net.brokers (t.parent n)).isRootc)
      (hunknown : b.unknownHandles = (net.brokers (t.parent n)).unknownHandles)
      (hhandles : b.handles =
        (net.brokers (t.parent n)).handles.push ((net.brokers (t.parent n)).registered m what))
      (hflight : net'.flight =
        rest ++ if t.parent n = t.root then [] else [(.up (t.parent n), m)])

variable {t : Topology} {net net' : InterfaceNet}

theorem registrationStep_of_up (ht : t.IsTree) (h : OnlyRegistrations t net)
    (htake : takeFirst (.up n) net.flight = some (m, rest)) :
    RegistrationStep t net (.deliver (.up n))
      ({ net with flight := rest }.receive t (.up n) m) := by
  have hmem := mem_of_takeFirst htake
  obtain ⟨hkind, hdest⟩ := h.kind hmem
  obtain ⟨what, hkind⟩ := Option.ne_none_iff_exists'.mp hkind
  obtain ⟨hn, hname⟩ : n ≠ t.root ∧ m.name ≠ "" := by
    rcases h.place hmem with ⟨_, hl, _⟩ | ⟨_, hl, hplace⟩
    · cases hl
    · cases hl
      exact hplace
  have hparent := ht.parent_broker hn
  show RegistrationStep t net _ ({ net with flight := rest }.handleAt t (t.parent n) m)
  rw [handleAt_broker hparent]
  rw [processCommand_registration hkind hdest]
  cases hfind : (net.brokers (t.parent n)).handles.find what m.name with
  | some info =>
    rw [Option.isSome_some, if_pos rfl]
    refine .refused rfl hkind htake hn hfind ?_ (List.append_nil rest)
    exact Function.update_eq_self _ _
  | none =>
    rw [Option.isSome_none, if_neg Bool.false_ne_true, h.root hparent]
    by_cases hroot : t.parent n = t.root
    · rw [if_pos (decide_eq_true hroot), findandNotify_nobody]
      · apply RegistrationStep.recorded hkind hname htake hn hfind
          (b := (net.brokers (t.parent n)).withHandle
            ((net.brokers (t.parent n)).registered m what))
          rfl rfl rfl rfl
        rw [if_pos hroot]
        rfl
      · exact h.unasked hparent
    · rw [if_neg (by rw [decide_eq_false hroot]; exact Bool.false_ne_true)]
      obtain ⟨hsame, hhandles, hunknown, hjoins⟩ := (((net.brokers (t.parent n)).withHandle
        ((net.brokers (t.parent n)).registered m what)).joinFor_frame what)
      refine .recorded hkind hname htake hn hfind rfl hsame.root hunknown hhandles ?_
      rw [if_neg hroot]
      show rest ++ _ = _
      rw [List.filterMap_cons, emit_parent hroot,
        filterMap_emit_other (fun e he => .inl (hjoins e he))]

theorem registrationStep_of_step (ht : t.IsTree) (h : OnlyRegistrations t net)
    (hstep : net.step t ev = some net') (hev : ev.Registers) : RegistrationStep t net ev net' := by
  cases ev with
  | register core fed what key type units =>
    obtain ⟨hcore, _, c', f', m, hmade, rfl⟩ := step_register hstep
    obtain ⟨info, hann, _⟩ := registerAs_eq_some hmade
    exact .entered hcore (by rw [hann.kind]; exact Option.some_ne_none _) hann.dest rfl rfl
  | registerFilter core name typeIn typeOut cloning =>
    obtain ⟨hcore, c', m, hmade, rfl⟩ := step_registerFilter hstep
    obtain ⟨info, hann, _⟩ := registerFilter_eq_some hmade
    exact .entered hcore (by rw [hann.kind]; exact Option.some_ne_none _) hann.dest rfl rfl
  | deliver link =>
    obtain ⟨m, rest, htake, rfl⟩ := step_deliver hstep
    rcases h.place (mem_of_takeFirst htake) with ⟨n, rfl, hn⟩ | ⟨n, rfl, _⟩
    · obtain ⟨hkind, hdest⟩ := h.kind (mem_of_takeFirst htake)
      obtain ⟨what, hkind⟩ := Option.ne_none_iff_exists'.mp hkind
      obtain ⟨c, heq, _⟩ := handleAt_core_registration { net with flight := rest } ht hn
        hkind hdest
      show RegistrationStep t net _ ({ net with flight := rest }.handleAt t n m)
      rw [heq]
      exact .copied hn htake rfl rfl
    · exact registrationStep_of_up ht h htake
  | addSourceTarget | addDestinationTarget | removeTarget | dataLink | filterLink => cases hev

section
variable (hs : RegistrationStep t net ev net')
include hs

theorem RegistrationStep.find (h : (net.brokers n).handles.find what name = some info) :
    (net'.brokers n).handles.find what name = some info := by
  cases hs with
  | entered _ _ _ hbrokers | copied _ _ hbrokers | refused _ _ _ _ _ hbrokers =>
    rw [hbrokers]
    exact h
  | @recorded w k m rest b hkind hname htake hroot hnew hbrokers hrootc hunknown hhandles =>
    rw [hbrokers]
    by_cases hn : n = t.parent k
    · subst hn
      rw [Function.update_self, hhandles]
      apply find_push_of_some h
      · exact (of_registers hkind).1
      · rw [registered_key hname]
        exact hname
    · rw [Function.update_of_ne hn]
      exact h

theorem RegistrationStep.find_cases (h : (net'.brokers n).handles.find what name = some info) :
    (net.brokers n).handles.find what name = some info ∨
      ∃ k m rest, takeFirst (.up k) net.flight = some (m, rest) ∧ k ≠ t.root ∧ n = t.parent k ∧
        m.action.registers = some what ∧ m.name = name ∧ m.source = info.handle ∧
        (n ≠ t.root → (.up n, m) ∈ net'.flight) := by
  cases hs with
  | entered _ _ _ hbrokers | copied _ _ hbrokers | refused _ _ _ _ _ hbrokers =>
    rw [hbrokers] at h
    exact .inl h
  | @recorded w k m rest b hkind hname htake hroot hnew hbrokers hrootc hunknown hhandles hflight =>
    rw [hbrokers] at h
    by_cases hn : n = t.parent k
    · subst hn
      rw [Function.update_self, hhandles] at h
      have hkey' := registered_key (b := net.brokers (t.parent k)) hname w
      rcases find_push_cases (of_registers hkind).1
        (hkey'.trans_ne hname) h with hold | ⟨_, hwhat, hkey, hinfo⟩
      · exact .inl hold
      refine .inr ⟨k, m, rest, htake, hroot, rfl, hkind.trans (congrArg some hwhat.symm),
        (hkey.trans hkey').symm, ?_, ?_⟩
      · rw [hinfo]
        rfl
      · intro hnroot
        rw [hflight, if_neg hnroot]
        exact List.mem_append_right _ (List.mem_singleton.mpr rfl)
    · rw [Function.update_of_ne hn] at h
      exact .inl h

theorem RegistrationStep.flight_cases (hx : x ∈ net'.flight) :
    x ∈ net.flight ∨ (∃ core m, x = (.own core, m) ∧ t.isCore core = true ∧
        m.action.registers ≠ none ∧ m.dest.fedId = parentBrokerId) ∨
      (∃ core m, x = (.up core, m) ∧ t.isCore core = true ∧ (.own core, m) ∈ net.flight ∧
        m.name ≠ "") ∨
      ∃ k m what info, x = (.up (t.parent k), m) ∧ t.parent k ≠ t.root ∧ (.up k, m) ∈ net.flight ∧
        m.name ≠ "" ∧ m.action.registers = some what ∧
        (net'.brokers (t.parent k)).handles.find what m.name = some info ∧
        info.handle = m.source := by
  cases hs with
  | entered hcore hkind hdest _ hflight =>
    rw [hflight] at hx
    rcases List.mem_append.mp hx with hx | hx
    · exact .inl hx
    · exact .inr (.inl ⟨_, _, List.mem_singleton.mp hx, hcore, hkind, hdest⟩)
  | copied hcore htake _ hflight =>
    rw [hflight] at hx
    rcases List.mem_append.mp hx with hx | hx
    · exact .inl (mem_rest htake hx)
    split at hx
    · cases hx
    · rename_i hname
      exact .inr (.inr (.inl ⟨_, _, List.mem_singleton.mp hx, hcore, mem_of_takeFirst htake,
        hname⟩))
  | refused _ _ htake _ _ _ hflight =>
    rw [hflight] at hx
    exact .inl (mem_rest htake hx)
  | @recorded w k m rest b hkind hname htake hroot hnew hbrokers hrootc hunknown hhandles hflight =>
    rw [hflight] at hx
    rcases List.mem_append.mp hx with hx | hx
    · exact .inl (mem_rest htake hx)
    split at hx
    · cases hx
    rename_i hparent
    refine .inr (.inr (.inr ⟨k, m, w, (net.brokers (t.parent k)).registered m w,
      List.mem_singleton.mp hx, hparent, mem_of_takeFirst htake, hname, hkind, ?_, rfl⟩))
    rw [hbrokers, Function.update_self, hhandles, find_push_of_none hnew _
      (of_registers hkind).1
      ((registered_key hname w).trans_ne hname),
      registered_key hname w]
    exact if_pos rfl

end

theorem OnlyRegistrations.step (ht : t.IsTree) (h : OnlyRegistrations t net)
    (hs : RegistrationStep t net ev net') : OnlyRegistrations t net' where
  root := by
    intro n hn
    cases hs with
    | entered _ _ _ hbrokers | copied _ _ hbrokers | refused _ _ _ _ _ hbrokers =>
      rw [hbrokers]
      exact h.root hn
    | @recorded w k m rest b hkind hname htake hroot hnew hbrokers hrootc =>
      rw [hbrokers]
      by_cases hk : n = t.parent k
      · subst hk
        rw [Function.update_self, hrootc]
        exact h.root hn
      · rw [Function.update_of_ne hk]
        exact h.root hn
  unasked := by
    intro n hn
    cases hs with
    | entered _ _ _ hbrokers | copied _ _ hbrokers | refused _ _ _ _ _ hbrokers =>
      rw [hbrokers]
      exact h.unasked hn
    | @recorded w k m rest b hkind hname htake hroot hnew hbrokers hrootc hunknown =>
      rw [hbrokers]
      by_cases hk : n = t.parent k
      · subst hk
        rw [Function.update_self, hunknown]
        exact h.unasked hn
      · rw [Function.update_of_ne hk]
        exact h.unasked hn
  kind := by
    intro l m hx
    rcases hs.flight_cases hx with hx | ⟨_, _, heq, _, hkind, hdest⟩ | ⟨_, _, heq, _, hold, _⟩ |
      ⟨_, _, _, _, heq, _, hold, _⟩
    · exact h.kind hx
    · cases heq
      exact ⟨hkind, hdest⟩
    · cases heq
      exact h.kind hold
    · cases heq
      exact h.kind hold
  place := by
    intro l m hx
    rcases hs.flight_cases hx with hx | ⟨core, _, heq, hcore, _⟩ | ⟨core, _, heq, hcore, _, hname⟩ |
      ⟨k, _, _, _, heq, hroot, _, hname, _⟩
    · exact h.place hx
    · cases heq
      exact .inl ⟨core, rfl, hcore⟩
    · cases heq
      exact .inr ⟨core, rfl, ht.core_ne_root hcore, hname⟩
    · cases heq
      exact .inr ⟨_, rfl, hroot, hname⟩
  recorded := by
    intro n m what hx hn hkind
    rcases hs.flight_cases hx with hx | ⟨_, _, heq, _⟩ | ⟨core, _, heq, hcore, _⟩ |
      ⟨k, m', what', info, heq, _, _, _, hkind', hfind, hsource⟩
    · obtain ⟨info, hfind, hsource⟩ := h.recorded hx hn hkind
      exact ⟨info, hs.find hfind, hsource⟩
    · cases heq
    · cases heq
      rw [hn] at hcore
      cases hcore
    · cases heq
      cases hkind.symm.trans hkind'
      exact ⟨info, hfind, hsource⟩

/-- All brokers that resolve a name of a kind resolve it to the same interface. -/
def NamesAgree (t : Topology) (net : InterfaceNet) : Prop :=
  ∀ n n' what name info info', t.isCore n = false → t.isCore n' = false →
    (net.brokers n).handles.find what name = some info →
    (net.brokers n').handles.find what name = some info' → info.handle = info'.handle

/-- A broker refuses a registration that another broker has recorded and passed on. -/
def Refuses (t : Topology) (net : InterfaceNet) (ev : NetEvent) : Prop :=
  ∃ n m rest what info, ev = .deliver (.up n) ∧ t.isCore n = false ∧
    takeFirst (.up n) net.flight = some (m, rest) ∧ m.action.registers = some what ∧
    (net.brokers (t.parent n)).handles.find what m.name = some info ∧ info.handle ≠ m.source

/-- A broker and its parent have different interfaces of one name. -/
def Split (t : Topology) (net : InterfaceNet) : Prop :=
  ∃ n what name info info', t.isCore n = false ∧ n ≠ t.root ∧
    (net.brokers n).handles.find what name = some info ∧
    (net.brokers (t.parent n)).handles.find what name = some info' ∧ info'.handle ≠ info.handle

/-- What a broker has recorded is on its way to the parent, or the parent has recorded it too. -/
def PassedOn (t : Topology) (net : InterfaceNet) : Prop :=
  ∀ n what name info, t.isCore n = false → n ≠ t.root →
    (net.brokers n).handles.find what name = some info →
    (∃ m, (.up n, m) ∈ net.flight ∧ m.action.registers = some what ∧ m.name = name ∧
      m.source = info.handle) ∨
    ∃ info', (net.brokers (t.parent n)).handles.find what name = some info' ∧
      info'.handle = info.handle

variable {t : Topology} {net net' : InterfaceNet}

theorem RegistrationStep.split (hs : RegistrationStep t net ev net') (h : Split t net) :
    Split t net' := by
  obtain ⟨n, what, name, info, info', hn, hroot, hfind, hfind', hne⟩ := h
  exact ⟨n, what, name, info, info', hn, hroot, hs.find hfind, hs.find hfind', hne⟩

theorem RegistrationStep.stays (hs : RegistrationStep t net ev net') (hno : ¬ Refuses t net ev)
    (hx : (.up n, m) ∈ net.flight) (hn : t.isCore n = false)
    (hkind : m.action.registers = some what) : (.up n, m) ∈ net'.flight ∨
      ∃ info, (net'.brokers (t.parent n)).handles.find what m.name = some info ∧
        info.handle = m.source := by
  cases hs with
  | entered _ _ _ _ hflight =>
    rw [hflight]
    exact .inl (List.mem_append_left _ hx)
  | copied _ htake _ hflight =>
    rw [(takeFirst_perm htake).mem_iff] at hx
    rcases List.mem_cons.mp hx with heq | hx
    · cases heq
    · rw [hflight]
      exact .inl (List.mem_append_left _ hx)
  | @refused k m' w rest info hev hkind' htake hroot hknown hbrokers hflight =>
    rw [(takeFirst_perm htake).mem_iff] at hx
    rcases List.mem_cons.mp hx with heq | hx
    · cases heq
      cases hkind.symm.trans hkind'
      rw [hbrokers]
      refine .inr ⟨info, hknown, ?_⟩
      by_contra hne
      exact hno ⟨n, m, rest, what, info, hev, hn, htake, hkind, hknown, hne⟩
    · rw [hflight]
      exact .inl hx
  | @recorded w k m' rest b hkind' hname htake hroot hnew hbrokers hrootc hunknown hhandles
    hflight =>
    rw [(takeFirst_perm htake).mem_iff] at hx
    rcases List.mem_cons.mp hx with heq | hx
    · cases heq
      cases hkind.symm.trans hkind'
      refine .inr ⟨(net.brokers (t.parent n)).registered m what, ?_, rfl⟩
      rw [hbrokers, Function.update_self, hhandles, HandleManager.find_push_of_none hnew _
        (InterfaceAction.of_registers hkind).1
        ((InterfaceBroker.registered_key hname what).trans_ne hname),
        InterfaceBroker.registered_key hname what]
      exact if_pos rfl
    · rw [hflight]
      exact .inl (List.mem_append_left _ hx)

theorem PassedOn.step (h : PassedOn t net) (hs : RegistrationStep t net ev net')
    (hno : ¬ Refuses t net ev) : PassedOn t net' := by
  intro n what name info hn hroot hfind
  rcases hs.find_cases hfind with hold | ⟨_, m, _, _, _, _, hkind, hname, hsource, hsent⟩
  · rcases h n what name info hn hroot hold with ⟨m, hx, hkind, hname, hsource⟩ |
      ⟨info', hfind', hhandle⟩
    · rcases hs.stays hno hx hn hkind with hx' | ⟨info', hfind', hhandle⟩
      · exact .inl ⟨m, hx', hkind, hname, hsource⟩
      · rw [hname] at hfind'
        exact .inr ⟨info', hfind', hhandle.trans hsource⟩
    · exact .inr ⟨info', hs.find hfind', hhandle⟩
  · exact .inl ⟨m, hsent hroot, hkind, hname, hsource⟩

theorem split_of_refuses (h : OnlyRegistrations t net) (hno : Refuses t net ev) : Split t net := by
  obtain ⟨n, m, rest, what, info, _, hn, htake, hkind, hfind, hne⟩ := hno
  obtain ⟨info', hfind', hsource⟩ := h.recorded (mem_of_takeFirst htake) hn hkind
  have hroot : n ≠ t.root := by
    rcases h.place (mem_of_takeFirst htake) with ⟨_, hl, _⟩ | ⟨_, hl, hroot, _⟩
    · cases hl
    · cases hl
      exact hroot
  exact ⟨n, what, m.name, info', info, hn, hroot, hfind', hfind, by rw [hsource]; exact hne⟩

theorem not_namesAgree_of_split (ht : t.IsTree) (h : Split t net) : ¬ NamesAgree t net := by
  obtain ⟨n, what, name, info, info', hn, hroot, hfind, hfind', hne⟩ := h
  intro hagree
  exact hne (hagree _ _ what name info' info (ht.parent_broker hroot) hn hfind' hfind)

theorem PassedOn.root (ht : t.IsTree) (h : PassedOn t net) (hquiet : net.flight = [])
    (hn : t.isCore n = false) (hfind : (net.brokers n).handles.find what name = some info) :
    ∃ info', (net.brokers t.root).handles.find what name = some info' ∧
      info'.handle = info.handle := by
  have hpath := ht.reaches_root n
  induction hpath using Relation.ReflTransGen.head_induction_on generalizing info with
  | refl => exact ⟨info, hfind, rfl⟩
  | @head n k hnk _ ih =>
    obtain ⟨hroot, rfl⟩ := hnk
    rcases h n what name info hn hroot hfind with ⟨m, hx, _⟩ | ⟨info', hfind', hhandle⟩
    · rw [hquiet] at hx
      cases hx
    · obtain ⟨info'', hfind'', hhandle'⟩ := ih (ht.parent_broker hroot) hfind'
      exact ⟨info'', hfind'', hhandle'.trans hhandle⟩

theorem Fresh.onlyRegistrations (h : net.Fresh t) : OnlyRegistrations t net where
  root := fun hn => (h.wiredBroker hn).root
  unasked := fun hn => (h.brokerTables hn).2
  kind := by
    intro l m hx
    rw [h.flight] at hx
    cases hx
  place := by
    intro l m hx
    rw [h.flight] at hx
    cases hx
  recorded := by
    intro n m what hx
    rw [h.flight] at hx
    cases hx

theorem Fresh.passedOn (h : net.Fresh t) : PassedOn t net := by
  intro n what name info hn _ hfind
  rw [(h.brokerTables hn).1] at hfind
  cases hfind

theorem PassedOn.run (ht : t.IsTree)
    (hrun : Run (fun s ev s' => s.step t ev = some s' ∧ ¬ Refuses t s ev) net evs net')
    (hevs : ∀ ev ∈ evs, ev.Registers) (honly : OnlyRegistrations t net) (h : PassedOn t net) :
    PassedOn t net' := by
  induction hrun with
  | nil => exact h
  | cons hstep _ ih =>
    have hs := registrationStep_of_step ht honly hstep.1 (hevs _ List.mem_cons_self)
    exact ih (fun ev hev => hevs ev (List.mem_cons_of_mem _ hev)) (honly.step ht hs)
      (h.step hs hstep.2)

theorem Split.run (ht : t.IsTree) (hrun : Runs t net evs net')
    (hevs : ∀ ev ∈ evs, ev.Registers) (honly : OnlyRegistrations t net) (h : Split t net) :
    Split t net' := by
  induction hrun with
  | nil => exact h
  | cons hstep _ ih =>
    have hs := registrationStep_of_step ht honly hstep (hevs _ List.mem_cons_self)
    exact ih (fun ev hev => hevs ev (List.mem_cons_of_mem _ hev)) (honly.step ht hs) (hs.split h)

theorem clean_or_split (ht : t.IsTree) (hrun : Runs t net evs net')
    (hevs : ∀ ev ∈ evs, ev.Registers) (honly : OnlyRegistrations t net) :
    Run (fun s ev s' => s.step t ev = some s' ∧ ¬ Refuses t s ev) net evs net' ∨ Split t net' := by
  induction hrun with
  | nil => exact .inl (.nil _)
  | @cons s ev s₁ l s' hstep hrest ih =>
    have hs := registrationStep_of_step ht honly hstep (hevs _ List.mem_cons_self)
    have hevs' : ∀ ev ∈ l, ev.Registers := fun ev hev => hevs ev (List.mem_cons_of_mem _ hev)
    by_cases hno : Refuses t s ev
    · have hsplit := hs.split (split_of_refuses honly hno)
      exact .inr (hsplit.run ht hrest hevs' (honly.step ht hs))
    · rcases ih hevs' (honly.step ht hs) with hclean | hsplit
      · exact .inl (.cons ⟨hstep, hno⟩ hclean)
      · exact .inr hsplit

/-- When all registrations are delivered, the brokers agree on every name if and only if no broker
has refused a registration that a broker below it had recorded. -/
theorem names_agree_iff (ht : t.IsTree) (hfresh : net.Fresh t)
    (hrun : Run (fun s ev s' => s.step t ev = some s') net evs net')
    (hevs : ∀ ev ∈ evs, ev.Registers) (hquiet : net'.flight = []) : NamesAgree t net' ↔
      Run (fun s ev s' => s.step t ev = some s' ∧ ¬ Refuses t s ev) net evs net' := by
  constructor
  · intro hagree
    rcases clean_or_split ht hrun hevs hfresh.onlyRegistrations with hclean | hsplit
    · exact hclean
    · exact absurd hagree (not_namesAgree_of_split ht hsplit)
  · intro hclean
    have hpassed := PassedOn.run ht hclean hevs hfresh.onlyRegistrations hfresh.passedOn
    intro n n' what name info info' hn hn' hfind hfind'
    obtain ⟨top, htop, hhandle⟩ := hpassed.root ht hquiet hn hfind
    obtain ⟨top', htop', hhandle'⟩ := hpassed.root ht hquiet hn' hfind'
    cases htop.symm.trans htop'
    exact hhandle.symm.trans hhandle'

end InterfaceNet

end

namespace TwoLevels

attribute [local instance] DualMapped.listVectors

def registrations (near far : String) : List NetEvent :=
  [.register nearCore nearFed .publication near "" "",
    .register farCore farFed .publication far "" "", .register farCore farFed .input near "" "",
    .deliver (.own nearCore), .deliver (.up nearCore), .deliver (.own farCore),
    .deliver (.own farCore), .deliver (.up farCore), .deliver (.up branch), .deliver (.up farCore),
    .deliver (.up branch)]

def refuses (s : InterfaceNet) : NetEvent → Bool
  | .deliver (.up n) => (takeFirst (.up n) s.flight).any fun (m, _) =>
    m.action.registers.any fun what =>
      ((s.brokers (tree.parent n)).handles.find what m.name).any fun info =>
        decide (info.handle ≠ m.source)
  | _ => false

theorem refuses_of_refuses (h : Refuses tree s ev) : refuses s ev = true := by
  obtain ⟨n, m, rest, what, info, rfl, _, htake, hkind, hfind, hne⟩ := h
  simp [refuses, htake, hkind, hfind, hne]

def acceptedStep (s : InterfaceNet) (ev : NetEvent) : Option InterfaceNet :=
  if refuses s ev then none else s.step tree ev

theorem names_agree_after_registrations : ∃ net', net'.flight = [] ∧
    Run (fun s ev s' => s.step tree ev = some s' ∧ ¬ Refuses tree s ev) net
      (registrations "p" "q") net' ∧ NamesAgree tree net' := by
  have hflight : (execute acceptedStep net (registrations "p" "q")).map (·.flight) = some [] := by
    decide +kernel
  obtain ⟨net', hnet', hquiet⟩ := Option.map_eq_some_iff.mp hflight
  have hrun : Run (fun s ev s' => s.step tree ev = some s' ∧ ¬ Refuses tree s ev) net
      (registrations "p" "q") net' := by
    refine (Run.of_execute hnet').mono fun s ev s' h => ?_
    unfold acceptedStep at h
    split at h
    · cases h
    · rename_i hno
      exact ⟨h, fun hr => hno (refuses_of_refuses hr)⟩
  exact ⟨net', hquiet, hrun, (names_agree_iff isTree fresh (hrun.mono fun _ _ _ h => h.1)
    (by decide) hquiet).mpr hrun⟩

/-- The same name on two cores: the broker between keeps the interface that the root has refused. -/
theorem name_resolved_differently : ∃ net',
    execute (fun s ev => s.step tree ev) net (registrations "p" "p") = some net' ∧
      net'.flight = [] ∧ ¬ NamesAgree tree net' := by
  have hsome : (execute (fun s ev => s.step tree ev) net
      (registrations "p" "p")).isSome = true := by decide +kernel
  obtain ⟨net', hnet'⟩ := Option.isSome_iff_exists.mp hsome
  have hend : (execute (fun s ev => s.step tree ev) net (registrations "p" "p")).map
      (fun s => (s.flight, ((s.brokers 1).handles.find .publication "p").map (·.handle),
        ((s.brokers branch).handles.find .publication "p").map (·.handle))) =
      some ([], some ⟨nearFed, 0⟩, some ⟨farFed, 0⟩) := by decide +kernel
  rw [hnet'] at hend
  obtain ⟨hflight, hfinds⟩ := Prod.mk.inj (Option.some.inj hend)
  obtain ⟨hroot, hbranch⟩ := Prod.mk.inj hfinds
  obtain ⟨info, hfind, hhandle⟩ := Option.map_eq_some_iff.mp hroot
  obtain ⟨info', hfind', hhandle'⟩ := Option.map_eq_some_iff.mp hbranch
  refine ⟨net', hnet', hflight, fun hagree => ?_⟩
  have heq := hagree 1 branch .publication "p" info info' (by decide) (by decide) hfind hfind'
  rw [hhandle, hhandle'] at heq
  exact absurd heq (by decide)

end TwoLevels

end Helics
