import Helics.NetworkNodes

namespace Helics

open InterfaceCore

open LinkNetwork (takeFirst takeFirst_perm mem_of_takeFirst mem_rest Ordered)

namespace FederateInterfaces

theorem processActionMessage_connection {f : FederateInterfaces} (hfor : m.action.isFor ≠ none) :
    (f.processActionMessage m).2 = [] := by
  unfold processActionMessage
  cases hact : m.action <;> first | rfl | exact absurd (by rw [hact]; rfl) hfor

theorem processActionMessage_id (f : FederateInterfaces) (m : InterfaceMessage) :
    (f.processActionMessage m).1.globalId = f.globalId ∧
      (f.processActionMessage m).1.interfaceFlags = f.interfaceFlags := by
  unfold processActionMessage
  split
  · exact ⟨rfl, rfl⟩
  · exact ⟨rfl, rfl⟩
  · exact ⟨rfl, rfl⟩
  · exact ⟨rfl, rfl⟩
  · split
    · unfold closeInterface
      split
      · split <;> exact ⟨rfl, rfl⟩
      · exact ⟨rfl, rfl⟩
      · split <;> exact ⟨rfl, rfl⟩
      · exact ⟨rfl, rfl⟩
    · exact ⟨rfl, rfl⟩
  · exact ⟨rfl, rfl⟩

theorem createInterface_id (f : FederateInterfaces) (what : HandleType) (handle : InterfaceHandle) :
    (f.createInterface what handle).globalId = f.globalId ∧
      (f.createInterface what handle).interfaceFlags = f.interfaceFlags := by
  unfold createInterface
  split <;> exact ⟨rfl, rfl⟩

end FederateInterfaces

namespace InterfaceNet

theorem generateName_ne (m : HandleManager) (what : HandleType) : m.generateName what ≠ "" := by
  unfold HandleManager.generateName
  intro h
  have hlen := congrArg String.length h
  rw [String.length_append] at hlen
  cases what <;> simp [HandleType.nameStart] at hlen

end InterfaceNet

variable [DualMapped String GlobalId]

namespace InterfaceNet

def roster (t : Topology) (net : InterfaceNet) : Roster :=
  fun n => if t.isCore n then (net.cores n).handles.handles else []

/-- The interfaces that a federate or core registers belong to it. -/
structure Registry (t : Topology) (net : InterfaceNet) : Prop where
  federate : ∀ f, (net.federates f).globalId = f ∧
    checkActionFlag (net.federates f).interfaceFlags errorFlag = false ∧
    checkActionFlag (net.federates f).interfaceFlags disconnectedFlag = false
  wired : ∀ {n}, t.isCore n = true → WiredCore t n (net.cores n)
  position : ∀ {n : GlobalId} {i : Nat} {info}, t.isCore n = true →
    (net.cores n).handles.handles[i]? = some info → info.handle.handle = i
  entry : ∀ {n info}, t.isCore n = true → info ∈ (net.cores n).handles.handles →
    t.home info.handle.fedId = some n ∧ info.key ≠ "" ∧ info.handleType ≠ .unknown ∧
      (t.isCore info.handle.fedId = true ↔ info.handleType = .filter) ∧
      checkActionFlag info.flags errorFlag = false ∧
      checkActionFlag info.flags disconnectedFlag = false

variable {t : Topology} {r : Roster} {net net' : InterfaceNet}

theorem has_roster (h : (roster t net).Has info) :
    ∃ n, t.isCore n = true ∧ info ∈ (net.cores n).handles.handles := by
  obtain ⟨n, hn⟩ := h
  unfold roster at hn
  split at hn
  · exact ⟨n, ‹_›, hn⟩
  · cases hn

theorem mem_roster (hn : t.isCore n = true) : roster t net n = (net.cores n).handles.handles := by
  unfold roster
  rw [if_pos hn]

theorem Registry.valid (h : Registry t net)
    (hunique : ∀ info info', (roster t net).Has info → (roster t net).Has info' →
      info.handleType = info'.handleType → info.key = info'.key → info.handle = info'.handle) :
    (roster t net).Valid t where
  home := by
    intro core info hinfo
    unfold roster at hinfo
    split at hinfo
    · exact (h.entry ‹_› hinfo).1
    · cases hinfo
  position := by
    intro core i info hinfo
    unfold roster at hinfo
    split at hinfo
    · exact h.position ‹_› hinfo
    · cases hinfo
  named := by
    intro info hinfo
    obtain ⟨n, hn, hmem⟩ := has_roster hinfo
    exact (h.entry hn hmem).2.1
  typed := by
    intro info hinfo
    obtain ⟨n, hn, hmem⟩ := has_roster hinfo
    exact (h.entry hn hmem).2.2.1
  owner := by
    intro info hinfo
    obtain ⟨n, hn, hmem⟩ := has_roster hinfo
    exact (h.entry hn hmem).2.2.2.1
  unique := fun hi hi' => hunique _ _ hi hi'
  plain := by
    intro info hinfo
    obtain ⟨n, hn, hmem⟩ := has_roster hinfo
    exact (h.entry hn hmem).2.2.2.2

end InterfaceNet

def NetEvent.Named : NetEvent → Prop
  | .register _ _ _ key _ _ => key ≠ ""
  | _ => True

instance : DecidablePred NetEvent.Named
  | .register _ _ _ key _ _ => inferInstanceAs (Decidable (key ≠ ""))
  | .registerFilter .. | .addSourceTarget .. | .addDestinationTarget .. | .removeTarget ..
  | .dataLink .. | .filterLink .. | .deliver _ => isTrue trivial

structure Registers (t : Topology) (net : InterfaceNet) (ev : NetEvent) (n : GlobalId)
    (info : HandleInfo) (m : InterfaceMessage) (net' : InterfaceNet) : Prop where
  event : (∃ fed what key type units, ev = .register n fed what key type units) ∨
    ∃ name typeIn typeOut cloning, ev = .registerFilter n name typeIn typeOut cloning
  core : t.isCore n = true
  announces : Announces (net.cores n) (net'.cores n) info m
  named : ev.Named → m.name = info.key
  key : info.key ≠ ""
  brokers : net'.brokers = net.brokers
  cores : ∀ k, k ≠ n → net'.cores k = net.cores k
  flight : net'.flight = net.flight ++ [(.own n, m)]
  owner : info.handleType = .filter ∧ info.handle.fedId = (net.cores n).globalBrokerIdLocal ∧
      net'.federates = net.federates ∧ checkActionFlag info.flags errorFlag = false ∧
      checkActionFlag info.flags disconnectedFlag = false ∨
    ∃ f, (net.cores n).isLocal f = true ∧ info.handleType ∉ [HandleType.unknown, .filter] ∧
      info.handle.fedId = (net.federates f).globalId ∧
      info.flags = (net.federates f).interfaceFlags ∧
      net'.federates = Function.update net.federates f
        ((net.federates f).createInterface info.handleType info.handle.handle)

inductive Transition (t : Topology) (net : InterfaceNet) (ev : NetEvent)
    (net' : InterfaceNet) : Prop
  | registered (hnew : Registers t net ev n info m net')
  | asked (hev : ev = .addSourceTarget n handle name ∧ info.handleType ≠ .publication ∨
        ev = .addDestinationTarget n handle name ∧ info.handleType ≠ .input)
      (hcore : t.isCore n = true) (hinfo : (net.cores n).handles.getHandleInfo handle = some info)
      (hkind : m.action.asksFor = some what) (hasks : Asks info what name m)
      (heq : net' = net.send [(.own n, m)])
  | gaveUp (hev : ev = .removeTarget n handle name) (hcore : t.isCore n = true)
      (hinfo : (net.cores n).handles.getHandleInfo handle = some info)
      (hkind : m.action.givesUp = some what) (hasks : Asks info what name m)
      (htime : m.actionTime = (net.grantedTime n handle).getD .zero)
      (heq : net' = net.send [(.own n, m)])
  | dataLinked (hev : ev = .dataLink n source target)
      (heq : net' = net.send [(.own n, dataLinkCommand source target)])
  | filterLinked (hev : ev = .filterLink n filter endpoint destination)
      (heq : net' = net.send [(.own n, if destination then
        destinationFilterLinkCommand filter endpoint else sourceFilterLinkCommand filter endpoint)])
  | handled (hev : ev = .deliver link) (htake : takeFirst link net.flight = some (m, rest))
      (htarget : InterfaceNet.target t link = some k)
      (heq : net' = { net with flight := rest }.handleAt t k m)
  | informed (hev : ev = .deliver (.federate f))
      (htake : takeFirst (.federate f) net.flight = some (m, rest))
      (heq : net' = { net with flight := rest }.handleFederate t f m)

namespace InterfaceNet

theorem step_request {net net' : InterfaceNet}
    (h : net.request t core cmd = some net') :
    t.isCore core = true ∧ ∃ m, cmd = some m ∧ net' = net.send [(.own core, m)] := by
  unfold request at h
  split at h
  · rename_i hcore
    obtain ⟨m, hm, heq⟩ := Option.map_eq_some_iff.mp h
    exact ⟨hcore, m, hm, heq.symm⟩
  · cases h

/-- Every event is of one of these kinds. -/
theorem transition_of_step (h : net.step t ev = some net') :
    Transition t net ev net' := by
  cases ev with
  | register core fed what key type units =>
    obtain ⟨hcore, hlocal, c, f, m, hmade, rfl⟩ := step_register h
    obtain ⟨info, hann, htype, hid, hwhat, hflags, hname, hkey, hfed⟩ := registerAs_eq_some hmade
    have hself : (((net.setCore core c).setFederate fed f).send [(.own core, m)]).cores core = c :=
      Function.update_self ..
    refine .registered ⟨.inl ⟨_, _, _, _, _, rfl⟩, hcore, by rw [hself]; exact hann, ?_, ?_, rfl,
      ?_, rfl, ?_⟩
    · intro hnamed
      rw [hname, hkey, if_neg hnamed]
    · rw [hkey]
      split
      · exact generateName_ne _ _
      · assumption
    · intro k hk
      exact Function.update_of_ne hk ..
    · rw [← htype] at hwhat hfed
      refine .inr ⟨fed, hlocal, hwhat, hid, hflags, ?_⟩
      rw [← hfed]
      rfl
  | registerFilter core name typeIn typeOut cloning =>
    obtain ⟨hcore, c, m, hmade, rfl⟩ := step_registerFilter h
    obtain ⟨info, hann, htype, hid, hname, hflags, hkey⟩ := registerFilter_eq_some hmade
    have hself : ((net.setCore core c).send [(.own core, m)]).cores core = c :=
      Function.update_self ..
    refine .registered ⟨.inr ⟨_, _, _, _, rfl⟩, hcore, by rw [hself]; exact hann,
      fun _ => hname, ?_, rfl, ?_, rfl, ?_⟩
    · rw [hkey]
      split
      · exact generateName_ne _ _
      · assumption
    · intro k hk
      exact Function.update_of_ne hk ..
    · refine .inl ⟨htype, hid, rfl, ?_⟩
      rw [hflags]
      split
      · decide
      · decide
  | addSourceTarget core handle target =>
    obtain ⟨hcore, m, hm, rfl⟩ := step_request h
    obtain ⟨info, what, hinfo, hkind, hasks⟩ := addSourceTarget_eq_some hm
    refine .asked (.inl ⟨rfl, fun hpub => ?_⟩) hcore hinfo hkind hasks rfl
    unfold addSourceTarget at hm
    rw [hinfo, Option.bind_some, hpub] at hm
    cases hm
  | addDestinationTarget core handle target =>
    obtain ⟨hcore, m, hm, rfl⟩ := step_request h
    obtain ⟨info, what, hinfo, hkind, hasks⟩ := addDestinationTarget_eq_some hm
    refine .asked (.inr ⟨rfl, fun hinp => ?_⟩) hcore hinfo hkind hasks rfl
    unfold addDestinationTarget at hm
    rw [hinfo, Option.bind_some, hinp] at hm
    cases hm
  | removeTarget core handle target =>
    obtain ⟨hcore, m, hm, rfl⟩ := step_request h
    obtain ⟨info, what, hinfo, hkind, hasks, htime⟩ := removeTarget_eq_some hm
    exact .gaveUp rfl hcore hinfo hkind hasks htime rfl
  | dataLink node source target => exact .dataLinked rfl (Option.some.inj h).symm
  | filterLink node filter endpoint destination => exact .filterLinked rfl (Option.some.inj h).symm
  | deliver link =>
    obtain ⟨m, rest, htake, rfl⟩ := step_deliver h
    cases link with
    | own n => exact .handled rfl htake rfl rfl
    | up n => exact .handled rfl htake rfl rfl
    | down n => exact .handled rfl htake rfl rfl
    | federate f => exact .informed rfl htake rfl

end InterfaceNet

end Helics
