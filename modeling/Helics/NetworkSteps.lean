import Helics.BrokerTables
import Helics.CoreAnswers

namespace Helics

open InterfaceCore HandleType

open LinkNetwork (takeFirst)

/-- A new interface in the table of a core, and the command that announces it. -/
structure Announces (c c' : InterfaceCore) (info : HandleInfo) (m : InterfaceMessage) : Prop where
  core : c' = { c with handles := c.handles.push info }
  kind : m.action.registers = some info.handleType
  source : m.source = info.handle
  flags : m.flags = info.flags
  type : m.getString typeStringLoc = info.type
  units : m.getString unitStringLoc = info.units
  dest : m.dest.fedId = parentBrokerId
  position : info.handle.handle = c.handles.handles.length

structure Asks (info : HandleInfo) (what : HandleType) (name : String) (m : InterfaceMessage) :
    Prop where
  partner : info.handleType = what.partner
  source : m.source = info.handle
  name : m.name = name
  dest : m.dest.fedId = parentBrokerId
  strings : info.key ≠ "" → m.stringData = []
  plain : checkActionFlag info.flags errorFlag = false → checkActionFlag m.flags errorFlag = false

theorem destination_plain (h : checkActionFlag flags errorFlag = false) :
    checkActionFlag (setActionFlag flags destinationTarget) errorFlag = false := by
  rw [checkActionFlag_setActionFlag (by decide)]
  exact h

namespace InterfaceCore

variable {c : InterfaceCore}

theorem addSourceTarget_eq_some (h : c.addSourceTarget handle name = some m) :
    ∃ info what, c.handles.getHandleInfo handle = some info ∧ m.action.asksFor = some what ∧
      Asks info what name m := by
  obtain ⟨info, hget, hm⟩ := Option.bind_eq_some_iff.mp h
  cases hwhat : info.handleType <;> rw [hwhat] at hm <;> cases hm
  case input | endpoint => exact ⟨info, _, hget, rfl, hwhat, rfl, rfl, rfl, fun _ => rfl, id⟩
  case filter =>
    refine ⟨info, .endpoint, hget, ?_⟩
    split
    · rename_i hkey
      rw [InterfaceMessage.withTypes_eq]
      exact ⟨rfl, hwhat, rfl, rfl, rfl, fun hno => absurd hkey hno, id⟩
    · exact ⟨rfl, hwhat, rfl, rfl, rfl, fun _ => rfl, id⟩

theorem addDestinationTarget_eq_some (h : c.addDestinationTarget handle name = some m) :
    ∃ info what, c.handles.getHandleInfo handle = some info ∧ m.action.asksFor = some what ∧
      Asks info what name m := by
  obtain ⟨info, hget, hm⟩ := Option.bind_eq_some_iff.mp h
  cases hwhat : info.handleType <;> rw [hwhat] at hm <;> cases hm
  case publication =>
    refine ⟨info, .input, hget, ?_⟩
    split
    · rename_i hkey
      exact ⟨rfl, hwhat, rfl, rfl, rfl, fun hno => absurd hkey hno, destination_plain⟩
    · exact ⟨rfl, hwhat, rfl, rfl, rfl, fun _ => rfl, destination_plain⟩
  case endpoint =>
    exact ⟨info, .filter, hget, rfl, hwhat, rfl, rfl, rfl, fun _ => rfl, destination_plain⟩
  case filter =>
    refine ⟨info, .endpoint, hget, ?_⟩
    split
    · rename_i hkey
      rw [InterfaceMessage.withTypes_eq]
      exact ⟨rfl, hwhat, rfl, rfl, rfl, fun hno => absurd hkey hno, destination_plain⟩
    · exact ⟨rfl, hwhat, rfl, rfl, rfl, fun _ => rfl, destination_plain⟩

theorem removeTarget_eq_some (h : c.removeTarget handle name granted = some m) :
    ∃ info what, c.handles.getHandleInfo handle = some info ∧ m.action.givesUp = some what ∧
      Asks info what name m ∧ m.actionTime = granted.getD .zero := by
  obtain ⟨info, hget, hm⟩ := Option.bind_eq_some_iff.mp h
  cases hwhat : info.handleType <;> rw [hwhat] at hm <;> cases hm
  all_goals
    exact ⟨info, _, hget, rfl, ⟨hwhat, rfl, rfl, rfl, fun _ => rfl, fun _ => noError_zero⟩, rfl⟩

end InterfaceCore

namespace InterfaceNet

variable {c : InterfaceCore}

theorem registerAs_eq_some
    (h : registerAs c f what key type units = some (c', f', m)) :
    ∃ info, Announces c c' info m ∧ info.handleType = what ∧ info.handle.fedId = f.globalId ∧
      what ∉ [unknown, .filter] ∧ info.flags = f.interfaceFlags ∧ m.name = key ∧
      info.key = (if key = "" then c.handles.generateName what else key) ∧
      f' = f.createInterface what info.handle.handle := by
  have hnamed : ∃ action units' strings, action.registers = some what ∧
      (strings = [type, units'] ∨ strings = [type] ∧ units' = "") ∧ what ∉ [unknown, .filter] ∧
      c.registerNamed f what action key type units' strings = some (c', f', m) := by
    cases what with
    | publication => exact ⟨_, _, _, rfl, .inl rfl, by decide, h⟩
    | input => exact ⟨_, _, _, rfl, .inl rfl, by decide, h⟩
    | endpoint => exact ⟨_, _, _, rfl, .inr ⟨rfl, rfl⟩, by decide, h⟩
    | unknown | filter => cases h
  obtain ⟨action, units', strings, hkind, hstrings, hwhat, hmade⟩ := hnamed
  unfold registerNamed at hmade
  split at hmade
  · cases hmade
  cases hmade
  refine ⟨_, ⟨rfl, hkind, rfl, rfl, ?_, ?_, rfl, rfl⟩, rfl, rfl, hwhat, rfl, rfl, rfl, rfl⟩
  · rcases hstrings with rfl | ⟨rfl, _⟩ <;> rfl
  · rcases hstrings with rfl | ⟨rfl, rfl⟩ <;> rfl

theorem registerFilter_eq_some (h : c.registerFilter name typeIn typeOut cloning = some (c', m)) :
    ∃ info, Announces c c' info m ∧ info.handleType = .filter ∧
      info.handle.fedId = c.globalBrokerIdLocal ∧ m.name = info.key ∧
      info.flags = (if cloning then setActionFlag 0 cloneFlag else 0) ∧
      info.key = (if name = "" then c.handles.generateName .filter else name) := by
  unfold registerFilter at h
  split at h
  · cases h
  cases h
  refine ⟨_, ⟨rfl, ?_, ?_, ?_, (InterfaceMessage.getString_withTypes rfl typeIn typeOut).1,
    (InterfaceMessage.getString_withTypes rfl typeIn typeOut).2, ?_, rfl⟩, rfl, rfl, ?_, rfl, rfl⟩
  all_goals rw [InterfaceMessage.withTypes_eq]
  all_goals rfl

theorem filterMap_emit_other {es : List InterfaceEffect}
    (h : ∀ e ∈ es, (∃ route m, e = .command route m) ∨ ∃ fed m, e = .federateCommand fed m) :
    es.filterMap (emit t n) = [] := by
  apply List.filterMap_eq_nil_iff.mpr
  intro e he
  rcases h e he with ⟨_, _, rfl⟩ | ⟨_, _, rfl⟩
  · rfl
  · rfl

theorem emit_parent (hn : n ≠ t.root) (m : InterfaceMessage) :
    emit t n (.transmit parentRouteId m) = some (.up n, m) := by
  unfold emit
  dsimp only
  rw [if_pos rfl, if_neg hn]

variable [DualMapped String GlobalId]

structure Fresh (t : Topology) (net : InterfaceNet) : Prop where
  wiredBroker : ∀ {n}, t.isCore n = false → WiredBroker t n (net.brokers n)
  brokerTables : ∀ {n}, t.isCore n = false →
    (net.brokers n).handles = .empty ∧ (net.brokers n).unknownHandles = {}
  wiredCore : ∀ {n}, t.isCore n = true → WiredCore t n (net.cores n)
  coreTables : ∀ {n}, t.isCore n = true →
    (net.cores n).handles = .empty ∧ (net.cores n).loopHandles = .empty ∧
    (net.cores n).filters = [] ∧
      (net.cores n).filterCoord = []
  federates : ∀ f, (net.federates f).globalId = f ∧
    checkActionFlag (net.federates f).interfaceFlags errorFlag = false ∧
    checkActionFlag (net.federates f).interfaceFlags disconnectedFlag = false ∧
    (net.federates f).publications = [] ∧ (net.federates f).inputs = [] ∧
    (net.federates f).endpoints = []
  flight : net.flight = []

variable {t : Topology} {net net' : InterfaceNet}

theorem step_register (h : net.step t (.register core fed what key type units) = some net') :
    t.isCore core = true ∧ (net.cores core).isLocal fed = true ∧ ∃ c f m,
      registerAs (net.cores core) (net.federates fed) what key type units = some (c, f, m) ∧
      net' = ((net.setCore core c).setFederate fed f).send [(.own core, m)] := by
  have h : (if t.isCore core ∧ (net.cores core).isLocal fed then _ else none) = some net' := h
  split at h
  · rename_i hcore
    obtain ⟨⟨c, f, m⟩, hmade, heq⟩ := Option.map_eq_some_iff.mp h
    exact ⟨hcore.1, hcore.2, c, f, m, hmade, heq.symm⟩
  · cases h

theorem step_registerFilter
    (h : net.step t (.registerFilter core name typeIn typeOut cloning) = some net') :
    t.isCore core = true ∧ ∃ c m,
      (net.cores core).registerFilter name typeIn typeOut cloning = some (c, m) ∧
      net' = (net.setCore core c).send [(.own core, m)] := by
  have h : (if t.isCore core then _ else none) = some net' := h
  split at h
  · rename_i hcore
    obtain ⟨⟨c, m⟩, hmade, heq⟩ := Option.map_eq_some_iff.mp h
    exact ⟨hcore, c, m, hmade, heq.symm⟩
  · cases h

theorem step_deliver (h : net.step t (.deliver link) = some net') :
    ∃ m rest, takeFirst link net.flight = some (m, rest) ∧
      net' = { net with flight := rest }.receive t link m := by
  obtain ⟨⟨m, rest⟩, htake, heq⟩ := Option.map_eq_some_iff.mp h
  exact ⟨m, rest, htake, heq.symm⟩

theorem handleAt_core (hn : t.isCore n = true) (net : InterfaceNet)
    (m : InterfaceMessage) : net.handleAt t n m =
      (net.setCore n ((net.cores n).processCommand m).1).send
        (((net.cores n).processCommand m).2.filterMap (emit t n)) := by
  unfold handleAt
  rw [if_pos hn]

theorem handleAt_broker (hn : t.isCore n = false) (net : InterfaceNet)
    (m : InterfaceMessage) : net.handleAt t n m =
      (net.setBroker n ((net.brokers n).processCommand m).1).send
        (((net.brokers n).processCommand m).2.filterMap (emit t n)) := by
  unfold handleAt
  rw [if_neg (by rw [hn]; exact Bool.false_ne_true)]

theorem handleAt_core_registration (net : InterfaceNet)
    (ht : t.IsTree) (hn : t.isCore n = true) (hkind : m.action.registers = some what)
    (hdest : m.dest.fedId = parentBrokerId) :
    ∃ c, net.handleAt t n m = (net.setCore n c).send (if m.name = "" then [] else [(.up n, m)]) ∧
      c = ((net.cores n).registerInterface m).1 := by
  have hroot := ht.core_ne_root hn
  obtain ⟨c', joins, heq, _, hjoins⟩ :=
    registerInterface_frame (c := net.cores n) hdest
  refine ⟨_, ?_, rfl⟩
  rw [handleAt_core hn, processCommand_registration hkind, heq]
  rw [List.filterMap_append, filterMap_emit_other hjoins, List.nil_append]
  split
  · rfl
  · rw [List.filterMap_cons, emit_parent hroot]
    rfl

end InterfaceNet

end Helics
