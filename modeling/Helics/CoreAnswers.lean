import Helics.CoreTables

namespace Helics

open HandleManager

namespace InterfaceCore

variable {c : InterfaceCore} {cmd : InterfaceMessage}

theorem checkForNamedInterface_of_known
    (hask : cmd.action.asksFor = some what) (hfind : c.loopHandles.find what cmd.name = some info)
    (hopen : checkActionFlag info.flags disconnectedFlag = false)
    (herror : checkActionFlag cmd.flags errorFlag = false) :
    ∃ first second, c.checkForNamedInterface cmd = c.both addTargetToInterface first second ∧
      Connects cmd.source what info.handle first second := by
  have hconnect : ∀ toTarget toSource strings back,
      c.connect cmd info toTarget toSource strings back =
      c.both addTargetToInterface
        { cmd with action := toTarget, dest := info.handle, name := "", stringData := strings }
        { cmd with
          action := toSource
          source := info.handle
          dest := cmd.source
          name := ""
          stringData := back strings } := by
    intro toTarget toSource strings back
    unfold connect
    rw [if_neg (by rw [hopen]; exact Bool.false_ne_true)]
    rfl
  unfold checkForNamedInterface
  cases hact : cmd.action with
  | cmdAddNamedPublication | cmdAddNamedInput | cmdAddNamedEndpoint | cmdAddNamedFilter =>
    rw [hact] at hask
    cases hask
    simp only [getPublication, getInput, getEndpoint,
      getFilter, hfind, Option.map_some, hconnect]
    exact ⟨_, _, rfl, ⟨rfl, rfl, rfl, rfl, rfl, rfl, herror, herror⟩⟩
  | _ =>
    rw [hact] at hask
    cases hask

theorem checkForNamedInterface_of_unknown
    (hask : cmd.action.asksFor = some what) (hfind : c.loopHandles.find what cmd.name = none) :
    c.checkForNamedInterface cmd = (c, c.routeMessage cmd) := by
  unfold checkForNamedInterface
  cases hact : cmd.action with
  | cmdAddNamedPublication | cmdAddNamedInput | cmdAddNamedEndpoint | cmdAddNamedFilter =>
    rw [hact] at hask
    cases hask
    simp only [getPublication, getInput, getEndpoint,
      getFilter, hfind, Option.map_none]
  | _ => rfl

theorem removeNamedTarget_eq (hgive : cmd.action.givesUp = some what) : c.removeNamedTarget cmd =
    (c.loopHandles.find what cmd.name).elim (c, c.routeMessage cmd) fun info =>
      c.both removeTargetFromInterface
        { cmd with action := what.removePartner, dest := info.handle, name := "" }
        { cmd with
          action := what.partner.removePartner
          source := info.handle
          dest := cmd.source
          name := "" } := by
  unfold removeNamedTarget
  cases hact : cmd.action with
  | cmdRemoveNamedPublication | cmdRemoveNamedInput | cmdRemoveNamedEndpoint
  | cmdRemoveNamedFilter =>
    rw [hact] at hgive
    cases hgive
    simp only [getPublication, getInput, getEndpoint, getFilter]
    cases c.loopHandles.find _ cmd.name <;> rfl
  | _ =>
    rw [hact] at hgive
    cases hgive

variable {m : InterfaceMessage}

theorem processCommand_link
    (hkind : m.action.linksFirst = some first) : ∃ askSecond askFirst : InterfaceMessage,
      c.processCommand m = (match c.loopHandles.find first m.name with
        | some x => c.checkForNamedInterface { askSecond with source := x.handle }
        | none => match c.loopHandles.find first.partner (m.getString targetStringLoc) with
          | none => (c, c.routeMessage m)
          | some x => c.checkForNamedInterface { askFirst with source := x.handle }) ∧
      (askSecond.action.asksFor = some first.partner ∧
        askSecond.name = m.getString targetStringLoc ∧
        askSecond.flags = m.flags ∧ askSecond.dest = m.dest) ∧
      askFirst.action.asksFor = some first ∧ askFirst.name = m.name ∧ askFirst.flags = m.flags ∧
        askFirst.dest = m.dest := by
  unfold processCommand
  cases hact : m.action <;> rw [hact] at hkind <;> cases hkind
  · exact ⟨{ m with
      name := m.getString targetStringLoc
      action := .cmdAddNamedInput
      stringData := [] }, { m with action := .cmdAddNamedPublication, stringData := [] },
      rfl, ⟨rfl, rfl, rfl, rfl⟩, rfl, rfl, rfl, rfl⟩
  · exact ⟨{ m with name := m.getString targetStringLoc, action := .cmdAddNamedEndpoint },
      { m with action := .cmdAddNamedFilter }, rfl, ⟨rfl, rfl, rfl, rfl⟩, rfl, rfl, rfl, rfl⟩

theorem routeMessage_parent (hdest : cmd.dest.fedId = parentBrokerId) :
    c.routeMessage cmd = [.transmit parentRouteId cmd] := by
  unfold routeMessage
  rw [if_pos (.inl hdest)]

theorem mem_processFilterInfo (he : e ∈ (c.processFilterInfo cmd).2) :
    (∃ route m, e = .command route m) ∨ ∃ fed m, e = .federateCommand fed m := by
  have hroute : ∀ m, e ∈ c.routeCommand m →
      (∃ route m, e = .command route m) ∨ ∃ fed m, e = .federateCommand fed m := by
    intro m hm
    unfold routeCommand at hm
    split at hm
    · exact .inl ⟨_, _, List.mem_singleton.mp hm⟩
    split at hm
    · cases hm
    · split at hm
      · exact .inr ⟨_, _, List.mem_singleton.mp hm⟩
      · exact .inl ⟨_, _, List.mem_singleton.mp hm⟩
  unfold processFilterInfo at he
  split at he
  · cases he
  split at he
  · split at he
    · cases he
    unfold addDestFilter at he
    dsimp only at he
    split at he
    · exact hroute _ he
    · split at he
      · cases he
      · cases he
  · split at he
    · cases he
    · cases he

theorem joinForEndpoint_frame (c : InterfaceCore) (fed : GlobalId) :
    (c.joinForEndpoint fed).1.loopHandles = c.loopHandles ∧ ∀ e ∈ (c.joinForEndpoint fed).2,
        (∃ route m, e = .command route m) ∨ ∃ fed m, e = .federateCommand fed m := by
  unfold joinForEndpoint
  extract_lets join added coord withFed first coord' upper
  have hframe : first.1.loopHandles = c.loopHandles ∧ ∀ e ∈ first.2,
      (∃ route m, e = .command route m) ∨ ∃ fed m, e = .federateCommand fed m := by
    unfold first
    split
    · exact ⟨rfl, fun e he => .inr ⟨_, _, List.mem_singleton.mp he⟩⟩
    · exact ⟨rfl, fun e he => absurd he List.not_mem_nil⟩
  split
  · exact hframe
  split
  · refine ⟨hframe.1, fun e he => ?_⟩
    rcases List.mem_append.mp he with he | he
    · exact hframe.2 e he
    · exact .inl ⟨_, _, List.mem_singleton.mp he⟩
  · exact hframe

theorem joinForFilter_frame (c : InterfaceCore) : c.joinForFilter.1.loopHandles = c.loopHandles ∧
      ∀ e ∈ c.joinForFilter.2,
        (∃ route m, e = .command route m) ∨ ∃ fed m, e = .federateCommand fed m := by
  unfold joinForFilter
  split
  · exact ⟨rfl, fun e he => absurd he List.not_mem_nil⟩
  dsimp only
  split
  · exact ⟨rfl, fun e he => .inl ⟨_, _, List.mem_singleton.mp he⟩⟩
  · exact ⟨rfl, fun e he => absurd he List.not_mem_nil⟩

theorem registerInterface_frame (hdest : cmd.dest.fedId = parentBrokerId) :
    ∃ c' joins, c.registerInterface cmd = (c', joins ++
        if cmd.name = "" then [] else [.transmit parentRouteId cmd]) ∧
      c'.loopHandles = (c.copyHandle cmd.source.handle).loopHandles ∧
      ∀ e ∈ joins, (∃ route m, e = .command route m) ∨ ∃ fed m, e = .federateCommand fed m := by
  unfold registerInterface
  rw [if_pos hdest]
  split
  · obtain ⟨hloop, hjoins⟩ :=
      (c.copyHandle cmd.source.handle).joinForEndpoint_frame cmd.source.fedId
    exact ⟨_, _, rfl, hloop, hjoins⟩
  · obtain ⟨hloop, hjoins⟩ := ((c.copyHandle cmd.source.handle).createFilter c.globalBrokerIdLocal
      cmd.source.handle cmd.name (cmd.getString typeStringLoc) (cmd.getString typeOutStringLoc)
      (checkActionFlag cmd.flags cloneFlag)).joinForFilter_frame
    exact ⟨_, _, rfl, hloop, hjoins⟩
  · exact ⟨_, _, rfl, rfl, fun e he => absurd he List.not_mem_nil⟩

theorem processCommand_ask
    (hask : m.action.asksFor = some what) : c.processCommand m = c.checkForNamedInterface m := by
  unfold processCommand
  cases hact : m.action <;> rw [hact] at hask <;> first | rfl | cases hask

theorem processCommand_giveUp
    (hgive : m.action.givesUp = some what) : c.processCommand m = c.removeNamedTarget m := by
  unfold processCommand
  cases hact : m.action <;> rw [hact] at hgive <;> first | rfl | cases hgive

theorem processCommand_registration
    (hkind : m.action.registers = some what) : c.processCommand m = c.registerInterface m := by
  unfold processCommand
  cases hact : m.action <;> rw [hact] at hkind <;> first | rfl | cases hkind

theorem processCommand_connection (hfor : m.action.isFor = some what) :
    m.action = what.addPartner ∧ c.processCommand m = c.addTargetToInterface m ∨
      m.action = what.removePartner ∧ c.processCommand m = c.removeTargetFromInterface m := by
  unfold processCommand
  cases hact : m.action <;> rw [hact] at hfor <;> cases hfor <;>
    first | exact .inl ⟨rfl, rfl⟩ | exact .inr ⟨rfl, rfl⟩

end InterfaceCore

end Helics
