import Helics.InterfaceBroker

namespace Helics

open HandleManager InterfaceMessage HandleType

open UnknownHandleManager (getTargets getLinks)

theorem noError_zero : checkActionFlag 0 errorFlag = false := by decide

theorem noError_destination :
    checkActionFlag (setActionFlag 0 destinationTarget) errorFlag = false := by decide

def InterfaceAction.registers : InterfaceAction → Option HandleType
  | .cmdRegPub => some .publication
  | .cmdRegInput => some .input
  | .cmdRegEndpoint => some .endpoint
  | .cmdRegFilter => some .filter
  | _ => none

def InterfaceAction.asksFor : InterfaceAction → Option HandleType
  | .cmdAddNamedPublication => some .publication
  | .cmdAddNamedInput => some .input
  | .cmdAddNamedEndpoint => some .endpoint
  | .cmdAddNamedFilter => some .filter
  | _ => none

def InterfaceAction.givesUp : InterfaceAction → Option HandleType
  | .cmdRemoveNamedPublication => some .publication
  | .cmdRemoveNamedInput => some .input
  | .cmdRemoveNamedEndpoint => some .endpoint
  | .cmdRemoveNamedFilter => some .filter
  | _ => none

def InterfaceAction.isFor : InterfaceAction → Option HandleType
  | .cmdAddSubscriber | .cmdRemoveSubscriber => some .publication
  | .cmdAddPublisher | .cmdRemovePublication => some .input
  | .cmdAddEndpoint | .cmdRemoveEndpoint => some .filter
  | .cmdAddFilter | .cmdRemoveFilter => some .endpoint
  | _ => none

/-- The kind of interface that the first name of a link means. -/
def InterfaceAction.linksFirst : InterfaceAction → Option HandleType
  | .cmdDataLink => some .publication
  | .cmdFilterLink => some .filter
  | _ => none

namespace InterfaceAction

variable {a : InterfaceAction}

theorem of_registers (h : a.registers = some what) :
    what ≠ .unknown ∧ a.asksFor = none ∧ a.isFor = none := by
  cases a <;> cases h <;> exact ⟨nofun, rfl, rfl⟩

theorem of_asksFor (h : a.asksFor = some what) : a.registers = none ∧ a.isFor = none := by
  cases a <;> cases h <;> exact ⟨rfl, rfl⟩

theorem of_givesUp (h : a.givesUp = some what) :
    a.registers = none ∧ a.asksFor = none ∧ a.isFor = none := by
  cases a <;> cases h <;> exact ⟨rfl, rfl, rfl⟩

theorem of_linksFirst (h : a.linksFirst = some what) :
    a.registers = none ∧ a.asksFor = none ∧ a.isFor = none := by
  cases a <;> cases h <;> exact ⟨rfl, rfl, rfl⟩

theorem mem_of_linksFirst (h : a.linksFirst = some what) : what ∈ [publication, .filter] := by
  cases a <;> cases h <;> decide

theorem of_isFor (h : a.isFor ≠ none) : a.registers = none ∧ a.asksFor = none := by
  cases a <;> first | exact ⟨rfl, rfl⟩ | exact absurd rfl h

end InterfaceAction

namespace HandleType

def partner : HandleType → HandleType
  | .publication => .input
  | .input => .publication
  | .endpoint => .filter
  | .filter => .endpoint
  | .unknown => .unknown

def addPartner : HandleType → InterfaceAction
  | .publication => .cmdAddSubscriber
  | .input => .cmdAddPublisher
  | .endpoint => .cmdAddFilter
  | .filter => .cmdAddEndpoint
  | .unknown => .cmdCloseInterface

def removePartner : HandleType → InterfaceAction
  | .publication => .cmdRemoveSubscriber
  | .input => .cmdRemovePublication
  | .endpoint => .cmdRemoveFilter
  | .filter => .cmdRemoveEndpoint
  | .unknown => .cmdCloseInterface

theorem partner_partner (what : HandleType) : what.partner.partner = what := by
  cases what <;> rfl

variable {what : HandleType}

section
variable (h : what ≠ .unknown)
include h

theorem partner_ne : what.partner ≠ what := by
  cases what with
  | unknown => exact absurd rfl h
  | publication | input | endpoint | filter => exact nofun

theorem partner_ne_unknown : what.partner ≠ .unknown := by
  cases what with
  | unknown => exact absurd rfl h
  | publication | input | endpoint | filter => exact nofun

theorem isFor_addPartner : what.addPartner.isFor = some what := by
  cases what with
  | unknown => exact absurd rfl h
  | publication | input | endpoint | filter => rfl

theorem isFor_removePartner : what.removePartner.isFor = some what := by
  cases what with
  | unknown => exact absurd rfl h
  | publication | input | endpoint | filter => rfl

end

def word : HandleType → String
  | .publication => "publication"
  | .input => "input"
  | .endpoint => "endpoint"
  | .filter => "filter"
  | .unknown => ""

end HandleType

structure Connects (asker : GlobalHandle) (what : HandleType) (target : GlobalHandle)
    (first second : InterfaceMessage) : Prop where
  first_action : first.action = what.addPartner
  first_source : first.source = asker
  first_dest : first.dest = target
  second_action : second.action = what.partner.addPartner
  second_source : second.source = target
  second_dest : second.dest = asker
  first_error : checkActionFlag first.flags errorFlag = false
  second_error : checkActionFlag second.flags errorFlag = false

namespace UnknownHandleManager

def requests (u : UnknownHandleManager) : HandleType → List UnknownTarget
  | .publication => u.unknownPublications
  | .input => u.unknownInputs
  | .endpoint => u.unknownEndpoints
  | .filter => u.unknownFilters
  | .unknown => []

def park (u : UnknownHandleManager) (what : HandleType) (t : UnknownTarget) :
    UnknownHandleManager :=
  match what with
  | .publication => u.addUnknownPublication t.key t.target t.flags
  | .input => u.addUnknownInput t.key t.target t.flags
  | .endpoint => u.addUnknownEndpoint t.key t.target t.flags
  | .filter => u.addUnknownFilter t.key t.target t.flags
  | .unknown => u

variable (u : UnknownHandleManager) (what w : HandleType)

theorem requests_park (t : UnknownTarget) :
    (u.park what t).requests w = u.requests w ++ if w = what ∧ w ≠ .unknown then [t] else [] := by
  cases what <;> cases w <;>
    simp [park, requests, addUnknownPublication, addUnknownInput, addUnknownEndpoint,
      addUnknownFilter]

def links (u : UnknownHandleManager) : HandleType → List (String × String)
  | .publication => u.unknownLinks
  | .filter => u.unknownDestFilters ++ u.unknownSrcFilters
  | _ => []

theorem links_park (what : HandleType) (t : UnknownTarget)
    (w : HandleType) : (u.park what t).links w = u.links w := by
  cases what <;> rfl

def parkLink (u : UnknownHandleManager) (first : HandleType) (destination : Bool)
    (p : String × String) : UnknownHandleManager :=
  if first = .filter then
    if destination then u.addDestinationFilterLink p.1 p.2 else u.addSourceFilterLink p.1 p.2
  else u.addDataLink p.1 p.2

theorem requests_parkLink (first : HandleType) (destination : Bool)
    (p : String × String) (w : HandleType) :
    (u.parkLink first destination p).requests w = u.requests w := by
  unfold parkLink
  split
  · split <;> cases w <;> rfl
  · cases w <;> rfl

theorem links_parkLink (destination : Bool)
    (p : String × String) (hfirst : first ∈ [publication, .filter]) (w : HandleType) :
    List.Perm ((u.parkLink first destination p).links w)
      (u.links w ++ if w = first then [p] else []) := by
  rcases List.mem_pair.mp hfirst with rfl | rfl
  · cases w <;> simp [parkLink, links, addDataLink]
  · cases destination <;> cases w <;>
      simp [parkLink, links, addDestinationFilterLink, addSourceFilterLink]
    exact List.Perm.append_left _ (List.perm_append_singleton p _).symm

def clear (u : UnknownHandleManager) (what : HandleType) (name : String) : UnknownHandleManager :=
  match what with
  | .publication => u.clearPublication name
  | .input => u.clearInput name
  | .endpoint => u.clearEndpoint name
  | .filter => u.clearFilter name
  | .unknown => u

theorem requests_clear (name : String) : (u.clear what name).requests w =
      if w = what then withoutKey (u.requests w) name else u.requests w := by
  cases what <;> cases w <;> rfl

theorem links_clear (name : String) :
    (u.clear what name).links w =
      if w = what then withoutLinks (u.links w) name else u.links w := by
  cases what <;> cases w <;> first | rfl | exact (List.filter_append ..).symm

end UnknownHandleManager

variable [DualMapped String GlobalId]

namespace InterfaceBroker

def Connected (b : InterfaceBroker) (fed : GlobalId) : Prop :=
  ∃ info, b.federates.findId fed = some info ∧ info.isDisconnected = false

def connect (b : InterfaceBroker) (cmd : InterfaceMessage) (what : HandleType) (info : HandleInfo) :
    List InterfaceEffect :=
  match what with
  | .publication => b.connectPublication cmd info
  | .input => b.connectInput cmd info
  | .endpoint => b.connectEndpoint cmd info
  | .filter => b.connectFilter cmd info
  | .unknown => []

variable {b : InterfaceBroker} {cmd : InterfaceMessage}

theorem checkForNamedInterface_eq
    (hask : cmd.action.asksFor = some what) : b.checkForNamedInterface cmd =
      match b.handles.find what cmd.name with
      | some info => (b, b.connect cmd what info)
      | none => b.parkRequest cmd := by
  unfold checkForNamedInterface getPublication getInput
    getEndpoint getFilter
  cases hact : cmd.action <;> rw [hact] at hask <;> cases hask <;> dsimp only <;>
    cases b.handles.find _ cmd.name <;> rfl

variable {info : HandleInfo}

theorem connect_connects
    (hwhat : what ≠ .unknown) (hfed : what ≠ .filter → b.Connected info.handle.fedId)
    (herror : checkActionFlag cmd.flags errorFlag = false) :
    ∃ first second, b.connect cmd what info = [b.routeMessage first, b.routeMessage second] ∧
      Connects cmd.source what info.handle first second := by
  cases what with
  | unknown => exact absurd rfl hwhat
  | publication =>
    obtain ⟨fed, hfound, hleft⟩ := hfed nofun
    simp only [connect, connectPublication, hfound, hleft, if_pos]
    exact ⟨_, _, rfl, ⟨rfl, rfl, rfl, rfl, rfl, rfl, herror, herror⟩⟩
  | input =>
    obtain ⟨fed, hfound, hleft⟩ := hfed nofun
    simp only [connect, connectInput, hfound, hleft, if_pos]
    exact ⟨_, _, rfl, ⟨rfl, rfl, rfl, rfl, rfl, rfl, herror, herror⟩⟩
  | endpoint =>
    obtain ⟨fed, hfound, hleft⟩ := hfed nofun
    simp only [connect, connectEndpoint, hfound, hleft, if_pos]
    refine ⟨_, _, rfl, ?_⟩
    cases b.handles.findHandle cmd.source with
    | none => exact ⟨rfl, rfl, rfl, rfl, rfl, rfl, herror, herror⟩
    | some filt =>
      rw [Option.elim_some, withTypes_eq]
      exact ⟨rfl, rfl, rfl, rfl, rfl, rfl, herror, herror⟩
  | filter =>
    simp only [connect, connectFilter]
    refine ⟨_, _, rfl, ?_⟩
    rw [withTypes_eq]
    exact ⟨rfl, rfl, rfl, rfl, rfl, rfl, herror, herror⟩

theorem parkRequest_inner (hroot : b.isRootc = false)
    (cmd : InterfaceMessage) : b.parkRequest cmd = (b, [b.routeMessage cmd]) := by
  unfold parkRequest
  rw [if_neg (by rw [hroot]; exact Bool.false_ne_true)]

theorem parkRequest_root (hroot : b.isRootc = true) (hask : cmd.action.asksFor = some what)
    (hknown : cmd.stringData = [] ∨ b.handles.findHandle cmd.source ≠ none) :
    b.parkRequest cmd = ({ b with
      unknownHandles := b.unknownHandles.park what ⟨cmd.name, cmd.source, cmd.flags⟩ }, []) := by
  have hno : ∀ kind, b.addAnonymous cmd kind = b.handles := by
    intro kind
    unfold addAnonymous
    rw [if_neg]
    rintro ⟨hstrings, hnone⟩
    exact hknown.elim hstrings (fun h => h hnone)
  unfold parkRequest
  rw [if_pos hroot]
  cases hact : cmd.action with
  | cmdAddNamedPublication | cmdAddNamedInput | cmdAddNamedEndpoint | cmdAddNamedFilter =>
    rw [hact] at hask
    cases hask
    simp only [hno]
    rfl
  | _ =>
    rw [hact] at hask
    cases hask

def notify (b : InterfaceBroker) (info : HandleInfo) (what : HandleType) (target : UnknownTarget) :
    List InterfaceEffect :=
  match what with
  | .publication => b.notifyPublicationTarget info target
  | .input => b.notifyInputTarget info target
  | .endpoint => b.notifyEndpointTarget info target
  | .filter => b.notifyFilterTarget info target
  | .unknown => []

theorem notify_connects
    (hwhat : what ≠ .unknown) (hinfo : checkActionFlag info.flags errorFlag = false)
    (htarget : checkActionFlag target.flags errorFlag = false) :
    ∃ first second, (b.notify info what target = [b.routeMessage first, b.routeMessage second] ∨
        b.notify info what target = [b.routeMessage second, b.routeMessage first]) ∧
      Connects target.target what info.handle first second := by
  cases what with
  | unknown => exact absurd rfl hwhat
  | publication => exact ⟨_, _, .inl rfl, ⟨rfl, rfl, rfl, rfl, rfl, rfl, htarget, hinfo⟩⟩
  | input => exact ⟨_, _, .inr rfl, ⟨rfl, rfl, rfl, rfl, rfl, rfl, htarget, hinfo⟩⟩
  | endpoint => exact ⟨_, _, .inr rfl, ⟨rfl, rfl, rfl, rfl, rfl, rfl, htarget, htarget⟩⟩
  | filter =>
    refine ⟨_, _, .inr rfl, ?_⟩
    rw [withTypes_eq]
    exact ⟨rfl, rfl, rfl, rfl, rfl, rfl, htarget, htarget⟩

variable {m : InterfaceMessage}

theorem registered_key (h : m.name ≠ "") (what : HandleType) : (b.registered m what).key = m.name :=
  if_neg h

theorem registered_eq
    (hkey : info.key ≠ "") (hsource : m.source = info.handle) (hname : m.name = info.key)
    (hflags : m.flags = info.flags) (htype : m.getString typeStringLoc = info.type)
    (hunits : m.getString unitStringLoc = info.units) : b.registered m info.handleType = info := by
  unfold registered newInfo
  rw [hsource, hname, hflags, htype, hunits, if_neg hkey]

def findandNotify (b : InterfaceBroker) (what : HandleType) (info : HandleInfo) :
    InterfaceBroker × List InterfaceEffect :=
  match what with
  | .publication => b.findandNotifyPublicationTargets info
  | .input => b.findandNotifyInputTargets info
  | .endpoint => b.findandNotifyEndpointTargets info
  | .filter => b.findandNotifyFilterTargets info
  | .unknown => (b, [])

/-- What a broker below the root does for a new interface, apart from passing it on. -/
def joinFor (b : InterfaceBroker) (what : HandleType) : InterfaceBroker × List InterfaceEffect :=
  match what with
  | .endpoint => b.joinForEndpoint
  | .filter => b.joinForFilter
  | _ => (b, [])

def withHandle (b : InterfaceBroker) (info : HandleInfo) : InterfaceBroker :=
  { b with handles := b.handles.push info }

theorem processCommand_registration
    (hkind : m.action.registers = some what) (hdest : m.dest.fedId = parentBrokerId) :
    b.processCommand m =
      if (b.handles.find what m.name).isSome then (b, [b.duplicateError m what.word])
      else if b.isRootc then (b.withHandle (b.registered m what)).findandNotify what
        (b.registered m what)
      else (((b.withHandle (b.registered m what)).joinFor what).1,
        .transmit parentRouteId m :: ((b.withHandle (b.registered m what)).joinFor what).2) := by
  have hhere : ∀ handler, b.forParent m handler = handler b m := by
    intro handler
    unfold forParent
    rw [if_neg (fun hn => hn.2 hdest)]
  unfold processCommand
  cases hact : m.action with
  | cmdRegPub | cmdRegInput | cmdRegEndpoint | cmdRegFilter =>
    rw [hact] at hkind
    cases hkind
    exact hhere _
  | _ =>
    rw [hact] at hkind
    cases hkind

/-- The requests that waiting links become when their first interface is registered. -/
def linkAsks (u : UnknownHandleManager) (what : HandleType) (info : HandleInfo) :
    List InterfaceMessage :=
  match what with
  | .publication => (getLinks u.unknownLinks info.key).map (fun name =>
      { action := .cmdAddNamedInput, name := name, source := info.handle })
  | .filter => (getLinks u.unknownDestFilters info.key).map (fun name =>
      { action := .cmdAddNamedEndpoint, name := name, source := info.handle,
        flags := setActionFlag 0 destinationTarget }) ++
    (getLinks u.unknownSrcFilters info.key).map (fun name =>
      { action := .cmdAddNamedEndpoint, name := name, source := info.handle })
  | _ => []

theorem findandNotify_eq (b : InterfaceBroker) (what : HandleType) (hwhat : what ≠ .unknown)
    (info : HandleInfo) : b.findandNotify what info =
      ({ (b.checkAll (linkAsks b.unknownHandles what info)).1 with
          unknownHandles := (b.checkAll
            (linkAsks b.unknownHandles what info)).1.unknownHandles.clear
            what info.key },
        (getTargets (b.unknownHandles.requests what) info.key).flatMap (b.notify info what) ++
          (b.checkAll (linkAsks b.unknownHandles what info)).2) := by
  cases what with
  | unknown => exact absurd rfl hwhat
  | publication | filter => rfl
  | input | endpoint =>
    show (_, _) = (_, _ ++ [])
    rw [List.append_nil]
    rfl

omit [DualMapped String GlobalId] in
theorem mem_linkAsks (h : m ∈ linkAsks u what info) : what ∈ [publication, .filter] ∧
    m.action.asksFor = some what.partner ∧ m.source = info.handle ∧ m.stringData = [] ∧
    checkActionFlag m.flags errorFlag = false ∧ m.dest.fedId = parentBrokerId := by
  cases what with
  | publication =>
    obtain ⟨name, _, rfl⟩ := List.mem_map.mp h
    exact ⟨by decide, rfl, rfl, rfl, noError_zero, rfl⟩
  | filter =>
    rcases List.mem_append.mp h with h | h
    · obtain ⟨name, _, rfl⟩ := List.mem_map.mp h
      exact ⟨by decide, rfl, rfl, rfl, noError_destination, rfl⟩
    · obtain ⟨name, _, rfl⟩ := List.mem_map.mp h
      exact ⟨by decide, rfl, rfl, rfl, noError_zero, rfl⟩
  | unknown | input | endpoint => cases h

theorem processCommand_ask
    (hask : m.action.asksFor = some what) : b.processCommand m = b.checkForNamedInterface m := by
  unfold processCommand
  cases hact : m.action <;> rw [hact] at hask <;> first | rfl | cases hask

theorem removeNamedTarget_cases (hgive : cmd.action.givesUp = some what) :
    (∃ info back, b.handles.find what cmd.name = some info ∧ back.isFor = some what.partner ∧
        b.removeNamedTarget cmd = b.disconnectPair cmd what.removePartner back info) ∨
      b.removeNamedTarget cmd = if b.isRootc then [] else [b.routeMessage cmd] := by
  unfold removeNamedTarget getPublication getInput
    getEndpoint getFilter
  cases hact : cmd.action <;> rw [hact] at hgive <;> cases hgive <;> dsimp only <;>
    cases b.handles.find _ cmd.name <;> first | exact .inr rfl | exact .inl ⟨_, _, rfl, rfl, rfl⟩

theorem processCommand_giveUp
    (hgive : m.action.givesUp = some what) : b.processCommand m = (b, b.removeNamedTarget m) := by
  unfold processCommand
  cases hact : m.action <;> rw [hact] at hgive <;> first | rfl | cases hgive

theorem processCommand_link
    (hkind : m.action.linksFirst = some first) : first ∈ [publication, .filter] ∧
      ∃ askSecond askFirst : InterfaceAction, askSecond.asksFor = some first.partner ∧
        askFirst.asksFor = some first ∧ b.processCommand m =
          b.processLink m first first.partner askSecond askFirst
            (b.unknownHandles.parkLink first (checkActionFlag m.flags destinationTarget)
              (m.name, m.getString targetStringLoc)) := by
  unfold processCommand
  cases hact : m.action <;> rw [hact] at hkind <;> cases hkind <;>
    exact ⟨by decide, _, _, rfl, rfl, rfl⟩

theorem processCommand_connection
    (hfor : m.action.isFor = some what) (hother : m.dest.fedId ≠ b.globalBrokerIdLocal) :
    b.processCommand m = (b, [b.routeMessage m]) := by
  have heq : b.processCommand m =
      (b, if m.dest.fedId = b.globalBrokerIdLocal then [] else [b.routeMessage m]) := by
    unfold processCommand
    cases hact : m.action <;> rw [hact] at hfor <;> first | rfl | cases hfor
  rw [heq, if_neg hother]

end InterfaceBroker

end Helics
