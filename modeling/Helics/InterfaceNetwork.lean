import Helics.FederateInterfaces
import Helics.InterfaceBroker
import Helics.Invariants
import Helics.LinkNetwork
import Mathlib.Logic.Function.Basic
import Mathlib.Logic.Relation

namespace Helics

open LinkNetwork (takeFirst)

/-- Where an interface command waits: in the queue that the users of a core or broker fill, on the
link to its parent, on the link from its parent, or in the queue of a federate. -/
inductive Link where
  | own (node : GlobalId)
  | up (node : GlobalId)
  | down (node : GlobalId)
  | federate (fed : GlobalId)
deriving DecidableEq

structure Topology where
  root : GlobalId
  isCore : GlobalId → Bool
  parent : GlobalId → GlobalId
  child : GlobalId → RouteId → Option GlobalId
  home : GlobalId → Option GlobalId

section
variable [DualMapped String GlobalId]

structure InterfaceNet where
  brokers : GlobalId → InterfaceBroker
  cores : GlobalId → InterfaceCore
  federates : GlobalId → FederateInterfaces
  flight : List (Link × InterfaceMessage)

inductive NetEvent where
  | register (core fed : GlobalId) (what : HandleType) (key type units : String)
  | registerFilter (core : GlobalId) (name typeIn typeOut : String) (cloning : Bool)
  | addSourceTarget (core : GlobalId) (handle : InterfaceHandle) (target : String)
  | addDestinationTarget (core : GlobalId) (handle : InterfaceHandle) (target : String)
  | removeTarget (core : GlobalId) (handle : InterfaceHandle) (target : String)
  | dataLink (node : GlobalId) (source target : String)
  | filterLink (node : GlobalId) (filter endpoint : String) (destination : Bool)
  | deliver (link : Link)
deriving DecidableEq

namespace InterfaceNet

def setCore (net : InterfaceNet) (node : GlobalId) (c : InterfaceCore) : InterfaceNet :=
  { net with cores := Function.update net.cores node c }

def setBroker (net : InterfaceNet) (node : GlobalId) (b : InterfaceBroker) : InterfaceNet :=
  { net with brokers := Function.update net.brokers node b }

def setFederate (net : InterfaceNet) (fed : GlobalId) (f : FederateInterfaces) : InterfaceNet :=
  { net with federates := Function.update net.federates fed f }

def send (net : InterfaceNet) (msgs : List (Link × InterfaceMessage)) : InterfaceNet :=
  { net with flight := net.flight ++ msgs }

def emit (t : Topology) (node : GlobalId) : InterfaceEffect → Option (Link × InterfaceMessage)
  | .transmit route msg =>
    if route = parentRouteId then if node = t.root then none else some (.up node, msg)
    else (t.child node route).map fun m => (.down m, msg)
  | .addAction fed msg => some (.federate fed, msg)
  | _ => none

def handleAt (t : Topology) (net : InterfaceNet) (node : GlobalId) (msg : InterfaceMessage) :
    InterfaceNet :=
  if t.isCore node then
    let result := (net.cores node).processCommand msg
    (net.setCore node result.1).send (result.2.filterMap (emit t node))
  else
    let result := (net.brokers node).processCommand msg
    (net.setBroker node result.1).send (result.2.filterMap (emit t node))

def handleFederate (t : Topology) (net : InterfaceNet) (fed : GlobalId) (msg : InterfaceMessage) :
    InterfaceNet :=
  let result := (net.federates fed).processActionMessage msg
  (net.setFederate fed result.1).send
    (result.2.map fun m => (.own ((t.home fed).getD t.root), m))

def receive (t : Topology) (net : InterfaceNet) (link : Link) (msg : InterfaceMessage) :
    InterfaceNet :=
  match link with
  | .own node | .down node => net.handleAt t node msg
  | .up node => net.handleAt t (t.parent node) msg
  | .federate fed => net.handleFederate t fed msg

def registerAs (c : InterfaceCore) (f : FederateInterfaces) (what : HandleType)
    (key type units : String) : Option (InterfaceCore × FederateInterfaces × InterfaceMessage) :=
  match what with
  | .publication => c.registerPublication f key type units
  | .input => c.registerInput f key type units
  | .endpoint => c.registerEndpoint f key type
  | _ => none

def request (t : Topology) (net : InterfaceNet) (core : GlobalId) (cmd : Option InterfaceMessage) :
    Option InterfaceNet :=
  if t.isCore core then cmd.map fun msg => net.send [(.own core, msg)] else none

def grantedTime (net : InterfaceNet) (core : GlobalId) (handle : InterfaceHandle) : Option Time :=
  ((net.cores core).handles.getHandleInfo handle).bind fun info =>
    if (net.cores core).isLocal info.handle.fedId then
      some (net.federates info.handle.fedId).timeGranted
    else none

def step (t : Topology) (net : InterfaceNet) : NetEvent → Option InterfaceNet
  | .register core fed what key type units =>
    if t.isCore core ∧ (net.cores core).isLocal fed then
      (registerAs (net.cores core) (net.federates fed) what key type units).map fun made =>
        ((net.setCore core made.1).setFederate fed made.2.1).send [(.own core, made.2.2)]
    else none
  | .registerFilter core name typeIn typeOut cloning =>
    if t.isCore core then
      ((net.cores core).registerFilter name typeIn typeOut cloning).map fun made =>
        (net.setCore core made.1).send [(.own core, made.2)]
    else none
  | .addSourceTarget core handle target =>
    net.request t core ((net.cores core).addSourceTarget handle target)
  | .addDestinationTarget core handle target =>
    net.request t core ((net.cores core).addDestinationTarget handle target)
  | .removeTarget core handle target =>
    net.request t core ((net.cores core).removeTarget handle target (net.grantedTime core handle))
  | .dataLink node source target => some (net.send [(.own node, dataLinkCommand source target)])
  | .filterLink node filter endpoint destination =>
    some (net.send [(.own node, if destination then destinationFilterLinkCommand filter endpoint
      else sourceFilterLinkCommand filter endpoint)])
  | .deliver link =>
    (takeFirst link net.flight).map fun taken =>
      { net with flight := taken.2 }.receive t link taken.1

abbrev Runs (t : Topology) := Invariants.Run fun net ev net' => step t net ev = some net'

end InterfaceNet

end

namespace Topology

def Below (t : Topology) (m n : GlobalId) : Prop := m ≠ t.root ∧ t.parent m = n

/-- The core of a federate or filter is the given node or lies below it. -/
def Inside (t : Topology) (f n : GlobalId) : Prop :=
  ∃ core, t.home f = some core ∧ Relation.ReflTransGen t.Below core n

variable {t : Topology}

theorem Inside.parent (h : t.Inside f n) (hn : n ≠ t.root) : t.Inside f (t.parent n) := by
  obtain ⟨core, hhome, hpath⟩ := h
  exact ⟨core, hhome, hpath.tail ⟨hn, rfl⟩⟩

/-- The brokers form a tree over the cores, and the routes of a broker lead to its children. -/
structure IsTree (t : Topology) : Prop where
  root_broker : t.isCore t.root = false
  parent_broker : ∀ {n}, n ≠ t.root → t.isCore (t.parent n) = false
  child_parent : ∀ {n route m}, t.child n route = some m → m ≠ t.root ∧ t.parent m = n
  home_core : ∀ {f core}, t.home f = some core → t.isCore core = true
  core_home : ∀ {n}, t.isCore n = true → t.home n = some n
  reaches_root : ∀ n, Relation.ReflTransGen t.Below n t.root

theorem IsTree.home_of_inside (ht : t.IsTree) (h : t.Inside f n)
    (hn : t.isCore n = true) : t.home f = some n := by
  obtain ⟨core, hhome, hpath⟩ := h
  cases hpath with
  | refl => exact hhome
  | tail _ hlast =>
    have hbroker := ht.parent_broker hlast.1
    rw [hlast.2, hn] at hbroker
    cases hbroker

theorem IsTree.core_ne_root (ht : t.IsTree) (hn : t.isCore n = true) : n ≠ t.root := by
  rintro rfl
  rw [ht.root_broker] at hn
  cases hn

theorem inside_home (h : t.home f = some core) : t.Inside f core :=
  ⟨core, h, .refl⟩

end Topology

end Helics
