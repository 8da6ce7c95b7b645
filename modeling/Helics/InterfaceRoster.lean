import Helics.BrokerAnswers
import Helics.InterfaceNetwork

namespace Helics

open InterfaceAction HandleType

abbrev Roster := GlobalId → List HandleInfo

namespace Roster

def Has (r : Roster) (info : HandleInfo) : Prop := ∃ core, info ∈ r core

/-- The registered interfaces have names of their own and handles that tell where they live. -/
structure Valid (t : Topology) (r : Roster) : Prop where
  home : ∀ {core info}, info ∈ r core → t.home info.handle.fedId = some core
  position : ∀ {core : GlobalId} {i : Nat} {info}, (r core)[i]? = some info → info.handle.handle = i
  named : ∀ {info}, r.Has info → info.key ≠ ""
  typed : ∀ {info}, r.Has info → info.handleType ≠ .unknown
  owner : ∀ {info}, r.Has info → (t.isCore info.handle.fedId = true ↔ info.handleType = .filter)
  unique : ∀ {info info'}, r.Has info → r.Has info' → info.handleType = info'.handleType →
    info.key = info'.key → info.handle = info'.handle
  plain : ∀ {info}, r.Has info → checkActionFlag info.flags errorFlag = false ∧
    checkActionFlag info.flags disconnectedFlag = false

theorem Valid.eq_of_handle {r : Roster} (h : r.Valid t) (hi : r.Has info) (hi' : r.Has info')
    (heq : info.handle = info'.handle) : info = info' := by
  obtain ⟨core, hmem⟩ := hi
  obtain ⟨core', hmem'⟩ := hi'
  have hcore : core = core' := by
    have h₁ := h.home hmem
    have h₂ := h.home hmem'
    rw [heq, h₂] at h₁
    exact (Option.some.inj h₁).symm
  subst hcore
  obtain ⟨i, hget⟩ := List.mem_iff_getElem?.mp hmem
  obtain ⟨i', hget'⟩ := List.mem_iff_getElem?.mp hmem'
  have hpos : (i : Int) = i' := by
    rw [← h.position hget, ← h.position hget', heq]
  rw [Int.ofNat_inj.mp hpos, hget'] at hget
  exact (Option.some.inj hget).symm

end Roster

/-- A command that may be at a core or broker: about an interface that is registered there or below,
or about a link, or for an interface that is there or below. -/
inductive Fits (t : Topology) (r : Roster) (n : GlobalId) (m : InterfaceMessage) : Prop
  | registration (hkind : m.action.registers = some info.handleType) (hhas : r.Has info)
      (hsource : m.source = info.handle) (hname : m.name = info.key) (hflags : m.flags = info.flags)
      (htype : m.getString typeStringLoc = info.type)
      (hunits : m.getString unitStringLoc = info.units)
      (hdest : m.dest.fedId = parentBrokerId) (hin : t.Inside m.source.fedId n)
  | request (hkind : m.action.asksFor = some what ∨ m.action.givesUp = some what)
      (hhas : r.Has info) (hsource : m.source = info.handle)
      (htype : info.handleType = what.partner)
      (hplain : checkActionFlag m.flags errorFlag = false)
      (hdest : m.dest.fedId = parentBrokerId) (hin : t.Inside m.source.fedId n)
  | link (hkind : m.action = .cmdDataLink ∨ m.action = .cmdFilterLink)
      (hplain : checkActionFlag m.flags errorFlag = false)
      (hdest : m.dest.fedId = parentBrokerId)
  | connection (hkind : m.action.isFor = some info.handleType) (hhas : r.Has info)
      (hdest : m.dest = info.handle) (hhas' : r.Has info') (hsource : m.source = info'.handle)
      (hpartner : info'.handleType = info.handleType.partner)
      (hplain : checkActionFlag m.flags errorFlag = false) (hin : t.Inside m.dest.fedId n)

/-- The record of the interface that a command about a connection is for. -/
structure IsFor (r : Roster) (m : InterfaceMessage) (info : HandleInfo) : Prop where
  kind : m.action.isFor = some info.handleType
  has : r.Has info
  dest : m.dest = info.handle
  plain : checkActionFlag m.flags errorFlag = false

/-- The named interface below asks for one of a kind by its name, or gives it up. -/
structure NameRequest (t : Topology) (r : Roster) (n : GlobalId) (cmd : InterfaceMessage)
    (what : HandleType) (info : HandleInfo) : Prop where
  has : r.Has info
  source : cmd.source = info.handle
  type : info.handleType = what.partner
  plain : checkActionFlag cmd.flags errorFlag = false
  dest : cmd.dest.fedId = parentBrokerId
  inside : t.Inside cmd.source.fedId n

theorem NameRequest.fits (h : NameRequest t r n cmd what info)
    (hkind : cmd.action.asksFor = some what ∨ cmd.action.givesUp = some what) : Fits t r n cmd :=
  .request hkind h.has h.source h.type h.plain h.dest h.inside

theorem NameRequest.known (h : NameRequest t r n cmd what info) (hv : Roster.Valid t r) :
    what ≠ .unknown := by
  rintro rfl
  exact hv.typed h.has h.type

inductive Becomes (r : Roster) (m cmd : InterfaceMessage) (what : HandleType) : Prop
  | same (heq : cmd = m)
  | first (hkind : m.action.linksFirst = some what.partner) (hhas : r.Has info)
      (htype : info.handleType = what.partner) (hkey : info.key = m.name)
      (hname : cmd.name = m.getString targetStringLoc) (hsource : cmd.source = info.handle)
  | second (hkind : m.action.linksFirst = some what) (hhas : r.Has info)
      (htype : info.handleType = what.partner) (hkey : info.key = m.getString targetStringLoc)
      (hname : cmd.name = m.name) (hsource : cmd.source = info.handle)

namespace Fits

section
variable (h : Fits t r n m)
include h

theorem parent (hrise : m.action.isFor = none) (hn : n ≠ t.root) : Fits t r (t.parent n) m := by
  cases h with
  | registration hkind hhas hsource hname hflags htype hunits hdest hin =>
    exact .registration hkind hhas hsource hname hflags htype hunits hdest (hin.parent hn)
  | request hkind hhas hsource htype hplain hdest hin =>
    exact .request hkind hhas hsource htype hplain hdest (hin.parent hn)
  | link hkind hplain hdest => exact .link hkind hplain hdest
  | connection hkind => cases hrise.symm.trans hkind

theorem connected (hfor : m.action.isFor ≠ none) :
    t.Inside m.dest.fedId n ∧ (∀ {k}, t.Inside m.dest.fedId k → Fits t r k m) ∧
      ∃ info, IsFor r m info := by
  cases h with
  | registration hkind => exact absurd (of_registers hkind).2.2 hfor
  | request hkind =>
    rcases hkind with hkind | hkind
    · exact absurd (of_asksFor hkind).2 hfor
    · exact absurd (of_givesUp hkind).2.2 hfor
  | link hkind => rcases hkind with hkind | hkind <;> rw [hkind] at hfor <;> exact absurd rfl hfor
  | connection hkind hhas hdest hhas' hsource hpartner hplain hin =>
    exact ⟨hin, .connection hkind hhas hdest hhas' hsource hpartner hplain,
      _, hkind, hhas, hdest, hplain⟩

theorem stays_open : m.action ≠ .cmdCloseInterface := by
  intro hact
  cases h with
  | registration hkind | connection hkind =>
    rw [hact] at hkind
    cases hkind
  | request hkind | link hkind =>
    rw [hact] at hkind
    rcases hkind with hkind | hkind <;> cases hkind

theorem dest_parent (hrise : m.action.isFor = none) : m.dest.fedId = parentBrokerId := by
  cases h with
  | registration _ _ _ _ _ _ _ hdest => exact hdest
  | request _ _ _ _ _ hdest => exact hdest
  | link _ _ hdest => exact hdest
  | connection hkind => cases hrise.symm.trans hkind

end

end Fits

structure PairFits (t : Topology) (r : Roster) (n : GlobalId) (m m' : InterfaceMessage) : Prop where
  first : Fits t r n m
  firstFor : m.action.isFor ≠ none
  second : Fits t r n m'
  secondFor : m'.action.isFor ≠ none

theorem PairFits.symm (h : PairFits t r n m m') : PairFits t r n m' m :=
  ⟨h.second, h.secondFor, h.first, h.firstFor⟩

theorem pairFits (hhas : r.Has info) (hhas' : r.Has info')
    (hpartner : info'.handleType = info.handleType.partner)
    (hfor : first.action.isFor = some info.handleType)
    (hfor' : second.action.isFor = some info'.handleType)
    (hdest : first.dest = info.handle) (hsource : first.source = info'.handle)
    (hdest' : second.dest = info'.handle) (hsource' : second.source = info.handle)
    (hplain : checkActionFlag first.flags errorFlag = false)
    (hplain' : checkActionFlag second.flags errorFlag = false)
    (hin : t.Inside info.handle.fedId n) (hin' : t.Inside info'.handle.fedId n) :
    PairFits t r n first second := by
  rw [← hdest] at hin
  rw [← hdest'] at hin'
  have hback : info.handleType = info'.handleType.partner := by
    rw [hpartner, partner_partner]
  exact ⟨.connection hfor hhas hdest hhas' hsource hpartner hplain hin,
    hfor.trans_ne (Option.some_ne_none _),
    .connection hfor' hhas' hdest' hhas hsource' hback hplain' hin',
    hfor'.trans_ne (Option.some_ne_none _)⟩

theorem Connects.fits (h : Connects asker what target first second)
    (hinfo : r.Has info) (htarget : target = info.handle) (htype : info.handleType = what)
    (hinfo' : r.Has info') (hasker : asker = info'.handle)
    (htype' : info'.handleType = what.partner)
    (hwhat : what ≠ .unknown) (hin : t.Inside target.fedId n) (hin' : t.Inside asker.fedId n) :
    PairFits t r n first second := by
  subst htype htarget hasker
  apply pairFits hinfo hinfo' htype' _ _ h.first_dest h.first_source h.second_dest h.second_source
    h.first_error h.second_error hin hin'
  · rw [h.first_action]
    exact isFor_addPartner hwhat
  · rw [h.second_action, htype']
    exact isFor_addPartner (partner_ne_unknown hwhat)

end Helics
