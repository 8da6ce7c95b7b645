import Helics.BrokerBalance

namespace Helics

open InterfaceCore LinkNetwork

/-- Only commands that a core hands on to its federates have a weight. -/
def Weights.Carried (w : Weights) : Prop :=
  ∀ {m : InterfaceMessage}, m.action.isFor = some .endpoint ∨ m.action.isFor = some .filter →
    w.message m = 0

def Weights.Passes (w : Weights) (t : Topology) (n : GlobalId) (es : List InterfaceEffect)
    (weight : Nat) : Prop :=
  w.emitted t n es ≤ weight ∧ (w.Carried → w.emitted t n es = weight)

namespace Weights

variable {t : Topology} {r : Roster}

theorem emitted_parent (w : Weights) (hn : n ≠ t.root) (m : InterfaceMessage) :
    w.emitted t n [.transmit parentRouteId m] = w.message m := by
  unfold emitted
  rw [List.filterMap_cons, InterfaceNet.emit_parent hn]
  show total _ [(Link.up n, m)] = _
  rw [total_cons]
  rfl

theorem emitted_addAction (w : Weights) (t : Topology) (n fed : GlobalId) (m : InterfaceMessage) :
    w.emitted t n [.addAction fed m] = w.message m := by
  show total _ [(Link.federate fed, m)] = _
  rw [total_cons]
  rfl

theorem passes_exact {w : Weights} (h : w.emitted t n es = weight) : w.Passes t n es weight :=
  ⟨h.le, fun _ => h⟩

theorem passes_quiet {w : Weights} (hquiet : w.emitted t n es = 0)
    (hkind : m.action.isFor = some .endpoint ∨ m.action.isFor = some .filter) :
    w.Passes t n es (w.message m) := by
  refine ⟨by omega, fun hcarried => ?_⟩
  rw [hquiet, hcarried hkind]

section Connections

variable (w : Weights) (ht : t.IsTree) (hcore : t.isCore n = true) (hwired : WiredCore t n c)
  (hv : r.Valid t) (hm : Fits t r n m) (hfor : m.action.isFor ≠ none)
include ht hcore hwired hv hm hfor

omit w in
theorem isFor_place : checkActionFlag m.flags errorFlag = false ∧
    ∃ what, m.action.isFor = some what ∧
    (what = .filter ∧ m.dest.fedId = c.globalBrokerIdLocal ∨
      what ≠ .filter ∧ m.dest.fedId ≠ c.globalBrokerIdLocal ∧ c.isLocal m.dest.fedId = true) := by
  obtain ⟨hin, _, info, hinfo⟩ := hm.connected hfor
  rw [hinfo.dest] at hin ⊢
  exact ⟨hinfo.plain, _, hinfo.kind, hv.place ht hcore hwired hinfo.has hin⟩

theorem addTargetToInterface {what : HandleType} (hact : m.action = what.addPartner) :
    w.Passes t n (c.addTargetToInterface m).2 (w.message m) := by
  obtain ⟨hplain, what', hkind, hplace⟩ := isFor_place ht hcore hwired hv hm hfor
  have hwhat := hkind
  rw [hact] at hwhat
  cases what with
  | unknown => cases hwhat
  | publication | input =>
    cases hwhat
    rcases hplace with ⟨hfilter, _⟩ | ⟨_, hother, hlocal⟩
    · cases hfilter
    · rw [addTargetToInterface_data (by rw [hact]; exact nofun) hother hlocal hplain]
      exact passes_exact (w.emitted_addAction ..)
  | endpoint =>
    cases hwhat
    apply passes_quiet _ (.inl hkind)
    rw [addTargetToInterface_filter hact]
    apply w.emitted_other
    intro e he
    rcases List.mem_append.mp he with he | he
    · exact mem_processFilterInfo he
    unfold dependentNotice at he
    split at he
    · exact .inr ⟨_, _, List.mem_singleton.mp he⟩
    · cases he
  | filter =>
    cases hwhat
    rcases hplace with ⟨_, hself⟩ | ⟨hno, _⟩
    · apply passes_quiet _ (.inr hkind)
      rw [addTargetToInterface_endpoint hact hself]
      rfl
    · exact absurd rfl hno

theorem removeTargetFromInterface {what : HandleType} (hact : m.action = what.removePartner) :
    w.Passes t n (c.removeTargetFromInterface m).2 (w.message m) := by
  obtain ⟨_, what', hkind, hplace⟩ := isFor_place ht hcore hwired hv hm hfor
  have hwhat := hkind
  rw [hact] at hwhat
  cases what with
  | unknown => cases hwhat
  | publication | input =>
    cases hwhat
    rcases hplace with ⟨hfilter, _⟩ | ⟨_, hother, hlocal⟩
    · cases hfilter
    · rw [removeTargetFromInterface_data (by rw [hact]; exact nofun) hother hlocal]
      exact passes_exact (w.emitted_addAction ..)
  | endpoint =>
    cases hwhat
    apply passes_quiet _ (.inl hkind)
    rw [removeTargetFromInterface_quiet (.inl hact)]
    rfl
  | filter =>
    cases hwhat
    rcases hplace with ⟨_, hself⟩ | ⟨hno, _⟩
    · apply passes_quiet _ (.inr hkind)
      rw [removeTargetFromInterface_quiet (.inr ⟨hact, hself⟩)]
      rfl
    · exact absurd rfl hno

end Connections

end Weights

namespace Weights.Fair

variable {w : Weights} {t : Topology} {r : Roster} (hw : w.Fair r) (ht : t.IsTree) (hv : r.Valid t)
  (hcore : t.isCore n = true) (hwired : WiredCore t n c)
include hw ht hv hcore hwired

theorem coreCheck (hask : cmd.action.asksFor = some what)
    (hc : CoreAskOutcome t r n c cmd what result) : w.Passes t n result.2 (w.message cmd) := by
  cases hc with
  | @answered _ first _ hfound htype hkey hconnects hpair =>
    have hone := w.addTargetToInterface ht hcore hwired hv hpair.first hpair.firstFor
      hconnects.first_action
    have htwo := w.addTargetToInterface ht hcore
      (hwired.of_sameMembers (c.kept_addTargetToInterface first).toSameMembers) hv hpair.second
      hpair.secondFor hconnects.second_action
    have hsum := hw.answered cmd.flags hconnects hfound htype
    rw [hkey, ← hw.ask hask] at hsum
    show w.Passes t n (_ ++ _) _
    unfold Passes
    rw [w.emitted_append, ← hsum]
    refine ⟨Nat.add_le_add hone.1 htwo.1, fun hcarried => ?_⟩
    rw [hone.2 hcarried, htwo.2 hcarried]
  | passed => exact passes_exact (w.emitted_parent (ht.core_ne_root hcore) cmd)

/-- A core answers or passes on what it handles. -/
theorem coreCommand (hkeep : m.action.givesUp = none) (ho : CoreOutcome t r n c m result) :
    w.Passes t n result.2 (w.message m) := by
  have hroot := ht.core_ne_root hcore
  cases ho with
  | registered hkind _ hdest =>
    have hnone := hw.registration (hkind.trans_ne (Option.some_ne_none _))
    obtain ⟨c', joins, heq, _, hjoins⟩ := registerInterface_frame (c := c) hdest
    apply passes_exact
    rw [heq]
    rw [w.emitted_append, w.emitted_other hjoins, Nat.zero_add]
    split
    · exact hnone.symm
    · exact w.emitted_parent hroot m
  | asked _ _ hfrom hask _ hc =>
    rw [← hw.becomes hfrom hask]
    exact hw.coreCheck ht hv hcore hwired hask hc
  | ended hgive => cases hkeep.symm.trans hgive
  | passed => exact passes_exact (w.emitted_parent hroot m)
  | added hfits hact hfor => exact w.addTargetToInterface ht hcore hwired hv hfits hfor hact
  | removed hfits hact hfor => exact w.removeTargetFromInterface ht hcore hwired hv hfits hfor hact

end Weights.Fair

end Helics
