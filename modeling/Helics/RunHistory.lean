import Helics.FederatePartners
import Helics.PairWeights

namespace Helics

open UnknownHandleManager
open LinkNetwork (takeFirst total mem_of_takeFirst)
open Invariants (Run)

variable [DualMapped String GlobalId]

/-- What is parked waits for a name that is not known, apart from the given ones. -/
structure Waiting (done : HandleType → String → Prop) (b : InterfaceBroker) : Prop where
  requests : ∀ {what u}, u ∈ b.unknownHandles.requests what →
    b.handles.find what u.key = none ∨ done what u.key
  links : ∀ {what p}, p ∈ b.unknownHandles.links what →
    b.handles.find what p.1 = none ∨ done what p.1

namespace Waiting

variable {t : Topology} {r : Roster} {done : HandleType → String → Prop}

theorem check (h : Waiting done b) (hc : AskOutcome t r n b cmd what result) :
    Waiting done result.1 := by
  cases hc with
  | answered | passed => exact h
  | parked _ hnone =>
    constructor
    · intro k u hu
      rw [requests_park] at hu
      rcases List.mem_append.mp hu with hu | hu
      · exact h.requests hu
      split at hu
      · rename_i hk
        rw [List.mem_singleton.mp hu, hk.1]
        exact .inl hnone
      · cases hu
    · intro k p hp
      rw [links_park] at hp
      exact h.links hp

theorem push (h : Waiting done b) (info : HandleInfo) (htyped : info.handleType ≠ .unknown)
    (hnamed : info.key ≠ "") : Waiting
      (fun what name => done what name ∨ what = info.handleType ∧ name = info.key)
      (b.withHandle info) := by
  have hfind : ∀ {what name}, b.handles.find what name = none ∨ done what name →
      (b.withHandle info).handles.find what name = none ∨
        (done what name ∨ what = info.handleType ∧ name = info.key) := by
    intro what name hold
    rcases hold with hnone | hdone
    · show (b.handles.push info).find what name = none ∨ _
      rw [HandleManager.find_push_of_none hnone info htyped hnamed]
      split
      · rename_i heq
        exact .inr (.inr (Prod.mk.inj heq))
      · exact .inl rfl
    · exact .inr (.inl hdone)
  exact ⟨fun hu => hfind (h.requests hu), fun hp => hfind (h.links hp)⟩

theorem clear (h : Waiting (fun k name => done k name ∨ k = what ∧ name = key) b) :
    Waiting done { b with unknownHandles := b.unknownHandles.clear what key } where
  requests := by
    intro k u hu
    rw [requests_clear] at hu
    split at hu
    · rename_i hk
      obtain ⟨hmem, hkey⟩ := List.mem_filter.mp hu
      rcases h.requests hmem with hnone | hdone | ⟨_, hself⟩
      · exact .inl hnone
      · exact .inr hdone
      · exact absurd hself (of_decide_eq_true hkey)
    · rename_i hk
      rcases h.requests hu with hnone | hdone | ⟨hself, _⟩
      · exact .inl hnone
      · exact .inr hdone
      · exact absurd hself hk
  links := by
    intro k p hp
    rw [links_clear] at hp
    split at hp
    · rename_i hk
      obtain ⟨hmem, hkey⟩ := List.mem_filter.mp hp
      rcases h.links hmem with hnone | hdone | ⟨_, hself⟩
      · exact .inl hnone
      · exact .inr hdone
      · exact absurd hself (of_decide_eq_true hkey)
    · rename_i hk
      rcases h.links hp with hnone | hdone | ⟨hself, _⟩
      · exact .inl hnone
      · exact .inr hdone
      · exact absurd hself hk

/-- The root parks only what it cannot answer. -/
theorem after (h : Waiting done b) (hb : BrokerSound t r n b) (hw : WiredBroker t n b)
    (hroot : b.isRootc = true) (hv : r.Valid t) (ho : BrokerOutcome t r n b m result) :
    Waiting done result.1 := by
  cases ho with
  | refused | ended | dropped | passed => exact h
  | @recorded info hnew =>
    have htyped := hv.typed hnew.has
    rw [InterfaceBroker.findandNotify_eq _ info.handleType htyped]
    obtain ⟨⟨_, hwaiting⟩, _⟩ := (hb.push hv hnew.has hnew.inside hnew.new).checkAll hv
      (hw.of_sameRoutes ⟨rfl, rfl, rfl, rfl, rfl⟩) hnew.has hnew.inside (List.Subset.refl _)
      (h.push info htyped (hv.named hnew.has)) (fun hc hold => hold.check hc)
    exact hwaiting.clear
  | announced _ hinner => cases hroot.symm.trans hinner
  | asked _ _ _ _ _ hc => exact h.check hc
  | linked _ hfirst _ hnone =>
    constructor
    · intro k u hu
      rw [requests_parkLink] at hu
      exact h.requests hu
    · intro k p hp
      rcases List.mem_append.mp ((b.unknownHandles.links_parkLink _ _ hfirst k).mem_iff.mp hp)
        with hold | hnew
      · exact h.links hold
      split at hnew
      · rename_i hk
        rw [List.mem_singleton.mp hnew, hk]
        exact .inl hnone
      · cases hnew

end Waiting

namespace InterfaceNet

variable {t : Topology} {r : Roster} {net₀ net net' : InterfaceNet}

/-- What holds in every state of a run, for the interfaces so far and for those at its end. -/
structure Reached (t : Topology) (r : Roster) (net : InterfaceNet) : Prop where
  registry : Registry t net
  sound : Sound t r net
  entered : Entered t net
  now : Sound t (roster t net) net

section
variable (hrun : Runs t net evs net')
include hrun

theorem roster_extends
    (hn : t.isCore n = true) : (net.cores n).handles.handles <+: roster t net' n := by
  rw [mem_roster hn]
  exact users_run hrun n

theorem roster_mono (h : (roster t net).Has info) : (roster t net').Has info := by
  obtain ⟨n, hn, hmem⟩ := has_roster h
  exact ⟨n, (roster_extends hrun hn).subset hmem⟩

end

theorem Registry.valid_before (hreg : Registry t net) (hrun : Runs t net evs net')
    (hv : (roster t net').Valid t) : (roster t net).Valid t :=
  hreg.valid (fun _ _ hi hi' => hv.unique (roster_mono hrun hi) (roster_mono hrun hi'))

theorem Fresh.reached (hfresh : net₀.Fresh t) (ht : t.IsTree) (hpast : Runs t net₀ evs net)
    (hrest : Runs t net evs' net') (hevs : ∀ ev ∈ evs, ev.Named) (hv : (roster t net').Valid t) :
    Reached t (roster t net') net := by
  have hreg : Registry t net := hfresh.registry.run ht hpast
  obtain ⟨hsound, hentered⟩ := Sound.run ht hpast hevs hfresh.registry (hfresh.sound _)
    hfresh.entered hv (roster_extends hrest)
  obtain ⟨hnow, _⟩ := Sound.run ht hpast hevs hfresh.registry (hfresh.sound _) hfresh.entered
    (hreg.valid_before hrest hv) (roster_extends (.nil net))
  exact ⟨hreg, hsound, hentered, hnow⟩

/-- Every registered publication and input has a record in its federate. -/
def Recorded (t : Topology) (net : InterfaceNet) : Prop :=
  ∀ info, (roster t net).Has info →
    (net.federates info.handle.fedId).Holds info.handleType info.handle.handle

theorem Recorded.of_same (h : Recorded t net)
    (hcores : ∀ n, (net'.cores n).handles = (net.cores n).handles)
    (hfederates : ∀ f what handle, (net.federates f).Holds what handle →
      (net'.federates f).Holds what handle) : Recorded t net' := by
  intro info hinfo
  apply hfederates
  apply h
  obtain ⟨n, hn, hmem⟩ := has_roster hinfo
  refine ⟨n, ?_⟩
  rw [mem_roster hn, ← hcores]
  exact hmem

theorem Recorded.step (h : Recorded t net) (hreg : Registry t net) (hsound : Sound t r net)
    (hs : Transition t net ev net') : Recorded t net' := by
  cases hs with
  | @registered k info m hnew =>
    have hgrows : ∀ f what handle, (net.federates f).Holds what handle →
        (net'.federates f).Holds what handle := by
      intro f what handle hholds
      rcases hnew.owner with ⟨_, _, hfederates, _⟩ | ⟨g, _, _, _, _, hfederates⟩
      · rw [hfederates]
        exact hholds
      rw [hfederates]
      by_cases hf : f = g
      · subst hf
        rw [Function.update_self]
        exact hholds.createInterface _ _
      · rw [Function.update_of_ne hf]
        exact hholds
    intro info' hinfo'
    obtain ⟨n, hn, hmem⟩ := has_roster hinfo'
    have hold : info' ∈ (net.cores n).handles.handles → (net'.federates info'.handle.fedId).Holds
        info'.handleType info'.handle.handle :=
      fun hmem => hgrows _ _ _ (h _ ⟨n, by rw [mem_roster hn]; exact hmem⟩)
    by_cases hk : n = k
    · subst hk
      rw [hnew.announces.core] at hmem
      rcases List.mem_append.mp hmem with hmem | hmem
      · exact hold hmem
      rw [List.mem_singleton.mp hmem]
      rcases hnew.owner with ⟨hfilter, _⟩ | ⟨g, _, _, hfed, _, hfederates⟩
      · rw [hfilter]
        trivial
      · rw [hfederates, hfed, (hreg.federate g).1, Function.update_self]
        exact FederateInterfaces.holds_createInterface _ _ _
    · rw [hnew.cores n hk] at hmem
      exact hold hmem
  | asked _ _ _ _ _ heq | gaveUp _ _ _ _ _ _ heq | dataLinked _ heq | filterLinked _ heq =>
    subst heq
    exact h
  | @handled link m rest k _ _ _ heq =>
    subst heq
    obtain ⟨hfederates, hcores⟩ := handleAt_frame (t := t) { net with flight := rest } k m
    apply h.of_same (fun n => (hcores n).handles)
    intro f what handle hholds
    rw [hfederates]
    exact hholds
  | @informed f m rest _ htake heq =>
    subst heq
    refine h.of_same ?_ ?_
    · intro n
      rfl
    intro f' what handle hholds
    show (Function.update net.federates f _ f').Holds what handle
    by_cases hf : f' = f
    · subst hf
      rw [Function.update_self]
      exact hholds.processActionMessage (hsound.placed (mem_of_takeFirst htake)).1
    · rw [Function.update_of_ne hf]
      exact hholds

/-- The root parks only what it cannot answer, in every state reached. -/
theorem waiting_step (hv : r.Valid t) (h : Waiting (fun _ _ => False) (net.brokers t.root))
    (hsound : Sound t r net) (hs : Transition t net ev net') :
    Waiting (fun _ _ => False) (net'.brokers t.root) := by
  cases hs with
  | registered hnew =>
    rw [hnew.brokers]
    exact h
  | asked _ _ _ _ _ heq | gaveUp _ _ _ _ _ _ heq | dataLinked _ heq | filterLinked _ heq
  | informed _ _ heq =>
    subst heq
    exact h
  | @handled link m rest k _ htake htarget heq =>
    subst heq
    cases hk : t.isCore k with
    | true =>
      rw [handleAt_core hk]
      exact h
    | false =>
      rw [handleAt_broker hk]
      show Waiting _ (Function.update net.brokers k _ t.root)
      by_cases hroot : t.root = k
      · subst hroot
        rw [Function.update_self]
        refine h.after (hsound.brokers hk) (hsound.wiredBroker hk) ?_ hv
          (hsound.brokerReceives hv htake htarget hk)
        rw [(hsound.wiredBroker hk).root]
        exact decide_eq_true rfl
      · rw [Function.update_of_ne hroot]
        exact h

theorem Fresh.waiting (h : net.Fresh t) (ht : t.IsTree) :
    Waiting (fun _ _ => False) (net.brokers t.root) := by
  have hunknown := (h.brokerTables ht.root_broker).2
  constructor
  · intro what u hu
    rw [hunknown] at hu
    cases what <;> cases hu
  · intro what p hp
    rw [hunknown] at hp
    cases what <;> cases hp

theorem Reached.known_at_root (h : Reached t r net) (ht : t.IsTree) (hv : r.Valid t)
    (hquiet : net.flight = []) (hhas : r.Has info) (hnow : (roster t net).Has info) :
    (net.brokers t.root).handles.find info.handleType info.key = some info := by
  obtain ⟨n, hn, hmem⟩ := has_roster hnow
  have hnever : ∀ l handle, ¬ Announcing net.flight l handle := by
    rintro l handle ⟨m, hm, _⟩
    rw [hquiet] at hm
    cases hm
  have hup : ∀ {m k}, Relation.ReflTransGen t.Below m k → net.Knows t m info.handle →
      net.Knows t k info.handle := by
    intro m k hpath hknows
    induction hpath with
    | refl => exact hknows
    | tail _ hlast ih =>
      rw [← hlast.2]
      exact (h.sound.trail hlast.1 ih).resolve_right (hnever _ _)
  have hroot := hup (ht.reaches_root n) ((h.entered.taken hn hmem).resolve_right (hnever _ _))
  unfold Knows at hroot
  rw [table_broker ht.root_broker] at hroot
  have hbroker := h.sound.brokers ht.root_broker
  obtain ⟨info', hfind, hhandle⟩ := hbroker.named hroot
  rw [← hv.eq_of_handle (hbroker.table hfind).1 hhas hhandle]
  exact hfind

end InterfaceNet

end Helics
