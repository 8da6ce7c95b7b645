import Helics.BrokerSteps
import Helics.CoreSteps
import Helics.NetworkSteps

namespace Helics

open LinkNetwork (takeFirst takeFirst_perm mem_of_takeFirst mem_rest Ordered)

variable [DualMapped String GlobalId]

namespace InterfaceNet

def table (t : Topology) (net : InterfaceNet) (n : GlobalId) : HandleManager :=
  if t.isCore n then (net.cores n).loopHandles else (net.brokers n).handles

def Knows (t : Topology) (net : InterfaceNet) (n : GlobalId) (handle : GlobalHandle) : Prop :=
  (net.table t n).findHandle handle ≠ none

end InterfaceNet

/-- Which commands may wait on which link. -/
def Placed (t : Topology) (r : Roster) : Link → InterfaceMessage → Prop
  | .own n, m => m.action.isFor = none ∧ Fits t r n m ∧
    (m.action.asksFor ≠ none → m.stringData = [])
  | .up n, m => n ≠ t.root ∧ m.action.isFor = none ∧ Fits t r n m
  | .down n, m => m.action.isFor ≠ none ∧ Fits t r n m
  | .federate f, m => m.action.isFor ≠ none ∧ m.dest.fedId = f ∧ ∃ n, Fits t r n m

def Announcing (flight : List (Link × InterfaceMessage)) (link : Link)
    (handle : GlobalHandle) : Prop :=
  ∃ m, (link, m) ∈ flight ∧ m.action.registers ≠ none ∧ m.source = handle

omit [DualMapped String GlobalId] in
theorem Announcing.mono (h : Announcing flight link handle) (hsub : flight ⊆ flight') :
    Announcing flight' link handle := by
  obtain ⟨m, hm, hrest⟩ := h
  exact ⟨m, hsub hm, hrest⟩

/-- An interface that asks the parent with strings of its own is known there or was announced
before. -/
def AsksInOrder (t : Topology) (net : InterfaceNet) (before : List (Link × InterfaceMessage))
    (x : Link × InterfaceMessage) : Prop :=
  ∀ n, x.1 = .up n → x.2.action.asksFor ≠ none → x.2.stringData = [] ∨
    net.Knows t (t.parent n) x.2.source ∨ Announcing before (.up n) x.2.source

namespace InterfaceNet

/-- The cores and brokers know only registered interfaces, and what they know is known above. -/
structure Sound (t : Topology) (r : Roster) (net : InterfaceNet) : Prop where
  wiredBroker : ∀ {n}, t.isCore n = false → WiredBroker t n (net.brokers n)
  brokers : ∀ {n}, t.isCore n = false → BrokerSound t r n (net.brokers n)
  wiredCore : ∀ {n}, t.isCore n = true → WiredCore t n (net.cores n)
  cores : ∀ {n}, t.isCore n = true → CoreSound r n (net.cores n)
  placed : ∀ {l m}, (l, m) ∈ net.flight → Placed t r l m
  trail : ∀ {n handle}, n ≠ t.root → net.Knows t n handle →
    net.Knows t (t.parent n) handle ∨ Announcing net.flight (.up n) handle
  order : Ordered (AsksInOrder t net) net.flight

/-- The registered interfaces enter the command loops of their cores. -/
structure Entered (t : Topology) (net : InterfaceNet) : Prop where
  user : ∀ {n m}, (.own n, m) ∈ net.flight → m.action.registers ≠ none → t.isCore n = true ∧
    ∃ info ∈ (net.cores n).handles.handles, info.handle = m.source
  taken : ∀ {n info}, t.isCore n = true → info ∈ (net.cores n).handles.handles →
    net.Knows t n info.handle ∨ Announcing net.flight (.own n) info.handle

structure NodeStep (t : Topology) (r : Roster) (net : InterfaceNet) (k : GlobalId)
    (m : InterfaceMessage) (new : List (Link × InterfaceMessage)) (net' : InterfaceNet) : Prop where
  flight : net'.flight = net.flight ++ new
  wiredBroker : ∀ {n}, t.isCore n = false → WiredBroker t n (net'.brokers n)
  brokers : ∀ {n}, t.isCore n = false → BrokerSound t r n (net'.brokers n)
  wiredCore : ∀ {n}, t.isCore n = true → WiredCore t n (net'.cores n)
  cores : ∀ {n}, t.isCore n = true → CoreSound r n (net'.cores n)
  users : ∀ n, (net'.cores n).handles = (net.cores n).handles
  others : ∀ {n}, n ≠ k → net'.table t n = net.table t n
  grows : ∀ {handle}, net.Knows t k handle → net'.Knows t k handle
  learned : ∀ {handle}, net'.Knows t k handle → net.Knows t k handle ∨
    m.action.registers ≠ none ∧ m.source = handle ∧ (k ≠ t.root → (.up k, m) ∈ new)
  told : m.action.registers ≠ none → net'.Knows t k m.source
  placed : ∀ {l m'}, (l, m') ∈ new → Placed t r l m'
  rising : ∀ {n m'}, (.up n, m') ∈ new → n = k ∧
    (m'.action.asksFor ≠ none → m'.stringData = [] ∨ net.Knows t k m'.source)
  noOwn : ∀ {n m'}, (.own n, m') ∉ new

namespace NodeStep

variable {t : Topology} {r : Roster} {net net' : InterfaceNet}

theorem knows_mono (hs : NodeStep t r net k m new net') (h : net.Knows t n handle) :
    net'.Knows t n handle := by
  by_cases hn : n = k
  · subst hn
    exact hs.grows h
  · unfold Knows
    rw [hs.others hn]
    exact h

end NodeStep

def target (t : Topology) : Link → Option GlobalId
  | .own n | .down n => some n
  | .up n => some (t.parent n)
  | .federate _ => none

variable {t : Topology} {r : Roster} {net net' : InterfaceNet}

theorem NodeStep.announcing (hs : NodeStep t r { net with flight := rest } k m new net')
    (hlink : target t link = some k)
    (h : Announcing old (.up n) handle) (hsub : ∀ x ∈ old, x ∈ before ∨ x = (link, m)) :
    net'.Knows t (t.parent n) handle ∨ Announcing before (.up n) handle := by
  obtain ⟨m', hm', hkind, rfl⟩ := h
  rcases hsub _ hm' with hx | heq
  · exact .inr ⟨m', hx, hkind, rfl⟩
  · cases heq
    cases hlink
    exact .inl (hs.told hkind)

theorem Sound.deliver (h : Sound t r net) (htake : takeFirst link net.flight = some (m, rest))
    (hlink : target t link = some k)
    (hs : NodeStep t r { net with flight := rest } k m new net') : Sound t r net' where
  wiredBroker := hs.wiredBroker
  brokers := hs.brokers
  wiredCore := hs.wiredCore
  cores := hs.cores
  placed := by
    intro l m' hx
    rw [hs.flight] at hx
    rcases List.mem_append.mp hx with hx | hx
    · exact h.placed (mem_rest htake hx)
    · exact hs.placed hx
  trail := by
    intro n handle hn hknows
    rw [hs.flight]
    have hold : net.Knows t n handle → net'.Knows t (t.parent n) handle ∨
        Announcing (rest ++ new) (.up n) handle := by
      intro hknows
      rcases h.trail hn hknows with hparent | hway
      · exact .inl (hs.knows_mono hparent)
      apply hs.announcing hlink hway
      intro x hx
      rcases List.mem_cons.mp ((takeFirst_perm htake).mem_iff.mp hx) with heq | hx
      · exact .inr heq
      · exact .inl (List.mem_append_left _ hx)
    by_cases hk : n = k
    · subst hk
      rcases hs.learned hknows with hknows | ⟨hkind, hsource, hsent⟩
      · exact hold hknows
      · exact .inr ⟨m, List.mem_append_right _ (hsent hn), hkind, hsource⟩
    · unfold Knows at hknows
      rw [hs.others hk] at hknows
      exact hold hknows
  order := by
    rw [hs.flight]
    apply Ordered.append
    · refine h.order.take htake ?_
      intro before before' x hsub hx n hlink' hask
      rcases hx n hlink' hask with hstrings | hparent | hway
      · exact .inl hstrings
      · exact .inr (.inl (hs.knows_mono hparent))
      · exact .inr (hs.announcing hlink hway hsub)
    · rintro before ⟨l, m'⟩ after hnew n rfl hask
      have hx : (.up n, m') ∈ new := by
        rw [hnew]
        exact List.mem_append_right _ List.mem_cons_self
      obtain ⟨rfl, hknown⟩ := hs.rising hx
      rcases hknown hask with hstrings | hknows
      · exact .inl hstrings
      rcases h.trail (hs.placed hx).1 hknows with hparent | hway
      · exact .inr (.inl (hs.knows_mono hparent))
      refine .inr (hs.announcing hlink hway ?_)
      intro x hx
      rcases List.mem_cons.mp ((takeFirst_perm htake).mem_iff.mp hx) with heq | hx
      · exact .inr heq
      · exact .inl (List.mem_append_left _ hx)

theorem Entered.deliver (h : Entered t net) (htake : takeFirst link net.flight = some (m, rest))
    (hlink : target t link = some k)
    (hs : NodeStep t r { net with flight := rest } k m new net') : Entered t net' where
  user := by
    intro n m' hx hkind
    rw [hs.flight] at hx
    rw [hs.users]
    rcases List.mem_append.mp hx with hx | hx
    · exact h.user (mem_rest htake hx) hkind
    · exact absurd hx hs.noOwn
  taken := by
    intro n info hn hinfo
    rw [hs.users] at hinfo
    rw [hs.flight]
    rcases h.taken hn hinfo with hknows | ⟨m', hx, hkind, hsource⟩
    · exact .inl (hs.knows_mono hknows)
    rcases List.mem_cons.mp ((takeFirst_perm htake).mem_iff.mp hx) with heq | hx
    · cases heq
      cases hlink
      rw [← hsource]
      exact .inl (hs.told hkind)
    · exact .inr ⟨m', List.mem_append_left _ hx, hkind, hsource⟩

end InterfaceNet

end Helics
