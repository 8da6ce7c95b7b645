import Helics.QueryStored
import Helics.QueryTermination

namespace Helics

open Invariants
open LinkNetwork (takeFirst)

/-- The text is what a broker answers to a request; a map is put together from parts. -/
def BrokerTables.AnswersWith (b : BrokerTables) (request text : String) : Prop :=
  match MapKind.ofRequest request with
  | none => text = b.answer request
  | some kind => ∃ parts, text = b.mapText kind parts

namespace QueryTree

open BrokerTables QueryState

variable {t : QueryTree}

abbrev Runs (t : QueryTree) : QueryNet → List QueryEvent → QueryNet → Prop :=
  Run fun net e net' => t.step net e = some net'

section
variable (hs : Sound t net)
include hs

theorem Sound.run (hrun : t.Runs net es net') : Sound t net' :=
  hrun.invariant (fun _ _ _ hs h => hs.step h) hs

theorem Sound.held_below (hf : net.flight = []) (hn : t.isBroker n)
    (hr : (net.states n).requestors kind ≠ []) :
    ∃ n' kind', t.isBroker n' ∧ t.depth n < t.depth n' ∧ (net.states n').requestors kind' ≠ [] := by
  obtain ⟨c, hc⟩ := List.exists_mem_of_ne_nil _ ((hs.brokers n hn).busy kind hr)
  have hmaps := hs.maps n kind c.1 hn
  rw [owed_self] at hmaps
  have howed : 0 < ((net.states n).builder kind).missingComponents.countP fun c' =>
      decide (c'.1 = c.1) := List.countP_pos_iff.mpr ⟨c, hc, decide_eq_true rfl⟩
  have hsum : 0 < ∑ k ∈ t.nodes, waiting (n, kind.counter, c.1) (net.states k) := by
    unfold count at hmaps
    rw [hf] at hmaps
    have hnil : tally (n, kind.counter, c.1) (([] : List (Link × QueryMessage)).map Prod.snd) = 0 :=
      rfl
    omega
  obtain ⟨n', hmem, hpos⟩ : ∃ k ∈ t.nodes, waiting (n, kind.counter, c.1) (net.states k) ≠ 0 := by
    by_contra hno
    push Not at hno
    rw [Finset.sum_eq_zero hno] at hsum
    exact lt_irrefl _ hsum
  have hn' : t.isBroker n' := by
    by_contra hno
    rw [(hs.others n' hno).1] at hpos
    exact hpos rfl
  obtain ⟨kind', r, hr', hkey⟩ : ∃ kind', ∃ r ∈ (net.states n').requestors kind',
      r.key = some (n, kind.counter, c.1) := by
    unfold waiting at hpos
    by_cases hzero : tally (n, kind.counter, c.1) ((net.states n').requestors .federates) = 0
    · have hpos : 0 < tally (n, kind.counter, c.1) ((net.states n').requestors .dependencies) := by
        omega
      obtain ⟨r, hr, hk⟩ := List.countP_pos_iff.mp hpos
      exact ⟨_, r, hr, of_decide_eq_true hk⟩
    · obtain ⟨r, hr, hk⟩ := List.countP_pos_iff.mp (Nat.pos_of_ne_zero hzero)
      exact ⟨_, r, hr, of_decide_eq_true hk⟩
  have hheld := (hs.brokers n' hn').held kind' r hr'
  obtain ⟨hdest, hcount, -⟩ := QueryMessage.key_inj
    ((QueryMessage.key_reply hheld.action).symm.trans hkey)
  obtain ⟨hz, -⟩ | ⟨-, -, hbelow⟩ := hheld.owner
  · exact absurd (hcount.symm.trans hz) kind.counter_ne_zero
  · exact ⟨n', kind', hn', hdest ▸ (hbelow.above hmem).2.2, List.ne_nil_of_mem hr'⟩

theorem Sound.none_held (hf : net.flight = []) (hn : t.isBroker n)
    (kind : MapKind) : (net.states n).requestors kind = [] := by
  induction hd : t.height - t.depth n using Nat.strong_induction_on generalizing n kind with
  | _ d ih =>
    by_contra hr
    obtain ⟨n', kind', hn', hlt, hr'⟩ := hs.held_below hf hn hr
    have hle := BrokerTree.depth_le_height (isBroker_iff.mp hn').1
    exact hr' (ih _ (by omega) hn' kind' rfl)

theorem Sound.count_zero (hf : net.flight = []) (key : QueryKey) : t.count key net = 0 := by
  unfold count
  rw [hf]
  refine Nat.add_eq_zero_iff.mpr ⟨rfl, Finset.sum_eq_zero fun n _ => ?_⟩
  by_cases hn : t.isBroker n
  · unfold waiting
    rw [hs.none_held hf hn, hs.none_held hf hn]
    rfl
  · rw [(hs.others n hn).1]
    rfl

end

theorem exists_delivery (hne : net.flight ≠ []) :
    ∃ link after, t.step net (.deliver link) = some after := by
  obtain ⟨link, m, rest, htake⟩ := LinkNetwork.exists_takeFirst hne
  refine ⟨link, t.receive { net with flight := rest } (t.endOf link) m, ?_⟩
  change (takeFirst link net.flight).map _ = _
  rw [htake]
  rfl

def repliesTo (s : QueryState) (id : Int) : List QueryResult :=
  s.results.filter fun r => decide (r.messageID = id)

theorem mem_repliesTo {id : Int} : r ∈ repliesTo s id ↔ r ∈ s.results ∧ r.messageID = id := by
  unfold repliesTo
  rw [List.mem_filter, decide_eq_true_iff]

def Meant (t : QueryTree) (net : QueryNet) : Prop :=
  ∀ u, ∀ q ∈ net.asked u, t.valid q.2.1 = true ∧ ∃ a m₀, Outcome t u q.2.1 a m₀

theorem Meant.step (hm : Meant t net) (hs : Sound t net) (h : t.step net e = some net') :
    Meant t net' := by
  cases e with
  | query u target request =>
    obtain ⟨hu, hvalid, out, m₀, hfirst, rfl⟩ := step_query h
    intro v q hq
    obtain hq | ⟨rfl, rfl⟩ := mem_asking hq
    · exact hm v q hq
    · exact ⟨hvalid, outcome hu hvalid (by rw [hfirst]; exact nofun)⟩
  | setGlobal u name value =>
    obtain ⟨-, rfl⟩ := step_setGlobal h
    exact hm
  | deliver link =>
    obtain ⟨m, l, -, -, ⟨-, rfl⟩ | ⟨r, -, -, -, rfl⟩⟩ := hs.step_deliver h <;> exact hm

theorem Outcome.named_isBroker (ho : Outcome t u target a m₀) (hu : t.isBroker u)
    (hv : t.valid target = true) : t.isBroker (t.named u target) := by
  cases target with
  | root => exact t.root_isBroker
  | global => exact t.root_isBroker
  | parent =>
    refine parent_isBroker (isBroker_iff.mp hu).1 fun hr => ?_
    obtain ⟨out, k, hf, -⟩ := ho.answers
    rw [first_parent_root hu hr] at hf
    cases hf
  | identifier v => exact hv

/-- When no message is under way, a query has been answered by the node that keeps it, once, unless
the text of the answer is the one that means waiting. -/
theorem Sound.replies (hs : Sound t net) (hf : net.flight = []) {id : Int}
    (hq : (id, target, request) ∈ net.asked u) (ho : Outcome t u target a m₀) (src : GlobalId)
    (hsrc : t.isBroker src) : (∃ r, repliesTo (net.states u) id = [r] ∧ r.sourceId = src) ↔
      a = src ∧ t.Audible a m₀ request := by
  have hu := asked_broker hs hq
  have hspoken : ∀ r ∈ repliesTo (net.states u) id, t.Audible a m₀ request ∧
      (t.isCore a = true ∧ r.sourceId = parentBrokerId ∨ t.isBroker a ∧ r.sourceId = a) := by
    intro r hr
    obtain ⟨hmem, hid⟩ := mem_repliesTo.mp hr
    obtain ⟨target', request', a', m', hq', ha', hfrom, haud⟩ := (hs.brokers u hu).results r hmem
    rw [hid] at hq'
    obtain ⟨rfl, rfl⟩ := asked_unique hs hq hq'
    obtain ⟨rfl, rfl⟩ := ho.answers.unique ha'
    exact ⟨haud, hfrom⟩
  constructor
  · rintro ⟨r, hr, heq⟩
    obtain ⟨haud, ⟨-, hz⟩ | ⟨-, ha⟩⟩ := hspoken r (by rw [hr]; exact List.mem_singleton.mpr rfl)
    · exact absurd (heq.symm.trans hz) (t.ids src (isBroker_iff.mp hsrc).1).1
    · exact ⟨ha.symm.trans heq, haud⟩
  · rintro ⟨rfl, haud⟩
    have hone := hs.users u id target request a m₀ hq ho.answers haud
    rw [hs.count_zero hf, Nat.zero_add] at hone
    have hlen : (repliesTo (net.states u) id).length = 1 := by
      unfold got at hone
      rw [if_pos ⟨rfl, rfl⟩, List.countP_eq_length_filter] at hone
      exact hone
    obtain ⟨r, hr⟩ := List.length_eq_one_iff.mp hlen
    refine ⟨r, hr, ?_⟩
    obtain ⟨-, ⟨hc, -⟩ | ⟨-, ha⟩⟩ := hspoken r (by rw [hr]; exact List.mem_singleton.mpr rfl)
    · exact absurd hc (not_isCore hsrc)
    · exact ha

theorem Meant.arrives (hm : Meant t net) (hs : Sound t net) (ht : Tracked t net.asked n m)
    (hq : m.action = .brokerQuery ∨ m.action = .query) (hc : m.counter = 0)
    (hasked : (m.messageID, target, request) ∈ net.asked m.sourceId)
    (hreach : t.Reaches m.sourceId target) : m.payload = request ∧
      t.isBroker (t.named m.sourceId target) ∧ (∃ k, Heads t m n (t.named m.sourceId target) k) ∧
      ((t.tables (t.named m.sourceId target)).isLocal m ↔ target ≠ .global) := by
  obtain ⟨hb, -, target', a, m₀, k, hq', ha, hal, hh⟩ | ⟨-, -, -, kind, k, hcount, -, -⟩ :=
    ht.query hq
  · obtain ⟨rfl, hpay⟩ := asked_unique hs hq' hasked
    obtain ⟨hv, a', m₁, ho⟩ := hm _ _ hasked
    obtain ⟨rfl, rfl⟩ := ha.unique ho.answers
    have hnamed := ho.named_isBroker hb hv
    have heq := ho.reaches.mpr hreach
    rw [hal.isLocal, ← heq]
    exact ⟨hpay, heq ▸ hnamed, ⟨k, hh⟩, ho.locally heq⟩
  · exact absurd (hcount.symm.trans hc) kind.counter_ne_zero

/-- The replies to queries that reach the node they name carry an answer of this node. -/
def Truthful (t : QueryTree) (asked : GlobalId → List (Int × QueryTarget × String))
    (key : QueryKey) (text : String) : Prop :=
  key.2.1 = 0 → ∀ target request, (key.2.2, target, request) ∈ asked key.1 → target ≠ .global →
    t.Reaches key.1 target → (t.tables (t.named key.1 target)).AnswersWith request text

def MapTexts (t : QueryTree) (n : GlobalId) (kind : MapKind) (text : String) : Prop :=
  ∃ parts, text = (t.tables n).mapText kind parts

theorem Meant.tells (hm : Meant t net) (hs : Sound t net) (ht : Tracked t net.asked n m)
    (hn : t.isBroker n) (hk : Kept t net.asked n m) (hp : (t.tables n).passes m = none) :
    Tells (t.Truthful net.asked) (t.MapTexts n) (t.tables n) (net.states n) m where
  plain _ hnone hc target request hq _ hr := by
    obtain ⟨rfl, -, ⟨k, hh⟩, -⟩ := hm.arrives hs ht hk.action hc hq hr
    rw [hh.kept hn hp]
    unfold BrokerTables.AnswersWith
    rw [hnone]
  map _ kind hkind text htext hc target request hq _ hr := by
    obtain ⟨rfl, -, ⟨k, hh⟩, -⟩ := hm.arrives hs ht hk.action hc hq hr
    rw [hh.kept hn hp]
    unfold BrokerTables.AnswersWith
    rw [hkind]
    exact htext
  direct hno text _ hc target request hq hg hr := by
    obtain ⟨-, -, ⟨k, hh⟩, hl⟩ := hm.arrives hs ht hk.action hc hq hr
    rw [hh.kept hn hp] at hl
    exact absurd (hl.mpr hg) hno

theorem Meant.spread (hm : Meant t net) (hs : Sound t net)
    (h : Spread t (t.Truthful net.asked) t.MapTexts net) (hstep : t.step net e = some net') :
    Spread t (t.Truthful net'.asked) t.MapTexts net' := by
  cases e with
  | query u target request =>
    refine h.query hs hstep fun key text hasked hsay hz target' request' hq => ?_
    obtain ⟨-, -, out, m₀, -, rfl⟩ := step_query hstep
    exact hsay hz target' request' (hs.asked_before rfl hq (hasked hz))
  | setGlobal u name value =>
    have hnext := h.setGlobal hstep
    obtain ⟨-, rfl⟩ := step_setGlobal hstep
    exact hnext
  | deliver link =>
    have hnext : Spread t (t.Truthful net.asked) t.MapTexts net' := by
      refine h.deliver hs hstep
        (fun m hx hn hk hp => hm.tells hs (hs.flight _ hx) hn hk hp)
        (fun m r hx hc hr hz target request hq _ hreach => ?_) fun _ _ _ _ => ⟨_, rfl⟩
      obtain ⟨-, hnamed, ⟨k, hh⟩, -⟩ := hm.arrives hs (hs.flight _ hx) hr.query hz hq hreach
      exact absurd (hh.at_core hc ▸ hc) (not_isCore hnamed)
    obtain ⟨m, l, -, -, ⟨-, rfl⟩ | ⟨r, -, -, -, rfl⟩⟩ := hs.step_deliver hstep <;> exact hnext

theorem truthful_run (hrun : t.Runs {} es net) :
    (Sound t net ∧ Meant t net) ∧ Spread t (t.Truthful net.asked) t.MapTexts net := by
  refine hrun.invariant (P := fun net => (Sound t net ∧ Meant t net) ∧
    Spread t (t.Truthful net.asked) t.MapTexts net) ?_ ?_
  · intro net e net' ⟨⟨hs, hm⟩, h⟩ hstep
    exact ⟨⟨hs.step hstep, hm.step hs hstep⟩, hm.spread hs h hstep⟩
  · refine ⟨⟨sound_initial t, fun _ _ hq => absurd hq List.not_mem_nil⟩,
      fun _ hx => absurd hx List.not_mem_nil, fun _ _ => ⟨?_, ?_⟩⟩
    · exact fun _ _ hq => absurd hq List.not_mem_nil
    · exact fun _ hq => absurd hq List.not_mem_nil

/-- The root has stored a value, and nobody sets it again. -/
structure Settled (t : QueryTree) (net : QueryNet) (es : List QueryEvent) (name value : String) :
    Prop where
  stored : (net.states t.root).globalValues.lookup name = some value
  unset : ∀ x ∈ net.flight, x.2.action = .setGlobal → x.2.payload ≠ name
  rest : ∀ e ∈ es, ∀ u value', e ≠ .setGlobal u name value'

theorem Settled.stores (h : Settled t net₁ es name value) (hs : Sound t net₁)
    (hrun : t.Runs net₁ es net) :
    Stores t name value (fun u => (net₁.states u).queryCounter) net := by
  have hlate : ∀ u (id : Int),
      ¬ t.Late name (fun u => (net₁.states u).queryCounter) net₁.asked u id := by
    intro u id hl
    have hle : id ≤ (net₁.states u).queryCounter := hs.numbers u _ hl.asked
    have hlt : (net₁.states u).queryCounter < id := hl.after
    omega
  have hinit : Stores t name value (fun u => (net₁.states u).queryCounter) net₁ :=
    ⟨h.stored, h.unset, fun x _ _ _ hl => absurd hl (hlate _ _),
      fun n _ => ⟨fun _ q _ _ _ _ hl => absurd hl (hlate _ _),
        fun q _ _ hl => absurd hl (hlate _ _)⟩⟩
  refine (hrun.history (P := fun _ net => Sound t net ∧
    Stores t name value (fun u => (net₁.states u).queryCounter) net) ⟨hs, hinit⟩ ?_).2
  intro l₁ net₂ e net₃ l₂ _ hstep _ hl ⟨hs, h₂⟩
  refine ⟨hs.step hstep, h₂.step hs (h.rest e ?_) hstep⟩
  rw [hl]
  exact List.mem_append_right _ List.mem_cons_self

/-- The queries that are not among these ones have greater numbers. -/
def AskedSince (net₁ net : QueryNet) : Prop :=
  ∀ u, (net₁.states u).queryCounter ≤ (net.states u).queryCounter ∧
    ∀ q ∈ net.asked u, q ∈ net₁.asked u ∨ (net₁.states u).queryCounter < q.1

theorem AskedSince.step (h : AskedSince net₁ net) (hs : Sound t net)
    (hstep : t.step net e = some net') : AskedSince net₁ net' := by
  intro u
  obtain ⟨hle, hasked⟩ := h u
  cases e with
  | query v target request =>
    obtain ⟨-, -, out, m₀, -, rfl⟩ := step_query hstep
    obtain ⟨c, heq, hc, -⟩ := states_asking net v target request out
      { m₀ with messageID := (net.states v).queryCounter + 1, payload := request } u
    refine ⟨?_, fun q hq => ?_⟩
    · rw [heq]
      exact hle.trans hc
    · obtain hq | ⟨rfl, rfl⟩ := mem_asking hq
      · exact hasked q hq
      · exact .inr (Int.lt_add_one_of_le hle)
  | setGlobal v name value =>
    obtain ⟨-, rfl⟩ := step_setGlobal hstep
    exact ⟨hle, hasked⟩
  | deliver link =>
    obtain ⟨m, l, -, -, ⟨-, rfl⟩ | ⟨r, -, -, hh, rfl⟩⟩ := hs.step_deliver hstep
    · exact ⟨hle, hasked⟩
    refine ⟨(Function.forall_update_iff net.states fun u s =>
      (net₁.states u).queryCounter ≤ s.queryCounter).mpr ⟨?_, fun v _ => (h v).1⟩ u, hasked⟩
    rw [hh.counter]
    exact (h _).1

theorem askedSince_run (hs : Sound t net₁) (hrun : t.Runs net₁ es net) : AskedSince net₁ net :=
  (hrun.invariant (P := fun net => Sound t net ∧ AskedSince net₁ net)
    (fun _ _ _ h hstep => ⟨h.1.step hstep, h.2.step h.1 hstep⟩)
    ⟨hs, fun _ => ⟨le_refl _, fun _ hq => .inl hq⟩⟩).2

/-- The messages of every run die out, and then every query has got exactly one reply, from the node
that it names and with the answer of this node or the value that is stored there, if and only if it
reaches this node and the answer is not the text that means waiting. -/
theorem answered_by_named_iff (t : QueryTree) (hfirst : t.Runs {} es₁ net₁)
    (hrun : t.Runs net₁ es₂ net) :
    Acc (fun after before => ∃ link, t.step before (.deliver link) = some after) net ∧
    (net.flight ≠ [] → ∃ link after, t.step net (.deliver link) = some after) ∧
    (net.flight = [] → ∀ u id target request, (id, target, request) ∈ net.asked u →
      ((∃ r, repliesTo (net.states u) id = [r] ∧ r.sourceId = t.named u target ∧
          (target ≠ .global → (t.tables (t.named u target)).AnswersWith request r.payload) ∧
          ∀ value, target = .global → (id, target, request) ∉ net₁.asked u →
            Settled t net₁ es₂ request value → r.payload = value) ↔
        t.Reaches u target ∧ (target = .global ∨ MapKind.ofRequest request ≠ none ∨
          (t.tables (t.named u target)).answer request ≠ "#wait"))) := by
  have hs₁ : Sound t net₁ := (sound_initial t).run hfirst
  have hs : Sound t net := hs₁.run hrun
  obtain ⟨⟨-, hmeant⟩, htrue⟩ := truthful_run (hfirst.append hrun)
  refine ⟨hs.deliveries_end, exists_delivery, fun hf u id target request hq => ?_⟩
  · have hu := asked_broker hs hq
    obtain ⟨hv, a, m₀, ho⟩ := hmeant u _ hq
    have hnamed := ho.named_isBroker hu hv
    have hreplies := hs.replies hf hq ho _ hnamed
    have haud (ha : a = t.named u target) : t.Audible a m₀ request ↔
        (target = .global ∨ MapKind.ofRequest request ≠ none ∨
          (t.tables (t.named u target)).answer request ≠ "#wait") := by
      unfold Audible
      rw [ho.locally ha, ha, or_iff_right (not_isCore hnamed), not_and_or, not_and_or, not_not]
    constructor
    · rintro ⟨r, hr, hsrc, -⟩
      obtain ⟨ha, haudible⟩ := hreplies.mp ⟨r, hr, hsrc⟩
      exact ⟨ho.reaches.mp ha, (haud ha).mp haudible⟩
    · rintro ⟨hreach, hheard⟩
      have ha := ho.reaches.mpr hreach
      obtain ⟨r, hr, hsrc⟩ := hreplies.mpr ⟨ha, (haud ha).mpr hheard⟩
      obtain ⟨hmem, hid⟩ := mem_repliesTo.mp (hr.symm ▸ List.mem_singleton.mpr rfl)
      refine ⟨r, hr, hsrc, fun hplain => ?_, fun value hglobal hnew hset => ?_⟩
      · exact (htrue.brokers u hu).results r hmem rfl target request
          (hid.symm ▸ hq) hplain hreach
      subst hglobal
      have hafter := ((askedSince_run hs₁ hrun u).2 _ hq).resolve_left hnew
      refine ((hset.stores hs₁ hrun).spread.brokers u hu).results r hmem rfl ?_
      rw [hid]
      exact ⟨hafter, hq, asksAt_eq_root.mpr hreach⟩

def lineTables (n : GlobalId) : BrokerTables where
  identifier := if n = 1 then "main" else if n = 1879048192 then "upper" else "lower"
  globalBrokerIdLocal := n
  isRootc := decide (n = 1)
  higherBrokerId := if n = 1 then 0 else if n = 1879048192 then 1 else 1879048192
  federates := []
  brokers :=
    if n = 1 then [{ name := "upper", globalId := 1879048192, route := 1, parent := 1 },
      { name := "lower", globalId := 1879048193, route := 1, parent := 1879048192 }]
    else if n = 1879048192 then
      [{ name := "lower", globalId := 1879048193, route := 1, parent := 1879048192 }]
    else []
  routingTable :=
    if n = 1 then [(1879048192, 1), (1879048193, 1)]
    else if n = 1879048192 then [(1879048193, 1)]
    else []
  answer request := if request = "name" then
    (if n = 1 then "main" else if n = 1879048192 then "upper" else "lower") else "#invalid"
  mapText _ _ := "map"
  valuesText _ := "values"
  mapText_ne _ _ := by decide

def lineTree : BrokerTree where
  root := 1
  nodes := {1, 1879048192, 1879048193}
  isCore _ := false
  parent n := if n = 1879048193 then 1879048192 else 1
  depth n := if n = 1 then 0 else if n = 1879048192 then 1 else 2
  root_mem := by decide
  root_broker := rfl
  depth_root := rfl
  parent_mem := by decide
  parent_broker _ _ _ := rfl
  depth_parent := by decide

def lineOfThree : QueryTree where
  toBrokerTree := lineTree
  child n r := if r = 1 then some (if n = 1 then 1879048192 else 1879048193) else none
  home _ := none
  tables := lineTables
  cores n := ⟨"core", n, fun _ => "#invalid", fun _ _ => "#invalid"⟩
  ids := by decide
  table_id _ _ _ := rfl
  table_root := by decide
  table_higher := by decide
  core_id _ _ _ := rfl
  route_below := by
    have h : ∀ n ∈ lineTree.nodes, ∀ d ∈ lineTree.nodes, lineTree.Below n d →
        ∃ c ∈ lineTree.nodes, (lineTables n).routingTable.lookup d = some 1 ∧
          (if n = 1 then (1879048192 : GlobalId) else 1879048193) = c ∧ c ≠ lineTree.root ∧
          lineTree.parent c = n ∧ (c = d ∨ lineTree.Below c d) := by
      decide
    intro n hn _ d hd hb
    obtain ⟨c, hc, hl, hchild, hr, hp, hcd⟩ := h n hn d hd hb
    exact ⟨1, c, hl, by decide, hchild ▸ rfl, hc, hr, hp, hcd⟩
  route_other := by decide
  brokers_below := by decide
  brokers_known := by decide
  federates_below := by
    intro n hn _ fed hfed
    exact absurd hfed List.not_mem_nil
  federates_known _ _ _ _ _ h := nomatch h
  names := by decide
  plain := by decide

def lowerAsks : List QueryEvent :=
  [.setGlobal 1 "v" "5", .deliver (.own 1),
    .query 1879048193 .global "v", .deliver (.up 1879048193), .deliver (.down 1879048193),
    .query 1879048193 .parent "name", .deliver (.own 1879048193), .deliver (.up 1879048193),
    .deliver (.up 1879048192), .deliver (.down 1879048192), .deliver (.down 1879048193)]

theorem lowerAsks_run : (execute lineOfThree.step {} lowerAsks).map (fun net =>
    decide (net.flight = [] ∧ (net.states 1).globalValues = [("v", "5")] ∧
      net.asked 1879048193 = [(1, .global, "v"), (2, .parent, "name")] ∧
      (net.states 1879048193).results = [⟨1, 1879048192, "#invalid"⟩, ⟨2, 1, "main"⟩])) =
    some true := by
  decide +kernel

/-- The query for the global value is answered by the parent and the query for the parent by the
root. -/
theorem answered_by_others : ∃ net, lineOfThree.Runs {} lowerAsks net ∧ net.flight = [] ∧
    (net.states lineOfThree.root).globalValues = [("v", "5")] ∧
    net.asked 1879048193 = [(1, .global, "v"), (2, .parent, "name")] ∧
    (net.states 1879048193).results = [⟨1, 1879048192, "#invalid"⟩, ⟨2, 1, "main"⟩] ∧
    lineOfThree.named 1879048193 .global = 1 ∧
    lineOfThree.named 1879048193 .parent = 1879048192 := by
  obtain ⟨net, hnet, h⟩ := Option.map_eq_some_iff.mp lowerAsks_run
  obtain ⟨hf, hvalues, hasked, hresults⟩ := of_decide_eq_true h
  exact ⟨net, .of_execute hnet, hf, hvalues, hasked, hresults, rfl, rfl⟩

def upperAsks : List QueryEvent :=
  [.query 1879048192 .global "v", .deliver (.up 1879048192), .deliver (.down 1879048192)]

theorem upperAsks_run :
    (execute lineOfThree.step {} [.setGlobal 1 "v" "5", .deliver (.own 1)]).bind (fun net₁ =>
      (execute lineOfThree.step net₁ upperAsks).map fun net =>
        decide (net₁.flight = [] ∧ (net₁.states 1).globalValues = [("v", "5")] ∧
          net₁.asked 1879048192 = [] ∧ net.flight = [] ∧
          net.asked 1879048192 = [(1, .global, "v")])) = some true := by
  decide +kernel

theorem upper_answered_by_root : ∃ net₁ net,
    lineOfThree.Runs {} [.setGlobal 1 "v" "5", .deliver (.own 1)] net₁ ∧
    lineOfThree.Runs net₁ upperAsks net ∧
    ∃ r, repliesTo (net.states 1879048192) 1 = [r] ∧ r.sourceId = 1 ∧ r.payload = "5" := by
  obtain ⟨net₁, hnet₁, h⟩ := Option.bind_eq_some_iff.mp upperAsks_run
  obtain ⟨net, hnet, h⟩ := Option.map_eq_some_iff.mp h
  obtain ⟨hf₁, hvalues, hasked₁, hf, hasked⟩ := of_decide_eq_true h
  have hq : (1, .global, "v") ∈ net.asked 1879048192 := by
    rw [hasked]
    exact List.mem_singleton.mpr rfl
  have hnew : (1, .global, "v") ∉ net₁.asked 1879048192 := by
    rw [hasked₁]
    exact List.not_mem_nil
  have hset : Settled lineOfThree net₁ upperAsks "v" "5" := by
    refine ⟨?_, ?_, ?_⟩
    · change (net₁.states 1).globalValues.lookup "v" = some "5"
      rw [hvalues]
      rfl
    · rw [hf₁]
      exact fun x hx => absurd hx List.not_mem_nil
    · intro e he u value
      simp only [upperAsks, List.mem_cons, List.not_mem_nil, or_false] at he
      rcases he with rfl | rfl | rfl <;> exact nofun
  obtain ⟨-, -, hanswers⟩ := answered_by_named_iff lineOfThree (.of_execute hnet₁)
    (.of_execute hnet)
  obtain ⟨r, hr, hsrc, -, hpay⟩ :=
    (hanswers hf 1879048192 1 .global "v" hq).mpr ⟨.inr rfl, .inl rfl⟩
  exact ⟨net₁, net, .of_execute hnet₁, .of_execute hnet, r, hr, hsrc, hpay "5" rfl hnew hset⟩

end QueryTree

end Helics
