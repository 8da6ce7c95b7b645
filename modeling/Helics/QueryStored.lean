import Helics.QueryCalls

namespace Helics

/-- What the replies among some messages say to whom. -/
def Says (P : QueryKey → String → Prop) (l : List (α × QueryMessage)) : Prop :=
  ∀ x ∈ l, x.2.action = .queryReply → P (x.2.destId, x.2.counter, x.2.messageID) x.2.payload

namespace BrokerTables

open QueryState

variable {b : BrokerTables} {P : QueryKey → String → Prop} {Text : MapKind → String → Prop}

section
variable (h : Answered b s request r)
include h

theorem Answered.values : r.2.1.globalValues = s.globalValues := by
  cases h <;> rfl

theorem Answered.kept_results : r.2.1.results = s.results ∧ r.2.1.requestors = s.requestors := by
  cases h <;> exact ⟨rfl, rfl⟩

theorem Answered.queries : ∀ x ∈ r.2.2, x.2.action = .brokerQuery := by
  cases h with
  | ordinary _ => exact List.forall_mem_nil _
  | ready _ _ => exact List.forall_mem_nil _
  | busy _ _ _ => exact List.forall_mem_nil _
  | started _ _ _ =>
    intro x hx
    obtain ⟨brk, -, i, rfl⟩ := (b.initializeMap_started _).sent x hx
    rfl

end

theorem generateQueryAnswer_text (b : BrokerTables) (s : QueryState) (request : String) :
    (b.generateQueryAnswer s request).1 = "#wait" ∨ MapKind.ofRequest request = none ∧
        (b.generateQueryAnswer s request).1 = b.answer request ∨
      ∃ kind, MapKind.ofRequest request = some kind ∧
        ((b.generateQueryAnswer s request).2.1.builder kind).isCompleted = true ∧
        (b.generateQueryAnswer s request).1 =
          b.mapText kind ((b.generateQueryAnswer s request).2.1.builder kind).parts := by
  unfold generateQueryAnswer
  split
  · rename_i h
    exact .inr (.inl ⟨h, rfl⟩)
  rename_i kind h
  split
  · rename_i hc
    exact .inr (.inr ⟨kind, h, hc, rfl⟩)
  split
  · exact .inl rfl
  dsimp only
  split
  · rename_i hc
    refine .inr (.inr ⟨kind, h, ?_⟩)
    dsimp only
    rw [Function.update_self]
    exact ⟨hc, rfl⟩
  · exact .inl rfl

/-- What the replies at a broker say; those that wait for a map may be given any text of it. -/
structure Speaks (P : QueryKey → String → Prop) (Text : MapKind → String → Prop) (n : GlobalId)
    (s : QueryState) : Prop where
  held : ∀ kind, ∀ q ∈ s.requestors kind, ∀ text, Text kind text →
    P (q.destId, q.counter, q.messageID) text
  results : ∀ q ∈ s.results, P (n, 0, q.messageID) q.payload

/-- Every map that is complete has a text that may be given. -/
def Complete (Text : MapKind → String → Prop) (b : BrokerTables) (s : QueryState) : Prop :=
  ∀ kind, (s.builder kind).isCompleted = true → Text kind (b.mapText kind (s.builder kind).parts)

/-- The answers of a broker to a query that it keeps say what they are to say. -/
structure Tells (P : QueryKey → String → Prop) (Text : MapKind → String → Prop) (b : BrokerTables)
    (s : QueryState) (m : QueryMessage) : Prop where
  plain : b.isLocal m → MapKind.ofRequest m.payload = none →
    P (m.sourceId, m.counter, m.messageID) (b.answer m.payload)
  map : b.isLocal m → ∀ kind, MapKind.ofRequest m.payload = some kind → ∀ text, Text kind text →
    P (m.sourceId, m.counter, m.messageID) text
  direct : ¬ b.isLocal m → ∀ text,
    (m.target = "global" → text = b.globalAnswer s.globalValues m.payload) →
    P (m.sourceId, m.counter, m.messageID) text

section
variable (hs : Speaks P Text b.globalBrokerIdLocal s)
include hs

theorem Speaks.answered (hown : OwnUser b m)
    (hvalid : m.sourceId ≠ invalidGlobalId) (hlocal : b.isLocal m) (ht : Tells P Text b s m)
    (hc : Complete Text b (b.processLocalQuery s m).1) :
    Speaks P Text b.globalBrokerIdLocal (b.processLocalQuery s m).1 ∧
      Says P (b.processLocalQuery s m).2 := by
  have hout := b.processLocalQuery_outcome s hvalid
  have hans := b.generateQueryAnswer_answered s m.payload
  have htext := b.generateQueryAnswer_text s m.payload
  generalize b.processLocalQuery s m = r at hout hc
  generalize b.generateQueryAnswer s m.payload = a at hout hans htext
  obtain ⟨hres, hreq⟩ := hans.kept_results
  have hkept : Speaks P Text b.globalBrokerIdLocal a.2.1 :=
    ⟨by rw [hreq]; exact hs.held, by rw [hres]; exact hs.results⟩
  have hsent : Says P a.2.2 := by
    intro x hx hact
    rw [hans.queries x hx] at hact
    cases hact
  have hsay (hw : a.1 ≠ "#wait") (hbuilder : r.1.builder = a.2.1.builder) :
      P (m.sourceId, m.counter, m.messageID) a.1 := by
    obtain hwait | ⟨hnone, heq⟩ | ⟨kind, hkind, hdone, heq⟩ := htext
    · exact absurd hwait hw
    · rw [heq]
      exact ht.plain hlocal hnone
    · rw [heq]
      rw [← hbuilder] at hdone ⊢
      exact ht.map hlocal kind hkind _ (hc kind hdone)
  cases hout with
  | dropped _ _ => exact ⟨hkept, hsent⟩
  | @held kind _ hk =>
    refine ⟨⟨?_, hkept.results⟩, hsent⟩
    exact (Function.forall_update_iff a.2.1.requestors fun kind l => ∀ q ∈ l, ∀ text,
      Text kind text → P (q.destId, q.counter, q.messageID) text).mpr
        ⟨List.forall_mem_append.mpr ⟨hkept.held kind,
          List.forall_mem_singleton.mpr (ht.map hlocal kind hk)⟩, fun k _ => hkept.held k⟩
  | own hw hd =>
    have hfirst := hsay hw rfl
    rw [hd, hown hd] at hfirst
    exact ⟨⟨hkept.held, List.forall_mem_append.mpr
      ⟨hkept.results, List.forall_mem_singleton.mpr hfirst⟩⟩, hsent⟩
  | sent hw _ =>
    exact ⟨hkept, List.forall_mem_append.mpr
      ⟨hsent, List.forall_mem_singleton.mpr fun _ => hsay hw rfl⟩⟩

theorem Speaks.direct (hc : m.counter = 0) (h : P (m.sourceId, m.counter, m.messageID) text) :
    Speaks P Text b.globalBrokerIdLocal (b.answerDirectly s m text).1 ∧
      Says P (b.answerDirectly s m text).2 := by
  rw [hc] at h
  unfold answerDirectly
  dsimp only
  split
  · rename_i hd
    exact ⟨⟨hs.held, List.forall_mem_append.mpr
      ⟨hs.results, List.forall_mem_singleton.mpr (hd ▸ h)⟩⟩, List.forall_mem_nil _⟩
  · exact ⟨hs, List.forall_mem_singleton.mpr fun _ => h⟩

theorem Speaks.requestors (hr : ∀ r ∈ s.requestors kind, Waits b r)
    (ht : Text kind (b.mapText kind (s.builder kind).parts)) :
    Speaks P Text b.globalBrokerIdLocal (b.answerRequestors s kind).1 ∧
      Says P (b.answerRequestors s kind).2 := by
  unfold answerRequestors routeMessage
  refine ⟨⟨(Function.forall_update_iff s.requestors fun kind l => ∀ q ∈ l, ∀ text, Text kind text →
      P (q.destId, q.counter, q.messageID) text).mpr
        ⟨List.forall_mem_nil _, fun k _ => hs.held k⟩,
    List.forall_mem_append.mpr ⟨hs.results, fun r h => ?_⟩⟩, fun x hx _ => ?_⟩
  · obtain ⟨q, hq, rfl⟩ := List.mem_map.mp h
    obtain ⟨hmem, hd⟩ := List.mem_filter.mp hq
    have hd : q.destId = b.globalBrokerIdLocal := of_decide_eq_true hd
    have hsay := hs.held kind q hmem _ ht
    rw [hd, (hr q hmem).own hd] at hsay
    exact hsay
  · obtain ⟨q, hq, hx⟩ := List.mem_flatMap.mp hx
    rw [List.mem_singleton.mp hx]
    exact hs.held kind q (List.mem_filter.mp hq).1 _ ht

end

theorem addComponent_completed {q : JsonMapBuilder}
    (hidle : q.isActive = false → q.missingComponents = [])
    (h : (q.addComponent info i).1 = true) : (q.addComponent info i).2.isCompleted = true := by
  unfold JsonMapBuilder.addComponent at h ⊢
  cases hf : q.missingComponents.find? (fun c => decide (c.1 = i)) with
  | none =>
    rw [hf] at h
    cases h
  | some c =>
    rw [hf] at h
    have hactive : q.isActive = true := by
      by_contra hno
      rw [hidle (Bool.eq_false_iff.mpr hno)] at hf
      cases hf
    unfold JsonMapBuilder.isCompleted
    dsimp only at h ⊢
    rw [hactive, h]
    rfl

theorem Speaks.response (hs : Speaks P Text b.globalBrokerIdLocal s) (hidle : Idle s)
    (hr : ∀ kind, ∀ r ∈ s.requestors kind, Waits b r)
    (hm : m.counter = 0 → P (b.globalBrokerIdLocal, 0, m.messageID) m.payload)
    (hcount : m.counter = 0 ∨ ∃ kind, m.counter = MapKind.counter kind)
    (hc : Complete Text b (b.processQueryResponse s m).1) :
    Speaks P Text b.globalBrokerIdLocal (b.processQueryResponse s m).1 ∧
      Says P (b.processQueryResponse s m).2 := by
  revert hc
  unfold processQueryResponse
  obtain hz | ⟨kind, hk⟩ := hcount
  · rw [hz]
    intro _
    exact ⟨⟨hs.held, List.forall_mem_append.mpr
      ⟨hs.results, List.forall_mem_singleton.mpr (hm hz)⟩⟩, List.forall_mem_nil _⟩
  rw [hk, MapKind.ofCounter_counter]
  dsimp only
  split
  · rename_i hlast
    intro hc
    have hbuilt : Speaks P Text b.globalBrokerIdLocal { s with builder :=
        (Function.update s.builder kind
          ((s.builder kind).addComponent m.payload m.messageID).2) } :=
      ⟨hs.held, hs.results⟩
    refine hbuilt.requestors (hr kind) (hc kind ?_)
    show (Function.update s.builder kind _ kind).isCompleted = true
    rw [Function.update_self]
    exact addComponent_completed (hidle kind) hlast
  · exact fun _ => ⟨⟨hs.held, hs.results⟩, List.forall_mem_nil _⟩

end BrokerTables

namespace QueryTree

open BrokerTables QueryState

variable {t : QueryTree} {P : QueryKey → String → Prop} {Text : GlobalId → MapKind → String → Prop}

structure Spread (t : QueryTree) (P : QueryKey → String → Prop)
    (Text : GlobalId → MapKind → String → Prop) (net : QueryNet) : Prop where
  flight : Says P net.flight
  brokers : ∀ n, t.isBroker n → Speaks P (Text n) n (net.states n)

theorem Handling.speaks {Text : MapKind → String → Prop} (h : Handling t asked n s m r)
    (hn : t.isBroker n) (hs : BrokerSound t asked n s) (hsp : Speaks P Text n s)
    (hm : m.action = .queryReply → P (m.destId, m.counter, m.messageID) m.payload)
    (ht : Kept t asked n m → (t.tables n).passes m = none → Tells P Text (t.tables n) s m)
    (hc : Complete Text (t.tables n) r.1) : Speaks P Text n r.1 ∧ Says P r.2 := by
  have hsp' : Speaks P Text (t.tables n).globalBrokerIdLocal s := by
    rw [id_eq hn]
    exact hsp
  rw [← id_eq hn]
  cases h with
  | passed _ _ _ => exact ⟨hsp', List.forall_mem_singleton.mpr hm⟩
  | answered hk hp hlocal => exact hsp'.answered (hk.own hn) hk.valid hlocal (ht hk hp) hc
  | direct hk hp hlocal _ hz hg => exact hsp'.direct hz ((ht hk hp).direct hlocal _ hg)
  | response ha hd hr =>
    refine hsp'.response hs.idle (fun kind q hq => (hs.held kind q hq).waits hn) (fun hz => ?_)
      (hr.imp_left And.left) hc
    have hsay := hm ha
    rw [hz, hd, ← id_eq hn] at hsay
    exact hsay
  | stored _ => exact ⟨⟨hsp'.held, hsp'.results⟩, List.forall_mem_nil _⟩

theorem says_emit (hl : Says P l) (h : Says P sent)
    (n : GlobalId) : Says P (l ++ t.emit n sent) := by
  refine List.forall_mem_append.mpr ⟨hl, fun x hx => ?_⟩
  obtain ⟨y, hy, -, heq⟩ := mem_emit hx
  rw [heq]
  exact h y hy

section
variable (h : Spread t P Text net)
include h

theorem Spread.deliver (hs : Sound t net) (hstep : t.step net (.deliver link) = some net')
    (ht : ∀ m, (link, m) ∈ net.flight → t.isBroker (t.endOf link) →
      Kept t net.asked (t.endOf link) m → (t.tables (t.endOf link)).passes m = none →
      Tells P (Text (t.endOf link)) (t.tables (t.endOf link)) (net.states (t.endOf link)) m)
    (hcore : ∀ m r, (link, m) ∈ net.flight → t.isCore (t.endOf link) = true →
      CoreReply t net.asked (t.endOf link) m r → P (m.sourceId, m.counter, m.messageID) r.payload)
    (hc : ∀ n, t.isBroker n → Complete (Text n) (t.tables n) (net'.states n)) :
    Spread t P Text net' := by
  obtain ⟨m, l, hd, hm, ⟨hk, rfl⟩ | ⟨r, hn, hr, -, rfl⟩⟩ := hs.step_deliver hstep
  · obtain ⟨q, hproc, hq⟩ := hm.core hk
    rw [hproc]
    refine ⟨says_emit (fun x hx => h.flight x (hd.of_rest hx))
      (List.forall_mem_singleton.mpr fun _ => ?_) _, h.brokers⟩
    rw [hq.key]
    exact hcore m q hd.mem hk hq
  · have hself := hc _ hn
    dsimp only at hself
    rw [Function.update_self] at hself
    obtain ⟨hspeaks, hsays⟩ := hr.speaks hn (hs.brokers _ hn) (h.brokers _ hn)
      (h.flight _ hd.mem) (ht m hd.mem hn) hself
    refine ⟨says_emit (fun x hx => h.flight x (hd.of_rest hx)) hsays _, ?_⟩
    exact (Function.forall_update_iff net.states fun n s =>
      t.isBroker n → Speaks P (Text n) n s).mpr ⟨fun _ => hspeaks, fun n _ => h.brokers n⟩

theorem Spread.query (hs : Sound t net)
    (hstep : t.step net (.query u target request) = some net')
    (hmono : ∀ key text, (key.2.1 = 0 → ∃ target request, (key.2.2, target, request) ∈
      net.asked key.1) → P key text → P' key text) : Spread t P' Text net' := by
  obtain ⟨hu, -, out, m₀, hfirst, rfl⟩ := step_query hstep
  have hact := (first_user hfirst).action
  refine ⟨List.forall_mem_append.mpr ⟨fun x hx ha => hmono _ _ (fun hz => ?_) (h.flight x hx ha),
    List.forall_mem_singleton.mpr fun ha => ?_⟩, fun n hn => ?_⟩
  · have hz : x.2.counter = 0 := hz
    refine (hs.flight x hx).was_asked ?_
    rw [QueryMessage.key_reply ha, hz]
  · rw [show m₀.action = .queryReply from ha] at hact
    obtain hact | hact := hact <;> cases hact
  · obtain ⟨c, heq, -⟩ := states_asking net u target request out
      { m₀ with messageID := (net.states u).queryCounter + 1, payload := request } n
    rw [heq]
    refine ⟨fun kind q hq text htext => hmono _ _ (fun hz => ?_)
        ((h.brokers n hn).held kind q hq text htext),
      fun q hq => hmono _ _ (fun _ => ((hs.brokers n hn).results q hq).was_asked)
        ((h.brokers n hn).results q hq)⟩
    have hheld := (hs.brokers n hn).held kind q hq
    have hz : q.counter = 0 := hz
    refine hheld.was_asked ?_
    rw [QueryMessage.key_reply hheld.action, hz]

theorem Spread.setGlobal
    (hstep : t.step net (.setGlobal u name value) = some net') : Spread t P Text net' := by
  obtain ⟨-, rfl⟩ := step_setGlobal hstep
  exact ⟨List.forall_mem_append.mpr ⟨h.flight, List.forall_mem_singleton.mpr nofun⟩, h.brokers⟩

end

end QueryTree

theorem BrokerTables.lookup_setGlobalValue (h : name ≠ other) (values : List (String × String))
    (value : String) : (setGlobalValue values other value).lookup name = values.lookup name := by
  unfold setGlobalValue
  induction values with
  | nil =>
    have hb : (name == other) = false := beq_eq_false_iff_ne.mpr h
    rw [List.filter_nil, List.nil_append, List.lookup_cons, hb]
  | cons v values ih =>
    by_cases hv : v.1 ≠ other
    · rw [List.filter_cons_of_pos (by simpa using hv), List.cons_append, List.lookup_cons,
        List.lookup_cons, ih]
    · have hb : (name == v.1) = false := beq_eq_false_iff_ne.mpr (not_not.mp hv ▸ h)
      rw [List.filter_cons_of_neg (by simpa using hv), ih, List.lookup_cons, hb]

namespace QueryTree

open BrokerTables QueryState

variable {t : QueryTree}

theorem Handling.values (h : Handling t asked n s m r) (hs : BrokerSound t asked n s) :
    (r.1.globalValues = s.globalValues ∨ m.action = .setGlobal ∧
        r.1.globalValues = setGlobalValue s.globalValues m.payload m.target) ∧
      ∀ x ∈ r.2, x.2.action = .setGlobal → x.2 = m := by
  cases h with
  | passed _ _ _ => exact ⟨.inl rfl, List.forall_mem_singleton.mpr fun _ => rfl⟩
  | answered hk _ _ =>
    have hout := (t.tables n).processLocalQuery_outcome s hk.valid
    have hans := (t.tables n).generateQueryAnswer_answered s m.payload
    generalize (t.tables n).processLocalQuery s m = r at hout
    generalize (t.tables n).generateQueryAnswer s m.payload = a at hout hans
    have hsent : ∀ x ∈ a.2.2, x.2.action = .setGlobal → x.2 = m := by
      intro x hx hact
      rw [hans.queries x hx] at hact
      cases hact
    cases hout with
    | dropped _ _ => exact ⟨.inl hans.values, hsent⟩
    | held _ _ => exact ⟨.inl hans.values, hsent⟩
    | own _ _ => exact ⟨.inl hans.values, hsent⟩
    | sent _ _ =>
      exact ⟨.inl hans.values,
        List.forall_mem_append.mpr ⟨hsent, List.forall_mem_singleton.mpr nofun⟩⟩
  | direct _ _ _ _ _ _ =>
    unfold answerDirectly
    dsimp only
    split
    · exact ⟨.inl rfl, List.forall_mem_nil _⟩
    · exact ⟨.inl rfl, List.forall_mem_singleton.mpr nofun⟩
  | response _ _ _ =>
    unfold processQueryResponse
    split
    · exact ⟨.inl rfl, List.forall_mem_nil _⟩
    dsimp only
    split
    · refine ⟨.inl rfl, fun x hx hact => ?_⟩
      obtain ⟨q, hq, hx⟩ := List.mem_flatMap.mp hx
      rw [List.mem_singleton.mp hx] at hact
      cases ((hs.held _ q (List.mem_filter.mp hq).1).action).symm.trans hact
    · exact ⟨.inl rfl, List.forall_mem_nil _⟩
  | stored ha => exact ⟨.inr ⟨ha, rfl⟩, List.forall_mem_nil _⟩

/-- A query for a global value that was asked later and reaches the root. -/
structure Late (t : QueryTree) (name : String) (since : GlobalId → Int)
    (asked : GlobalId → List (Int × QueryTarget × String)) (u : GlobalId) (id : Int) : Prop where
  after : since u < id
  asked : (id, .global, name) ∈ asked u
  reaches : t.asksAt u = t.root

def Carries (t : QueryTree) (name value : String) (since : GlobalId → Int)
    (asked : GlobalId → List (Int × QueryTarget × String)) (key : QueryKey)
    (text : String) : Prop :=
  key.2.1 = 0 → t.Late name since asked key.1 key.2.2 → text = value

/-- The root has stored a value, nobody sets it again, and the replies to later queries carry it. -/
structure Stores (t : QueryTree) (name value : String) (since : GlobalId → Int)
    (net : QueryNet) : Prop where
  stored : (net.states t.root).globalValues.lookup name = some value
  unset : ∀ x ∈ net.flight, x.2.action = .setGlobal → x.2.payload ≠ name
  spread : Spread t (t.Carries name value since net.asked) (fun _ _ _ => True) net

theorem Tracked.late (hm : Tracked t net.asked n m) (hs : Sound t net)
    (hq : m.action = .brokerQuery ∨ m.action = .query) (hc : m.counter = 0)
    (hl : t.Late name since net.asked m.sourceId m.messageID) :
    m.payload = name ∧ m.target = "global" ∧ ¬ (t.tables t.root).isLocal m ∧
      ∃ k, Heads t m n t.root k := by
  obtain ⟨hb, -, target, a, m₀, k, hasked, ha, hal, hh⟩ | ⟨-, -, -, kind, k, hcount, -, -⟩ :=
    hm.query hq
  · obtain ⟨rfl, hpay⟩ := asked_unique hs hasked hl.asked
    obtain ⟨m₁, hout⟩ := outcome_global hb
    obtain ⟨rfl, rfl⟩ := ha.unique hout.answers
    obtain ⟨out, k', hf, -⟩ := ha
    cases (first_global hb).symm.trans hf
    have hroot := hl.reaches
    refine ⟨hpay, hal.target, fun h => (hout.locally hroot).mp ?_ rfl, k, hroot ▸ hh⟩
    rw [hroot]
    exact hal.isLocal.mp h
  · exact absurd (hcount.symm.trans hc) kind.counter_ne_zero

theorem Stores.tells (h : Stores t name value since net) (hs : Sound t net)
    (hm : Tracked t net.asked n m) (hn : t.isBroker n) (hk : Kept t net.asked n m)
    (hp : (t.tables n).passes m = none) :
    Tells (t.Carries name value since net.asked)
    (fun _ _ => True) (t.tables n) (net.states n) m := by
  have hlate (hc : m.counter = 0) (hl : t.Late name since net.asked m.sourceId m.messageID) :
      n = t.root ∧ ¬ (t.tables n).isLocal m ∧ m.target = "global" ∧ m.payload = name := by
    obtain ⟨hpay, htarget, hlocal, k, hh⟩ := hm.late hs hk.action hc hl
    obtain rfl := hh.kept hn hp
    exact ⟨rfl, hlocal, htarget, hpay⟩
  refine ⟨fun hlocal _ hc hl => absurd hlocal (hlate hc hl).2.1,
    fun hlocal _ _ _ _ hc hl => absurd hlocal (hlate hc hl).2.1, fun _ text hg hc hl => ?_⟩
  obtain ⟨hroot, -, htarget, hpay⟩ := hlate hc hl
  rw [hg htarget]
  unfold globalAnswer
  rw [hpay, hroot, h.stored]

theorem Stores.deliver (h : Stores t name value since net) (hs : Sound t net)
    (hstep : t.step net (.deliver link) = some net') : Stores t name value since net' := by
  obtain ⟨m, l, hd, hm, hnext⟩ := hs.step_deliver hstep
  have hrest (sent : Sent) (hset : ∀ x ∈ sent, x.2.action = .setGlobal → x.2 = m) :
      ∀ x ∈ l ++ t.emit (t.endOf link) sent, x.2.action = .setGlobal → x.2.payload ≠ name := by
    refine List.forall_mem_append.mpr ⟨fun x hx => h.unset x (hd.of_rest hx), fun x hx hact => ?_⟩
    obtain ⟨y, hy, -, heq⟩ := mem_emit hx
    rw [heq] at hact ⊢
    have hsame := hset y hy hact
    rw [hsame] at hact ⊢
    exact h.unset _ hd.mem hact
  have hspread : Spread t (t.Carries name value since net.asked) (fun _ _ _ => True) net' := by
    refine h.spread.deliver hs hstep (fun m' hx hn hk hp => h.tells hs (hs.flight _ hx) hn hk hp)
      (fun m' r hx hc hr hz hl => ?_) fun _ _ _ _ => trivial
    obtain ⟨-, -, -, k, hh⟩ := (hs.flight _ hx).late hs hr.query hz hl
    exact absurd (hh.at_core hc ▸ hc) (not_isCore t.root_isBroker)
  obtain ⟨hc, rfl⟩ | ⟨r, hn, hr, -, rfl⟩ := hnext
  · refine ⟨h.stored, hrest _ fun x hx hact => ?_, hspread⟩
    obtain ⟨q, hproc, hq⟩ := hm.core hc
    rw [hproc] at hx
    rw [List.mem_singleton.mp hx, hq.action] at hact
    cases hact
  · obtain ⟨hvalues, hset⟩ := hr.values (hs.brokers _ hn)
    have hkeep : ∀ n, (Function.update net.states (t.endOf link) r.1 n).globalValues.lookup name =
        (net.states n).globalValues.lookup name := by
      refine (Function.forall_update_iff net.states fun n s =>
        s.globalValues.lookup name = (net.states n).globalValues.lookup name).mpr
          ⟨?_, fun _ _ => rfl⟩
      obtain heq | ⟨hact, heq⟩ := hvalues
      · rw [heq]
      · rw [heq]
        exact lookup_setGlobalValue (Ne.symm (h.unset _ hd.mem hact)) _ _
    exact ⟨(hkeep _).trans h.stored, hrest _ hset, hspread⟩

theorem Late.before {id : Int}
    (hl : t.Late name since (asking net u target request out m).asked v id)
    (hs : Sound t net) (hm : m.messageID = (net.states u).queryCounter + 1)
    (hasked : ∃ target request, (id, target, request) ∈ net.asked v) :
    t.Late name since net.asked v id := by
  exact ⟨hl.after, hs.asked_before hm hl.asked hasked, hl.reaches⟩

theorem Stores.step (h : Stores t name value since net) (hs : Sound t net)
    (he : ∀ u value, e ≠ .setGlobal u name value) (hstep : t.step net e = some net') :
    Stores t name value since net' := by
  cases e with
  | query u target request =>
    obtain ⟨-, -, out, m₀, hfirst, rfl⟩ := step_query hstep
    have hact := (first_user hfirst).action
    refine ⟨?_, List.forall_mem_append.mpr ⟨h.unset, List.forall_mem_singleton.mpr fun hset => ?_⟩,
      h.spread.query hs hstep fun key text hasked hsay hz hl =>
        hsay hz (hl.before hs rfl (hasked hz))⟩
    · obtain ⟨c, heq, -⟩ := states_asking net u target request out _ t.root
      rw [heq]
      exact h.stored
    · rw [show m₀.action = .setGlobal from hset] at hact
      obtain hact | hact := hact <;> cases hact
  | setGlobal u other value' =>
    obtain ⟨-, rfl⟩ := step_setGlobal hstep
    refine ⟨h.stored, List.forall_mem_append.mpr ⟨h.unset,
      List.forall_mem_singleton.mpr fun _ heq => ?_⟩, h.spread.setGlobal hstep⟩
    exact he u value' (by rw [← heq]; rfl)
  | deliver link => exact h.deliver hs hstep

end QueryTree

end Helics
