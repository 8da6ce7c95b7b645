import Helics.QueryNames

namespace Helics

section
open BrokerTables MapKind

/-- Whose query a message belongs to, the mark of its replies and its number. -/
abbrev QueryKey := GlobalId × UInt16 × Int

def QueryMessage.key (m : QueryMessage) : Option QueryKey :=
  match m.action with
  | .brokerQuery | .query => some (m.sourceId, m.counter, m.messageID)
  | .queryReply => some (m.destId, m.counter, m.messageID)
  | .setGlobal => none

namespace QueryMessage

variable {m : QueryMessage}

theorem key_query (ha : m.action = .brokerQuery ∨ m.action = .query) :
    m.key = some (m.sourceId, m.counter, m.messageID) := by
  unfold key
  obtain ha | ha := ha <;> rw [ha]

theorem key_reply (ha : m.action = .queryReply) :
    m.key = some (m.destId, m.counter, m.messageID) := by
  unfold key
  rw [ha]

theorem key_inj
    (h : some (a, c, i) = some (a', c', i')) : a = a' ∧ c = c' ∧ i = i' := by
  simpa using h

end QueryMessage

def tally (key : QueryKey) (l : List QueryMessage) : Nat :=
  l.countP fun m => decide (m.key = some key)

theorem tally_append (key : QueryKey) (l l' : List QueryMessage) :
    tally key (l ++ l') = tally key l + tally key l' :=
  List.countP_append

theorem tally_singleton (key : QueryKey) (m : QueryMessage) :
    tally key [m] = if m.key = some key then 1 else 0 := by
  unfold tally
  rw [List.countP_singleton]
  simp only [decide_eq_true_eq]

theorem tally_of_key (h : m.key = some k) (key : QueryKey) :
    tally key [m] = if key = k then 1 else 0 := by
  rw [tally_singleton, h]
  simp only [Option.some.injEq, eq_comm]

theorem tally_congr (h : m.key = m'.key) (key : QueryKey) : tally key [m] = tally key [m'] := by
  rw [tally_singleton, tally_singleton, h]

theorem tally_eq_zero (h : ∀ m ∈ l, m.key ≠ some key) : tally key l = 0 :=
  List.countP_eq_zero.mpr fun m hm => by simpa using h m hm

namespace MapKind

theorem ofRequest_request (kind : MapKind) : ofRequest kind.request = some kind := by
  cases kind <;> rfl

theorem ofCounter_counter (kind : MapKind) : ofCounter kind.counter = some kind := by
  cases kind <;> rfl

theorem ofCounter_eq (h : ofCounter mark = some kind) : mark = kind.counter := by
  unfold ofCounter at h
  split at h
  · cases h
    assumption
  split at h
  · cases h
    assumption
  · cases h

theorem counter_ne_zero (kind : MapKind) : kind.counter ≠ 0 := by
  cases kind <;> decide

end MapKind

namespace QueryState

/-- The messages of a query that wait at a broker for one of its maps. -/
def waiting (key : QueryKey) (s : QueryState) : Nat :=
  tally key (s.requestors .federates) + tally key (s.requestors .dependencies)

def got (n : GlobalId) (key : QueryKey) (s : QueryState) : Nat :=
  if key.1 = n ∧ key.2.1 = 0 then s.results.countP fun r => decide (r.messageID = key.2.2) else 0

/-- The components that the broker still needs for a map. -/
def owed (n : GlobalId) (key : QueryKey) (s : QueryState) : Nat :=
  if key.1 = n then
    match ofCounter key.2.1 with
    | some kind => (s.builder kind).missingComponents.countP fun c => decide (c.1 = key.2.2)
    | none => 0
  else 0

variable (s : QueryState)

@[simp] theorem got_requestors (f : MapKind → List QueryMessage) :
    got n key { s with requestors := f } = got n key s :=
  rfl

@[simp] theorem owed_requestors (f : MapKind → List QueryMessage) :
    owed n key { s with requestors := f } = owed n key s :=
  rfl

@[simp] theorem waiting_setDelayedValue (id : Int) (text : String)
    (src : GlobalId) : waiting key (setDelayedValue s id text src) = waiting key s :=
  rfl

@[simp] theorem owed_setDelayedValue (id : Int) (text : String)
    (src : GlobalId) : owed n key (setDelayedValue s id text src) = owed n key s :=
  rfl

theorem sum_update (g : MapKind → α) (w : α → Nat) (kind : MapKind) (a : α) :
    w (Function.update g kind a .federates) + w (Function.update g kind a .dependencies) +
      w (g kind) = w (g .federates) + w (g .dependencies) + w a := by
  cases kind with
  | federates =>
    rw [Function.update_self, Function.update_of_ne (by decide)]
    omega
  | dependencies =>
    rw [Function.update_self, Function.update_of_ne (by decide)]
    omega

theorem waiting_update (kind : MapKind) (l : List QueryMessage) (key : QueryKey) :
    waiting key { s with requestors := Function.update s.requestors kind l } +
      tally key (s.requestors kind) = waiting key s + tally key l :=
  sum_update s.requestors (tally key) kind l

theorem owed_update_self (kind : MapKind) (b : JsonMapBuilder) (n : GlobalId) (i : Int) :
    owed n (n, kind.counter, i) { s with builder := Function.update s.builder kind b } =
      b.missingComponents.countP fun c => decide (c.1 = i) := by
  unfold owed
  rw [if_pos rfl, ofCounter_counter]
  dsimp only
  rw [Function.update_self]

theorem owed_update_of_ne (b : JsonMapBuilder) (h : ¬ (key.1 = n ∧ key.2.1 = counter kind)) :
    owed n key { s with builder := Function.update s.builder kind b } = owed n key s := by
  unfold owed
  split
  · rename_i hn
    cases hk : ofCounter key.2.1 with
    | none => rfl
    | some kind' =>
      dsimp only
      rw [Function.update_of_ne]
      rintro rfl
      exact h ⟨hn, ofCounter_eq hk⟩
  · rfl

theorem owed_self (kind : MapKind) (n : GlobalId) (i : Int) : owed n (n, kind.counter, i) s =
      (s.builder kind).missingComponents.countP fun c => decide (c.1 = i) := by
  unfold owed
  rw [if_pos rfl, ofCounter_counter]

theorem got_result (n : GlobalId) (id : Int) (text : String) (src : GlobalId) (key : QueryKey) :
    got n key (setDelayedValue s id text src) =
      got n key s + if key = (n, 0, id) then 1 else 0 := by
  obtain ⟨k, c, i⟩ := key
  unfold got setDelayedValue
  by_cases hk : k = n ∧ c = 0
  · obtain ⟨rfl, rfl⟩ := hk
    rw [if_pos ⟨rfl, rfl⟩, if_pos ⟨rfl, rfl⟩, List.countP_append, List.countP_singleton]
    simp only [decide_eq_true_eq, Prod.mk.injEq, true_and, eq_comm (a := i)]
  rw [if_neg hk, if_neg hk, if_neg]
  rintro heq
  cases heq
  exact hk ⟨rfl, rfl⟩

end QueryState

end

open QueryState JsonMapBuilder

namespace BrokerTables

variable {b : BrokerTables}

/-- The messages of every query are as many after a step as before it, apart from those that have
arrived and those that the broker asks for itself. -/
def Conserves (n : GlobalId) (key : QueryKey) (s : QueryState) (m : QueryMessage)
    (r : QueryState × Sent) : Prop :=
  waiting key r.1 + tally key (r.2.map Prod.snd) + got n key r.1 + owed n key s =
    waiting key s + tally key [m] + got n key s + owed n key r.1

theorem initializeMap_eq (b : BrokerTables) (kind : MapKind) : b.initializeMap kind =
    ({ isActive := true
       missingComponents := (b.brokers.filter (b.asks kind)).zipIdx.map fun x =>
        ((x.2 : Int) + 2, if x.1.core then "cores" else "brokers") },
      (b.brokers.filter (b.asks kind)).zipIdx.map fun x =>
        (x.1.route, b.mapQuery kind (x.2 + 2) x.1)) := by
  unfold initializeMap
  induction b.brokers.filter (b.asks kind) using List.reverseRecOn with
  | nil => rfl
  | append_singleton l brk ih =>
    rw [List.foldl_append, ih]
    simp [generatePlaceHolder, List.zipIdx_append]

/-- A map that is started misses one component for each query that is sent. -/
structure MapStarted (b : BrokerTables) (kind : MapKind) (r : JsonMapBuilder × Sent) : Prop where
  active : r.1.isActive = true
  count : ∀ i, tally (b.globalBrokerIdLocal, kind.counter, i) (r.2.map Prod.snd) =
    r.1.missingComponents.countP fun c => decide (c.1 = i)
  sent : ∀ x ∈ r.2, ∃ brk ∈ b.brokers, ∃ i, x = (brk.route, b.mapQuery kind i brk)

theorem initializeMap_started (b : BrokerTables) (kind : MapKind) :
    MapStarted b kind (b.initializeMap kind) := by
  rw [initializeMap_eq]
  refine ⟨rfl, fun i => ?_, fun x hx => ?_⟩
  · unfold tally
    rw [List.map_map, List.countP_map, List.countP_map]
    refine List.countP_congr fun x _ => ?_
    simp [mapQuery, QueryMessage.key]
  · obtain ⟨y, hy, rfl⟩ := List.mem_map.mp hx
    exact ⟨y.1, (List.mem_filter.mp (List.fst_mem_of_mem_zipIdx hy)).1, _, rfl⟩

theorem MapStarted.tally_other (h : MapStarted b kind r)
    (hk : ¬ (key.1 = b.globalBrokerIdLocal ∧ key.2.1 = kind.counter)) :
    tally key (r.2.map Prod.snd) = 0 := by
  refine tally_eq_zero fun m hm heq => hk ?_
  obtain ⟨x, hx, rfl⟩ := List.mem_map.mp hm
  obtain ⟨brk, -, i, rfl⟩ := h.sent x hx
  cases heq
  exact ⟨rfl, rfl⟩

/-- What computing an answer does: nothing, or it starts one of the maps. -/
inductive Answered (b : BrokerTables) (s : QueryState) (request : String) :
    String × QueryState × Sent → Prop
  | ordinary (h : MapKind.ofRequest request = none) : Answered b s request (b.answer request, s, [])
  | ready (h : MapKind.ofRequest request = some kind) (hc : (s.builder kind).isCompleted = true) :
      Answered b s request (b.mapText kind (s.builder kind).parts, s, [])
  | busy (h : MapKind.ofRequest request = some kind) (ha : (s.builder kind).isActive = true)
      (hc : (s.builder kind).isCompleted = false) : Answered b s request ("#wait", s, [])
  | started (h : MapKind.ofRequest request = some kind) (ha : (s.builder kind).isActive = false)
      (ht : text = "#wait" ∧ (b.initializeMap kind).1.isCompleted = false ∨ text ≠ "#wait") :
      Answered b s request (text, { s with
        builder := (Function.update s.builder kind (b.initializeMap kind).1) },
        (b.initializeMap kind).2)

theorem generateQueryAnswer_answered (b : BrokerTables) (s : QueryState) (request : String) :
    Answered b s request (b.generateQueryAnswer s request) := by
  unfold generateQueryAnswer
  split
  · rename_i h
    exact .ordinary h
  rename_i kind h
  split
  · rename_i hc
    exact .ready h hc
  rename_i hc
  split
  · rename_i ha
    exact .busy h ha (Bool.eq_false_iff.mpr hc)
  rename_i ha
  dsimp only
  split
  · exact .started h (Bool.eq_false_iff.mpr ha) (.inr (b.mapText_ne _ _))
  · rename_i hc'
    exact .started h (Bool.eq_false_iff.mpr ha) (.inl ⟨rfl, Bool.eq_false_iff.mpr hc'⟩)

theorem missing_ne_nil {q : JsonMapBuilder} (ha : q.isActive = true) (hc : q.isCompleted = false) :
    q.missingComponents ≠ [] := by
  intro hnil
  unfold isCompleted at hc
  rw [ha, hnil] at hc
  cases hc

theorem Answered.waits (h : Answered b s request r) (hw : r.1 = "#wait")
    (hk : MapKind.ofRequest request = some kind) : (r.2.1.builder kind).missingComponents ≠ [] := by
  cases h with
  | ordinary h => cases hk.symm.trans h
  | ready h _ => exact absurd hw (b.mapText_ne _ _)
  | busy h ha hc =>
    cases hk.symm.trans h
    exact missing_ne_nil ha hc
  | started h _ ht =>
    cases hk.symm.trans h
    obtain ⟨-, hc⟩ | hne := ht
    · show (Function.update s.builder kind _ kind).missingComponents ≠ []
      rw [Function.update_self]
      exact missing_ne_nil (b.initializeMap_started kind).active hc
    · exact absurd hw hne

theorem Answered.counter (h : Answered b s request r) : r.2.1.queryCounter = s.queryCounter := by
  cases h <;> rfl

theorem MapStarted.owed (h : MapStarted b kind made) (s : QueryState)
    (ha : (s.builder kind).missingComponents = []) (key : QueryKey) : owed b.globalBrokerIdLocal key
        { s with builder := Function.update s.builder kind made.1 } =
      owed b.globalBrokerIdLocal key s + tally key (made.2.map Prod.snd) := by
  by_cases hk : key.1 = b.globalBrokerIdLocal ∧ key.2.1 = kind.counter
  · obtain ⟨n, c, i⟩ := key
    obtain ⟨rfl, rfl⟩ : n = b.globalBrokerIdLocal ∧ c = kind.counter := hk
    rw [owed_update_self, owed_self, ha, h.count]
    exact (Nat.zero_add _).symm
  · rw [owed_update_of_ne s made.1 hk, h.tally_other hk]
    rfl

/-- A builder that has not been started misses nothing. -/
def Idle (s : QueryState) : Prop :=
  ∀ kind, (s.builder kind).isActive = false → (s.builder kind).missingComponents = []

/-- The query would be dropped: the text computed for it is the one that means waiting. -/
def Unanswered (b : BrokerTables) (m : QueryMessage) : Prop :=
  b.passes m = none ∧ b.isLocal m ∧ MapKind.ofRequest m.payload = none ∧
    b.answer m.payload = "#wait"

theorem Answered.audible (h : Answered b s m.payload r) (hw : r.1 ≠ "#wait") :
    ¬ Unanswered b m := by
  rintro ⟨-, -, hnone, hwait⟩
  cases h with
  | ordinary _ => exact hw hwait
  | ready h _ => cases hnone.symm.trans h
  | busy h _ _ => cases hnone.symm.trans h
  | started h _ _ => cases hnone.symm.trans h

theorem Answered.owed (h : Answered b s request r) (hs : Idle s) (key : QueryKey) :
    r.2.1.requestors = s.requestors ∧ r.2.1.results = s.results ∧
      owed b.globalBrokerIdLocal key r.2.1 =
        owed b.globalBrokerIdLocal key s + tally key (r.2.2.map Prod.snd) := by
  cases h with
  | ordinary _ => exact ⟨rfl, rfl, rfl⟩
  | ready _ _ => exact ⟨rfl, rfl, rfl⟩
  | busy _ _ _ => exact ⟨rfl, rfl, rfl⟩
  | started _ ha _ => exact ⟨rfl, rfl, (b.initializeMap_started _).owed s (hs _ ha) key⟩

theorem waiting_eq (h : s'.requestors = s.requestors) (key : QueryKey) :
    waiting key s' = waiting key s := by
  unfold waiting
  rw [h]

theorem got_eq (h : s'.results = s.results) (n : GlobalId) (key : QueryKey) :
    got n key s' = got n key s := by
  unfold got
  rw [h]

theorem localReply_key (b : BrokerTables) (m : QueryMessage) (text : String)
    (ha : m.action = .brokerQuery ∨ m.action = .query) : (b.localReply m text).key = m.key := by
  rw [QueryMessage.key_query ha]
  rfl

/-- What becomes of a query that the broker answers itself, with the answer that it computes. -/
inductive LocalOutcome (b : BrokerTables) (m : QueryMessage) (a : String × QueryState × Sent) :
    QueryState × Sent → Prop
  | dropped (hw : a.1 = "#wait") (hk : MapKind.ofRequest m.payload = none) :
      LocalOutcome b m a (a.2.1, a.2.2)
  | held (hw : a.1 = "#wait") (hk : MapKind.ofRequest m.payload = some kind) :
      LocalOutcome b m a ({ a.2.1 with requestors :=
        (Function.update a.2.1.requestors kind (a.2.1.requestors kind ++ [b.localReply m a.1])) },
        a.2.2)
  | own (hw : a.1 ≠ "#wait") (hd : m.sourceId = b.globalBrokerIdLocal) :
      LocalOutcome b m a (setDelayedValue a.2.1 m.messageID a.1 b.globalBrokerIdLocal, a.2.2)
  | sent (hw : a.1 ≠ "#wait") (hd : m.sourceId ≠ b.globalBrokerIdLocal) :
      LocalOutcome b m a
        (a.2.1, a.2.2 ++ [(b.getRoute m.sourceId, b.localReply m a.1)])

theorem processLocalQuery_outcome (b : BrokerTables) (s : QueryState)
    (hvalid : m.sourceId ≠ invalidGlobalId) :
    LocalOutcome b m (b.generateQueryAnswer s m.payload) (b.processLocalQuery s m) := by
  unfold processLocalQuery
  by_cases hw : (b.generateQueryAnswer s m.payload).1 = "#wait"
  · rw [if_pos hw]
    cases hk : MapKind.ofRequest m.payload with
    | none => exact .dropped hw hk
    | some kind => exact .held hw hk
  rw [if_neg hw]
  have hroute : ∀ text, b.routeMessageTo (b.localReply m text) m.sourceId =
      [(b.getRoute m.sourceId, b.localReply m text)] := fun _ => if_neg hvalid
  rw [hroute]
  split
  · rename_i hd
    exact .own hw hd
  · rename_i hd
    exact .sent hw hd

/-- The owner of a query at its own broker is one of the broker's users. -/
def OwnUser (b : BrokerTables) (m : QueryMessage) : Prop :=
  m.sourceId = b.globalBrokerIdLocal → m.counter = 0

theorem processLocalQuery_conserves (hs : Idle s) (hq : m.action = .brokerQuery ∨ m.action = .query)
    (hown : OwnUser b m) (hvalid : m.sourceId ≠ invalidGlobalId) (hsil : m.key = some key →
      ¬ (MapKind.ofRequest m.payload = none ∧ b.answer m.payload = "#wait")) :
    Conserves b.globalBrokerIdLocal key s m (b.processLocalQuery s m) := by
  have hout := b.processLocalQuery_outcome s hvalid
  have hans := b.generateQueryAnswer_answered s m.payload
  obtain ⟨hreq, hres, howed⟩ := hans.owed hs key
  unfold Conserves
  generalize b.processLocalQuery s m = r at hout
  generalize b.generateQueryAnswer s m.payload = a at hout hans hreq hres howed
  have hw := waiting_eq hreq key
  have hg := got_eq hres b.globalBrokerIdLocal key
  have hrkey : ∀ text, tally key [b.localReply m text] = tally key [m] := fun text =>
    tally_congr (b.localReply_key m text hq) key
  cases hout with
  | dropped hwait hkind =>
    have hne : m.key ≠ some key := by
      intro hk
      refine hsil hk ⟨hkind, ?_⟩
      cases hans with
      | ordinary _ => exact hwait
      | ready h _ => cases hkind.symm.trans h
      | busy h _ _ => cases hkind.symm.trans h
      | started h _ _ => cases hkind.symm.trans h
    have hzero : tally key [m] = 0 := by rw [tally_singleton, if_neg hne]
    dsimp only
    omega
  | @held kind _ _ =>
    have hup := waiting_update a.2.1 kind (a.2.1.requestors kind ++ [b.localReply m a.1]) key
    rw [tally_append, hrkey] at hup
    simp only [got_requestors, owed_requestors]
    omega
  | own _ hd =>
    have hkey : m.key = some (b.globalBrokerIdLocal, 0, m.messageID) := by
      rw [QueryMessage.key_query hq, hd, hown hd]
    have hgot := got_result a.2.1 b.globalBrokerIdLocal m.messageID a.1 b.globalBrokerIdLocal key
    have hm := tally_of_key hkey key
    simp only [hgot, waiting_setDelayedValue, owed_setDelayedValue]
    omega
  | sent _ _ =>
    dsimp only
    rw [List.map_append, tally_append, List.map_singleton, hrkey]
    omega

theorem answerDirectly_conserves (hq : m.action = .query) (hc : m.counter = 0) (text : String) :
    Conserves b.globalBrokerIdLocal key s m (b.answerDirectly s m text) := by
  have hkey : m.key = some (m.sourceId, 0, m.messageID) := by
    rw [QueryMessage.key_query (.inr hq), hc]
  unfold answerDirectly Conserves
  dsimp only
  split
  · rename_i hd
    have hgot := got_result s b.globalBrokerIdLocal m.messageID text b.globalBrokerIdLocal key
    have hm := tally_of_key hkey key
    rw [hd] at hm
    simp only [hgot, hm, waiting_setDelayedValue, owed_setDelayedValue, List.map_nil]
    have hzero : tally key [] = 0 := rfl
    omega
  · rw [List.map_singleton, tally_of_key (k := (m.sourceId, 0, m.messageID)) rfl,
      tally_of_key hkey]

/-- A requestor whose reply is for the broker itself is one of its users. -/
structure Waits (b : BrokerTables) (r : QueryMessage) : Prop where
  action : r.action = .queryReply
  own : r.destId = b.globalBrokerIdLocal → r.counter = 0

theorem tally_map (f : QueryMessage → QueryMessage)
    (h : ∀ m ∈ l, (f m).key = m.key) (key : QueryKey) : tally key (l.map f) = tally key l := by
  unfold tally
  rw [List.countP_map]
  refine List.countP_congr fun m hm => ?_
  rw [Function.comp_apply, h m hm]

theorem tally_own (hl : ∀ r ∈ l, Waits b r)
    (hd : ∀ r ∈ l, r.destId = b.globalBrokerIdLocal) (key : QueryKey) :
    tally key l = if key.1 = b.globalBrokerIdLocal ∧ key.2.1 = 0 then
      l.countP fun r => decide (r.messageID = key.2.2) else 0 := by
  have hkey : ∀ r ∈ l, r.key = some (b.globalBrokerIdLocal, 0, r.messageID) := by
    intro r hr
    rw [QueryMessage.key_reply (hl r hr).action, hd r hr, (hl r hr).own (hd r hr)]
  obtain ⟨n, c, i⟩ := key
  split
  · rename_i h
    obtain ⟨rfl, rfl⟩ : n = b.globalBrokerIdLocal ∧ c = 0 := h
    refine List.countP_congr fun r hr => ?_
    rw [hkey r hr]
    simp
  · rename_i h
    refine tally_eq_zero fun r hr heq => h ?_
    rw [hkey r hr] at heq
    cases heq
    exact ⟨rfl, rfl⟩

theorem answerRequestors_sent (b : BrokerTables) (s : QueryState) (kind : MapKind)
    (key : QueryKey) : tally key ((b.answerRequestors s kind).2.map Prod.snd) =
      tally key ((s.requestors kind).filter fun r =>
        !decide (r.destId = b.globalBrokerIdLocal)) := by
  unfold answerRequestors routeMessage
  dsimp only
  rw [← List.map_eq_flatMap, List.map_map]
  apply tally_map
  exact fun _ _ => rfl

theorem answerRequestors_got (b : BrokerTables) (s : QueryState) (kind : MapKind)
    (key : QueryKey) : got b.globalBrokerIdLocal key (b.answerRequestors s kind).1 =
      got b.globalBrokerIdLocal key s + if key.1 = b.globalBrokerIdLocal ∧ key.2.1 = 0 then
          ((s.requestors kind).filter fun r =>
            decide (r.destId = b.globalBrokerIdLocal)).countP fun r =>
              decide (r.messageID = key.2.2) else 0 := by
  unfold answerRequestors got
  split
  · rw [List.countP_append, List.countP_map]
    rfl
  · rfl

theorem answerRequestors_conserves (s : QueryState) (kind : MapKind)
    (hr : ∀ r ∈ s.requestors kind, Waits b r) (key : QueryKey) :
    waiting key (b.answerRequestors s kind).1 +
        tally key ((b.answerRequestors s kind).2.map Prod.snd) +
        got b.globalBrokerIdLocal key (b.answerRequestors s kind).1 =
      waiting key s + got b.globalBrokerIdLocal key s := by
  have hwait : waiting key (b.answerRequestors s kind).1 + tally key (s.requestors kind) =
      waiting key s := waiting_update s kind [] key
  have hpart : tally key (s.requestors kind) =
      tally key ((s.requestors kind).filter fun r => decide (r.destId = b.globalBrokerIdLocal)) +
      tally key ((s.requestors kind).filter fun r => !decide (r.destId = b.globalBrokerIdLocal)) :=
    List.countP_eq_countP_filter_add _ _ _
  have hown := tally_own (b := b) (l := (s.requestors kind).filter fun r =>
      decide (r.destId = b.globalBrokerIdLocal))
    (fun r h => hr r (List.mem_filter.mp h).1)
    (fun r h => of_decide_eq_true (List.mem_filter.mp h).2) key
  have hsent := b.answerRequestors_sent s kind key
  have hgot := b.answerRequestors_got s kind key
  omega

theorem countP_eraseP {l : List (Int × String)} (h : ∃ c ∈ l, c.1 = i) (p : Int → Bool) :
    (l.eraseP fun c => decide (c.1 = i)).countP (fun c => p c.1) + (if p i then 1 else 0) =
      l.countP fun c => p c.1 := by
  obtain ⟨c, hc, heq⟩ := h
  obtain ⟨c', l₁, l₂, -, hc', rfl, herase⟩ :=
    List.exists_of_eraseP (p := fun c => decide (c.1 = i)) hc (decide_eq_true heq)
  rw [herase, List.countP_append, List.countP_append, List.countP_cons, of_decide_eq_true hc',
    Nat.add_assoc]

theorem addComponent_missing {q : JsonMapBuilder} (h : ∃ c ∈ q.missingComponents, c.1 = i)
    (info : String) : (q.addComponent info i).2.missingComponents =
        q.missingComponents.eraseP (fun c => decide (c.1 = i)) ∧
      (q.addComponent info i).2.isActive = q.isActive ∧
      (q.addComponent info i).1 = (q.addComponent info i).2.missingComponents.isEmpty := by
  unfold addComponent
  cases hf : q.missingComponents.find? (fun c => decide (c.1 = i)) with
  | none =>
    obtain ⟨c, hc, heq⟩ := h
    exact absurd heq (by simpa using List.find?_eq_none.mp hf c hc)
  | some c => exact ⟨rfl, rfl, rfl⟩

theorem processQueryResponse_conserves (ha : m.action = .queryReply)
    (hd : m.destId = b.globalBrokerIdLocal)
    (hc : m.counter = 0 ∨ ∃ kind, m.counter = MapKind.counter kind ∧
      ∃ c ∈ (s.builder kind).missingComponents, c.1 = m.messageID)
    (hr : ∀ kind, ∀ r ∈ s.requestors kind, Waits b r) :
    Conserves b.globalBrokerIdLocal key s m (b.processQueryResponse s m) := by
  have hkey : m.key = some (b.globalBrokerIdLocal, m.counter, m.messageID) := by
    rw [QueryMessage.key_reply ha, hd]
  have hm := tally_of_key hkey key
  have hnil : tally key [] = 0 := rfl
  unfold processQueryResponse Conserves
  obtain hz | ⟨kind, hk, hmiss⟩ := hc
  · -- a reply to one of the broker's users
    rw [hz] at hm ⊢
    have hgot := got_result s b.globalBrokerIdLocal m.messageID m.payload m.sourceId key
    have hnone : MapKind.ofCounter 0 = none := rfl
    rw [hnone]
    simp only [hgot, waiting_setDelayedValue, owed_setDelayedValue, List.map_nil]
    omega
  · -- a component of a map
    rw [hk, MapKind.ofCounter_counter]
    obtain ⟨hmissing, -, -⟩ := addComponent_missing hmiss m.payload
    dsimp only
    generalize hadd : (s.builder kind).addComponent m.payload m.messageID = added at hmissing
    have howed : owed b.globalBrokerIdLocal key
          { s with builder := Function.update s.builder kind added.2 } + tally key [m] =
        owed b.globalBrokerIdLocal key s := by
      by_cases hkk : key.1 = b.globalBrokerIdLocal ∧ key.2.1 = kind.counter
      · obtain ⟨n, c, i⟩ := key
        obtain ⟨rfl, rfl⟩ : n = b.globalBrokerIdLocal ∧ c = kind.counter := hkk
        rw [owed_update_self, owed_self, hmissing, hm, hk]
        rw [← countP_eraseP hmiss fun j => decide (j = i)]
        simp only [Prod.mk.injEq, true_and, decide_eq_true_eq, eq_comm (a := i)]
      · rw [owed_update_of_ne s added.2 hkk, hm, if_neg]
        · rfl
        · rintro rfl
          exact hkk ⟨rfl, hk⟩
    have hwait : waiting key { s with builder := Function.update s.builder kind added.2 } =
      waiting key s := rfl
    have hgot : got b.globalBrokerIdLocal key
        { s with builder := Function.update s.builder kind added.2 } =
      got b.globalBrokerIdLocal key s := rfl
    split
    · have hans := answerRequestors_conserves
        { s with builder := Function.update s.builder kind added.2 } kind (hr kind) key
      have hsame : owed b.globalBrokerIdLocal key (b.answerRequestors
          { s with builder := Function.update s.builder kind added.2 } kind).1 =
        owed b.globalBrokerIdLocal key
          { s with builder := Function.update s.builder kind added.2 } := rfl
      omega
    · simp only [hwait, hgot, List.map_nil]
      omega

end BrokerTables

end Helics
