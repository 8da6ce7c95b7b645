import Mathlib.Data.List.Nodup
import Helics.ForwardingTimeCoordinator
import Helics.Invariants
import Helics.TimeCoordinator
import Helics.WireRoundTrip

namespace Helics

namespace WireMessage

def cmdIgnore : Int32 := 0

def cmdTick : Int32 := 1

def cmdStop : Int32 := 30

def cmdTerminateImmediately : Int32 := 31

def getString (m : WireMessage) (index : Nat) : List UInt8 := m.stringData.getD index []

/-- Strings beyond the index of a byte cannot be set. -/
def setString (m : WireMessage) (index : Nat) (str : List UInt8) : Option WireMessage :=
  if index < 256 then
    some { m with stringData :=
      (if m.stringData.length ≤ index then resize m.stringData (index + 1)
        else m.stringData).set index str }
  else none

/-- The number of messages packed so far, or `-1` when there is no room for another one. -/
def appendMessage (le : Bool) (m newMessage : WireMessage) : Int × WireMessage :=
  if m.messageAction = cmdMultiMessage ∧ m.counter < 255 then
    match m.setString m.counter.toNat (newMessage.toBytes le) with
    | some m' => (m.counter.toNat + 1, { m' with counter := m.counter + 1 })
    | none => (-1, m)
  else (-1, m)

/-- The messages packed into one are processed in turn, until one of them ends the processing. -/
def unpackStrings (le : Bool) (process : WireMessage → Option (List WireMessage × Int32)) :
    List (List UInt8) → Option (List WireMessage × Int32)
  | [] => some ([], cmdIgnore)
  | str :: strs => (fromByteArray le {} str).bind fun r =>
      (process r.2).bind fun p =>
        if p.2 ≠ cmdIgnore ∧ p.2 ≠ cmdTick then some p
        else (unpackStrings le process strs).map fun q => (p.1 ++ q.1, q.2)

/-- The commands that are handed to the processing functions and the action that ends the loop, or
nothing when decoding throws. Packed messages may be nested up to the given depth. -/
def processNested (le : Bool) : Nat → WireMessage → Option (List WireMessage × Int32)
  | 0, _ => some ([], cmdIgnore)
  | depth + 1, command =>
    if command.messageAction = cmdIgnore then some ([], cmdIgnore)
    else if command.messageAction = cmdTerminateImmediately ∨ command.messageAction = cmdStop ∨
        command.messageAction = cmdTick then some ([], command.messageAction)
    else if command.messageAction = cmdMultiMessage then
      unpackStrings le (processNested le depth)
        ((List.range command.counter.toNat).map command.getString)
    else some ([command], cmdIgnore)

/-- A packed message is shorter than the one that holds it. -/
def commandProcessor (le : Bool) (command : WireMessage) : Option (List WireMessage × Int32) :=
  processNested le command.serializedByteCount command

def goodbye (source fed : GlobalId) : WireMessage where
  messageAction := cmdDisconnect
  sourceId := Int32.ofInt source
  destId := Int32.ofInt fed

def farewells (le : Bool) (source : GlobalId) : List GlobalId → List WireMessage
  | [] => []
  | [fed] => if fed = source then [] else [goodbye source fed]
  | feds => [feds.foldl (fun multi fed => if fed = source then multi
      else (appendMessage le multi (goodbye source fed)).2) { messageAction := cmdMultiMessage }]

def crossWire (le : Bool) (m : WireMessage) : Option WireMessage :=
  (fromByteArray le {} (m.toBytes le)).map Prod.snd

def arrivals (le : Bool) : List WireMessage → Option (List WireMessage)
  | [] => some []
  | m :: sent => (commandProcessor le m).bind fun p => (arrivals le sent).map (p.1 ++ ·)

def arrivalsOverWire (le : Bool) (sent : List WireMessage) : Option (List WireMessage) :=
  (sent.mapM (crossWire le)).bind (arrivals le)

def packed (le : Bool) (msgs : List WireMessage) : WireMessage where
  messageAction := cmdMultiMessage
  counter := UInt16.ofNat (min msgs.length 255)
  stringData := (msgs.take 255).map (toBytes le)

variable (le : Bool)

theorem counter_packed (msgs : List WireMessage) :
    (packed le msgs).counter.toNat = min msgs.length 255 := by
  show (UInt16.ofNat _).toNat = _
  rw [UInt16.toNat_ofNat']
  omega

theorem resize_succ (slots : List (List UInt8)) :
    resize slots (slots.length + 1) = slots ++ [[]] := by
  unfold resize
  rw [List.take_of_length_le (by omega), Nat.add_sub_cancel_left]
  rfl

theorem appendMessage_packed (msgs : List WireMessage) (m : WireMessage) :
    (appendMessage le (packed le msgs) m).2 = packed le (msgs ++ [m]) := by
  have hc := counter_packed le msgs
  have hlt : (packed le msgs).counter < 255 ↔ msgs.length < 255 := by
    rw [UInt16.lt_iff_toNat_lt, hc]
    show min msgs.length 255 < 255 ↔ _
    omega
  unfold appendMessage
  by_cases h : msgs.length < 255
  · have hcount : (packed le msgs).counter.toNat = msgs.length := by omega
    have hstr : (packed le msgs).stringData = msgs.map (toBytes le) := by
      show (msgs.take 255).map (toBytes le) = _
      rw [List.take_of_length_le h.le]
    have hset : setString (packed le msgs) msgs.length (m.toBytes le) =
        some { packed le msgs with stringData := (msgs ++ [m]).map (toBytes le) } := by
      unfold setString
      rw [if_pos (by omega), hstr, List.length_map, if_pos le_rfl]
      have hres := resize_succ (msgs.map (toBytes le))
      rw [List.length_map] at hres
      rw [hres, List.set_append_right _ _ (by rw [List.length_map]), List.length_map, Nat.sub_self]
      simp
    have hnext : (packed le msgs).counter + 1 = UInt16.ofNat (min (msgs ++ [m]).length 255) := by
      apply UInt16.toNat_inj.mp
      rw [UInt16.toNat_add, hcount, UInt16.toNat_ofNat', List.length_append, List.length_singleton]
      show (msgs.length + 1) % _ = _
      omega
    have htake : (msgs ++ [m]).take 255 = msgs ++ [m] :=
      List.take_of_length_le (by rw [List.length_append, List.length_singleton]; omega)
    rw [if_pos ⟨rfl, hlt.mpr h⟩, hcount, hset]
    show ({
      messageAction := cmdMultiMessage
      counter := (packed le msgs).counter + 1
      stringData := (msgs ++ [m]).map (toBytes le) } : WireMessage) = _
    rw [hnext]
    unfold packed
    rw [htake]
  · have htake : (msgs ++ [m]).take 255 = msgs.take 255 :=
      List.take_append_of_le_length (by omega)
    have hmin : min (msgs ++ [m]).length 255 = min msgs.length 255 := by
      rw [List.length_append, List.length_singleton]
      omega
    rw [if_neg (fun hf => h (hlt.mp hf.2))]
    unfold packed
    rw [htake, hmin]

variable (source : GlobalId) (feds : List GlobalId)

theorem foldl_appendMessage : feds.foldl (fun multi fed => if fed = source then multi
      else (appendMessage le multi (goodbye source fed)).2) { messageAction := cmdMultiMessage } =
    packed le ((feds.filter (fun fed => decide (fed ≠ source))).map (goodbye source)) := by
  refine Invariants.foldl_invariant (P := fun multi pre => multi =
    packed le ((pre.filter (fun fed => decide (fed ≠ source))).map (goodbye source))) rfl ?_ feds
  rintro _ pre fed rfl
  rw [List.filter_append, List.map_append]
  by_cases h : fed = source
  · rw [if_pos h, List.filter_singleton, decide_eq_false (not_not_intro h)]
    simp
  · rw [if_neg h, List.filter_singleton, decide_eq_true h]
    exact appendMessage_packed le _ _

theorem goodbye_payload (source fed : GlobalId) :
    (goodbye source fed).payload.length < 16777216 := by
  show 0 < 16777216
  decide

theorem crossWire_goodbye (source fed : GlobalId) :
    fromByteArray le {} ((goodbye source fed).toBytes le) = some (45, goodbye source fed) := by
  have hp := goodbye_payload source fed
  rw [fromByteArray_toBytes le hp, readBody_returns le hp]
  · rfl
  · show 0 < 128
    decide
  · show 45 < 2147483648
    decide

theorem processNested_goodbye (depth : Nat) (source fed : GlobalId) :
    processNested le (depth + 1) (goodbye source fed) = some ([goodbye source fed], cmdIgnore) :=
  rfl

theorem unpackStrings_goodbyes (depth : Nat) (source : GlobalId) (feds : List GlobalId) :
    unpackStrings le (processNested le (depth + 1))
      ((feds.map (goodbye source)).map (toBytes le)) =
        some (feds.map (goodbye source), cmdIgnore) := by
  induction feds with
  | nil => rfl
  | cons fed feds ih =>
    rw [List.map_cons, List.map_cons]
    unfold unpackStrings
    rw [crossWire_goodbye, Option.bind_some, processNested_goodbye, Option.bind_some,
      if_neg (fun h => h.1 rfl), ih]
    rfl

theorem map_getString_range (m : WireMessage) :
    (List.range m.stringData.length).map m.getString = m.stringData := by
  apply List.ext_getElem
  · rw [List.length_map, List.length_range]
  · intro i h₁ h₂
    rw [List.getElem_map, List.getElem_range]
    exact List.getD_eq_getElem _ _ h₂

theorem commandProcessor_packed : commandProcessor le (packed le (feds.map (goodbye source))) =
      some ((feds.take 255).map (goodbye source), cmdIgnore) := by
  have hcount : (packed le (feds.map (goodbye source))).counter.toNat =
      (packed le (feds.map (goodbye source))).stringData.length := by
    rw [counter_packed]
    show _ = (((feds.map (goodbye source)).take 255).map (toBytes le)).length
    rw [List.length_map (toBytes le), List.length_take, Nat.min_comm]
  have hstr : (packed le (feds.map (goodbye source))).stringData =
      ((feds.take 255).map (goodbye source)).map (toBytes le) := by
    show ((feds.map (goodbye source)).take 255).map (toBytes le) = _
    rw [List.map_take (f := goodbye source)]
  obtain ⟨k, hk⟩ : ∃ k, (packed le (feds.map (goodbye source))).serializedByteCount = k + 2 :=
    ⟨_, (Nat.sub_add_cancel (by unfold serializedByteCount; omega)).symm⟩
  unfold commandProcessor
  rw [hk]
  show unpackStrings le (processNested le (k + 1)) _ = _
  rw [hcount, map_getString_range, hstr]
  exact unpackStrings_goodbyes le k source _

theorem length_goodbye (source fed : GlobalId) : ((goodbye source fed).toBytes le).length = 45 := by
  have hp := goodbye_payload source fed
  rw [toBytes_eq le hp, length_toByteArray le hp]
  rfl

theorem sum_goodbyes :
    (((feds.map (goodbye source)).map (toBytes le)).map (fun str => str.length + 4)).sum =
      49 * feds.length := by
  induction feds with
  | nil => rfl
  | cons fed feds ih =>
    rw [List.map_cons, List.map_cons, List.map_cons, List.sum_cons, ih, length_goodbye,
      List.length_cons]
    omega

theorem crossWire_packed :
    crossWire le (packed le (feds.map (goodbye source))) = if feds.length ≤ 127 then
      some (packed le (feds.map (goodbye source))) else none := by
  have hp : (packed le (feds.map (goodbye source))).payload.length < 16777216 := by
    show 0 < 16777216
    decide
  have hlen : (packed le (feds.map (goodbye source))).stringData.length = min feds.length 255 := by
    show (((feds.map (goodbye source)).take 255).map (toBytes le)).length = _
    rw [List.length_map, List.length_take, List.length_map, Nat.min_comm]
  unfold crossWire
  rw [fromByteArray_toBytes le hp]
  split
  · rename_i h
    have hsize : (packed le (feds.map (goodbye source))).serializedByteCount =
        45 + 49 * feds.length := by
      have hsum := sum_goodbyes le source feds
      show 45 + 0 + 0 + (((feds.map (goodbye source)).take 255).map (toBytes le) |>.map
        (fun str => str.length + 4)).sum = _
      rw [List.take_of_length_le (by rw [List.length_map]; omega), hsum]
    rw [readBody_returns le hp {} (by omega) (by omega)]
    rfl
  · rw [readBody_throws le hp {} (by omega) (by omega)]
    rfl

def others (source : GlobalId) (feds : List GlobalId) : List GlobalId :=
  feds.filter (fun fed => decide (fed ≠ source))

theorem farewells_one (source fed : GlobalId) :
    farewells le source [fed] = (others source [fed]).map (goodbye source) := by
  unfold others
  show (if fed = source then [] else [goodbye source fed]) = _
  by_cases h : fed = source
  · rw [if_pos h, List.filter_singleton, decide_eq_false (not_not_intro h)]
    rfl
  · rw [if_neg h, List.filter_singleton, decide_eq_true h]
    rfl

theorem farewells_many (source fed fed' : GlobalId) (feds : List GlobalId) :
    farewells le source (fed :: fed' :: feds) =
      [packed le ((others source (fed :: fed' :: feds)).map (goodbye source))] :=
  congrArg (fun m => [m]) (foldl_appendMessage le source _)

theorem length_others_one (source fed : GlobalId) : (others source [fed]).length ≤ 1 :=
  List.length_filter_le _ _

theorem arrivals_goodbyes :
    arrivals le (feds.map (goodbye source)) = some (feds.map (goodbye source)) := by
  induction feds with
  | nil => rfl
  | cons fed feds ih =>
    rw [List.map_cons]
    unfold arrivals
    rw [ih]
    rfl

theorem mapM_crossWire_goodbyes :
    (feds.map (goodbye source)).mapM (crossWire le) = some (feds.map (goodbye source)) := by
  induction feds with
  | nil => rfl
  | cons fed feds ih =>
    have hone : crossWire le (goodbye source fed) = some (goodbye source fed) := by
      unfold crossWire
      rw [crossWire_goodbye]
      rfl
    rw [List.map_cons, List.mapM_cons, hone, ih]
    rfl

theorem arrivals_farewells : arrivals le (farewells le source feds) =
      some (((others source feds).take 255).map (goodbye source)) := by
  match feds with
  | [] => rfl
  | [fed] =>
    have h := length_others_one source fed
    rw [farewells_one, arrivals_goodbyes, List.take_of_length_le (by omega)]
  | fed :: fed' :: feds =>
    rw [farewells_many]
    unfold arrivals
    rw [commandProcessor_packed]
    exact congrArg some (List.append_nil _)

theorem arrivalsOverWire_farewells :
    arrivalsOverWire le (farewells le source feds) = if (others source feds).length ≤ 127 then
      some ((others source feds).map (goodbye source)) else none := by
  unfold arrivalsOverWire
  match feds with
  | [] => rfl
  | [fed] =>
    have h := length_others_one source fed
    rw [farewells_one, mapM_crossWire_goodbyes, Option.bind_some, arrivals_goodbyes,
      if_pos (by omega)]
  | fed :: fed' :: feds =>
    rw [farewells_many, List.mapM_cons, List.mapM_nil, crossWire_packed]
    by_cases h : (others source (fed :: fed' :: feds)).length ≤ 127
    · rw [if_pos h, if_pos h]
      show arrivals le [packed le _] = _
      unfold arrivals
      rw [commandProcessor_packed, List.take_of_length_le (h.trans (by decide))]
      exact congrArg some (List.append_nil _)
    · rw [if_neg h, if_neg h]
      rfl

/-- The farewells have arrived: every neighbour gets exactly one, and nobody else. -/
def Reaches (source : GlobalId) (neighbours : List GlobalId) (out : Option (List WireMessage)) :
    Prop :=
  ∃ msgs, out = some msgs ∧
    (∀ m ∈ msgs, m.messageAction = cmdDisconnect ∧ m.sourceId.toInt = source ∧
      m.destId.toInt ∈ neighbours) ∧
    ∀ fed ∈ neighbours, (msgs.filter (fun m => decide (m.destId.toInt = fed))).length = 1

def IdFits (id : GlobalId) : Prop := -2147483648 ≤ id ∧ id < 2147483648

variable {source}

theorem IdFits.toInt (h : IdFits source) : (Int32.ofInt source).toInt = source :=
  Int32.toInt_ofInt_of_le h.1 h.2

theorem filter_goodbyes {feds : List GlobalId} (hf : ∀ fed ∈ feds, IdFits fed) (fed : GlobalId) :
    ((feds.map (goodbye source)).filter (fun m => decide (m.destId.toInt = fed))).length =
      feds.count fed := by
  induction feds with
  | nil => rfl
  | cons fed' feds ih =>
    have hdest : (goodbye source fed').destId.toInt = fed' := (hf fed' List.mem_cons_self).toInt
    have ih' := ih fun x hx => hf x (List.mem_cons_of_mem _ hx)
    rw [List.map_cons, List.filter_cons, hdest, List.count_cons]
    by_cases h : fed' = fed
    · rw [decide_eq_true h, if_pos rfl, List.length_cons, ih', if_pos (beq_iff_eq.mpr h)]
    · rw [decide_eq_false h, if_neg Bool.false_ne_true, ih',
        if_neg (fun hb => h (beq_iff_eq.mp hb))]
      rfl

theorem reaches_take_iff (hs : IdFits source)
    (hf : ∀ fed ∈ neighbours, IdFits fed) (hn : neighbours.Nodup) :
    Reaches source neighbours (some ((neighbours.take k).map (goodbye source))) ↔
      neighbours.length ≤ k := by
  have hft : ∀ fed ∈ neighbours.take k, IdFits fed := fun fed h => hf fed (List.mem_of_mem_take h)
  constructor
  · rintro ⟨msgs, heq, -, hone⟩
    cases heq
    by_contra hk
    have hlt : k < neighbours.length := by omega
    have hmiss : neighbours.get ⟨k, hlt⟩ ∉ neighbours.take k := by
      intro hmem
      obtain ⟨i, hi, heq⟩ := List.mem_take_iff_getElem.mp hmem
      have hik := (List.Nodup.getElem_inj_iff hn).mp heq
      omega
    have h := hone _ (List.get_mem neighbours ⟨k, hlt⟩)
    rw [filter_goodbyes hft, List.count_eq_zero_of_not_mem hmiss] at h
    omega
  · intro hk
    rw [List.take_of_length_le hk]
    refine ⟨_, rfl, ?_, ?_⟩
    · intro m hm
      obtain ⟨fed, hfed, rfl⟩ := List.mem_map.mp hm
      have hdest : (goodbye source fed).destId.toInt = fed := (hf fed hfed).toInt
      exact ⟨rfl, hs.toInt, hdest.symm ▸ hfed⟩
    · intro fed hfed
      rw [filter_goodbyes hf]
      exact List.count_eq_one_of_mem hn hfed

theorem reaches_farewells_iff {feds : List GlobalId} (hs : IdFits source)
    (hf : ∀ fed ∈ feds, IdFits fed) (hn : feds.Nodup) :
    (Reaches source (others source feds) (arrivals le (farewells le source feds)) ↔
      (others source feds).length ≤ 255) ∧
    (Reaches source (others source feds) (arrivalsOverWire le (farewells le source feds)) ↔
      (others source feds).length ≤ 127) := by
  have hf' : ∀ fed ∈ others source feds, IdFits fed := fun fed h => hf fed (List.mem_filter.mp h).1
  have hn' : (others source feds).Nodup := hn.filter _
  constructor
  · rw [arrivals_farewells]
    exact reaches_take_iff hs hf' hn'
  · rw [arrivalsOverWire_farewells]
    by_cases h : (others source feds).length ≤ 127
    · rw [if_pos h]
      have hall := (reaches_take_iff (k := (others source feds).length) hs hf' hn').mpr le_rfl
      rw [List.take_length] at hall
      exact ⟨fun _ => h, fun _ => hall⟩
    rw [if_neg h]
    constructor
    · rintro ⟨_, heq, _⟩
      cases heq
    · exact fun hle => absurd hle h

end WireMessage

open WireMessage

/-- Those that the messages of `disconnect` are for; `farewells` says how they are sent. -/
def TimeCoordinator.neighbours (c : TimeCoordinator) : List GlobalId :=
  c.disconnect.2.map ActionMessage.destId

theorem TimeCoordinator.neighbours_eq (c : TimeCoordinator) :
    c.neighbours = others c.sourceId c.connections.entries :=
  List.map_map.trans (List.map_id _)

def ForwardingTimeCoordinator.neighbours (c : ForwardingTimeCoordinator) : List GlobalId :=
  c.disconnect.2.map ActionMessage.destId

theorem ForwardingTimeCoordinator.neighbours_eq (c : ForwardingTimeCoordinator) :
    c.neighbours = others c.sourceId c.connections.entries :=
  List.map_map.trans (List.map_id _)

theorem nodup_entries (t : Dependents) : t.entries.Nodup :=
  t.sorted.imp fun h => ne_of_lt h

/-- The farewell of a coordinator reaches all its neighbours exactly when they are at most 255, or
at most 127 where it crosses the wire. -/
theorem farewells_reach_iff (le : Bool) :
    (∀ c : TimeCoordinator, IdFits c.sourceId → (∀ fed ∈ c.connections.entries, IdFits fed) →
      (Reaches c.sourceId c.neighbours
        (arrivals le (farewells le c.sourceId c.connections.entries)) ↔
        c.neighbours.length ≤ 255) ∧ (Reaches c.sourceId c.neighbours
          (arrivalsOverWire le (farewells le c.sourceId c.connections.entries)) ↔
        c.neighbours.length ≤ 127)) ∧ (∀ c : ForwardingTimeCoordinator, IdFits c.sourceId →
      (∀ fed ∈ c.connections.entries, IdFits fed) →
      (Reaches c.sourceId c.neighbours
        (arrivals le (farewells le c.sourceId c.connections.entries)) ↔
        c.neighbours.length ≤ 255) ∧ (Reaches c.sourceId c.neighbours
          (arrivalsOverWire le (farewells le c.sourceId c.connections.entries)) ↔
        c.neighbours.length ≤ 127)) := by
  constructor
  · intro c hs hf
    rw [c.neighbours_eq]
    exact reaches_farewells_iff le hs hf (nodup_entries c.connections)
  · intro c hs hf
    rw [c.neighbours_eq]
    exact reaches_farewells_iff le hs hf (nodup_entries c.connections)

def idsFrom (start : Int) (n : Nat) : List Int := (List.range n).map fun k => start + Int.ofNat k

theorem pairwise_idsFrom (start : Int) (n : Nat) : (idsFrom start n).Pairwise (· < ·) := by
  apply List.pairwise_map.mpr
  apply List.pairwise_lt_range.imp
  intro a b h
  exact Int.add_lt_add_left (Int.ofNat_lt.mpr h) start

def crowd (n : Nat) : TimeCoordinator where
  sourceId := 131072
  dependents := ⟨idsFrom 131073 n, pairwise_idsFrom 131073 n⟩

theorem crowd_fits (n : Nat) (hn : n ≤ 1000) :
    ∀ fed ∈ (crowd n).connections.entries, IdFits fed := by
  intro fed hfed
  obtain ⟨k, hk, rfl⟩ : ∃ k ∈ List.range n, (131073 : Int) + Int.ofNat k = fed :=
    List.mem_map.mp hfed
  have hlt := List.mem_range.mp hk
  show (-2147483648 : Int) ≤ 131073 + (k : Int) ∧ 131073 + (k : Int) < 2147483648
  omega

theorem farewells_reach_two : Reaches 131072 (crowd 2).neighbours
      (arrivalsOverWire true (farewells true 131072 (crowd 2).connections.entries)) :=
  ((farewells_reach_iff true).1 (crowd 2) ⟨by decide, by decide⟩
    (crowd_fits 2 (by decide))).2.mpr (by decide)

/-- The 256th neighbour is not told, and across the wire 128 neighbours are too many. -/
theorem farewell_missed : ¬ Reaches 131072 (crowd 256).neighbours
      (arrivals true (farewells true 131072 (crowd 256).connections.entries)) ∧
    arrivalsOverWire true (farewells true 131072 (crowd 128).connections.entries) = none := by
  constructor
  · rw [TimeCoordinator.neighbours_eq]
    intro h
    have hle := (reaches_farewells_iff true ⟨by decide, by decide⟩ (crowd_fits 256 (by decide))
      (nodup_entries (crowd 256).connections)).1.mp h
    exact absurd hle (by decide +kernel)
  · rw [arrivalsOverWire_farewells, if_neg (by decide +kernel)]

end Helics
