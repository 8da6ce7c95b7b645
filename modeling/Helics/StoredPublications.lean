import Helics.ValueSelection

namespace Helics

namespace InputQueues

def publishedRecord (cmd : ActionMessage) (payload : String) : DataRecord :=
  ⟨cmd.actionTime, cmd.counter.toNat, some payload⟩

/-- One round of the loop over the sources: a match stores the payload and leaves none behind. -/
def receiveFrom (cmd : ActionMessage) (r : InputQueues × String) (src : GlobalHandle) :
    InputQueues × String :=
  if src = cmd.getSource then (r.1.addData src cmd.actionTime cmd.counter.toNat r.2, "") else r

def receivePublication (inp : InputQueues) (cmd : ActionMessage) : InputQueues :=
  ((inp.sources.map (·.id)).foldl (receiveFrom cmd) (inp, cmd.payload)).1

def storedRecords (l : List InputSource) : List (GlobalHandle × DataRecord) :=
  l.flatMap fun s => s.queue.records.map fun r => (s.id, r)

def accepts (source : GlobalHandle) (t : Time) (l : List InputSource) : Bool :=
  match l.find? fun s => decide (s.id = source) with
  | some s => decide (t ≤ s.deactivated)
  | none => false

def entries (l : List InputSource) : List (GlobalHandle × Time) :=
  l.map fun s => (s.id, s.deactivated)

theorem accepts_cons (source : GlobalHandle) (t : Time) (s : InputSource) (l : List InputSource) :
    accepts source t (s :: l) =
      if s.id = source then decide (t ≤ s.deactivated) else accepts source t l := by
  unfold accepts
  by_cases h : s.id = source
  · rw [List.find?_cons_of_pos (by simpa using h), if_pos h]
  · rw [List.find?_cons_of_neg (by simpa using h), if_neg h]

theorem accepts_congr (h : entries l = entries l') (source : GlobalHandle) (t : Time) :
    accepts source t l = accepts source t l' := by
  induction l generalizing l' with
  | nil =>
    cases l' with
    | nil => rfl
    | cons => cases h
  | cons s l ih =>
    cases l' with
    | nil => cases h
    | cons s' l' =>
      obtain ⟨hs, hl⟩ := List.cons.inj h
      obtain ⟨hid, hd⟩ := Prod.mk.inj hs
      rw [accepts_cons, accepts_cons, hid, hd, ih hl]

theorem entries_addDataTo (source : GlobalHandle) (r : DataRecord) (l : List InputSource) :
    entries (addDataTo source r l) = entries l := by
  induction l with
  | nil => rfl
  | cons s l ih =>
    unfold addDataTo
    split
    · split <;> rfl
    · exact congrArg ((s.id, s.deactivated) :: ·) ih

theorem perm_addDataTo (source : GlobalHandle) (r : DataRecord) (l : List InputSource) :
    (storedRecords (addDataTo source r l)).Perm
      ((if accepts source r.time l then [(source, r)] else []) ++ storedRecords l) := by
  induction l with
  | nil => exact .refl _
  | cons s l ih =>
    rw [accepts_cons]
    unfold addDataTo
    by_cases hid : s.id = source
    · rw [if_pos hid, if_pos hid]
      by_cases hd : s.deactivated < r.time
      · rw [if_pos hd, if_neg (by simpa using hd)]
        exact .refl _
      rw [if_neg hd, if_pos (decide_eq_true (not_lt.mp hd))]
      have hstore := (s.queue.perm_store r).map fun r => (s.id, r)
      rw [List.map_cons, hid] at hstore
      have happ := hstore.append_right (storedRecords l)
      rw [← hid] at happ ⊢
      exact happ
    · rw [if_neg hid, if_neg hid]
      have happ := ih.append_left (s.queue.records.map fun r => (s.id, r))
      refine happ.trans ?_
      have hcons : storedRecords (s :: l) =
          (s.queue.records.map fun r => (s.id, r)) ++ storedRecords l := rfl
      rw [hcons, ← List.append_assoc, ← List.append_assoc]
      exact List.perm_append_comm.append_right _

/-- What the matches of a command are stored as: the payload is moved out at the first one. -/
def storedFor (cmd : ActionMessage) (payload : String) : Nat → List (GlobalHandle × DataRecord)
  | 0 => []
  | n + 1 => (cmd.getSource, publishedRecord cmd payload) :: storedFor cmd "" n

theorem perm_foldl_receiveFrom (cmd : ActionMessage) (ids : List GlobalHandle) (inp : InputQueues)
    (payload : String) : (storedRecords (ids.foldl (receiveFrom cmd) (inp, payload)).1.sources).Perm
      ((if accepts cmd.getSource cmd.actionTime inp.sources then
        storedFor cmd payload (ids.count cmd.getSource) else []) ++ storedRecords inp.sources) := by
  induction ids generalizing inp payload with
  | nil =>
    rw [List.count_nil]
    unfold storedFor
    rw [ite_self]
    exact .refl _
  | cons id ids ih =>
    rw [List.foldl_cons]
    by_cases hid : id = cmd.getSource
    · have hone : receiveFrom cmd (inp, payload) id =
          (inp.addData cmd.getSource cmd.actionTime cmd.counter.toNat payload, "") := by
        unfold receiveFrom
        rw [if_pos hid, hid]
      have hadd := perm_addDataTo cmd.getSource (publishedRecord cmd payload) inp.sources
      have hkeep := accepts_congr (entries_addDataTo cmd.getSource (publishedRecord cmd payload)
        inp.sources) cmd.getSource cmd.actionTime
      have hrest := ih (inp.addData cmd.getSource cmd.actionTime cmd.counter.toNat payload) ""
      have hacc : accepts cmd.getSource cmd.actionTime
          (inp.addData cmd.getSource cmd.actionTime cmd.counter.toNat payload).sources =
          accepts cmd.getSource cmd.actionTime inp.sources := hkeep
      rw [hone]
      rw [hacc] at hrest
      refine hrest.trans ?_
      rw [hid, List.count_cons_self]
      have htime : (publishedRecord cmd payload).time = cmd.actionTime := rfl
      rw [htime] at hadd
      by_cases ha : accepts cmd.getSource cmd.actionTime inp.sources = true
      · rw [if_pos ha] at hadd ⊢
        rw [if_pos ha]
        exact (hadd.append_left _).trans List.perm_middle
      · rw [if_neg ha] at hadd ⊢
        rw [if_neg ha]
        exact hadd
    · have hone : receiveFrom cmd (inp, payload) id = (inp, payload) := if_neg hid
      rw [hone, List.count_cons_of_ne hid]
      exact ih inp payload

/-- The command is stored for its publication, and nothing but its own payload is. -/
def StoresOwnData (inp inp' : InputQueues) (cmd : ActionMessage) : Prop :=
  ∃ added, (storedRecords inp'.sources).Perm (added ++ storedRecords inp.sources) ∧
    (cmd.getSource, publishedRecord cmd cmd.payload) ∈ added ∧
    ∀ x ∈ added, x.2.data = some cmd.payload

def StoresOnce (inp inp' : InputQueues) (cmd : ActionMessage) : Prop :=
  (storedRecords inp'.sources).Perm
    ((cmd.getSource, publishedRecord cmd cmd.payload) :: storedRecords inp.sources)

theorem perm_receivePublication (inp : InputQueues) (cmd : ActionMessage) :
    (storedRecords (inp.receivePublication cmd).sources).Perm
      ((if accepts cmd.getSource cmd.actionTime inp.sources then
        storedFor cmd cmd.payload ((inp.sources.map (·.id)).count cmd.getSource) else []) ++
        storedRecords inp.sources) :=
  perm_foldl_receiveFrom cmd _ inp cmd.payload

theorem count_pos_of_accepts (h : accepts source t l = true) : 0 < (l.map (·.id)).count source := by
  unfold accepts at h
  split at h
  · rename_i s hs
    rw [List.count_pos_iff]
    exact List.mem_map.mpr ⟨s, List.mem_of_find?_eq_some hs, by simpa using List.find?_some hs⟩
  · cases h

theorem storedFor_own_iff (cmd : ActionMessage) (n : Nat) :
    (∀ x ∈ storedFor cmd cmd.payload (n + 1), x.2.data = some cmd.payload) ↔
      n = 0 ∨ cmd.payload = "" := by
  cases n with
  | zero =>
    refine iff_of_true (fun x hx => ?_) (.inl rfl)
    obtain rfl := List.mem_singleton.mp hx
    rfl
  | succ n =>
    rw [or_iff_right (Nat.succ_ne_zero n)]
    constructor
    · intro h
      have hempty := h (cmd.getSource, publishedRecord cmd "")
        (List.mem_cons_of_mem _ List.mem_cons_self)
      exact (Option.some.inj hempty).symm
    · intro hp
      have hall (k : Nat) : ∀ x ∈ storedFor cmd "" k, x.2.data = some "" := by
        induction k with
        | zero => exact fun x hx => absurd hx List.not_mem_nil
        | succ k ih =>
          intro x hx
          obtain rfl | hx := List.mem_cons.mp hx
          · rfl
          · exact ih x hx
      rw [hp]
      exact hall _

theorem length_storedFor (cmd : ActionMessage) (payload : String) (n : Nat) :
    (storedFor cmd payload n).length = n := by
  induction n generalizing payload with
  | zero => rfl
  | succ n ih => exact congrArg (· + 1) (ih "")

/-- A publication is stored with its own data exactly if the first entry of its source takes it and
the source is listed once, or the payload is empty anyway; it is stored once exactly if the first
entry takes it and the source is listed once. -/
theorem publication_stored_iff (inp : InputQueues) (cmd : ActionMessage) :
    (StoresOwnData inp (inp.receivePublication cmd) cmd ↔
      accepts cmd.getSource cmd.actionTime inp.sources = true ∧
        ((inp.sources.map (·.id)).count cmd.getSource = 1 ∨ cmd.payload = "")) ∧
      (StoresOnce inp (inp.receivePublication cmd) cmd ↔
        accepts cmd.getSource cmd.actionTime inp.sources = true ∧
          (inp.sources.map (·.id)).count cmd.getSource = 1) := by
  have hperm := inp.perm_receivePublication cmd
  by_cases ha : accepts cmd.getSource cmd.actionTime inp.sources = true
  · rw [if_pos ha] at hperm
    have hpos := count_pos_of_accepts ha
    obtain ⟨n, hn⟩ := Nat.exists_eq_succ_of_ne_zero hpos.ne'
    rw [hn] at hperm
    rw [and_iff_right ha, and_iff_right ha, hn]
    have hone : n.succ = 1 ↔ n = 0 := by omega
    rw [hone]
    refine ⟨?_, ?_⟩
    · rw [← storedFor_own_iff]
      constructor
      · rintro ⟨added, hadded, -, hown⟩ x hx
        have hsame := (List.perm_append_right_iff _).mp (hperm.symm.trans hadded)
        exact hown x (hsame.mem_iff.mp hx)
      · intro hown
        exact ⟨_, hperm, List.mem_cons_self, hown⟩
    · constructor
      · intro honce
        have hlen := (hperm.symm.trans honce).length_eq
        rw [List.length_append, length_storedFor, List.length_cons] at hlen
        omega
      · rintro rfl
        exact hperm
  · rw [if_neg ha] at hperm
    refine ⟨iff_of_false ?_ fun h => ha h.1, iff_of_false ?_ fun h => ha h.1⟩
    · rintro ⟨added, hadded, hmem, -⟩
      have hlen := (hperm.symm.trans hadded).length_eq
      rw [List.nil_append, List.length_append] at hlen
      have hnil : added = [] := List.length_eq_zero_iff.mp (by omega)
      rw [hnil] at hmem
      exact absurd hmem List.not_mem_nil
    · intro honce
      have hlen := (hperm.symm.trans honce).length_eq
      rw [List.nil_append, List.length_cons] at hlen
      omega

def publishedAt5 : ActionMessage :=
  { messageAction := .cmdPub, sourceId := 131073, sourceHandle := 1, destHandle := 1,
    actionTime := .wrap 5, payload := "a" }

/-- A source that is listed twice gets an empty record besides the value, and one that was removed
at time 3 and added again gets nothing, though its second entry is active. -/
theorem publication_doubled_or_lost : let inp := InputQueues.addSource { handle := 1 } ⟨131073, 1⟩
    let doubled := inp.addSource ⟨131073, 1⟩
    let again := (inp.removeSource ⟨131073, 1⟩ (.wrap 3)).addSource ⟨131073, 1⟩
    storedRecords (doubled.receivePublication publishedAt5).sources =
        [(⟨131073, 1⟩, ⟨.wrap 5, 0, some "a"⟩), (⟨131073, 1⟩, ⟨.wrap 5, 0, some ""⟩)] ∧
      (∃ s ∈ again.sources, s.id = ⟨131073, 1⟩ ∧ s.deactivated = .maxVal) ∧
      storedRecords (again.receivePublication publishedAt5).sources = [] ∧
      ¬ StoresOwnData doubled (doubled.receivePublication publishedAt5) publishedAt5 ∧
      ¬ StoresOwnData again (again.receivePublication publishedAt5) publishedAt5 := by
  refine ⟨by decide, by decide, by decide, ?_, ?_⟩
  · rintro ⟨added, hadded, -, hown⟩
    have hmem := hadded.mem_iff.mp
      (show (⟨131073, 1⟩, ⟨.wrap 5, 0, some ""⟩) ∈ _ by decide)
    obtain hmem | hmem := List.mem_append.mp hmem
    · exact absurd (hown _ hmem) (by decide)
    · exact absurd hmem (by decide)
  · rintro ⟨added, hadded, hmem, -⟩
    exact absurd (hadded.mem_iff.mpr (List.mem_append_left _ hmem)) (by decide)

end InputQueues

end Helics
