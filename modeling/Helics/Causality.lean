import Helics.FederateSteps

namespace Helics

open ActionMessage Lookahead Invariants

namespace Federation

/-- The earliest stamp that can still come to `i` from `j` when `j` is at its floor. -/
def lim (s : Federation) (floors : GlobalId → Time) (i j : GlobalId) : Time :=
  earliest stamp (floors j) (s.chan j i)

/-- What a channel from `j` to `i` carries; values only go along dependencies. -/
structure Carried (s : Federation) (j i : GlobalId) (m : ActionMessage) : Prop where
  source : m.sourceId = j
  dest : m.destId = i
  kind : m.IsTiming ∨ m.messageAction = .cmdPub
  other : m.messageAction = .cmdDisconnect → j ≠ i
  linked : m.messageAction = .cmdPub → j ∈ (s.coord i).dependencies.keys

/-- The invariant of causal runs, relative to a lower bound on the future values of each
federate. -/
structure Causal (floors : GlobalId → Time) (s : Federation) : Prop where
  ids : ∀ i ∈ s.members, isFederateId i
  node : ∀ i ∈ s.members, Node (s.lim floors i) (floors i) i (s.fed i) (s.request i)
  sound : ∀ j i, Sound stamp promise (floors j) (s.chan j i)
  carried : ∀ j i, ∀ m ∈ s.chan j i, s.Carried j i m
  mirrored : ∀ j ∈ s.members, ∀ i ∈ (s.coord j).dependents.entries,
    j ∈ (s.coord i).dependencies.keys

def raise (floors : GlobalId → Time) (i : GlobalId) (t : Time) : GlobalId → Time :=
  fun k => if k = i then t else floors k

theorem stamp_of_isTiming {m : ActionMessage} (h : m.IsTiming) : m.stamp = none := by
  unfold stamp
  obtain h | h | h | h := h
  all_goals
    rw [h]
    rfl

theorem lim_le_send {s : Federation} (hf : floors i ≤ t)
    (hout : ∀ m ∈ out, ∀ u, m.stamp = some u → floors i ≤ u) (k j : GlobalId) :
    s.lim floors k j ≤ (s.send i out).lim (raise floors i t) k j := by
  unfold lim send raise
  dsimp only
  by_cases hj : j = i
  · subst hj
    rw [if_pos rfl, if_pos rfl]
    exact earliest_le_append hf _ _ fun m hm => hout m (List.mem_filter.mp hm).1
  · rw [if_neg hj, if_neg hj]

def Outgoing (s : Federation) (i : GlobalId) (t : Time) (m : ActionMessage) : Prop :=
  Announced i t m ∨ (m.sourceId = i ∧ m.messageAction = .cmdPub ∧ t ≤ m.actionTime ∧
    i ∈ (s.coord m.destId).dependencies.keys)

theorem Outgoing.bounds (h : Outgoing s i t m) (ht : .zero ≤ t) :
    m.promise ≤ t ∧ ∀ u, m.stamp = some u → t ≤ u := by
  obtain h | ⟨_, ha, hu, _⟩ := h
  · exact ⟨h.promise, fun u hu => by rw [stamp_of_isTiming h.timing] at hu; cases hu⟩
  · unfold promise stamp
    rw [ha]
    exact ⟨ht, fun u hu' => Option.some.inj hu' ▸ hu⟩

theorem Outgoing.carried (h : Outgoing s i t m) : s.Carried i m.destId m := by
  obtain h | ⟨hs, ha, _, hl⟩ := h
  · refine ⟨h.source, rfl, .inl h.timing, fun hd => (h.others hd).symm, fun hp => ?_⟩
    obtain ht | ht | ht | ht := h.timing <;> exact absurd (hp.symm.trans ht) (by decide)
  · exact ⟨hs, rfl, .inr ha, fun hd => absurd (ha.symm.trans hd) (by decide), fun _ => hl⟩

structure Consumed (i : GlobalId) (s s₁ : Federation) : Prop where
  members : s₁.members = s.members
  fed : s₁.fed = s.fed
  request : ∀ k, k ≠ i → s₁.request k = s.request k
  chan : ∀ a b, s.chan a b = s₁.chan a b ∨ (s.chan a b).tail = s₁.chan a b

theorem Consumed.mem_chan (h : Consumed i s s₁) (hm : m ∈ s₁.chan a b) : m ∈ s.chan a b := by
  obtain hc | hc := h.chan a b
  · exact hc ▸ hm
  · exact List.mem_of_mem_tail (hc ▸ hm)

theorem Consumed.lim_le (h : Consumed i s s₁) (floors : GlobalId → Time) (k j : GlobalId) :
    s.lim floors k j ≤ s₁.lim floors k j := by
  unfold lim
  obtain hc | hc := h.chan j k
  · rw [hc]
  rw [← hc]
  cases s.chan j k with
  | nil => exact le_rfl
  | cons m l => exact earliest_le_tail m l

theorem Consumed.sound (h : Consumed i s s₁) (hs : Sound stamp promise t (s.chan a b)) :
    Sound stamp promise t (s₁.chan a b) := by
  obtain hc | hc := h.chan a b
  · exact hc ▸ hs
  rw [← hc]
  cases hl : s.chan a b with
  | nil => trivial
  | cons m l =>
    rw [hl] at hs
    exact hs.tail

theorem keys_setFed (hc : Consumed i s s₁)
    (hs : f.timeCoord.Succeeds (s.coord i)) (out : List ActionMessage) (k : GlobalId) :
    (((s₁.setFed i f).send i out).coord k).dependencies.keys = (s.coord k).dependencies.keys := by
  show (if k = i then f else s₁.fed k).timeCoord.dependencies.keys = _
  split
  · rename_i hk
    exact hk ▸ hs.keys
  · rw [hc.fed]
    rfl

theorem Carried.of_keys {s s' : Federation} (h : s.Carried j i m)
    (hk : (s'.coord i).dependencies.keys = (s.coord i).dependencies.keys) : s'.Carried j i m :=
  { h with linked := fun hp => hk ▸ h.linked hp }

/-- The step of one federate carries the invariant over to the whole federation. -/
theorem Causal.advance (h : Causal floors s) (hc : Consumed i s s₁)
    (hf : floors i ≤ t) (hn : Node (s₁.lim floors i) t i f (s₁.request i))
    (hs : f.timeCoord.Succeeds (s.coord i)) (hout : ∀ m ∈ out, Outgoing s i t m) :
    Causal (raise floors i t) ((s₁.setFed i f).send i out) := by
  have hkeys := keys_setFed hc hs out
  have hstamps : ∀ m ∈ out, ∀ u, m.stamp = some u → floors i ≤ u :=
    fun m hm u hu => hf.trans (((hout m hm).bounds hn.positive).2 u hu)
  refine ⟨fun k hk => h.ids k (hc.members ▸ hk), fun k hk => ?_, fun a b => ?_,
    fun a b m hm => ?_, fun j hj k hk => ?_⟩
  · show Node _ (if k = i then t else floors k) k (if k = i then f else s₁.fed k) (s₁.request k)
    by_cases hki : k = i
    · subst hki
      rw [if_pos rfl, if_pos rfl]
      exact hn.mono (lim_le_send hf hstamps k)
    · rw [if_neg hki, if_neg hki, hc.request k hki, hc.fed]
      exact (h.node k (hc.members ▸ hk)).mono fun j =>
        (hc.lim_le floors k j).trans (lim_le_send hf hstamps k j)
  · show Sound _ _ (if a = i then t else floors a)
      (if a = i then s₁.chan a b ++ out.filter _ else s₁.chan a b)
    have hsound := hc.sound (h.sound a b)
    by_cases hai : a = i
    · subst hai
      rw [if_pos rfl, if_pos rfl]
      refine hsound.append hf (fun m hm => hstamps m (List.mem_filter.mp hm).1)
        (.of_floor _ fun m hm => (hout m (List.mem_filter.mp hm).1).bounds hn.positive)
    · rw [if_neg hai, if_neg hai]
      exact hsound
  · have hm : m ∈ (if a = i then s₁.chan a b ++ out.filter (fun m => decide (m.destId = b))
        else s₁.chan a b) := hm
    refine Carried.of_keys (s := s) ?_ (hkeys b)
    by_cases hai : a = i
    · subst hai
      rw [if_pos rfl] at hm
      obtain hm | hm := List.mem_append.mp hm
      · exact h.carried a b m (hc.mem_chan hm)
      · obtain ⟨hm, hd⟩ := List.mem_filter.mp hm
        exact of_decide_eq_true hd ▸ (hout m hm).carried
    · rw [if_neg hai] at hm
      exact h.carried a b m (hc.mem_chan hm)
  · rw [hkeys k]
    have hk : k ∈ (if j = i then f else s₁.fed j).timeCoord.dependents.entries := hk
    refine h.mirrored j (hc.members ▸ hj) k ?_
    split at hk
    · rename_i hji
      exact hji ▸ hs.dependents k hk
    · rw [hc.fed] at hk
      exact hk

theorem send_nil (s : Federation) (i : GlobalId) : s.send i [] = s := by
  unfold send
  simp only [List.filter_nil, List.append_nil, ite_self]

theorem setFed_self (s : Federation) (i : GlobalId) : s.setFed i (s.fed i) = s := by
  have hfed : (fun k => if k = i then s.fed i else s.fed k) = s.fed := by
    funext k
    split
    · rename_i hk
      rw [hk]
    · rfl
  unfold setFed
  rw [hfed]

def Progress (s s' : Federation) : Prop :=
  ∃ floors, Causal floors s' ∧ s'.members = s.members ∧
    ∀ k, (s.coord k).timeGranted ≤ (s'.coord k).timeGranted

theorem Causal.progress (h : Causal floors s) (hc : Consumed i s s₁)
    (hstep : Stepped (s₁.lim floors i) (floors i) i (s.fed i) f (s₁.request i) out) :
    Progress s ((s₁.setFed i f).send i out) := by
  obtain ⟨t, hf, hn, hs, hout⟩ := hstep
  refine ⟨_, h.advance hc hf hn hs fun m hm => .inl (hout m hm), hc.members, fun k => ?_⟩
  show _ ≤ (if k = i then f else s₁.fed k).timeCoord.timeGranted
  split
  · rename_i hk
    exact hk ▸ hs.granted
  · rw [hc.fed]
    exact le_rfl

variable {s : Federation}

theorem Causal.requestTime (h : Causal floors s) (hi : i ∈ s.members)
    (hp : (s.fed i).processing = false) (hr : (s.coord i).HasRoom) (t : Time) :
    Progress s ((s.setFed i { s.fed i with processing := true }).setRequest i
      (some ((s.fed i).timeRequestCommand t .noIterations))) := by
  have hstep := (h.node i hi).requestTime hp hr t
  have hreq : (s.setRequest i (some ((s.fed i).timeRequestCommand t .noIterations))).request i =
      some ((s.fed i).timeRequestCommand t .noIterations) := if_pos rfl
  have hc : Consumed i s
      (s.setRequest i (some ((s.fed i).timeRequestCommand t .noIterations))) :=
    ⟨rfl, rfl, fun k hk => if_neg hk, fun _ _ => .inl rfl⟩
  have hprog := h.progress hc (hreq.symm ▸ hstep)
  rw [send_nil] at hprog
  exact hprog

theorem Causal.startRequest (h : Causal floors s) (hi : i ∈ s.members)
    (hr : s.request i = some cmd) (v m : Time) :
    Progress s ((s.setRequest i none).complete i ((s.fed i).processActionMessage cmd v m)) := by
  have hn := h.node i hi
  rw [hr] at hn
  have hreq : (s.setRequest i none).request i = none := if_pos rfl
  exact h.progress ⟨rfl, rfl, fun k hk => if_neg hk, fun _ _ => .inl rfl⟩
    (hreq.symm ▸ hn.startRequest v m)

theorem Causal.timeCheck (h : Causal floors s) (hi : i ∈ s.members)
    (hp : (s.fed i).processing = true) (hh : (s.coord i).hidesEvent = false) :
    Progress s (s.complete i (s.fed i).timeCheck) :=
  h.progress ⟨rfl, rfl, fun _ _ => rfl, fun _ _ => .inl rfl⟩
    ((h.node i hi).anyTimeCheck hp fun _ => hh)

theorem consumed_consume (s : Federation) (j i : GlobalId) : Consumed i s (s.consume j i) := by
  refine ⟨rfl, rfl, fun _ _ => rfl, fun a b => ?_⟩
  unfold consume
  dsimp only
  split
  · exact .inr rfl
  · exact .inl rfl

theorem Causal.deliver (h : Causal floors s) (hi : i ∈ s.members)
    (hp : (s.fed i).processing = true) (hl : s.chan j i = m :: l)
    (hh : (s.fed i).timeGrantedMode = false →
      ((s.coord i).processTimeMessage m).2.1.hidesEvent = false)
    (hd : ((s.fed i).processActionMessage m v w).1 ≠ .delayMessage) :
    Progress s ((s.consume j i).complete i ((s.fed i).processActionMessage m v w)) := by
  have hn := h.node i hi
  have hcons := consumed_consume s j i
  have hm := h.carried j i m (hl ▸ List.mem_cons_self)
  have hpop : (s.consume j i).chan j i = l := by
    show (if j = j ∧ i = i then (s.chan j i).tail else s.chan j i) = l
    rw [if_pos ⟨rfl, rfl⟩, hl, List.tail_cons]
  refine h.progress hcons ?_
  obtain hk | hk := hm.kind
  · refine (hn.mono (hcons.lim_le floors i)).processTiming hp (h.ids i hi) hk hm.dest
      (fun ha => hm.source ▸ hm.other ha) ?_ hh hd
    have hs := h.sound j i
    rw [hl] at hs
    rw [hm.source]
    unfold lim
    rw [hpop]
    exact hs.1
  · refine (hn.publication hp hk (hm.linked hk) ?_).mono (hcons.lim_le floors i)
    unfold lim
    rw [hl]
    have hst : m.stamp = some m.actionTime := if_pos hk
    exact earliest_le_stamp hst l

theorem Causal.publish (h : Causal floors s) (hi : i ∈ s.members)
    (hp : (s.fed i).processing = false) (hk : k ∈ (s.coord i).dependents.entries)
    (handle target : InterfaceHandle) :
    Progress s (s.send i [s.publication i k handle target]) := by
  have hn := h.node i hi
  have hc : Consumed i s s := ⟨rfl, rfl, fun _ _ => rfl, fun _ _ => .inl rfl⟩
  have hout : ∀ m ∈ [s.publication i k handle target], Outgoing s i (floors i) m := by
    intro m hm
    obtain rfl := List.mem_singleton.mp hm
    exact .inr ⟨rfl, rfl, (hn.sendTime hp).1, h.mirrored i hi k hk⟩
  have hadv := h.advance hc le_rfl hn (.refl _) hout
  rw [setFed_self] at hadv
  exact ⟨_, hadv, rfl, fun _ => le_rfl⟩

/-- Every admissible event keeps the invariant. -/
theorem Causal.step (h : Causal floors s) (hs : s.step e = some s')
    (ha : s.Admissible e) : Progress s s' := by
  cases e with
  | requestTime i t =>
    simp only [Federation.step, Option.ite_none_right_eq_some, Option.some.injEq] at hs
    obtain ⟨⟨hi, _, hp⟩, rfl⟩ := hs
    exact h.requestTime hi hp ha t
  | startRequest i v m =>
    simp only [Federation.step] at hs
    split at hs
    · rename_i cmd hr
      simp only [Option.ite_none_right_eq_some, Option.some.injEq] at hs
      obtain ⟨hi, rfl⟩ := hs
      exact h.startRequest hi hr v m
    · cases hs
  | timeCheck i =>
    simp only [Federation.step, Option.ite_none_right_eq_some, Option.some.injEq] at hs
    obtain ⟨⟨hi, hp, _⟩, rfl⟩ := hs
    exact h.timeCheck hi hp ha
  | deliver j i =>
    simp only [Federation.step] at hs
    split at hs
    · cases hs
    rename_i m l hl
    simp only [Option.ite_none_right_eq_some, Option.some.injEq] at hs
    obtain ⟨⟨hi, hp, hd⟩, rfl⟩ := hs
    exact h.deliver hi hp hl (fun hm => ha hm m (by rw [hl]; rfl)) hd
  | publish i k handle target =>
    simp only [Federation.step, Option.ite_none_right_eq_some, Option.some.injEq] at hs
    obtain ⟨⟨hi, _, hp, hk⟩, rfl⟩ := hs
    exact h.publish hi hp hk handle target

theorem Entered.plain (h : Entered i c) : c.Plain :=
  ⟨h.executionMode, h.iterating, h.period, h.inputDelay, h.outputDelay, h.timeDelta,
    h.timeGrantBase.trans h.timeGranted.symm, h.timeBlock, h.timeGranted.ge⟩

theorem Entered.settled (h : Entered i c) : c.Settled :=
  ⟨(h.timeNext.trans h.timeGranted.symm).le, fun _ => h.timeExec.trans h.timeRequested.symm,
    .inr (.inr (h.timeMinDe.trans h.timeGranted.symm).le)⟩

theorem Started.causal (h : Started s) : Causal (fun _ => .zero) s := by
  have hstamp : ∀ j i, ∀ m ∈ s.chan j i, m.promise = .zero ∧ m.stamp = none := by
    intro j i m hm
    have ha := (h.chan j i m hm).1
    unfold ActionMessage.promise ActionMessage.stamp
    rw [ha]
    exact ⟨rfl, rfl⟩
  have hlim : ∀ i j, s.lim (fun _ => .zero) i j = .zero := by
    intro i j
    refine le_antisymm (earliest_le_floor _) (le_earliest le_rfl _ ?_)
    intro m hm t ht
    rw [(hstamp j i m hm).2] at ht
    cases ht
  refine ⟨h.ids, fun i hi => ?_, fun j i => .of_floor _ fun m hm => ?_, fun j i m hm => ?_,
    fun j hj i hi => ((h.mirrored j hj i).mp hi).2⟩
  · have hc := h.coord i hi
    refine ⟨h.globalId i hi, hc.sourceId, h.state i hi, le_rfl, ?_⟩
    rw [h.request i hi]
    refine .idle (h.idle i hi).1 (h.idle i hi).2 hc.plain (fun d hd => ?_) hc.settled
      ((h.sendTime i hi).trans hc.timeGranted.symm) hc.timeGranted.ge
    rw [hlim]
    exact ⟨hc.records d hd, hc.timeGranted.le⟩
  · obtain ⟨hp, hs⟩ := hstamp j i m hm
    exact ⟨hp.le, fun t ht => by rw [hs] at ht; cases ht⟩
  · obtain ⟨ha, hs, hd⟩ := h.chan j i m hm
    exact ⟨hs, hd, .inl (.inl ha), fun h' => absurd (ha.symm.trans h') (by decide),
      fun h' => absurd (ha.symm.trans h') (by decide)⟩

theorem causal_runs (h : AdmissibleRuns s es t)
    (hc : ∃ floors, Causal floors s) : (∃ floors, Causal floors t) ∧ t.members = s.members ∧
      ∀ k, (s.coord k).timeGranted ≤ (t.coord k).timeGranted := by
  refine Run.invariant (P := fun t => (∃ floors, Causal floors t) ∧
    t.members = s.members ∧ ∀ k, (s.coord k).timeGranted ≤ (t.coord k).timeGranted) ?_ h
    ⟨hc, rfl, fun _ => le_rfl⟩
  rintro u e v ⟨⟨floors, hc⟩, hm, hg⟩ ⟨hs, ha⟩
  obtain ⟨floors', hc', hm', hg'⟩ := hc.step hs ha
  exact ⟨⟨floors', hc'⟩, hm'.trans hm, fun k => (hg k).trans (hg' k)⟩

/-- In every run whose events are admissible, a federate publishes no value with a stamp below
a time that one of its dependents has been granted before. -/
theorem publish_not_before_grant (s₀ s t u : Federation) (es₁ es₂ : List Event) (a b : GlobalId)
    (k : GlobalId) (handle target : InterfaceHandle) (h₀ : Started s₀)
    (h₁ : AdmissibleRuns s₀ es₁ s) (h₂ : AdmissibleRuns s es₂ t) (hb : b ∈ s₀.members)
    (ha : a ∈ (t.coord b).dependencies.keys) (hpub : t.step (.publish a k handle target) = some u) :
    (s.coord b).timeGranted ≤ (t.publication a k handle target).actionTime := by
  obtain ⟨hc₁, hm₁, _⟩ := causal_runs h₁ ⟨_, h₀.causal⟩
  obtain ⟨⟨floors, hc⟩, hm, hg⟩ := causal_runs h₂ hc₁
  simp only [Federation.step, Option.ite_none_right_eq_some] at hpub
  obtain ⟨⟨hi, _, hp, _⟩, _⟩ := hpub
  have hb' : b ∈ t.members := by
    rw [hm, hm₁]
    exact hb
  calc (s.coord b).timeGranted ≤ (t.coord b).timeGranted := hg b
    _ ≤ t.lim floors b a := (hc.node b hb').kept.granted_le ha
    _ ≤ floors a := earliest_le_floor _
    _ ≤ (t.fed a).allowedSendTime := ((hc.node a hi).sendTime hp).1

/-- In every such run, no value under way to a federate is stamped before its granted time. -/
theorem values_under_way_not_late (s₀ s : Federation) (es : List Event) (a b : GlobalId)
    (m : ActionMessage) (h₀ : Started s₀) (h : AdmissibleRuns s₀ es s) (hb : b ∈ s₀.members)
    (hm : m ∈ s.chan a b) (hpub : m.messageAction = .cmdPub) :
    (s.coord b).timeGranted ≤ m.actionTime := by
  obtain ⟨⟨floors, hc⟩, hmem, _⟩ := causal_runs h ⟨_, h₀.causal⟩
  have hb' : b ∈ s.members := by
    rw [hmem]
    exact hb
  calc (s.coord b).timeGranted ≤ s.lim floors b a :=
      (hc.node b hb').kept.granted_le ((hc.carried a b m hm).linked hpub)
    _ ≤ m.actionTime := earliest_le_of_mem hm (if_pos hpub)

def entrant (i : GlobalId) (dependencies dependents : List GlobalId) : FederateState where
  globalId := i
  state := .executing
  timeGranted := .zero
  allowedSendTime := .zero
  timeGrantedMode := true
  inputs := dependencies.map fun d => { handle := 1, inputSources := [⟨d, 1⟩] }
  timeCoord :=
    { timeGranted := .zero
      timeGrantBase := .zero
      sourceId := i
      executionMode := true
      dependencies := dependencies.foldl
        (fun t d => t.insert { fedID := d, timeState := .timeGranted, Tnext := .zero }) .empty
      dependents := dependents.foldl (fun t d => t.insert d) .empty }

theorem entrant_entered (i : GlobalId) (dependencies dependents : List GlobalId) :
    Entered i (entrant i dependencies dependents).timeCoord := by
  have hrec : ∀ d ∈ (entrant i dependencies dependents).timeCoord.dependencies.entries,
      d.bound ≤ .zero := by
    refine foldl_invariant
      (P := fun (t : TimeDependencies) _ => ∀ d ∈ t.entries, d.bound ≤ .zero)
      (fun d hd => absurd hd List.not_mem_nil) ?_ dependencies
    intro t _ x ht d hd
    obtain rfl | hd := SortedTable.mem_insertEntry hd
    · exact le_of_eq rfl
    · exact ht d hd
  exact ⟨rfl, rfl, rfl, rfl, rfl, rfl, (by decide : Time.zero < Time.epsilon), rfl, rfl, rfl, rfl,
    rfl, rfl, rfl, hrec⟩

def chainOf (members : List GlobalId) : Federation where
  members := members
  fed i := entrant i (if i = 131073 then [] else [i - 1]) (if i + 1 ∈ members then [i + 1] else [])

theorem mirrored_of_members (h : ∀ i ∈ s.members, ∀ j ∈ s.members,
      (j ∈ (s.coord i).dependents.entries ↔ i ∈ (s.coord j).dependencies.keys))
    (hs : ∀ i ∈ s.members, ∀ j ∈ (s.coord i).dependents.entries, j ∈ s.members) :
    ∀ i ∈ s.members, ∀ j, j ∈ (s.coord i).dependents.entries ↔
      j ∈ s.members ∧ i ∈ (s.coord j).dependencies.keys := by
  intro i hi j
  refine ⟨fun hj => ?_, fun ⟨hj, hk⟩ => (h i hi j hj).mpr hk⟩
  have hj' := hs i hi j hj
  exact ⟨hj', (h i hi j hj').mp hj⟩

def asking (i : GlobalId) (t : Int) : List Event :=
  [.requestTime i (.wrap t), .startRequest i .maxVal .maxVal, .timeCheck i]

theorem chainOf_started {members : List GlobalId} (hi : ∀ i ∈ members, isFederateId i)
    (hm : ∀ i ∈ members, ∀ j ∈ members, (j ∈ ((chainOf members).coord i).dependents.entries ↔
      i ∈ ((chainOf members).coord j).dependencies.keys))
    (hs : ∀ i ∈ members, ∀ j ∈ ((chainOf members).coord i).dependents.entries, j ∈ members) :
    Started (chainOf members) where
  ids := hi
  globalId _ _ := rfl
  state _ _ := rfl
  idle _ _ := ⟨rfl, rfl⟩
  sendTime _ _ := rfl
  coord i _ := entrant_entered i _ _
  mirrored := mirrored_of_members hm hs
  request _ _ := rfl
  chan _ _ _ hm := absurd hm List.not_mem_nil

def chainOfTwo : Federation := chainOf [131073, 131074]

def secondGranted : List Event :=
  asking 131073 10 ++ asking 131074 5 ++ [.deliver 131073 131074, .deliver 131073 131074]

theorem chainOfTwo_run : (execute admissibleStep chainOfTwo secondGranted).bind (fun s =>
      (s.step (.publish 131073 131074 1 1)).map fun _ =>
        decide (131073 ∈ (s.coord 131074).dependencies.keys) &&
          decide ((s.coord 131074).timeGranted = .wrap 5)) = some true := by
  decide +kernel

theorem publish_not_before_grant_of_two : ∃ s, AdmissibleRuns chainOfTwo secondGranted s ∧
    (s.coord 131074).timeGranted = .wrap 5 ∧
    (s.coord 131074).timeGranted ≤ (s.publication 131073 131074 1 1).actionTime := by
  obtain ⟨s, hs, h⟩ := Option.bind_eq_some_iff.mp chainOfTwo_run
  obtain ⟨u, hu, h⟩ := Option.map_eq_some_iff.mp h
  obtain ⟨hk, hg⟩ := (Bool.and_eq_true _ _).mp h
  have hrun := admissibleRuns_of_execute hs
  exact ⟨s, hrun, of_decide_eq_true hg,
    publish_not_before_grant chainOfTwo s s u secondGranted [] 131073 131074 131074 1 1
      (chainOf_started (by decide) (by decide) (by decide)) hrun (.nil s) (by decide)
      (of_decide_eq_true hk) hu⟩

theorem value_under_way_of_two : ∃ s m,
    AdmissibleRuns chainOfTwo (secondGranted ++ [.publish 131073 131074 1 1]) s ∧
    m ∈ s.chan 131073 131074 ∧ m.messageAction = .cmdPub ∧
    (s.coord 131074).timeGranted ≤ m.actionTime := by
  have hrun : (execute admissibleStep chainOfTwo
      (secondGranted ++ [.publish 131073 131074 1 1])).bind (fun s =>
        (s.chan 131073 131074).find? fun m => decide (m.messageAction = .cmdPub)) ≠ none := by
    decide +kernel
  obtain ⟨m, hm⟩ := Option.ne_none_iff_exists'.mp hrun
  obtain ⟨s, hs, hm⟩ := Option.bind_eq_some_iff.mp hm
  have hin := List.mem_of_find?_eq_some hm
  have hpub : m.messageAction = .cmdPub := by simpa using List.find?_some hm
  have hrun := admissibleRuns_of_execute hs
  exact ⟨s, m, hrun, hin, hpub, values_under_way_not_late chainOfTwo s _ 131073 131074 m
    (chainOf_started (by decide) (by decide) (by decide)) hrun (by decide) hin hpub⟩

def chainOfFive : Federation := chainOf [131073, 131074, 131075, 131076, 131077]

def untilLastGrant : List Event :=
  asking 131077 1000 ++ asking 131076 1000 ++ asking 131075 1000 ++ asking 131074 1000 ++
    asking 131073 100 ++
    [.deliver 131073 131074, .deliver 131074 131075, .deliver 131074 131075,
      .deliver 131075 131076, .deliver 131075 131076, .deliver 131075 131076,
      .deliver 131076 131077, .deliver 131076 131077, .deliver 131076 131077]

def wakeUps : List Event :=
  [.publish 131073 131074 1 1] ++ asking 131073 1000 ++
    [.deliver 131073 131074, .deliver 131073 131074, .deliver 131073 131074,
      .publish 131074 131075 1 1] ++ asking 131074 1000 ++
    [.deliver 131074 131075, .deliver 131074 131075, .deliver 131074 131075,
      .deliver 131074 131075, .publish 131075 131076 1 1] ++ asking 131075 1000 ++
    [.deliver 131075 131076, .deliver 131075 131076, .deliver 131075 131076,
      .deliver 131075 131076, .deliver 131075 131076]

theorem chainOfFive_run : (execute step chainOfFive untilLastGrant).bind (fun s =>
    (execute step s wakeUps).bind fun t => (t.step (.publish 131076 131077 1 1)).map fun _ =>
        decide (131076 ∈ (t.coord 131077).dependencies.keys) &&
          decide ((t.publication 131076 131077 1 1).actionTime < (s.coord 131077).timeGranted)) =
    some true := by
  decide +kernel

/-- The last federate of the chain gets a value with a stamp before the time it was granted. -/
theorem late_value_after_grant : Started chainOfFive ∧ ∃ s t u,
    Runs chainOfFive untilLastGrant s ∧ Runs s wakeUps t ∧
      131076 ∈ (t.coord 131077).dependencies.keys ∧ t.step (.publish 131076 131077 1 1) = some u ∧
      (t.publication 131076 131077 1 1).actionTime < (s.coord 131077).timeGranted := by
  refine ⟨chainOf_started (by decide) (by decide) (by decide), ?_⟩
  obtain ⟨s, hs, h⟩ := Option.bind_eq_some_iff.mp chainOfFive_run
  obtain ⟨t, ht, h⟩ := Option.bind_eq_some_iff.mp h
  obtain ⟨u, hu, h⟩ := Option.map_eq_some_iff.mp h
  obtain ⟨hk, hlt⟩ := (Bool.and_eq_true _ _).mp h
  exact ⟨s, t, u, .of_execute hs, .of_execute ht, of_decide_eq_true hk, hu, of_decide_eq_true hlt⟩

end Federation

end Helics
