import Helics.TimeCoordinator
import Mathlib.Data.List.Induction

namespace Helics

namespace DependencyInfo

structure Ordered (d : DependencyInfo) : Prop where
  next : d.Tnext ≤ d.Tdemin
  event : d.Tdemin ≤ d.Te

def WellFormed (m : ActionMessage) : Prop :=
  m.messageAction = .cmdTimeRequest → m.actionTime ≤ m.Tdemin ∧ m.Tdemin ≤ m.Te

variable {d : DependencyInfo}

theorem ordered_of_eq (h : d.Tnext = d.Tdemin) (h' : d.Tdemin = d.Te) : d.Ordered :=
  ⟨h.le, h'.le⟩

theorem Ordered.of_times {d d' : DependencyInfo} (h : d.Ordered) (hn : d'.Tnext = d.Tnext)
    (he : d'.Te = d.Te) (hd : d'.Tdemin = d.Tdemin) : d'.Ordered :=
  ⟨by rw [hn, hd]; exact h.next, by rw [hd, he]; exact h.event⟩

theorem Ordered.lowerEvent (h : d.Ordered) (ht : d.Tnext ≤ t) : (d.lowerEvent t).Ordered := by
  unfold DependencyInfo.lowerEvent
  by_cases hlt : t < d.Tdemin
  · rw [if_pos hlt]
    exact ⟨ht, le_rfl⟩
  · rw [if_neg hlt]
    exact ⟨h.next, not_lt.mp hlt⟩

theorem Ordered.onSendMessage (h : d.Ordered) (m : ActionMessage) :
    (d.onSendMessage m).2.Ordered := by
  unfold DependencyInfo.onSendMessage
  split
  · split
    · exact h.of_times rfl rfl rfl
    · exact h
  split
  · split
    · exact h.lowerEvent (le_max_left _ _)
    · exact h
  · split
    · exact h.lowerEvent le_rfl
    · exact h

theorem onTimeRequest_Te (d : DependencyInfo) (m : ActionMessage) :
    (d.onTimeRequest m).Te = min d.forwardEvent m.Te :=
  (min_def_lt d.forwardEvent m.Te).symm

theorem onTimeRequest_Tdemin (d : DependencyInfo) (m : ActionMessage) :
    (d.onTimeRequest m).Tdemin = min (d.onTimeRequest m).Te m.Tdemin :=
  (min_def_lt (d.onTimeRequest m).Te m.Tdemin).symm

theorem ordered_onTimeRequest_iff (d : DependencyInfo)
    (hm : m.actionTime ≤ m.Tdemin ∧ m.Tdemin ≤ m.Te) :
    (d.onTimeRequest m).Ordered ↔ m.actionTime ≤ d.forwardEvent := by
  have hte := d.onTimeRequest_Te m
  have hde := d.onTimeRequest_Tdemin m
  constructor
  · intro h
    have hnext : m.actionTime ≤ (d.onTimeRequest m).Te := h.next.trans h.event
    rw [hte] at hnext
    exact hnext.trans (min_le_left _ _)
  · intro hf
    refine ⟨?_, hde ▸ min_le_left _ _⟩
    rw [hde, hte]
    exact le_min (le_min hf (hm.1.trans hm.2)) hm.1

/-- No request comes that is later than a message seen since the last grant. -/
def InTime (d : DependencyInfo) (m : ActionMessage) : Prop :=
  m.messageAction = .cmdTimeRequest → m.actionTime ≤ d.forwardEvent

theorem processMessage_timeRequest (ha : m.messageAction = .cmdTimeRequest)
    (d : DependencyInfo) : (d.processMessage m).2 = d.onTimeRequest m := by
  unfold processMessage
  rw [ha]

theorem Ordered.processMessage_iff (h : d.Ordered)
    (hm : WellFormed m) : (d.processMessage m).2.Ordered ↔ d.InTime m := by
  by_cases ha : m.messageAction = .cmdTimeRequest
  · rw [processMessage_timeRequest ha, d.ordered_onTimeRequest_iff (hm ha)]
    exact ⟨fun ht _ => ht, fun ht => ht ha⟩
  refine iff_of_true ?_ fun h => absurd h ha
  unfold DependencyInfo.processMessage
  split
  · exact h.of_times rfl rfl rfl
  · unfold DependencyInfo.onExecGrant
    split
    · exact h.of_times rfl rfl rfl
    · exact ordered_of_eq rfl rfl
  · rename_i hr
    exact absurd hr ha
  · exact ordered_of_eq rfl rfl
  case h_11 => exact h.onSendMessage m
  case h_12 => exact h
  all_goals exact ordered_of_eq rfl rfl

theorem Ordered.resetIteratingTimeRequest (h : d.Ordered) (t : Time) :
    (d.resetIteratingTimeRequest t).Ordered := by
  unfold DependencyInfo.resetIteratingTimeRequest
  split
  · rename_i hr
    exact ordered_of_eq hr.2 rfl
  · exact h

inductive Step where
  | message (m : ActionMessage)
  | resetIteratingTimeRequests (requestTime : Time)
  | resetDependentEvents (grantTime : Time)

def step (d : DependencyInfo) : Step → DependencyInfo
  | .message m => (d.processMessage m).2
  | .resetIteratingTimeRequests t => d.resetIteratingTimeRequest t
  | .resetDependentEvents t => d.resetDependentEvent t

def after (d : DependencyInfo) (steps : List Step) : DependencyInfo := steps.foldl step d

theorem Ordered.step_iff (h : d.Ordered) (s : Step) (hs : ∀ m, s = .message m → WellFormed m) :
    (d.step s).Ordered ↔ ∀ m, s = .message m → d.InTime m := by
  cases s with
  | message m =>
    refine (h.processMessage_iff (hs m rfl)).trans ⟨fun ht m' hm => ?_, fun ht => ht m rfl⟩
    obtain rfl := Step.message.inj hm
    exact ht
  | resetIteratingTimeRequests t =>
    exact iff_of_true (h.resetIteratingTimeRequest t) fun m hm => nomatch hm
  | resetDependentEvents t =>
    exact iff_of_true (⟨le_max_left _ _, le_rfl⟩) fun m hm => nomatch hm

end DependencyInfo

theorem TimeFactors.addDependency_trusted (f : TimeFactors) (h : d.Ordered) :
    (f.addDependency d).minminDe = min d.Tdemin f.minminDe := by
  unfold TimeFactors.addDependency
  rw [if_pos h.next]
  exact (min_def_lt d.Tdemin f.minminDe).symm

namespace DependencyInfo

/-- A record stays in order, and trusted, exactly as long as no request arrives that is later than
a message seen since the last grant. -/
theorem ordered_after_iff (d : DependencyInfo) (hd : d.Ordered) (steps : List Step)
    (hw : ∀ m, Step.message m ∈ steps → WellFormed m) : (∀ pre post, steps = pre ++ post →
      (d.after pre).Ordered ∧ ∀ f : TimeFactors,
        (f.addDependency (d.after pre)).minminDe = min (d.after pre).Tdemin f.minminDe) ↔
    ∀ pre m post, steps = pre ++ .message m :: post → (d.after pre).InTime m := by
  have hlast (pre : List Step) (s : Step) : d.after (pre ++ [s]) = (d.after pre).step s :=
    List.foldl_append
  constructor
  · intro h pre m post heq
    have hm : WellFormed m := hw m (by rw [heq]; simp)
    have hnow := (h pre _ heq).1
    have hnext := (h (pre ++ [.message m]) post (by rw [heq]; simp)).1
    rw [hlast] at hnext
    exact (hnow.processMessage_iff hm).mp hnext
  · intro h pre
    -- the order is kept from one prefix to the next
    induction pre using List.reverseRecOn with
    | nil => exact fun post _ => ⟨hd, fun f => f.addDependency_trusted hd⟩
    | append_singleton pre s ih =>
      intro post heq
      have heq' : steps = pre ++ s :: post := by rw [heq]; simp
      have hnext : (d.after (pre ++ [s])).Ordered := by
        rw [hlast]
        refine ((ih _ heq').1.step_iff s fun m hm => hw m ?_).mpr fun m hm => ?_
        · rw [heq', hm]
          simp
        · subst hm
          exact h pre m post heq'
      exact ⟨hnext, fun f => f.addDependency_trusted hnext⟩

def grantAt (t : Int) : ActionMessage := { messageAction := .cmdTimeGrant, actionTime := .wrap t }

def messageAt (t : Int) : ActionMessage :=
  { messageAction := .cmdSendMessage, actionTime := .wrap t }

def requestAt (t te : Int) : ActionMessage :=
  { messageAction := .cmdTimeRequest, actionTime := .wrap t, Tdemin := .wrap t, Te := .wrap te }

/-- A message stamped 5 seen after the grant of 10 puts the request for 11 out of order. -/
theorem early_message_disorders : let d : DependencyInfo := { fedID := 131073 }
    let steps := [Step.message (grantAt 10), .message (messageAt 5), .message (requestAt 11 20)]
    d.Ordered ∧ (∀ m, Step.message m ∈ steps → WellFormed m) ∧
      (d.after steps).Tdemin = .wrap 5 ∧ (d.after steps).Tnext = .wrap 11 ∧
      ¬ (d.after steps).Ordered := by
  refine ⟨⟨by decide, by decide⟩, ?_, by decide, by decide, fun h => absurd h.next (by decide)⟩
  intro m hm
  simp only [List.mem_cons, Step.message.injEq, List.not_mem_nil, or_false] at hm
  obtain rfl | rfl | rfl := hm
  · exact nofun
  · exact nofun
  · exact fun _ => ⟨by decide, by decide⟩

theorem ordered_after_of_late_message : let d : DependencyInfo := { fedID := 131073 }
    let steps := [Step.message (grantAt 10), .message (messageAt 15), .message (requestAt 11 20),
      .resetDependentEvents (.wrap 10)]
    d.Ordered ∧ (d.after steps).Ordered := by
  refine ⟨⟨by decide, by decide⟩, ((ordered_after_iff _ ⟨by decide, by decide⟩ _ ?_).mpr ?_ _ []
    (List.append_nil _).symm).1⟩
  · intro m hm
    simp only [List.mem_cons, Step.message.injEq, List.not_mem_nil, or_false, reduceCtorEq] at hm
    obtain rfl | rfl | rfl := hm
    · exact nofun
    · exact nofun
    · exact fun _ => ⟨by decide, by decide⟩
  · intro pre m post heq
    match pre, heq with
    | [], heq => cases heq; exact nofun
    | [_], heq => cases heq; exact nofun
    | [_, _], heq => cases heq; exact fun _ => by decide
    | [_, _, _], heq => cases heq
    | _ :: _ :: _ :: _ :: pre, heq => simp at heq

end DependencyInfo

end Helics
