import Helics.CoreEffects

namespace Helics

def CoreEffect.carried : CoreEffect → Option ActionMessage
  | .transmit _ m | .addAction _ m | .postTermination _ m | .timeMessage m => some m
  | _ => none

def isMessageAction : Action → Bool
  | .cmdSendMessage | .cmdSendForFilter | .cmdSendForFilterAndReturn | .cmdFilterResult
  | .cmdNullMessage | .cmdDestFilterResult | .cmdNullDestMessage | .cmdIgnore => true
  | _ => false

namespace CommonCore

theorem carried_of_carries (h : Carries m e) : e.carried = some m := by
  cases e with
  | transmit _ _ | addAction _ _ | postTermination _ _ | timeMessage _ => exact congrArg some h
  | _ => cases h

/-- A class that also contains what the core does to messages, requests to destination filters
apart. -/
structure MessageClass (own : GlobalId) (A : ActionMessage → Prop) (E : CoreEffect → Prop) : Prop
    extends EffectClass own A E where
  inner : ∀ e, e.carried = none → E e
  message : ∀ m, isMessageAction m.messageAction = true → A m

theorem isMessageAction_filterRequest (m : ActionMessage) (filt : FilterInfo) (ii size : Nat) :
    isMessageAction (filterRequest m filt ii size).messageAction = true := by
  dsimp only [filterRequest]
  split
  · rfl
  · rfl

theorem isMessageAction_dropNotification (request : ActionMessage) :
    isMessageAction (dropNotification request).messageAction = true := by
  dsimp only [dropNotification]
  split
  · rfl
  · rfl

variable [DualMapped String GlobalId]

/-- The endpoint has a connected destination filter on another core. -/
structure RequestsDestFilter (c : CommonCore) (ept : BasicHandleInfo) (filt : FilterInfo) :
    Prop where
  known : ept ∈ c.endpoints.entries
  flag : ept.hasDestFilterFlag = true
  filter : ∃ ffunc, c.getFilterCoordinator ept.getInterfaceHandle = some ffunc ∧
    ffunc.destFilter = some filt
  connected : filt.disconnected = false
  remote : filt.coreId ≠ c.globalBrokerIdLocal

/-- The effects of handling a message stay in a class, except that a message may end in a request
to a destination filter. -/
def Delivers (E : CoreEffect → Prop) (c : CommonCore) (res : CommonCore × List CoreEffect) : Prop :=
  (Frame c res.1 ∧ ∀ e ∈ res.2, E e) ∨
    ∃ m ept filt pre, c.RequestsDestFilter ept filt ∧ (∀ e ∈ pre, E e) ∧
      res = ((c.requestDestFilter m ept filt).1, pre ++ (c.requestDestFilter m ept filt).2)

section
variable {own : GlobalId} {A : ActionMessage → Prop} {E : CoreEffect → Prop}

theorem Delivers.after (h : Delivers E c res) (hl : ∀ e ∈ l, E e) :
    Delivers E c (res.1, l ++ res.2) := by
  obtain ⟨hf, he⟩ | ⟨m, ept, filt, pre, hreq, hpre, rfl⟩ := h
  · left
    refine ⟨hf, ?_⟩
    intro e hm
    cases List.mem_append.mp hm with
    | inl h => exact hl e h
    | inr h => exact he e h
  · right
    refine ⟨m, ept, filt, l ++ pre, hreq, ?_, by rw [List.append_assoc]⟩
    intro e hm
    cases List.mem_append.mp hm with
    | inl h => exact hl e h
    | inr h => exact hpre e h

variable {c : CommonCore}

theorem effects_cloneToDestFilter (hE : EffectClass own A E)
    (hin : ∀ e, e.carried = none → E e) (hown : c.globalBrokerIdLocal = own) (hm : ∀ dest handle,
      A { m with messageAction := .cmdSendForFilter, destId := dest, destHandle := handle })
    (h : e ∈ (c.cloneToDestFilter m filt).2) : E e := by
  unfold cloneToDestFilter at h
  split at h
  · cases h
  split at h
  · split at h
    · dsimp only at h
      split at h
      · obtain rfl := List.mem_singleton.mp h
        exact hin _ rfl
      · cases h
    · cases h
  · exact effects_route hE hown (hm _ _) h

theorem effects_cloneToDestFilters (hE : EffectClass own A E)
    (hin : ∀ e, e.carried = none → E e) (hown : c.globalBrokerIdLocal = own) (hm : ∀ dest handle,
      A { m with messageAction := .cmdSendForFilter, destId := dest, destHandle := handle })
    (h : e ∈ (c.cloneToDestFilters m filts).2) : E e := by
  induction filts generalizing c with
  | nil => cases h
  | cons filt filts ih =>
    cases List.mem_append.mp h with
    | inl hf => exact effects_cloneToDestFilter hE hin hown hm hf
    | inr hr => exact ih ((c.frame_cloneToDestFilter m filt).own.trans hown) hr

theorem MessageClass.cloned (hE : MessageClass own A E)
    (hown : c.globalBrokerIdLocal = own) (h : e ∈ (c.cloneToDestFilters m filts).2) : E e :=
  effects_cloneToDestFilters hE.toEffectClass hE.inner hown (fun _ _ => hE.message _ rfl) h

theorem frame_deliverToEndpoint (c : CommonCore) (m : ActionMessage) (ept : BasicHandleInfo) :
    Frame c (c.deliverToEndpoint m ept).1 := c.frame_timeCoord _

section
variable (hE : MessageClass own A E)
include hE

theorem effects_deliverToEndpoint (hm : A m) (h : e ∈ (c.deliverToEndpoint m ept).2) : E e := by
  have hm' : A (if m.destId = parentBrokerId then m.setDestination ept.handle else m) := by
    split
    · exact hE.readdress m _ _ hm
    · exact hm
  unfold deliverToEndpoint at h
  cases List.mem_cons.mp h with
  | inl ht =>
    obtain rfl := ht
    exact hE.carry _ _ rfl hm'
  | inr ha =>
    split at ha
    · obtain rfl := List.mem_singleton.mp ha
      exact hE.carry _ _ rfl hm'
    · cases ha

theorem delivers_clone
    (hown : c.globalBrokerIdLocal = own) (hm : A m) (ept : BasicHandleInfo) (filts) :
    Delivers E c (((c.cloneToDestFilters m filts).1.deliverToEndpoint m ept).1,
      (c.cloneToDestFilters m filts).2 ++
        ((c.cloneToDestFilters m filts).1.deliverToEndpoint m ept).2) := by
  left
  refine ⟨(c.frame_cloneToDestFilters m filts).trans (frame_deliverToEndpoint _ m ept), ?_⟩
  intro e he
  cases List.mem_append.mp he with
  | inl h => exact hE.cloned hown h
  | inr h => exact effects_deliverToEndpoint hE hm h

theorem delivers_deliverLocally
    (hown : c.globalBrokerIdLocal = own) (hm : A m) (hk : ept ∈ c.endpoints.entries) :
    Delivers E c (c.deliverLocally m ept) := by
  unfold deliverLocally
  split
  · left
    exact ⟨c.frame_deliverToEndpoint m ept, fun e he => effects_deliverToEndpoint hE hm he⟩
  case h_2 ffunc hcoord =>
    have hflag : ept.hasDestFilterFlag = true ∧
        c.getFilterCoordinator ept.getInterfaceHandle = some ffunc := by
      split at hcoord
      case isTrue hfl => exact ⟨hfl, hcoord⟩
      case isFalse => cases hcoord
    split
    · exact delivers_clone hE hown hm ept _
    case h_2 filt hfilt =>
      obtain ⟨hdest, hconn⟩ := Option.filter_eq_some_iff.mp hfilt
      split
      case isTrue hremote =>
        right
        exact ⟨m, ept, filt, [], ⟨hk, hflag.1, ⟨ffunc, hflag.2, hdest⟩, by simpa using hconn,
          hremote⟩, fun e he => absurd he List.not_mem_nil, rfl⟩
      case isFalse =>
        cases filt.filterOp with
        | none => exact delivers_clone hE hown (hE.message _ rfl) ept _
        | some op =>
          have happly {e} (he : e ∈
              [CoreEffect.applyFilter filt.globalHandle (createMessageFromCommand m)]) : E e := by
            obtain rfl := List.mem_singleton.mp he
            exact hE.inner _ rfl
          dsimp only
          split
          · left
            refine ⟨.refl c, ?_⟩
            intro e he
            cases List.mem_append.mp he with
            | inl h => exact happly h
            | inr h =>
              obtain rfl := List.mem_singleton.mp h
              exact hE.inner _ rfl
          · rw [List.append_assoc]
            exact (delivers_clone hE hown (hE.message _ rfl) ept _).after fun e => happly

end

theorem destinationOf_mem (h : c.destinationOf m = some ept) : ept ∈ c.endpoints.entries := by
  unfold destinationOf at h
  split at h
  · exact List.mem_of_find?_eq_some h
  · exact List.mem_of_find?_eq_some h

theorem delivers_deliverMessage (hE : MessageClass own A E)
    (hown : c.globalBrokerIdLocal = own) (hm : A m) : Delivers E c (c.deliverMessage m) := by
  have hmark (e) (he : e ∈ if m.destId = parentBrokerId then [CoreEffect.deliver m] else []) :
      E e := by
    split at he
    · obtain rfl := List.mem_singleton.mp he
      exact hE.inner _ rfl
    · cases he
  unfold deliverMessage
  split
  · dsimp only
    split
    · left
      refine ⟨.refl c, ?_⟩
      intro e he
      cases List.mem_append.mp he with
      | inl h => exact hmark e h
      | inr h =>
        obtain rfl := List.mem_singleton.mp h
        exact hE.carry m _ rfl hm
    case h_2 ept hept =>
      exact (delivers_deliverLocally hE hown hm (destinationOf_mem hept)).after hmark
  · left
    refine ⟨.refl c, ?_⟩
    intro e he
    obtain rfl := List.mem_singleton.mp he
    exact hE.carry m _ rfl hm

theorem effects_sourceFilterLoop (hE : MessageClass own A E)
    (hown : c.globalBrokerIdLocal = own) (h : e ∈ (sourceFilterLoop fed size c filts ii m).2.2) :
    E e := by
  induction filts generalizing c ii m with
  | nil => cases h
  | cons filt filts ih =>
    unfold sourceFilterLoop at h
    split at h
    · exact ih hown h
    split at h
    · split at h
      · obtain rfl := List.mem_singleton.mp h
        exact hE.inner _ rfl
      dsimp only at h
      split at h
      · cases List.mem_cons.mp h with
        | inl ha => exact ha ▸ hE.inner _ rfl
        | inr hr => exact ih hown hr
      split at h
      · cases List.mem_cons.mp h with
        | inl ha => exact ha ▸ hE.inner _ rfl
        | inr hr => exact ih hown hr
      · obtain rfl := List.mem_singleton.mp h
        exact hE.inner _ rfl
    · split at h
      · cases List.mem_append.mp h with
        | inl hs => exact effects_route hE.toEffectClass hown (hE.message _ rfl) hs
        | inr hr => exact ih ((c.frame_route _ _).own.trans hown) hr
      · cases h

theorem frame_sourceFilterLoop (fed : GlobalId) (size : Nat) (c : CommonCore)
    (filts : List FilterInfo) (ii : Nat) (m : ActionMessage) :
    ∃ c₁, Frame c c₁ ∧ ((sourceFilterLoop fed size c filts ii m).1 = c₁ ∨
      ∃ id, (sourceFilterLoop fed size c filts ii m).1 = c₁.addOngoing fed id) := by
  induction filts generalizing c ii m with
  | nil => exact ⟨c, .refl c, .inl rfl⟩
  | cons filt filts ih =>
    unfold sourceFilterLoop
    split
    · exact ih c ii m
    split
    · split
      · exact ⟨c, .refl c, .inl rfl⟩
      dsimp only
      split
      · exact ih c _ m
      · split
        · exact ih c _ _
        · exact ⟨c, .refl c, .inl rfl⟩
    · split
      · have hsent := c.frame_route (cloneRequest m filt) false
        obtain ⟨c₁, hc₁, hres⟩ := ih (c.routeMessage (cloneRequest m filt)).1 (ii + 1) m
        exact ⟨c₁, hsent.trans hc₁, hres⟩
      refine ⟨c, .refl c, ?_⟩
      split
      · exact .inr ⟨_, rfl⟩
      · exact .inl rfl

theorem action_sourceFilterLoop (c : CommonCore) (filts : List FilterInfo) (ii : Nat)
    (h : isMessageAction m.messageAction = true) :
    isMessageAction (sourceFilterLoop fed size c filts ii m).2.1.messageAction = true := by
  induction filts generalizing c ii m with
  | nil => exact h
  | cons filt filts ih =>
    unfold sourceFilterLoop
    split
    · exact ih c ii h
    split
    · split
      · rfl
      dsimp only
      split
      · exact ih c _ h
      · split
        · exact ih c _ rfl
        · rfl
    · split
      · exact ih _ _ h
      · exact isMessageAction_filterRequest m filt ii size

/-- The first pass over the filters of a sent message. -/
theorem processMessage_spec (hE : MessageClass own A E)
    (hown : c.globalBrokerIdLocal = own) (hact : isMessageAction m.messageAction = true) :
    (∀ e ∈ (c.processMessage m).2.2, E e) ∧
      isMessageAction (c.processMessage m).2.1.messageAction = true ∧
      ∃ c₁, Frame c c₁ ∧ ((c.processMessage m).1 = c₁ ∨
        ∃ fed id, (c.processMessage m).1 = c₁.addOngoing fed id) := by
  have hnone : ∀ e ∈ ([] : List CoreEffect), E e := fun e he => absurd he List.not_mem_nil
  unfold processMessage
  split
  · exact ⟨hnone, hact, c, .refl c, .inl rfl⟩
  split
  · split
    · refine ⟨?_, hact, c, .refl c, .inl rfl⟩
      intro e he
      obtain rfl := List.mem_singleton.mp he
      exact hE.inner _ rfl
    split
    · obtain ⟨c₁, hc₁, hres⟩ := frame_sourceFilterLoop _ _ c _ 0 m
      refine ⟨fun e he => effects_sourceFilterLoop hE hown he,
        action_sourceFilterLoop c _ 0 hact, c₁, hc₁, ?_⟩
      cases hres with
      | inl h => exact .inl h
      | inr h => exact .inr ⟨_, h⟩
    · exact ⟨hnone, hact, c, .refl c, .inl rfl⟩
  · exact ⟨hnone, hact, c, .refl c, .inl rfl⟩

theorem isMessageAction_filterReply (c : CommonCore) (request reply : ActionMessage)
    (filt : FilterInfo) :
    isMessageAction (c.filterReply request reply filt).messageAction = true := by
  dsimp only [filterReply]
  split
  · rfl
  · rfl

theorem delivers_runFilter (hE : MessageClass own A E)
    (hown : c.globalBrokerIdLocal = own) (cmd : ActionMessage) (filt : FilterInfo)
    (op : Message → Option Message) : Delivers E c (c.runFilter cmd filt op) := by
  unfold runFilter
  refine Delivers.after (l := [_]) ?_ ?_
  · split
    · split
      · exact delivers_deliverMessage hE hown (hE.message _ (isMessageAction_filterReply _ _ _ _))
      · exact delivers_deliverMessage hE hown (hE.message _ rfl)
    · split
      · exact delivers_deliverMessage hE hown (hE.message _ (isMessageAction_dropNotification cmd))
      · exact .inl ⟨.refl c, fun e he => absurd he List.not_mem_nil⟩
  · intro e he
    obtain rfl := List.mem_singleton.mp he
    exact hE.inner _ rfl

theorem delivers_processMessageFilter (hE : MessageClass own A E)
    (hown : c.globalBrokerIdLocal = own) (hcmd : A cmd) :
    Delivers E c (c.processMessageFilter cmd) := by
  have hpass (route : RouteId) : Delivers E c (c, [.transmit route cmd]) := by
    left
    refine ⟨.refl c, ?_⟩
    intro e he
    obtain rfl := List.mem_singleton.mp he
    exact hE.carry cmd _ rfl hcmd
  unfold processMessageFilter
  split
  · exact hpass _
  split
  · split
    · exact .inl ⟨.refl c, fun e he => absurd he List.not_mem_nil⟩
    split
    · split
      · left
        refine ⟨.refl c, ?_⟩
        intro e he
        obtain rfl := List.mem_singleton.mp he
        exact hE.inner _ rfl
      · exact delivers_runFilter hE hown cmd _ _
    · unfold skipFilter
      split
      · exact delivers_deliverMessage hE hown (hE.message _ (isMessageAction_filterReply _ _ _ _))
      · exact delivers_deliverMessage hE hown (hE.message _ rfl)
  · exact hpass _

end

end CommonCore

end Helics
