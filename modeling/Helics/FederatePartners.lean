import Helics.BrokerAnswers
import Helics.FederateInterfaces

namespace Helics

theorem find_map_key [DecidableEq κ] (key : α → κ) (l : List α) (h k : κ) {g : α → α}
    (hg : ∀ x, key (g x) = key x) :
    (l.map (fun x => if key x = h then g x else x)).find? (fun x => decide (key x = k)) =
      (l.find? (fun x => decide (key x = k))).map (fun x => if k = h then g x else x) := by
  induction l with
  | nil => rfl
  | cons x l ih =>
    have hkey : key (if key x = h then g x else x) = key x := by
      split
      · exact hg x
      · rfl
    rw [List.map_cons]
    by_cases hx : key x = k
    · rw [List.find?_cons_of_pos (by rw [hkey]; exact decide_eq_true hx),
        List.find?_cons_of_pos (by exact decide_eq_true hx), Option.map_some, hx]
    · rw [List.find?_cons_of_neg (by rw [hkey]; exact fun hd => hx (of_decide_eq_true hd)),
        List.find?_cons_of_neg (by exact fun hd => hx (of_decide_eq_true hd)), ih]

namespace FederateInterfaces

def partners (f : FederateInterfaces) (what : HandleType) (handle : InterfaceHandle) :
    List GlobalHandle :=
  match what with
  | .publication => (f.getPublication handle).elim [] (·.subscribers)
  | .input => (f.getInput handle).elim [] (·.inputSources)
  | _ => []

def Holds (f : FederateInterfaces) (what : HandleType) (handle : InterfaceHandle) : Prop :=
  match what with
  | .publication => f.getPublication handle ≠ none
  | .input => f.getInput handle ≠ none
  | _ => True

variable (f : FederateInterfaces)

theorem partners_createInterface (what k : HandleType) (handle h : InterfaceHandle) :
    (f.createInterface what handle).partners k h = f.partners k h := by
  cases what with
  | publication =>
    cases k with
    | publication =>
      show ((f.publications ++ [_]).find? _).elim [] _ = _
      rw [List.find?_append]
      cases hfind : f.publications.find? (fun pub => decide (pub.id.handle = h)) with
      | some pub =>
        rw [Option.some_or]
        unfold partners getPublication
        rw [hfind]
      | none =>
        rw [Option.none_or]
        unfold partners getPublication
        rw [hfind, List.find?_singleton]
        split
        · rfl
        · rfl
    | input | endpoint | filter | unknown => rfl
  | input =>
    cases k with
    | input =>
      show ((f.inputs ++ [_]).find? _).elim [] _ = _
      rw [List.find?_append]
      cases hfind : f.inputs.find? (fun inp => decide (inp.id.handle = h)) with
      | some inp =>
        rw [Option.some_or]
        unfold partners getInput
        rw [hfind]
      | none =>
        rw [Option.none_or]
        unfold partners getInput
        rw [hfind, List.find?_singleton]
        split
        · rfl
        · rfl
    | publication | endpoint | filter | unknown => rfl
  | endpoint | filter | unknown => cases k <;> rfl

theorem holds_createInterface (what : HandleType) (handle : InterfaceHandle) :
    (f.createInterface what handle).Holds what handle := by
  cases what with
  | publication =>
    show (f.publications ++ [_]).find? _ ≠ none
    rw [List.find?_append, List.find?_singleton, if_pos (decide_eq_true rfl)]
    exact fun h => absurd (Option.or_eq_none_iff.mp h).2 nofun
  | input =>
    show (f.inputs ++ [_]).find? _ ≠ none
    rw [List.find?_append, List.find?_singleton, if_pos (decide_eq_true rfl)]
    exact fun h => absurd (Option.or_eq_none_iff.mp h).2 nofun
  | endpoint | filter | unknown => trivial

theorem Holds.createInterface {f : FederateInterfaces} (h : f.Holds k handle) (what : HandleType)
    (handle' : InterfaceHandle) : (f.createInterface what handle').Holds k handle := by
  have hor : ∀ {α : Type} {x : Option α} (y : Option α), x ≠ none → x.or y ≠ none := by
    intro α x y hx hor
    exact hx (Option.or_eq_none_iff.mp hor).1
  cases what with
  | publication =>
    cases k with
    | publication =>
      show (f.publications ++ [_]).find? _ ≠ none
      rw [List.find?_append]
      exact hor _ h
    | input => exact h
    | endpoint | filter | unknown => trivial
  | input =>
    cases k with
    | input =>
      show (f.inputs ++ [_]).find? _ ≠ none
      rw [List.find?_append]
      exact hor _ h
    | publication => exact h
    | endpoint | filter | unknown => trivial
  | endpoint | filter | unknown => cases k <;> exact h

theorem getPublication_modifyPublication (handle k : InterfaceHandle)
    (hg : ∀ p, (g p).id = p.id) :
    (f.modifyPublication handle g).getPublication k =
      (f.getPublication k).map (fun p => if k = handle then g p else p) :=
  find_map_key (fun p : PublicationInfo => p.id.handle) f.publications handle k
    (fun p => congrArg _ (hg p))

theorem getInput_modifyInput (handle k : InterfaceHandle)
    (hg : ∀ p, (g p).id = p.id) : (f.modifyInput handle g).getInput k =
      (f.getInput k).map (fun p => if k = handle then g p else p) :=
  find_map_key (fun p : InputInfo => p.id.handle) f.inputs handle k (fun p => congrArg _ (hg p))

variable {f}

theorem Holds.processActionMessage (h : f.Holds k handle)
    (hfor : m.action.isFor ≠ none) : (f.processActionMessage m).1.Holds k handle := by
  have hpub : ∀ (handle' : InterfaceHandle) (g : PublicationInfo → PublicationInfo),
      (∀ p, (g p).id = p.id) → (f.modifyPublication handle' g).Holds k handle := by
    intro handle' g hg
    cases k with
    | publication =>
      show (f.modifyPublication handle' g).getPublication handle ≠ none
      rw [getPublication_modifyPublication f handle' handle hg]
      exact fun hnone => h (Option.map_eq_none_iff.mp hnone)
    | input => exact h
    | endpoint | filter | unknown => trivial
  have hinp : ∀ (handle' : InterfaceHandle) (g : InputInfo → InputInfo),
      (∀ p, (g p).id = p.id) → (f.modifyInput handle' g).Holds k handle := by
    intro handle' g hg
    cases k with
    | input =>
      show (f.modifyInput handle' g).getInput handle ≠ none
      rw [getInput_modifyInput f handle' handle hg]
      exact fun hnone => h (Option.map_eq_none_iff.mp hnone)
    | publication => exact h
    | endpoint | filter | unknown => trivial
  unfold FederateInterfaces.processActionMessage
  cases hact : m.action with
  | cmdAddPublisher | cmdRemovePublication => exact hinp _ _ (fun _ => rfl)
  | cmdAddSubscriber | cmdRemoveSubscriber => exact hpub _ _ (fun _ => rfl)
  | cmdCloseInterface =>
    rw [hact] at hfor
    exact absurd rfl hfor
  | _ => exact h

theorem partners_addPartner
    (hact : m.action = what.addPartner) (hwhat : what ≠ .unknown)
    (hdata : k = .publication ∨ k = .input) (hholds : f.Holds what m.dest.handle)
    (handle : InterfaceHandle) :
    (f.processActionMessage m).1.partners k handle = f.partners k handle ++
      if k = what ∧ handle = m.dest.handle then [m.source] else [] := by
  have hquiet : (f.processActionMessage m).1 = f → k ≠ what →
      (f.processActionMessage m).1.partners k handle = f.partners k handle ++
        if k = what ∧ handle = m.dest.handle then [m.source] else [] := by
    intro hsame hne
    rw [hsame, if_neg (fun h => hne h.1), List.append_nil]
  cases what with
  | unknown => exact absurd rfl hwhat
  | endpoint =>
    refine hquiet ?_ (by rcases hdata with rfl | rfl <;> exact nofun)
    unfold processActionMessage
    rw [hact]
    rfl
  | filter =>
    refine hquiet ?_ (by rcases hdata with rfl | rfl <;> exact nofun)
    unfold processActionMessage
    rw [hact]
    rfl
  | publication =>
    have heq : (f.processActionMessage m).1 = f.modifyPublication m.dest.handle
        (fun pub => { pub with subscribers := pub.subscribers ++ [m.source] }) := by
      unfold processActionMessage
      rw [hact]
      rfl
    rw [heq]
    cases k with
    | publication =>
      show ((f.modifyPublication _ _).getPublication handle).elim [] _ =
        (f.getPublication handle).elim [] _ ++ _
      rw [getPublication_modifyPublication]
      · cases hfind : f.getPublication handle with
        | some pub =>
          rw [Option.map_some, Option.elim_some, Option.elim_some]
          by_cases hh : handle = m.dest.handle
          · rw [if_pos hh, if_pos ⟨rfl, hh⟩]
          · rw [if_neg hh, if_neg (fun h => hh h.2), List.append_nil]
        | none =>
          rw [if_neg]
          · rfl
          · rintro ⟨_, rfl⟩
            exact hholds hfind
      · exact fun _ => rfl
    | input | endpoint | filter | unknown => exact (List.append_nil _).symm
  | input =>
    have heq : (f.processActionMessage m).1 = f.modifyInput m.dest.handle
        (fun inp => inp.addSource m.source) := by
      unfold processActionMessage
      rw [hact]
      rfl
    rw [heq]
    cases k with
    | input =>
      show ((f.modifyInput _ _).getInput handle).elim [] _ = (f.getInput handle).elim [] _ ++ _
      rw [getInput_modifyInput]
      · cases hfind : f.getInput handle with
        | some inp =>
          rw [Option.map_some, Option.elim_some, Option.elim_some]
          by_cases hh : handle = m.dest.handle
          · rw [if_pos hh, if_pos ⟨rfl, hh⟩]
            rfl
          · rw [if_neg hh, if_neg (fun h => hh h.2), List.append_nil]
        | none =>
          rw [if_neg]
          · rfl
          · rintro ⟨_, rfl⟩
            exact hholds hfind
      · exact fun _ => rfl
    | publication | endpoint | filter | unknown => exact (List.append_nil _).symm

end FederateInterfaces

end Helics
