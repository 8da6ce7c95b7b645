import Helics.InterfaceRoster

namespace Helics

theorem or_and_distrib (a b c : UInt16) : (a ||| b) &&& c = (a &&& c) ||| (b &&& c) := by
  apply UInt16.toBitVec_inj.mp
  ext i hi
  simp [Bool.and_or_distrib_right]

theorem checkActionFlag_setActionFlag {flag other : UInt16}
    (h : (1 <<< flag) &&& (1 <<< other) = (0 : UInt16)) (flags : UInt16) :
    checkActionFlag (setActionFlag flags flag) other = checkActionFlag flags other := by
  unfold checkActionFlag setActionFlag
  rw [or_and_distrib, h, UInt16.or_zero]

/-- Two records that differ at most in flags other than the one for closed interfaces. -/
structure HandleInfo.Like (x y : HandleInfo) : Prop where
  same : x = { y with flags := x.flags }
  open_iff : checkActionFlag x.flags disconnectedFlag = checkActionFlag y.flags disconnectedFlag

theorem HandleInfo.Like.refl (x : HandleInfo) : x.Like x := ⟨rfl, rfl⟩

variable {x y : HandleInfo}

theorem HandleInfo.Like.handle (h : x.Like y) : x.handle = y.handle := by
  rw [h.same]

theorem HandleInfo.Like.handleType (h : x.Like y) : x.handleType = y.handleType := by
  rw [h.same]

theorem HandleInfo.Like.key (h : x.Like y) : x.key = y.key := by
  rw [h.same]

theorem HandleInfo.Like.trans (h : x.Like y) (h' : y.Like z) : x.Like z where
  same := by
    rw [h.same, h'.same]
  open_iff := h.open_iff.trans h'.open_iff

structure Relabeled (m m' : HandleManager) : Prop where
  names : m'.names = m.names
  ids : m'.uniqueIds = m.uniqueIds
  entry : ∀ {i : Nat} {x'}, m'.handles[i]? = some x' → ∃ x, m.handles[i]? = some x ∧ x'.Like x
  kept : ∀ {i : Nat} {x}, m.handles[i]? = some x → ∃ x', m'.handles[i]? = some x' ∧ x'.Like x

namespace Relabeled

theorem refl (m : HandleManager) : Relabeled m m where
  names := rfl
  ids := rfl
  entry := fun h => ⟨_, h, .refl _⟩
  kept := fun h => ⟨_, h, .refl _⟩

theorem trans (h : Relabeled m m') (h' : Relabeled m' m'') : Relabeled m m'' where
  names := h'.names.trans h.names
  ids := h'.ids.trans h.ids
  entry := by
    intro i x hx
    obtain ⟨x', hx', hlike⟩ := h'.entry hx
    obtain ⟨x'', hx'', hlike'⟩ := h.entry hx'
    exact ⟨x'', hx'', hlike.trans hlike'⟩
  kept := by
    intro i x hx
    obtain ⟨x', hx', hlike⟩ := h.kept hx
    obtain ⟨x'', hx'', hlike'⟩ := h'.kept hx'
    exact ⟨x'', hx'', hlike'.trans hlike⟩

theorem modifyFlags (m : HandleManager) (index : Nat) {flag : UInt16}
    (h : (1 <<< flag) &&& (1 <<< disconnectedFlag) = (0 : UInt16)) :
    Relabeled m (m.modifyFlags index (setActionFlag · flag)) where
  names := rfl
  ids := rfl
  entry := by
    intro i x' hx'
    unfold HandleManager.modifyFlags at hx'
    rw [List.getElem?_modify] at hx'
    obtain ⟨x, hx, rfl⟩ := Option.map_eq_some_iff.mp hx'
    refine ⟨x, hx, ?_⟩
    split
    · exact ⟨rfl, checkActionFlag_setActionFlag h x.flags⟩
    · exact .refl x
  kept := by
    intro i x hx
    unfold HandleManager.modifyFlags
    rw [List.getElem?_modify, hx]
    refine ⟨_, rfl, ?_⟩
    split
    · exact ⟨rfl, checkActionFlag_setActionFlag h x.flags⟩
    · exact .refl x

theorem find (h : Relabeled m m') (hx : m'.find what name = some x') :
    ∃ x, m.find what name = some x ∧ x'.Like x := by
  unfold HandleManager.find at hx ⊢
  obtain ⟨i, hi, hget⟩ := Option.bind_eq_some_iff.mp hx
  obtain ⟨x, hold, hlike⟩ := h.entry hget
  rw [h.names] at hi
  exact ⟨x, by rw [hi]; exact hold, hlike⟩

theorem findHandle (h : Relabeled m m') :
    m'.findHandle handle ≠ none ↔ m.findHandle handle ≠ none := by
  rw [HandleManager.findHandle_ne_none_iff, HandleManager.findHandle_ne_none_iff, h.ids]

end Relabeled

structure SameMembers (c c' : InterfaceCore) : Prop where
  id : c'.globalBrokerIdLocal = c.globalBrokerIdLocal
  higher : c'.higherBrokerId = c.higherBrokerId
  state : c'.brokerState = c.brokerState
  federates : c'.loopFederates = c.loopFederates
  handles : c'.handles = c.handles

namespace SameMembers

theorem refl (c : InterfaceCore) : SameMembers c c := ⟨rfl, rfl, rfl, rfl, rfl⟩

theorem trans (h : SameMembers c c') (h' : SameMembers c' c'') : SameMembers c c'' where
  id := h'.id.trans h.id
  higher := h'.higher.trans h.higher
  state := h'.state.trans h.state
  federates := h'.federates.trans h.federates
  handles := h'.handles.trans h.handles

theorem isLocal (h : SameMembers c c') (fed : GlobalId) : c'.isLocal fed = c.isLocal fed := by
  unfold InterfaceCore.isLocal
  rw [h.federates]

end SameMembers

structure CoreKept (c c' : InterfaceCore) : Prop extends SameMembers c c' where
  loop : Relabeled c.loopHandles c'.loopHandles

namespace CoreKept

theorem of_eq (h : SameMembers c c') (hloop : c'.loopHandles = c.loopHandles) : CoreKept c c' :=
  ⟨h, hloop ▸ .refl _⟩

theorem refl (c : InterfaceCore) : CoreKept c c := of_eq (.refl c) rfl

theorem trans (h : CoreKept c c') (h' : CoreKept c' c'') : CoreKept c c'' :=
  ⟨h.toSameMembers.trans h'.toSameMembers, h.loop.trans h'.loop⟩

end CoreKept

namespace InterfaceCore

variable (c : InterfaceCore) (cmd : InterfaceMessage)

theorem kept_ensureFilter : CoreKept c (c.ensureFilter cmd) := by
  unfold ensureFilter
  split
  · exact .refl c
  · exact .of_eq ⟨rfl, rfl, rfl, rfl, rfl⟩ rfl

theorem kept_mark (o : Option HandleInfo) (c : InterfaceCore) (handle : InterfaceHandle)
    {flag : UInt16} (h : (1 <<< flag) &&& (1 <<< disconnectedFlag) = (0 : UInt16)) :
    CoreKept c (o.elim c (fun _ => c.setLoopFlag handle flag)) := by
  cases o with
  | none => exact .refl c
  | some _ => exact ⟨⟨rfl, rfl, rfl, rfl, rfl⟩, .modifyFlags _ _ h⟩

theorem kept_addDestFilter (coordinator : EndpointFilters)
    (cmd : InterfaceMessage) : CoreKept c (c.addDestFilter coordinator cmd).1 := by
  have hmark := kept_mark (c.loopEndpoint cmd.dest.handle) c cmd.dest.handle
    (show (1 <<< hasDestFilterFlag) &&& (1 <<< disconnectedFlag) = (0 : UInt16) by decide)
  have hmade := hmark.trans (kept_ensureFilter _ cmd)
  unfold addDestFilter
  dsimp only
  split
  · exact hmark
  split
  · exact hmade.trans (.of_eq ⟨rfl, rfl, rfl, rfl, rfl⟩ rfl)
  · exact (hmade.trans (kept_mark _ _ cmd.dest.handle (by decide))).trans
      (.of_eq ⟨rfl, rfl, rfl, rfl, rfl⟩ rfl)

theorem kept_processFilterInfo : CoreKept c (c.processFilterInfo cmd).1 := by
  have hset : ∀ (c' : InterfaceCore) coordinator,
      CoreKept c' (c'.setFilterCoordinator cmd.dest.handle coordinator) :=
    fun _ _ => .of_eq ⟨rfl, rfl, rfl, rfl, rfl⟩ rfl
  unfold processFilterInfo
  split
  · exact .refl c
  split
  · split
    · exact .refl c
    · exact c.kept_addDestFilter _ cmd
  split
  · exact .refl c
  · exact ((c.kept_ensureFilter cmd).trans (hset _ _)).trans
      (kept_mark _ _ cmd.dest.handle (by decide))

theorem kept_addTargetToInterface : CoreKept c (c.addTargetToInterface cmd).1 := by
  unfold addTargetToInterface
  split
  · exact c.kept_processFilterInfo cmd
  split
  · dsimp only
    split
    · unfold addFilterTarget
      split
      · exact .refl c
      · dsimp only
        split <;> exact .of_eq ⟨rfl, rfl, rfl, rfl, rfl⟩ rfl
    · exact .refl c
  · split <;> exact .refl c

theorem kept_removeTargetFromInterface : CoreKept c (c.removeTargetFromInterface cmd).1 := by
  unfold removeTargetFromInterface
  split
  · split
    · exact .refl c
    · unfold closeFilter
      split <;> exact .of_eq ⟨rfl, rfl, rfl, rfl, rfl⟩ rfl
  · split
    · dsimp only
      split <;> exact .of_eq ⟨rfl, rfl, rfl, rfl, rfl⟩ rfl
    · split <;> exact .refl c

theorem kept_both {c : InterfaceCore} (h : ∀ c cmd, CoreKept c (handler c cmd).1)
    (first second : InterfaceMessage) : CoreKept c (c.both handler first second).1 :=
  (h c first).trans (h _ second)

theorem kept_checkForNamedInterface : CoreKept c (c.checkForNamedInterface cmd).1 := by
  have hconnect : ∀ target toTarget toSource strings back,
      CoreKept c (c.connect cmd target toTarget toSource strings back).1 := by
    intro target toTarget toSource strings back
    unfold connect
    split
    · exact .refl c
    · exact kept_both kept_addTargetToInterface _ _
  unfold checkForNamedInterface
  dsimp only
  split
  · rename_i result hanswer
    split at hanswer
    all_goals first
      | cases hanswer
      | (obtain ⟨info, _, rfl⟩ := Option.map_eq_some_iff.mp hanswer
         exact hconnect _ _ _ _ _)
  · exact .refl c

theorem kept_removeNamedTarget : CoreKept c (c.removeNamedTarget cmd).1 := by
  unfold removeNamedTarget
  dsimp only
  split
  · rename_i result hanswer
    split at hanswer
    all_goals first
      | cases hanswer
      | (obtain ⟨info, _, rfl⟩ := Option.map_eq_some_iff.mp hanswer
         exact kept_both kept_removeTargetFromInterface _ _)
  · exact .refl c

theorem kept_dataLink : CoreKept c (c.dataLink cmd).1 := by
  unfold dataLink
  split
  · exact c.kept_checkForNamedInterface _
  · split
    · exact .refl c
    · exact c.kept_checkForNamedInterface _

theorem kept_filterLink : CoreKept c (c.filterLink cmd).1 := by
  unfold filterLink
  split
  · exact c.kept_checkForNamedInterface _
  · split
    · exact .refl c
    · exact c.kept_checkForNamedInterface _

variable {cmd}

/-- Only registrations and closings change the table of the command loop. -/
theorem kept_processCommand (hno : cmd.action.registers = none)
    (hopen : cmd.action ≠ .cmdCloseInterface) : CoreKept c (c.processCommand cmd).1 := by
  unfold processCommand
  cases hact : cmd.action with
  | cmdDataLink => exact c.kept_dataLink cmd
  | cmdFilterLink => exact c.kept_filterLink cmd
  | cmdRegInput | cmdRegEndpoint | cmdRegPub | cmdRegFilter =>
    rw [hact] at hno
    cases hno
  | cmdAddNamedEndpoint | cmdAddNamedPublication | cmdAddNamedInput | cmdAddNamedFilter =>
    exact c.kept_checkForNamedInterface cmd
  | cmdAddEndpoint | cmdAddFilter | cmdAddSubscriber | cmdAddPublisher =>
    exact c.kept_addTargetToInterface cmd
  | cmdRemoveNamedEndpoint | cmdRemoveNamedPublication | cmdRemoveNamedInput
  | cmdRemoveNamedFilter => exact c.kept_removeNamedTarget cmd
  | cmdRemovePublication | cmdRemoveSubscriber | cmdRemoveFilter | cmdRemoveEndpoint =>
    exact c.kept_removeTargetFromInterface cmd
  | cmdCloseInterface => exact absurd hact hopen

theorem sameMembers_joinForEndpoint (fed : GlobalId) : SameMembers c (c.joinForEndpoint fed).1 := by
  unfold joinForEndpoint
  dsimp only
  split
  · split <;> exact ⟨rfl, rfl, rfl, rfl, rfl⟩
  · split
    · split <;> exact ⟨rfl, rfl, rfl, rfl, rfl⟩
    · split <;> exact ⟨rfl, rfl, rfl, rfl, rfl⟩

theorem sameMembers_joinForFilter : SameMembers c c.joinForFilter.1 := by
  unfold joinForFilter
  split
  · exact .refl c
  · dsimp only
    split <;> exact ⟨rfl, rfl, rfl, rfl, rfl⟩

theorem sameMembers_copyHandle (handle : InterfaceHandle) :
    SameMembers c (c.copyHandle handle) := by
  unfold copyHandle
  split
  · exact ⟨rfl, rfl, rfl, rfl, rfl⟩
  · exact .refl c

variable (cmd)

theorem sameMembers_registerInterface : SameMembers c (c.registerInterface cmd).1 := by
  have hcopy := c.sameMembers_copyHandle cmd.source.handle
  unfold registerInterface
  split
  · split
    · exact hcopy.trans (sameMembers_joinForEndpoint _ _)
    · have hmade : ∀ (c' : InterfaceCore) dest handle key typeIn typeOut cloning,
          SameMembers c' (c'.createFilter dest handle key typeIn typeOut cloning) :=
        fun _ _ _ _ _ _ _ => ⟨rfl, rfl, rfl, rfl, rfl⟩
      exact (hcopy.trans (hmade _ _ _ _ _ _ _)).trans (sameMembers_joinForFilter _)
    · exact hcopy
  · split
    · split
      · split
        · exact .refl c
        · exact ⟨rfl, rfl, rfl, rfl, rfl⟩
      · exact (c.kept_processFilterInfo cmd).toSameMembers
      · exact .refl c
    · exact .refl c

theorem sameMembers_disconnectInterface : SameMembers c (c.disconnectInterface cmd).1 := by
  unfold disconnectInterface
  split
  · exact .refl c
  split
  · exact .refl c
  split
  · split <;> exact ⟨rfl, rfl, rfl, rfl, rfl⟩
  · split <;> exact ⟨rfl, rfl, rfl, rfl, rfl⟩

/-- Interface commands change neither the federates of a core nor the table of its users. -/
theorem sameMembers_processCommand : SameMembers c (c.processCommand cmd).1 := by
  by_cases hno : cmd.action.registers = none
  · by_cases hopen : cmd.action = .cmdCloseInterface
    · unfold processCommand
      rw [hopen]
      exact c.sameMembers_disconnectInterface cmd
    · exact (c.kept_processCommand hno hopen).toSameMembers
  · have hregisters : c.processCommand cmd = c.registerInterface cmd := by
      unfold processCommand
      cases hact : cmd.action <;> rw [hact] at hno <;> first | rfl | exact absurd rfl hno
    rw [hregisters]
    exact c.sameMembers_registerInterface cmd

end InterfaceCore

/-- The place of a core in the tree, and the federates that it serves. -/
structure WiredCore (t : Topology) (n : GlobalId) (c : InterfaceCore) : Prop where
  id : c.globalBrokerIdLocal = n
  members : ∀ {f}, c.isLocal f = true ↔ t.isCore f = false ∧ t.home f = some n

theorem WiredCore.of_sameMembers (h : WiredCore t n c) (hs : SameMembers c c') :
    WiredCore t n c' where
  id := hs.id.trans h.id
  members := by
    intro f
    rw [hs.isLocal]
    exact h.members

/-- The users of a core have registered the first interfaces of the roster, and its command loop
knows some of them under their names. -/
structure CoreSound (r : Roster) (n : GlobalId) (c : InterfaceCore) : Prop where
  users : c.handles.handles <+: r n
  entries : ∀ {i : Nat} {x}, c.loopHandles.handles[i]? = some x →
    x.handleType = .unknown ∨ ∃ info, (r n)[i]? = some info ∧ x.Like info
  names : ∀ {what name i}, ((what, name), i) ∈ c.loopHandles.names →
    what ≠ .unknown ∧ ∃ x, c.loopHandles.handles[i]? = some x ∧ x.handleType = what ∧ x.key = name
  ids : ∀ {what name x}, c.loopHandles.find what name = some x →
    c.loopHandles.findHandle x.handle ≠ none

namespace CoreSound

theorem table (h : CoreSound r n c) (hfind : c.loopHandles.find what name = some x) :
    ∃ info ∈ r n, x.Like info ∧ x.handleType = what ∧ x.key = name := by
  obtain ⟨i, hi, hget⟩ := Option.bind_eq_some_iff.mp hfind
  obtain ⟨hwhat, x', hget', htype, hkey⟩ := h.names (mem_of_lookup hi)
  have heq := Option.some.inj (hget'.symm.trans hget)
  subst heq
  rcases h.entries hget with hblank | ⟨info, hinfo, hlike⟩
  · exact absurd (htype.symm.trans hblank) hwhat
  · exact ⟨info, List.mem_of_getElem? hinfo, hlike, htype, hkey⟩

theorem of_relabeled (h : CoreSound r n c) (hsame : c'.handles = c.handles)
    (hloop : Relabeled c.loopHandles c'.loopHandles) : CoreSound r n c' where
  users := hsame ▸ h.users
  entries := by
    intro i x' hx'
    obtain ⟨x, hx, hlike⟩ := hloop.entry hx'
    rcases h.entries hx with hblank | ⟨info, hinfo, hlike'⟩
    · exact .inl (hlike.handleType.trans hblank)
    · exact .inr ⟨info, hinfo, hlike.trans hlike'⟩
  names := by
    intro what name i hmem
    rw [hloop.names] at hmem
    obtain ⟨hwhat, x, hx, htype, hkey⟩ := h.names hmem
    obtain ⟨x', hx', hlike⟩ := hloop.kept hx
    exact ⟨hwhat, x', hx', hlike.handleType.trans htype, hlike.key.trans hkey⟩
  ids := by
    intro what name x' hfind
    obtain ⟨x, hx, hlike⟩ := hloop.find hfind
    rw [hloop.findHandle, hlike.handle]
    exact h.ids hx

theorem of_kept (h : CoreSound r n c) (hk : CoreKept c c') : CoreSound r n c' :=
  h.of_relabeled hk.handles hk.loop

end CoreSound

end Helics
