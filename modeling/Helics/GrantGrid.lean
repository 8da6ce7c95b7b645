import Helics.GrantSteps

namespace Helics

open Grid TimeCoordinator

def TcOptions.OnGrid (o : TcOptions) (t : Time) : Prop :=
  ∃ n : Int, 0 ≤ n ∧ t.ns = n * o.period.ns + o.offset.ns

theorem TcOptions.OnGrid.add {o : TcOptions} (h : o.OnGrid b) (hp : 0 < o.period.ns)
    (hle : b.ns ≤ t.ns) (hd : o.period.ns ∣ t.ns - b.ns) : o.OnGrid t := by
  obtain ⟨n, hn, hb⟩ := h
  obtain ⟨k, hk⟩ := hd
  have hk0 : 0 ≤ k := by
    by_contra hneg
    have hm := Int.mul_lt_mul_of_pos_left (show k < 0 by omega) hp
    omega
  refine ⟨n + k, by omega, ?_⟩
  rw [Int.add_mul, Int.mul_comm k]
  omega

theorem TcOptions.OnGrid.offset_le {o : TcOptions} (h : o.OnGrid t) (hp : 0 < o.period.ns) :
    o.offset.ns ≤ t.ns := by
  obtain ⟨n, hn, ht⟩ := h
  have hm := Int.mul_nonneg hn hp.le
  omega

theorem TcOptions.onGrid_offset (o : TcOptions) : o.OnGrid o.offset :=
  ⟨0, le_rfl, by omega⟩

namespace TimeCoordinator

theorem AllowedFits.dvd {c : TimeCoordinator} (h : c.AllowedFits t) (hp : .epsilon < c.info.period)
    (hb : .zero ≤ c.timeGrantBase) (ht : c.timeGrantBase ≤ t)
    (hm : c.generateAllowedTime t ≠ .maxVal) :
    c.info.period.ns ∣ (c.generateAllowedTime t).ns - c.timeGrantBase.ns := by
  obtain ⟨_, he⟩ | ⟨_, he⟩ := h.exact hb ht
  · exact absurd he hm
  · rw [he, roundUp_period hp]
    exact dvd_alignUp_sub _ _ _

theorem NextFits.onGrid {c : TimeCoordinator} (h : c.NextFits) (ho : c.info.Proper)
    (hp : .epsilon < c.info.period) (hb : c.timeGrantBase = c.timeGranted)
    (h0 : .zero ≤ c.timeGranted) (hg : c.timeGranted = .zero ∨ c.info.OnGrid c.timeGranted)
    (hm : c.getNextPossibleTime ≠ .maxVal) : c.info.OnGrid c.getNextPossibleTime := by
  have hpos := period_pos hp
  have hd := ho.timeDelta
  have hmax := le_max_left c.info.timeDelta c.info.period
  unfold NextFits at h
  unfold getNextPossibleTime at hm ⊢
  by_cases hz : c.timeGranted = .zero
  · rw [if_pos hz] at h hm ⊢
    rw [hz] at hb
    by_cases h₁ : c.info.timeDelta < c.info.offset
    · rw [if_pos h₁]
      exact c.info.onGrid_offset
    rw [if_neg h₁] at h hm ⊢
    by_cases h₂ : c.info.offset = .zero
    · rw [if_pos h₂] at h hm ⊢
      have hbase := hb.le.trans (hd.le.trans hmax)
      have hle := hbase.trans (h.le hb.ge hbase)
      have hdvd := h.dvd hp hb.ge hbase hm
      have heq : c.info.offset = c.timeGrantBase := h₂.trans hb.symm
      rw [← heq] at hle hdvd
      exact c.info.onGrid_offset.add hpos hle hdvd
    rw [if_neg h₂, if_neg (not_le.mpr hp)] at h ⊢
    have hloop := NextFits.loop h ho.offset hp
    have hstep := step_le_alignUp hpos c.info.offset.ns c.info.timeDelta.ns
    refine c.info.onGrid_offset.add hpos ?_ ?_
    · omega
    · rw [hloop]
      exact dvd_alignUp_sub _ _ _
  · rw [if_neg hz] at h hm ⊢
    obtain ⟨hs, hf⟩ := h
    have hgrid : c.info.OnGrid c.timeGrantBase := hb ▸ hg.resolve_left hz
    rw [← hb] at h0
    have hbase : c.timeGrantBase ≤ c.timeGrantBase + max c.info.timeDelta c.info.period := by
      simp only [Time.le_def, Time.lt_def, Time.ns_zero] at h0 hd hmax ⊢
      rw [Time.ns_add_of_fits (by omega) hs]
      omega
    exact hgrid.add hpos (hbase.trans (hf.le h0 hbase)) (hf.dvd hp h0 hbase hm)

end TimeCoordinator

namespace Requester

open Invariants

/-- Plain stepping: only requests without iterations and no forced grants. -/
def PlainEvent : CoordinatorEvent → Prop
  | .request _ iterate _ _ => iterate = .noIterations
  | .timing cmd => cmd.messageAction ≠ .cmdForceTimeGrant
  | _ => True

/-- What a grant needs to stay on the grid: an uninterruptible federate asks for a time of the grid,
an interruptible one that leaves time zero has an offset of whole periods. -/
def KeepsGrid (r : Requester) : Prop :=
  if r.coord.info.uninterruptible then
    r.coord.timeRequested = .maxVal ∨ r.coord.info.OnGrid r.coord.timeRequested
  else r.coord.timeGranted = .zero → r.coord.info.period.ns ∣ r.coord.info.offset.ns

def GridStep (r : Requester) (e : CoordinatorEvent) (r' : Requester) : Prop :=
  FittingStep r e r' ∧ PlainEvent e ∧ (e = .check → r.granted ≠ none → r.KeepsGrid)

structure OnGridSoFar (o : TcOptions) (r : Requester) : Prop extends Advancing o r where
  grid : r.coord.timeGranted = .zero ∨ r.coord.timeGranted = .maxVal ∨ o.OnGrid r.coord.timeGranted
  plain : ∀ i, r.request = some i → i = .noIterations
  next : r.request ≠ none → r.coord.getNextPossibleTime = .maxVal ∨
    o.OnGrid r.coord.getNextPossibleTime

section
variable {o : TcOptions} {r : Requester} (ho : o.Proper) (hp : .epsilon < o.period)

theorem onGridSoFar_entered (c : TimeCoordinator) : OnGridSoFar c.info (entered c) :=
  { advancing_entered c with
    grid := .inl rfl
    plain := nofun
    next := fun h => absurd rfl h }

theorem OnGridSoFar.sameGrant (h : OnGridSoFar o r)
    (ha : Advancing o { r with coord := c }) (hs : r.coord.SameGrant c) :
    OnGridSoFar o { r with coord := c } :=
  { ha with
    grid := hs.granted ▸ h.grid
    plain := h.plain
    next := fun hr => hs.getNextPossibleTime ▸ h.next hr }

include ho hp

/-- A grant below the maximum time lies on the grid exactly when the request keeps to it. -/
theorem OnGridSoFar.exec (h : OnGridSoFar o r) (hr : r.request = some i) (hf : r.coord.ExecFits)
    (hm : r.coord.nextExecutionTime ≠ .maxVal) :
    o.OnGrid r.coord.nextExecutionTime ↔ r.KeepsGrid := by
  obtain rfl := h.plain i hr
  have hne : r.request ≠ none := by rw [hr]; exact Option.some_ne_none _
  have hinfo := h.info
  obtain hu | hu := Bool.eq_false_or_eq_true r.coord.info.uninterruptible
  · have he : r.coord.nextExecutionTime = r.coord.timeRequested := by
      unfold nextExecutionTime
      rw [hu, if_pos rfl]
    rw [he] at hm
    unfold KeepsGrid
    rw [hu, if_pos rfl, he, hinfo]
    exact ⟨.inr, fun hk => hk.resolve_left hm⟩
  have hpos : 0 < o.period.ns := hinfo ▸ period_pos (hinfo.symm ▸ hp)
  have hdelay : .zero ≤ r.coord.info.inputDelay := by rw [hinfo]; exact ho.inputDelay
  have hlt := h.lt_next ho hr
  have hnext := hf.next_le (h.asked hne) (h.mode _ hr) h.base h.granted hdelay hlt
  have hpend : r.coord.timeGranted < r.coord.pendingExecutionTime := by
    have hge := granted_le_pending (c := r.coord) fun _ => hlt.le
    apply lt_of_le_of_ne hge
    intro heq
    rw [nextExecutionTime_interruptible hu h.granted hge,
      if_neg (not_lt.mpr heq.ge), ← heq] at hnext
    exact absurd hlt (not_lt.mpr hnext)
  have he := nextExecutionTime_interruptible hu h.granted hpend.le
  rw [if_pos hpend] at he
  have hdvd : o.period.ns ∣ r.coord.nextExecutionTime.ns - r.coord.timeGranted.ns := by
    rw [he, ← h.base, ← hinfo]
    refine ((hf hu).2 hpend).dvd (hinfo ▸ hp) ?_ ?_ (he ▸ hm)
    · rw [h.base]
      exact h.granted
    · rw [h.base]
      exact hpend.le
  have hgle : r.coord.timeGranted.ns ≤ r.coord.nextExecutionTime.ns := hlt.le.trans hnext
  unfold KeepsGrid
  rw [hu, if_neg Bool.false_ne_true, hinfo]
  by_cases hz : r.coord.timeGranted = .zero
  · rw [hz, Time.ns_zero, Int.sub_zero] at hdvd
    constructor
    · rintro ⟨n, _, hn⟩ _
      rw [hn] at hdvd
      exact (Int.dvd_add_right (Int.dvd_mul_left n _)).mp hdvd
    · intro hk
      have hoff : o.offset.ns ≤ r.coord.nextExecutionTime.ns := by
        obtain hn | hn := h.next hne
        · exact absurd (Time.eq_maxVal (hn ▸ hnext)) hm
        · exact (hn.offset_le hpos).trans hnext
      exact o.onGrid_offset.add hpos hoff (Int.dvd_sub hdvd (hk hz))
  · have hgrid : o.OnGrid r.coord.timeGranted := by
      obtain hg | hg | hg := h.grid
      · exact absurd hg hz
      · exact absurd (hg ▸ hpend) (not_lt.mpr (Time.le_maxVal _))
      · exact hg
    exact ⟨fun _ hz' => absurd hz' hz, fun _ => hgrid.add hpos hgle hdvd⟩

theorem OnGridSoFar.checkGrant (h : OnGridSoFar o r) (hr : r.request = some i)
    (hf : r.coord.ExecFits) (hk : r.granted ≠ none → r.KeepsGrid) : OnGridSoFar o r.checkGrant := by
  have ha := h.toAdvancing.checkGrant ho hr hf
  have hexec := h.exec ho hp hr hf
  have hne : r.request ≠ none := by rw [hr]; exact Option.some_ne_none _
  have hout := r.coord.checkTimeGrant_outcome
  unfold Requester.checkGrant at ha ⊢
  unfold Requester.granted at hk
  generalize r.coord.checkTimeGrant = x at hout ha hk ⊢
  cases hout with
  | halts _ _ hg _ hi =>
    exact { ha with grid := .inr (.inl hg), plain := nofun, next := fun h => absurd rfl h }
  | grants hret _ hg _ hi =>
    have hkeep := hk (by rw [if_pos ⟨hne, hret⟩]; exact Option.some_ne_none _)
    refine { ha with grid := ?_, plain := fun i h => ?_, next := fun h => ?_ }
    · by_cases hm : r.coord.nextExecutionTime = .maxVal
      · exact .inr (.inl (hg.trans hm))
      · exact .inr (.inr (hg ▸ (hexec hm).mpr hkeep))
    · rw [if_pos hret] at h
      cases h
    · exact absurd (if_pos hret) h
  | waits hs => exact h.sameGrant ha hs.sameGrant

theorem OnGridSoFar.step (h : OnGridSoFar o r) (hs : GridStep r e r') : OnGridSoFar o r' := by
  obtain ⟨hfits, hplain, hkeep⟩ := hs
  have ha := h.toAdvancing.step ho hfits
  obtain ⟨hfix, hfit, rfl⟩ := hfits
  cases e with
  | request t iterate v m =>
    obtain rfl : iterate = .noIterations := hplain
    by_cases hr : r.request = none
    · have heq : r.step (.request t .noIterations v m) =
          ⟨(r.coord.timeRequest t .noIterations v m).1, some .noIterations⟩ := if_pos hr
      rw [heq] at ha ⊢
      refine { ha with grid := ?_, plain := ?_, next := fun _ => ?_ }
      · dsimp only
        rw [r.coord.timeRequest_granted]
        exact h.grid
      · rintro i hi
        exact (Option.some.inj hi).symm
      · dsimp only
        rw [r.coord.timeRequest_getNextPossibleTime]
        have hnf := hfit hr
        have hroom := hnf.granted_add_le (h.info ▸ ho.timeDelta.le) (h.info ▸ ho.offset)
          h.base h.granted
        have hgrid : r.coord.timeGranted = .zero ∨ r.coord.info.OnGrid r.coord.timeGranted := by
          obtain hg | hg | hg := h.grid
          · exact .inl hg
          · have hd := ho.timeDelta
            have hu := r.coord.getNextPossibleTime.upper
            rw [hg, h.info] at hroom
            simp only [Time.lt_def, Time.ns_zero, Time.ns_maxVal] at hd hroom
            omega
          · exact .inr (h.info ▸ hg)
        by_cases hm : r.coord.getNextPossibleTime = .maxVal
        · exact .inl hm
        · exact .inr (h.info ▸ hnf.onGrid (h.info ▸ ho) (h.info ▸ hp) h.base h.granted hgrid hm)
    · have heq : r.step (.request t .noIterations v m) = r := if_neg hr
      rw [heq]
      exact h
  | value t => exact h.sameGrant ha (r.coord.updateValueTime_sameGrant t)
  | message t => exact h.sameGrant ha (r.coord.updateMessageTime_sameGrant t)
  | timing cmd =>
    have heq : r.step (.timing cmd) = { r with coord := (r.coord.processTimeMessage cmd).2.1 } :=
      if_neg hplain
    rw [heq] at ha ⊢
    exact h.sameGrant ha (r.coord.processTimeMessage_sameRequest hplain).sameGrant
  | dependency cmd =>
    exact h.sameGrant ha (r.coord.processDependencyUpdateMessage_sameRequest cmd).sameGrant
  | property => exact absurd trivial hfix
  | optionFlag => exact absurd trivial hfix
  | check =>
    show OnGridSoFar o (if r.request = none then r else r.checkGrant)
    split
    · exact h
    · rename_i hne
      obtain ⟨i, hr⟩ := Option.ne_none_iff_exists'.mp hne
      exact h.checkGrant ho hp hr (hfit hne) (hkeep rfl)

end

/-- In a run of plain requests whose earlier grants kept to the grid, a grant below the maximum time
lies on the grid exactly when its request keeps to it. -/
theorem grant_on_grid_iff (c : TimeCoordinator) (ho : c.info.Proper)
    (hp : .epsilon < c.info.period) (hrun : Run GridStep (entered c) es r) (hfit : r.Fits .check)
    (hg : r.granted = some t) (hm : t < .maxVal) : c.info.OnGrid t ↔ r.KeepsGrid := by
  have h : OnGridSoFar c.info r :=
    hrun.invariant (fun _ _ _ h hs => h.step ho hp hs) (onGridSoFar_entered c)
  obtain ⟨hreq, rfl, _⟩ := granted_eq hg
  obtain ⟨i, hi⟩ := Option.ne_none_iff_exists'.mp hreq
  exact h.exec ho hp hi (hfit hreq) hm.ne

def wholeOffset : TimeCoordinator where
  info := { period := .wrap 10, offset := .wrap 20 }

def brokenOffset : TimeCoordinator where
  info := { period := .wrap 10, offset := .wrap 3 }

def uninterrupted : TimeCoordinator where
  info := { period := .wrap 10, uninterruptible := true }

theorem grant_on_grid_thirty :
    ((entered wholeOffset).step (.request (.wrap 25) .noIterations .maxVal .maxVal)).granted =
      some (.wrap 30) ∧ wholeOffset.info.OnGrid (.wrap 30) := by
  have hstep : GridStep (entered wholeOffset) (.request (.wrap 25) .noIterations .maxVal .maxVal)
      ((entered wholeOffset).step (.request (.wrap 25) .noIterations .maxVal .maxVal)) :=
    ⟨⟨id, fun _ => by decide +kernel, rfl⟩, rfl, nofun⟩
  have hg : ((entered wholeOffset).step
      (.request (.wrap 25) .noIterations .maxVal .maxVal)).granted = some (.wrap 30) := by
    decide +kernel
  refine ⟨hg, (grant_on_grid_iff wholeOffset
    ⟨by decide, by decide, by decide, by decide, by decide⟩ (by decide) (.cons hstep (.nil _))
    (fun _ => by decide +kernel) hg (by decide)).mpr ?_⟩
  exact fun _ => (by decide : (10 : Int) ∣ 20)

/-- The first grant ignores an offset within a period, and an uninterruptible federate is granted
whatever time it asks for. -/
theorem grant_off_grid :
    (((entered brokenOffset).step (.request (.wrap 3) .noIterations .maxVal .maxVal)).granted =
      some (.wrap 10) ∧ ¬ brokenOffset.info.OnGrid (.wrap 10)) ∧
    (((entered uninterrupted).step (.request (.wrap 13) .noIterations .maxVal .maxVal)).granted =
      some (.wrap 13) ∧ ¬ uninterrupted.info.OnGrid (.wrap 13)) := by
  refine ⟨⟨by decide +kernel, ?_⟩, by decide +kernel, ?_⟩
  · rintro ⟨n, _, hn⟩
    have h : (10 : Int) = n * 10 + 3 := hn
    omega
  · rintro ⟨n, _, hn⟩
    have h : (13 : Int) = n * 10 + 0 := hn
    omega

end Requester

end Helics
