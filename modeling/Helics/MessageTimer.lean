import Helics.ActionMessage

namespace Helics

/-- What happened to one timer: the calls that changed it, and the messages that the send function
received from it with the clock at that moment. -/
inductive TimerAct where
  | store (mess : ActionMessage)
  | expire (time : Int)
  | cancel
  | send (mess : ActionMessage) (clock : Int)

/-- The message stored for a timer, until it is handed over or cancelled; the newest act comes
first. -/
def pendingMessage : List TimerAct → Option ActionMessage
  | [] => none
  | .store mess :: _ => some mess
  | .expire _ :: past => pendingMessage past
  | .cancel :: _ => none
  | .send _ _ :: _ => none

def currentExpiration : List TimerAct → Option Int
  | [] => none
  | .expire time :: _ => some time
  | .store _ :: past | .cancel :: past | .send _ _ :: past => currentExpiration past

/-- Every message handed over was stored, and neither handed over nor cancelled since, and the clock
had reached the expiration time. -/
def FiresFairly : List TimerAct → Prop
  | [] => True
  | .send mess clock :: past => FiresFairly past ∧ pendingMessage past = some mess ∧
      ∃ time, currentExpiration past = some time ∧ time ≤ clock
  | .store _ :: past | .expire _ :: past | .cancel :: past => FiresFairly past

/-- One timer; `sending` holds the messages of callbacks that have released the lock and not yet
called the send function. -/
structure TimerSlot where
  buffer : ActionMessage
  expirationTime : Int
  sending : List ActionMessage := []
  history : List TimerAct

namespace TimerSlot

def new (expirationTime : Int) (mess : ActionMessage) : TimerSlot where
  buffer := mess
  expirationTime := expirationTime
  history := [.expire expirationTime, .store mess]

def setMessage (t : TimerSlot) (mess : ActionMessage) : TimerSlot :=
  { t with buffer := mess, history := .store mess :: t.history }

def expiresAt (t : TimerSlot) (time : Int) : TimerSlot :=
  { t with expirationTime := time, history := .expire time :: t.history }

def cancel (t : TimerSlot) : TimerSlot :=
  { t with buffer := t.buffer.setAction .cmdIgnore, history := .cancel :: t.history }

def sendMessage (t : TimerSlot) (clock : Int) : TimerSlot :=
  if t.expirationTime ≤ clock ∧ t.buffer.messageAction ≠ .cmdIgnore then
    { t with buffer := t.buffer.setAction .cmdIgnore, sending := t.sending ++ [t.buffer] }
  else t

/-- One of the callbacks that hold a message calls the send function. -/
def sendFunction (t : TimerSlot) (clock : Int) (k : Nat) : TimerSlot :=
  match t.sending[k]? with
  | some mess =>
    { t with sending := t.sending.eraseIdx k, history := .send mess clock :: t.history }
  | none => t

end TimerSlot

structure MessageTimer where
  clock : Int := 0
  timers : List TimerSlot := []

/-- The calls of a program, the callbacks of the timer library and the passing of time. -/
inductive TimerEvent where
  | addTimer (expirationTime : Int) (mess : ActionMessage)
  | addTimerFromNow (time : Int) (mess : ActionMessage)
  | updateTimer (index : Int) (expirationTime : Int) (mess : ActionMessage)
  | updateTime (index : Int) (expirationTime : Int)
  | addTimeToTimer (index : Int) (time : Int)
  | updateMessage (index : Int) (mess : ActionMessage)
  | cancelTimer (index : Int)
  | cancelAll
  | callback (index : Nat) (aborted : Bool)
  | sendFunction (index k : Nat)
  | tick (elapsed : Nat)

namespace MessageTimer

def addTimer (s : MessageTimer) (expirationTime : Int) (mess : ActionMessage) : MessageTimer :=
  { s with timers := s.timers ++ [.new expirationTime mess] }

def change (s : MessageTimer) (index : Int) (f : TimerSlot → TimerSlot) : MessageTimer :=
  if 0 ≤ index then { s with timers := s.timers.modify index.toNat f } else s

def effect (clock : Int) : TimerEvent → TimerSlot → TimerSlot
  | .updateTimer _ expirationTime mess => fun t => (t.expiresAt expirationTime).setMessage mess
  | .updateTime _ expirationTime => fun t => t.expiresAt expirationTime
  | .addTimeToTimer _ time => fun t => t.expiresAt (t.expirationTime + time)
  | .updateMessage _ mess => fun t => t.setMessage mess
  | .cancelTimer _ | .cancelAll => TimerSlot.cancel
  | .callback _ aborted => fun t => if aborted then t else t.sendMessage clock
  | .sendFunction _ k => fun t => t.sendFunction clock k
  | .addTimer _ _ | .addTimerFromNow _ _ | .tick _ => id

def step (s : MessageTimer) (e : TimerEvent) : MessageTimer :=
  match e with
  | .addTimer expirationTime mess => s.addTimer expirationTime mess
  | .addTimerFromNow time mess => s.addTimer (s.clock + time) mess
  | .updateTimer index .. | .updateTime index .. | .addTimeToTimer index ..
  | .updateMessage index .. | .cancelTimer index => s.change index (effect s.clock e)
  | .callback index _ | .sendFunction index _ => s.change index (effect s.clock e)
  | .cancelAll => { s with timers := s.timers.map (effect s.clock e) }
  | .tick elapsed => { s with clock := s.clock + elapsed }

def run (events : List TimerEvent) : MessageTimer := events.foldl step {}

def Concerns (i : Nat) : TimerEvent → Prop
  | .updateTimer index .. | .updateTime index .. | .addTimeToTimer index ..
  | .updateMessage index .. | .cancelTimer index => index = i
  | .callback index _ | .sendFunction index _ => index = i
  | .cancelAll => True
  | .addTimer .. | .addTimerFromNow .. | .tick _ => False

/-- A call leaves a timer alone: it stores no message, cancels nothing and lets the timer expire no
later than now. -/
def Harmless (clock : Int) (t : TimerSlot) : TimerEvent → Prop
  | .updateTimer .. | .updateMessage .. | .cancelTimer _ | .cancelAll => False
  | .updateTime _ expirationTime => expirationTime ≤ clock
  | .addTimeToTimer _ time => t.expirationTime + time ≤ clock
  | .callback .. | .sendFunction .. | .addTimer .. | .addTimerFromNow .. | .tick _ => True

/-- No call changes a timer while one of its callbacks is between the lock and the send function. -/
def Undisturbed (s : MessageTimer) (e : TimerEvent) : Prop :=
  ∀ i t, s.timers[i]? = some t → Concerns i e → t.sending ≠ [] → Harmless s.clock t e

def Quiet (s : MessageTimer) : List TimerEvent → Prop
  | [] => True
  | e :: events => s.Undisturbed e ∧ (s.step e).Quiet events

end MessageTimer

/-- A timer between two events: a message in its buffer is the pending one, and so is a message on
its way to the send function. -/
structure TimerSlot.Sound (clock : Int) (t : TimerSlot) : Prop where
  buffered : t.buffer.messageAction ≠ .cmdIgnore → pendingMessage t.history = some t.buffer
  expiration : currentExpiration t.history = some t.expirationTime
  sending : ∀ mess ∈ t.sending, t.buffer.messageAction = .cmdIgnore ∧
    pendingMessage t.history = some mess ∧ t.expirationTime ≤ clock
  once : t.sending.length ≤ 1
  fair : FiresFairly t.history

namespace TimerSlot.Sound

variable {clock : Int} {t : TimerSlot}

theorem new (clock expirationTime : Int) (mess : ActionMessage) :
    (TimerSlot.new expirationTime mess).Sound clock :=
  ⟨fun _ => rfl, rfl, by simp [TimerSlot.new], by simp [TimerSlot.new], trivial⟩

section
variable (h : t.Sound clock)
include h

theorem setMessage (hquiet : t.sending = []) (mess : ActionMessage) :
    (t.setMessage mess).Sound clock where
  buffered _ := rfl
  expiration := h.expiration
  sending m hm := by
    rw [show (t.setMessage mess).sending = [] from hquiet] at hm
    cases hm
  once := h.once
  fair := h.fair

theorem cancel (hquiet : t.sending = []) : t.cancel.Sound clock where
  buffered hno := absurd rfl hno
  expiration := h.expiration
  sending m hm := by
    rw [show t.cancel.sending = [] from hquiet] at hm
    cases hm
  once := h.once
  fair := h.fair

theorem expiresAt (hquiet : t.sending ≠ [] → time ≤ clock) : (t.expiresAt time).Sound clock where
  buffered := h.buffered
  expiration := rfl
  sending m hm :=
    ⟨(h.sending m hm).1, (h.sending m hm).2.1, hquiet (List.ne_nil_of_mem hm)⟩
  once := h.once
  fair := h.fair

theorem sendMessage : (t.sendMessage clock).Sound clock := by
  unfold TimerSlot.sendMessage
  split
  · rename_i hdue
    -- a callback holds no message yet, since the buffer would be empty then
    have hnone : t.sending = [] := List.eq_nil_iff_forall_not_mem.mpr fun m hm =>
      hdue.2 (h.sending m hm).1
    refine ⟨fun hno => absurd rfl hno, h.expiration, fun m hm => ?_, ?_, h.fair⟩
    · rw [hnone, List.nil_append] at hm
      rw [List.mem_singleton.mp hm]
      exact ⟨rfl, h.buffered hdue.2, hdue.1⟩
    · rw [hnone]
      exact Nat.le_refl 1
  · exact h

theorem sendFunction (k : Nat) : (t.sendFunction clock k).Sound clock := by
  unfold TimerSlot.sendFunction
  split
  · rename_i mess hk
    have hmem := List.mem_of_getElem? hk
    obtain ⟨hbuffer, hpending, hdue⟩ := h.sending mess hmem
    have hlast : t.sending.eraseIdx k = [] := by
      have hlt := (List.getElem?_eq_some_iff.mp hk).1
      have := h.once
      rw [← List.length_eq_zero_iff, List.length_eraseIdx_of_lt hlt]
      omega
    refine ⟨fun hno => absurd hbuffer hno, h.expiration, ?_, ?_,
      h.fair, hpending, t.expirationTime, h.expiration, hdue⟩
    · rw [hlast]
      simp
    · rw [hlast]
      exact Nat.zero_le 1
  · exact h

theorem later (hle : clock ≤ clock') : t.Sound clock' :=
  { h with sending := fun m hm =>
      ⟨(h.sending m hm).1, (h.sending m hm).2.1, (h.sending m hm).2.2.trans hle⟩ }

/-- What an event keeps true of a timer that it concerns. -/
theorem effect (e : TimerEvent) (hquiet : t.sending ≠ [] → MessageTimer.Harmless clock t e) :
    (MessageTimer.effect clock e t).Sound clock := by
  have hidle (hno : ¬ MessageTimer.Harmless clock t e) : t.sending = [] := by
    by_contra hne
    exact hno (hquiet hne)
  cases e with
  | updateTimer _ expirationTime mess =>
    have hnone := hidle id
    exact (h.expiresAt fun hne => absurd hnone hne).setMessage hnone mess
  | updateTime _ expirationTime => exact h.expiresAt hquiet
  | addTimeToTimer _ time => exact h.expiresAt hquiet
  | updateMessage _ mess => exact h.setMessage (hidle id) mess
  | cancelTimer _ => exact h.cancel (hidle id)
  | cancelAll => exact h.cancel (hidle id)
  | callback _ aborted =>
    cases aborted with
    | true => exact h
    | false => exact h.sendMessage
  | sendFunction _ k => exact h.sendFunction k
  | addTimer | addTimerFromNow | tick => exact h

end

end TimerSlot.Sound

namespace MessageTimer

def Sound (s : MessageTimer) : Prop :=
  ∀ (i : Nat) (t : TimerSlot), s.timers[i]? = some t → t.Sound s.clock

theorem Sound.addTimer (h : Sound s) (expirationTime : Int) (mess : ActionMessage) :
    Sound (s.addTimer expirationTime mess) := by
  intro i t hi
  have hmem := List.mem_of_getElem? hi
  rw [MessageTimer.addTimer, List.mem_append, List.mem_singleton] at hmem
  obtain hold | rfl := hmem
  · obtain ⟨j, hj⟩ := List.getElem?_of_mem hold
    exact h j t hj
  · exact .new _ _ _

theorem Sound.change {index : Int} (h : Sound s)
    (hf : ∀ (i : Nat) t, s.timers[i]? = some t → index = i → t.Sound s.clock →
      (f t).Sound s.clock) :
    Sound (s.change index f) := by
  unfold MessageTimer.change
  split
  · rename_i hindex
    intro i t hi
    rw [List.getElem?_modify] at hi
    obtain ⟨old, hold, rfl⟩ := Option.map_eq_some_iff.mp hi
    split
    · rename_i heq
      exact hf i old hold (by omega) (h i old hold)
    · exact h i old hold
  · exact h

theorem Sound.step (h : Sound s) (hquiet : s.Undisturbed e) : Sound (s.step e) := by
  have heffect (i : Nat) (t : TimerSlot) (hi : s.timers[i]? = some t) (he : Concerns i e)
      (ht : t.Sound s.clock) : (effect s.clock e t).Sound s.clock := ht.effect e (hquiet i t hi he)
  cases e with
  | addTimer expirationTime mess => exact h.addTimer _ _
  | addTimerFromNow time mess => exact h.addTimer _ _
  | updateTimer | updateTime | addTimeToTimer | updateMessage | cancelTimer =>
    exact h.change fun i t hi hindex => heffect i t hi hindex
  | callback | sendFunction =>
    exact h.change fun i t hi hindex => heffect i t hi (Int.ofNat_inj.mp hindex)
  | cancelAll =>
    intro i t hi
    obtain ⟨old, hold, rfl⟩ := Option.map_eq_some_iff.mp ((List.getElem?_map ..).symm.trans hi)
    exact heffect i old hold trivial (h i old hold)
  | tick elapsed => exact fun i t hi => (h i t hi).later (Int.le_add_of_nonneg_right (by omega))

/-- If no call comes between a callback that holds the message of a timer and its call of the send
function, every timer hands over each stored message at most once, when it is due, and not after it
was cancelled. -/
theorem timers_fire_fairly (events : List TimerEvent) (hquiet : Quiet {} events) :
    ∀ t ∈ (run events).timers, FiresFairly t.history := by
  suffices h : ∀ s, Sound s → s.Quiet events → Sound (events.foldl step s) by
    intro t ht
    obtain ⟨i, hi⟩ := List.getElem?_of_mem ht
    exact (h {} (fun _ _ hno => by cases hno) hquiet i t hi).fair
  clear hquiet
  induction events with
  | nil => exact fun _ h _ => h
  | cons e events ih => exact fun s h hquiet => ih _ (h.step hquiet.1) hquiet.2

def due : ActionMessage := { messageAction := .cmdTimeCheck }

theorem due_message_sent :
    (run [.addTimer 5 due, .tick 5, .callback 0 false, .sendFunction 0 0]).timers.map (·.history) =
      [[.send due 5, .expire 5, .store due]] ∧
    ∀ t ∈ (run [.addTimer 5 due, .tick 5, .callback 0 false, .sendFunction 0 0]).timers,
      FiresFairly t.history :=
  ⟨rfl, timers_fire_fairly _ ⟨fun _ _ _ hno => hno.elim, fun _ _ _ hno => hno.elim,
    fun _ _ _ _ _ => trivial, fun _ _ _ _ _ => trivial, trivial⟩⟩

/-- A message is handed over after its timer was cancelled, if a callback had just taken it. -/
theorem sent_after_cancel :
    (run [.addTimer 5 due, .tick 5, .callback 0 false, .cancelTimer 0,
      .sendFunction 0 0]).timers.map
      (·.history) = [[.send due 5, .cancel, .expire 5, .store due]] := rfl

end MessageTimer

end Helics
