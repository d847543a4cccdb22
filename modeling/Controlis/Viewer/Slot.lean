import Controlis.Foundation.Runs
import Controlis.Viewer.Keyboard

/-!
# The viewer sessions of the app

The slot holds the session the commands speak to. A session lives in several
tasks: the input task owns the sending half of the control stream and ends when
nobody can send to it any more, the control and the media task receive, the
frame pump and the event pump feed the webview. The slot and the event pump
each own a sender of the input task. Sessions are numbered as they are
established, and each task takes its steps at any time.
-/

namespace Controlis.Viewer.Slot
open Protocol Keyboard Runs

inductive ViewerEvent
  | frameReady
  | resized (widthPx heightPx : UInt32)
  | monitorsUpdated (monitors : List MonitorInfo)
  | disconnected (reason : String)
  | error (message : String)
deriving DecidableEq, Repr

/-- `queued` waits in the input channel, `sent` is on the control stream. `closed`: the host closed
the connection, or it was lost. -/
structure Session where
  queued : List ControlMessage
  sent : List ControlMessage
  inputTask : Bool
  controlTask : Bool
  mediaTask : Bool
  events : List ViewerEvent
  pump : Bool
  framePump : Bool
  stopFrames : Bool
  closed : Bool
deriving DecidableEq, Repr

inductive Media
  | frame
  | nothing
  | undecodable (error : String)
  | ended
deriving DecidableEq, Repr

inductive SessionEvent
  | input (ok : Bool)
  | control (received : Option ControlMessage)
  | media (received : Media)
  | events (ok : Bool)
  | frames (ok : Bool)
  | close
deriving DecidableEq, Repr

namespace Session

def start : Session := ⟨[], [], true, true, true, [], true, true, false, false⟩

/-- `connectViewer` drops the handle when it cannot store the host's identity. -/
def dropped : Session := { start with pump := false, framePump := false }

def sendInput (x : Session) (m : ControlMessage) : Session :=
  if x.inputTask then { x with queued := x.queued ++ [m] } else x

def notify (x : Session) (e : ViewerEvent) : Session :=
  if x.pump then { x with events := x.events ++ [e] } else x

/-- `held`: the slot owns a sender, too. -/
def inputStep (held : Bool) (x : Session) (ok : Bool) : Session :=
  if x.inputTask then
    match x.queued with
    | m :: rest =>
      if ok then { x with queued := rest, sent := x.sent ++ [m] }
      else { x.notify (.disconnected "send failed") with queued := [], inputTask := false }
    | [] => if held || x.pump then x else { x with inputTask := false }
  else x

def controlStep (x : Session) (received : Option ControlMessage) : Session :=
  if x.controlTask then
    match received with
    | some (.resize widthPx heightPx) => x.notify (.resized widthPx heightPx)
    | some (.monitorList monitors) => x.notify (.monitorsUpdated monitors)
    | some (.disconnect reason) => { x.notify (.disconnected reason) with controlTask := false }
    | some (.error _ message) => x.notify (.error message)
    | some _ => x
    | none => { x.notify (.disconnected "connection lost") with controlTask := false }
  else x

def mediaStep (x : Session) (received : Media) : Session :=
  if x.mediaTask then
    match received with
    | .frame => x.notify .frameReady
    | .nothing => x
    | .undecodable e => x.notify (.error s!"decode failed: {e}")
    | .ended => { x.notify (.disconnected "stream ended") with mediaTask := false }
  else x

def endPump (x : Session) : Session := { x with pump := false, events := [], stopFrames := true }

def pumpEvents (x : Session) (ok : Bool) : Session :=
  if x.pump then
    match x.events with
    | [] => if x.inputTask || x.controlTask || x.mediaTask then x else x.endPump
    | .frameReady :: rest => { x with events := rest }
    | .disconnected _ :: _ => x.endPump
    | _ :: rest => if ok then { x with events := rest } else x.endPump
  else x

def framesStep (x : Session) (ok : Bool) : Session :=
  if x.stopFrames || !ok then { x with framePump := false } else x

def step (held : Bool) (x : Session) : SessionEvent → Session
  | .input ok => x.inputStep held ok
  | .control received => x.controlStep received
  | .media received => x.mediaStep received
  | .events ok => x.pumpEvents ok
  | .frames ok => x.framesStep ok
  | .close => { x with closed := true }

end Session

structure App where
  sessions : List Session
  slot : Option ℕ
  connecting : ℕ
deriving DecidableEq, Repr

inductive AppEvent
  | connectViewer
  | connectFails
  | connected (remembered : Bool)
  | viewerInput (event : UiInputEvent)
  | viewerSelectMonitor (monitorId : UInt32)
  | viewerDisconnect
  | session (k : ℕ) (event : SessionEvent)
deriving DecidableEq, Repr

namespace App

def start : App := ⟨[], none, 0⟩

def dropViewer (s : App) : App :=
  match s.slot with
  | none => s
  | some k =>
    { s with slot := none, sessions := s.sessions.modify k fun x => { x with stopFrames := true } }

def sendInput (s : App) (m : ControlMessage) : App :=
  match s.slot with
  | none => s
  | some k => { s with sessions := s.sessions.modify k (·.sendInput m) }

def connected (s : App) (remembered : Bool) : App :=
  if remembered then
    { s.dropViewer with
      sessions := s.dropViewer.sessions ++ [.start], slot := some s.sessions.length }
  else { s with sessions := s.sessions ++ [.dropped] }

def step (s : App) : AppEvent → App
  | .connectViewer => { s.dropViewer with connecting := s.connecting + 1 }
  | .connectFails => { s with connecting := s.connecting - 1 }
  | .connected remembered =>
    if s.connecting = 0 then s
    else { s with connecting := s.connecting - 1 }.connected remembered
  | .viewerInput event =>
    match toControlMessage event with
    | none => s
    | some m => s.sendInput m
  | .viewerSelectMonitor monitorId => s.sendInput (.selectMonitor monitorId)
  | .viewerDisconnect => (s.sendInput (.disconnect "viewer closed")).dropViewer
  | .session k event =>
    { s with sessions := s.sessions.modify k (Session.step (decide (s.slot = some k)) · event) }

end App

def isDisconnect : ControlMessage → Bool
  | .disconnect _ => true
  | _ => false

namespace Session

def disconnecting (x : Session) : Bool := (x.sent ++ x.queued).any isDisconnect

/-- A session outside the slot was told to end: a `Disconnect` is queued or sent, or the connection
is closed, or the stream is, or no sender is left that could keep the stream open. -/
def told (x : Session) : Bool := x.disconnecting || x.closed || !x.inputTask || !x.pump

def finished (x : Session) : Bool := x.closed || !x.inputTask || !x.pump

end Session

/-- Every session but the one in the slot was told to end. -/
def OneAlive (s : App) : Prop := ∀ k x, s.sessions[k]? = some x → s.slot ≠ some k → x.told = true

/-- `connectViewer` empties the slot, and fills it again, only over a session that has ended. -/
def okStep (s : App) : AppEvent → Prop
  | .connectViewer => ∀ k x, s.slot = some k → s.sessions[k]? = some x → x.finished = true
  | .connected true =>
    s.connecting ≠ 0 → ∀ k x, s.slot = some k → s.sessions[k]? = some x → x.finished = true
  | _ => True

/-- No session is told to end while the slot holds it. -/
structure Inv (s : App) : Prop where
  slotted : ∀ k, s.slot = some k → ∃ x, s.sessions[k]? = some x ∧ x.disconnecting = false
  others : OneAlive s

variable {s : App} {x y : Session} {k : ℕ} {held : Bool} {m : ControlMessage}

theorem told_eq (h : x.disconnecting = false) : x.told = x.finished := by
  rw [Session.told, h, Session.finished, Bool.false_or]

theorem told_of_inputTask (h : x.inputTask = false) : x.told = true := by simp [Session.told, h]

structure Kept (x y : Session) : Prop where
  queued : y.queued = x.queued
  sent : y.sent = x.sent
  inputTask : y.inputTask = x.inputTask
  closed : x.closed = true → y.closed = true
  pump : x.pump = false → y.pump = false

theorem Kept.refl : Kept x x := ⟨rfl, rfl, rfl, id, id⟩

theorem Kept.disconnecting (h : Kept x y) : y.disconnecting = x.disconnecting := by
  rw [Session.disconnecting, h.sent, h.queued, Session.disconnecting]

theorem Kept.told (h : Kept x y) (hx : x.told = true) : y.told = true := by
  simp only [Session.told, Bool.or_eq_true, Bool.not_eq_true'] at hx ⊢
  rcases hx with ((hdisconnecting | hclosed) | hinput) | hpump
  · exact .inl (.inl (.inl (h.disconnecting.trans hdisconnecting)))
  · exact .inl (.inl (.inr (h.closed hclosed)))
  · exact .inl (.inr (h.inputTask.trans hinput))
  · exact .inr (h.pump hpump)

theorem kept_notify (e : ViewerEvent) : Kept x (x.notify e) := by
  rw [Session.notify]
  split_ifs
  · exact ⟨rfl, rfl, rfl, id, id⟩
  · exact .refl

theorem kept_endPump : Kept x x.endPump := ⟨rfl, rfl, rfl, id, fun _ => rfl⟩

theorem kept_control (received : Option ControlMessage) : Kept x (x.controlStep received) := by
  have hnotify (e : ViewerEvent) : Kept x { x.notify e with controlTask := false } := by
    obtain ⟨hqueued, hsent, hinput, hclosed, hpump⟩ := kept_notify (x := x) e
    exact ⟨hqueued, hsent, hinput, hclosed, hpump⟩
  unfold Session.controlStep
  split_ifs
  · split
    · exact kept_notify _
    · exact kept_notify _
    · exact hnotify _
    · exact kept_notify _
    · exact .refl
    · exact hnotify _
  · exact .refl

theorem kept_media (received : Media) : Kept x (x.mediaStep received) := by
  unfold Session.mediaStep
  split_ifs
  · cases received with
    | frame => exact kept_notify _
    | nothing => exact .refl
    | undecodable e => exact kept_notify _
    | ended =>
      obtain ⟨hqueued, hsent, hinput, hclosed, hpump⟩ :=
        kept_notify (x := x) (.disconnected "stream ended")
      exact ⟨hqueued, hsent, hinput, hclosed, hpump⟩
  · exact .refl

theorem kept_events (ok : Bool) : Kept x (x.pumpEvents ok) := by
  have hrest (rest : List ViewerEvent) : Kept x { x with events := rest } :=
    ⟨rfl, rfl, rfl, id, id⟩
  unfold Session.pumpEvents
  split
  · split
    · split_ifs
      · exact .refl
      · exact kept_endPump
    · exact hrest _
    · exact kept_endPump
    · split_ifs
      · exact hrest _
      · exact kept_endPump
  · exact .refl

theorem kept_frames (ok : Bool) : Kept x (x.framesStep ok) := by
  unfold Session.framesStep
  split_ifs
  · exact ⟨rfl, rfl, rfl, id, id⟩
  · exact .refl

theorem kept_stopFrames : Kept x { x with stopFrames := true } := ⟨rfl, rfl, rfl, id, id⟩

theorem input_or_kept (held : Bool) (e : SessionEvent) :
    (∃ ok, e = .input ok) ∨ Kept x (x.step held e) := by
  cases e with
  | input ok => exact .inl ⟨ok, rfl⟩
  | control received => exact .inr (kept_control received)
  | media received => exact .inr (kept_media received)
  | events ok => exact .inr (kept_events ok)
  | frames ok => exact .inr (kept_frames ok)
  | close => exact .inr ⟨rfl, rfl, rfl, fun _ => rfl, id⟩

theorem disconnecting_moves {rest : List ControlMessage} (hqueue : x.queued = m :: rest) :
    Session.disconnecting { x with queued := rest, sent := x.sent ++ [m] } = x.disconnecting := by
  simp [Session.disconnecting, hqueue]

theorem told_input (ok : Bool) (h : x.told = true) : (x.inputStep held ok).told = true := by
  unfold Session.inputStep
  split
  · split
    · rename_i hqueue
      split_ifs
      · rwa [Session.told, disconnecting_moves hqueue]
      · exact told_of_inputTask rfl
    · split_ifs
      · exact h
      · exact told_of_inputTask rfl
  · exact h

theorem disconnecting_input (ok : Bool) (h : x.disconnecting = false) :
    (x.inputStep held ok).disconnecting = false := by
  unfold Session.inputStep
  split
  · split
    · rename_i hqueue
      split_ifs
      · rwa [disconnecting_moves hqueue]
      · rw [Session.disconnecting, List.any_append, Bool.or_eq_false_iff] at h
        rw [Session.disconnecting, List.append_nil]
        exact (kept_notify (x := x) _).sent ▸ h.1
    · split_ifs <;> exact h
  · exact h

theorem told_step (e : SessionEvent) (h : x.told = true) : (x.step held e).told = true := by
  rcases input_or_kept held e with ⟨ok, rfl⟩ | hkept
  · exact told_input ok h
  · exact hkept.told h

theorem disconnecting_step (held : Bool) (e : SessionEvent) (h : x.disconnecting = false) :
    (x.step held e).disconnecting = false := by
  rcases input_or_kept held e with ⟨ok, rfl⟩ | hkept
  · exact disconnecting_input ok h
  · exact hkept.disconnecting.trans h

theorem ended_input (ok : Bool) (h : x.inputTask = false) : x.inputStep held ok = x := by
  rw [Session.inputStep, if_neg (by simp [h])]

theorem ended_stays (oks : List Bool) (h : x.inputTask = false) :
    (oks.foldl (Session.inputStep held) x).inputTask = false := by
  apply invariant (I := fun y : Session => y.inputTask = false) h
  intro y ok hy
  rwa [ended_input ok hy]

theorem abandoned_ends (h : x.pump = false) {oks : List Bool}
    (hlong : x.queued.length < oks.length) :
    (oks.foldl (Session.inputStep false) x).inputTask = false := by
  induction oks generalizing x with
  | nil => cases hlong
  | cons ok oks ih =>
    rw [List.foldl_cons]
    by_cases hinput : x.inputTask = true
    · rw [Session.inputStep, if_pos hinput]
      split
      · rename_i m rest hqueue
        cases ok with
        | true =>
          rw [hqueue] at hlong
          exact ih h (Nat.lt_of_succ_lt_succ hlong)
        | false => exact ended_stays oks rfl
      · rw [if_neg (by simp [h])]
        exact ended_stays oks rfl
    · rw [ended_input ok (Bool.not_eq_true _ ▸ hinput)]
      exact ended_stays oks (Bool.not_eq_true _ ▸ hinput)

theorem modify_some {sessions : List Session} {f : Session → Session} {j : ℕ}
    (h : (sessions.modify k f)[j]? = some x) :
    ∃ y, sessions[j]? = some y ∧ x = if k = j then f y else y := by
  rw [List.getElem?_modify] at h
  obtain ⟨y, hy, rfl⟩ := Option.map_eq_some_iff.mp h
  exact ⟨y, hy, rfl⟩

theorem finished_told (h : x.finished = true) : x.told = true := by
  simp only [Session.finished, Session.told, Bool.or_eq_true] at h ⊢
  exact h.imp_left (.imp_left .inr)

theorem dropViewer_slot : s.dropViewer.slot = none := by
  rw [App.dropViewer]
  split
  · assumption
  · rfl

theorem dropViewer_length : s.dropViewer.sessions.length = s.sessions.length := by
  rw [App.dropViewer]
  split
  · rfl
  · exact List.length_modify ..

theorem dropViewer_some (h : s.dropViewer.sessions[k]? = some x) :
    ∃ y, s.sessions[k]? = some y ∧ Kept y x := by
  unfold App.dropViewer at h
  split at h
  · exact ⟨x, h, .refl⟩
  · obtain ⟨y, hy, rfl⟩ := modify_some h
    refine ⟨y, hy, ?_⟩
    split_ifs
    · exact kept_stopFrames
    · exact .refl

theorem dropViewer_slotted (hslot : s.slot = some k) (hx : s.sessions[k]? = some x) :
    s.dropViewer.sessions[k]? = some { x with stopFrames := true } := by
  simp [App.dropViewer, hslot, hx]

theorem dropViewer_told (hothers : OneAlive s)
    (hslotted : ∀ k x, s.slot = some k → s.sessions[k]? = some x → x.told = true)
    (h : s.dropViewer.sessions[k]? = some x) : x.told = true := by
  obtain ⟨y, hy, hkept⟩ := dropViewer_some h
  apply hkept.told
  by_cases hslot : s.slot = some k
  · exact hslotted k y hslot hy
  · exact hothers k y hy hslot

theorem OneAlive.dropViewer (h : OneAlive s)
    (hslotted : ∀ k x, s.slot = some k → s.sessions[k]? = some x → x.told = true) :
    Inv s.dropViewer where
  slotted k hk := by
    rw [dropViewer_slot] at hk
    cases hk
  others k x hx _ := dropViewer_told h hslotted hx

theorem getElem_snoc {sessions : List Session} (h : (sessions ++ [y])[k]? = some x) :
    sessions[k]? = some x ∨ k = sessions.length ∧ x = y := by
  rcases Nat.lt_or_ge k sessions.length with hlt | hge
  · rw [List.getElem?_append_left hlt] at h
    exact .inl h
  · rw [List.getElem?_append_right hge] at h
    obtain ⟨hindex, hx⟩ := List.getElem?_eq_some_iff.mp h
    have hk : k - sessions.length = 0 := by simpa using hindex
    exact .inr ⟨by omega, by simpa [hk] using hx.symm⟩

theorem snoc_getElem {sessions : List Session} (h : sessions[k]? = some x) :
    (sessions ++ [y])[k]? = some x := by
  rwa [List.getElem?_append_left (List.getElem?_eq_some_iff.mp h).1]

theorem Inv.connected (h : Inv s) {remembered : Bool} (hok : remembered = true →
    ∀ k x, s.slot = some k → s.sessions[k]? = some x → x.finished = true) :
    Inv (s.connected remembered) := by
  cases remembered with
  | true =>
    refine ⟨fun k hk => ?_, fun k x hx hslot => ?_⟩
    · cases hk
      refine ⟨.start, ?_, rfl⟩
      exact (List.getElem?_append_right dropViewer_length.le).trans (by simp [dropViewer_length])
    · rcases getElem_snoc hx with hx | ⟨hk, -⟩
      · exact dropViewer_told h.others (fun k x hk hx => finished_told (hok rfl k x hk hx)) hx
      · rw [dropViewer_length] at hk
        exact (hslot (by rw [hk]; rfl)).elim
  | false =>
    refine ⟨fun k hk => ?_, fun k x hx hslot => ?_⟩
    · obtain ⟨x, hx, hquiet⟩ := h.slotted k hk
      exact ⟨x, snoc_getElem hx, hquiet⟩
    · rcases getElem_snoc hx with hx | ⟨-, rfl⟩
      · exact h.others k x hx hslot
      · rfl

theorem sendInput_disconnecting (h : x.disconnecting = false) (hm : isDisconnect m = false) :
    (x.sendInput m).disconnecting = false := by
  rw [Session.sendInput]
  split_ifs
  · simpa [Session.disconnecting, hm] using h
  · exact h

theorem sendInput_told (hm : isDisconnect m = true) : (x.sendInput m).told = true := by
  rw [Session.sendInput]
  split_ifs with hinput
  · simp [Session.told, Session.disconnecting, hm]
  · exact told_of_inputTask (Bool.not_eq_true _ ▸ hinput)

theorem OneAlive.modify {f : Session → Session} (h : OneAlive s) (hslot : s.slot = some k) :
    OneAlive { s with sessions := s.sessions.modify k f } := by
  intro j x hx hj
  obtain ⟨y, hy, rfl⟩ := modify_some hx
  have hne : k ≠ j := fun hkj => hj (hkj ▸ hslot)
  rw [if_neg hne]
  exact h j y hy hj

theorem Inv.sendInput (h : Inv s) (hm : isDisconnect m = false) : Inv (s.sendInput m) := by
  rw [App.sendInput]
  split
  · exact h
  · rename_i k hslot
    refine ⟨fun j hj => ?_, h.others.modify hslot⟩
    obtain ⟨x, hx, hquiet⟩ := h.slotted j hj
    cases hslot.symm.trans hj
    exact ⟨x.sendInput m, by simp [hx], sendInput_disconnecting hquiet hm⟩

theorem Inv.viewerDisconnect (h : Inv s) : Inv (s.step .viewerDisconnect) := by
  rw [App.step]
  unfold App.sendInput
  split
  · rename_i hslot
    refine h.others.dropViewer fun k x hk _ => ?_
    rw [hslot] at hk
    cases hk
  · rename_i k hslot
    refine (h.others.modify hslot).dropViewer fun j x hj hx => ?_
    cases hslot.symm.trans hj
    obtain ⟨y, -, rfl⟩ := modify_some hx
    rw [if_pos rfl]
    exact sendInput_told rfl

theorem Inv.session (h : Inv s) (k : ℕ) (e : SessionEvent) : Inv (s.step (.session k e)) where
  slotted j hj := by
    obtain ⟨x, hx, hquiet⟩ := h.slotted j hj
    by_cases hk : k = j
    · subst hk
      have hquiet' := disconnecting_step (decide (s.slot = some k)) e hquiet
      exact ⟨_, by simp [App.step, hx], hquiet'⟩
    · exact ⟨x, by simp [App.step, hk, hx], hquiet⟩
  others j x hx hj := by
    obtain ⟨y, hy, rfl⟩ := modify_some hx
    have htold : y.told = true := h.others j y hy hj
    split_ifs
    · exact told_step e htold
    · exact htold

theorem uiInput_keeps (event : UiInputEvent) (h : toControlMessage event = some m) :
    isDisconnect m = false := by
  cases event with
  | move x y =>
    cases h
    rfl
  | button button pressed =>
    obtain ⟨b, -, rfl⟩ := Option.map_eq_some_iff.mp h
    rfl
  | wheel dx dy =>
    cases h
    rfl
  | key key pressed =>
    obtain ⟨code, -, rfl⟩ := Option.map_eq_some_iff.mp h
    rfl
  | text text =>
    rw [toControlMessage] at h
    split_ifs at h
    cases h
    rfl

theorem Inv.step (h : Inv s) (e : AppEvent) (hok : okStep s e) : Inv (s.step e) := by
  cases e with
  | connectViewer =>
    have hdrop := h.others.dropViewer fun k x hk hx => finished_told (hok k x hk hx)
    exact ⟨hdrop.slotted, hdrop.others⟩
  | connectFails => exact ⟨h.slotted, h.others⟩
  | connected remembered =>
    rw [App.step]
    split_ifs with hconnecting
    · exact h
    · have hinv : Inv { s with connecting := s.connecting - 1 } := ⟨h.slotted, h.others⟩
      apply hinv.connected
      rintro rfl
      exact hok hconnecting
  | viewerInput event =>
    rw [App.step]
    split
    · exact h
    · rename_i hm
      exact h.sendInput (uiInput_keeps event hm)
  | viewerSelectMonitor monitorId => exact h.sendInput rfl
  | viewerDisconnect => exact h.viewerDisconnect
  | session k e => exact h.session k e

theorem inv_start : Inv .start := ⟨nofun, nofun⟩

theorem okStep_of_oneAlive (h : Inv s) (e : AppEvent) (hafter : OneAlive (s.step e)) :
    okStep s e := by
  cases e with
  | connectViewer =>
    intro k x hk hx
    obtain ⟨y, hy, hquiet⟩ := h.slotted k hk
    cases hx.symm.trans hy
    have htold := hafter k _ (dropViewer_slotted hk hx) (by simp [App.step, dropViewer_slot])
    exact (told_eq hquiet).symm.trans htold
  | connected remembered =>
    cases remembered with
    | true =>
      intro hconnecting k x hk hx
      obtain ⟨y, hy, hquiet⟩ := h.slotted k hk
      cases hx.symm.trans hy
      rw [App.step, if_neg hconnecting] at hafter
      have hlt : k < s.sessions.length := (List.getElem?_eq_some_iff.mp hx).1
      have hslot : some s.sessions.length ≠ some k := fun heq => hlt.ne' (Option.some.inj heq)
      have hdropped := dropViewer_slotted (s := { s with connecting := s.connecting - 1 }) hk hx
      have htold := hafter k _ (snoc_getElem hdropped) hslot
      exact (told_eq hquiet).symm.trans htold
    | false => trivial
  | _ => trivial

/-- No session outlives its place in the slot exactly in the runs that vacate the slot only once its
session is over. -/
theorem one_alive_iff (es : List AppEvent) :
    Meets App.step okStep .start es ↔ ∀ pre, pre <+: es → OneAlive (pre.foldl App.step .start) :=
  meets_iff inv_start (fun _ h => h.others) (fun _ e h hok => h.step e hok)
    fun _ e h hafter => okStep_of_oneAlive h e hafter

theorem replaced_session_lives :
    ¬ ∀ es : List AppEvent, OneAlive (es.foldl App.step .start) := by
  intro h
  have htold := h [.connectViewer, .connected true, .connectViewer, .connected true]
    0 { Session.start with stopFrames := true } rfl (by decide)
  exact absurd htold (by decide)

end Controlis.Viewer.Slot
