import Controlis.Portal.Lifetime
import Mathlib.Data.List.TakeWhile

/-!
# What is left of a portal session

Once the drop of a handle has returned, both threads are gone, everything that
injectors had sent before the shutdown has been taken, no device is left
emulating, and the session is closed unless the desktop refused or did not
answer in time. The drop gets there by what the threads do themselves. A `new`
that fails for want of the ei thread leaves the other one behind.
-/

namespace Controlis.Portal.Lifetime
open Runs

variable {D : Type*} [DecidableEq D] {s : State D}

/-- A device of the compositor may come and go, but none takes the place of one in use. -/
def Unhurried (s : State D) : Event D → Prop
  | .server event => Clean s.eis.client.state event.1
  | _ => True

structure Eis.Settled (e : Eis D) : Prop where
  matched : e.thread ≠ .ended → Matched e.client.state
  balanced : e.thread = .ended → Balanced e.client.state.log

theorem settled_start (format : VideoInfo) : (start format : State D).eis.Settled :=
  ⟨fun _ => Matched.new, nofun⟩

theorem balanced_nil : Balanced ([] : List (Entry D)) := ⟨trivial, fun _ => rfl⟩

section Settled

variable {e : Eis D}

theorem Eis.Settled.client (h : e.Settled) (hthread : e.thread ≠ .ended) {t : Eis D}
    (ht : t.thread ≠ .ended) (hclient : t.client.state = e.client.state) : t.Settled :=
  ⟨fun _ => by rw [hclient]; exact h.matched hthread, fun hended => absurd hended ht⟩

theorem Eis.Settled.post (h : e.Settled) (msg : Msg) : (e.post msg).Settled := by
  unfold Eis.post
  split_ifs
  · exact ⟨h.matched, h.balanced⟩
  · exact h

theorem Eis.Settled.setup (h : e.Settled) (hfresh : e.thread = .starting → e.client = .new)
    (failed : Option String) : (e.setup failed).Settled := by
  unfold Eis.setup
  split_ifs with hstarting
  · refine ⟨fun hended => absurd rfl hended, fun _ => ?_⟩
    dsimp only
    rw [hfresh hstarting]
    exact balanced_nil
  · exact h.client (by simp [hstarting]) nofun rfl
  · exact h

theorem Eis.Settled.server (h : e.Settled) {event : ServerEvent D}
    (hclean : Clean e.client.state event.1) : (e.server event).Settled := by
  unfold Eis.server
  split_ifs with hlooping
  · have hthread : e.thread ≠ .ended := by simp [hlooping.1]
    refine ⟨fun _ => ?_, fun hended => absurd hended hthread⟩
    dsimp only
    rw [step_state]
    exact (h.matched hthread).step hclean
  · exact h

theorem Eis.Settled.reads (h : e.Settled) : e.reads.Settled := by
  unfold Eis.reads
  split_ifs with hlooping
  · have hthread : e.thread ≠ .ended := by simp [hlooping]
    split
    · exact h
    · refine ⟨fun _ => ?_, fun hended => absurd hended hthread⟩
      dsimp only
      rw [step_state]
      exact (h.matched hthread).step trivial
    · exact h.client hthread hthread rfl
  · exact h

theorem Eis.Settled.finish (h : e.Settled) (hthread : e.thread ≠ .ended) : e.finish.Settled :=
  ⟨fun hended => absurd rfl hended, fun _ => (h.matched hthread).balanced⟩

end Settled

theorem Eis.Settled.step (h : s.eis.Settled) (hplaced : Placed s)
    (hsound : s.eis.Sound s.accepted) {e : Event D} (hok : Unhurried s e) :
    (step s e).eis.Settled := by
  cases hinjects : e.injects with
  | false => rwa [(eis_frame s hinjects).1]
  | true =>
    cases e with
    | spawnEis refused =>
      rcases spawnEis_cases s refused with ⟨heis, -⟩ | ⟨init, hhandle, hspawned⟩
      · rwa [Lifetime.step, heis]
      · rw [Placed, hhandle] at hplaced
        rw [Lifetime.step, hspawned]
        exact h.client (by simp [hplaced.2.2]) (by simp) rfl
    | captureJoined =>
      simp only [Lifetime.step, State.captureJoined]
      split_ifs
      · exact h.post _
      · exact h
    | eisSetup failed => exact h.setup (fun hstarting => hsound.fresh (.inr hstarting)) failed
    | server event => exact h.server hok
    | connectionLost =>
      simp only [Lifetime.step, Eis.connectionLost]
      split_ifs
      · exact ⟨h.matched, h.balanced⟩
      · exact h
    | dispatchFails message =>
      simp only [Lifetime.step, Eis.dispatchFails]
      split_ifs with hlooping
      · exact h.finish (by simp [hlooping])
      · exact h
    | eisReads => exact h.reads
    | eisEnds =>
      simp only [Lifetime.step, Eis.ends]
      split_ifs with hlooping
      · exact h.finish (by simp [hlooping.1])
      · exact h
    | send cmd =>
      simp only [Lifetime.step, State.send]
      split_ifs
      · exact h.post _
      · exact h
    | _ => cases hinjects

def Event.leavesOpen : Event D → Bool
  | .sessionCloses refused => refused.isSome
  | .taskDropped | .timedOut => true
  | _ => false

def PortalHandle.served : PortalHandle → Bool
  | .awaiting | .abandoned | .failed _ => false
  | _ => true

theorem ask_bind {d : Desktop} {call : Call} {α : Type} {k : Unit → Except PortalError α} {a : α}
    (h : (d.ask call >>= k) = .ok a) : (d.refuses call).isNone = true ∧ k () = .ok a := by
  unfold Desktop.ask at h
  cases hrefuses : d.refuses call with
  | none => exact ⟨rfl, by rwa [hrefuses] at h⟩
  | some message =>
    rw [hrefuses] at h
    cases h

theorem opens_of_setup {d : Desktop} {init : PortalInit} (h : setupSession d = .ok init) :
    d.opens = true := by
  obtain ⟨hremote, h⟩ := ask_bind h
  obtain ⟨hscreencast, h⟩ := ask_bind h
  obtain ⟨hsession, -⟩ := ask_bind h
  simp [Desktop.opens, hremote, hscreencast, hsession]

structure Attended (s : State D) : Prop where
  setup : s.task = .setup → s.init = none ∧ s.handle.served = false
  waiting : s.task = .waiting → s.session = .opened
  closing : s.task = .closing → s.session = .opened
  ended : s.task = .ended → s.session = .closed ∨ ∃ error, s.init = some (.error error)
  served : s.handle.served = true → ∃ init, s.init = some (.ok init)
  dropped : s.handle = .dropped → s.task = .ended

omit [DecidableEq D] in
theorem attended_start (format : VideoInfo) : Attended (start format : State D) :=
  ⟨fun _ => ⟨rfl, rfl⟩, nofun, nofun, nofun, nofun, nofun⟩

omit [DecidableEq D] in
theorem Attended.handle (h : Attended s) {t : State D}
    (hserved : t.handle.served = true → s.handle.served = true) (hdropped : t.handle ≠ .dropped)
    (htask : t.task = s.task) (hsession : t.session = s.session) (hinit : t.init = s.init) :
    Attended t := by
  refine ⟨fun hsetup => ?_, ?_, ?_, ?_, fun hgot => ?_, fun hgone => absurd hgone hdropped⟩
  · obtain ⟨hnone, hnew⟩ := h.setup (htask.symm.trans hsetup)
    refine ⟨hinit.trans hnone, ?_⟩
    rw [Bool.eq_false_iff] at hnew ⊢
    exact fun hgot => hnew (hserved hgot)
  · rw [htask, hsession]
    exact h.waiting
  · rw [htask, hsession]
    exact h.closing
  · rw [htask, hsession, hinit]
    exact h.ended
  · rw [hinit]
    exact h.served (hserved hgot)

omit [DecidableEq D] in
theorem Attended.setup_step (h : Attended s) (d : Desktop) : Attended (s.setup d) := by
  unfold State.setup
  by_cases hsetup : s.task = .setup
  · rw [if_pos hsetup]
    -- `new` waits for the task, so there is neither a live handle nor a drop
    obtain ⟨-, hnew⟩ := h.setup hsetup
    have hgone (hdropped : s.handle = .dropped) : False := by
      rw [hdropped] at hnew
      cases hnew
    have hserved (hgot : s.handle.served = true) : False := by
      rw [hnew] at hgot
      cases hgot
    dsimp only
    split
    · exact ⟨nofun, nofun, nofun, fun _ => .inr ⟨_, rfl⟩, fun hgot => (hserved hgot).elim,
        fun _ => rfl⟩
    · rename_i init hinit
      simp only [opens_of_setup hinit, if_true]
      split_ifs
      · exact ⟨nofun, fun _ => rfl, nofun, nofun, fun _ => ⟨init, rfl⟩,
          fun hdropped => (hgone hdropped).elim⟩
      · exact ⟨nofun, nofun, fun _ => rfl, nofun, fun hgot => (hserved hgot).elim,
          fun hdropped => (hgone hdropped).elim⟩
  · rwa [if_neg hsetup]

omit [DecidableEq D] in
theorem Attended.initReceived (h : Attended s) : Attended s.initReceived := by
  unfold State.initReceived
  split
  · rename_i init hhandle hinit
    refine ⟨fun hsetup => ?_, h.waiting, h.closing, h.ended, fun _ => ⟨init, hinit⟩, nofun⟩
    rw [(h.setup hsetup).1] at hinit
    cases hinit
  · exact h.handle nofun nofun rfl rfl rfl
  · split_ifs
    · exact h.handle nofun nofun rfl rfl rfl
    · exact h
  · exact h

omit [DecidableEq D] in
theorem Attended.taskWakes (h : Attended s) : Attended s.taskWakes := by
  unfold State.taskWakes
  split_ifs with hwaiting
  · refine ⟨by simp, by simp, fun _ => h.waiting hwaiting.1, by simp, h.served,
      fun hdropped => ?_⟩
    have hended := h.dropped hdropped
    rw [hwaiting.1] at hended
    cases hended
  · exact h

omit [DecidableEq D] in
theorem Attended.sessionCloses (h : Attended s) : Attended (s.sessionCloses none) := by
  simp only [State.sessionCloses, Option.isSome_none, Bool.false_eq_true, if_false]
  split_ifs
  · exact ⟨by simp, by simp, by simp, fun _ => .inl rfl, h.served, fun _ => rfl⟩
  · exact h

omit [DecidableEq D] in
theorem Attended.abandon (h : Attended s) : Attended s.abandon := by
  unfold State.abandon
  split_ifs
  · exact h.handle (by simp [PortalHandle.served]) (by simp) rfl rfl rfl
  · exact h

omit [DecidableEq D] in
theorem Attended.spawnCapture (h : Attended s) (refused : Option String) :
    Attended (s.spawnCapture refused) := by
  unfold State.spawnCapture
  split
  · exact h.handle (by simp [PortalHandle.served]) (by simp) rfl rfl rfl
  · rename_i hhandle
    exact h.handle (fun _ => by rw [hhandle]; rfl) (by simp) rfl rfl rfl
  · exact h

omit [DecidableEq D] in
theorem Attended.spawnEis (h : Attended s) (refused : Option String) :
    Attended (s.spawnEis refused) := by
  unfold State.spawnEis
  split
  · exact h.handle (by simp [PortalHandle.served]) (by simp) rfl rfl rfl
  · rename_i hhandle
    exact h.handle (fun _ => by rw [hhandle]; rfl) (by simp) rfl rfl rfl
  · exact h

omit [DecidableEq D] in
theorem Attended.clone (h : Attended s) : Attended s.clone := by
  unfold State.clone
  split
  · rename_i hhandle
    exact h.handle (fun _ => by rw [hhandle]; rfl) (by simp) rfl rfl rfl
  · exact h

omit [DecidableEq D] in
theorem Attended.release (h : Attended s) : Attended s.release := by
  unfold State.release
  split
  · rename_i hhandle
    exact h.handle (fun _ => by rw [hhandle]; rfl) (by simp) rfl rfl rfl
  · rename_i hhandle
    exact h.handle (fun _ => by rw [hhandle]; rfl) (by simp) rfl rfl rfl
  · exact h

omit [DecidableEq D] in
theorem Attended.captureJoined (h : Attended s) : Attended s.captureJoined := by
  unfold State.captureJoined
  split_ifs with hjoined
  · exact h.handle (fun _ => by rw [hjoined.1]; rfl) (by simp) rfl rfl rfl
  · exact h

omit [DecidableEq D] in
theorem Attended.eisJoined (h : Attended s) : Attended s.eisJoined := by
  unfold State.eisJoined
  split_ifs with hjoined
  · exact h.handle (fun _ => by rw [hjoined.1]; rfl) (by simp) rfl rfl rfl
  · exact h

omit [DecidableEq D] in
theorem Attended.closedReceived (h : Attended s) : Attended s.closedReceived := by
  unfold State.closedReceived
  split_ifs with hleaving
  · have hserved := h.served (by rw [hleaving.1]; rfl)
    refine ⟨fun hsetup => ?_, h.waiting, h.closing, h.ended, fun _ => hserved,
      fun _ => hleaving.2⟩
    rw [hleaving.2] at hsetup
    cases hsetup
  · exact h

omit [DecidableEq D] in
theorem Attended.send (h : Attended s) (cmd : InputCmd) : Attended (s.send cmd) := by
  unfold State.send
  split_ifs
  · exact ⟨h.setup, h.waiting, h.closing, h.ended, h.served, h.dropped⟩
  · exact h

theorem Attended.step (h : Attended s) {e : Event D} (hok : e.leavesOpen = false) :
    Attended (step s e) := by
  cases e with
  | setup d => exact h.setup_step d
  | taskWakes => exact h.taskWakes
  | sessionCloses refused =>
    cases refused with
    | some message => cases hok
    | none => exact h.sessionCloses
  | taskDropped => cases hok
  | timedOut => cases hok
  | initReceived => exact h.initReceived
  | abandon => exact h.abandon
  | spawnCapture refused => exact h.spawnCapture refused
  | spawnEis refused => exact h.spawnEis refused
  | clone => exact h.clone
  | release => exact h.release
  | captureJoined => exact h.captureJoined
  | eisJoined => exact h.eisJoined
  | closedReceived => exact h.closedReceived
  | send cmd => exact h.send cmd
  | _ => exact ⟨h.setup, h.waiting, h.closing, h.ended, h.served, h.dropped⟩

theorem placed_run (format : VideoInfo) (es : List (Event D)) :
    Placed (es.foldl step (start format)) :=
  Runs.invariant (placed_start format) fun _ e h => h.step e

theorem sound_run (format : VideoInfo) (es : List (Event D)) :
    (es.foldl step (start format)).eis.Sound (es.foldl step (start format)).accepted :=
  (Runs.invariant (I := fun s => Placed s ∧ s.eis.Sound s.accepted)
    ⟨placed_start format, sound_start format⟩
    fun _ e h => ⟨h.1.step e, h.1.sound_step h.2 e⟩).2

theorem dropped_step (h : Placed s) (hdropped : s.handle = .dropped) (e : Event D) :
    (step s e).handle = .dropped ∧ (step s e).capture = s.capture ∧ (step s e).eis = s.eis := by
  -- both threads have been joined, and a handle that is gone starts none
  rw [Placed, hdropped] at h
  obtain ⟨hcapture, heis⟩ := h
  cases e with
  | setup d =>
    simp only [step, State.setup]
    repeat' split
    all_goals exact ⟨hdropped, rfl, rfl⟩
  | captureSetup | stream | captureQuits =>
    simp [step, Capture.setup, Capture.stream, Capture.quits, hcapture, hdropped]
  | eisSetup | server | connectionLost | dispatchFails | eisReads | eisEnds =>
    simp [step, Eis.setup, Eis.server, Eis.connectionLost, Eis.dispatchFails, Eis.reads, Eis.ends,
      heis, hdropped]
  | send cmd => simp [step, State.send, Eis.alive, heis, hdropped]
  | taskDropped => exact ⟨hdropped, rfl, rfl⟩
  | taskWakes =>
    simp only [step, State.taskWakes]
    split_ifs <;> exact ⟨hdropped, rfl, rfl⟩
  | sessionCloses refused =>
    simp only [step, State.sessionCloses]
    split_ifs <;> exact ⟨hdropped, rfl, rfl⟩
  | _ =>
    simp [step, State.abandon, State.initReceived, State.spawnCapture, State.spawnEis, State.clone,
      State.release, State.captureJoined, State.eisJoined, State.closedReceived, State.timedOut,
      hdropped]

theorem dropped_run (h : Placed s) (hdropped : s.handle = .dropped) (es : List (Event D)) :
    (es.foldl step s).capture = s.capture ∧ (es.foldl step s).eis = s.eis := by
  induction es generalizing s with
  | nil => exact ⟨rfl, rfl⟩
  | cons e es ih =>
    obtain ⟨hstill, hcapture, heis⟩ := dropped_step h hdropped e
    obtain ⟨hcapture', heis'⟩ := ih (h.step e) hstill
    exact ⟨hcapture'.trans hcapture, heis'.trans heis⟩

/-- Where nothing but `Shutdown` stops the ei thread, it has read by its end what was accepted
before the shutdown. -/
theorem accepted_of_unbroken (format : VideoInfo) {es pre : List (Event D)}
    (hok : ∀ e ∈ es, e.breaks = false) (hpre : pre <+: es)
    (hbefore : (pre.foldl step (start format)).handle.shutsDown = false)
    (hended : (es.foldl step (start format)).eis.thread = .ended) :
    (pre.foldl step (start format)).accepted <+:
      (es.foldl step (start format)).eis.client.submitted := by
  obtain ⟨rest, rfl⟩ := hpre
  have hfirst : Unbroken (pre.foldl step (start format)) :=
    Runs.invariant_of_meets (unbroken_start format)
      (Runs.meets_of_forall fun e he => hok e (List.mem_append_left _ he)) fun _ _ h => h.step
  rw [List.foldl_append] at hended ⊢
  have hrest : Meets step (fun _ e => e.breaks = false) (pre.foldl step (start format)) rest :=
    Runs.meets_of_forall fun e he => hok e (List.mem_append_right _ he)
  obtain ⟨hlast, hdue⟩ := Runs.invariant_of_meets
    (I := fun t => Unbroken t ∧ (pre.foldl step (start format)).eis.due <+: t.eis.due)
    ⟨hfirst, List.prefix_refl _⟩ hrest fun t e h hok => ⟨h.1.step hok, h.2.trans (due_step t hok)⟩
  obtain ⟨hrunning, hnone⟩ := hfirst.running hbefore
  -- before the shutdown all that waits in the channel is due
  have haccepted : (pre.foldl step (start format)).eis.due =
      (pre.foldl step (start format)).accepted := by
    have hthread : (pre.foldl step (start format)).eis.thread ≠ .ended := by
      intro hthread
      rw [hfirst.ended hthread] at hrunning
      cases hrunning
    rw [Eis.due, if_pos hrunning, List.takeWhile_eq_self_iff.mpr,
      (sound_run format pre).taken hthread]
    intro msg hmsg
    refine decide_eq_true ?_
    rintro rfl
    exact hnone hmsg
  rwa [haccepted, Eis.due, hlast.ended hended, if_neg (by decide), List.append_nil] at hdue

theorem settled_run (format : VideoInfo) {es : List (Event D)}
    (hok : Meets step Unhurried (start format) es) :
    (es.foldl step (start format)).eis.Settled :=
  (Runs.invariant_of_meets (I := fun s => Placed s ∧ s.eis.Sound s.accepted ∧ s.eis.Settled)
    ⟨placed_start format, sound_start format, settled_start format⟩ hok fun _ e h hok =>
      ⟨h.1.step e, h.1.sound_step h.2.1 e, h.2.2.step h.1 h.2.1 hok⟩).2.2

theorem closed_of_dropped (format : VideoInfo) {es : List (Event D)}
    (hok : ∀ e ∈ es, e.leavesOpen = false)
    (hdropped : (es.foldl step (start format)).handle = .dropped) :
    (es.foldl step (start format)).session = .closed := by
  have h : Attended (es.foldl step (start format)) :=
    Runs.invariant_of_meets (attended_start format) (Runs.meets_of_forall hok) fun _ _ h => h.step
  rcases h.ended (h.dropped hdropped) with hclosed | ⟨error, herror⟩
  · exact hclosed
  · obtain ⟨init, hinit⟩ := h.served (by rw [hdropped]; rfl)
    rw [hinit] at herror
    cases herror

def sampleDesktop : Desktop := ⟨fun _ => none, [⟨42, some (1920, 1080)⟩]⟩

def sampleFormat : VideoInfo := ⟨.bgrx, 0, 0⟩

/-- A press is sent before the last holder lets go and waits in the channel; its release comes
too late. -/
def sampleRun : List (Event ℕ) :=
  [.setup sampleDesktop, .initReceived, .spawnCapture none, .spawnEis none, .clone,
    .captureSetup none, .send (.button 0x110 true), .release, .eisSetup none, .release,
    .captureQuits, .captureJoined, .send (.button 0x110 false), .eisReads, .eisReads, .eisEnds,
    .eisJoined, .taskWakes, .sessionCloses none, .closedReceived]

def Eis.Told (e : Eis D) : Prop :=
  e.thread = .ended ∨ e.running = false ∨ .shutdown ∈ e.messages

section Told

variable {e : Eis D}

omit [DecidableEq D] in
theorem Eis.Told.post (h : e.Told) (msg : Msg) : (e.post msg).Told := by
  unfold Eis.post
  split_ifs
  · exact h.imp_right (Or.imp_right (List.mem_append_left _))
  · exact h

omit [DecidableEq D] in
theorem told_post_shutdown (hthread : e.thread ≠ .off) : (e.post .shutdown).Told := by
  unfold Eis.post
  split_ifs with halive
  · exact .inr (.inr (by simp))
  · refine .inl ?_
    cases hcase : e.thread <;> simp_all [Eis.alive]

theorem Eis.Told.reads (h : e.Told) : e.reads.Told := by
  unfold Eis.reads
  split_ifs with hlooping
  · split
    · exact h
    · rename_i cmd rest hmessages
      rcases h with hended | hstopped | hmem
      · exact .inl hended
      · exact .inr (.inl hstopped)
      · rw [hmessages] at hmem
        exact .inr (.inr ((List.mem_cons.mp hmem).resolve_left nofun))
    · exact .inr (.inl rfl)
  · exact h

end Told

theorem told_step (hplaced : Placed s) (h : s.handle.shutsDown = true → s.eis.Told) (e : Event D) :
    (step s e).handle.shutsDown = true → (step s e).eis.Told := by
  intro hshut
  by_cases hjoin : e = .captureJoined
  · subst hjoin
    simp only [step, State.captureJoined] at hshut ⊢
    split_ifs at hshut ⊢ with hjoined
    · rw [Placed, hjoined.1] at hplaced
      exact told_post_shutdown hplaced.2.2
    · exact h hshut
  · rw [shutsDown_step s hjoin] at hshut
    have htold := h hshut
    cases hinjects : e.injects with
    | false => rwa [(eis_frame s hinjects).1]
    | true =>
      cases e with
      | captureJoined => exact absurd rfl hjoin
      | spawnEis refused =>
        rcases spawnEis_cases s refused with ⟨heis, -⟩ | ⟨init, hhandle, -⟩
        · rwa [step, heis]
        · rw [hhandle] at hshut
          cases hshut
      | eisSetup failed =>
        simp only [step, Eis.setup]
        split_ifs with hstarting
        · exact .inl rfl
        · exact .inr (htold.resolve_left (by simp [hstarting]))
        · exact htold
      | server event =>
        simp only [step, Eis.server]
        split_ifs
        · exact htold
        · exact htold
      | connectionLost =>
        simp only [step, Eis.connectionLost]
        split_ifs
        · exact .inr (.inl rfl)
        · exact htold
      | dispatchFails message =>
        simp only [step, Eis.dispatchFails]
        split_ifs
        · exact .inl rfl
        · exact htold
      | eisReads => exact htold.reads
      | eisEnds =>
        simp only [step, Eis.ends]
        split_ifs
        · exact .inl rfl
        · exact htold
      | send cmd =>
        simp only [step, State.send]
        split_ifs
        · exact htold.post _
        · exact htold
      | _ => cases hinjects

def Event.own : Event D → Bool
  | .captureSetup _ | .captureQuits | .captureJoined | .eisSetup _ | .eisReads | .eisEnds
  | .eisJoined | .timedOut => true
  | _ => false

def PortalHandle.parts : PortalHandle → Bool
  | .stopping | .shutting | .leaving | .dropped => true
  | _ => false

def PortalHandle.toGo : PortalHandle → ℕ
  | .stopping => 4
  | .shutting => 2
  | .leaving => 1
  | _ => 0

def Thread.toGo : Thread → ℕ
  | .starting => 2
  | .looping => 1
  | _ => 0

def State.toGo (s : State D) : ℕ :=
  s.handle.toGo + s.capture.thread.toGo + s.eis.thread.toGo + s.eis.messages.length

theorem own_step (hplaced : Placed s) (htold : s.handle.shutsDown = true → s.eis.Told)
    (hparts : s.handle.parts = true) (hdropped : s.handle ≠ .dropped) :
    ∃ e : Event D, e.own = true ∧ (step s e).handle.parts = true ∧ (step s e).toGo < s.toGo := by
  cases hhandle : s.handle with
  | stopping =>
    rw [Placed, hhandle] at hplaced
    obtain ⟨hoff, hquit, -⟩ := hplaced
    cases hthread : s.capture.thread with
    | off => exact absurd hthread hoff
    | starting =>
      refine ⟨.captureSetup none, rfl, hparts, ?_⟩
      simp [step, Capture.setup, State.toGo, Thread.toGo, hthread]
    | looping =>
      refine ⟨.captureQuits, rfl, hparts, ?_⟩
      simp [step, Capture.quits, State.toGo, Thread.toGo, hthread, hquit]
    | ended =>
      refine ⟨.captureJoined, rfl, ?_, ?_⟩
      · simp [step, State.captureJoined, hhandle, hthread, PortalHandle.parts]
      · have hlength : (s.eis.post .shutdown).messages.length ≤ s.eis.messages.length + 1 := by
          unfold Eis.post
          split_ifs <;> simp
        simp only [step, State.captureJoined, hhandle, hthread, and_self, if_true, State.toGo,
          PortalHandle.toGo, Thread.toGo, Eis.post_thread]
        omega
  | shutting =>
    have hshut := htold (by rw [hhandle]; rfl)
    rw [Placed, hhandle] at hplaced
    cases hthread : s.eis.thread with
    | off => exact absurd hthread hplaced.2
    | starting =>
      refine ⟨.eisSetup none, rfl, hparts, ?_⟩
      simp [step, Eis.setup, State.toGo, Thread.toGo, hthread]
    | looping =>
      rcases hshut with hended | hstopped | hmem
      · rw [hended] at hthread
        cases hthread
      · refine ⟨.eisEnds, rfl, hparts, ?_⟩
        simp only [step, Eis.ends, hthread, hstopped, and_self, if_true, Eis.finish, State.toGo,
          Thread.toGo, List.length_nil]
        omega
      -- one message at a time, until the shutdown in the channel is read
      · refine ⟨.eisReads, rfl, hparts, ?_⟩
        obtain ⟨msg, rest, hmessages⟩ := List.exists_cons_of_ne_nil (List.ne_nil_of_mem hmem)
        cases msg <;> simp [step, Eis.reads, State.toGo, hthread, hmessages]
    | ended =>
      refine ⟨.eisJoined, rfl, ?_, ?_⟩
      · simp [step, State.eisJoined, hhandle, hthread, PortalHandle.parts]
      · simp [step, State.eisJoined, hhandle, hthread, State.toGo, PortalHandle.toGo]
  | leaving =>
    refine ⟨.timedOut, rfl, ?_, ?_⟩
    · simp [step, State.timedOut, hhandle, PortalHandle.parts]
    · simp [step, State.timedOut, hhandle, State.toGo, PortalHandle.toGo]
  | dropped => exact absurd hhandle hdropped
  | _ =>
    rw [hhandle] at hparts
    cases hparts

/-- Whatever the desktop, the task and the injectors have done and however much is in the channel,
a drop that has begun can return by steps of its own threads alone. -/
theorem drop_never_hangs (format : VideoInfo) (es : List (Event D))
    (hparts : (es.foldl step (start format)).handle.parts = true) :
    ∃ fs : List (Event D), (∀ e ∈ fs, e.own = true) ∧
      (fs.foldl step (es.foldl step (start format))).handle = .dropped := by
  have hreached : Placed (es.foldl step (start format)) ∧
      ((es.foldl step (start format)).handle.shutsDown = true →
        (es.foldl step (start format)).eis.Told) :=
    Runs.invariant (I := fun s : State D => Placed s ∧ (s.handle.shutsDown = true → s.eis.Told))
      ⟨placed_start format, nofun⟩ fun _ e h => ⟨h.1.step e, told_step h.1 h.2 e⟩
  have hnext (s : State D) (h : Placed s ∧ (s.handle.shutsDown = true → s.eis.Told) ∧
      s.handle.parts = true) (hdropped : ¬s.handle = .dropped) :
      ∃ e : Event D, e.own = true ∧ (Placed (step s e) ∧
        ((step s e).handle.shutsDown = true → (step s e).eis.Told) ∧
          (step s e).handle.parts = true) ∧ (step s e).toGo < s.toGo := by
    obtain ⟨hplaced, htold, hstill⟩ := h
    obtain ⟨e, hown, hparts, hlt⟩ := own_step hplaced htold hstill hdropped
    exact ⟨e, hown, ⟨hplaced.step e, told_step hplaced htold e, hparts⟩, hlt⟩
  exact Runs.reaches State.toGo hnext ⟨hreached.1, hreached.2, hparts⟩

theorem drop_never_hangs_sample : ∃ fs : List (Event ℕ), (∀ e ∈ fs, e.own = true) ∧
    (fs.foldl step ((sampleRun.take 10).foldl step (start sampleFormat))).handle = .dropped :=
  drop_never_hangs sampleFormat _ rfl

def State.slot (s : State D) : FrameSlot := s.capture.data.frame

/-- `PortalCapturer::capture` looks at the slot again and again until its deadline has passed. -/
def capture (deadline : ℕ) : List (ℕ × FrameSlot) → Option (Except String Codec.RgbaFrame)
  | [] => none
  | (now, slot) :: looks =>
    match if slot.poisoned then none else slot.value with
    | some frame => some (.ok frame)
    | none =>
      if deadline ≤ now then some (.error "no frame from portal yet") else capture deadline looks

theorem streamStep_slot {data : StreamData} (h : data.frame.poisoned = false)
    (event : StreamEvent) :
    ∃ next, streamStep data event = .ok next ∧ next.frame.poisoned = false ∧
      (data.frame.value.isSome → next.frame.value.isSome) := by
  cases event with
  | paramChanged format => exact ⟨_, rfl, h, id⟩
  | process buffer =>
    cases buffer with
    | none => exact ⟨data, rfl, h, id⟩
    | some buffer =>
      rcases publishFrame_cases data buffer with ⟨plane, _, bytes, -, -, -, hstep⟩ | ⟨hstep, -⟩
      · exact ⟨_, hstep, by simp [FrameSlot.store, h], by simp [FrameSlot.store, h]⟩
      · exact ⟨data, hstep, h, id⟩

theorem slot_step (h : s.slot.poisoned = false) (e : Event D) :
    (step s e).slot.poisoned = false ∧ (s.slot.value.isSome → (step s e).slot.value.isSome) := by
  cases e with
  | setup d =>
    simp only [step, State.setup]
    repeat' split
    all_goals exact ⟨h, id⟩
  | initReceived =>
    simp only [step, State.initReceived]
    repeat' split
    all_goals exact ⟨h, id⟩
  | spawnCapture | spawnEis | clone | release =>
    simp only [step, State.spawnCapture, State.spawnEis, State.clone, State.release]
    split <;> exact ⟨h, id⟩
  | stream event =>
    simp only [step, Capture.stream]
    split_ifs
    · obtain ⟨next, hstep, hnext⟩ := streamStep_slot h event
      rwa [hstep]
    · exact ⟨h, id⟩
  | captureSetup | captureQuits =>
    simp only [step, Capture.setup, Capture.quits]
    split_ifs <;> exact ⟨h, id⟩
  | taskWakes | sessionCloses | abandon | captureJoined | eisJoined | closedReceived | timedOut
  | send =>
    simp only [step, State.taskWakes, State.sessionCloses, State.abandon, State.captureJoined,
      State.eisJoined, State.closedReceived, State.timedOut, State.send]
    split_ifs <;> exact ⟨h, id⟩
  | _ => exact ⟨h, id⟩

theorem slot_run (h : s.slot.poisoned = false) (fs : List (Event D)) :
    (fs.foldl step s).slot.poisoned = false ∧
      (s.slot.value.isSome → (fs.foldl step s).slot.value.isSome) :=
  Runs.invariant (I := fun t : State D => t.slot.poisoned = false ∧
    (s.slot.value.isSome → t.slot.value.isSome)) ⟨h, id⟩ fun t e ht => by
      obtain ⟨hpoisoned, hkept⟩ := slot_step ht.1 e
      exact ⟨hpoisoned, fun hsome => hkept (ht.2 hsome)⟩

theorem capture_after_frame (format : VideoInfo) (es fs : List (Event D))
    (hframe : (es.foldl step (start format)).slot.value.isSome) (deadline now : ℕ)
    (looks : List (ℕ × FrameSlot)) :
    let slot := (fs.foldl step (es.foldl step (start format))).slot
    ∃ frame, slot.value = some frame ∧
      capture deadline ((now, slot) :: looks) = some (.ok frame) := by
  have hpoisoned : (es.foldl step (start format)).slot.poisoned = false := (slot_run rfl es).1
  obtain ⟨hclean, hkept⟩ := slot_run hpoisoned fs
  obtain ⟨frame, hvalue⟩ := Option.isSome_iff_exists.mp (hkept hframe)
  refine ⟨frame, hvalue, ?_⟩
  simp [capture, hclean, hvalue]

variable {error : PortalError}

theorem failed_step (h : Placed s) (hfailed : s.handle = .failed error) (e : Event D) :
    (step s e).handle = .failed error ∧ (step s e).eis = s.eis ∧
      Leads s.capture.thread (step s e).capture.thread := by
  rw [Placed, hfailed] at h
  obtain ⟨hquit, heis⟩ := h
  cases e with
  | setup d =>
    simp only [step, State.setup]
    repeat' split
    all_goals exact ⟨hfailed, rfl, .refl _⟩
  | captureSetup failed => exact ⟨hfailed, rfl, s.capture.setup_leads failed⟩
  | stream event => exact ⟨hfailed, rfl, s.capture.stream_leads event⟩
  | captureQuits => exact ⟨hfailed, rfl, s.capture.quits_leads⟩
  | taskDropped => exact ⟨hfailed, rfl, .refl _⟩
  | eisSetup | server | connectionLost | dispatchFails | eisReads | eisEnds | send =>
    simp [step, Eis.setup, Eis.server, Eis.connectionLost, Eis.dispatchFails, Eis.reads, Eis.ends,
      State.send, Eis.alive, heis, hfailed, Leads.refl]
  | taskWakes | sessionCloses =>
    simp only [step, State.taskWakes, State.sessionCloses]
    split_ifs <;> exact ⟨hfailed, rfl, .refl _⟩
  | _ =>
    simp [step, State.abandon, State.initReceived, State.spawnCapture, State.spawnEis, State.clone,
      State.release, State.captureJoined, State.eisJoined, State.closedReceived, State.timedOut,
      hfailed, Leads.refl]

theorem looping_step (h : Placed s) (hfailed : s.handle = .failed error)
    (hpoisoned : s.slot.poisoned = false) (hlooping : s.capture.thread = .looping)
    (e : Event D) : (step s e).capture.thread = .looping := by
  rw [Placed, hfailed] at h
  obtain ⟨hquit, heis⟩ := h
  cases e with
  | setup d =>
    simp only [step, State.setup]
    repeat' split
    all_goals exact hlooping
  | stream event =>
    obtain ⟨next, hstep, -⟩ := streamStep_ok hpoisoned event
    simp [step, Capture.stream, hlooping, hstep]
  | captureSetup => simp [step, Capture.setup, hlooping]
  | captureQuits => simp [step, Capture.quits, hlooping, hquit]
  | taskWakes | sessionCloses | send =>
    simp only [step, State.taskWakes, State.sessionCloses, State.send]
    split_ifs <;> exact hlooping
  | _ =>
    simp [step, State.abandon, State.initReceived, State.spawnCapture, State.spawnEis, State.clone,
      State.release, State.captureJoined, State.eisJoined, State.closedReceived, State.timedOut,
      hfailed, hlooping]

theorem failed_run (h : Placed s) (hpoisoned : s.slot.poisoned = false)
    (hfailed : s.handle = .failed error) (fs : List (Event D)) :
    (fs.foldl step s).handle = .failed error ∧ (fs.foldl step s).eis = s.eis ∧
      Leads s.capture.thread (fs.foldl step s).capture.thread ∧
      (s.capture.thread = .looping → (fs.foldl step s).capture.thread = .looping) := by
  induction fs generalizing s with
  | nil => exact ⟨hfailed, rfl, .refl _, id⟩
  | cons e fs ih =>
    obtain ⟨hstill, heis, hleads⟩ := failed_step h hfailed e
    obtain ⟨hlast, heis', hleads', hlooping'⟩ := ih (h.step e) (slot_step hpoisoned e).1 hstill
    refine ⟨hlast, heis'.trans heis, ⟨hleads.1.trans hleads'.1, hleads'.2 ∘ hleads.2⟩, ?_⟩
    exact fun hlooping => hlooping' (looping_step h hfailed hpoisoned hlooping e)

theorem failing_step (hplaced : Placed s) (hnot : s.handle ≠ .failed error) {e : Event D}
    (hfailed : (step s e).handle = .failed error) : (step s e).capture.thread = .off ∨
      ∃ init message, s.handle = .capturing init ∧ e = .spawnEis (some message) := by
  cases e with
  | initReceived =>
    left
    simp only [step, State.initReceived] at hfailed ⊢
    split at hfailed
    · cases hfailed
    · rename_i hhandle _
      rw [Placed, hhandle] at hplaced
      exact hplaced.1
    · rename_i hhandle _
      rw [Placed, hhandle] at hplaced
      split_ifs <;> exact hplaced.1
    · exact absurd hfailed hnot
  | spawnCapture refused =>
    left
    simp only [step, State.spawnCapture] at hfailed ⊢
    split at hfailed
    · rename_i hhandle
      rw [Placed, hhandle] at hplaced
      exact hplaced.1
    · cases hfailed
    · exact absurd hfailed hnot
  | spawnEis refused =>
    simp only [step, State.spawnEis] at hfailed
    split at hfailed
    · rename_i init message hhandle
      exact .inr ⟨init, message, hhandle, rfl⟩
    · cases hfailed
    · exact absurd hfailed hnot
  | setup d =>
    simp only [step, State.setup] at hfailed
    repeat' split at hfailed
    all_goals exact absurd hfailed hnot
  | clone | release =>
    simp only [step, State.clone, State.release] at hfailed
    split at hfailed
    all_goals first | exact absurd hfailed hnot | cases hfailed
  | taskWakes | sessionCloses | abandon | captureJoined | eisJoined | closedReceived | timedOut
  | send =>
    simp only [step, State.taskWakes, State.sessionCloses, State.abandon, State.captureJoined,
      State.eisJoined, State.closedReceived, State.timedOut, State.send] at hfailed
    split_ifs at hfailed
    all_goals exact absurd hfailed hnot
  | _ => exact absurd hfailed hnot

def EisRefused (format : VideoInfo) (es : List (Event D)) : Prop :=
  ∃ pre init message, pre ++ [.spawnEis (some message)] <+: es ∧
    (pre.foldl step (start format)).handle = .capturing init

theorem failed_of_refused (format : VideoInfo) {es : List (Event D)} (h : EisRefused format es) :
    (es.foldl step (start format)).capture.thread ≠ .off := by
  obtain ⟨pre, init, message, ⟨rest, rfl⟩, hhandle⟩ := h
  have hplaced := placed_run format pre
  rw [Placed, hhandle] at hplaced
  rw [List.foldl_append, Runs.run_snoc]
  have hrefused : step (pre.foldl step (start format)) (.spawnEis (some message)) =
      { pre.foldl step (start format) with handle := .failed (.portal message) } := by
    simp only [step, State.spawnEis, hhandle]
  have hstart : Placed (step (pre.foldl step (start format)) (.spawnEis (some message))) :=
    (placed_run format pre).step _
  have hleads := (failed_run hstart (slot_step (slot_run rfl pre).1 _).1
    (by rw [hrefused]) rest).2.2.1
  rw [hrefused] at hleads ⊢
  exact fun hoff => hplaced.1 (hleads.1.mpr hoff)

theorem refused_of_failed (format : VideoInfo) {es : List (Event D)}
    (hfailed : (es.foldl step (start format)).handle = .failed error)
    (hthread : (es.foldl step (start format)).capture.thread ≠ .off) : EisRefused format es := by
  induction es using List.reverseRecOn with
  | nil => cases hfailed
  | append_singleton es e ih =>
    rw [Runs.run_snoc] at hfailed hthread
    by_cases hbefore : (es.foldl step (start format)).handle = .failed error
    -- it had failed before, and a failed `new` starts no thread
    · have hleads := (failed_step (placed_run format es) hbefore e).2.2
      obtain ⟨pre, init, message, hpre, hhandle⟩ :=
        ih hbefore fun hoff => hthread (hleads.1.mp hoff)
      exact ⟨pre, init, message, hpre.trans (List.prefix_append _ _), hhandle⟩
    · rcases failing_step (placed_run format es) hbefore hfailed with
        hoff | ⟨init, message, hhandle, rfl⟩
      · exact absurd hoff hthread
      · exact ⟨es, init, message, List.prefix_refl _, hhandle⟩

def sampleRefusal : List (Event ℕ) :=
  [.setup sampleDesktop, .initReceived, .spawnCapture none, .captureSetup none,
    .spawnEis (some "Resource temporarily unavailable")]

def sampleAftermath : List (Event ℕ) :=
  [.captureQuits, .taskWakes, .sessionCloses none, .captureQuits]

end Controlis.Portal.Lifetime
