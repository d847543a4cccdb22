import Mathlib.Data.List.Count
import Controlis.Foundation.Runs
import Controlis.Viewer.Keyboard
import Controlis.Viewer.Pinning
import Controlis.Viewer.Slot

/-!
# The viewer panel and its canvas

Every call of `connectScreen` adds a set of listeners to the canvas before it asks
the backend to connect, and only `disconnect` on the handle it returns takes them
away. A call that fails returns no handle, and the panel forgets the handle of a
session that the host ended. The canvas stays for as long as the panel does, so the
listeners of such attempts stay on it and forward what the user does a second time.
-/

namespace Controlis.Viewer.Canvas
open Protocol Keyboard Runs

inductive CanvasEvent (P : Type*)
  | mouseMove (p : P)
  | mouseDown (p : P) (button : UInt8)
  | mouseUp (button : UInt8)
  | wheel (dx dy : F32)
  | keyDown (e : KeyboardEvent)
  | keyUp (e : KeyboardEvent)
  | blur
deriving DecidableEq, Repr

variable {P : Type*}

/-- `normalized`, before the first frame and after: outside the image there is no position. -/
def normalized (place : ℕ × ℕ → P → Option (F32 × F32)) (remoteSize : Option (ℕ × ℕ)) (p : P) :
    Option (F32 × F32) := remoteSize.bind fun size => place size p

def handler (place : ℕ × ℕ → P → Option (F32 × F32)) (remoteSize : Option (ℕ × ℕ)) :
    CanvasEvent P → List UiInputEvent
  | .mouseMove p => (normalized place remoteSize p).toList.map fun pos => .move pos.1 pos.2
  | .mouseDown p button =>
    ((normalized place remoteSize p).toList.map fun pos => .move pos.1 pos.2) ++
      [.button button true]
  | .mouseUp button => [.button button false]
  | .wheel dx dy => [.wheel dx dy]
  | .keyDown e => (onKeyDown e).toList
  | .keyUp e => (onKeyUp e).toList
  | .blur => onBlur

def CanvasEvent.placeless : CanvasEvent P → Bool
  | .mouseMove _ | .mouseDown _ _ => false
  | _ => true

structure MonitorUi where
  id : UInt32
  name : String
  widthPx : UInt32
  heightPx : UInt32
  isPrimary : Bool
deriving DecidableEq, Repr

structure ViewerInfo where
  monitors : List MonitorUi
  fingerprint : Option String
deriving DecidableEq, Repr

inductive ViewerUiEvent
  | resized (widthPx heightPx : UInt32)
  | monitorsUpdated (monitors : List MonitorUi)
  | disconnected (reason : String)
  | error (message : String)
deriving DecidableEq, Repr

inductive Phase
  | idle
  | connecting
  | active
  | failed (reason : String)
deriving DecidableEq, Repr

inductive Invoke
  | connectViewer (code : String) (addrOverride : Option String)
  | viewerInput (event : UiInputEvent)
  | viewerSelectMonitor (monitorId : UInt32)
  | viewerDisconnect
deriving DecidableEq, Repr

inductive Outcome
  | waiting
  | refused
  | accepted
deriving DecidableEq, Repr

structure Screen where
  disposed : Bool
  remoteSize : Option (ℕ × ℕ)
  outcome : Outcome
deriving DecidableEq, Repr

def Screen.onFrame (x : Screen) (size : ℕ × ℕ) : Screen :=
  if x.disposed then x else { x with remoteSize := some size }

/-- The handle and the event closure are those of the screens with these numbers. -/
structure Panel where
  phase : Phase
  status : String
  fingerprint : Option String
  monitors : List MonitorUi
  selectedMonitor : UInt32
  handle : Option ℕ
  eventClosure : Option ℕ
  screens : List Screen
  invoked : List Invoke
deriving DecidableEq, Repr

inductive PanelEvent (P : Type*)
  | connect (codeText addrOverride : String)
  | resolved (k : ℕ) (info : Option ViewerInfo)
  | rejected (k : ℕ) (message : String)
  | message (k : ℕ) (event : ViewerUiEvent)
  | frame (k : ℕ) (size : ℕ × ℕ)
  | canvas (event : CanvasEvent P)
  | pickMonitor (id : UInt32)
  | disconnect
deriving DecidableEq, Repr

namespace Panel

def mounted : Panel := ⟨.idle, "", none, [], 0, none, none, [], []⟩

def invoke (s : Panel) (calls : List Invoke) : Panel := { s with invoked := s.invoked ++ calls }

def screen (s : Panel) (k : ℕ) (f : Screen → Screen) : Panel :=
  { s with screens := s.screens.modify k f }

def waitsFor (s : Panel) (k : ℕ) : Bool :=
  match s.screens[k]? with
  | some x => x.outcome = .waiting
  | none => false

/-- Whether a message on the event channel of screen `k` gets to the panel: a closure lives as
long as its `connectScreen` is awaited or the panel stores it. -/
def hears (s : Panel) (k : ℕ) : Bool :=
  match s.screens[k]? with
  | some x => !x.disposed && (decide (x.outcome = .waiting) || decide (s.eventClosure = some k))
  | none => false

def connect (s : Panel) (codeText addrOverride : String) : Panel :=
  let code := trim codeText
  if code = "" then { s with phase := .failed "Digite o código de acesso." }
  else
    let manual := trim addrOverride
    -- an empty address field is as none
    let manual := if manual = "" then none else some manual
    { s.invoke [.connectViewer code manual] with
      phase := .connecting, screens := s.screens ++ [⟨false, none, .waiting⟩] }

def showInfo (s : Panel) (info : ViewerInfo) : Panel :=
  let s := match (info.monitors.find? (·.isPrimary)).or info.monitors.head? with
    | some primary =>
      { s with status := s!"{primary.widthPx}x{primary.heightPx}", selectedMonitor := primary.id }
    | none => s
  { s with monitors := info.monitors, fingerprint := info.fingerprint }

def resolved (s : Panel) (k : ℕ) (info : Option ViewerInfo) : Panel :=
  { (info.elim s s.showInfo).screen k fun x => { x with outcome := .accepted } with
    handle := some k, eventClosure := some k, phase := .active }

def rejected (s : Panel) (k : ℕ) (message : String) : Panel :=
  { s.screen k fun x => { x with outcome := .refused } with phase := .failed message }

def onMessage (s : Panel) : ViewerUiEvent → Panel
  | .resized widthPx heightPx => { s with status := s!"{widthPx}x{heightPx}" }
  | .monitorsUpdated monitors => { s with monitors := monitors }
  -- the handle is forgotten without `dispose`, so its listeners stay
  | .disconnected reason => { s with handle := none, phase := .failed s!"Desconectado: {reason}" }
  | .error message => { s with status := s!"Erro: {message}" }

def dispose (s : Panel) (k : ℕ) : Panel := s.screen k fun x => { x with disposed := true }

def disconnect (s : Panel) : Panel :=
  match s.handle with
  | none => s
  | some k => { (s.dispose k).invoke [.viewerDisconnect] with handle := none }

def forwards (place : ℕ × ℕ → P → Option (F32 × F32)) (s : Panel) (e : CanvasEvent P) :
    List UiInputEvent :=
  (s.screens.filter (!·.disposed)).flatMap fun x => handler place x.remoteSize e

def pickMonitor (s : Panel) (id : UInt32) : Panel :=
  { s.invoke (if s.handle.isSome then [.viewerSelectMonitor id] else []) with
    selectedMonitor := id }

def step (place : ℕ × ℕ → P → Option (F32 × F32)) (s : Panel) : PanelEvent P → Panel
  | .connect codeText addrOverride => s.connect codeText addrOverride
  | .resolved k info => if s.waitsFor k then s.resolved k info else s
  | .rejected k message => if s.waitsFor k then s.rejected k message else s
  | .message k event => if s.hears k then s.onMessage event else s
  | .frame k size => s.screen k (·.onFrame size)
  | .canvas event => s.invoke ((s.forwards place event).map .viewerInput)
  | .pickMonitor id => s.pickMonitor id
  | .disconnect => { s.disconnect with phase := .failed "Você encerrou a sessão" }

def listening (s : Panel) : ℕ := s.screens.countP (!·.disposed)

def waiting (s : Panel) : ℕ := s.screens.countP (·.outcome = .waiting)

/-- Screens the step leaves on the canvas with no handle to take them off again: an attempt that
fails, a session the host ends, and one that a later attempt takes the handle from. -/
def strands (s : Panel) : PanelEvent P → ℕ
  | .resolved k _ => if s.waitsFor k then s.handle.toList.length else 0
  | .rejected k _ => if s.waitsFor k then 1 else 0
  | .message k (.disconnected _) => if s.hears k then s.handle.toList.length else 0
  | _ => 0

def stranded (place : ℕ × ℕ → P → Option (F32 × F32)) : Panel → List (PanelEvent P) → ℕ
  | _, [] => 0
  | s, e :: es => s.strands e + (s.step place e).stranded place es

end Panel

open Panel

variable {place : ℕ × ℕ → P → Option (F32 × F32)} {s : Panel} {x : Screen} {k : ℕ}
variable {f : Screen → Screen} {p : Screen → Bool}

theorem waitsFor_iff : s.waitsFor k = true ↔
    ∃ x, s.screens[k]? = some x ∧ x.outcome = .waiting := by
  unfold waitsFor
  cases s.screens[k]? with
  | none => simp
  | some x => simp

theorem countP_modify (xs : List Screen) (hx : xs[k]? = some x) :
    (xs.modify k f).countP p + (if p x then 1 else 0) =
      xs.countP p + (if p (f x) then 1 else 0) := by
  induction xs generalizing k with
  | nil => simp at hx
  | cons y ys ih =>
    cases k with
    | zero =>
      obtain rfl : y = x := by simpa using hx
      simp only [List.modify_zero_cons, List.countP_cons]
      omega
    | succ k =>
      have hrest := ih (k := k) (by simpa using hx)
      simp only [List.modify_succ_cons, List.countP_cons]
      omega

theorem countP_modify_same (xs : List Screen) (h : ∀ x, p (f x) = p x) :
    (xs.modify k f).countP p = xs.countP p := by
  cases hx : xs[k]? with
  | none => rw [List.modify_eq_self (by simpa using hx)]
  | some x =>
    have hcount := countP_modify (f := f) (p := p) xs hx
    rw [h x] at hcount
    omega

theorem modify_some {xs : List Screen} {j : ℕ} {y : Screen} (h : (xs.modify k f)[j]? = some y) :
    ∃ x, xs[j]? = some x ∧ y = if k = j then f x else x := by
  rw [List.getElem?_modify] at h
  obtain ⟨x, hx, rfl⟩ := Option.map_eq_some_iff.mp h
  exact ⟨x, hx, rfl⟩

/-- Every screen on the canvas waits, has its handle kept, or was stranded. -/
structure Inv (lost : ℕ) (s : Panel) : Prop where
  listening : s.listening = s.waiting + s.handle.toList.length + lost
  waits : ∀ x : Screen, x ∈ s.screens → x.outcome = .waiting → x.disposed = false
  handled : ∀ k, s.handle = some k →
    ∃ x, s.screens[k]? = some x ∧ x.disposed = false ∧ x.outcome = .accepted
  active : s.phase = .active → s.handle.isSome

theorem inv_mounted : Inv 0 mounted := by
  refine ⟨rfl, ?_, ?_, ?_⟩
  · intro x hx
    cases hx
  · intro k hk
    cases hk
  · intro hactive
    cases hactive

variable {lost : ℕ} {s' : Panel}

theorem Inv.congr (h : Inv lost s) (hscreens : s'.screens = s.screens)
    (hhandle : s'.handle = s.handle) (hactive : s'.phase = .active → s.phase = .active) :
    Inv lost s' where
  listening := by
    simp only [Panel.listening, Panel.waiting, hscreens, hhandle]
    exact h.listening
  waits := hscreens ▸ h.waits
  handled := by
    rw [hscreens, hhandle]
    exact h.handled
  active hphase := by
    rw [hhandle]
    exact h.active (hactive hphase)

theorem Inv.connect (h : Inv lost s) (codeText addrOverride : String) :
    Inv lost (s.connect codeText addrOverride) := by
  unfold Panel.connect
  by_cases hcode : trim codeText = ""
  · rw [if_pos hcode]
    exact h.congr rfl rfl fun hactive => by cases hactive
  · rw [if_neg hcode]
    refine ⟨?_, ?_, ?_, ?_⟩
    · have hbefore := h.listening
      simp only [Panel.listening, Panel.waiting, Panel.invoke, List.countP_append] at hbefore ⊢
      simp only [List.countP_singleton, Bool.not_false, if_true, decide_true]
      omega
    · intro x hx hwaiting
      rcases List.mem_append.mp hx with hold | hnew
      · exact h.waits x hold hwaiting
      · rw [List.mem_singleton.mp hnew]
    · intro k hk
      obtain ⟨x, hx, hdisposed, haccepted⟩ := h.handled k hk
      refine ⟨x, ?_, hdisposed, haccepted⟩
      rw [List.getElem?_append_left (List.getElem?_eq_some_iff.mp hx).1]
      exact hx
    · intro hactive
      cases hactive

theorem Inv.waits_modify (h : Inv lost s)
    (hf : ∀ x, s.screens[k]? = some x → (f x).outcome = .waiting → (f x).disposed = false) :
    ∀ x : Screen, x ∈ s.screens.modify k f → x.outcome = .waiting → x.disposed = false := by
  intro y hy hwaiting
  obtain ⟨j, hj⟩ := List.mem_iff_getElem?.mp hy
  obtain ⟨x, hx, rfl⟩ := modify_some hj
  split_ifs at hwaiting ⊢ with hkj
  · exact hf x (hkj ▸ hx) hwaiting
  · exact h.waits x (List.mem_of_getElem? hx) hwaiting

theorem shown_keeps (s : Panel) (info : Option ViewerInfo) :
    (info.elim s s.showInfo).screens = s.screens ∧ (info.elim s s.showInfo).handle = s.handle ∧
      (info.elim s s.showInfo).phase = s.phase := by
  cases info with
  | none => exact ⟨rfl, rfl, rfl⟩
  | some info =>
    simp only [Option.elim_some, Panel.showInfo]
    split <;> exact ⟨rfl, rfl, rfl⟩

theorem Inv.shown (h : Inv lost s) (info : Option ViewerInfo) :
    Inv lost (info.elim s s.showInfo) :=
  h.congr (shown_keeps s info).1 (shown_keeps s info).2.1 fun hactive =>
    (shown_keeps s info).2.2.symm.trans hactive

theorem ended_counts (hwaits : s.waitsFor k = true) {o : Outcome}
    (ho : o ≠ .waiting) :
    (s.screen k fun x => { x with outcome := o }).listening = s.listening ∧
      (s.screen k fun x => { x with outcome := o }).waiting + 1 = s.waiting := by
  obtain ⟨x, hx, hwaiting⟩ := waitsFor_iff.mp hwaits
  constructor
  · exact countP_modify_same _ fun _ => rfl
  · have hcount := countP_modify (f := fun x => { x with outcome := o })
      (p := fun x => decide (x.outcome = .waiting)) _ hx
    simp only [hwaiting, ho, decide_true, decide_false, if_true, Bool.false_eq_true, if_false]
      at hcount
    exact hcount

theorem Inv.resolved (h : Inv lost s) (hwaits : s.waitsFor k = true) (info : Option ViewerInfo) :
    Inv (lost + s.handle.toList.length) (s.resolved k info) := by
  have hs := h.shown info
  have hwaits' : (info.elim s s.showInfo).waitsFor k = true := by
    rw [waitsFor_iff, (shown_keeps s info).1]
    exact waitsFor_iff.mp hwaits
  obtain ⟨hlistening, hwaiting⟩ := ended_counts hwaits' (o := .accepted) (by decide)
  obtain ⟨x, hx, hxwaiting⟩ := waitsFor_iff.mp hwaits'
  refine ⟨?_, ?_, ?_, ?_⟩
  · have hbefore := hs.listening
    rw [(shown_keeps s info).2.1] at hbefore
    -- the screen no longer waits, its handle is new, and the one it replaces is stranded
    change (Panel.screen _ k _).listening =
      (Panel.screen _ k _).waiting + 1 + (lost + s.handle.toList.length)
    omega
  · exact hs.waits_modify fun y _ hy => by cases hy
  · intro j hj
    obtain rfl : k = j := Option.some_injective _ hj
    refine ⟨{ x with outcome := .accepted }, ?_, ?_, rfl⟩
    · change (List.modify _ k _)[k]? = _
      rw [List.getElem?_modify_eq, hx]
      rfl
    · exact hs.waits x (List.mem_of_getElem? hx) hxwaiting
  · intro _
    rfl

theorem Inv.rejected (h : Inv lost s) (hwaits : s.waitsFor k = true) (message : String) :
    Inv (lost + 1) (s.rejected k message) := by
  obtain ⟨hlistening, hwaiting⟩ := ended_counts hwaits (o := .refused) (by decide)
  obtain ⟨x, hx, hxwaiting⟩ := waitsFor_iff.mp hwaits
  refine ⟨?_, ?_, ?_, ?_⟩
  · have hbefore := h.listening
    change (s.screen k _).listening = (s.screen k _).waiting + s.handle.toList.length + (lost + 1)
    omega
  · exact h.waits_modify fun y _ hy => by cases hy
  · intro j hj
    obtain ⟨y, hy, hdisposed, haccepted⟩ := h.handled j hj
    refine ⟨y, ?_, hdisposed, haccepted⟩
    -- the refused screen was waiting, so it is not the one with the handle
    have hkj : k ≠ j := by
      rintro rfl
      cases hx.symm.trans hy
      rw [hxwaiting] at haccepted
      cases haccepted
    exact (List.getElem?_modify_ne _ _ hkj).trans hy
  · intro hactive
    cases hactive

@[simp] theorem disposed_onFrame (x : Screen) (size : ℕ × ℕ) :
    (x.onFrame size).disposed = x.disposed := by
  unfold Screen.onFrame
  split <;> rfl

@[simp] theorem outcome_onFrame (x : Screen) (size : ℕ × ℕ) :
    (x.onFrame size).outcome = x.outcome := by
  unfold Screen.onFrame
  split <;> rfl

theorem Inv.frame (h : Inv lost s) (k : ℕ) (size : ℕ × ℕ) :
    Inv lost (s.screen k (·.onFrame size)) := by
  refine ⟨?_, ?_, ?_, h.active⟩
  · have hlistening := countP_modify_same (k := k) (f := (·.onFrame size))
      (p := fun x => !x.disposed) s.screens (by simp)
    have hwaiting := countP_modify_same (k := k) (f := (·.onFrame size))
      (p := fun x => decide (x.outcome = .waiting)) s.screens (by simp)
    have hbefore := h.listening
    simp only [Panel.listening, Panel.waiting, Panel.screen] at hbefore ⊢
    rw [hlistening, hwaiting]
    exact hbefore
  · refine h.waits_modify fun x hx hwaiting => ?_
    rw [outcome_onFrame] at hwaiting
    rw [disposed_onFrame]
    exact h.waits x (List.mem_of_getElem? hx) hwaiting
  · intro j hj
    obtain ⟨x, hx, hlive, haccepted⟩ := h.handled j hj
    refine ⟨if k = j then x.onFrame size else x, ?_, ?_, ?_⟩
    · simp only [Panel.screen, List.getElem?_modify, hx]
      rfl
    · split <;> simp [hlive]
    · split <;> simp [haccepted]

theorem Inv.unhandled (h : Inv lost s) (hhandle : s'.handle = none)
    (hscreens : s'.screens = s.screens) (hphase : s'.phase ≠ .active) :
    Inv (lost + s.handle.toList.length) s' where
  listening := by
    have hbefore := h.listening
    simp only [Panel.listening, Panel.waiting, hscreens, hhandle] at hbefore ⊢
    simp only [Option.toList_none, List.length_nil]
    omega
  waits := hscreens ▸ h.waits
  handled k hk := by
    rw [hhandle] at hk
    cases hk
  active hactive := absurd hactive hphase

theorem Inv.message (h : Inv lost s) (hears : s.hears k = true) (event : ViewerUiEvent) :
    Inv (lost + s.strands (.message k event : PanelEvent P)) (s.onMessage event) := by
  cases event with
  | disconnected reason =>
    simp only [strands, hears, if_true]
    exact h.unhandled rfl rfl fun hactive => by cases hactive
  | _ => exact h.congr rfl rfl id

theorem Inv.disconnect (h : Inv lost s) :
    Inv lost { s.disconnect with phase := .failed "Você encerrou a sessão" } := by
  unfold Panel.disconnect
  cases hk : s.handle with
  -- without a handle there is nothing to dispose, whatever is on the canvas
  | none => exact h.congr rfl rfl fun hactive => by cases hactive
  | some k =>
    obtain ⟨x, hx, hdisposed, haccepted⟩ := h.handled k hk
    have hlistening := countP_modify (f := fun x => { x with disposed := true })
      (p := fun x => !x.disposed) _ hx
    have hwaiting := countP_modify_same (k := k) (f := fun x => { x with disposed := true })
      (p := fun x => decide (x.outcome = .waiting)) s.screens fun _ => rfl
    refine ⟨?_, ?_, ?_, ?_⟩
    · have hbefore := h.listening
      simp only [hdisposed, hk] at hlistening hbefore
      simp only [Panel.listening, Panel.waiting, Panel.dispose, Panel.screen, Panel.invoke]
        at hbefore ⊢
      simp at hlistening hbefore ⊢
      omega
    · refine h.waits_modify fun y hy hywaiting => ?_
      cases hx.symm.trans hy
      rw [haccepted] at hywaiting
      cases hywaiting
    · intro j hj
      cases hj
    · intro hactive
      cases hactive

theorem Inv.step (h : Inv lost s) (e : PanelEvent P) :
    Inv (lost + s.strands e) (s.step place e) := by
  cases e with
  | connect codeText addrOverride => exact h.connect codeText addrOverride
  | resolved k info =>
    simp only [Panel.step, strands]
    split
    · rename_i hwaits
      exact h.resolved hwaits info
    · exact h
  | rejected k message =>
    simp only [Panel.step, strands]
    split
    · rename_i hwaits
      exact h.rejected hwaits message
    · exact h
  | message k event =>
    simp only [Panel.step]
    split
    · rename_i hears
      exact h.message hears event
    · rename_i hears
      cases event with
      | disconnected reason =>
        simp only [strands, hears]
        exact h
      | _ => exact h
  | frame k size => exact h.frame k size
  | canvas event => exact h.congr rfl rfl id
  | pickMonitor id => exact h.congr rfl rfl fun hactive => hactive
  | disconnect => exact h.disconnect

theorem Inv.run (h : Inv lost s) (es : List (PanelEvent P)) :
    Inv (lost + s.stranded place es) (es.foldl (Panel.step place) s) := by
  induction es generalizing s lost with
  | nil => exact h
  | cons e es ih =>
    have hstep : Inv (lost + s.strands e) (s.step place e) := h.step e
    have hrest := ih hstep
    rw [Nat.add_assoc] at hrest
    exact hrest

theorem forwards_placeless (s : Panel) {e : CanvasEvent P} (he : e.placeless = true) :
    s.forwards place e = (List.replicate s.listening (handler place none e)).flatten := by
  have hsame : ∀ x : Screen, handler place x.remoteSize e = handler place none e := by
    intro x
    cases e with
    | mouseMove p => cases he
    | mouseDown p button => cases he
    | _ => rfl
  simp only [Panel.forwards, hsame, Panel.listening, List.countP_eq_length_filter]
  rw [List.flatMap_def, List.map_const']

theorem queued_viewerInput {app : Slot.App} {x : Slot.Session} (events : List UiInputEvent)
    (hslot : app.slot = some k) (hx : app.sessions[k]? = some x) (hinput : x.inputTask = true) :
    ((events.map Slot.AppEvent.viewerInput).foldl Slot.App.step app).sessions[k]? =
      some { x with queued := x.queued ++ events.filterMap toControlMessage } := by
  induction events generalizing app x with
  | nil => simpa using hx
  | cons e events ih =>
    rw [List.map_cons, List.foldl_cons]
    cases hm : toControlMessage e with
    | none =>
      have hstep : app.step (.viewerInput e) = app := by simp only [Slot.App.step, hm]
      rw [hstep, List.filterMap_cons_none hm]
      exact ih hslot hx hinput
    | some m =>
      have hstep : app.step (.viewerInput e) =
          { app with sessions := app.sessions.modify k (·.sendInput m) } := by
        simp only [Slot.App.step, hm, Slot.App.sendInput, hslot]
      have hsent : (app.step (.viewerInput e)).sessions[k]? =
          some { x with queued := x.queued ++ [m] } := by
        rw [hstep, List.getElem?_modify_eq, hx]
        simp [Slot.Session.sendInput, hinput]
      have hslot' : (app.step (.viewerInput e)).slot = some k := by
        rw [hstep]
        exact hslot
      rw [ih hslot' hsent hinput, List.filterMap_cons_some hm]
      simp

/-- What the user types, scrolls or lets go of on the canvas is queued for the host once for the
attempt whose handle the panel holds, once for each that is pending, and once more for each since
the panel was mounted that failed, was ended by the host or was overtaken. -/
theorem canvas_event_queued_for_each_screen (place : ℕ × ℕ → P → Option (F32 × F32))
    (es : List (PanelEvent P)) (e : CanvasEvent P) (he : e.placeless = true) (app : Slot.App)
    (k : ℕ) (x : Slot.Session) (hslot : app.slot = some k) (hx : app.sessions[k]? = some x)
    (hinput : x.inputTask = true) :
    let s := es.foldl (Panel.step place) mounted
    let copies := s.handle.toList.length + s.waiting + mounted.stranded place es
    (s.phase = .active → s.handle.isSome) ∧
    (s.step place (.canvas e)).invoked = s.invoked ++ (s.forwards place e).map .viewerInput ∧
    (((s.forwards place e).map Slot.AppEvent.viewerInput).foldl Slot.App.step app).sessions[k]? =
      some { x with queued := x.queued ++
        (List.replicate copies ((handler place none e).filterMap toControlMessage)).flatten } := by
  intro s copies
  have hinv : Inv (mounted.stranded place es) s := by
    rw [← Nat.zero_add (mounted.stranded place es)]
    exact inv_mounted.run es
  have hcopies : s.listening = copies := by
    have hlistening := hinv.listening
    omega
  refine ⟨hinv.active, rfl, ?_⟩
  rw [queued_viewerInput _ hslot hx hinput, forwards_placeless s he, hcopies,
    List.filterMap_flatten, List.map_replicate]

/-- The first code was mistyped; the letter then typed in the session is queued twice. -/
theorem canvas_event_queued_for_each_screen_mistyped :
    (([UiInputEvent.text "a", .text "a"].map Slot.AppEvent.viewerInput).foldl Slot.App.step
        ⟨[.start], some 0, 0⟩).sessions[0]? =
      some { Slot.Session.start with queued := [.text "a", .text "a"] } := by
  have h := canvas_event_queued_for_each_screen (P := ℕ) (fun _ _ => none)
    [.connect "code1" "", .rejected 0 "wrong code", .connect "code2" "", .resolved 1 none]
    (.keyDown ⟨"a", false, false, false⟩) rfl ⟨[.start], some 0, 0⟩ 0 .start rfl rfl rfl
  exact h.2.2

end Controlis.Viewer.Canvas
