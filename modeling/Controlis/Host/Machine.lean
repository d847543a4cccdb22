import Controlis.Codec.Frame
import Controlis.Host.Phase

/-!
# The host task and everything around it

The world of the host task: the command queue and the event channel it shares
with the UI, the connections, and the three helpers of every session, which are
the capture thread, the media task and the injection thread. The host task, the
UI and the helpers take their steps in any order, and the log keeps what they
did. What viewers, clock, network, screen and input devices answer is arbitrary.
-/

namespace Controlis.Host
open Protocol Security Session Interaction

/-- Where the capture loop is: before its stop check, before its reservation on
the channel, and holding a permit for the monitor it is to capture. -/
inductive CaptureThread
  | waiting
  | running (monitorId : UInt32)
  | reserved (monitorId : UInt32)
  | done
deriving DecidableEq, Repr

inductive MediaTask
  | waiting
  | sending (frame : Codec.ScreenFrame)
  | done
deriving DecidableEq, Repr

inductive InjectionThread
  | creating
  | running
  | reporting (message : String) (alive : Bool)
  | done
deriving DecidableEq, Repr

structure Helpers where
  connection : Connection
  activeId : UInt32
  stop : Bool
  capture : CaptureThread
  channel : Option Codec.ScreenFrame
  media : MediaTask
  inputs : List InputAction
  senderOpen : Bool
  injection : InjectionThread

def Helpers.start (c : Connection) (activeId : UInt32) : Helpers :=
  ⟨c, activeId, false, .waiting, none, .waiting, [], true, .creating⟩

inductive HelperEvent
  | captured (monitorId : UInt32)
  | media (frame : Codec.ScreenFrame) (sent : Bool)
  | injector (result : Except String Unit)
  | performed (action : InputAction) (result : Except String Unit)
  | released (result : Except String Unit)
  | reported (event : HostEvent)

def Helpers.stepCapture (h : Helpers) (outcome : Except String (Option Codec.ScreenFrame)) :
    Helpers × Option HelperEvent :=
  match h.capture with
  | .waiting =>
    if h.stop then ({ h with capture := .done }, none)
    else ({ h with capture := .running h.activeId }, none)
  | .running monitorId =>
    if h.media = .done then ({ h with capture := .done }, none)
    else if h.channel.isSome then ({ h with capture := .waiting }, none)
    else ({ h with capture := .reserved monitorId }, none)
  | .reserved monitorId =>
    match outcome with
    | .ok frame => ({ h with capture := .waiting, channel := frame }, some (.captured monitorId))
    | .error _ => ({ h with capture := .done }, some (.captured monitorId))
  | .done => (h, none)

/-- A closed connection takes no more media; the first failed send ends the task. -/
def Helpers.stepMedia (h : Helpers) (closed sent : Bool) : Helpers × Option HelperEvent :=
  match h.media with
  | .waiting =>
    match h.channel with
    | some frame => ({ h with channel := none, media := .sending frame }, none)
    | none => (if h.capture = .done then { h with media := .done } else h, none)
  | .sending frame =>
    let sent := sent && !closed
    ({ h with media := if sent then .waiting else .done }, some (.media frame sent))
  | .done => (h, none)

/-- The injector is created on the thread. With the channel closed and drained it
releases everything; a thread that is done has dropped its end of the channel. -/
def Helpers.stepInject (h : Helpers) (result : Except String Unit) : Helpers × Option HelperEvent :=
  match h.injection with
  | .creating =>
    let next := match result with
      | .ok () => .running
      | .error e => .reporting s!"input unavailable: {e}" false
    ({ h with injection := next }, some (.injector result))
  | .running =>
    match h.inputs with
    | action :: inputs =>
      let next := match result with
        | .ok () => .running
        | .error e => .reporting s!"input error: {e}" true
      ({ h with inputs := inputs, injection := next }, some (.performed action result))
    | [] =>
      if h.senderOpen then (h, none)
      else ({ h with injection := .done }, some (.released result))
  | .reporting message true => ({ h with injection := .running }, some (.reported (.error message)))
  | .reporting message false =>
    ({ h with injection := .done, inputs := [] }, some (.reported (.error message)))
  | .done => (h, none)

inductive Entry
  | host (e : Effect) (answer : e.Answer)
  | issued (command : HostCommand)
  | sendersDropped
  | receiverDropped
  | helper (session : ℕ) (c : Connection) (event : HelperEvent)
  | refreshed (task : ℕ)

structure World where
  log : List Entry
  commands : List HostCommand
  sendersAlive : Bool
  receiverAlive : Bool
  clock : ℕ
  accepted : ℕ
  closed : List Connection
  sessions : List Helpers
  refreshing : List Bool

def World.start : World := ⟨[], [], true, true, 0, 0, [], [], []⟩

def World.record (w : World) (x : Entry) : World := { w with log := w.log ++ [x] }

def World.take (w : World) (answer : Option HostCommand) : Option World :=
  match w.commands with
  | command :: commands =>
    if answer = some command then some { w with commands := commands } else none
  | [] => if answer = none ∧ w.sendersAlive = false then some w else none

def World.update (w : World) (session : ℕ) (f : Helpers → Helpers) : World :=
  { w with sessions := w.sessions.modify session f }

/-- The answers the world leaves open are the viewer's, the network's, the clock's and the
devices'. -/
def World.settle (w : World) : (e : Effect) → e.Answer → Option World
  | .emit _, heard => if heard = w.receiverAlive then some w else none
  | .accept _, some (.ok c) =>
    if c.id = w.accepted then some { w with accepted := w.accepted + 1 } else none
  | .close c _, _ => some { w with closed := c :: w.closed }
  | .now, t => if w.clock ≤ t then some { w with clock := t } else none
  | .takeCommand _, answer => w.take answer
  | .select _, .command answer => w.take answer
  | .spawn c _ activeId, session =>
    if session = w.sessions.length then
      some { w with sessions := w.sessions ++ [.start c activeId] }
    else none
  | .forward session action, sent =>
    match w.sessions[session]? with
    | none => none
    | some h =>
      if h.injection = .done then if sent then none else some w
      else if sent then
        some (w.update session fun h => { h with inputs := h.inputs ++ [action] })
      else none
  | .storeActive session activeId, _ =>
    some (w.update session fun h => { h with activeId := activeId })
  | .stopCapture session, _ => some (w.update session fun h => { h with stop := true })
  | .dropInput session, _ => some (w.update session fun h => { h with senderOpen := false })
  | .joinCapture session, _ =>
    if (w.sessions[session]?.map (·.capture)) = some .done then some w else none
  | .awaitMedia session, _ =>
    if (w.sessions[session]?.map (·.media)) = some .done then some w else none
  | .spawnRefresh _ _ _ _, task =>
    if task = w.refreshing.length then some { w with refreshing := w.refreshing ++ [true] }
    else none
  | .abortRefresh task, _ => some { w with refreshing := w.refreshing.set task false }
  | _, _ => some w

def World.respond (w : World) (e : Effect) (a : e.Answer) : Option World :=
  (w.settle e a).map (·.record (.host e a))

inductive Drift
  | issue (command : HostCommand)
  | dropSenders
  | dropReceiver
  | capture (session : ℕ) (outcome : Except String (Option Codec.ScreenFrame))
  | media (session : ℕ) (sent : Bool)
  | inject (session : ℕ) (result : Except String Unit)
  | refresh (task : ℕ)

def World.help (w : World) (session : ℕ) (f : Helpers → Helpers × Option HelperEvent) : World :=
  match w.sessions[session]? with
  | none => w
  | some h =>
    { w with
      sessions := w.sessions.set session (f h).1
      log := w.log ++ (f h).2.toList.map (.helper session h.connection) }

def World.drift (w : World) : Drift → World
  | .issue command =>
    if w.sendersAlive then { w with commands := w.commands ++ [command] }.record (.issued command)
    else w
  | .dropSenders =>
    if w.sendersAlive then { w with sendersAlive := false }.record .sendersDropped else w
  | .dropReceiver =>
    if w.receiverAlive then { w with receiverAlive := false }.record .receiverDropped else w
  | .capture session outcome => w.help session (·.stepCapture outcome)
  | .media session sent => w.help session fun h => h.stepMedia (h.connection ∈ w.closed) sent
  | .inject session result => w.help session (·.stepInject result)
  | .refresh task => if w.refreshing[task]? = some true then w.record (.refreshed task) else w

def machine : Machine Effect Effect.Answer World Drift := ⟨World.respond, World.drift⟩

abbrev HostTick := Tick Effect Effect.Answer Drift

def runHost (h264 : Bool) (config : HostConfig) (port : UInt16) (ticks : List HostTick) : World :=
  (machine.run ⟨start h264 config port, .start⟩ ticks).world

structure Script where
  connection : Connection
  message : Option ControlMessage
  selected : Selected
  command : Option HostCommand
  session : ℕ

def sampleMonitor : MonitorInfo := ⟨0, "main", 0, 0, 1920, 1080, true⟩

def Script.answer (s : Script) : (e : Effect) → e.Answer
  | .bindIroh _ _ => .error "offline"
  | .sessionId => 0
  | .drawSecret _ => 0
  | .descriptor => ⟨"", none, []⟩
  | .register _ _ => .error "offline"
  | .spawnRefresh _ _ _ _ => 0
  | .unregister _ _ => .error "offline"
  | .emit _ => true
  | .accept _ => some (.ok s.connection)
  | .acceptControl _ => .ok ()
  | .recvTimeout _ => s.message
  | .send _ _ => true
  | .now => 0
  | .unixNanos => 0
  | .takeCommand _ => s.command
  | .newH264Encoder _ => .ok ()
  | .createCapturer _ => .ok ()
  | .listMonitors _ => .ok [sampleMonitor]
  | .spawn _ _ _ => s.session
  | .select _ => s.selected
  | .forward _ _ => true
  | .abortRefresh _ => ()
  | .close _ _ => ()
  | .checked _ _ _ => ()
  | .compared _ _ _ _ => ()
  | .storeActive _ _ => ()
  | .stopCapture _ => ()
  | .dropInput _ => ()
  | .joinCapture _ => ()
  | .awaitMedia _ => ()

def Script.ticks (s : Script) (n : ℕ) : List HostTick := List.replicate n (.host s.answer)

def sampleConfig (manual : Bool) : HostConfig := ⟨manual, .jpegTiles, 20, some 0, none⟩

def sampleViewer (n : ℕ) (message : ControlMessage) : Script :=
  ⟨⟨n, .quinn (.v4 1) "10.0.0.1:5000" none⟩, some message, .message none, some .approve, n⟩

def sampleHello : ControlMessage := .hello ⟨protocolVersion, "1.0", .viewer, [.jpegTiles]⟩

def sampleRequest : ControlMessage := .authRequest "0000-0000-0000-0000"

def Entry.issuedCommand : Entry → Option HostCommand
  | .issued command => some command
  | _ => none

def Entry.takenCommand : Entry → Option HostCommand
  | .host (.takeCommand _) answer => answer
  | .host (.select _) (.command answer) => answer
  | _ => none

def Entry.newVisitor : Entry → Option Connection
  | .host (.accept _) (some (.ok c)) => some c
  | _ => none

def Entry.newSession : Entry → Option Connection
  | .host (.spawn c _ _) _ => some c
  | _ => none

def Entry.forwardedTo (session : ℕ) : Entry → Option InputAction
  | .host (.forward s action) true => if s = session then some action else none
  | _ => none

def issued (log : List Entry) : List HostCommand := log.filterMap Entry.issuedCommand
def taken (log : List Entry) : List HostCommand := log.filterMap Entry.takenCommand

def queued (log : List Entry) : List HostCommand := (issued log).drop (taken log).length

def visitor (log : List Entry) : Option Connection := (log.filterMap Entry.newVisitor).getLast?

@[simp] theorem issued_append (xs ys : List Entry) : issued (xs ++ ys) = issued xs ++ issued ys :=
  List.filterMap_append ..

@[simp] theorem taken_append (xs ys : List Entry) : taken (xs ++ ys) = taken xs ++ taken ys :=
  List.filterMap_append ..

@[simp] theorem issued_nil : issued [] = [] := rfl
@[simp] theorem taken_nil : taken [] = [] := rfl

@[simp] theorem issued_cons (x : Entry) (xs : List Entry) :
    issued (x :: xs) = x.issuedCommand.toList ++ issued xs := by
  rw [issued, List.filterMap_cons]
  cases x.issuedCommand <;> rfl

@[simp] theorem taken_cons (x : Entry) (xs : List Entry) :
    taken (x :: xs) = x.takenCommand.toList ++ taken xs := by
  rw [taken, List.filterMap_cons]
  cases x.takenCommand <;> rfl

theorem visitor_append {xs ys : List Entry} (h : ∀ y ∈ ys, y.newVisitor = none) :
    visitor (xs ++ ys) = visitor xs := by
  have hnone : ys.filterMap Entry.newVisitor = [] := List.filterMap_eq_nil_iff.mpr h
  rw [visitor, List.filterMap_append, hnone, List.append_nil, visitor]

theorem visitor_snoc {xs : List Entry} {x : Entry} {c : Connection} (h : x.newVisitor = some c) :
    visitor (xs ++ [x]) = some c := by
  simp [visitor, List.filterMap_append, h]

def Continues (w : World) (x : Entry) (session : ℕ) (h' : Helpers) : Prop :=
  (∃ h, w.sessions[session]? = some h ∧ h'.injection = h.injection ∧
    h'.inputs = h.inputs ++ (x.forwardedTo session).toList ∧
    (h.injection = .done → x.forwardedTo session = none)) ∨
  session = w.sessions.length ∧ x.forwardedTo session = none ∧
    ∃ c activeId, h' = .start c activeId

/-- What a settled effect does to the parts of the world that the invariants read. -/
structure Settled (w w' : World) (e : Effect) (a : e.Answer) : Prop where
  log : w'.log = w.log
  commands : w.commands = (Entry.host e a).takenCommand.toList ++ w'.commands
  senders : w'.sendersAlive = w.sendersAlive
  receiver : w'.receiverAlive = w.receiverAlive
  closed : w.closed ⊆ w'.closed
  sessions : w'.sessions.map (·.connection) =
    w.sessions.map (·.connection) ++ (Entry.host e a).newSession.toList
  threads : ∀ session h', w'.sessions[session]? = some h' →
    Continues w (.host e a) session h'
  bound : ∀ session, w.sessions.length ≤ session → (Entry.host e a).forwardedTo session = none

theorem take_some {w w' : World} {answer : Option HostCommand} (h : w.take answer = some w') :
    w' = { w with commands := w'.commands } ∧ w.commands = answer.toList ++ w'.commands := by
  unfold World.take at h
  cases hc : w.commands with
  | nil =>
    rw [hc] at h
    dsimp only at h
    split_ifs at h with hanswer
    cases h
    exact ⟨rfl, by simp [hanswer.1, hc]⟩
  | cons command commands =>
    rw [hc] at h
    dsimp only at h
    split_ifs at h with hanswer
    cases h
    exact ⟨rfl, by simp [hanswer]⟩

theorem modify_connections {sessions : List Helpers} {session : ℕ} {f : Helpers → Helpers}
    (hf : ∀ h, (f h).connection = h.connection) :
    (sessions.modify session f).map (·.connection) = sessions.map (·.connection) := by
  apply List.ext_getElem?
  intro i
  rw [List.getElem?_map, List.getElem?_map, List.getElem?_modify]
  split_ifs with hi
  · cases sessions[i]? with
    | none => rfl
    | some h => simp [hf]
  · simp

theorem continues_same {w : World} {x : Entry} (hx : ∀ s, x.forwardedTo s = none) {session : ℕ}
    {h : Helpers} (hget : w.sessions[session]? = some h) : Continues w x session h :=
  .inl ⟨h, hget, rfl, by simp [hx], fun _ => hx session⟩

theorem continues_modify {w : World} {x : Entry} {session : ℕ} {f : Helpers → Helpers}
    (hf : ∀ h, (f h).injection = h.injection ∧ (f h).inputs = h.inputs)
    (hx : ∀ s, x.forwardedTo s = none) {s : ℕ} {h' : Helpers}
    (hget : (w.sessions.modify session f)[s]? = some h') : Continues w x s h' := by
  rw [List.getElem?_modify] at hget
  cases hs : w.sessions[s]? with
  | none => simp [hs] at hget
  | some h =>
    rw [hs] at hget
    split_ifs at hget
    · obtain rfl : f h = h' := by simpa using hget
      exact .inl ⟨h, hs, (hf h).1, by simp [hx, (hf h).2], fun _ => hx s⟩
    · obtain rfl : h = h' := by simpa using hget
      exact continues_same hx hs

theorem settle_forward {w w' : World} {session : ℕ} {action : InputAction} {sent : Bool}
    (h : w.settle (.forward session action) sent = some w') :
    Settled w w' (.forward session action) sent := by
  simp only [World.settle] at h
  cases hget : w.sessions[session]? with
  | none =>
    rw [hget] at h
    cases h
  | some g =>
    rw [hget] at h
    dsimp only at h
    have hbound (s : ℕ) (hs : w.sessions.length ≤ s) :
        (Entry.host (.forward session action) sent).forwardedTo s = none := by
      have hne : session ≠ s := by
        rintro rfl
        rw [List.getElem?_eq_none hs] at hget
        cases hget
      cases sent with
      | false => rfl
      | true => simp [Entry.forwardedTo, hne]
    split_ifs at h with hdone hsent hsent
    · cases h
      obtain rfl : sent = false := by simpa using hsent
      exact ⟨rfl, rfl, rfl, rfl, List.Subset.refl _, by simp [Entry.newSession],
        fun _ _ hget => continues_same (fun _ => rfl) hget, hbound⟩
    · cases h
      subst hsent
      refine ⟨rfl, rfl, rfl, rfl, List.Subset.refl _, ?_, fun s h' hget' => .inl ?_, hbound⟩
      · simp only [World.update, Entry.newSession, Option.toList_none, List.append_nil]
        exact modify_connections fun _ => rfl
      · simp only [World.update, List.getElem?_modify] at hget'
        by_cases hs : session = s
        · subst hs
          obtain rfl : { g with inputs := g.inputs ++ [action] } = h' := by simpa [hget] using hget'
          exact ⟨g, hget, rfl, by simp [Entry.forwardedTo], fun hd => absurd hd hdone⟩
        · exact ⟨h', by simpa [hs] using hget', rfl, by simp [Entry.forwardedTo, hs],
            fun _ => by simp [Entry.forwardedTo, hs]⟩

structure Entry.Aside (x : Entry) : Prop where
  taken : x.takenCommand = none
  session : x.newSession = none
  forwarded : ∀ s, x.forwardedTo s = none

theorem settled_aside {w v : World} {e : Effect} {a : e.Answer} (hx : (Entry.host e a).Aside)
    (hlog : v.log = w.log) (hcommands : v.commands = w.commands)
    (hsenders : v.sendersAlive = w.sendersAlive) (hreceiver : v.receiverAlive = w.receiverAlive)
    (hclosed : w.closed ⊆ v.closed) (hsessions : v.sessions = w.sessions) : Settled w v e a := by
  refine ⟨hlog, by simp [hx.taken, hcommands], hsenders, hreceiver, hclosed,
    by simp [hx.session, hsessions], fun s h hget => ?_, fun s _ => hx.forwarded s⟩
  rw [hsessions] at hget
  exact continues_same hx.forwarded hget

theorem settled_refl {w : World} {e : Effect} {a : e.Answer} (hx : (Entry.host e a).Aside) :
    Settled w w e a :=
  settled_aside hx rfl rfl rfl rfl (List.Subset.refl _) rfl

theorem settled_take {w w' : World} {e : Effect} {a : e.Answer} {answer : Option HostCommand}
    (ht : (Entry.host e a).takenCommand = answer) (hs : (Entry.host e a).newSession = none)
    (hf : ∀ s, (Entry.host e a).forwardedTo s = none) (h : w.take answer = some w') :
    Settled w w' e a := by
  obtain ⟨hw, hcommands⟩ := take_some h
  rw [hw]
  exact ⟨rfl, by rw [ht]; exact hcommands, rfl, rfl, List.Subset.refl _, by simp [hs],
    fun _ _ hget => continues_same hf hget, fun s _ => hf s⟩

theorem settled_update {w : World} {e : Effect} {a : e.Answer} {session : ℕ}
    {f : Helpers → Helpers} (hx : (Entry.host e a).Aside)
    (hf : ∀ h, (f h).connection = h.connection ∧ (f h).injection = h.injection ∧
      (f h).inputs = h.inputs) : Settled w (w.update session f) e a := by
  refine ⟨rfl, by rw [hx.taken]; rfl, rfl, rfl, List.Subset.refl _, ?_,
    fun _ _ hget => continues_modify (fun h => (hf h).2) hx.forwarded hget,
    fun s _ => hx.forwarded s⟩
  rw [hx.session, Option.toList_none, List.append_nil]
  exact modify_connections fun h => (hf h).1

theorem settle_spawn {w w' : World} {c : Connection} {codec : VideoCodec} {activeId : UInt32}
    {session : ℕ} (h : w.settle (.spawn c codec activeId) session = some w') :
    Settled w w' (.spawn c codec activeId) session := by
  simp only [World.settle] at h
  split_ifs at h with hsession
  cases h
  refine ⟨rfl, rfl, rfl, rfl, List.Subset.refl _, by simp [Entry.newSession, Helpers.start],
    fun s h' hget => ?_, fun _ _ => rfl⟩
  rcases lt_trichotomy s w.sessions.length with hlt | rfl | hgt
  · rw [List.getElem?_append_left hlt] at hget
    exact continues_same (fun _ => rfl) hget
  · obtain rfl : Helpers.start c activeId = h' := by simpa using hget
    exact .inr ⟨rfl, rfl, c, activeId, rfl⟩
  · rw [List.getElem?_eq_none (by rw [List.length_append]; exact hgt)] at hget
    cases hget

theorem settle_accept {w w' : World} {internet : Bool} {a : Option (Except String Connection)}
    (h : w.settle (.accept internet) a = some w') : Settled w w' (.accept internet) a := by
  have hx : (Entry.host (.accept internet) a).Aside := ⟨rfl, rfl, fun _ => rfl⟩
  rcases a with _ | e | c
  · cases h
    exact settled_refl hx
  · cases h
    exact settled_refl hx
  · simp only [World.settle] at h
    split_ifs at h
    cases h
    exact settled_aside hx rfl rfl rfl rfl (List.Subset.refl _) rfl

theorem settle_spec {w w' : World} {e : Effect} {a : e.Answer} (h : w.settle e a = some w') :
    Settled w w' e a := by
  cases e with
  | forward session action => exact settle_forward h
  | spawn c codec activeId => exact settle_spawn h
  | accept internet => exact settle_accept h
  | takeCommand c => exact settled_take rfl rfl (fun _ => rfl) h
  | select c =>
    cases a with
    | command answer => exact settled_take rfl rfl (fun _ => rfl) h
    | message m =>
      cases h
      exact settled_refl ⟨rfl, rfl, fun _ => rfl⟩
  | close c reason =>
    cases h
    exact settled_aside ⟨rfl, rfl, fun _ => rfl⟩ rfl rfl rfl rfl (List.subset_cons_self ..) rfl
  | storeActive | stopCapture | dropInput =>
    cases h
    exact settled_update ⟨rfl, rfl, fun _ => rfl⟩ fun _ => ⟨rfl, rfl, rfl⟩
  | emit | now | joinCapture | awaitMedia | spawnRefresh =>
    simp only [World.settle] at h
    split_ifs at h
    cases h
    exact settled_aside ⟨rfl, rfl, fun _ => rfl⟩ rfl rfl rfl rfl (List.Subset.refl _) rfl
  | _ =>
    cases h
    exact settled_aside ⟨rfl, rfl, fun _ => rfl⟩ rfl rfl rfl rfl (List.Subset.refl _) rfl

def Effect.refreshes : Effect → Bool
  | .spawnRefresh _ _ _ _ => true
  | .abortRefresh _ => true
  | _ => false

structure Unrelated (w w' : World) (e : Effect) : Prop where
  refreshing : e.refreshes = false → w'.refreshing = w.refreshing
  clock : e ≠ .now → w'.clock = w.clock

theorem settle_unrelated {w w' : World} {e : Effect} {a : e.Answer}
    (h : w.settle e a = some w') : Unrelated w w' e := by
  have htake {answer : Option HostCommand} (h : w.take answer = some w') : Unrelated w w' e := by
    rw [(take_some h).1]
    exact ⟨fun _ => rfl, fun _ => rfl⟩
  cases e with
  | takeCommand c => exact htake h
  | select c =>
    cases a with
    | command answer => exact htake h
    | message m =>
      cases h
      exact ⟨fun _ => rfl, fun _ => rfl⟩
  | accept internet =>
    rcases a with _ | e | c
    · cases h
      exact ⟨fun _ => rfl, fun _ => rfl⟩
    · cases h
      exact ⟨fun _ => rfl, fun _ => rfl⟩
    · simp only [World.settle] at h
      split_ifs at h
      cases h
      exact ⟨fun _ => rfl, fun _ => rfl⟩
  | forward session action =>
    simp only [World.settle] at h
    split at h
    · cases h
    · split_ifs at h <;> cases h <;> exact ⟨fun _ => rfl, fun _ => rfl⟩
  | emit | spawn | joinCapture | awaitMedia =>
    simp only [World.settle] at h
    split_ifs at h
    cases h
    exact ⟨fun _ => rfl, fun _ => rfl⟩
  | now =>
    simp only [World.settle] at h
    split_ifs at h
    cases h
    exact ⟨fun _ => rfl, fun hne => absurd rfl hne⟩
  | spawnRefresh =>
    simp only [World.settle] at h
    split_ifs at h
    cases h
    exact ⟨fun hr => (nomatch hr), fun _ => rfl⟩
  | abortRefresh =>
    cases h
    exact ⟨fun hr => (nomatch hr), fun _ => rfl⟩
  | _ =>
    cases h
    exact ⟨fun _ => rfl, fun _ => rfl⟩

theorem settle_now {w w' : World} {t : ℕ} (h : w.settle .now t = some w') :
    w.clock ≤ t ∧ w'.clock = t := by
  simp only [World.settle] at h
  split_ifs at h with hle
  cases h
  exact ⟨hle, rfl⟩

theorem respond_spec {w w' : World} {e : Effect} {a : e.Answer} (h : w.respond e a = some w') :
    ∃ v, w.settle e a = some v ∧ Settled w v e a ∧ w' = v.record (.host e a) := by
  obtain ⟨v, hv, rfl⟩ := Option.map_eq_some_iff.mp h
  exact ⟨v, hv, settle_spec hv, rfl⟩

theorem Settled.record_log {w v : World} {e : Effect} {a : e.Answer} (hs : Settled w v e a) :
    (v.record (.host e a)).log = w.log ++ [.host e a] := by
  rw [← hs.log]
  rfl

inductive HelperStep (closed : Bool) (h : Helpers) : Helpers × Option HelperEvent → Prop
  | capture (outcome : Except String (Option Codec.ScreenFrame)) :
      HelperStep closed h (h.stepCapture outcome)
  | media (sent : Bool) : HelperStep closed h (h.stepMedia closed sent)
  | inject (result : Except String Unit) : HelperStep closed h (h.stepInject result)

inductive Drifted (w : World) : World → Prop
  | still : Drifted w w
  | issue (command : HostCommand) (h : w.sendersAlive = true) :
      Drifted w ({ w with commands := w.commands ++ [command] }.record (.issued command))
  | dropSenders (h : w.sendersAlive = true) :
      Drifted w ({ w with sendersAlive := false }.record .sendersDropped)
  | dropReceiver (h : w.receiverAlive = true) :
      Drifted w ({ w with receiverAlive := false }.record .receiverDropped)
  | help (session : ℕ) (h h' : Helpers) (event : Option HelperEvent)
      (hget : w.sessions[session]? = some h)
      (hstep : HelperStep (h.connection ∈ w.closed) h (h', event)) :
      Drifted w { w with
        sessions := w.sessions.set session h'
        log := w.log ++ event.toList.map (.helper session h.connection) }
  | refresh (task : ℕ) : Drifted w (w.record (.refreshed task))

theorem drift_spec (w : World) (d : Drift) : Drifted w (w.drift d) := by
  have hhelp {session : ℕ} {f : Helpers → Helpers × Option HelperEvent}
      (hf : ∀ h, HelperStep (h.connection ∈ w.closed) h (f h)) : Drifted w (w.help session f) := by
    unfold World.help
    cases hget : w.sessions[session]? with
    | none => exact .still
    | some h => exact .help session h _ _ hget (hf h)
  cases d with
  | issue command =>
    simp only [World.drift]
    split_ifs with h
    · exact .issue command h
    · exact .still
  | dropSenders =>
    simp only [World.drift]
    split_ifs with h
    · exact .dropSenders h
    · exact .still
  | dropReceiver =>
    simp only [World.drift]
    split_ifs with h
    · exact .dropReceiver h
    · exact .still
  | capture session outcome => exact hhelp fun h => .capture outcome
  | media session sent => exact hhelp fun h => .media sent
  | inject session result => exact hhelp fun h => .inject result
  | refresh task =>
    simp only [World.drift]
    split_ifs with h
    · exact .refresh task
    · exact .still

theorem Drifted.unrelated {w w' : World} (hd : Drifted w w') :
    w'.refreshing = w.refreshing ∧ w'.clock = w.clock := by
  cases hd <;> exact ⟨rfl, rfl⟩

def Entry.ofHost : Entry → Bool
  | .host _ _ => true
  | _ => false

theorem Drifted.grows {w w' : World} (hd : Drifted w w') :
    w'.log = w.log ∨ ∃ x : Entry, w'.log = w.log ++ [x] ∧ x.ofHost = false := by
  cases hd with
  | still => exact .inl rfl
  | help session h h' event _ _ =>
    cases event with
    | none => exact .inl (List.append_nil _)
    | some event => exact .inr ⟨_, rfl, rfl⟩
  | _ => exact .inr ⟨_, rfl, rfl⟩

theorem HelperStep.connection {closed : Bool} {h : Helpers} {r : Helpers × Option HelperEvent}
    (hstep : HelperStep closed h r) : r.1.connection = h.connection := by
  cases hstep with
  | capture outcome =>
    unfold Helpers.stepCapture
    cases h.capture with
    | waiting => dsimp only; split_ifs <;> rfl
    | running monitorId => dsimp only; split_ifs <;> rfl
    | reserved monitorId => cases outcome <;> rfl
    | done => rfl
  | media sent =>
    unfold Helpers.stepMedia
    cases h.media with
    | waiting =>
      cases h.channel with
      | none => dsimp only; split_ifs <;> rfl
      | some frame => rfl
    | sending frame => rfl
    | done => rfl
  | inject result =>
    unfold Helpers.stepInject
    cases h.injection with
    | creating => rfl
    | running =>
      cases h.inputs with
      | nil => dsimp only; split_ifs <;> rfl
      | cons action inputs => rfl
    | reporting message alive => cases alive <;> rfl
    | done => rfl

theorem HelperStep.media_open {closed : Bool} {h : Helpers} {r : Helpers × Option HelperEvent}
    {frame : Codec.ScreenFrame} (hstep : HelperStep closed h r)
    (hr : r.2 = some (.media frame true)) : closed = false := by
  cases hstep with
  | capture outcome =>
    unfold Helpers.stepCapture at hr
    cases hc : h.capture with
    | waiting =>
      simp only [hc] at hr
      split_ifs at hr
    | running monitorId =>
      simp only [hc] at hr
      split_ifs at hr
    | reserved monitorId => cases outcome <;> simp [hc] at hr
    | done => simp [hc] at hr
  | media sent =>
    unfold Helpers.stepMedia at hr
    cases hm : h.media with
    | waiting => cases hchannel : h.channel <;> simp [hm, hchannel] at hr
    | sending frame =>
      simp only [hm, Option.some.injEq, HelperEvent.media.injEq, Bool.and_eq_true] at hr
      simpa using hr.2.2
    | done => simp [hm] at hr
  | inject result =>
    unfold Helpers.stepInject at hr
    cases hi : h.injection with
    | creating => simp [hi] at hr
    | running =>
      cases hq : h.inputs with
      | nil =>
        simp only [hi, hq] at hr
        split_ifs at hr
        cases hr
      | cons action inputs => simp [hi, hq] at hr
    | reporting message alive => cases alive <;> simp [hi] at hr
    | done => simp [hi] at hr

theorem set_connections {sessions : List Helpers} {session : ℕ} {h h' : Helpers}
    (hget : sessions[session]? = some h) (hconnection : h'.connection = h.connection) :
    (sessions.set session h').map (·.connection) = sessions.map (·.connection) := by
  apply List.ext_getElem?
  intro i
  rw [List.getElem?_map, List.getElem?_map, List.getElem?_set]
  split_ifs with hi hlt
  · subst hi
    simp [hget, hconnection]
  · subst hi
    rw [List.getElem?_eq_none (not_lt.mp hlt)] at hget
    cases hget
  · rfl

/-- What every step keeps holds in every run: the host task follows its protocol. -/
theorem lawful_runHost {manual : Bool} {I : Phase → World → Prop} {P : List Entry → Entry → Prop}
    (h : machine.Keeps (Step manual) World.log I P) (hstart : I .idle .start) (h264 : Bool)
    (config : HostConfig) (port : UInt16) (ticks : List HostTick)
    (hmanual : config.requireManualApproval = manual) :
    Lawful P (runHost h264 config port ticks).log := by
  subst hmanual
  have hfollows : Follows (Step config.requireManualApproval) (start h264 config port)
      (fun _ φ => φ = .idle) .idle := follows_run config _
  have hnil : Lawful P World.start.log := Lawful.nil
  obtain ⟨φ, -, -, hlawful⟩ :=
    h.run (σ := ⟨start h264 config port, .start⟩) hfollows hstart hnil ticks
  exact hlawful

section Quiet
variable {e : Effect} {a : e.Answer}

theorem newSession_of_quiet (h : e.quiet = true) : (Entry.host e a).newSession = none := by
  cases e with
  | spawn c codec id => cases h
  | _ => rfl

theorem newVisitor_of_quiet (h : e.quiet = true) : (Entry.host e a).newVisitor = none := by
  cases e with
  | accept internet => cases h
  | _ => rfl

theorem takenCommand_of_quiet (h : e.quiet = true) : (Entry.host e a).takenCommand = none := by
  cases e with
  | takeCommand c => cases h
  | select c => cases h
  | _ => rfl

end Quiet

section Foreign
variable {x : Entry}

theorem newVisitor_of_foreign (h : x.ofHost = false) : x.newVisitor = none := by
  cases x with
  | host e a => cases h
  | _ => rfl

theorem newSession_of_foreign (h : x.ofHost = false) : x.newSession = none := by
  cases x with
  | host e a => cases h
  | _ => rfl

theorem forwardedTo_of_foreign (h : x.ofHost = false) (s : ℕ) : x.forwardedTo s = none := by
  cases x with
  | host e a => cases h
  | _ => rfl

theorem takenCommand_of_foreign (h : x.ofHost = false) : x.takenCommand = none := by
  cases x with
  | host e a => cases h
  | _ => rfl

end Foreign

def Fifo (w : World) : Prop := issued w.log = taken w.log ++ w.commands

theorem Fifo.queued {w : World} (h : Fifo w) : queued w.log = w.commands := by
  rw [Host.queued, h, List.drop_left]

theorem Fifo.settled {w w' : World} {e : Effect} {a : e.Answer} (h : Fifo w)
    (hs : Settled w w' e a) : Fifo (w'.record (.host e a)) := by
  have hissued : (Entry.host e a).issuedCommand = none := rfl
  simp only [Fifo, World.record, issued_append, taken_append, issued_cons, taken_cons, hs.log,
    hissued]
  rw [h, hs.commands]
  simp

theorem Fifo.drifted {w w' : World} (h : Fifo w) (hd : Drifted w w') : Fifo w' := by
  have hquiet {xs : List Entry} (hi : issued xs = []) (ht : taken xs = []) :
      issued (w.log ++ xs) = taken (w.log ++ xs) ++ w.commands := by
    rw [issued_append, taken_append, hi, ht, List.append_nil, List.append_nil]
    exact h
  cases hd with
  | still => exact h
  | issue command _ =>
    simp only [Fifo, World.record, issued_append, taken_append]
    rw [h]
    simp [Entry.issuedCommand, Entry.takenCommand]
  | dropSenders _ => exact hquiet rfl rfl
  | dropReceiver _ => exact hquiet rfl rfl
  | help session h h' event _ _ => cases event <;> exact hquiet rfl rfl
  | refresh task => exact hquiet rfl rfl

end Controlis.Host
