import Controlis.Protocol.Chunking
import Controlis.Session.ControlLoop
import Controlis.Viewer.Slot

/-!
# Input from one desk to the other

The webview's commands speak to the session in the slot; its input task frames
what they queued and writes it to the control stream; the host reads chunks of
the stream and injects what the frames say. All of these take their steps at any
time. One session of the viewer is watched, and `asked` records what was said
while it was in the slot.
-/

namespace Controlis.EndToEnd
open Protocol Session Runs
open Viewer.Keyboard Viewer.Slot

/-- `broken`: the stream fails when it has taken so many bytes. -/
def ControlSender.send (postcard : Postcard) (wire : List UInt8) (message : ControlMessage)
    (broken : Option ℕ) : List UInt8 × Bool :=
  match encode postcard message with
  | .error _ => (wire, false)
  | .ok framed =>
    match broken with
    | none => (wire ++ framed, true)
    | some n => (wire ++ framed.take n, false)

structure Joint where
  app : App
  wire : List UInt8
  desk : Desk
  asked : List ControlMessage

def Joint.start (monitor : MonitorInfo) : Joint := ⟨.start, [], .start monitor, []⟩

inductive Event
  | app (e : AppEvent)
  | send (broken : Option ℕ)
  | command (c : Option HostCommand)
  | read (n : ℕ)
  | finished
  | failed
  | teardown
  | inject (result : Except String Unit)

def commandMessage : AppEvent → Option ControlMessage
  | .viewerInput event => toControlMessage event
  | .viewerSelectMonitor monitorId => some (.selectMonitor monitorId)
  | .viewerDisconnect => some (.disconnect "viewer closed")
  | _ => none

def said (k : ℕ) (s : App) (e : AppEvent) : List ControlMessage :=
  if s.slot = some k then (commandMessage e).toList else []

def inputOf (k : ℕ) : AppEvent → Bool
  | .session j (.input _) => j = k
  | _ => false

def next (x : Viewer.Slot.Session) : Option ControlMessage :=
  if x.inputTask then x.queued.head? else none

namespace Joint

/-- A step of the input task; with nothing at hand it may still find its senders gone. -/
def send (postcard : Postcard) (k : ℕ) (j : Joint) (broken : Option ℕ) : Joint :=
  let (wire, ok) := match j.app.sessions[k]?.bind next with
    | some message => ControlSender.send postcard j.wire message broken
    | none => (j.wire, true)
  { j with wire := wire, app := j.app.step (.session k (.input ok)) }

def reading (postcard : Postcard) (j : Joint) : Bool :=
  j.desk.exit.isNone && (pollFrame postcard j.desk.decoder).2 = .pending

/-- Of the bytes under way the host gets at most `n`, and none while it does not wait for any. -/
def read (postcard : Postcard) (monitors : List MonitorInfo) (j : Joint) (n : ℕ) : Joint :=
  let n := if j.reading postcard then n else 0
  { j with
    wire := j.wire.drop n
    desk := j.desk.tick postcard monitors (.recv (.bytes (j.wire.take n))) }

def host (postcard : Postcard) (monitors : List MonitorInfo) (j : Joint) (t : Tick) : Joint :=
  { j with desk := j.desk.tick postcard monitors t }

def step (postcard : Postcard) (monitors : List MonitorInfo) (k : ℕ) (j : Joint) : Event → Joint
  | .app e =>
    if inputOf k e then j
    else { j with app := j.app.step e, asked := j.asked ++ said k j.app e }
  | .send broken => j.send postcard k broken
  | .command c => j.host postcard monitors (.command c)
  | .read n => j.read postcard monitors n
  | .finished => j.host postcard monitors (.recv .finished)
  | .failed => j.host postcard monitors (.recv .failed)
  | .teardown => j.host postcard monitors .teardown
  | .inject result => j.host postcard monitors (.inject result)

def written (j : Joint) : List UInt8 := bytesRead j.desk.trace ++ j.wire

def Settled (postcard : Postcard) (k : ℕ) (j : Joint) : Prop :=
  (∃ x, j.app.sessions[k]? = some x ∧ x.inputTask = true ∧ x.queued = []) ∧
    j.wire = [] ∧ j.reading postcard = true

end Joint

variable {postcard : Postcard} {monitors : List MonitorInfo} {initial : MonitorInfo} {k : ℕ}
variable {j : Joint} {s : App} {x : Viewer.Slot.Session}

theorem parsed_part {stream full rest : List UInt8} {bodies bodies' : List (List UInt8)}
    (h : Parsed stream bodies rest) (h' : Parsed full bodies' []) (hpart : stream <+: full) :
    ∃ later, bodies' = bodies ++ later ∧ rest <+: later.flatMap frame := by
  obtain ⟨rfl, hlen⟩ := h
  obtain ⟨rfl, hlen'⟩ := h'
  rw [List.append_nil] at hpart
  induction bodies generalizing bodies' with
  | nil => exact ⟨bodies', rfl, by simpa using hpart⟩
  | cons body bodies ih =>
    obtain ⟨more, hmore⟩ := hpart
    rw [List.flatMap_cons, List.append_assoc, List.append_assoc] at hmore
    cases bodies' with
    | nil => exact absurd hmore.symm (exhausted_nil _ _ (hlen _ (List.mem_cons_self ..)))
    | cons body' bodies' =>
      rw [List.flatMap_cons] at hmore
      obtain ⟨rfl, htail⟩ := frame_append_inj (hlen _ (List.mem_cons_self ..))
        (hlen' _ (List.mem_cons_self ..)) hmore
      obtain ⟨later, rfl, hrest⟩ := ih (fun b hb => hlen b (List.mem_cons_of_mem _ hb))
        (fun b hb => hlen' b (List.mem_cons_of_mem _ hb)) ⟨more, by simpa using htail⟩
      exact ⟨later, rfl, hrest⟩

theorem not_oversized {rest : List UInt8} {later : List (List UInt8)} {len : ℕ}
    (hlen : ∀ body ∈ later, body.length ≤ maxMessageLen) (hrest : rest <+: later.flatMap frame) :
    ¬ Oversized rest len := by
  rintro ⟨word, more, rfl, hword, hlarge⟩
  obtain ⟨more', hmore⟩ := hrest
  rw [List.append_assoc] at hmore
  cases later with
  | nil =>
    have hzero := congrArg List.length hmore
    simp [Numeral.length_toLeBytes] at hzero
  | cons body later =>
    have hbody := hlen body (List.mem_cons_self ..)
    rw [List.flatMap_cons] at hmore
    have htake := congrArg (List.take 4) hmore
    rw [take_frame, List.take_left' (Numeral.length_toLeBytes _)] at htake
    have hnat := congrArg Numeral.fromLeBytes htake
    rw [Numeral.fromLeBytes_toLeBytes, Numeral.fromLeBytes_toLeBytes, toNat_ofNat_length hbody]
      at hnat
    omega

/-- A reader that has every frame of the stream keeps no byte: the loop starts on an empty buffer
behind the messages of the handshake. -/
theorem read_all_leaves_nothing {calls : List DecoderCall} {full : List UInt8}
    {bodies : List (List UInt8)} (hfull : Parsed full bodies []) (hfed : fed calls <+: full)
    (hframes : (returned (FrameDecoder.new.serve calls).2).length = bodies.length) :
    (FrameDecoder.new.serve calls).1 = .new := by
  obtain ⟨later, hlater, hrest⟩ := parsed_part (serve_parsed .new calls) hfull hfed
  have hnone : later = [] := by
    rw [hlater, List.length_append] at hframes
    exact List.eq_nil_of_length_eq_zero (by omega)
  rw [hnone, List.flatMap_nil, List.prefix_nil] at hrest
  exact congrArg FrameDecoder.mk hrest

theorem decode_of_toVec
    (hround : ∀ m body, postcard.toVec m = .ok body → postcard.fromBytes body = .ok m)
    {m : ControlMessage} {body : List UInt8} (h : postcard.toVec m = .ok body) :
    decode postcard body = .ok m := by
  rw [decode, hround m body h]

theorem decoded_part
    (hround : ∀ m body, postcard.toVec m = .ok body → postcard.fromBytes body = .ok m)
    {bodies later : List (List UInt8)} {ms attempted : List ControlMessage}
    (hdec : List.Forall₂ (fun body m => decode postcard body = .ok m) bodies ms)
    (henc : List.Forall₂ (fun m body => postcard.toVec m = .ok body) attempted (bodies ++ later)) :
    ms <+: attempted := by
  induction hdec generalizing attempted with
  | nil => exact List.nil_prefix
  | cons hbody _ ih =>
    rw [List.cons_append] at henc
    cases henc with
    | cons hm hrest =>
      rw [decode_of_toVec hround hm] at hbody
      cases hbody
      exact List.cons_prefix_cons.mpr ⟨rfl, ih hrest⟩

theorem translations_append (before ms more : List ControlMessage) :
    translations monitors initial before (ms ++ more) =
      translations monitors initial before ms ++
        translations monitors initial (before ++ ms) more := by
  induction ms generalizing before with
  | nil => simp [translations]
  | cons m ms ih => simp [translations, ih]

theorem translations_mono {ms ms' : List ControlMessage} (h : ms <+: ms') :
    translations monitors initial [] ms <+: translations monitors initial [] ms' := by
  obtain ⟨more, rfl⟩ := h
  exact ⟨_, (translations_append [] ms more).symm⟩

structure Hears (ms : List ControlMessage) (x y : Viewer.Slot.Session) : Prop where
  sent : y.sent = x.sent
  inputTask : y.inputTask = x.inputTask
  queued : y.queued = x.queued ++ if x.inputTask then ms else []

variable {y z : Viewer.Slot.Session} {ms : List ControlMessage}

theorem hears_nothing (h : Kept x y) : Hears [] x y where
  sent := h.sent
  inputTask := h.inputTask
  queued := by rw [h.queued, ite_self, List.append_nil]

theorem Hears.kept (h : Hears ms x y) (hkept : Kept y z) : Hears ms x z where
  sent := hkept.sent.trans h.sent
  inputTask := hkept.inputTask.trans h.inputTask
  queued := hkept.queued.trans h.queued

theorem hears_sendInput (m : ControlMessage) : Hears [m] x (x.sendInput m) := by
  rw [Session.sendInput]
  split_ifs with hinput
  · exact ⟨rfl, rfl, by rw [if_pos hinput]⟩
  · exact ⟨rfl, rfl, by rw [if_neg hinput, List.append_nil]⟩

theorem sendInput_session {m : ControlMessage} (hy : (s.sendInput m).sessions[k]? = some y) :
    ∃ x, s.sessions[k]? = some x ∧ Hears (if s.slot = some k then [m] else []) x y := by
  unfold App.sendInput at hy
  split at hy
  · rename_i hslot
    exact ⟨y, hy, by simpa [hslot] using hears_nothing .refl⟩
  · rename_i i hslot
    obtain ⟨x, hx, rfl⟩ := modify_some hy
    refine ⟨x, hx, ?_⟩
    by_cases hik : i = k
    · subst hik
      rw [if_pos rfl, if_pos hslot]
      exact hears_sendInput m
    · rw [if_neg hik, if_neg (by simpa [hslot] using hik)]
      exact hears_nothing .refl

theorem said_nothing {e : AppEvent} (h : commandMessage e = none) : said k s e = [] := by
  rw [said, h, Option.toList_none, ite_self]

theorem said_eq {e : AppEvent} {m : ControlMessage} (h : commandMessage e = some m) :
    said k s e = if s.slot = some k then [m] else [] := by
  rw [said, h, Option.toList_some]

theorem connected_session {remembered : Bool}
    (hy : (s.connected remembered).sessions[k]? = some y) :
    (∃ x, s.sessions[k]? = some x ∧ Hears [] x y) ∨
      (s.sessions[k]? = none ∧ y.sent = [] ∧ y.queued = []) := by
  cases remembered with
  | true =>
    rcases getElem_snoc hy with hold | ⟨hk, rfl⟩
    · obtain ⟨x, hx, hkept⟩ := dropViewer_some hold
      exact .inl ⟨x, hx, hears_nothing hkept⟩
    · rw [dropViewer_length] at hk
      exact .inr ⟨by simp [hk], rfl, rfl⟩
  | false =>
    rcases getElem_snoc hy with hold | ⟨hk, rfl⟩
    · exact .inl ⟨y, hold, hears_nothing .refl⟩
    · exact .inr ⟨by simp [hk], rfl, rfl⟩

theorem app_session {e : AppEvent} (he : inputOf k e = false)
    (hy : (s.step e).sessions[k]? = some y) :
    (∃ x, s.sessions[k]? = some x ∧ Hears (said k s e) x y) ∨
      (s.sessions[k]? = none ∧ y.sent = [] ∧ y.queued = []) := by
  cases e with
  | connectViewer =>
    obtain ⟨x, hx, hkept⟩ := dropViewer_some hy
    rw [said_nothing rfl]
    exact .inl ⟨x, hx, hears_nothing hkept⟩
  | connectFails =>
    rw [said_nothing rfl]
    exact .inl ⟨y, hy, hears_nothing .refl⟩
  | connected remembered =>
    rw [said_nothing rfl]
    rw [App.step] at hy
    split_ifs at hy
    · exact .inl ⟨y, hy, hears_nothing .refl⟩
    · exact connected_session (s := { s with connecting := s.connecting - 1 }) hy
  | viewerInput event =>
    rw [App.step] at hy
    cases hm : toControlMessage event with
    | none =>
      rw [hm] at hy
      rw [said_nothing (e := .viewerInput event) hm]
      exact .inl ⟨y, hy, hears_nothing .refl⟩
    | some m =>
      rw [hm] at hy
      rw [said_eq (e := .viewerInput event) hm]
      exact .inl (sendInput_session hy)
  | viewerSelectMonitor monitorId =>
    rw [said_eq rfl]
    exact .inl (sendInput_session hy)
  | viewerDisconnect =>
    rw [said_eq rfl]
    obtain ⟨z, hz, hkept⟩ := dropViewer_some hy
    obtain ⟨x, hx, hears⟩ := sendInput_session hz
    exact .inl ⟨x, hx, hears.kept hkept⟩
  | session i event =>
    rw [said_nothing rfl]
    obtain ⟨x, hx, rfl⟩ := modify_some hy
    refine .inl ⟨x, hx, ?_⟩
    split_ifs with hik
    · rcases input_or_kept (x := x) (decide (s.slot = some i)) event with ⟨ok, rfl⟩ | hkept
      · simp [inputOf, hik] at he
      · exact hears_nothing hkept
    · exact hears_nothing .refl

theorem sendInput_length (m : ControlMessage) :
    (s.sendInput m).sessions.length = s.sessions.length := by
  rw [App.sendInput]
  split
  · rfl
  · exact List.length_modify ..

theorem sendInput_slot (m : ControlMessage) : (s.sendInput m).slot = s.slot := by
  rw [App.sendInput]
  split
  · rfl
  · rfl

theorem step_length (e : AppEvent) : s.sessions.length ≤ (s.step e).sessions.length := by
  cases e with
  | connectViewer => exact dropViewer_length.ge
  | connectFails => exact le_rfl
  | connected remembered =>
    rw [App.step]
    split_ifs
    · exact le_rfl
    · cases remembered with
      | true => simp [App.connected, dropViewer_length]
      | false => simp [App.connected]
  | viewerInput event =>
    rw [App.step]
    split
    · exact le_rfl
    · exact (sendInput_length _).ge
  | viewerSelectMonitor monitorId => exact (sendInput_length _).ge
  | viewerDisconnect => exact (dropViewer_length.trans (sendInput_length _)).ge
  | session i event => exact (List.length_modify ..).ge

def Slotted (s : App) : Prop := ∀ i, s.slot = some i → i < s.sessions.length

theorem slotted_of_none (h : s.slot = none) : Slotted s := by
  intro i hi
  rw [h] at hi
  cases hi

theorem Slotted.sendInput (h : Slotted s) (m : ControlMessage) : Slotted (s.sendInput m) := by
  intro i hi
  rw [sendInput_slot] at hi
  rw [sendInput_length]
  exact h i hi

theorem Slotted.step (h : Slotted s) (e : AppEvent) : Slotted (s.step e) := by
  cases e with
  | connectViewer => exact slotted_of_none dropViewer_slot
  | connectFails => exact h
  | connected remembered =>
    rw [App.step]
    split_ifs
    · exact h
    · cases remembered with
      | true =>
        intro i hi
        cases hi
        simp [App.connected, dropViewer_length]
      | false =>
        intro i hi
        have hlt := h i hi
        simp only [App.connected, Bool.false_eq_true, if_false, List.length_append]
        omega
  | viewerInput event =>
    rw [App.step]
    split
    · exact h
    · exact h.sendInput _
  | viewerSelectMonitor monitorId => exact h.sendInput _
  | viewerDisconnect => exact slotted_of_none dropViewer_slot
  | session i event =>
    intro i' hi'
    rw [App.step, List.length_modify]
    exact h i' hi'

/-- What was asked waits in the queue or was sent, in order, while the input task is there. -/
structure Queued (x : Viewer.Slot.Session) (asked : List ControlMessage) : Prop where
  part : x.sent ++ x.queued <+: asked
  all : x.inputTask = true → x.sent ++ x.queued = asked

/-- The bytes are those of the first messages, the last of them possibly cut. -/
structure Streamed (postcard : Postcard) (x : Viewer.Slot.Session)
    (asked attempted : List ControlMessage) (bytes : List UInt8) (encodings : List (List UInt8)) :
    Prop where
  part : attempted <+: asked
  encoded : List.Forall₂ (fun m framed => encode postcard m = .ok framed) attempted encodings
  within : bytes <+: encodings.flatten
  all : x.inputTask = true → attempted = x.sent ∧ bytes = encodings.flatten

structure Carried (postcard : Postcard) (k : ℕ) (j : Joint) : Prop where
  slotted : Slotted j.app
  unborn : j.app.sessions[k]? = none → j.asked = [] ∧ j.written = []
  queued : ∀ x, j.app.sessions[k]? = some x → Queued x j.asked
  streamed : ∀ x, j.app.sessions[k]? = some x →
    ∃ attempted encodings, Streamed postcard x j.asked attempted j.written encodings

variable {asked attempted : List ControlMessage} {bytes : List UInt8}
variable {encodings : List (List UInt8)}

theorem Queued.hears (h : Queued x asked) (hears : Hears ms x y) : Queued y (asked ++ ms) := by
  by_cases hinput : x.inputTask = true
  · have hqueue : y.sent ++ y.queued = asked ++ ms := by
      rw [hears.sent, hears.queued, if_pos hinput, ← List.append_assoc, h.all hinput]
    exact ⟨hqueue ▸ List.prefix_rfl, fun _ => hqueue⟩
  · have hqueue : y.sent ++ y.queued = x.sent ++ x.queued := by
      rw [hears.sent, hears.queued, if_neg hinput, List.append_nil]
    rw [← hears.inputTask] at hinput
    exact ⟨hqueue ▸ h.part.trans (List.prefix_append ..), fun hno => absurd hno hinput⟩

theorem Streamed.hears (h : Streamed postcard x asked attempted bytes encodings)
    (hears : Hears ms x y) : Streamed postcard y (asked ++ ms) attempted bytes encodings where
  part := h.part.trans (List.prefix_append ..)
  encoded := h.encoded
  within := h.within
  all hinput := by
    rw [hears.sent]
    exact h.all (hears.inputTask.symm.trans hinput)

theorem Carried.app (h : Carried postcard k j) {e : AppEvent} (he : inputOf k e = false) :
    Carried postcard k { j with app := j.app.step e, asked := j.asked ++ said k j.app e } := by
  have hquiet (hnone : j.app.sessions[k]? = none) : j.asked ++ said k j.app e = [] := by
    rw [(h.unborn hnone).1, said, if_neg, List.append_nil]
    intro hslot
    exact absurd (h.slotted k hslot) (by simpa using hnone)
  refine ⟨h.slotted.step e, fun hnone => ?_, fun y hy => ?_, fun y hy => ?_⟩
  · rw [List.getElem?_eq_none_iff] at hnone
    have hbefore : j.app.sessions[k]? = none :=
      List.getElem?_eq_none_iff.mpr ((step_length e).trans hnone)
    exact ⟨hquiet hbefore, (h.unborn hbefore).2⟩
  · rcases app_session he hy with ⟨x, hx, hears⟩ | ⟨hnone, hsent, hqueued⟩
    · exact (h.queued x hx).hears hears
    · dsimp only
      rw [hquiet hnone]
      have hempty : y.sent ++ y.queued = [] := by rw [hsent, hqueued, List.append_nil]
      exact ⟨List.prefix_nil.mpr hempty, fun _ => hempty⟩
  · rcases app_session he hy with ⟨x, hx, hears⟩ | ⟨hnone, hsent, hqueued⟩
    · obtain ⟨attempted, encodings, hstream⟩ := h.streamed x hx
      exact ⟨attempted, encodings, hstream.hears hears⟩
    · refine ⟨[], [], List.nil_prefix, .nil, ?_, fun _ => ⟨hsent.symm, ?_⟩⟩
      · exact List.prefix_nil.mpr (h.unborn hnone).2
      · exact (h.unborn hnone).2

theorem next_some {m : ControlMessage} (h : next x = some m) :
    x.inputTask = true ∧ ∃ rest, x.queued = m :: rest := by
  rw [next] at h
  split_ifs at h with hinput
  exact ⟨hinput, x.queued.tail, by rw [List.cons_head?_tail h]⟩

theorem inputStep_idle (held : Bool) (h : next x = none) :
    (x.inputStep held true).sent = x.sent ∧ (x.inputStep held true).queued = x.queued ∧
      ((x.inputStep held true).inputTask = true → x.inputTask = true) := by
  unfold Session.inputStep
  split
  · rename_i hinput
    rw [next, if_pos hinput, List.head?_eq_none_iff] at h
    rw [h]
    dsimp only
    split_ifs
    · exact ⟨rfl, h, fun _ => hinput⟩
    · exact ⟨rfl, rfl, fun _ => hinput⟩
  · exact ⟨rfl, rfl, id⟩

theorem inputStep_sent {held : Bool} {m : ControlMessage} {rest : List ControlMessage}
    (hinput : x.inputTask = true) (hqueue : x.queued = m :: rest) :
    x.inputStep held true = { x with queued := rest, sent := x.sent ++ [m] } := by
  rw [Session.inputStep, if_pos hinput, hqueue]
  rfl

theorem inputStep_fails (held : Bool) {m : ControlMessage} {rest : List ControlMessage}
    (hinput : x.inputTask = true) (hqueue : x.queued = m :: rest) :
    (x.inputStep held false).sent = x.sent ∧ (x.inputStep held false).queued = [] ∧
      (x.inputStep held false).inputTask = false := by
  rw [Session.inputStep, if_pos hinput, hqueue]
  exact ⟨(kept_notify (x := x) _).sent, rfl, rfl⟩

theorem send_cases {wire wire' : List UInt8} {m : ControlMessage} {broken : Option ℕ} {ok : Bool}
    (h : ControlSender.send postcard wire m broken = (wire', ok)) :
    (ok = true ∧ ∃ framed, encode postcard m = .ok framed ∧ wire' = wire ++ framed) ∨
      (ok = false ∧ (wire' = wire ∨
        ∃ framed n, encode postcard m = .ok framed ∧ wire' = wire ++ framed.take n)) := by
  rw [ControlSender.send] at h
  cases hencode : encode postcard m with
  | error e =>
    rw [hencode] at h
    cases h
    exact .inr ⟨rfl, .inl rfl⟩
  | ok framed =>
    rw [hencode] at h
    cases broken with
    | none =>
      cases h
      exact .inl ⟨rfl, framed, rfl, rfl⟩
    | some n =>
      cases h
      -- a part of the frame may be on the stream already
      exact .inr ⟨rfl, .inr ⟨framed, n, rfl, rfl⟩⟩

theorem Queued.input {held ok : Bool} {m : ControlMessage} (h : Queued x asked)
    (hnext : next x = some m) : Queued (x.inputStep held ok) asked := by
  obtain ⟨hinput, rest, hqueue⟩ := next_some hnext
  have hall := h.all hinput
  cases ok with
  | true =>
    have hmoved : (x.sent ++ [m]) ++ rest = asked := by
      rw [← hall, hqueue, List.append_assoc, List.singleton_append]
    rw [inputStep_sent hinput hqueue]
    exact ⟨hmoved ▸ List.prefix_rfl, fun _ => hmoved⟩
  | false =>
    obtain ⟨hsent, hempty, hended⟩ := inputStep_fails held hinput hqueue
    refine ⟨?_, fun hno => ?_⟩
    · rw [hsent, hempty, List.append_nil]
      exact (List.prefix_append ..).trans h.part
    · rw [hended] at hno
      cases hno

theorem Streamed.send {held ok : Bool} {m : ControlMessage} {before wire wire' : List UInt8}
    {broken : Option ℕ} (h : Streamed postcard x asked attempted (before ++ wire) encodings)
    (hqueued : Queued x asked) (hnext : next x = some m)
    (hsend : ControlSender.send postcard wire m broken = (wire', ok)) :
    ∃ attempted' encodings',
      Streamed postcard (x.inputStep held ok) asked attempted' (before ++ wire') encodings' := by
  obtain ⟨hinput, rest, hqueue⟩ := next_some hnext
  obtain ⟨rfl, hstream⟩ := h.all hinput
  have hmore : x.sent ++ [m] <+: asked := ⟨rest, by simp [← hqueued.all hinput, hqueue]⟩
  have hframed {framed : List UInt8} (hencode : encode postcard m = .ok framed) :
      List.Forall₂ (fun m framed => encode postcard m = .ok framed) (x.sent ++ [m])
        (encodings ++ [framed]) := List.rel_append h.encoded (.cons hencode .nil)
  -- the task ends with a send that fails, so the stream need not be complete behind it
  have hended {P : Prop} (hno : (x.inputStep held false).inputTask = true) : P := by
    rw [(inputStep_fails held hinput hqueue).2.2] at hno
    cases hno
  rcases send_cases hsend with ⟨rfl, framed, hencode, rfl⟩ | ⟨rfl, rfl | ⟨framed, n, hencode, rfl⟩⟩
  · have hflat : before ++ (wire ++ framed) = (encodings ++ [framed]).flatten := by
      rw [← List.append_assoc, hstream, List.flatten_append, List.flatten_singleton]
    refine ⟨_, _, hmore, hframed hencode, hflat ▸ List.prefix_rfl, fun _ => ⟨?_, hflat⟩⟩
    rw [inputStep_sent hinput hqueue]
  · exact ⟨_, _, h.part, h.encoded, h.within, hended⟩
  -- a cut frame: the stream is a part of one more encoding than was sent
  · refine ⟨_, _, hmore, hframed hencode, ?_, hended⟩
    rw [← List.append_assoc, hstream, List.flatten_append, List.flatten_singleton]
    exact (List.prefix_append_right_inj _).mpr (List.take_prefix ..)

theorem Carried.send (h : Carried postcard k j) (broken : Option ℕ) :
    Carried postcard k (j.send postcard k broken) := by
  rw [Joint.send]
  cases hx : j.app.sessions[k]? with
  -- there is no such session yet, and its input task says nothing
  | none =>
    have hsame : j.app.step (.session k (.input true)) = j.app := by
      rw [App.step, List.modify_eq_self (List.getElem?_eq_none_iff.mp hx)]
    dsimp only [Option.bind]
    rw [hsame]
    exact h
  | some x =>
    have hafter (ok : Bool) : (j.app.step (.session k (.input ok))).sessions[k]? =
        some (x.inputStep (decide (j.app.slot = some k)) ok) := by
      simp [App.step, Session.step, hx]
    have hborn {P : Prop} {ok : Bool}
        (hnone : (j.app.step (.session k (.input ok))).sessions[k]? = none) : P := by
      cases (hafter ok).symm.trans hnone
    obtain ⟨attempted, encodings, hstream⟩ := h.streamed x hx
    have hqueued := h.queued x hx
    dsimp only [Option.bind]
    cases hnext : next x with
    | none =>
      obtain ⟨hsent, hsame, hinput⟩ :=
        inputStep_idle (decide (j.app.slot = some k)) hnext
      refine ⟨h.slotted.step _, hborn, fun y hy => ?_, fun y hy => ?_⟩
      · cases (hafter true).symm.trans hy
        refine ⟨?_, fun hy => ?_⟩
        · rw [hsent, hsame]
          exact hqueued.part
        · rw [hsent, hsame]
          exact hqueued.all (hinput hy)
      · cases (hafter true).symm.trans hy
        refine ⟨attempted, encodings, hstream.part, hstream.encoded, hstream.within, fun hy => ?_⟩
        rw [hsent]
        exact hstream.all (hinput hy)
    | some m =>
      dsimp only
      cases hsend : ControlSender.send postcard j.wire m broken with
      | mk wire ok =>
        refine ⟨h.slotted.step _, hborn, fun y hy => ?_, fun y hy => ?_⟩
        · cases (hafter ok).symm.trans hy
          exact hqueued.input hnext
        · cases (hafter ok).symm.trans hy
          exact hstream.send hqueued hnext hsend

variable {d : Desk}

theorem bytesRead_apply (arm : Arm) : bytesRead (d.apply arm).trace = bytesRead d.trace := by
  cases arm with
  | exit reason => rfl
  | next active input reply =>
    cases reply with
    | none => simp [Desk.apply]
    | some m => simp [Desk.apply, bytesRead]

theorem bytesRead_settle (p : FrameDecoder × Polled) :
    bytesRead (d.settle monitors p).trace = bytesRead d.trace := by
  obtain ⟨decoder, polled⟩ := p
  cases polled with
  | pending => rfl
  | message m =>
    rw [Desk.settle, bytesRead_apply]
    simp [Desk.record]
  | err => exact bytesRead_apply _

theorem bytesRead_bytes (chunk : List UInt8) :
    bytesRead (d.recv postcard monitors (.bytes chunk)).trace =
      bytesRead d.trace ++ if (pollFrame postcard d.decoder).2 = .pending then chunk else [] := by
  by_cases hpending : (pollFrame postcard d.decoder).2 = .pending
  · unfold Desk.recv
    rw [if_neg (not_not.mpr hpending), if_pos hpending]
    dsimp only
    rw [bytesRead_settle]
    simp [Desk.record]
  · unfold Desk.recv
    rw [if_pos hpending, if_neg hpending, List.append_nil, bytesRead_settle]

theorem bytesRead_lost {r : ReadResult} (hr : ∀ chunk, r ≠ .bytes chunk) :
    bytesRead (d.recv postcard monitors r).trace = bytesRead d.trace := by
  unfold Desk.recv
  split_ifs
  · exact bytesRead_settle _
  · cases r with
    | bytes chunk => exact absurd rfl (hr chunk)
    | finished => exact bytesRead_apply _
    | failed => exact bytesRead_apply _

theorem bytesRead_tick {t : Tick} (ht : ∀ chunk, t ≠ .recv (.bytes chunk)) :
    bytesRead (d.tick postcard monitors t).trace = bytesRead d.trace := by
  cases t with
  | command c =>
    simp only [Desk.tick]
    split_ifs
    · rfl
    · rw [bytesRead_apply]
      simp [Desk.record, bytesRead]
  | recv r =>
    simp only [Desk.tick]
    split_ifs
    · rfl
    · apply bytesRead_lost
      rintro chunk rfl
      exact ht chunk rfl
  | teardown =>
    simp only [Desk.tick]
    split_ifs
    · rfl
    · rfl
  | inject result =>
    simp only [Desk.tick]
    split_ifs
    · rw [Desk.inject]
      cases d.queue with
      | nil =>
        dsimp only
        split_ifs
        · rfl
        · simp [Desk.record]
      | cons a queue =>
        cases result with
        | ok _ => simp [Desk.record]
        | error e => simp [Desk.record, bytesRead]
    · rfl

theorem written_read (n : ℕ) : (j.read postcard monitors n).written = j.written := by
  have hrecv (chunk : List UInt8) :
      bytesRead (j.desk.tick postcard monitors (.recv (.bytes chunk))).trace =
        bytesRead j.desk.trace ++ if j.reading postcard then chunk else [] := by
    simp only [Desk.tick, Joint.reading]
    by_cases hexit : j.desk.exit = none
    · rw [if_neg (by simp [hexit]), bytesRead_bytes]
      simp [hexit]
    · simp [Option.isSome_iff_ne_none.mpr hexit, hexit]
  simp only [Joint.read, Joint.written, hrecv]
  -- what the host takes is what leaves the stream; while it waits for nothing it takes nothing
  split_ifs
  · rw [List.append_assoc, List.take_append_drop]
  · simp

theorem Carried.desk (h : Carried postcard k j) {j' : Joint} (happ : j'.app = j.app)
    (hasked : j'.asked = j.asked) (hwritten : j'.written = j.written) : Carried postcard k j' where
  slotted := happ ▸ h.slotted
  unborn hnone := by
    rw [hasked, hwritten]
    exact h.unborn (happ ▸ hnone)
  queued x hx := by
    rw [hasked]
    exact h.queued x (happ ▸ hx)
  streamed x hx := by
    rw [hasked, hwritten]
    exact h.streamed x (happ ▸ hx)

theorem Carried.host (h : Carried postcard k j) {t : Tick}
    (ht : ∀ chunk, t ≠ .recv (.bytes chunk)) : Carried postcard k (j.host postcard monitors t) :=
  h.desk rfl rfl (by rw [Joint.host, Joint.written, bytesRead_tick ht]; rfl)

theorem Carried.step (h : Carried postcard k j) (e : Event) :
    Carried postcard k (j.step postcard monitors k e) := by
  cases e with
  | app e =>
    rw [Joint.step]
    split_ifs with he
    · exact h
    · exact h.app (by simpa using he)
  | send broken => exact h.send broken
  | command c => exact h.host nofun
  | read n => exact h.desk rfl rfl (written_read n)
  | finished => exact h.host (by simp)
  | failed => exact h.host (by simp)
  | teardown => exact h.host nofun
  | inject result => exact h.host nofun

theorem carried_start : Carried postcard k (.start initial) where
  slotted := slotted_of_none rfl
  unborn _ := ⟨rfl, rfl⟩
  queued x hx := by cases hx
  streamed x hx := by cases hx

theorem consistent_step (h : Consistent postcard monitors initial j.desk) (e : Event) :
    Consistent postcard monitors initial (j.step postcard monitors k e).desk := by
  cases e with
  | app e =>
    rw [Joint.step]
    split_ifs
    · exact h
    · exact h
  | send broken => exact h
  | command c => exact h.tick (.command c)
  | read n => exact h.tick (.recv (.bytes _))
  | finished => exact h.tick (.recv .finished)
  | failed => exact h.tick (.recv .failed)
  | teardown => exact h.tick .teardown
  | inject result => exact h.tick (.inject result)

theorem joint_run (es : List Event) :
    let j := es.foldl (Joint.step postcard monitors k) (.start initial)
    Carried postcard k j ∧ Consistent postcard monitors initial j.desk := by
  apply invariant (I := fun j => Carried postcard k j ∧ Consistent postcard monitors initial j.desk)
  · exact ⟨carried_start, consistent_start⟩
  · intro j e ⟨hcarried, hconsistent⟩
    exact ⟨hcarried.step e, consistent_step hconsistent e⟩

theorem Carried.cut (h : Carried postcard k j) :
    ∃ attempted encodings, attempted <+: j.asked ∧
      List.Forall₂ (fun m framed => encode postcard m = .ok framed) attempted encodings ∧
      j.written <+: encodings.flatten := by
  cases hx : j.app.sessions[k]? with
  | none => exact ⟨[], [], List.nil_prefix, .nil, List.prefix_nil.mpr (h.unborn hx).2⟩
  | some x =>
    obtain ⟨attempted, encodings, hstream⟩ := h.streamed x hx
    exact ⟨attempted, encodings, hstream.part, hstream.encoded, hstream.within⟩

theorem bodies_of_encoded
    (h : List.Forall₂ (fun m framed => encode postcard m = .ok framed) attempted encodings) :
    ∃ bodies, List.Forall₂ (fun m body => postcard.toVec m = .ok body) attempted bodies ∧
      Parsed encodings.flatten bodies [] := by
  rw [encode_eq_encodeWith] at h
  exact parsed_encodings h

theorem encoded_of_mem {bodies : List (List UInt8)} {body : List UInt8}
    (h : List.Forall₂ (fun m body => postcard.toVec m = .ok body) attempted bodies)
    (hbody : body ∈ bodies) : ∃ m, postcard.toVec m = .ok body := by
  induction h with
  | nil => cases hbody
  | cons hm _ ih =>
    rcases List.mem_cons.mp hbody with rfl | hlater
    · exact ⟨_, hm⟩
    · exact ih hlater

theorem poll_decodes {stream full : List UInt8} {bodies bodies' : List (List UInt8)}
    (hround : ∀ m body, postcard.toVec m = .ok body → postcard.fromBytes body = .ok m)
    (hparsed : Parsed stream bodies d.decoder.buffer) (hwhole : Parsed full bodies' [])
    (hpart : stream <+: full)
    (hbodies' : List.Forall₂ (fun m body => postcard.toVec m = .ok body) attempted bodies') :
    (pollFrame postcard d.decoder).2 ≠ .err := by
  rw [pollFrame]
  cases hframe : d.decoder.nextFrame with
  | mk decoder result =>
    cases result with
    -- an oversized length would lie inside the encodings of the messages
    | error e =>
      obtain ⟨later, rfl, hbuffer⟩ := parsed_part hparsed hwhole hpart
      have herror : d.decoder.nextFrame.2 = .error e := by rw [hframe]
      obtain ⟨len, -, hlarge⟩ := nextFrame_error.mp herror
      refine absurd hlarge (not_oversized (fun body hbody => ?_) hbuffer)
      exact hwhole.2 body (List.mem_append_right _ hbody)
    | ok frame =>
      cases frame with
      | none => simp
      | some body =>
        obtain ⟨hbuffer, hlen⟩ := nextFrame_some hframe
        rw [hbuffer] at hparsed
        obtain ⟨later, rfl, -⟩ := parsed_part (hparsed.snoc hlen) hwhole hpart
        have hbody : body ∈ bodies ++ [body] ++ later := by simp
        obtain ⟨m, hm⟩ := encoded_of_mem hbodies' hbody
        dsimp only
        rw [decode_of_toVec hround hm]
        simp

theorem poll_pending (h : (pollFrame postcard d.decoder).2 = .pending) :
    Exhausted d.decoder.buffer := by
  apply nextFrame_none.mp
  rw [pollFrame] at h
  cases hframe : d.decoder.nextFrame with
  | mk decoder result =>
    rw [hframe] at h
    rcases result with e | _ | body
    · rfl
    · rfl
    · dsimp only at h
      cases hdecode : decode postcard body with
      | error e =>
        rw [hdecode] at h
        cases h
      | ok m =>
        rw [hdecode] at h
        cases h

theorem received_part
    (hround : ∀ m body, postcard.toVec m = .ok body → postcard.fromBytes body = .ok m)
    (hconsistent : Consistent postcard monitors initial d)
    (hencoded : List.Forall₂ (fun m framed => encode postcard m = .ok framed) attempted encodings)
    (hread : bytesRead d.trace <+: encodings.flatten) :
    received d.trace <+: attempted ∧ (d.exit = none →
      (pollFrame postcard d.decoder).2 ≠ .err ∧
      ((pollFrame postcard d.decoder).2 = .pending → bytesRead d.trace = encodings.flatten →
        received d.trace = attempted)) := by
  obtain ⟨bodies', hbodies', hwhole⟩ := bodies_of_encoded hencoded
  obtain ⟨bodies, bad, hparsed, hdec, hbad⟩ := hconsistent.framing
  obtain ⟨later, rfl, -⟩ := parsed_part hparsed hwhole hread
  have hpart : received d.trace <+: attempted := by
    rw [List.append_assoc] at hbodies'
    exact decoded_part hround hdec hbodies'
  refine ⟨hpart, fun hexit => ⟨poll_decodes hround hparsed hwhole hread hbodies', ?_⟩⟩
  intro hpending hall
  -- a stream is read in one way only, so the frames read are all that were written
  apply hpart.eq_of_length
  rw [hbad hexit, List.append_nil] at hwhole hparsed hbodies'
  rw [hall] at hparsed
  obtain ⟨hsame, -⟩ := hparsed.unique hwhole (poll_pending hpending) exhausted_nil
  rw [← hdec.length_eq, hbodies'.length_eq, ← hsame]

theorem Carried.received_part
    (hround : ∀ m body, postcard.toVec m = .ok body → postcard.fromBytes body = .ok m)
    (h : Carried postcard k j) (hconsistent : Consistent postcard monitors initial j.desk) :
    received j.desk.trace <+: j.asked ∧
      (j.desk.exit = none → (pollFrame postcard j.desk.decoder).2 ≠ .err) := by
  obtain ⟨attempted, encodings, hattempted, hencoded, hwritten⟩ := h.cut
  have hread : bytesRead j.desk.trace <+: encodings.flatten :=
    (List.prefix_append ..).trans hwritten
  obtain ⟨hpart, hopen⟩ := EndToEnd.received_part hround hconsistent hencoded hread
  exact ⟨hpart.trans hattempted, fun hexit => (hopen hexit).1⟩

theorem Carried.arrived
    (hround : ∀ m body, postcard.toVec m = .ok body → postcard.fromBytes body = .ok m)
    (h : Carried postcard k j) (hconsistent : Consistent postcard monitors initial j.desk)
    (hsettled : j.Settled postcard k) :
    received j.desk.trace = j.asked ∧ j.desk.injecting = true := by
  obtain ⟨⟨x, hx, hinput, hempty⟩, hwire, hreading⟩ := hsettled
  rw [Joint.reading, Bool.and_eq_true, Option.isNone_iff_eq_none, decide_eq_true_eq] at hreading
  obtain ⟨hexit, hpending⟩ := hreading
  constructor
  · obtain ⟨attempted, encodings, hstream⟩ := h.streamed x hx
    obtain ⟨rfl, hall⟩ := hstream.all hinput
    rw [Joint.written, hwire, List.append_nil] at hall
    have hreceived := ((EndToEnd.received_part hround hconsistent hstream.encoded
      (hall ▸ List.prefix_rfl)).2 hexit).2 hpending hall
    rw [hreceived, ← (h.queued x hx).all hinput, hempty, List.append_nil]
  · -- the injector ends only when the session has
    by_contra hno
    exact hconsistent.closed (hconsistent.finished (by simpa using hno)).2 hexit

theorem Carried.performed_part
    (hround : ∀ m body, postcard.toVec m = .ok body → postcard.fromBytes body = .ok m)
    (h : Carried postcard k j) (hconsistent : Consistent postcard monitors initial j.desk) :
    ∃ done, performed j.desk.trace =
        done.map .action ++ (bif j.desk.injecting then [] else [.releaseAll]) ∧
      done <+: translations monitors initial [] j.asked ∧
      (j.Settled postcard k → j.desk.queue = [] →
        done = translations monitors initial [] j.asked) := by
  obtain ⟨done, hdone, hqueue⟩ := hconsistent.fifo
  refine ⟨done, hdone, ?_, fun hsettled hdrained => ?_⟩
  · have hdone_part : done <+: translations monitors initial [] (received j.desk.trace) :=
      ⟨_, hqueue⟩
    exact hdone_part.trans (translations_mono (h.received_part hround hconsistent).1)
  · rw [(h.arrived hround hconsistent hsettled).1, hdrained, List.append_nil] at hqueue
    exact hqueue

theorem samplePostcard_round (m : ControlMessage) (body : List UInt8)
    (h : samplePostcard.toVec m = .ok body) : samplePostcard.fromBytes body = .ok m := by
  simp only [samplePostcard] at h ⊢
  split_ifs at h with hselect hclick hdisconnect
  · cases h
    rw [hselect]
    rfl
  · cases h
    rw [hclick]
    rfl
  · cases h
    rw [hdisconnect]
    rfl

/-- A selection and a click; the second chunk holds the end of the one and all of the other. -/
def sampleRun : List Event :=
  [.app .connectViewer, .app (.connected true), .app (.viewerSelectMonitor 1), .send none,
    .read 3, .app (.viewerInput (.button 0 true)), .command (some .approve), .send none,
    .read 100, .read 100, .inject (.error "no display")]

end Controlis.EndToEnd
