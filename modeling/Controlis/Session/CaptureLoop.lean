import Controlis.Codec.Video
import Controlis.Foundation.Runs
import Controlis.Session.ControlLoop

/-!
# The capture loop

A thread of its own captures the active monitor and hands the encoded frames
to the media task over a channel that holds one message. The control loop
stores the monitor the viewer selects at any moment. A step is one access of
the thread to what it shares with the two tasks, or one step of a task.
-/

namespace Controlis.Session.CaptureLoop
open Codec Protocol Checked

inductive Place
  | starting
  | top
  | loading
  | reserving
  | capturing
  | done
deriving DecidableEq, Repr

inductive Asked
  | forceKeyframe
  | encode (monitorId : UInt32) (frameId : UInt64) (frame : RgbaFrame)

structure State (lib : OpenH264) where
  active : Active
  stop : Bool
  place : Place
  currentId : UInt32
  frameId : UInt64
  encoder : VideoEncoder lib
  /-- The message in the channel; what is in it when the receiver goes is never taken. -/
  channel : Option ScreenFrame
  receiverGone : Bool
  /-- The messages the media task took out. -/
  drained : List ScreenFrame
  /-- The messages the encoder produced. -/
  produced : List ScreenFrame
  /-- The frames they were made of, each with the monitor it was captured from. -/
  captured : List (UInt32 × RgbaFrame)
  asked : List Asked

inductive Event
  | command (c : Option HostCommand)
  | message (m : Option ControlMessage)
  /-- The thread goes on; if it captures, this is what the capturer returns. -/
  | thread (shot : Except String Screenshot)
  | recv
  | hangUp

variable {lib : OpenH264}

def start (encoder : VideoEncoder lib) (active : MonitorInfo) : State lib where
  active := ⟨active, active.id⟩
  stop := false
  place := .starting
  currentId := 0
  frameId := 0
  encoder := encoder
  channel := none
  receiverGone := false
  drained := []
  produced := []
  captured := []
  asked := []

def State.control (s : State lib) : Arm → State lib
  | .exit _ => { s with stop := true }
  | .next active _ _ => if s.stop then s else { s with active := active }

/-- The thread has asked for a frame. The rate control may skip it; counting comes before
sending. -/
def State.encoded (s : State lib) (frame : RgbaFrame)
    (r : VideoEncoder lib × Outcome VideoError (Option ScreenFrame)) : State lib :=
  let s := { s with
    encoder := r.1
    asked := s.asked ++ [Asked.encode s.currentId s.frameId frame] }
  match r.2 with
  | .error _ => { s with place := .done }
  | .ok none => { s with place := .top }
  | .ok (some message) =>
    let s := { s with
      produced := s.produced ++ [message]
      captured := s.captured ++ [(s.currentId, frame)] }
    if s.frameId.toNat + 1 < 2 ^ 64 then
      { s with frameId := s.frameId + 1, channel := some message, place := .top }
    else { s with place := .done }

def State.thread (jpeg : Jpeg) (s : State lib) (shot : Except String Screenshot) : State lib :=
  match s.place with
  | .starting => { s with currentId := s.active.activeId, place := .top }
  | .top => { s with place := if s.stop then .done else .loading }
  | .loading =>
    let requested := s.active.activeId
    if requested ≠ s.currentId then
      -- a delta against the old monitor would be wrong even at equal sizes
      { s with
        encoder := s.encoder.forceKeyframe
        asked := s.asked ++ [.forceKeyframe]
        currentId := requested
        place := .reserving }
    else { s with place := .reserving }
  | .reserving =>
    if s.receiverGone then { s with place := .done }
    else { s with place := if s.channel.isSome then .top else .capturing }
  | .capturing =>
    match shot with
    | .error _ => { s with place := .done }
    | .ok frame =>
      s.encoded frame.toRgbaFrame (s.encoder.encode jpeg s.currentId s.frameId frame.toRgbaFrame)
  | .done => s

def State.recv (s : State lib) : State lib :=
  if s.receiverGone then s
  else { s with channel := none, drained := s.drained ++ s.channel.toList }

def step (jpeg : Jpeg) (monitors : List MonitorInfo) (s : State lib) : Event → State lib
  | .command c => s.control (commandArm s.active c)
  | .message m => s.control (messageArm monitors s.active m)
  | .thread shot => s.thread jpeg shot
  | .recv => s.recv
  | .hangUp => { s with receiverGone := true }

variable {jpeg : Jpeg} {s : State lib}

def Countable (s : State lib) : Event → Prop
  | .thread (.ok _) => s.place = .capturing → s.frameId.toNat + 1 < 2 ^ 64
  | _ => True

instance (s : State lib) : ∀ e, Decidable (Countable s e)
  | .thread (.ok _) => inferInstanceAs (Decidable (_ → _))
  | .thread (.error _) => .isTrue trivial
  | .command _ => .isTrue trivial
  | .message _ => .isTrue trivial
  | .recv => .isTrue trivial
  | .hangUp => .isTrue trivial

structure Ordered (s : State lib) : Prop where
  handedOver : s.produced = s.drained ++ s.channel.toList
  reserved : s.place = .capturing → s.channel = none
  counted : s.frameId.toNat = s.produced.length
  numbered : ∀ pre message post, s.produced = pre ++ message :: post →
    message.frameId.toNat = pre.length

theorem Ordered.start (encoder : VideoEncoder lib) (active : MonitorInfo) :
    Ordered (start encoder active) where
  handedOver := rfl
  reserved := fun _ => rfl
  counted := rfl
  numbered := fun pre _ _ hsplit => by cases pre <;> cases hsplit

theorem Ordered.moved (h : Ordered s) {place : Place}
    (hfree : place = .capturing → s.channel = none) :
    Ordered { s with place := place } :=
  { h with reserved := hfree }

theorem Ordered.encoded (h : Ordered s) (hplace : s.place = .capturing) (frame : RgbaFrame)
    (hcount : s.frameId.toNat + 1 < 2 ^ 64) :
    Ordered (s.encoded frame (s.encoder.encode jpeg s.currentId s.frameId frame)) := by
  unfold State.encoded
  dsimp only
  split
  · exact { h with reserved := fun hplace => by cases hplace }
  · exact { h with reserved := fun hplace => by cases hplace }
  · rename_i message hencode
    obtain ⟨-, hid⟩ := VideoEncoder.encode_labels hencode
    rw [if_pos hcount]
    exact {
      handedOver := by
        have hhanded := h.handedOver
        rw [h.reserved hplace, Option.toList_none, List.append_nil] at hhanded
        rw [hhanded]
        rfl
      reserved := fun hplace => by cases hplace
      counted := by
        have hnext : (s.frameId + 1).toNat = s.frameId.toNat + 1 := by
          rw [UInt64.toNat_add]
          exact Nat.mod_eq_of_lt hcount
        rw [List.length_append, ← h.counted]
        exact hnext
      numbered := fun pre message post hsplit => by
        rcases split_last hsplit with ⟨-, rfl, rfl⟩ | ⟨rest, -, hold⟩
        · rw [hid, h.counted]
        · exact h.numbered pre message rest hold }

theorem Ordered.thread (h : Ordered s) (shot : Except String Screenshot)
    (hok : Countable s (.thread shot)) : Ordered (s.thread jpeg shot) := by
  unfold State.thread
  cases hplace : s.place with
  | starting => exact { h with reserved := fun hplace => by cases hplace }
  | top => exact h.moved fun hplace => by split_ifs at hplace
  | loading =>
    dsimp only
    split_ifs
    · exact { h with reserved := fun hplace => by cases hplace }
    · exact h.moved fun hplace => by cases hplace
  | reserving =>
    dsimp only
    split_ifs with hgone hfull
    · exact h.moved fun hplace => by cases hplace
    · exact h.moved fun hplace => by cases hplace
    · exact h.moved fun _ => Option.not_isSome_iff_eq_none.mp hfull
  | capturing =>
    cases shot with
    | error e => exact h.moved fun hplace => by cases hplace
    | ok shot => exact h.encoded hplace shot.toRgbaFrame (hok hplace)
  | done => exact h

theorem Ordered.recv (h : Ordered s) : Ordered s.recv := by
  rw [State.recv]
  split_ifs
  · exact h
  · refine { h with handedOver := ?_, reserved := fun _ => rfl }
    rw [h.handedOver]
    exact (List.append_nil _).symm

theorem Ordered.control (h : Ordered s) (arm : Arm) : Ordered (s.control arm) := by
  cases arm with
  | exit reason => exact { h with }
  | next active input reply =>
    rw [State.control]
    split_ifs
    · exact h
    · exact { h with }

theorem Ordered.step (monitors : List MonitorInfo) (h : Ordered s) (e : Event)
    (hok : Countable s e) : Ordered (step jpeg monitors s e) := by
  cases e with
  | command c => exact h.control _
  | message m => exact h.control _
  | thread shot => exact h.thread shot hok
  | recv => exact h.recv
  | hangUp => exact { h with }

def ask (jpeg : Jpeg) (enc : VideoEncoder lib) : Asked → VideoEncoder lib
  | .forceKeyframe => enc.forceKeyframe
  | .encode monitorId frameId frame => (enc.encode jpeg monitorId frameId frame).1

def StartsOver (asked : List Asked) : Prop :=
  ∀ pre m f frame m' f' frame' post,
    asked = pre ++ .encode m f frame :: .encode m' f' frame' :: post → m = m'

/-- The last frame asked for, unless a keyframe was forced since, is of the current monitor. -/
structure Asks (jpeg : Jpeg) (encoder : VideoEncoder lib) (s : State lib) : Prop where
  replays : s.encoder = s.asked.foldl (ask jpeg) encoder
  startsOver : StartsOver s.asked
  current : ∀ pre m f frame, s.asked = pre ++ [.encode m f frame] → m = s.currentId
  fresh : s.place = .starting → s.asked = []

variable {encoder : VideoEncoder lib}

theorem StartsOver.snoc {asked : List Asked} (h : StartsOver asked) {next : Asked}
    (hnext : ∀ pre m f frame m' f' frame', asked = pre ++ [.encode m f frame] →
      next = .encode m' f' frame' → m = m') : StartsOver (asked ++ [next]) := by
  intro pre m f frame m' f' frame' post hsplit
  have hsplit' :
      asked ++ [next] = (pre ++ [.encode m f frame]) ++ .encode m' f' frame' :: post := by
    rw [hsplit, List.append_assoc]
    rfl
  rcases split_last hsplit' with ⟨-, hbefore, hlast⟩ | ⟨rest, -, hold⟩
  · exact hnext pre m f frame m' f' frame' hbefore.symm hlast.symm
  · exact h pre m f frame m' f' frame' rest (by rw [hold, List.append_assoc]; rfl)

theorem Asks.encoded (h : Asks jpeg encoder s) (frame : RgbaFrame) :
    Asks jpeg encoder (s.encoded frame (s.encoder.encode jpeg s.currentId s.frameId frame)) := by
  have hreplays : (s.encoder.encode jpeg s.currentId s.frameId frame).1 =
      (s.asked ++ [Asked.encode s.currentId s.frameId frame]).foldl (ask jpeg) encoder := by
    rw [Runs.run_snoc, ← h.replays]
    rfl
  have hover : StartsOver (s.asked ++ [.encode s.currentId s.frameId frame]) := by
    apply h.startsOver.snoc
    intro pre m f frame m' f' frame' hbefore hlast
    cases hlast
    exact h.current pre m f frame hbefore
  have hcurrent (pre : List Asked) (m : UInt32) (f : UInt64) (frame' : RgbaFrame)
      (hlast : s.asked ++ [.encode s.currentId s.frameId frame] = pre ++ [.encode m f frame']) :
      m = s.currentId := by
    obtain ⟨-, hlast⟩ := List.append_inj' hlast rfl
    cases hlast
    rfl
  unfold State.encoded
  dsimp only
  split
  · exact ⟨hreplays, hover, hcurrent, fun hplace => by cases hplace⟩
  · exact ⟨hreplays, hover, hcurrent, fun hplace => by cases hplace⟩
  · split_ifs
    · exact ⟨hreplays, hover, hcurrent, fun hplace => by cases hplace⟩
    · exact ⟨hreplays, hover, hcurrent, fun hplace => by cases hplace⟩

theorem Asks.moved (h : Asks jpeg encoder s) {place : Place} (hplace : place ≠ .starting) :
    Asks jpeg encoder { s with place := place } :=
  { h with fresh := fun hstart => absurd hstart hplace }

theorem Asks.thread (h : Asks jpeg encoder s) (shot : Except String Screenshot) :
    Asks jpeg encoder (s.thread jpeg shot) := by
  unfold State.thread
  cases hplace : s.place with
  | starting =>
    refine { h with
      current := fun pre m f frame hlast => ?_
      fresh := fun hplace => by cases hplace }
    rw [h.fresh hplace] at hlast
    simp at hlast
  | top => exact h.moved (by split_ifs <;> simp)
  | loading =>
    dsimp only
    split_ifs
    · refine ⟨?_, ?_, fun pre m f frame hlast => ?_, fun hplace => by cases hplace⟩
      · rw [Runs.run_snoc, ← h.replays]
        rfl
      · exact h.startsOver.snoc fun _ _ _ _ _ _ _ _ hnext => by cases hnext
      · obtain ⟨-, hlast⟩ := List.append_inj' hlast rfl
        cases hlast
    · exact h.moved (by simp)
  | reserving =>
    dsimp only
    split_ifs
    · exact h.moved (by simp)
    · exact h.moved (by simp)
    · exact h.moved (by simp)
  | capturing =>
    cases shot with
    | error e => exact h.moved (by simp)
    | ok shot => exact h.encoded shot.toRgbaFrame
  | done => exact h

theorem Asks.step (monitors : List MonitorInfo) (h : Asks jpeg encoder s) (e : Event) :
    Asks jpeg encoder (step jpeg monitors s e) := by
  have hcontrol (arm : Arm) : Asks jpeg encoder (s.control arm) := by
    cases arm with
    | exit reason => exact { h with }
    | next active input reply =>
      rw [State.control]
      split_ifs
      · exact h
      · exact { h with }
  cases e with
  | command c => exact hcontrol _
  | message m => exact hcontrol _
  | thread shot => exact h.thread shot
  | recv =>
    simp only [CaptureLoop.step, State.recv]
    split_ifs
    · exact h
    · exact { h with }
  | hangUp => exact { h with }

theorem asks_start (jpeg : Jpeg) (encoder : VideoEncoder lib) (active : MonitorInfo) :
    Asks jpeg encoder (start encoder active) where
  replays := rfl
  startsOver := fun pre m f frame m' f' frame' post hsplit => by cases pre <;> cases hsplit
  current := fun pre m f frame hlast => by cases pre <;> cases hlast
  fresh := fun _ => rfl

def Adjoins (pre : List ScreenFrame) (message : ScreenFrame) : Prop :=
  message.encoding = .tileDelta → ∃ early prev, pre = early ++ [prev] ∧
    message.monitorId = prev.monitorId ∧ message.widthPx = prev.widthPx ∧
    message.heightPx = prev.heightPx

/-- A fresh decoder takes every message produced so far, and after each of them it shows the
frame that was captured for it. -/
def Viewable (jpeg : Jpeg) (codec : VideoCodec) (s : State lib) : Prop :=
  ∃ dec shown, decodeAll jpeg s.produced = .ok (dec, shown.map Shown.canvas) ∧
    shown.map Shown.message = s.produced ∧
    shown.map (fun x => (x.message.monitorId, x.source)) = s.captured ∧
    ∀ pre x post, shown = pre ++ x :: post → Shows jpeg codec pre x

structure Unmixed (jpeg : Jpeg) (codec : VideoCodec) (s : State lib) : Prop where
  handedOver : s.produced = s.drained ++ s.channel.toList
  numbered : ∀ pre message post, s.produced = pre ++ message :: post →
    message.frameId.toNat = pre.length
  adjoins : ∀ pre message post, s.produced = pre ++ message :: post → Adjoins pre message
  viewable : Viewable jpeg codec s

def usesJpeg : VideoEncoder lib → Bool
  | .tiles enc => enc.codec == .jpegTiles
  | .h264 _ => false

def Representable (s : State lib) : Event → Prop
  | .thread (.ok shot) => s.place = .capturing →
    (usesJpeg s.encoder = true → shot.Fits) ∧ s.frameId.toNat + 1 < 2 ^ 64
  | _ => True

instance (s : State lib) : ∀ e, Decidable (Representable s e)
  | .thread (.ok _) => inferInstanceAs (Decidable (_ → _))
  | .thread (.error _) => .isTrue trivial
  | .command _ => .isTrue trivial
  | .message _ => .isTrue trivial
  | .recv => .isTrue trivial
  | .hangUp => .isTrue trivial

theorem Representable.countable {e : Event} (h : Representable s e) : Countable s e := by
  cases e with
  | thread shot =>
    cases shot with
    | error e => trivial
    | ok shot => exact fun hplace => (h hplace).2
  | _ => trivial

/-- The tile encoder compares with the last message of the current monitor. -/
structure Tiled (jpeg : Jpeg) (codec : VideoCodec) (enc : TileEncoder) (dec : TileDecoder)
    (shown : List Shown) (s : State lib) : Prop where
  encoder : s.encoder = .tiles enc
  coded : ∀ message ∈ s.produced, message.codec = codec
  codec : enc.codec = codec
  adjoins : ∀ pre message post, s.produced = pre ++ message :: post → Adjoins pre message
  fresh : s.place = .starting → enc.previous = none
  monitor : ∀ prev, enc.previous = some prev → ∃ early message,
    s.produced = early ++ [message] ∧ message.monitorId = s.currentId ∧
    message.widthPx = prev.width ∧ message.heightPx = prev.height
  decoded : decodeAll jpeg s.produced = .ok (dec, shown.map Shown.canvas)
  messages : shown.map Shown.message = s.produced
  sources : shown.map (fun x => (x.message.monitorId, x.source)) = s.captured
  synced : Synced jpeg enc dec shown

variable {codec : VideoCodec} {enc : TileEncoder} {dec : TileDecoder} {shown : List Shown}

theorem tiled_start (jpeg : Jpeg) (codec : VideoCodec) (active : MonitorInfo) :
    Tiled jpeg codec (.new codec) .new [] (start (.tiles (.new codec)) active : State lib) where
  encoder := rfl
  coded := fun _ hmem => by cases hmem
  codec := rfl
  adjoins := fun pre _ _ hsplit => by cases pre <;> cases hsplit
  fresh := fun _ => rfl
  monitor := fun _ hprev => by cases hprev
  decoded := rfl
  messages := rfl
  sources := rfl
  synced := .new jpeg codec

theorem Tiled.control (h : Tiled jpeg codec enc dec shown s) (arm : Arm) :
    Tiled jpeg codec enc dec shown (s.control arm) := by
  cases arm with
  | exit reason => exact { h with }
  | next active input reply =>
    rw [State.control]
    split_ifs
    · exact h
    · exact { h with }

theorem Tiled.recv (h : Tiled jpeg codec enc dec shown s) :
    Tiled jpeg codec enc dec shown s.recv := by
  rw [State.recv]
  split_ifs
  · exact h
  · exact { h with }

theorem Tiled.moved (h : Tiled jpeg codec enc dec shown s) {place : Place}
    (hstart : place ≠ .starting) : Tiled jpeg codec enc dec shown { s with place := place } :=
  { h with fresh := fun hplace => absurd hplace hstart }

theorem Tiled.selected (h : Tiled jpeg codec enc dec shown s) (id : UInt32) :
    Tiled jpeg codec enc.forceKeyframe dec shown
      { s with
        encoder := s.encoder.forceKeyframe
        asked := s.asked ++ [.forceKeyframe]
        currentId := id
        place := .reserving } :=
  { h with
    encoder := by
      rw [h.encoder]
      rfl
    codec := h.codec
    fresh := fun _ => rfl
    monitor := fun _ hprev => by cases hprev
    synced := h.synced.forceKeyframe }

theorem Tiled.adjoins_next {message : ScreenFrame} {enc' : TileEncoder} {frame : RgbaFrame}
    (h : Tiled jpeg codec enc dec shown s)
    (hencode : enc.encode jpeg s.currentId s.frameId frame = .ok (message, enc')) :
    Adjoins s.produced message := by
  intro hdelta
  obtain ⟨-, hlabels, hfull⟩ := encode_labels hencode
  have hsend := hfull hdelta
  rw [TileEncoder.sendFull] at hsend
  cases hprev : enc.previous with
  | none =>
    rw [hprev] at hsend
    cases hsend
  | some prev =>
    rw [hprev, Bool.not_eq_false'] at hsend
    obtain ⟨hw, hh⟩ := RgbaFrame.sameSize_iff.mp hsend
    obtain ⟨early, last, hproduced, hid, hwidth, hheight⟩ := h.monitor prev hprev
    refine ⟨early, last, hproduced, hlabels.monitorId.trans hid.symm, ?_, ?_⟩
    · rw [hlabels.width, hwidth, hw]
    · rw [hlabels.height, hheight, hh]

theorem Tiled.produced (h : Tiled jpeg codec enc dec shown s) {x : Shown} {t : State lib}
    (hencode : enc.encode jpeg s.currentId s.frameId x.source =
      .ok (x.message, ⟨enc.codec, some x.source⟩))
    (hdecode : dec.decode jpeg x.message = (⟨some x.canvas⟩, .ok x.canvas))
    (hsynced : Synced jpeg ⟨enc.codec, some x.source⟩ ⟨some x.canvas⟩ (shown ++ [x]))
    (hencoder : t.encoder = .tiles ⟨enc.codec, some x.source⟩)
    (hproduced : t.produced = s.produced ++ [x.message])
    (hcaptured : t.captured = s.captured ++ [(s.currentId, x.source)])
    (hid : t.currentId = s.currentId) (hplace : t.place ≠ .starting) :
    Tiled jpeg codec ⟨enc.codec, some x.source⟩ ⟨some x.canvas⟩ (shown ++ [x]) t := by
  obtain ⟨-, hlabels, -⟩ := encode_labels hencode
  exact {
    encoder := hencoder
    coded := fun message hmem => by
      rw [hproduced] at hmem
      rcases List.mem_append.mp hmem with hold | hnew
      · exact h.coded message hold
      · rw [List.mem_singleton.mp hnew, hlabels.codec, h.codec]
    codec := h.codec
    adjoins := fun pre message post hsplit => by
      rw [hproduced] at hsplit
      rcases split_last hsplit with ⟨-, rfl, rfl⟩ | ⟨rest, -, hold⟩
      · exact h.adjoins_next hencode
      · exact h.adjoins pre message rest hold
    fresh := fun hstart => absurd hstart hplace
    monitor := fun prev hprev => by
      cases hprev
      exact ⟨s.produced, x.message, hproduced, hlabels.monitorId.trans hid.symm, hlabels.width,
        hlabels.height⟩
    decoded := by
      rw [hproduced, List.map_append]
      exact decodeAll_snoc h.decoded hdecode
    messages := by
      rw [hproduced, List.map_append, h.messages]
      rfl
    sources := by
      rw [hcaptured, List.map_append, h.sources, List.map_singleton, hlabels.monitorId]
    synced := hsynced }

theorem Tiled.encoded (hj : jpeg.RoundTripsTo maxSide) (he : jpeg.RefusesEmpty)
    (h : Tiled jpeg codec enc dec shown s) (shot : Screenshot)
    (hfits : usesJpeg s.encoder = true → shot.Fits) :
    ∃ enc' dec' shown', Tiled jpeg codec enc' dec' shown' (s.encoded shot.toRgbaFrame
      (s.encoder.encode jpeg s.currentId s.frameId shot.toRgbaFrame)) := by
  rw [h.encoder] at hfits ⊢
  have hfits' : enc.codec = .jpegTiles → shot.Fits :=
    fun hcodec => hfits (by simp [usesJpeg, hcodec])
  rcases h.synced.goesThrough hj he shot hfits' with ⟨stop, hrefused⟩ | ⟨x, hx⟩
  · refine ⟨enc, dec, shown, ?_⟩
    rw [VideoEncoder.encode, hrefused, State.encoded]
    rcases stop with f | e
    all_goals exact { h with
      encoder := rfl
      fresh := fun hplace => by cases hplace }
  · obtain ⟨hsource, hencode, hdecode, hsynced⟩ := hx
    rw [← hsource] at hencode hsynced ⊢
    refine ⟨_, _, _, h.produced hencode hdecode hsynced ?_ ?_ ?_ ?_ ?_⟩
    all_goals
      rw [VideoEncoder.encode, hencode, State.encoded]
      dsimp only [asVideo]
      split_ifs
    all_goals first | rfl | simp

theorem Tiled.thread (hj : jpeg.RoundTripsTo maxSide) (he : jpeg.RefusesEmpty)
    (h : Tiled jpeg codec enc dec shown s) (shot : Except String Screenshot)
    (hok : Representable s (.thread shot)) :
    ∃ enc' dec' shown', Tiled jpeg codec enc' dec' shown' (s.thread jpeg shot) := by
  unfold State.thread
  cases hplace : s.place with
  | starting =>
    have htop : Tiled jpeg codec enc dec shown { s with place := .top } := h.moved (by simp)
    refine ⟨enc, dec, shown, { htop with monitor := ?_ }⟩
    intro prev hprev
    exact absurd ((h.fresh hplace).symm.trans hprev) (by simp)
  | top => exact ⟨enc, dec, shown, h.moved (by split_ifs <;> simp)⟩
  | loading =>
    dsimp only
    split_ifs
    · exact ⟨_, dec, shown, h.selected _⟩
    · exact ⟨enc, dec, shown, h.moved (by simp)⟩
  | reserving =>
    dsimp only
    split_ifs
    · exact ⟨enc, dec, shown, h.moved (by simp)⟩
    · exact ⟨enc, dec, shown, h.moved (by simp)⟩
    · exact ⟨enc, dec, shown, h.moved (by simp)⟩
  | capturing =>
    cases shot with
    | error e => exact ⟨enc, dec, shown, h.moved (by simp)⟩
    | ok shot => exact h.encoded hj he shot (hok hplace).1
  | done => exact ⟨enc, dec, shown, h⟩

theorem Tiled.step (hj : jpeg.RoundTripsTo maxSide) (he : jpeg.RefusesEmpty)
    (monitors : List MonitorInfo) (h : Tiled jpeg codec enc dec shown s) (e : Event)
    (hok : Representable s e) :
    ∃ enc' dec' shown', Tiled jpeg codec enc' dec' shown' (step jpeg monitors s e) := by
  cases e with
  | command c => exact ⟨enc, dec, shown, h.control _⟩
  | message m => exact ⟨enc, dec, shown, h.control _⟩
  | thread shot => exact h.thread hj he shot hok
  | recv => exact ⟨enc, dec, shown, h.recv⟩
  | hangUp => exact ⟨enc, dec, shown, { h with }⟩

structure Sound (jpeg : Jpeg) (codec : VideoCodec) (s : State lib) : Prop where
  ordered : Ordered s
  tiled : ∃ enc dec shown, Tiled jpeg codec enc dec shown s

theorem sound_start (jpeg : Jpeg) (codec : VideoCodec) (active : MonitorInfo) :
    Sound jpeg codec (start (.tiles (.new codec)) active : State lib) :=
  ⟨.start _ active, _, _, _, tiled_start jpeg codec active⟩

theorem Sound.step (hj : jpeg.RoundTripsTo maxSide) (he : jpeg.RefusesEmpty)
    (monitors : List MonitorInfo) (h : Sound jpeg codec s) (e : Event) (hok : Representable s e) :
    Sound jpeg codec (step jpeg monitors s e) := by
  obtain ⟨enc, dec, shown, htiled⟩ := h.tiled
  exact ⟨h.ordered.step monitors e hok.countable, htiled.step hj he monitors e hok⟩

theorem monitors_never_mix (lib : OpenH264) (jpeg : Jpeg) (hj : jpeg.RoundTripsTo maxSide)
    (he : jpeg.RefusesEmpty) (codec : VideoCodec) (head : MonitorInfo) (rest : List MonitorInfo)
    (es : List Event) (hok : Runs.Meets (step jpeg (head :: rest)) Representable
      (start (.tiles (.new codec)) (firstMonitor head rest) : State lib) es) :
    Unmixed jpeg codec (es.foldl (step jpeg (head :: rest))
      (start (.tiles (.new codec)) (firstMonitor head rest) : State lib)) := by
  have hsound := Runs.invariant_of_meets (sound_start jpeg codec _) hok
    fun s e hs hrep => hs.step hj he (head :: rest) e hrep
  obtain ⟨enc, dec, shown, htiled⟩ := hsound.tiled
  refine ⟨hsound.ordered.handedOver, hsound.ordered.numbered, htiled.adjoins, dec, shown,
    htiled.decoded, htiled.messages, htiled.sources, ?_⟩
  have hshows := htiled.synced.shows
  rwa [htiled.codec] at hshows

def idle : List Event := List.replicate 3 (.thread (.error ""))

def firstFrame : List Event := .thread (.error "") :: idle

def firstScreen : MonitorInfo := ⟨0, "first", 0, 0, 2, 1, true⟩

def secondScreen : MonitorInfo := ⟨1, "second", 2, 0, 2, 1, false⟩

/-- Two monitors of equal size: only the forced keyframe keeps them apart. -/
def switching : List Event :=
  firstFrame ++ [.thread (.ok greyShot), .message (some (.selectMonitor 1))] ++ idle ++ [.recv] ++
    idle ++ [.thread (.ok greyShot)]

theorem monitors_never_mix_switching : Unmixed strictJpeg .jpegTiles
    (switching.foldl (step strictJpeg [firstScreen, secondScreen])
      (start (.tiles (.new .jpegTiles)) (firstMonitor firstScreen [secondScreen]) :
        State sampleOpenH264)) := by
  apply monitors_never_mix sampleOpenH264 strictJpeg strictJpeg_roundTrips strictJpeg_refusesEmpty
  decide

/-- A fresh decoder takes no picture of 16385 columns. -/
theorem wide_capture_fails : strictJpeg.RoundTripsTo maxSide ∧ strictJpeg.RefusesEmpty ∧
    ¬ Unmixed strictJpeg .jpegTiles
      ((firstFrame ++ [Event.thread (.ok wideShot)]).foldl (step strictJpeg [firstScreen])
        (start (.tiles (.new .jpegTiles)) (firstMonitor firstScreen []) :
          State sampleOpenH264)) := by
  refine ⟨strictJpeg_roundTrips, strictJpeg_refusesEmpty, fun hunmixed => ?_⟩
  obtain ⟨dec, shown, hdecoded, -⟩ := hunmixed.viewable
  let before : State sampleOpenH264 :=
    { start (.tiles (.new .jpegTiles)) firstScreen with place := .capturing }
  have hbefore : firstFrame.foldl (step strictJpeg [firstScreen])
      (start (.tiles (.new .jpegTiles)) (firstMonitor firstScreen [])) = before := rfl
  have hlast : step strictJpeg [firstScreen] before (.thread (.ok wideShot)) =
      before.encoded wideShot.toRgbaFrame
        (VideoEncoder.encode strictJpeg (.tiles (.new .jpegTiles)) 0 0 wideShot.toRgbaFrame) := rfl
  rw [Runs.run_snoc, hbefore, hlast, VideoEncoder.encode, encode_wide] at hdecoded
  cases hdecoded.symm.trans decodeAll_wide

end Controlis.Session.CaptureLoop
