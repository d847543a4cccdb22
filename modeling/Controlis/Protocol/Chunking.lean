import Mathlib.Data.List.Forall2
import Controlis.Protocol.Framing

/-!
# Frames do not depend on chunks

A caller of `FrameDecoder` hands over chunks and asks for frames in any order.
What it got so far, and what is left in the buffer, is a reading of all the bytes
handed over; once a call returns no frame this reading is the complete one, which
a stream has only one of. So chunks leave no trace in what comes out.
-/

namespace Controlis.Protocol
open Numeral

abbrev FrameResult := Except ProtocolError (Option (List UInt8))

def frameOf : FrameResult → Option (List UInt8)
  | .ok body => body
  | .error _ => none

inductive DecoderCall
  | extend (bytes : List UInt8)
  | nextFrame
deriving DecidableEq, Repr

def DecoderCall.bytes : DecoderCall → List UInt8
  | .extend bytes => bytes
  | .nextFrame => []

def FrameDecoder.call (d : FrameDecoder) : DecoderCall → FrameDecoder × List FrameResult
  | .extend bytes => (d.extend bytes, [])
  | .nextFrame => (d.nextFrame.1, [d.nextFrame.2])

def FrameDecoder.serve (d : FrameDecoder) : List DecoderCall → FrameDecoder × List FrameResult
  | [] => (d, [])
  | c :: cs => (((d.call c).1.serve cs).1, (d.call c).2 ++ ((d.call c).1.serve cs).2)

def fed (calls : List DecoderCall) : List UInt8 := calls.flatMap DecoderCall.bytes

def returned (results : List FrameResult) : List (List UInt8) := results.filterMap frameOf

def encodeWith {M : Type*} (toVec : M → Except String (List UInt8)) (message : M) :
    Except ProtocolError (List UInt8) :=
  match toVec message with
  | .error e => .error (.serialize e)
  | .ok body =>
    if maxMessageLen < body.length then .error (.messageTooLarge body.length) else .ok (frame body)

theorem encode_eq_encodeWith (postcard : Postcard) : encode postcard = encodeWith postcard.toVec :=
  rfl

def Exhausted (rest : List UInt8) : Prop :=
  ∀ body more, body.length ≤ maxMessageLen → rest ≠ frame body ++ more

def Oversized (rest : List UInt8) (len : ℕ) : Prop :=
  ∃ (word : UInt32) (more : List UInt8),
    rest = toLeBytes word ++ more ∧ word.toNat = len ∧ maxMessageLen < len

theorem toNat_ofNat_length {body : List UInt8} (h : body.length ≤ maxMessageLen) :
    (UInt32.ofNat body.length).toNat = body.length := by
  rw [UInt32.toNat_ofNat']
  apply Nat.mod_eq_of_lt
  calc body.length ≤ maxMessageLen := h
    _ < 2 ^ 32 := by decide

theorem take_frame (body more : List UInt8) :
    (frame body ++ more).take 4 = toLeBytes (.ofNat body.length) := by
  rw [frame, List.append_assoc]
  exact List.take_left' (length_toLeBytes _)

theorem drop_frame (body more : List UInt8) : (frame body ++ more).drop 4 = body ++ more := by
  rw [frame, List.append_assoc]
  exact List.drop_left' (length_toLeBytes _)

theorem length_frame (body : List UInt8) : (frame body).length = 4 + body.length := by
  rw [frame, List.length_append, length_toLeBytes]

theorem frame_append_inj {a b xs ys : List UInt8} (ha : a.length ≤ maxMessageLen)
    (hb : b.length ≤ maxMessageLen) (h : frame a ++ xs = frame b ++ ys) : a = b ∧ xs = ys := by
  have hword : toLeBytes (.ofNat a.length) = toLeBytes (.ofNat b.length) := by
    rw [← take_frame a xs, ← take_frame b ys, h]
  have hlen : a.length = b.length := by
    rw [← toNat_ofNat_length ha, ← toNat_ofNat_length hb, ← fromLeBytes_toLeBytes, hword,
      fromLeBytes_toLeBytes]
  have htail : a ++ xs = b ++ ys := by
    rw [← drop_frame a xs, ← drop_frame b ys, h]
  exact List.append_inj htail hlen

/-- A stream has one complete reading. -/
theorem Parsed.unique {stream rest rest' : List UInt8} {bodies bodies' : List (List UInt8)}
    (h : Parsed stream bodies rest) (h' : Parsed stream bodies' rest') (hrest : Exhausted rest)
    (hrest' : Exhausted rest') : bodies = bodies' ∧ rest = rest' := by
  obtain ⟨hstream, hlen⟩ := h
  obtain ⟨hstream', hlen'⟩ := h'
  induction bodies generalizing stream bodies' with
  | nil =>
    cases bodies' with
    | nil => exact ⟨rfl, hstream.symm.trans hstream'⟩
    | cons body' bodies' =>
      have heq : rest = frame body' ++ (bodies'.flatMap frame ++ rest') := by
        rw [← List.append_assoc, ← List.flatMap_cons, ← hstream', hstream]
        rfl
      exact absurd heq (hrest _ _ (hlen' _ (List.mem_cons_self ..)))
  | cons body bodies ih =>
    cases bodies' with
    | nil =>
      have heq : rest' = frame body ++ (bodies.flatMap frame ++ rest) := by
        rw [← List.append_assoc, ← List.flatMap_cons, ← hstream, hstream']
        rfl
      exact absurd heq (hrest' _ _ (hlen _ (List.mem_cons_self ..)))
    | cons body' bodies' =>
      rw [List.flatMap_cons, List.append_assoc] at hstream hstream'
      obtain ⟨rfl, htail⟩ := frame_append_inj (hlen _ (List.mem_cons_self ..))
        (hlen' _ (List.mem_cons_self ..)) (hstream.symm.trans hstream')
      obtain ⟨rfl, rfl⟩ := ih rfl (fun b hb => hlen b (List.mem_cons_of_mem _ hb)) htail
        fun b hb => hlen' b (List.mem_cons_of_mem _ hb)
      exact ⟨rfl, rfl⟩

theorem exhausted_nil : Exhausted [] := by
  intro body more _ h
  have hlen := congrArg List.length h
  rw [List.length_append, length_frame, List.length_nil] at hlen
  omega

theorem Oversized.exhausted {rest : List UInt8} {len : ℕ} (h : Oversized rest len) :
    Exhausted rest := by
  obtain ⟨word, more, rfl, hword, hlen⟩ := h
  intro body tail hbody heq
  have htake := congrArg (List.take 4) heq
  rw [take_frame, List.take_left' (length_toLeBytes _)] at htake
  have hnat := congrArg fromLeBytes htake
  rw [fromLeBytes_toLeBytes, fromLeBytes_toLeBytes, toNat_ofNat_length hbody] at hnat
  omega

variable {d : FrameDecoder} {calls later : List DecoderCall} {bytes : List UInt8}

theorem nextFrame_of_frame {body more : List UInt8} (hbody : body.length ≤ maxMessageLen)
    (hbuffer : d.buffer = frame body ++ more) : d.nextFrame = (⟨more⟩, .ok (some body)) := by
  have hlen : d.buffer.length = 4 + body.length + more.length := by
    rw [hbuffer, List.length_append, length_frame]
  have hread : fromLeBytes (d.buffer.take 4) = body.length := by
    rw [hbuffer, take_frame, fromLeBytes_toLeBytes, toNat_ofNat_length hbody]
  have hrest : d.buffer.drop (4 + body.length) = more := by
    rw [hbuffer]
    exact List.drop_left' (length_frame body)
  have htake : (d.buffer.drop 4).take body.length = body := by
    rw [hbuffer, drop_frame]
    exact List.take_left' rfl
  simp only [FrameDecoder.nextFrame, hread, hrest, htake]
  rw [if_neg (by omega), if_neg (by omega), if_neg (by omega)]

theorem nextFrame_takes {body : List UInt8} (h : frameOf d.nextFrame.2 = some body) :
    d.buffer = frame body ++ d.nextFrame.1.buffer ∧ body.length ≤ maxMessageLen := by
  apply nextFrame_some
  cases hr : d.nextFrame.2 with
  | error e =>
    rw [hr] at h
    cases h
  | ok b =>
    rw [hr] at h
    obtain rfl : b = some body := h
    rw [← hr]

theorem nextFrame_none : frameOf d.nextFrame.2 = none ↔ Exhausted d.buffer := by
  constructor
  · intro hnone body more hbody hbuffer
    rw [nextFrame_of_frame hbody hbuffer] at hnone
    cases hnone
  · intro hrest
    cases hbody : frameOf d.nextFrame.2 with
    | none => rfl
    | some body =>
      obtain ⟨hbuffer, hlen⟩ := nextFrame_takes hbody
      exact absurd hbuffer (hrest body _ hlen)

theorem nextFrame_keeps (h : frameOf d.nextFrame.2 = none) : d.nextFrame.1 = d := by
  have heq : d.nextFrame = (d.nextFrame.1, d.nextFrame.2) := rfl
  apply nextFrame_unchanged heq
  intro body hbody
  rw [hbody] at h
  cases h

theorem nextFrame_error {e : ProtocolError} :
    d.nextFrame.2 = .error e ↔ ∃ len, e = .messageTooLarge len ∧ Oversized d.buffer len := by
  constructor
  · intro h
    simp only [FrameDecoder.nextFrame] at h
    split_ifs at h with hshort hlarge hpart
    cases h
    refine ⟨_, rfl, .ofNat (fromLeBytes (d.buffer.take 4)), d.buffer.drop 4, ?_, ?_, hlarge⟩
    · rw [toLeBytes_fromLeBytes, List.take_append_drop]
      rw [List.length_take]
      omega
    · have hlt := fromLeBytes_lt (d.buffer.take 4)
      rw [List.length_take, Nat.min_eq_left (not_lt.mp hshort)] at hlt
      rw [UInt32.toNat_ofNat']
      exact Nat.mod_eq_of_lt hlt
  · rintro ⟨len, rfl, word, more, hbuffer, hword, hlen⟩
    have htake : d.buffer.take 4 = toLeBytes word := by
      rw [hbuffer]
      exact List.take_left' (length_toLeBytes _)
    have hshort : ¬ d.buffer.length < 4 := by
      rw [hbuffer, List.length_append, length_toLeBytes]
      omega
    simp only [FrameDecoder.nextFrame, htake, fromLeBytes_toLeBytes, hword]
    rw [if_neg hshort, if_pos hlen]

theorem fed_cons (c : DecoderCall) (calls : List DecoderCall) :
    fed (c :: calls) = c.bytes ++ fed calls := List.flatMap_cons

/-- What was returned and what is buffered reads all the bytes there were. -/
theorem serve_parsed (d : FrameDecoder) (calls : List DecoderCall) :
    Parsed (d.buffer ++ fed calls) (returned (d.serve calls).2) (d.serve calls).1.buffer := by
  induction calls generalizing d with
  | nil =>
    rw [fed, List.flatMap_nil, List.append_nil]
    exact parsed_nil _
  | cons c calls ih =>
    rw [fed_cons, ← List.append_assoc]
    cases c with
    | extend bytes => exact ih (d.extend bytes)
    | nextFrame =>
      have hrest := ih d.nextFrame.1
      simp only [FrameDecoder.serve, FrameDecoder.call, DecoderCall.bytes, List.append_nil]
      rw [returned, List.filterMap_append]
      cases hbody : frameOf d.nextFrame.2 with
      | none =>
        rw [nextFrame_keeps hbody] at hrest ⊢
        simpa [returned, hbody] using hrest
      | some body =>
        obtain ⟨hbuffer, hlen⟩ := nextFrame_takes hbody
        obtain ⟨hstream, hall⟩ := hrest
        refine ⟨?_, ?_⟩
        · rw [hbuffer, List.append_assoc, hstream]
          simp [hbody, returned]
        · intro b hb
          rcases List.mem_append.mp hb with hb | hb
          · obtain rfl : b = body := by simpa [hbody] using hb
            exact hlen
          · exact hall b hb

theorem exists_drained (d : FrameDecoder) :
    ∃ n, frameOf (d.serve (List.replicate n .nextFrame)).1.nextFrame.2 = none := by
  obtain ⟨n, hn⟩ : ∃ n, d.buffer.length = n := ⟨_, rfl⟩
  induction n using Nat.strong_induction_on generalizing d with
  | _ n ih =>
    cases hbody : frameOf d.nextFrame.2 with
    | none => exact ⟨0, hbody⟩
    | some body =>
      obtain ⟨hbuffer, -⟩ := nextFrame_takes hbody
      have hlt : d.nextFrame.1.buffer.length < n := by
        rw [← hn, hbuffer, List.length_append, length_frame]
        omega
      obtain ⟨k, hk⟩ := ih _ hlt d.nextFrame.1 rfl
      exact ⟨k + 1, hk⟩

theorem Oversized.append {rest : List UInt8} {len : ℕ} (h : Oversized rest len)
    (bytes : List UInt8) : Oversized (rest ++ bytes) len := by
  obtain ⟨word, more, rfl, hword, hlen⟩ := h
  exact ⟨word, more ++ bytes, List.append_assoc .., hword, hlen⟩

/-- Behind an oversized length every call fails alike, and the buffer only grows. -/
theorem serve_oversized {len : ℕ} (h : Oversized d.buffer len) (calls : List DecoderCall) :
    (∀ r ∈ (d.serve calls).2, r = .error (.messageTooLarge len)) ∧
      (d.serve calls).1.buffer = d.buffer ++ fed calls := by
  induction calls generalizing d with
  | nil => exact ⟨fun r hr => (by cases hr), (List.append_nil _).symm⟩
  | cons c calls ih =>
    rw [fed_cons, ← List.append_assoc]
    cases c with
    | extend bytes => exact ih (h.append bytes)
    | nextFrame =>
      have hkeep : d.nextFrame.1 = d := nextFrame_keeps (nextFrame_none.mpr h.exhausted)
      obtain ⟨hall, hbuffer⟩ := ih h
      simp only [FrameDecoder.serve, FrameDecoder.call, DecoderCall.bytes, List.append_nil]
      rw [hkeep]
      refine ⟨fun r hr => ?_, hbuffer⟩
      rcases List.mem_cons.mp hr with rfl | hr
      · exact nextFrame_error.mpr ⟨len, rfl, h⟩
      · exact hall r hr

theorem encodeWith_ok {M : Type*} {toVec : M → Except String (List UInt8)} {m : M}
    (h : encodeWith toVec m = .ok bytes) :
    ∃ body, toVec m = .ok body ∧ body.length ≤ maxMessageLen ∧ bytes = frame body := by
  simp only [encodeWith] at h
  cases hbody : toVec m with
  | error e =>
    rw [hbody] at h
    cases h
  | ok body =>
    rw [hbody] at h
    dsimp only at h
    split_ifs at h with hlen
    cases h
    exact ⟨body, rfl, not_lt.mp hlen, rfl⟩

theorem parsed_encodings {M : Type*} {toVec : M → Except String (List UInt8)} {ms : List M}
    {encodings : List (List UInt8)}
    (h : List.Forall₂ (fun m bytes => encodeWith toVec m = .ok bytes) ms encodings) :
    ∃ bodies, List.Forall₂ (fun m body => toVec m = .ok body) ms bodies ∧
      Parsed encodings.flatten bodies [] := by
  induction h with
  | nil => exact ⟨[], .nil, parsed_nil []⟩
  | cons hm _ ih =>
    obtain ⟨body, hbody, hlen, rfl⟩ := encodeWith_ok hm
    obtain ⟨bodies, hbodies, hstream, hall⟩ := ih
    refine ⟨body :: bodies, .cons hbody hbodies, ?_, ?_⟩
    · rw [List.flatten_cons, hstream, List.flatMap_cons, List.append_assoc]
    · intro b hb
      rcases List.mem_cons.mp hb with rfl | hb
      · exact hlen
      · exact hall b hb

theorem drained_unique {bodies : List (List UInt8)} {rest : List UInt8}
    (hnone : frameOf (FrameDecoder.new.serve calls).1.nextFrame.2 = none)
    (hread : Parsed (fed calls) bodies rest) (hrest : Exhausted rest) :
    returned (FrameDecoder.new.serve calls).2 = bodies ∧
      (FrameDecoder.new.serve calls).1.buffer = rest :=
  (serve_parsed .new calls).unique hread (nextFrame_none.mp hnone) hrest

/-- Whatever the chunks and the calls between them are, the frames returned are the first
frames of all the bytes, and all of them once a call returns no frame. -/
theorem framing_independent_of_chunking (calls : List DecoderCall) :
    let d := (FrameDecoder.new.serve calls).1
    let frames := returned (FrameDecoder.new.serve calls).2
    Parsed (fed calls) frames d.buffer ∧
    -- the next call returns no frame exactly behind the last one, and one gets there
    (frameOf d.nextFrame.2 = none ↔ Exhausted d.buffer) ∧
    (∃ n, frameOf (d.serve (List.replicate n .nextFrame)).1.nextFrame.2 = none) ∧
    (frameOf d.nextFrame.2 = none →
      (∀ bodies rest, Parsed (fed calls) bodies rest → Exhausted rest →
        frames = bodies ∧ d.buffer = rest) ∧
      -- other chunks and calls for the same bytes come to the same end
      ∀ others, fed others = fed calls →
        frameOf (FrameDecoder.new.serve others).1.nextFrame.2 = none →
        returned (FrameDecoder.new.serve others).2 = frames ∧
          (FrameDecoder.new.serve others).1 = d) ∧
    -- an oversized length is an error at its place, and from there on
    (∀ e, d.nextFrame.2 = .error e ↔ ∃ len, e = .messageTooLarge len ∧ Oversized d.buffer len) ∧
    (∀ e, d.nextFrame.2 = .error e → d.nextFrame.1 = d ∧ ∀ later,
      (∀ r ∈ (d.serve later).2, r = .error e) ∧ (d.serve later).1.buffer = d.buffer ++ fed later) ∧
    -- encodings come out as their bodies
    ∀ (M : Type) (toVec : M → Except String (List UInt8)) (ms : List M)
      (encodings : List (List UInt8)),
      List.Forall₂ (fun m bytes => encodeWith toVec m = .ok bytes) ms encodings →
      fed calls = encodings.flatten → frameOf d.nextFrame.2 = none →
      List.Forall₂ (fun m body => toVec m = .ok body) ms frames ∧ d.buffer = [] := by
  intro d frames
  refine ⟨serve_parsed .new calls, nextFrame_none, exists_drained d, fun hnone => ⟨?_, ?_⟩,
    fun e => nextFrame_error, fun e herror => ?_, ?_⟩
  · intro bodies rest hread hrest
    exact drained_unique hnone hread hrest
  · intro others hfed hothers
    have hread := serve_parsed .new calls
    obtain ⟨hframes, hbuffer⟩ := drained_unique hothers (hfed ▸ hread) (nextFrame_none.mp hnone)
    exact ⟨hframes, congrArg FrameDecoder.mk hbuffer⟩
  · obtain ⟨len, rfl, hlen⟩ := nextFrame_error.mp herror
    exact ⟨nextFrame_keeps (nextFrame_none.mpr hlen.exhausted), serve_oversized hlen⟩
  · intro M toVec ms encodings hms hfed hnone
    obtain ⟨bodies, hbodies, hread⟩ := parsed_encodings hms
    rw [← hfed] at hread
    obtain ⟨hframes, hbuffer⟩ := drained_unique hnone hread exhausted_nil
    rw [← hframes] at hbodies
    exact ⟨hbodies, hbuffer⟩

end Controlis.Protocol
