import Controlis.Foundation.Runs
import Controlis.Portal.EisInput

/-!
# Balanced emulation

Between two events the slots say exactly which devices emulate, no device is
in use twice, and the sequence number counts the starts. The events that keep
this are also the only ones after which the thread can end in good order.
-/

namespace Controlis.Portal

variable {D : Type*} [DecidableEq D]

variable {s : State D} {log : List (Entry D)} {device : D}

theorem emulates_append (log xs : List (Entry D)) (device : D) :
    emulates (log ++ xs) device = xs.foldl (mark device) (emulates log device) :=
  List.foldl_append ..

theorem emulates_snoc (log : List (Entry D)) (e : Entry D) (device : D) :
    emulates (log ++ [e]) device = mark device (emulates log device) e :=
  emulates_append log [e] device

omit [DecidableEq D] in
theorem sequences_append (log xs : List (Entry D)) :
    sequences (log ++ xs) = sequences log ++ sequences xs := List.filterMap_append ..

theorem orderly_append (log xs ys : List (Entry D)) :
    Orderly log (xs ++ ys) ↔ Orderly log xs ∧ Orderly (log ++ xs) ys := by
  induction xs generalizing log with
  | nil => simp [Orderly]
  | cons x xs ih => simp [Orderly, ih, and_assoc]

theorem orderly_snoc (log : List (Entry D)) (e : Entry D) :
    Orderly [] (log ++ [e]) ↔ Orderly [] log ∧ Timely log e := by
  rw [orderly_append]
  simp [Orderly]

def Request.OfCommand : Request D → Prop
  | .startEmulating _ _ _ | .stopEmulating _ _ | .disconnect => False
  | _ => True

theorem emulates_commands {requests : List (Request D)} (h : ∀ r ∈ requests, r.OfCommand) :
    emulates (log ++ requests.map .sent) device = emulates log device := by
  rw [emulates_append]
  induction requests with
  | nil => rfl
  | cons r requests ih =>
    have hr := h r List.mem_cons_self
    have hrest := ih fun x hx => h x (List.mem_cons_of_mem _ hx)
    cases r <;> first | exact hrest | exact hr.elim

omit [DecidableEq D] in
theorem sequences_commands {requests : List (Request D)} (h : ∀ r ∈ requests, r.OfCommand) :
    sequences (log ++ requests.map .sent) = sequences log := by
  have hnone : sequences (requests.map .sent) = [] := by
    refine List.filterMap_eq_nil_iff.mpr fun e he => ?_
    obtain ⟨r, hr, rfl⟩ := List.mem_map.mp he
    have hcommand := h r hr
    cases r <;> first | rfl | exact hcommand.elim
  rw [sequences_append, hnone, List.append_nil]

theorem orderly_commands {requests : List (Request D)} (h : ∀ r ∈ requests, r.OfCommand) :
    Orderly log (requests.map .sent) := by
  induction requests generalizing log with
  | nil => trivial
  | cons r requests ih =>
    have hr := h r List.mem_cons_self
    refine ⟨?_, ih fun x hx => h x (List.mem_cons_of_mem _ hx)⟩
    cases r <;> trivial

section Slot

variable {I : Type*} {slot : Option (Emulator D I)}

theorem waits_eq (slot : Option (Emulator D I)) (device : D) :
    waits slot device = (holds slot device && !active slot device) := by
  cases slot with
  | none => rfl
  | some e => by_cases h : e.device = device <;> simp [waits, holds, active, h]

theorem holds_of_active (h : active slot device = true) : holds slot device = true := by
  cases slot with
  | none => cases h
  | some e => simp_all [holds, active]

theorem not_active (h : holds slot device = false) : active slot device = false := by
  cases hactive : active slot device with
  | false => rfl
  | true => exact absurd (holds_of_active hactive) (by simp [h])

theorem holds_of_waits (h : waits slot device = true) :
    holds slot device = true ∧ active slot device = false := by
  rw [waits_eq] at h
  simpa using h

theorem active_setEmulating (slot : Option (Emulator D I)) (device other : D) (on : Bool) :
    active (setEmulating slot device on) other =
      if other = device then holds slot device && on else active slot other := by
  cases slot with
  | none => simp [active, setEmulating, holds]
  | some e =>
    by_cases h : e.device = device
    · by_cases hother : other = device
      · simp [active, setEmulating, holds, h, hother]
      · simp [active, setEmulating, h, hother, Ne.symm hother]
    · by_cases hother : other = device
      · simp [active, setEmulating, holds, h, hother]
      · simp [active, setEmulating, h, hother]

theorem active_of_unused (h : slot.any (·.emulating) = false) (device : D) :
    active slot device = false := by
  cases slot <;> simp_all [active]

theorem exists_active (h : slot.any (·.emulating) = true) :
    ∃ device, active slot device = true := by
  cases slot with
  | none => cases h
  | some e =>
    refine ⟨e.device, ?_⟩
    simpa [active] using h

theorem active_fresh (device other : D) (objects : I) :
    active (some ⟨device, objects, false⟩) other = false := by
  simp [active]

theorem emulates_stops (log : List (Entry D)) (slot : Option (Emulator D I)) (serial : UInt32)
    (device : D) :
    emulates (log ++ stops slot serial) device = (emulates log device && !active slot device) := by
  rw [emulates_append]
  cases slot with
  | none => simp [stops, active]
  | some e =>
    cases hon : e.emulating with
    | false => simp [stops, active, hon]
    | true => by_cases h : e.device = device <;> simp [stops, active, hon, mark, h]

theorem orderly_stops (log : List (Entry D)) (slot : Option (Emulator D I)) (serial : UInt32) :
    Orderly log (stops slot serial) := by
  cases slot with
  | none => trivial
  | some e =>
    rw [stops]
    split_ifs
    · exact ⟨trivial, trivial⟩
    · trivial

end Slot

/-- The slots say who is emulating, nobody twice, and the sequence counts the starts. -/
structure Matched (s : State D) : Prop where
  orderly : Orderly [] s.log
  emulating : ∀ device,
    emulates s.log device = (active s.pointer device || active s.keyboard device)
  apart : ∀ device, active s.pointer device = true → active s.keyboard device = false
  sequence : s.sequence = .ofNat (sequences s.log).length
  counted : (sequences s.log).length ≤ 2 ^ 32
  numbered : ∀ n ∈ sequences s.log, n.toNat < (sequences s.log).length

def Forwards (s s' : State D) : Prop :=
  ∃ (requests : List (Request D)) (pending : List InputCmd), s' = { s with
    pending := pending
    log := s.log ++ requests.map .sent } ∧ ∀ r ∈ requests, r.OfCommand

omit [DecidableEq D] in
theorem Forwards.refl (s : State D) (pending : List InputCmd) :
    Forwards s { s with pending := pending } :=
  ⟨[], pending, by simp, by simp⟩

omit [DecidableEq D] in
theorem Forwards.trans {s' s'' : State D} (h : Forwards s s') (h' : Forwards s' s'') :
    Forwards s s'' := by
  obtain ⟨requests, pending, rfl, hrequests⟩ := h
  obtain ⟨requests', pending', rfl, hrequests'⟩ := h'
  refine ⟨requests ++ requests', pending', by simp, fun r hr => ?_⟩
  rcases List.mem_append.mp hr with hr | hr
  · exact hrequests r hr
  · exact hrequests' r hr

omit [DecidableEq D] in
theorem ofCommand_pointer (object : PointerObjects → Option ℕ) (request : ℕ → Request D)
    (hrequest : ∀ n, (request n).OfCommand) (r : Request D)
    (hr : r ∈ s.pointerRequests object request) : r.OfCommand := by
  rw [State.pointerRequests] at hr
  split at hr
  · cases hr
  · rcases List.mem_append.mp hr with hr | hr
    · rw [Option.mem_toList, Option.map_eq_some_iff] at hr
      obtain ⟨n, -, rfl⟩ := hr
      exact hrequest n
    · rw [List.mem_singleton.mp hr]
      trivial

omit [DecidableEq D] in
theorem ofCommand_requests (cmd : InputCmd) : ∀ r ∈ s.requests cmd, r.OfCommand := by
  intro r hr
  cases cmd with
  | motion x y => exact ofCommand_pointer _ (.motionAbsolute · x y) (fun _ => trivial) r hr
  | button code pressed =>
    exact ofCommand_pointer _ (.button · code.toUInt32 pressed) (fun _ => trivial) r hr
  | axis dx dy => exact ofCommand_pointer _ (.scroll · dx dy) (fun _ => trivial) r hr
  | key keysym pressed =>
    rw [State.requests] at hr
    split at hr
    · rcases List.mem_cons.mp hr with rfl | hr
      · trivial
      · rw [List.mem_singleton.mp hr]
        trivial
    · cases hr

omit [DecidableEq D] in
theorem forwards_onInput (s : State D) (cmd : InputCmd) : Forwards s (s.onInput cmd) := by
  rw [State.onInput]
  split_ifs
  · exact ⟨s.requests cmd, s.pending, rfl, ofCommand_requests cmd⟩
  · exact .refl s _

omit [DecidableEq D] in
theorem forwards_foldl (s : State D) (cmds : List InputCmd) :
    Forwards s (cmds.foldl State.onInput s) := by
  induction cmds generalizing s with
  | nil => exact .refl s s.pending
  | cons cmd cmds ih => exact (forwards_onInput s cmd).trans (ih _)

omit [DecidableEq D] in
theorem forwards_flushPending (s : State D) : Forwards s s.flushPending :=
  (Forwards.refl s []).trans (forwards_foldl _ _)

theorem Matched.forwards {s' : State D} (h : Matched s) (hs : Forwards s s') : Matched s' := by
  obtain ⟨requests, pending, rfl, hrequests⟩ := hs
  refine ⟨?_, fun device => ?_, h.apart, ?_, ?_, ?_⟩
  · exact (orderly_append [] _ _).mpr ⟨h.orderly, orderly_commands hrequests⟩
  · exact (emulates_commands hrequests).trans (h.emulating device)
  all_goals dsimp only; rw [sequences_commands hrequests]
  · exact h.sequence
  · exact h.counted
  · exact h.numbered

theorem Matched.new : Matched (.new : State D) where
  orderly := trivial
  emulating _ := rfl
  apart _ h := nomatch h
  sequence := rfl
  counted := Nat.zero_le _
  numbered := by simp [State.new, sequences]

theorem Matched.fill {pointer : Option (PointerDevice D)} {keyboard : Option (KeyboardDevice D)}
    (h : Matched s) (hpointer : ∀ device, active pointer device = active s.pointer device)
    (hkeyboard : ∀ device, active keyboard device = active s.keyboard device) :
    Matched { s with pointer := pointer, keyboard := keyboard } := by
  refine ⟨h.orderly, fun device => ?_, fun device hactive => ?_, h.sequence, h.counted, h.numbered⟩
  · rw [hpointer, hkeyboard]
    exact h.emulating device
  · rw [hpointer] at hactive
    rw [hkeyboard]
    exact h.apart device hactive

theorem Matched.finishDevice (h : Matched s) (hfree : displaces s device = false) :
    Matched (s.finishDevice device) := by
  rw [State.finishDevice]
  rw [displaces] at hfree
  split
  · exact h
  · rename_i data hdata
    rw [hdata] at hfree
    dsimp only at hfree
    split
    · rename_i keyboard hkeyboard
      rw [hkeyboard, Option.isSome_some, if_pos rfl] at hfree
      refine h.fill (fun _ => rfl) fun device => ?_
      rw [active_of_unused hfree, active_fresh]
    · rename_i hkeyboard
      rw [hkeyboard, Option.isSome_none, if_neg (by decide)] at hfree
      dsimp only
      split_ifs with hobjects
      · rw [hobjects, Bool.true_and] at hfree
        refine h.fill (fun device => ?_) fun _ => rfl
        rw [active_of_unused hfree, active_fresh]
      · exact h

theorem Matched.pause (h : Matched s) (device : D) : Matched (s.pause device) := by
  have hsequences : sequences (s.log ++ [.paused device]) = sequences s.log := by
    rw [sequences_append]
    exact List.append_nil _
  refine ⟨(orderly_snoc _ _).mpr ⟨h.orderly, trivial⟩, fun other => ?_, fun other hactive => ?_,
    ?_, ?_, ?_⟩
  · rw [State.pause]
    dsimp only
    rw [emulates_snoc, active_setEmulating, active_setEmulating, mark, h.emulating]
    by_cases hother : other = device
    · simp [hother]
    · simp [hother, Ne.symm hother]
  · rw [State.pause] at hactive ⊢
    dsimp only at hactive ⊢
    rw [active_setEmulating] at hactive ⊢
    split_ifs at hactive ⊢
    · simp
    · exact h.apart other hactive
  all_goals rw [State.pause]; dsimp only; rw [hsequences]
  · exact h.sequence
  · exact h.counted
  · exact h.numbered

theorem emulates_start (log : List (Entry D)) (device other : D) (serial sequence : UInt32) :
    emulates (log ++ [.sent (.startEmulating device serial sequence)]) other =
      if other = device then true else emulates log other := by
  rw [emulates_snoc, mark]
  simp only [eq_comm]

omit [DecidableEq D] in
theorem sequences_start (log : List (Entry D)) (device : D) (serial sequence : UInt32) :
    sequences (log ++ [.sent (.startEmulating device serial sequence)]) =
      sequences log ++ [sequence] :=
  sequences_append log _

theorem Matched.start {s' : State D} (h : Matched s) (hcount : (sequences s.log).length < 2 ^ 32)
    (hstopped : emulates s.log device = false)
    (hlog : s'.log = s.log ++ [.sent (.startEmulating device s.lastSerial s.sequence)])
    (hsequence : s'.sequence = s.sequence + 1)
    (hslots : ∀ other, (active s'.pointer other || active s'.keyboard other) =
      if other = device then true else active s.pointer other || active s.keyboard other)
    (hapart : ∀ other, active s'.pointer other = true → active s'.keyboard other = false) :
    Matched s' := by
  have hnumber : s.sequence.toNat = (sequences s.log).length := by
    rw [h.sequence, UInt32.toNat_ofNat']
    exact Nat.mod_eq_of_lt hcount
  refine ⟨?_, fun other => ?_, hapart, ?_, ?_, ?_⟩
  all_goals rw [hlog]
  · refine (orderly_snoc _ _).mpr ⟨h.orderly, hstopped, fun earlier hearlier => ?_⟩
    rw [UInt32.lt_iff_toNat_lt, hnumber]
    exact h.numbered earlier hearlier
  · rw [emulates_start, hslots, h.emulating]
  all_goals rw [sequences_start, List.length_append, List.length_singleton]
  · rw [hsequence, h.sequence, UInt32.ofNat_add]
    rfl
  · omega
  · intro n hn
    rcases List.mem_append.mp hn with hn | hn
    · exact Nat.lt_succ_of_lt (h.numbered n hn)
    · rw [List.mem_singleton.mp hn, hnumber]
      exact Nat.lt_succ_self _

section Slot

variable {I : Type*} {slot : Option (Emulator D I)}

theorem setEmulating_active (h : waits slot device = false) (other : D) :
    active (setEmulating slot device true) other = active slot other := by
  rw [active_setEmulating, Bool.and_true]
  split_ifs with hother
  · rw [waits_eq] at h
    cases hholds : holds slot device with
    | false => rw [hother, not_active hholds]
    | true => simpa [hholds, hother] using h.symm
  · rfl

theorem starts_of_waits (h : waits slot device = true) (serial sequence : UInt32) :
    starts slot device serial sequence = [.sent (.startEmulating device serial sequence)] :=
  if_pos h

theorem starts_of_not (h : waits slot device = false) (serial sequence : UInt32) :
    starts slot device serial sequence = [] :=
  if_neg (by simp [h])

end Slot

theorem starts_once (hone : ¬ (holds s.pointer device ∧ holds s.keyboard device))
    (hwaits : (waits s.pointer device || waits s.keyboard device) = true)
    (serial sequence : UInt32) :
    starts s.pointer device serial sequence ++ starts s.keyboard device serial sequence =
      [.sent (.startEmulating device serial sequence)] := by
  cases hpointer : waits s.pointer device with
  | true =>
    have hkeyboard : waits s.keyboard device = false := by
      rw [waits_eq, Bool.eq_false_iff.mpr fun hholds => hone ⟨(holds_of_waits hpointer).1, hholds⟩,
        Bool.false_and]
    rw [starts_of_waits hpointer, starts_of_not hkeyboard, List.append_nil]
  | false =>
    rw [hpointer, Bool.false_or] at hwaits
    rw [starts_of_not hpointer, starts_of_waits hwaits, List.nil_append]

theorem idle_of_waits (hone : ¬ (holds s.pointer device ∧ holds s.keyboard device))
    (hwaits : (waits s.pointer device || waits s.keyboard device) = true) :
    (holds s.pointer device || holds s.keyboard device) = true ∧
      active s.pointer device = false ∧ active s.keyboard device = false := by
  rcases Bool.or_eq_true_iff.mp hwaits with hpointer | hkeyboard
  · obtain ⟨hholds, hidle⟩ := holds_of_waits hpointer
    refine ⟨by rw [hholds, Bool.true_or], hidle, not_active ?_⟩
    exact Bool.eq_false_iff.mpr fun hother => hone ⟨hholds, hother⟩
  · obtain ⟨hholds, hidle⟩ := holds_of_waits hkeyboard
    refine ⟨by rw [hholds, Bool.or_true], not_active ?_, hidle⟩
    exact Bool.eq_false_iff.mpr fun hother => hone ⟨hother, hholds⟩

theorem Matched.resume_waiting (h : Matched s)
    (hwaits : (waits s.pointer device || waits s.keyboard device) = true)
    (hone : ¬ (holds s.pointer device ∧ holds s.keyboard device))
    (hcount : (sequences s.log).length < 2 ^ 32) : Matched (s.resume device) := by
  obtain ⟨hholds, hpointer, hkeyboard⟩ := idle_of_waits hone hwaits
  have hstopped : emulates s.log device = false := by rw [h.emulating, hpointer, hkeyboard]; rfl
  rw [State.resume, hwaits, if_pos rfl]
  refine Matched.forwards (h.start hcount hstopped ?_ rfl ?_ ?_) (forwards_flushPending _)
  all_goals dsimp only
  · rw [List.append_assoc, starts_once hone hwaits]
  · intro other
    rw [active_setEmulating, active_setEmulating, Bool.and_true, Bool.and_true]
    split_ifs
    · exact hholds
    · rfl
  · intro other hother
    rw [active_setEmulating, Bool.and_true] at hother ⊢
    split_ifs at hother ⊢
    · exact Bool.eq_false_iff.mpr fun hboth => hone ⟨hother, hboth⟩
    · exact h.apart other hother

theorem Matched.resume (h : Matched s) (hok : waits s.pointer device ∨ waits s.keyboard device →
    ¬ (holds s.pointer device ∧ holds s.keyboard device) ∧ (sequences s.log).length < 2 ^ 32) :
    Matched (s.resume device) := by
  cases hwaits : waits s.pointer device || waits s.keyboard device with
  | true =>
    obtain ⟨hone, hcount⟩ := hok (Bool.or_eq_true_iff.mp hwaits)
    exact h.resume_waiting hwaits hone hcount
  | false =>
    obtain ⟨hpointer, hkeyboard⟩ := Bool.or_eq_false_iff.mp hwaits
    rw [State.resume, hwaits, if_neg (by decide), starts_of_not hpointer,
      starts_of_not hkeyboard, List.append_nil, List.append_nil]
    exact h.fill (setEmulating_active hpointer) (setEmulating_active hkeyboard)

theorem Matched.step (h : Matched s) {e : Event D} (hok : Clean s e) : Matched (step s e) := by
  cases e with
  | connection => exact { h with }
  | handshake serial => exact { h with }
  | seatDevice device => exact { h with }
  | interface device name object => exact { h with }
  | done device => exact h.finishDevice hok
  | resumed device serial =>
    have hserial : Matched { s with lastSerial := serial } := { h with }
    exact hserial.resume hok
  | paused device serial =>
    have hserial : Matched { s with lastSerial := serial } := { h with }
    exact hserial.pause device
  | keymap loaded =>
    cases loaded with
    | none => exact h
    | some keymap =>
      have hkeymap : Matched { s with keymap := some keymap } := { h with }
      exact hkeymap.forwards (forwards_flushPending _)
  | input cmd => exact h.forwards (forwards_onInput s cmd)

theorem emulates_teardown (s : State D) (device : D) : emulates s.teardown.log device =
    (emulates s.log device && !active s.pointer device && !active s.keyboard device) := by
  rw [State.teardown]
  dsimp only
  split_ifs
  · rw [emulates_snoc, emulates_stops, emulates_stops]
    rfl
  · rw [List.append_nil, emulates_stops, emulates_stops]

theorem Matched.balanced (h : Matched s) : Balanced s.teardown.log := by
  have hsettled (device : D) : emulates s.teardown.log device = false := by
    rw [emulates_teardown, h.emulating]
    cases active s.pointer device <;> simp
  have hstopped : Orderly [] (s.log ++ stops s.pointer s.lastSerial ++
      stops s.keyboard s.lastSerial) := by
    rw [orderly_append, orderly_append]
    exact ⟨⟨h.orderly, orderly_stops _ _ _⟩, orderly_stops _ _ _⟩
  refine ⟨?_, hsettled⟩
  rw [State.teardown]
  dsimp only
  split_ifs
  · refine (orderly_snoc _ _).mpr ⟨hstopped, fun device => ?_⟩
    rw [emulates_stops, emulates_stops, h.emulating]
    cases active s.pointer device <;> simp
  · rwa [List.append_nil]

omit [DecidableEq D] in
theorem finishDevice_keyboard {data : String → Option ℕ} {keyboard : ℕ}
    (hdata : s.devices device = some data) (hkeyboard : data "ei_keyboard" = some keyboard) :
    s.finishDevice device = { s with keyboard := some ⟨device, keyboard, false⟩ } := by
  simp only [State.finishDevice, hdata, hkeyboard]

omit [DecidableEq D] in
theorem finishDevice_pointer {data : String → Option ℕ} (hdata : s.devices device = some data)
    (hkeyboard : data "ei_keyboard" = none) (hobjects : ((data "ei_pointer_absolute").isSome ||
      (data "ei_button").isSome || (data "ei_scroll").isSome) = true) :
    s.finishDevice device = { s with pointer := some ⟨device,
      ⟨data "ei_pointer_absolute", data "ei_button", data "ei_scroll"⟩, false⟩ } := by
  simp only [State.finishDevice, hdata, hkeyboard, if_pos hobjects]

/-- A device that falls out of its slot while it emulates is never stopped. -/
theorem Matched.displaces_of_settled (h : Matched s)
    (hsettled : ∀ d, emulates (s.finishDevice device).teardown.log d = false) :
    displaces s device = false := by
  rw [Bool.eq_false_iff]
  intro hdisplaces
  rw [displaces] at hdisplaces
  split at hdisplaces
  · cases hdisplaces
  rename_i data hdata
  split_ifs at hdisplaces with hkeyboard
  · obtain ⟨lost, hlost⟩ := exists_active hdisplaces
    obtain ⟨keyboard, hobject⟩ := Option.isSome_iff_exists.mp hkeyboard
    have hother : active s.pointer lost = false :=
      Bool.eq_false_iff.mpr fun hpointer => by simp [h.apart lost hpointer] at hlost
    have hleft := hsettled lost
    rw [finishDevice_keyboard hdata hobject, emulates_teardown] at hleft
    simp [h.emulating, hlost, hother, active_fresh] at hleft
  · rw [Bool.and_eq_true] at hdisplaces
    obtain ⟨hobjects, huse⟩ := hdisplaces
    obtain ⟨lost, hlost⟩ := exists_active huse
    have hleft := hsettled lost
    rw [finishDevice_pointer hdata (Option.not_isSome_iff_eq_none.mp hkeyboard) hobjects,
      emulates_teardown] at hleft
    simp [h.emulating, hlost, h.apart lost hlost, active_fresh] at hleft

theorem prefix_resume_log (s : State D) (device : D) :
    s.log ++ (starts s.pointer device s.lastSerial s.sequence ++
      starts s.keyboard device s.lastSerial s.sequence) <+: (s.resume device).log := by
  rw [State.resume, ← List.append_assoc]
  dsimp only
  split_ifs
  · obtain ⟨requests, pending, hflush, -⟩ := forwards_flushPending { s with
      pointer := setEmulating s.pointer device true
      keyboard := setEmulating s.keyboard device true
      sequence := s.sequence + 1
      log := s.log ++ starts s.pointer device s.lastSerial s.sequence ++
        starts s.keyboard device s.lastSerial s.sequence }
    rw [hflush]
    exact List.prefix_append _ _
  · exact List.prefix_rfl

theorem Orderly.initial {log' : List (Entry D)} (h : Orderly [] log') (hinitial : log <+: log') :
    Orderly [] log := by
  obtain ⟨rest, rfl⟩ := hinitial
  exact ((orderly_append [] log rest).mp h).1

theorem prefix_teardown (s : State D) : s.log <+: s.teardown.log := by
  rw [State.teardown, List.append_assoc, List.append_assoc]
  exact List.prefix_append _ _

theorem timely_start {log rest : List (Entry D)} {serial sequence : UInt32}
    (h : Orderly log (.sent (.startEmulating device serial sequence) :: rest)) :
    emulates log device = false ∧ ∀ earlier ∈ sequences log, earlier < sequence := h.1

/-- After 2 ^ 32 starts the sequence is back at zero. -/
theorem Matched.count_lt (h : Matched s)
    (hnew : ∀ earlier ∈ sequences s.log, earlier < s.sequence) :
    (sequences s.log).length < 2 ^ 32 := by
  by_contra hfull
  have hlength : (sequences s.log).length = 2 ^ 32 := by
    have hcounted := h.counted
    omega
  have hzero : s.sequence = 0 := by
    rw [h.sequence, hlength]
    rfl
  obtain ⟨n, hn⟩ : ∃ n, n ∈ sequences s.log := List.exists_mem_of_length_pos (by omega)
  have hlt := hnew n hn
  rw [hzero, UInt32.lt_iff_toNat_lt] at hlt
  exact Nat.not_lt_zero _ hlt

theorem Matched.clean_of_orderly (h : Matched s)
    (horderly : Orderly s.log (starts s.pointer device s.lastSerial s.sequence ++
      starts s.keyboard device s.lastSerial s.sequence))
    (hwaits : waits s.pointer device ∨ waits s.keyboard device) :
    ¬ (holds s.pointer device ∧ holds s.keyboard device) ∧ (sequences s.log).length < 2 ^ 32 := by
  cases hpointer : waits s.pointer device with
  | true =>
    rw [starts_of_waits hpointer] at horderly
    obtain ⟨hstopped, hnew⟩ := timely_start horderly
    refine ⟨fun hboth => ?_, h.count_lt hnew⟩
    -- the keyboard slot waits too, and is started right after
    have hidle : active s.keyboard device = false := by
      rw [h.emulating, Bool.or_eq_false_iff] at hstopped
      exact hstopped.2
    have hkeyboard : waits s.keyboard device = true := by
      rw [waits_eq, hboth.2, hidle]
      rfl
    rw [starts_of_waits hkeyboard] at horderly
    have hagain := (timely_start horderly.2).1
    rw [emulates_start, if_pos rfl] at hagain
    cases hagain
  | false =>
    have hkeyboard := hwaits.resolve_left (by simp [hpointer])
    rw [starts_of_not hpointer, List.nil_append, starts_of_waits hkeyboard] at horderly
    obtain ⟨hstopped, hnew⟩ := timely_start horderly
    refine ⟨fun hboth => ?_, h.count_lt hnew⟩
    rw [h.emulating, Bool.or_eq_false_iff] at hstopped
    rw [waits_eq, hboth.1, hstopped.1] at hpointer
    cases hpointer

theorem Matched.clean (h : Matched s) {e : Event D}
    (hbalanced : Balanced (Portal.step s e).teardown.log) : Clean s e := by
  cases e with
  | done device => exact h.displaces_of_settled hbalanced.settled
  | resumed device serial =>
    intro hwaits
    have hserial : Matched { s with lastSerial := serial } := { h with }
    have hlog := (hbalanced.orderly.initial (prefix_teardown _)).initial
      (prefix_resume_log { s with lastSerial := serial } device)
    exact hserial.clean_of_orderly ((orderly_append [] _ _).mp hlog).2 hwaits
  | connection | handshake | seatDevice | interface | paused | keymap | input => trivial

/-- Wherever a run of events is cut and the thread ends, emulation is balanced. -/
theorem emulation_balanced_iff (es : List (Event D)) :
    (∀ pre, pre <+: es → Balanced (pre.foldl step .new).teardown.log) ↔
      Runs.Meets step Clean .new es := by
  refine (Runs.meets_iff (I := Matched) (P := fun s => Balanced s.teardown.log) .new
    (fun _ => Matched.balanced) ?_ ?_).symm
  · exact fun s e hs hok => hs.step hok
  · exact fun s e hs hbalanced => hs.clean hbalanced

/-- A second pointer is announced while the first one emulates. -/
def replaced : List (Event ℕ) :=
  [.connection, .seatDevice 1, .interface 1 "ei_pointer_absolute" 10, .done 1, .resumed 1 5,
    .seatDevice 2, .interface 2 "ei_pointer_absolute" 20, .done 2]

theorem replaced_pointer_keeps_emulating : ¬ Balanced (replaced.foldl step .new).teardown.log := by
  intro hbalanced
  have hstopped := hbalanced.settled 1
  revert hstopped
  decide

end Controlis.Portal
