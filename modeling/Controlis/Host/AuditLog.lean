import Controlis.Host.Machine

/-!
# The audit log

`pump_events` takes the events of the host one by one and writes the rows of the
connection log, whose store is open. It may stop after any event, when the host
is shut down or the webview is gone. The host sends its events in order; what
the pump takes is a prefix of them, with throughput lines of the media task in
between.
-/

namespace Controlis.Host
open Interaction

structure ConnectionLog where
  peerAddr : String
  peerFingerprint : Option String
  accepted : Bool
  detail : String
deriving DecidableEq, Repr

structure Pump where
  currentPeer : Option String
  rows : List ConnectionLog
deriving DecidableEq, Repr

def Pump.start : Pump := ⟨none, []⟩

def Pump.audit (p : Pump) (peer : String) (accepted : Bool) (detail : String) : Pump :=
  { p with rows := p.rows ++ [⟨peer, none, accepted, detail⟩] }

def startsWith (line pattern : String) : Bool := pattern.toList.isPrefixOf line.toList

def auditedLine (line : String) : Bool :=
  startsWith line "rejected" || startsWith line "blocked" || startsWith line "declined"

def Pump.handle (p : Pump) : HostEvent → Pump
  | .sessionStarted peer => { p.audit peer true "session started" with currentPeer := some peer }
  | .sessionEnded reason =>
    { p.audit (p.currentPeer.getD "unknown") false s!"session ended: {reason}" with
      currentPeer := none }
  | .log line => if auditedLine line then p.audit "unknown" false line else p
  | _ => p

def pumpEvents (p : Pump) (events : List HostEvent) : Pump := events.foldl Pump.handle p

def Entry.event : Entry → Option HostEvent
  | .host (.emit event) _ => some event
  | .helper _ _ (.reported event) => some event
  | _ => none

/-- The events the host sends. Those behind the end of the receiver reach nobody. -/
def emitted (log : List Entry) : List HostEvent := log.filterMap Entry.event

def HostEvent.throughput : HostEvent → Bool
  | .log line => startsWith line "mídia"
  | _ => false

variable {p : Pump} {line pattern pattern' : String} {event : HostEvent} {events : List HostEvent}

theorem startsWith_append (rest : String) (h : startsWith line pattern = true) :
    startsWith (line ++ rest) pattern = true := by
  unfold startsWith at h ⊢
  rw [List.isPrefixOf_iff_prefix] at h ⊢
  rw [String.toList_append]
  exact h.trans (List.prefix_append ..)

theorem auditedLine_append (rest : String) (h : auditedLine line = true) :
    auditedLine (line ++ rest) = true := by
  simp only [auditedLine, Bool.or_eq_true] at h ⊢
  rcases h with (h | h) | h
  · exact .inl (.inl (startsWith_append rest h))
  · exact .inl (.inr (startsWith_append rest h))
  · exact .inr (startsWith_append rest h)

theorem not_startsWith {a b : Char} {as bs : List Char} (hline : startsWith line pattern = true)
    (hpattern : pattern.toList = a :: as) (hpattern' : pattern'.toList = b :: bs) (h : a ≠ b) :
    startsWith line pattern' = false := by
  unfold startsWith at hline ⊢
  rw [hpattern, List.isPrefixOf_iff_prefix] at hline
  obtain ⟨rest, hrest⟩ := hline
  rw [hpattern', ← hrest]
  simp [List.isPrefixOf, Ne.symm h]

theorem auditedLine_of_startsWith (pattern : String) {a : Char} {as : List Char}
    (hline : startsWith line pattern = true) (hpattern : pattern.toList = a :: as)
    (h : a ≠ 'r' ∧ a ≠ 'b' ∧ a ≠ 'd') : auditedLine line = false := by
  have hr : startsWith line "rejected" = false := not_startsWith hline hpattern rfl h.1
  have hb : startsWith line "blocked" = false := not_startsWith hline hpattern rfl h.2.1
  have hd : startsWith line "declined" = false := not_startsWith hline hpattern rfl h.2.2
  simp [auditedLine, hr, hb, hd]

theorem pumpEvents_append (p : Pump) (xs ys : List HostEvent) :
    pumpEvents p (xs ++ ys) = pumpEvents (pumpEvents p xs) ys := List.foldl_append

@[simp] theorem pumpEvents_nil (p : Pump) : pumpEvents p [] = p := rfl
@[simp] theorem pumpEvents_cons (p : Pump) (event : HostEvent) (events : List HostEvent) :
    pumpEvents p (event :: events) = pumpEvents (p.handle event) events := rfl

theorem handle_rows (p : Pump) (event : HostEvent) : p.rows <+: (p.handle event).rows := by
  cases event with
  | sessionStarted peer => exact List.prefix_append ..
  | sessionEnded reason => exact List.prefix_append ..
  | log line =>
    simp only [Pump.handle]
    split_ifs
    · exact List.prefix_append ..
    · exact List.prefix_refl _
  | _ => exact List.prefix_refl _

theorem pumpEvents_rows (p : Pump) (events : List HostEvent) :
    p.rows <+: (pumpEvents p events).rows := by
  induction events generalizing p with
  | nil => exact List.prefix_refl _
  | cons event events ih => exact (handle_rows p event).trans (ih _)

theorem handle_throughput (h : event.throughput = true) : p.handle event = p := by
  cases event with
  | log line =>
    have haudited : auditedLine line = false :=
      auditedLine_of_startsWith "mídia" h rfl (by decide)
    simp [Pump.handle, haudited]
  | _ => cases h

theorem pumpEvents_filter (p : Pump) (events : List HostEvent) :
    pumpEvents p (events.filter (!·.throughput)) = pumpEvents p events := by
  induction events generalizing p with
  | nil => rfl
  | cons event events ih =>
    cases h : event.throughput with
    | true => simp [h, handle_throughput h, ih]
    | false => simp [h, ih]

theorem emitted_append (xs ys : List Entry) : emitted (xs ++ ys) = emitted xs ++ emitted ys :=
  List.filterMap_append ..

end Controlis.Host
