import Controlis.Host.Machine
import Controlis.Viewer.Handshake

/-!
# Viewer and host agree

The host's phase knows what the viewer has said and what was sent to end the
handshake. The viewer's stage knows how much of that it has received. Every step
of either end keeps the two in line, and what each end concludes follows.
-/

namespace Controlis.Viewer.Handshake
open Protocol Host Session Interaction

def Phase.sent : Phase → List ControlMessage
  | .refused sent => sent
  | .admitted sent => sent
  | .listed id _ _ => [accepted id]
  | _ => []

def Decisive (c : Connection) (log : List Entry) : List ControlMessage → Prop
  | [] => True
  | [.authResponse (.rejected _)] => True
  | [.authResponse (.accepted id)] => .host (.send c (accepted id)) true ∈ log
  | [.authResponse (.accepted id), .monitorList monitors] =>
    .host (.send c (accepted id)) true ∈ log ∧ .host (.listMonitors c) (.ok monitors) ∈ log ∧
      monitors ≠ []
  | _ => False

/-- What the viewer has yet to receive, when the host has sent `sent` to end the handshake. -/
def Feed (sent : List ControlMessage) : Stage → List ControlMessage → Prop
  | .recvMonitors, queue => ∃ id, sent = accepted id :: queue
  | .returned _, _ => True
  | _, queue => ∃ notices, (∀ m ∈ notices, m = .authResponse .pendingApproval) ∧
    queue = notices ++ sent

def Said (h264 : Bool) (code : String) : Stage → List ControlMessage → Prop
  | .openControl, said => said = []
  | .sendHello, said => said = []
  | .sendAuthRequest, said => said = [hello h264]
  | .recvOutcome, said => said = [hello h264, .authRequest code]
  | .recvMonitors, said => said = [hello h264, .authRequest code]
  | .returned (.error _), said => said <+: [hello h264, .authRequest code]
  | .returned (.ok _), _ => False

def Connected (stage : Stage) : Prop := ∃ monitors, stage = .returned (.ok monitors)

/-- The host has read what its phase says; only a connected viewer sends more. -/
def Incoming (h264 : Bool) (code : String) (w : World) : Phase → Prop
  | .expectHello => Said h264 code w.viewer w.toHost
  | .expectAuthRequest => Said h264 code w.viewer (hello h264 :: w.toHost)
  | .judging => Said h264 code w.viewer (hello h264 :: .authRequest code :: w.toHost)
  | .listed _ _ _ => Said h264 code w.viewer (hello h264 :: .authRequest code :: w.toHost) ∨
    Connected w.viewer
  | .admitted _ => Said h264 code w.viewer (hello h264 :: .authRequest code :: w.toHost) ∨
    Connected w.viewer
  | .missing => True
  | .refused _ => True
  | .answering => Connected w.viewer
  | .garbled => False

structure Inv (c : Connection) (h264 : Bool) (code : String) (φ : Phase) (w : World) : Prop where
  incoming : Incoming h264 code w φ
  feed : Feed φ.sent w.viewer w.toViewer
  decisive : Decisive c w.log φ.sent
  missing : φ = .missing → Interrupted w.log
  expired : w.expired = true → Interrupted w.log
  listed : ∀ id head rest, φ = .listed id head rest →
    .host (.listMonitors c) (.ok (head :: rest)) ∈ w.log

variable {c : Connection} {φ : Phase} {h264 : Bool} {code : String} {w w' : World}
  {sent queue said : List ControlMessage} {stage : Stage} {m : ControlMessage} {log : List Entry}

theorem Interrupted.snoc (h : Interrupted log) (x : Entry) : Interrupted (log ++ [x]) := by
  obtain ⟨y, hy, hends⟩ := h
  exact ⟨y, List.mem_append_left _ hy, hends⟩

theorem Decisive.snoc (h : Decisive c log sent) (x : Entry) : Decisive c (log ++ [x]) sent := by
  unfold Decisive at h ⊢
  split at h
  · trivial
  · trivial
  · exact List.mem_append_left _ h
  · exact ⟨List.mem_append_left _ h.1, List.mem_append_left _ h.2.1, h.2.2⟩
  · exact h.elim

theorem Inv.record (h : Inv c h264 code φ w) (x : Entry) : Inv c h264 code φ (w.record x) where
  incoming := by
    have hincoming := h.incoming
    cases φ <;> exact hincoming
  feed := h.feed
  decisive := h.decisive.snoc x
  missing hφ := (h.missing hφ).snoc x
  expired hexpired := (h.expired hexpired).snoc x
  listed id head rest hφ := List.mem_append_left _ (h.listed id head rest hφ)

theorem said_initially (h : Said h264 code stage said) :
    said <+: [hello h264, .authRequest code] := by
  cases stage with
  | returned result =>
    cases result with
    | error e => exact h
    | ok monitors => exact h.elim
  | openControl => exact h ▸ List.nil_prefix
  | sendHello => exact h ▸ List.nil_prefix
  | sendAuthRequest => exact h ▸ List.prefix_append [_] [_]
  | recvOutcome => exact h ▸ List.prefix_rfl
  | recvMonitors => exact h ▸ List.prefix_rfl

theorem interrupted_of_lost (h : w.lost = true) : Interrupted w.log := by
  obtain ⟨x, hx, hends⟩ := List.any_eq_true.mp h
  exact ⟨x, hx, .inr hends⟩

theorem Inv.interrupted (h : Inv c h264 code φ w) (hover : (w.expired || w.lost) = true) :
    Interrupted w.log := by
  rcases Bool.or_eq_true_iff.mp hover with hexpired | hlost
  · exact h.expired hexpired
  · exact interrupted_of_lost hlost

theorem deliver_some (h : w.deliver m = some w') : w.toHost = m :: w'.toHost ∧
    w' = { w with toHost := w'.toHost } := by
  rw [World.deliver] at h
  split at h
  · cases h
  · rename_i m' rest hqueue
    split_ifs at h with hm
    cases h
    exact ⟨by rw [hqueue, hm], rfl⟩

theorem Feed.snoc (h : Feed sent stage queue) (m : ControlMessage) :
    Feed (sent ++ [m]) stage (queue ++ [m]) := by
  cases stage with
  | returned result => trivial
  | recvMonitors =>
    obtain ⟨id, rfl⟩ := h
    exact ⟨id, rfl⟩
  | _ =>
    obtain ⟨notices, hnotices, rfl⟩ := h
    exact ⟨notices, hnotices, List.append_assoc ..⟩

theorem Feed.notice (h : Feed [] stage queue) :
    Feed [] stage (queue ++ [.authResponse .pendingApproval]) := by
  cases stage with
  | returned result => trivial
  | recvMonitors =>
    obtain ⟨id, hid⟩ := h
    cases hid
  | _ =>
    obtain ⟨notices, hnotices, rfl⟩ := h
    refine ⟨notices ++ [.authResponse .pendingApproval], ?_, by simp⟩
    intro m hm
    rcases List.mem_append.mp hm with hm | hm
    · exact hnotices m hm
    · exact List.mem_singleton.mp hm

variable {e : Effect} {a : e.Answer} {v : World} {φ' : Phase}

theorem settle_silent (he : silent e = true) : w.settle e a = some w := by
  cases e with
  | recvTimeout c => cases he
  | send c m => cases he
  | listMonitors c => rfl
  | select c => cases he
  | _ => rfl

theorem settle_send {b : Bool} :
    w.settle (.send c m) b = some { w with toViewer := w.toViewer ++ ifSent b m } := by
  cases b with
  | false => simp [World.settle, ifSent]
  | true => rfl

theorem agreed_silent (he : silent e = true) : Agreed c log (.host e a) := by
  cases e with
  | send c m => cases he
  | _ => trivial

theorem Feed.append (h : Feed sent stage queue) (b : Bool) (m : ControlMessage) :
    Feed (sent ++ ifSent b m) stage (queue ++ ifSent b m) := by
  cases b with
  | false => simpa [ifSent] using h
  | true => exact h.snoc m

theorem Inv.move (h : Inv c h264 code φ w) (hv : v = { w with toHost := v.toHost })
    (hsent : φ'.sent = φ.sent) (hincoming : Incoming h264 code v φ')
    (hmissing : φ' = .missing → Interrupted w.log)
    (hlisted : ∀ id head rest, φ' ≠ .listed id head rest) : Inv c h264 code φ' v where
  incoming := hincoming
  feed := by
    rw [hv, hsent]
    exact h.feed
  decisive := by
    rw [hv, hsent]
    exact h.decisive
  missing hφ := by
    rw [hv]
    exact hmissing hφ
  expired := by
    rw [hv]
    exact h.expired
  listed id head rest hφ := (hlisted id head rest hφ).elim

theorem Inv.tell (h : Inv c h264 code φ w) {b : Bool} (hsent : φ'.sent = φ.sent ++ ifSent b m)
    (hincoming : Incoming h264 code w φ') (hdecisive : Decisive c w.log φ'.sent)
    (hmissing : φ' ≠ .missing) (hlisted : ∀ id head rest, φ' ≠ .listed id head rest) :
    Inv c h264 code φ' { w with toViewer := w.toViewer ++ ifSent b m } where
  incoming := by cases φ' <;> exact hincoming
  feed := hsent ▸ h.feed.append b m
  decisive := hdecisive
  missing hφ := (hmissing hφ).elim
  expired := h.expired
  listed id head rest hφ := (hlisted id head rest hφ).elim

theorem not_said_three {x y z : ControlMessage} {rest : List ControlMessage} :
    ¬ Said h264 code stage (x :: y :: z :: rest) := by
  intro h
  simpa using (said_initially h).length_le

theorem decisive_rejected (b : Bool) (reason : String) :
    Decisive c log (ifSent b (rejected reason)) := by
  cases b <;> trivial

theorem Inv.refuse (h : Inv c h264 code φ w) (hφ : φ.sent = []) (b : Bool) (reason : String) :
    Inv c h264 code (.refused (ifSent b (rejected reason)))
      { w with toViewer := w.toViewer ++ ifSent b (rejected reason) } := by
  apply h.tell
  · rw [hφ]
    rfl
  · trivial
  · exact decisive_rejected b reason
  · nofun
  · nofun

theorem Inv.update (h : Inv c h264 code φ w) (hincoming : Incoming h264 code w' φ)
    (hfeed : Feed φ.sent w'.viewer w'.toViewer) (hlog : w'.log = w.log)
    (hexpired : w'.expired = w.expired) : Inv c h264 code φ w' where
  incoming := hincoming
  feed := hfeed
  decisive := hlog ▸ h.decisive
  missing hφ := hlog ▸ h.missing hφ
  expired hw := hlog ▸ h.expired (hexpired ▸ hw)
  listed id head rest hφ := hlog ▸ h.listed id head rest hφ

theorem Inv.notice (h : Inv c h264 code .judging w) (b : Bool) :
    Inv c h264 code .judging
      { w with toViewer := w.toViewer ++ ifSent b (.authResponse .pendingApproval) } := by
  have hfeed : Feed [] w.viewer (w.toViewer ++ ifSent b (.authResponse .pendingApproval)) := by
    cases b with
    | false => exact (List.append_nil w.toViewer).symm ▸ h.feed
    | true => exact h.feed.notice
  exact h.update h.incoming hfeed rfl rfl

theorem Inv.readHello (h : Inv c h264 code .expectHello w) (hv : w.deliver m = some v) :
    m = hello h264 ∧ Inv c h264 code .expectAuthRequest v := by
  obtain ⟨hqueue, hrest⟩ := deliver_some hv
  have hsaid : Said h264 code w.viewer (m :: v.toHost) := by
    rw [← hqueue]
    exact h.incoming
  have hm : m = hello h264 := (List.cons_prefix_cons.mp (said_initially hsaid)).1
  subst hm
  refine ⟨rfl, h.move hrest rfl ?_ (nofun) (nofun)⟩
  rw [hrest]
  exact hsaid

theorem Inv.readRequest (h : Inv c h264 code .expectAuthRequest w) (hv : w.deliver m = some v) :
    m = .authRequest code ∧ Inv c h264 code .judging v := by
  obtain ⟨hqueue, hrest⟩ := deliver_some hv
  have hsaid : Said h264 code w.viewer (hello h264 :: m :: v.toHost) := by
    rw [← hqueue]
    exact h.incoming
  have hm : m = .authRequest code := by
    have htail := (List.cons_prefix_cons.mp (said_initially hsaid)).2
    exact (List.cons_prefix_cons.mp htail).1
  subst hm
  refine ⟨rfl, h.move hrest rfl ?_ (nofun) (nofun)⟩
  rw [hrest]
  exact hsaid

theorem Inv.readMore (h : Inv c h264 code (.admitted sent) w) (hv : w.deliver m = some v) :
    Inv c h264 code .answering v := by
  obtain ⟨hqueue, hrest⟩ := deliver_some hv
  have hconnected : Connected w.viewer := by
    rcases h.incoming with hsaid | hconnected
    · rw [hqueue] at hsaid
      exact (not_said_three hsaid).elim
    · exact hconnected
  obtain ⟨monitors, hviewer⟩ := hconnected
  exact {
    incoming := by
      rw [hrest]
      exact ⟨monitors, hviewer⟩
    feed := by
      rw [hrest, hviewer]
      trivial
    decisive := trivial
    missing := nofun
    expired := by
      rw [hrest]
      exact h.expired
    listed := nofun }

/-- Whatever the host sends, and whether it arrives, matters no more once the viewer returned. -/
theorem Inv.answering (h : Inv c h264 code .answering w) {toHost toViewer : List ControlMessage} :
    Inv c h264 code .answering { w with toHost := toHost, toViewer := toViewer } := by
  refine h.update h.incoming ?_ rfl rfl
  obtain ⟨monitors, hviewer⟩ := h.incoming
  dsimp only
  rw [hviewer]
  trivial

theorem settle_select {selected : Selected} (h : w.settle (.select c) selected = some v) :
    v = { w with toHost := v.toHost } := by
  rcases selected with command | _ | m
  · cases h
    rfl
  · simp only [World.settle] at h
    split_ifs at h
    cases h
    rfl
  · exact (deliver_some h).2

theorem settle_noMessage (h : w.settle (.recvTimeout c) none = some v) :
    v = w ∧ (w.expired || w.lost) = true := by
  simp only [World.settle] at h
  split_ifs at h with hover
  cases h
  exact ⟨rfl, hover⟩

theorem settle_quiet {selected : Selected} (hquiet : ∀ m, selected ≠ .message (some m))
    (h : w.settle (.select c) selected = some v) : v = w := by
  rcases selected with command | _ | m
  · cases h
    rfl
  · simp only [World.settle] at h
    split_ifs at h
    cases h
    rfl
  · exact (hquiet m rfl).elim

theorem Inv.missed (h : Inv c h264 code φ w) (hφ : φ.sent = [])
    (hv : w.settle (.recvTimeout c) none = some v) : Inv c h264 code .missing v := by
  obtain ⟨rfl, hover⟩ := settle_noMessage hv
  apply h.move
  · rfl
  · exact hφ.symm
  · trivial
  · exact fun _ => h.interrupted hover
  · nofun

theorem Inv.list {id : UInt64} (h : Inv c h264 code (.admitted [accepted id]) w)
    (head : MonitorInfo) (rest : List MonitorInfo) :
    Inv c h264 code (.listed id head rest)
      (w.record (.host (.listMonitors c) (.ok (head :: rest)))) where
  incoming := h.incoming
  feed := h.feed
  decisive := h.decisive.snoc _
  missing := nofun
  expired := (h.record _).expired
  listed := by
    rintro _ _ _ ⟨⟩
    exact List.mem_concat_self

theorem Inv.announce {id : UInt64} {head : MonitorInfo} {rest : List MonitorInfo}
    (h : Inv c h264 code (.listed id head rest) w) (b : Bool) :
    Inv c h264 code (.admitted ([accepted id] ++ ifSent b (.monitorList (head :: rest))))
      { w with toViewer := w.toViewer ++ ifSent b (.monitorList (head :: rest)) } := by
  have hdecisive : Decisive c w.log ([accepted id] ++ ifSent b (.monitorList (head :: rest))) := by
    cases b with
    | false => exact h.decisive
    | true => exact ⟨h.decisive, h.listed id head rest rfl, List.cons_ne_nil _ _⟩
  apply h.tell
  · rfl
  · exact h.incoming
  · exact hdecisive
  · nofun
  · nofun

theorem Inv.step (h : Inv c h264 code φ w) (hstep : Step c φ e a φ') (hv : w.settle e a = some v) :
    Inv c h264 code φ' (v.record (.host e a)) ∧ Agreed c w.log (.host e a) := by
  cases hstep with
  | silent he =>
    rw [settle_silent he] at hv
    cases hv
    exact ⟨h.record _, agreed_silent he⟩
  | hello hversion => exact ⟨(h.readHello hv).2.record _, trivial⟩
  | noHello =>
    exact ⟨(h.missed rfl hv).record _, trivial⟩
  | strangeHello hm => exact (hm _ (h.readHello hv).1 rfl).elim
  | request => exact ⟨(h.readRequest hv).2.record _, trivial⟩
  | noRequest =>
    exact ⟨(h.missed rfl hv).record _, trivial⟩
  | strangeRequest hm => exact (hm _ (h.readRequest hv).1).elim
  | rejectMissing =>
    rw [settle_send] at hv
    cases hv
    exact ⟨(h.refuse rfl _ _).record _, fun _ => h.missing rfl⟩
  | reject hreason =>
    rw [settle_send] at hv
    cases hv
    exact ⟨(h.refuse rfl _ _).record _, fun hin => (hreason hin).elim⟩
  | pending =>
    rw [settle_send] at hv
    cases hv
    exact ⟨(h.notice _).record _, trivial⟩
  | accept =>
    rw [settle_send] at hv
    cases hv
    exact ⟨(h.record _).tell rfl (.inl h.incoming) List.mem_concat_self nofun nofun, trivial⟩
  | lost =>
    rw [settle_send] at hv
    cases hv
    have hrefused : Inv c h264 code (.refused []) w := h.move rfl rfl trivial nofun nofun
    rw [ifSent, if_neg Bool.false_ne_true, List.append_nil]
    exact ⟨hrefused.record _, trivial⟩
  | monitors =>
    cases hv
    exact ⟨h.list _ _, trivial⟩
  | noMonitors =>
    cases hv
    exact ⟨h.record _, trivial⟩
  | announce =>
    rw [settle_send] at hv
    cases hv
    exact ⟨(h.announce _).record _, trivial⟩
  | select hquiet =>
    rw [settle_quiet hquiet hv]
    exact ⟨h.record _, trivial⟩
  | read => exact ⟨(h.readMore hv).record _, trivial⟩
  | readOn =>
    rw [settle_select hv]
    exact ⟨h.answering.record _, trivial⟩
  | @reply m b hm =>
    rw [settle_send] at hv
    cases hv
    refine ⟨h.answering.record _, ?_⟩
    cases m with
    | authResponse outcome => cases hm
    | _ => trivial
  | garbled => exact h.incoming.elim

theorem Incoming.mono (h : Incoming h264 code w φ)
    (hsaid : ∀ said, Said h264 code w.viewer (said ++ w.toHost) →
      Said h264 code w'.viewer (said ++ w'.toHost))
    (hconnected : Connected w.viewer → Connected w'.viewer) : Incoming h264 code w' φ := by
  cases φ with
  | expectHello => exact hsaid [] h
  | expectAuthRequest => exact hsaid [hello h264] h
  | judging => exact hsaid [hello h264, .authRequest code] h
  | listed id head rest => exact h.imp (hsaid [hello h264, .authRequest code]) hconnected
  | admitted sent => exact h.imp (hsaid [hello h264, .authRequest code]) hconnected
  | missing => trivial
  | refused sent => trivial
  | answering => exact hconnected h
  | garbled => exact h

theorem not_connected (h : ∀ monitors, stage ≠ .returned (.ok monitors)) : ¬ Connected stage := by
  rintro ⟨monitors, hstage⟩
  exact h monitors hstage

theorem Inv.fail (h : Inv c h264 code φ w) (hopen : ¬ Connected w.viewer) {error : ViewerError}
    {toViewer : List ControlMessage} :
    Inv c h264 code φ ({ w with toViewer := toViewer }.goTo (.returned (.error error))) := by
  apply Inv.record
  refine h.update (h.incoming.mono ?_ ?_) ?_ rfl rfl
  · exact fun said hsaid => said_initially hsaid
  · exact fun hconnected => (hopen hconnected).elim
  · trivial

theorem Inv.say (h : Inv c h264 code φ w) {next : Stage} (hopen : ¬ Connected w.viewer)
    (hfeed : Feed φ.sent next w.toViewer)
    (hsaid : ∀ said, Said h264 code w.viewer said → Said h264 code next (said ++ [m])) :
    Inv c h264 code φ (w.say m next) := by
  refine h.update (h.incoming.mono ?_ ?_) hfeed rfl rfl
  · intro said hstage
    rw [World.say, ← List.append_assoc]
    exact hsaid _ hstage
  · exact fun hconnected => (hopen hconnected).elim

theorem Decisive.first (h : Decisive c log (m :: queue)) :
    (∃ reason, m = rejected reason) ∨ ∃ id, m = accepted id := by
  unfold Decisive at h
  split at h
  · rename_i hnil
    cases hnil
  · rename_i reason hsingle
    cases hsingle
    exact .inl ⟨reason, rfl⟩
  · rename_i id hsingle
    cases hsingle
    exact .inr ⟨id, rfl⟩
  · rename_i id monitors hpair
    cases hpair
    exact .inr ⟨id, rfl⟩
  · exact h.elim

theorem Decisive.second {id : UInt64} (h : Decisive c log (accepted id :: m :: queue)) :
    ∃ monitors, m = .monitorList monitors ∧ .host (.send c (accepted id)) true ∈ log ∧
      .host (.listMonitors c) (.ok monitors) ∈ log ∧ monitors ≠ [] := by
  unfold Decisive at h
  split at h
  · rename_i hnil
    cases hnil
  · rename_i hsingle
    cases hsingle
  · rename_i hsingle
    cases hsingle
  · rename_i monitors hpair
    cases hpair
    exact ⟨monitors, rfl, h⟩
  · exact h.elim

theorem Inv.hearOutcome (h : Inv c h264 code φ w) (hviewer : w.viewer = .recvOutcome) :
    Inv c h264 code φ (w.hear outcome) ∧ Grows (Agreed c) w.log (w.hear outcome).log := by
  obtain ⟨viewer, toHost, toViewer, expired, log⟩ := w
  cases hviewer
  cases toViewer with
  | nil => exact ⟨h, .inl rfl⟩
  | cons m rest =>
    obtain ⟨notices, hnotices, hqueue⟩ := h.feed
    have hopen : ¬ Connected .recvOutcome := not_connected nofun
    cases notices with
    | cons notice notices =>
      cases hqueue
      cases hnotices m List.mem_cons_self
      have hfeed : Feed φ.sent .recvOutcome (notices ++ φ.sent) :=
        ⟨notices, fun m hm => hnotices m (List.mem_cons_of_mem _ hm), rfl⟩
      have hincoming := h.incoming.mono (fun said hsaid => hsaid) fun hconnected => hconnected
      exact ⟨h.update hincoming hfeed rfl rfl, .inl rfl⟩
    | nil =>
      have hsent : φ.sent = m :: rest := hqueue.symm
      have hdecisive := h.decisive
      rw [hsent] at hdecisive
      rcases hdecisive.first with ⟨reason, rfl⟩ | ⟨id, rfl⟩
      · exact ⟨h.fail hopen, .inr ⟨_, rfl, trivial⟩⟩
      · refine ⟨h.update (h.incoming.mono ?_ ?_) ⟨id, hsent⟩ rfl rfl, .inl rfl⟩
        · exact fun said hsaid => hsaid
        · exact fun hconnected => (hopen hconnected).elim

theorem Inv.hearMonitors (h : Inv c h264 code φ w) (hviewer : w.viewer = .recvMonitors) :
    Inv c h264 code φ (w.hear fun m => .returned (.ok (monitorsOf m))) ∧
      Grows (Agreed c) w.log (w.hear fun m => .returned (.ok (monitorsOf m))).log := by
  obtain ⟨viewer, toHost, toViewer, expired, log⟩ := w
  cases hviewer
  cases toViewer with
  | nil => exact ⟨h, .inl rfl⟩
  | cons m rest =>
    obtain ⟨id, hsent⟩ := h.feed
    have hdecisive := h.decisive
    rw [hsent] at hdecisive
    obtain ⟨monitors, rfl, haccepted, hmonitors, hne⟩ := hdecisive.second
    refine ⟨?_, .inr ⟨_, rfl, ⟨id, haccepted⟩, hmonitors, hne⟩⟩
    apply Inv.record
    refine h.update ?_ ?_ rfl rfl
    · cases φ with
      | admitted sent => exact .inr ⟨_, rfl⟩
      | listed id head rest => exact .inr ⟨_, rfl⟩
      | refused sent => trivial
      | _ => cases hsent
    · trivial

theorem Inv.connectOver (h : Inv c h264 code φ w) :
    Inv c h264 code φ (w.connectOver h264 code) ∧
      Grows (Agreed c) w.log (w.connectOver h264 code).log := by
  obtain ⟨viewer, toHost, toViewer, expired, log⟩ := w
  cases viewer with
  | openControl =>
    refine ⟨h.update (h.incoming.mono ?_ ?_) h.feed rfl rfl, .inl rfl⟩
    · exact fun said hsaid => hsaid
    · exact fun ⟨_, hviewer⟩ => nomatch hviewer
  | sendHello =>
    refine ⟨h.say (not_connected nofun) h.feed ?_, .inl rfl⟩
    rintro _ rfl
    rfl
  | sendAuthRequest =>
    refine ⟨h.say (not_connected nofun) h.feed ?_, .inl rfl⟩
    rintro _ rfl
    rfl
  | recvOutcome => exact h.hearOutcome rfl
  | recvMonitors => exact h.hearMonitors rfl
  | returned result => exact ⟨h, .inl rfl⟩

theorem Inv.viewerFails (h : Inv c h264 code φ w) :
    Inv c h264 code φ (w.drift h264 code .viewerFails) ∧
      Grows (Agreed c) w.log (w.drift h264 code .viewerFails).log := by
  rw [World.drift]
  split
  · exact ⟨h, .inl rfl⟩
  · rename_i hopen
    exact ⟨h.fail (not_connected fun _ => hopen _), .inr ⟨_, rfl, trivial⟩⟩

theorem Inv.input (h : Inv c h264 code φ w) (m : ControlMessage) :
    Inv c h264 code φ (w.drift h264 code (.input m)) ∧
      Grows (Agreed c) w.log (w.drift h264 code (.input m)).log := by
  rw [World.drift]
  split
  · rename_i monitors hviewer
    refine ⟨h.update (h.incoming.mono ?_ ?_) h.feed rfl rfl, .inl rfl⟩
    · intro said hsaid
      rw [hviewer] at hsaid
      exact hsaid.elim
    · exact fun hconnected => hconnected
  · exact ⟨h, .inl rfl⟩

theorem Inv.expire (h : Inv c h264 code φ w) :
    Inv c h264 code φ (w.drift h264 code .expire) := by
  have hrecord := h.record .timedOut
  exact {
    incoming := hrecord.incoming.mono (fun said hsaid => hsaid) fun hconnected => hconnected
    feed := hrecord.feed
    decisive := hrecord.decisive
    missing := hrecord.missing
    expired := fun _ => ⟨.timedOut, List.mem_concat_self, .inl rfl⟩
    listed := hrecord.listed }

theorem Inv.drift (h : Inv c h264 code φ w) (d : Drift) :
    Inv c h264 code φ (w.drift h264 code d) ∧
      Grows (Agreed c) w.log (w.drift h264 code d).log := by
  cases d with
  | viewer => exact h.connectOver
  | viewerFails => exact h.viewerFails
  | input m => exact h.input m
  | expire => exact ⟨h.expire, .inr ⟨_, rfl, trivial⟩⟩
  | cut => exact ⟨h.record _, .inr ⟨_, rfl, trivial⟩⟩

theorem settle_log (hv : w.settle e a = some v) : v.log = w.log := by
  cases e with
  | recvTimeout c =>
    cases a with
    | none => rw [(settle_noMessage hv).1]
    | some m => rw [(deliver_some hv).2]
  | select c => rw [settle_select hv]
  | send c m =>
    rw [settle_send] at hv
    cases hv
    rfl
  | _ =>
    cases hv
    rfl

theorem machine_keeps : (machine h264 code).Keeps (Step c) World.log (Inv c h264 code)
    (Agreed c) where
  respond := by
    intro φ φ' w w' e a h hstep hw
    obtain ⟨v, hv, rfl⟩ := Option.map_eq_some_iff.mp hw
    obtain ⟨hinv, hagreed⟩ := h.step hstep hv
    refine ⟨hinv, .inr ⟨_, ?_, hagreed⟩⟩
    rw [← settle_log hv]
    rfl
  drift d h := h.drift d

theorem inv_start : Inv c h264 code .expectHello World.start where
  incoming := rfl
  feed := ⟨[], nofun, rfl⟩
  decisive := trivial
  missing := nofun
  expired := nofun
  listed := nofun

/-- Whatever viewer and host are asked to do, and however their stream behaves, they agree on how
the handshake ended. -/
theorem handshake_agreement (h264 viewerH264 : Bool) (config : HostConfig) (c : Connection)
    (code : Security.ConnectCode) (guard : Guard) (viewerCode : String)
    (ticks : List (Tick Effect Effect.Answer Drift)) :
    Lawful (Agreed c) ((machine viewerH264 viewerCode).run
      ⟨runSession h264 config c code guard, World.start⟩ ticks).world.log := by
  have hfollows := follows_runSession (c := c) h264 config code guard
  have hlog : Lawful (Agreed c) World.start.log := .nil
  obtain ⟨_, _, _, hlawful⟩ := machine_keeps.run (σ := ⟨_, _⟩) hfollows inv_start hlog ticks
  exact hlawful

/-- A viewer with the right code gets through once the user approves. -/
example :
    let answers (message : Option ControlMessage) : Tick Effect Effect.Answer Drift :=
      .host { sampleViewer 0 sampleHello with message := message }.answer
    let ticks := [.drift .viewer, .drift .viewer, .drift .viewer, answers none,
      answers (some (hello false)), answers (some sampleRequest)] ++
        List.replicate 20 (answers none) ++ List.replicate 3 (.drift .viewer)
    ((machine false "0000-0000-0000-0000").run ⟨runSession false (sampleConfig true)
      ⟨0, .iroh "a"⟩ (Security.generate ⟨0, 0⟩ 0) .new, .start⟩ ticks).world.viewer =
        .returned (.ok [sampleMonitor]) := by
  rfl

end Controlis.Viewer.Handshake
