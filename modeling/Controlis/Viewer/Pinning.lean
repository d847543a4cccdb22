import Controlis.Foundation.Runs
import Controlis.Host.Program
import Controlis.Transport.Fingerprint

/-!
# Trust on first use

`connect_viewer` reads the pin of its target, shakes hands and writes what it
saw. Invocations overlap: each step of each of them is an event of its own. The
write replaces whatever is stored, so a pin changes exactly when two invocations
found none for the same key and then met hosts with different identities.
-/

namespace Controlis.Viewer
open Security Rendezvous Transport Host

/-- Printed and parsed socket addresses, the digest of certificates, and Iroh's endpoint ids. -/
structure Platform (A K : Type) where
  parseAddr : String → Option A
  showAddr : A → String
  ofV4 : SocketAddrV4 → A
  sha256 : List UInt8 → Vector UInt8 32
  parseId : String → Except String K
  showId : K → String
  parse_show : ∀ k, parseId (showId k) = .ok k

structure ViewerConfig where
  rendezvousUrl : Option String
  relayUrl : Option String

structure KnownHost where
  peerKey : String
  fingerprint : String
  nickname : String
deriving DecidableEq, Repr

abbrev KnownHosts := String → Option KnownHost

def rememberHost (store : KnownHosts) (host : KnownHost) : KnownHosts :=
  Function.update store host.peerKey (some host)

structure LanTarget (A : Type) where
  addr : A
  canonicalCode : String
  peerKey : String
  nickname : String

inductive ResolvedTarget (A : Type)
  | lan (target : LanTarget A)
  | internet (sessionId : SessionId) (canonicalCode : String)

variable {A K : Type} (p : Platform A K) (config : ViewerConfig)

def trim (s : String) : String :=
  String.ofList ((s.toList.dropWhile isWhitespace).reverse.dropWhile isWhitespace).reverse

def lanKey (addr : A) : String := s!"lan:{p.showAddr addr}"

def rendezvousKey (sessionId : SessionId) : String := s!"rendezvous:{sessionId.id}"

def irohIdentity (endpointId : String) : String := s!"iroh:{endpointId}"

def lanTarget (addr : A) (canonicalCode : String) : LanTarget A :=
  ⟨addr, canonicalCode, lanKey p addr, s!"LAN {p.showAddr addr}"⟩

def resolveTarget (code : String) (addrOverride : Option String) :
    Except String (ResolvedTarget A) :=
  match Security.parse (trim code) with
  | .error e =>
    let e := ConnectCodeError.message e
    .error s!"Código inválido ({e}). Confira com quem está no computador host."
  | .ok code =>
    match (addrOverride.map trim).filter (· ≠ ""), code.target with
    | none, .lan addr => .ok (.lan (lanTarget p (p.ofV4 addr) code.code))
    | none, .rendezvous id =>
      match SessionId.new id with
      | .ok sessionId => .ok (.internet sessionId code.code)
      | .error e => .error e.message
    | some manual, _ =>
      match p.parseAddr manual with
      | some addr => .ok (.lan (lanTarget p addr code.code))
      | none => .error "Endereço manual inválido. Use IP:porta, ex. 192.168.0.10:21118"

def expectedFingerprint (store : KnownHosts) (peerKey : String) :
    Except String (Option Fingerprint) :=
  match store peerKey with
  | none => .ok none
  | some host =>
    match Fingerprint.parse host.fingerprint with
    | .ok fingerprint => .ok (some fingerprint)
    | .error e =>
      .error (s!"registro de identidade do host está corrompido para {peerKey}: {e}. " ++
        "Remova o registro local antes de tentar novamente.")

def expectedIrohIdentity (store : KnownHosts) (peerKey actual : String) : Except String Unit :=
  match store peerKey with
  | none => .ok ()
  | some host =>
    if host.fingerprint = actual then .ok ()
    else .error ("A identidade deste host de internet mudou desde a última conexão. " ++
      "A conexão foi bloqueada por segurança.")

def mismatch : String := "host certificate fingerprint does not match the pinned value"

def verifyServerCert (expected : Option Fingerprint) (der : List UInt8) :
    Except String Fingerprint :=
  let presented := Fingerprint.ofDigest (p.sha256 der)
  match expected with
  | some expected => if presented ≠ expected then .error mismatch else .ok presented
  | none => .ok presented

def connectErrorText (detail : String) : String :=
  if "fingerprint does not match".toList <:+: detail.toList then
    "A identidade deste host mudou desde a última conexão. " ++
      "A conexão foi bloqueada por segurança. Se o host foi reinstalado, " ++
      "remova manualmente o registro conhecido antes de tentar novamente."
  else s!"falha ao conectar: {detail}"

inductive Call (A : Type)
  | resolved (target : ResolvedTarget A)
  | found (sessionId : SessionId) (endpointId : String)
  | dialing (target : LanTarget A) (expected : Option Fingerprint)
  | dialingInternet (sessionId : SessionId) (endpointId : String) (first : Bool)
  | connecting (host : KnownHost) (first : Bool)
  | accepted (host : KnownHost) (first : Bool)
  | remembered (host : KnownHost)
  | connected (host : KnownHost)
  | failed (error : String)

inductive Answer
  | lookup (endpointId : Except String String)
  | knownHost (read : Except String Unit)
  | certificate (der : Except String (List UInt8))
  | iroh (connection : Except String Unit)
  | session (outcome : Except String Unit)
  | written (outcome : Except String Unit)
  | returned

inductive Entry
  | wrote (host : KnownHost) (first : Bool) (stored : Option KnownHost)
  | reported (host : KnownHost) (stored : Option KnownHost)

inductive Event
  | connect (code : String) (addrOverride : Option String) (opened : Except String Unit)
  | answer (call : ℕ) (answer : Answer)

structure State (A : Type) where
  store : KnownHosts
  calls : List (Call A)
  log : List Entry

def State.start : State A := ⟨fun _ => none, [], []⟩

def begin (code : String) (addrOverride : Option String) : Except String Unit → Call A
  | .error e => .failed s!"armazenamento de confiança indisponível: {e}"
  | .ok () =>
    match resolveTarget p code addrOverride with
    | .error e => .failed e
    | .ok target => .resolved target

def lookedUp (sessionId : SessionId) (answer : Except String String) : Call A :=
  match config.rendezvousUrl, config.relayUrl with
  | none, _ => .failed "rendezvous_url não está configurado no config.toml"
  | some _, none => .failed "relay_url não está configurado no config.toml"
  | some url, some _ =>
    match Client.new url, answer with
    | .error e, _ => .failed s!"configuração de rendezvous inválida: {e}"
    | .ok _, .error e => .failed s!"falha ao consultar rendezvous: {e}"
    | .ok _, .ok endpointId => .found sessionId endpointId

def pinUnreadable (e : String) : Call A :=
  .failed s!"falha ao consultar identidade conhecida: {e}"

def pinOfLan (store : KnownHosts) (target : LanTarget A) : Call A :=
  match expectedFingerprint store target.peerKey with
  | .ok expected => .dialing target expected
  | .error e => .failed e

def pinOfInternet (store : KnownHosts) (sessionId : SessionId) (endpointId : String) : Call A :=
  match expectedIrohIdentity store (rendezvousKey sessionId) (irohIdentity endpointId) with
  | .ok () => .dialingInternet sessionId endpointId (store (rendezvousKey sessionId)).isNone
  | .error e => .failed e

def shakenLan (target : LanTarget A) (expected : Option Fingerprint) (der : List UInt8) : Call A :=
  match verifyServerCert p expected der with
  | .error e => .failed (connectErrorText e)
  | .ok seen => .connecting ⟨target.peerKey, seen.text, target.nickname⟩ expected.isNone

/-- The remote id of an Iroh connection is the dialled one. -/
def shakenInternet (sessionId : SessionId) (endpointId : String) (first : Bool) : Call A :=
  match p.parseId endpointId with
  | .error e => .failed (connectErrorText s!"connection failed: invalid Iroh endpoint id: {e}")
  | .ok k =>
    .connecting ⟨rendezvousKey sessionId, irohIdentity (p.showId k), s!"Internet {sessionId.id}"⟩
      first

def Call.advance (store : KnownHosts) : Call A → Answer → Call A
  | .resolved (.internet sessionId _), .lookup answer => lookedUp config sessionId answer
  | .resolved (.lan target), .knownHost (.ok ()) => pinOfLan store target
  | .resolved (.lan _), .knownHost (.error e) => pinUnreadable e
  | .found sessionId endpointId, .knownHost (.ok ()) => pinOfInternet store sessionId endpointId
  | .found _ _, .knownHost (.error e) => pinUnreadable e
  | .dialing target expected, .certificate (.ok der) => shakenLan p target expected der
  | .dialing _ _, .certificate (.error e) => .failed (connectErrorText e)
  | .dialingInternet sessionId endpointId first, .iroh (.ok ()) =>
    shakenInternet p sessionId endpointId first
  | .dialingInternet _ _ _, .iroh (.error e) => .failed (connectErrorText e)
  | .connecting host first, .session (.ok ()) => .accepted host first
  | .connecting _ _, .session (.error e) => .failed (connectErrorText e)
  | .accepted host _, .written (.ok ()) => .remembered host
  | .accepted _ _, .written (.error e) => .failed s!"falha ao gravar identidade do host: {e}"
  | .remembered host, .returned => .connected host
  | call, _ => call

def step (s : State A) : Event → State A
  | .connect code addrOverride opened =>
    { s with calls := s.calls ++ [begin p code addrOverride opened] }
  | .answer i answer =>
    match s.calls[i]? with
    | none => s
    | some call =>
      let calls := s.calls.set i (call.advance p config s.store answer)
      match call, answer with
      | .accepted host first, .written (.ok ()) =>
        ⟨rememberHost s.store host, calls, s.log ++ [.wrote host first (s.store host.peerKey)]⟩
      | .remembered host, .returned =>
        ⟨s.store, calls, s.log ++ [.reported host (s.store host.peerKey)]⟩
      | _, _ => { s with calls := calls }

def run (events : List Event) : State A := events.foldl (step p config) .start

def pin (s : State A) (peerKey : String) : Option String :=
  (s.store peerKey).map (·.fingerprint)

def Entry.firstWrite : Entry → Option KnownHost
  | .wrote host true _ => some host
  | _ => none

/-- The invocations that found no pin for a key all met the same host. -/
def Agreeing (log : List Entry) : Prop :=
  ∀ host ∈ log.filterMap Entry.firstWrite, ∀ other ∈ log.filterMap Entry.firstWrite,
    host.peerKey = other.peerKey → host.fingerprint = other.fingerprint

/-- A pin stays through the run, and what is reported is what is pinned. -/
structure PinsHold (events : List Event) : Prop where
  pinned : ∀ before between after peerKey identity, events = before ++ between ++ after →
    pin (run p config before) peerKey = some identity →
    pin (run p config (before ++ between)) peerKey = some identity
  reported : ∀ host stored, .reported host stored ∈ (run p config events).log →
    stored.map (·.fingerprint) = some host.fingerprint

def Presented (host : KnownHost) : Prop :=
  (∃ addr digest, host.peerKey = lanKey p addr ∧
    host.fingerprint = (Fingerprint.ofDigest digest).text) ∨
  ∃ sessionId k, host.peerKey = rendezvousKey sessionId ∧
    host.fingerprint = irohIdentity (p.showId k)

def Bound (s : State A) : Call A → Prop
  | .resolved (.lan target) => target.peerKey = lanKey p target.addr
  | .dialing target expected => target.peerKey = lanKey p target.addr ∧
      ∀ fingerprint, expected = some fingerprint → pin s target.peerKey = some fingerprint.text
  | .dialingInternet sessionId endpointId first =>
      first = false → pin s (rendezvousKey sessionId) = some (irohIdentity endpointId)
  | .connecting host first => Presented p host ∧
      (first = false → pin s host.peerKey = some host.fingerprint)
  | .accepted host first => Presented p host ∧
      (first = false → pin s host.peerKey = some host.fingerprint)
  | .remembered host => pin s host.peerKey = some host.fingerprint
  | _ => True

structure Trusting (s : State A) : Prop where
  stored : ∀ peerKey host, s.store peerKey = some host →
    host.peerKey = peerKey ∧ Presented p host ∧
      ∃ first ∈ s.log.filterMap Entry.firstWrite,
        first.peerKey = peerKey ∧ first.fingerprint = host.fingerprint
  calls : ∀ call ∈ s.calls, Bound p s call
  reports : ∀ host stored, .reported host stored ∈ s.log →
    stored.map (·.fingerprint) = some host.fingerprint

def Keeps (s t : State A) : Prop :=
  ∀ peerKey identity, pin s peerKey = some identity → pin t peerKey = some identity

variable {p config} {s t : State A} {call : Call A} {host : KnownHost}

theorem lanKey_ne_rendezvousKey (addr : A) (sessionId : SessionId) :
    lanKey p addr ≠ rendezvousKey sessionId := by
  intro h
  have hlist := congrArg String.toList h
  simp only [lanKey, rendezvousKey, String.toList_append] at hlist
  have hhead : some 'l' = some 'r' := congrArg List.head? hlist
  cases hhead

theorem irohIdentity_injective {a b : String} (h : irohIdentity a = irohIdentity b) : a = b := by
  have hlist := congrArg String.toList h
  simp only [irohIdentity, String.toList_append, List.append_cancel_left_eq] at hlist
  exact String.toList_inj.mp hlist

theorem Presented.lan (h : Presented p host) {addr : A} (hkey : host.peerKey = lanKey p addr) :
    ∃ digest, host.fingerprint = (Fingerprint.ofDigest digest).text := by
  rcases h with ⟨_, digest, -, hfingerprint⟩ | ⟨sessionId, _, hkey', -⟩
  · exact ⟨digest, hfingerprint⟩
  · exact absurd (hkey.symm.trans hkey') (lanKey_ne_rendezvousKey addr sessionId)

theorem Presented.internet (h : Presented p host) {sessionId : SessionId}
    (hkey : host.peerKey = rendezvousKey sessionId) :
    ∃ k, host.fingerprint = irohIdentity (p.showId k) := by
  rcases h with ⟨addr, _, hkey', -⟩ | ⟨_, k, -, hfingerprint⟩
  · exact absurd (hkey'.symm.trans hkey) (lanKey_ne_rendezvousKey addr sessionId)
  · exact ⟨k, hfingerprint⟩

theorem Bound.keeps (h : Bound p s call) (hkeeps : Keeps s t) : Bound p t call := by
  cases call with
  | resolved target => cases target <;> exact h
  | dialing target expected => exact ⟨h.1, fun fingerprint he => hkeeps _ _ (h.2 fingerprint he)⟩
  | dialingInternet sessionId endpointId first => exact fun hf => hkeeps _ _ (h hf)
  | connecting host first => exact ⟨h.1, fun hf => hkeeps _ _ (h.2 hf)⟩
  | accepted host first => exact ⟨h.1, fun hf => hkeeps _ _ (h.2 hf)⟩
  | remembered host => exact hkeeps _ _ h
  | _ => trivial

theorem resolveTarget_lan {code : String} {addrOverride : Option String} {target : LanTarget A}
    (h : resolveTarget p code addrOverride = .ok (.lan target)) :
    target.peerKey = lanKey p target.addr := by
  unfold resolveTarget at h
  split at h
  · cases h
  · split at h
    · cases h
      rfl
    · split at h <;> cases h
    · split at h
      · cases h
        rfl
      · cases h

theorem begin_bound (code : String) (addrOverride : Option String) (opened : Except String Unit) :
    Bound p s (begin p code addrOverride opened) := by
  cases opened with
  | error e => trivial
  | ok _ =>
    simp only [begin]
    cases hresolve : resolveTarget p code addrOverride with
    | error e => trivial
    | ok target =>
      cases target with
      | lan target => exact resolveTarget_lan hresolve
      | internet sessionId canonicalCode => trivial

theorem lookedUp_bound (sessionId : SessionId) (answer : Except String String) :
    Bound p s (lookedUp config sessionId answer) := by
  unfold lookedUp
  split
  · trivial
  · trivial
  · split <;> trivial

theorem pinOfLan_bound {target : LanTarget A} (h : Trusting p s)
    (hkey : target.peerKey = lanKey p target.addr) : Bound p s (pinOfLan s.store target) := by
  unfold pinOfLan
  cases hstore : s.store target.peerKey with
  | none =>
    have hexpected : expectedFingerprint s.store target.peerKey = .ok none := by
      simp only [expectedFingerprint, hstore]
    rw [hexpected]
    exact ⟨hkey, fun _ he => nomatch he⟩
  | some host =>
    obtain ⟨hpeer, hpresented, -⟩ := h.stored _ _ hstore
    obtain ⟨digest, hdigest⟩ := hpresented.lan (hpeer.trans hkey)
    have hexpected : expectedFingerprint s.store target.peerKey =
        .ok (some (Fingerprint.ofDigest digest)) := by
      simp only [expectedFingerprint, hstore, hdigest, parse_ofDigest]
    rw [hexpected]
    refine ⟨hkey, fun fingerprint he => ?_⟩
    cases he
    rw [pin, hstore]
    exact congrArg some hdigest

theorem pinOfInternet_bound (sessionId : SessionId) (endpointId : String) :
    Bound p s (pinOfInternet s.store sessionId endpointId) := by
  simp only [pinOfInternet, expectedIrohIdentity]
  cases hstore : s.store (rendezvousKey sessionId) with
  | none => exact fun hfirst => nomatch hfirst
  | some host =>
    dsimp only
    split_ifs with hsame
    · intro _
      rw [pin, hstore]
      exact congrArg some hsame
    · trivial

theorem shakenLan_bound {target : LanTarget A} {expected : Option Fingerprint} (der : List UInt8)
    (h : Bound p s (.dialing target expected)) : Bound p s (shakenLan p target expected der) := by
  obtain ⟨hkey, hpin⟩ := h
  have hpresented : Presented p
      ⟨target.peerKey, (Fingerprint.ofDigest (p.sha256 der)).text, target.nickname⟩ :=
    .inl ⟨_, _, hkey, rfl⟩
  simp only [shakenLan, verifyServerCert]
  cases expected with
  | none => exact ⟨hpresented, fun hfirst => nomatch hfirst⟩
  | some fingerprint =>
    dsimp only
    split_ifs with hne
    · trivial
    · refine ⟨hpresented, fun _ => ?_⟩
      rw [not_not.mp hne]
      exact hpin fingerprint rfl

theorem shakenInternet_bound {sessionId : SessionId} {endpointId : String} {first : Bool}
    (ht : Trusting p s) (h : Bound p s (.dialingInternet sessionId endpointId first)) :
    Bound p s (shakenInternet p sessionId endpointId first) := by
  unfold shakenInternet
  cases hparse : p.parseId endpointId with
  | error e => trivial
  | ok k =>
    refine ⟨.inr ⟨sessionId, k, rfl, rfl⟩, fun hfirst => ?_⟩
    have hpin := h hfirst
    obtain ⟨host, hstore, hhost⟩ := Option.map_eq_some_iff.mp hpin
    obtain ⟨hpeer, hpresented, -⟩ := ht.stored _ _ hstore
    obtain ⟨k', hk'⟩ := hpresented.internet hpeer
    have hid : p.showId k' = endpointId := irohIdentity_injective (hk'.symm.trans hhost)
    rw [← hid, p.parse_show] at hparse
    cases hparse
    rw [hid]
    exact hpin

theorem advance_bound (ht : Trusting p s) (h : Bound p s call) (answer : Answer)
    (hwrite : ∀ host first, call = .accepted host first → answer ≠ .written (.ok ())) :
    Bound p s (call.advance p config s.store answer) := by
  unfold Call.advance
  split
  · exact lookedUp_bound _ _
  · exact pinOfLan_bound ht h
  · trivial
  · exact pinOfInternet_bound _ _
  · trivial
  · exact shakenLan_bound _ h
  · trivial
  · exact shakenInternet_bound ht h
  · trivial
  · exact h
  · trivial
  · exact absurd rfl (hwrite _ _ rfl)
  · trivial
  · trivial
  · exact h

/-- A write puts back what is pinned already, unless it comes from a first contact. -/
theorem write_keeps {first : Bool} (ht : Trusting p s) (h : Bound p s (.accepted host first))
    (hagree : Agreeing (s.log ++ [.wrote host first (s.store host.peerKey)]))
    {identity : String} (hpin : pin s host.peerKey = some identity) :
    identity = host.fingerprint := by
  cases first with
  | false => exact Option.some.inj (hpin.symm.trans (h.2 rfl))
  | true =>
    obtain ⟨stored, hstore, hidentity⟩ := Option.map_eq_some_iff.mp hpin
    obtain ⟨-, -, other, hother, hkey, hfingerprint⟩ := ht.stored _ _ hstore
    have hsame := hagree other (by simp [hother]) host (by simp [Entry.firstWrite]) hkey
    exact hidentity.symm.trans (hfingerprint.symm.trans hsame)

theorem agreeing_of_append {log more : List Entry} (h : Agreeing (log ++ more)) : Agreeing log := by
  intro host hhost other hother hkey
  refine h host ?_ other ?_ hkey
  · rw [List.filterMap_append]
    exact List.mem_append_left _ hhost
  · rw [List.filterMap_append]
    exact List.mem_append_left _ hother

theorem bound_set {i : ℕ} {next : Call A} (h : ∀ call ∈ s.calls, Bound p t call)
    (hnext : Bound p t next) : ∀ call ∈ s.calls.set i next, Bound p t call := by
  intro call hcall
  rcases List.mem_or_eq_of_mem_set hcall with hold | rfl
  · exact h call hold
  · exact hnext

theorem Keeps.refl (s : State A) : Keeps s s := fun _ _ h => h

theorem Keeps.trans {u : State A} (h : Keeps s t) (h' : Keeps t u) : Keeps s u :=
  fun _ _ hpin => h' _ _ (h _ _ hpin)

theorem write_trusting {first : Bool} {i : ℕ} (ht : Trusting p s)
    (hb : Bound p s (.accepted host first))
    (hagree : Agreeing (s.log ++ [.wrote host first (s.store host.peerKey)])) :
    let t : State A := ⟨rememberHost s.store host, s.calls.set i (.remembered host),
      s.log ++ [.wrote host first (s.store host.peerKey)]⟩
    Trusting p t ∧ Keeps s t := by
  intro t
  have hkeeps : Keeps s t := by
    intro peerKey identity hpin
    by_cases hkey : peerKey = host.peerKey
    · subst hkey
      rw [write_keeps ht hb hagree hpin]
      simp [t, pin, rememberHost]
    · simpa [t, pin, rememberHost, hkey] using hpin
  have hpinned : Bound p t (.remembered host) := by
    simp [t, Bound, pin, rememberHost]
  refine ⟨⟨fun peerKey stored hstore => ?_, ?_, ?_⟩, hkeeps⟩
  · have hfirsts {other : KnownHost} (h : other ∈ s.log.filterMap Entry.firstWrite) :
        other ∈ t.log.filterMap Entry.firstWrite := by
      rw [List.filterMap_append]
      exact List.mem_append_left _ h
    by_cases hkey : peerKey = host.peerKey
    · subst hkey
      obtain rfl : host = stored := by simpa [t, rememberHost] using hstore
      refine ⟨rfl, hb.1, ?_⟩
      cases first with
      | true => exact ⟨host, by simp [t, Entry.firstWrite], rfl, rfl⟩
      | false =>
        obtain ⟨old, hold, hidentity⟩ := Option.map_eq_some_iff.mp (hb.2 rfl)
        obtain ⟨-, -, other, hother, hpeer, hfingerprint⟩ := ht.stored _ _ hold
        exact ⟨other, hfirsts hother, hpeer, hfingerprint.trans hidentity⟩
    · have hold : s.store peerKey = some stored := by
        simpa [t, rememberHost, hkey] using hstore
      obtain ⟨hpeer, hpresented, other, hother, hrest⟩ := ht.stored _ _ hold
      exact ⟨hpeer, hpresented, other, hfirsts hother, hrest⟩
  · exact bound_set (fun call hcall => (ht.calls call hcall).keeps hkeeps) hpinned
  · intro reported stored hmem
    rcases List.mem_append.mp hmem with hold | hnew
    · exact ht.reports _ _ hold
    · simp at hnew

theorem step_trusting (ht : Trusting p s) (e : Event)
    (hagree : Agreeing (step p config s e).log) :
    Trusting p (step p config s e) ∧ Keeps s (step p config s e) := by
  cases e with
  | connect code addrOverride opened =>
    refine ⟨⟨ht.stored, fun call hcall => ?_, ht.reports⟩, Keeps.refl s⟩
    rcases List.mem_append.mp hcall with hold | hnew
    · exact ht.calls call hold
    · rw [List.mem_singleton.mp hnew]
      exact begin_bound code addrOverride opened
  | answer i answer =>
    simp only [step] at hagree ⊢
    cases hget : s.calls[i]? with
    | none => exact ⟨ht, Keeps.refl s⟩
    | some call =>
      have hb : Bound p s call := ht.calls call (List.mem_of_getElem? hget)
      rw [hget] at hagree
      dsimp only at hagree ⊢
      split at hagree
      · exact write_trusting ht hb hagree
      · refine ⟨⟨fun peerKey host hstore => ?_, bound_set ht.calls trivial, ?_⟩, Keeps.refl s⟩
        · obtain ⟨hpeer, hpresented, other, hother, hrest⟩ := ht.stored peerKey host hstore
          refine ⟨hpeer, hpresented, other, ?_, hrest⟩
          rw [List.filterMap_append]
          exact List.mem_append_left _ hother
        · intro reported stored hmem
          rcases List.mem_append.mp hmem with hold | hnew
          · exact ht.reports _ _ hold
          · cases List.mem_singleton.mp hnew
            exact hb
      · rename_i hwrite _
        refine ⟨⟨ht.stored, bound_set ht.calls ?_, ht.reports⟩, Keeps.refl s⟩
        refine advance_bound ht hb answer fun host first hcall hanswer => ?_
        exact hwrite host first hcall hanswer

variable (p config) in
theorem step_log (s : State A) (e : Event) : ∃ more, (step p config s e).log = s.log ++ more := by
  cases e with
  | connect code addrOverride opened => exact ⟨[], (List.append_nil _).symm⟩
  | answer i answer =>
    simp only [step]
    cases s.calls[i]? with
    | none => exact ⟨[], (List.append_nil _).symm⟩
    | some call =>
      dsimp only
      split
      · exact ⟨_, rfl⟩
      · exact ⟨_, rfl⟩
      · exact ⟨[], (List.append_nil _).symm⟩

variable (p config) in
theorem run_log (s : State A) (events : List Event) :
    ∃ more, (events.foldl (step p config) s).log = s.log ++ more := by
  refine Runs.invariant (I := fun t : State A => ∃ more, t.log = s.log ++ more)
    ⟨[], (List.append_nil _).symm⟩ fun t e ht => ?_
  obtain ⟨more, hmore⟩ := ht
  obtain ⟨more', hmore'⟩ := step_log p config t e
  exact ⟨more ++ more', by rw [hmore', hmore, List.append_assoc]⟩

theorem run_append (events more : List Event) :
    run p config (events ++ more) = more.foldl (step p config) (run p config events) :=
  List.foldl_append ..

theorem agreeing_before {events more : List Event}
    (h : Agreeing (run p config (events ++ more)).log) : Agreeing (run p config events).log := by
  obtain ⟨rest, hrest⟩ := run_log p config (run p config events) more
  rw [run_append, hrest] at h
  exact agreeing_of_append h

theorem run_trusting (before : List Event) {between : List Event}
    (h : Agreeing (run p config (before ++ between)).log) (ht : Trusting p (run p config before)) :
    Trusting p (run p config (before ++ between)) ∧
      Keeps (run p config before) (run p config (before ++ between)) := by
  rw [run_append] at h ⊢
  refine Runs.invariant_of_end (I := Trusting p) (C := fun s => Agreeing s.log) (R := Keeps)
    Keeps.refl (fun _ _ _ => Keeps.trans) (fun s e hC => ?_) (fun s e hI hC => ?_) ht h
  · obtain ⟨more, hmore⟩ := step_log p config s e
    rw [hmore] at hC
    exact agreeing_of_append hC
  · exact step_trusting hI e hC

theorem start_trusting : Trusting p (.start : State A) :=
  ⟨fun _ _ h => (nomatch h), fun _ h => (nomatch h), fun _ _ h => (nomatch h)⟩

theorem step_firstWrite {e : Event}
    (h : host ∈ (step p config s e).log.filterMap Entry.firstWrite) :
    host ∈ s.log.filterMap Entry.firstWrite ∨
      pin (step p config s e) host.peerKey = some host.fingerprint := by
  cases e with
  | connect code addrOverride opened => exact .inl h
  | answer i answer =>
    simp only [step] at h ⊢
    cases hget : s.calls[i]? with
    | none =>
      rw [hget] at h
      exact .inl h
    | some call =>
      rw [hget] at h
      dsimp only at h ⊢
      split at h
      · rename_i written first
        rw [List.filterMap_append] at h
        rcases List.mem_append.mp h with hold | hnew
        · exact .inl hold
        · cases first with
          | false => cases hnew
          | true =>
            obtain rfl : host = written := by simpa [Entry.firstWrite] using hnew
            exact .inr (by simp [pin, rememberHost])
      · rw [List.filterMap_append] at h
        rcases List.mem_append.mp h with hold | hnew
        · exact .inl hold
        · cases hnew
      · exact .inl h

theorem pinned_of_firstWrite {events : List Event}
    (h : host ∈ (run p config events).log.filterMap Entry.firstWrite) :
    ∃ before after, events = before ++ after ∧
      pin (run p config before) host.peerKey = some host.fingerprint := by
  induction events using List.reverseRecOn with
  | nil => cases h
  | append_singleton events e ih =>
    rw [run_append] at h
    rcases step_firstWrite h with hold | hpin
    · obtain ⟨before, after, rfl, hpin⟩ := ih hold
      exact ⟨before, after ++ [e], by rw [List.append_assoc], hpin⟩
    · refine ⟨events ++ [e], [], (List.append_nil _).symm, ?_⟩
      rw [run_append]
      exact hpin

/-- Pins hold in a run exactly when the invocations that found no pin for a key, and wrote one,
all met the same identity. -/
theorem pins_hold_iff {A K : Type} (p : Platform A K) (config : ViewerConfig)
    (events : List Event) :
    PinsHold p config events ↔ Agreeing (run p config events).log := by
  refine ⟨fun h => ?_, fun h => ⟨?_, ?_⟩⟩
  · have hsame {host other : KnownHost} {before between after : List Event}
        (hevents : events = before ++ between ++ after) (hkey : host.peerKey = other.peerKey)
        (hpin : pin (run p config before) host.peerKey = some host.fingerprint)
        (hpin' : pin (run p config (before ++ between)) other.peerKey = some other.fingerprint) :
        host.fingerprint = other.fingerprint := by
      have hlater := h.pinned before between after _ _ hevents hpin
      rw [hkey, hpin'] at hlater
      exact (Option.some.inj hlater).symm
    intro host hhost other hother hkey
    obtain ⟨before, after, hevents, hpin⟩ := pinned_of_firstWrite hhost
    obtain ⟨before', after', hevents', hpin'⟩ := pinned_of_firstWrite hother
    rcases List.append_eq_append_iff.mp (hevents.symm.trans hevents') with
      ⟨between, rfl, rfl⟩ | ⟨between, rfl, rfl⟩
    · exact hsame hevents' hkey hpin hpin'
    · exact (hsame hevents hkey.symm hpin' hpin).symm
  · rintro before between after peerKey identity rfl hpin
    have hmiddle : Agreeing (run p config (before ++ between)).log := agreeing_before h
    have hbefore : Agreeing (run p config ([] ++ before)).log := agreeing_before hmiddle
    have htrusting := (run_trusting [] hbefore start_trusting).1
    exact (run_trusting before hmiddle htrusting).2 _ _ hpin
  · exact (run_trusting [] h start_trusting).1.reports

theorem verifyServerCert_iff (p : Platform A K) {digest : Vector UInt8 32} {der : List UInt8} :
    (∃ seen, verifyServerCert p (some (.ofDigest digest)) der = .ok seen) ↔
      p.sha256 der = digest := by
  rw [verifyServerCert]
  split_ifs with hne
  · constructor
    · rintro ⟨seen, hseen⟩
      cases hseen
    · intro hdigest
      exact absurd (congrArg Fingerprint.ofDigest hdigest) hne
  · exact ⟨fun _ => ofDigest_injective (not_not.mp hne), fun _ => ⟨_, rfl⟩⟩

theorem stored_pin_admits (p : Platform A K) (store : KnownHosts) (host : KnownHost)
    {digest : Vector UInt8 32} (hspells : SpellsDigest host.fingerprint digest) (der : List UInt8) :
    ∃ pin, expectedFingerprint (rememberHost store host) host.peerKey = .ok (some pin) ∧
      ((∃ seen, verifyServerCert p (some pin) der = .ok seen) ↔ p.sha256 der = digest) := by
  refine ⟨.ofDigest digest, ?_, verifyServerCert_iff p⟩
  rw [expectedFingerprint, rememberHost, Function.update_self]
  dsimp only
  rw [parse_of_spells hspells]

/-- Parsing inverts the display and accepts nothing else but other spellings of it. -/
theorem pins_survive_storage {A K : Type} (p : Platform A K) :
    (∀ digest, Fingerprint.parse (Fingerprint.ofDigest digest).text = .ok (.ofDigest digest) ∧
      SpellsDigest (Fingerprint.ofDigest digest).text digest) ∧
    (∀ text, (∃ fingerprint, Fingerprint.parse text = .ok fingerprint) ↔ IsHexText text) ∧
    (∀ text fingerprint, Fingerprint.parse text = .ok fingerprint →
      ∃ digest, SpellsDigest text digest ∧ (∀ other, SpellsDigest text other → other = digest) ∧
        fingerprint = .ofDigest digest) ∧
    (∀ text text', (∃ fingerprint, Fingerprint.parse text = .ok fingerprint ∧
        Fingerprint.parse text' = .ok fingerprint) ↔
      ∃ digest, SpellsDigest text digest ∧ SpellsDigest text' digest) ∧
    ∀ store (host : KnownHost) digest der, SpellsDigest host.fingerprint digest →
      ∃ pin, expectedFingerprint (rememberHost store host) host.peerKey = .ok (some pin) ∧
        ((∃ seen, verifyServerCert p (some pin) der = .ok seen) ↔ p.sha256 der = digest) := by
  refine ⟨fun digest => ⟨parse_ofDigest digest, spells_ofDigest digest⟩, ?_, ?_, ?_,
    fun store host digest der hspells => stored_pin_admits p store host hspells der⟩
  · intro text
    rw [isHexText_iff]
    constructor
    · rintro ⟨fingerprint, hparse⟩
      exact spells_of_parse hparse
    · rintro ⟨digest, hspells⟩
      exact ⟨_, parse_of_spells hspells⟩
  · intro text fingerprint hparse
    obtain ⟨digest, hspells, rfl⟩ := parse_eq_ok_iff.mp hparse
    exact ⟨digest, hspells, fun other hother => hother.unique hspells, rfl⟩
  · intro text text'
    constructor
    · rintro ⟨fingerprint, hparse, hparse'⟩
      obtain ⟨digest, hspells, rfl⟩ := parse_eq_ok_iff.mp hparse
      obtain ⟨digest', hspells', heq⟩ := parse_eq_ok_iff.mp hparse'
      exact ⟨digest, hspells, ofDigest_injective heq ▸ hspells'⟩
    · rintro ⟨digest, hspells, hspells'⟩
      exact ⟨_, parse_of_spells hspells, parse_of_spells hspells'⟩

def samplePlatform : Platform SocketAddrV4 String where
  parseAddr _ := none
  showAddr addr := s!"{addr.ip}:{addr.port}"
  ofV4 addr := addr
  sha256 der := Vector.ofFn fun i => der.getD i 0
  parseId := .ok
  showId id := id
  parse_show _ := rfl

/-- Two invocations for one address find no pin and meet hosts with different certificates, and
the first of them has written. -/
def overlapping : List Event :=
  [.connect "0000-0000-0000-0000" none (.ok ()), .connect "0000-0000-0000-0000" none (.ok ()),
    .answer 0 (.knownHost (.ok ())), .answer 1 (.knownHost (.ok ())),
    .answer 0 (.certificate (.ok [1])), .answer 1 (.certificate (.ok [2])),
    .answer 0 (.session (.ok ())), .answer 1 (.session (.ok ())), .answer 0 (.written (.ok ()))]

theorem overlapping_connects_replace_pin :
    ¬ ∀ config events, PinsHold samplePlatform config events := by
  intro h
  have hpinned := (h ⟨none, none⟩ (overlapping ++ [.answer 1 (.written (.ok ()))])).pinned
    overlapping [.answer 1 (.written (.ok ()))] [] "lan:0:0" _ (List.append_nil _).symm rfl
  have hdifferent : pin (run samplePlatform ⟨none, none⟩ overlapping) "lan:0:0" ≠
      pin (run samplePlatform ⟨none, none⟩ (overlapping ++ [.answer 1 (.written (.ok ()))]))
        "lan:0:0" := by decide
  exact hdifferent hpinned.symm

end Controlis.Viewer
