import Mathlib.Data.List.Induction
import Mathlib.Data.List.Nodup
import Mathlib.Data.Option.Basic
import Mathlib.Logic.Function.Basic
import Mathlib.Tactic.Common
import Controlis.Foundation.Timeline

/-!
# The rendezvous store and its history

`RendezvousStore` holds one registration per session id. Nothing runs when a
registration expires: every operation first discards all expired entries and
then looks at what is left. The specification does without that laziness. The
`lastGrant` of an id in a trace of served calls is the latest successful
register or refresh that no successful unregister followed, and a call is
answered from the grant alone, as long as its time to live has not run out.
Instants are nanoseconds; a call carries the clock readings it makes and a
register the token it would generate.
-/

namespace Controlis.Rendezvous
open Timeline (Ordered fromSecs)

def sessionIdBits : ℕ := 48
def sessionIdMask : UInt64 := ((1 : UInt64) <<< 48) - 1
def defaultTtlSecs : ℕ := 60
def maxTtlSecs : ℕ := 120

structure SessionId where
  id : UInt64
deriving DecidableEq, Repr

structure EndpointDescriptor where
  endpointId : String
  relayUrl : Option String
  directAddrs : List String
deriving DecidableEq, Repr

structure RegisterRequest where
  sessionId : SessionId
  endpoint : EndpointDescriptor
  ttlSecs : Option ℕ
deriving DecidableEq, Repr

structure RegisterResponse where
  token : String
  expiresAtUnix : ℕ
deriving DecidableEq, Repr

structure RefreshRequest where
  sessionId : SessionId
  token : String
  endpoint : EndpointDescriptor
  ttlSecs : Option ℕ
deriving DecidableEq, Repr

structure LookupResponse where
  endpoint : EndpointDescriptor
  expiresAtUnix : ℕ
deriving DecidableEq, Repr

structure UnregisterRequest where
  sessionId : SessionId
  token : String
deriving DecidableEq, Repr

inductive RendezvousError
  | sessionIdOutOfRange
  | alreadyRegistered
  | notFound
  | tokenMismatch
deriving DecidableEq, Repr

def RendezvousError.message : RendezvousError → String
  | .sessionIdOutOfRange => s!"session id must fit in {sessionIdBits} bits"
  | .alreadyRegistered => "session id is already registered"
  | .notFound => "session id is not registered"
  | .tokenMismatch => "registration token does not match"

def SessionId.new (id : UInt64) : Except RendezvousError SessionId :=
  if sessionIdMask < id then .error .sessionIdOutOfRange else .ok ⟨id⟩

structure Registration where
  token : String
  endpoint : EndpointDescriptor
  expiresAt : ℕ
  expiresAtUnix : ℕ
deriving DecidableEq, Repr

structure RendezvousStore where
  entries : SessionId → Option Registration

namespace RendezvousStore

def new : RendezvousStore := ⟨fun _ => none⟩

def ttl (requested : Option ℕ) : ℕ := min (requested.getD defaultTtlSecs) maxTtlSecs

def purgeExpiredAt (store : RendezvousStore) (now : ℕ) : RendezvousStore :=
  ⟨fun id => (store.entries id).filter fun entry => now < entry.expiresAt⟩

def registerAt (store : RendezvousStore) (request : RegisterRequest) (token : String)
    (now nowUnix : ℕ) : Except RendezvousError RegisterResponse × RendezvousStore :=
  let store := store.purgeExpiredAt now
  match store.entries request.sessionId with
  | some _ => (.error .alreadyRegistered, store)
  | none =>
    let expiresAt := now + fromSecs (ttl request.ttlSecs)
    let expiresAtUnix := nowUnix + ttl request.ttlSecs
    (.ok ⟨token, expiresAtUnix⟩,
      ⟨Function.update store.entries request.sessionId
        (some ⟨token, request.endpoint, expiresAt, expiresAtUnix⟩)⟩)

def refreshAt (store : RendezvousStore) (request : RefreshRequest) (now nowUnix : ℕ) :
    Except RendezvousError RegisterResponse × RendezvousStore :=
  let store := store.purgeExpiredAt now
  match store.entries request.sessionId with
  | none => (.error .notFound, store)
  | some existing =>
    if existing.token ≠ request.token then (.error .tokenMismatch, store)
    else
      let existing := { existing with
        endpoint := request.endpoint
        expiresAt := now + fromSecs (ttl request.ttlSecs)
        expiresAtUnix := nowUnix + ttl request.ttlSecs }
      (.ok ⟨existing.token, existing.expiresAtUnix⟩,
        ⟨Function.update store.entries request.sessionId (some existing)⟩)

def lookupAt (store : RendezvousStore) (sessionId : SessionId) (now : ℕ) :
    Except RendezvousError LookupResponse × RendezvousStore :=
  let store := store.purgeExpiredAt now
  match store.entries sessionId with
  | none => (.error .notFound, store)
  | some existing => (.ok ⟨existing.endpoint, existing.expiresAtUnix⟩, store)

def unregisterAt (store : RendezvousStore) (request : UnregisterRequest) (now : ℕ) :
    Except RendezvousError Unit × RendezvousStore :=
  let store := store.purgeExpiredAt now
  match store.entries request.sessionId with
  | none => (.error .notFound, store)
  | some existing =>
    if existing.token ≠ request.token then (.error .tokenMismatch, store)
    else (.ok (), ⟨Function.update store.entries request.sessionId none⟩)

end RendezvousStore
open RendezvousStore

inductive Call
  | register (request : RegisterRequest) (token : String)
  | refresh (request : RefreshRequest)
  | lookup (sessionId : SessionId)
  | unregister (request : UnregisterRequest)
deriving DecidableEq, Repr

inductive Reply
  | registered (response : Except RendezvousError RegisterResponse)
  | refreshed (response : Except RendezvousError RegisterResponse)
  | found (response : Except RendezvousError LookupResponse)
  | unregistered (response : Except RendezvousError Unit)

structure Request where
  now : ℕ
  nowUnix : ℕ
  call : Call
deriving DecidableEq, Repr

def RendezvousStore.serve (store : RendezvousStore) (r : Request) : Reply × RendezvousStore :=
  match r.call with
  | .register request token =>
    ((.registered (store.registerAt request token r.now r.nowUnix).1),
      (store.registerAt request token r.now r.nowUnix).2)
  | .refresh request =>
    ((.refreshed (store.refreshAt request r.now r.nowUnix).1),
      (store.refreshAt request r.now r.nowUnix).2)
  | .lookup sessionId =>
    ((.found (store.lookupAt sessionId r.now).1), (store.lookupAt sessionId r.now).2)
  | .unregister request =>
    ((.unregistered (store.unregisterAt request r.now).1), (store.unregisterAt request r.now).2)

def RendezvousStore.after (store : RendezvousStore) (rs : List Request) : RendezvousStore :=
  rs.foldl (fun store r => (store.serve r).2) store

def RendezvousStore.trace : RendezvousStore → List Request → List (Request × Reply)
  | _, [] => []
  | store, r :: rs => (r, (store.serve r).1) :: trace (store.serve r).2 rs

structure Grant where
  token : String
  endpoint : EndpointDescriptor
  ttlSecs : Option ℕ
  grantedAt : ℕ
  grantedAtUnix : ℕ
deriving DecidableEq, Repr

/-- Sixty seconds unless the request says otherwise, and never over 120. -/
def Grant.liveAt (g : Grant) (now : ℕ) : Prop :=
  now < g.grantedAt + fromSecs (min (g.ttlSecs.getD 60) 120)

instance (g : Grant) (now : ℕ) : Decidable (g.liveAt now) := inferInstanceAs (Decidable (_ < _))

/-- A refresh renews the grant of the register before it, token included. -/
def grantStep (id : SessionId) (g : Option Grant) : Request × Reply → Option Grant
  | (⟨now, unix, .register request _⟩, .registered (.ok response)) =>
    if request.sessionId = id then
      some ⟨response.token, request.endpoint, request.ttlSecs, now, unix⟩
    else g
  | (⟨now, unix, .refresh request⟩, .refreshed (.ok _)) =>
    if request.sessionId = id then
      g.map fun g => ⟨g.token, request.endpoint, request.ttlSecs, now, unix⟩
    else g
  | (⟨_, _, .unregister request⟩, .unregistered (.ok _)) =>
    if request.sessionId = id then none else g
  | _ => g

def lastGrant (id : SessionId) (history : List (Request × Reply)) : Option Grant :=
  history.foldl (grantStep id) none

def issuedToken : Request × Reply → Option String
  | (_, .registered (.ok response)) => some response.token
  | _ => none

def issued (history : List (Request × Reply)) : List String := history.filterMap issuedToken

def Reply.succeeds : Reply → Bool
  | .registered (.ok _) | .refreshed (.ok _) | .found (.ok _) | .unregistered (.ok _) => true
  | _ => false

def liveGrant (id : SessionId) (history : List (Request × Reply)) (now : ℕ) : Option Grant :=
  (lastGrant id history).filter fun g => g.liveAt now

def Grant.registration (g : Grant) : Registration where
  token := g.token
  endpoint := g.endpoint
  expiresAt := g.grantedAt + fromSecs (ttl g.ttlSecs)
  expiresAtUnix := g.grantedAtUnix + ttl g.ttlSecs

theorem Grant.liveAt_iff (g : Grant) (now : ℕ) :
    g.liveAt now ↔ now < g.registration.expiresAt := Iff.rfl

def unexpired (entry : Option Registration) (now : ℕ) : Option Registration :=
  entry.filter fun entry => now < entry.expiresAt

theorem purge_entries (store : RendezvousStore) (now : ℕ) (id : SessionId) :
    (store.purgeExpiredAt now).entries id = unexpired (store.entries id) now := rfl

theorem unexpired_unexpired (entry : Option Registration) {t u : ℕ} (h : t ≤ u) :
    unexpired (unexpired entry t) u = unexpired entry u := by
  cases entry with
  | none => rfl
  | some r =>
    by_cases ht : t < r.expiresAt
    · simp [unexpired, Option.filter, ht]
    · have hu : ¬ u < r.expiresAt := by omega
      simp [unexpired, Option.filter, ht, hu]

theorem purge_purge (store : RendezvousStore) {t u : ℕ} (h : t ≤ u) :
    (store.purgeExpiredAt t).purgeExpiredAt u = store.purgeExpiredAt u := by
  simp only [purgeExpiredAt]
  congr 1
  funext id
  exact unexpired_unexpired (store.entries id) h

theorem unexpired_registration (g : Option Grant) (now : ℕ) :
    unexpired (g.map Grant.registration) now =
      (g.filter fun g => g.liveAt now).map Grant.registration := by
  cases g with
  | none => rfl
  | some g =>
    by_cases h : g.liveAt now
    · have h' := (g.liveAt_iff now).mp h
      simp [unexpired, Option.filter, h, h']
    · have h' := mt (g.liveAt_iff now).mpr h
      simp [unexpired, Option.filter, h, h']

/-- From `t` on the store and the history's grants hold the same registrations. -/
def Agrees (t : ℕ) (store : RendezvousStore) (history : List (Request × Reply)) : Prop :=
  ∀ id, unexpired (store.entries id) t = unexpired ((lastGrant id history).map Grant.registration) t

theorem agrees_new : Agrees 0 new [] := fun _ => rfl

theorem Agrees.mono {t u : ℕ} {store : RendezvousStore} {history : List (Request × Reply)}
    (h : Agrees t store history) (htu : t ≤ u) : Agrees u store history := by
  intro id
  have hid := congrArg (unexpired · u) (h id)
  simpa only [unexpired_unexpired _ htu] using hid

theorem Agrees.entries {t : ℕ} {store : RendezvousStore} {history : List (Request × Reply)}
    (h : Agrees t store history) (id : SessionId) :
    (store.purgeExpiredAt t).entries id = (liveGrant id history t).map Grant.registration := by
  rw [purge_entries, h id, unexpired_registration, liveGrant]

def Call.sessionId : Call → SessionId
  | .register request _ => request.sessionId
  | .refresh request => request.sessionId
  | .lookup id => id
  | .unregister request => request.sessionId

def answer (g : Option Grant) (r : Request) : Reply :=
  match r.call with
  | .register request token =>
    .registered (match g with
      | some _ => .error .alreadyRegistered
      | none => .ok ⟨token, r.nowUnix + ttl request.ttlSecs⟩)
  | .refresh request =>
    .refreshed (match g with
      | none => .error .notFound
      | some g => if g.token = request.token then
          .ok ⟨g.token, r.nowUnix + ttl request.ttlSecs⟩ else .error .tokenMismatch)
  | .lookup _ =>
    .found (match g with
      | none => .error .notFound
      | some g => .ok ⟨g.endpoint, g.grantedAtUnix + ttl g.ttlSecs⟩)
  | .unregister request =>
    .unregistered (match g with
      | none => .error .notFound
      | some g => if g.token = request.token then .ok () else .error .tokenMismatch)

theorem serve_reply {store : RendezvousStore} {history : List (Request × Reply)} {r : Request}
    (h : Agrees r.now store history) :
    (store.serve r).1 = answer (liveGrant r.call.sessionId history r.now) r := by
  have he := h.entries r.call.sessionId
  cases hc : r.call with
  | register request token =>
    simp only [hc, Call.sessionId] at he
    simp only [serve, hc, answer, registerAt, Call.sessionId, he]
    cases hg : liveGrant request.sessionId history r.now <;> simp
  | refresh request =>
    simp only [hc, Call.sessionId] at he
    simp only [serve, hc, answer, refreshAt, Call.sessionId, he]
    cases hg : liveGrant request.sessionId history r.now with
    | none => simp
    | some g =>
      by_cases ht : g.token = request.token <;> simp [Grant.registration, ht]
  | lookup id =>
    simp only [hc, Call.sessionId] at he
    simp only [serve, hc, answer, lookupAt, Call.sessionId, he]
    cases hg : liveGrant id history r.now <;> simp [Grant.registration]
  | unregister request =>
    simp only [hc, Call.sessionId] at he
    simp only [serve, hc, answer, unregisterAt, Call.sessionId, he]
    cases hg : liveGrant request.sessionId history r.now with
    | none => simp
    | some g =>
      by_cases ht : g.token = request.token <;> simp [Grant.registration, ht]

theorem lastGrant_append (id : SessionId) (history : List (Request × Reply))
    (e : Request × Reply) :
    lastGrant id (history ++ [e]) = grantStep id (lastGrant id history) e := by
  simp [lastGrant, List.foldl_append]

theorem Agrees.serve {store : RendezvousStore} {history : List (Request × Reply)} {r : Request}
    (h : Agrees r.now store history) :
    Agrees r.now (store.serve r).2 (history ++ [(r, (store.serve r).1)]) := by
  intro id
  have hreply := serve_reply h
  have he := h.entries r.call.sessionId
  have hid := h id
  rw [← unexpired_unexpired (store.entries id) le_rfl, ← purge_entries] at hid
  rw [lastGrant_append, hreply]
  obtain ⟨now, unix, call⟩ := r
  cases call with
  | register request token =>
    simp only [Call.sessionId] at he
    simp only [RendezvousStore.serve, answer, registerAt, Call.sessionId, he]
    cases hg : liveGrant request.sessionId history now with
    | some g => simpa [grantStep] using hid
    | none =>
      by_cases heq : request.sessionId = id
      · subst heq
        simp [grantStep, Grant.registration]
      · simp [grantStep, heq, Function.update_of_ne (Ne.symm heq), hid]
  | refresh request =>
    simp only [Call.sessionId] at he
    simp only [RendezvousStore.serve, answer, refreshAt, Call.sessionId, he]
    cases hg : liveGrant request.sessionId history now with
    | none => simpa [grantStep] using hid
    | some g =>
      have hlast : lastGrant request.sessionId history = some g :=
        (Option.filter_eq_some_iff.mp hg).1
      by_cases ht : g.token = request.token
      · by_cases heq : request.sessionId = id
        · subst heq
          simp [grantStep, Grant.registration, ht, hlast]
        · simp [grantStep, Grant.registration, ht, heq, Function.update_of_ne (Ne.symm heq), hid]
      · simpa [grantStep, Grant.registration, ht] using hid
  | lookup sessionId =>
    simp only [Call.sessionId] at he
    simp only [RendezvousStore.serve, answer, lookupAt, Call.sessionId, he]
    cases hg : liveGrant sessionId history now <;> simpa [grantStep] using hid
  | unregister request =>
    simp only [Call.sessionId] at he
    simp only [RendezvousStore.serve, answer, unregisterAt, Call.sessionId, he]
    cases hg : liveGrant request.sessionId history now with
    | none => simpa [grantStep] using hid
    | some g =>
      by_cases ht : g.token = request.token
      · by_cases heq : request.sessionId = id
        · subst heq
          simp [grantStep, Grant.registration, ht, unexpired]
        · simp [grantStep, Grant.registration, ht, heq, Function.update_of_ne (Ne.symm heq), hid]
      · simpa [grantStep, Grant.registration, ht] using hid

theorem trace_append (store : RendezvousStore) (xs ys : List Request) :
    store.trace (xs ++ ys) = store.trace xs ++ (store.after xs).trace ys := by
  induction xs generalizing store with
  | nil => rfl
  | cons x xs ih =>
    simp only [List.cons_append, RendezvousStore.trace, ih]
    rfl

theorem after_append (store : RendezvousStore) (xs ys : List Request) :
    store.after (xs ++ ys) = (store.after xs).after ys := List.foldl_append ..

theorem Agrees.after {store : RendezvousStore} {history : List (Request × Reply)} {t : ℕ}
    {rs : List Request} (h : Agrees t store history)
    (hord : Ordered Request.now Request.now t rs) :
    Agrees (Timeline.horizon Request.now t rs) (store.after rs) (history ++ store.trace rs) := by
  induction rs generalizing store history t with
  | nil => simpa [RendezvousStore.trace, RendezvousStore.after, Timeline.horizon] using h
  | cons r rs ih =>
    have hstep := (h.mono hord.1).serve
    have hrest := ih hstep hord.2.2
    simpa [RendezvousStore.trace, RendezvousStore.after, Timeline.horizon] using hrest

theorem reply_eq_answer {pre post : List Request} {r : Request}
    (hord : Ordered Request.now Request.now 0 (pre ++ r :: post)) :
    ((new.after pre).serve r).1 =
      answer (liveGrant r.call.sessionId (new.trace pre) r.now) r := by
  obtain ⟨hpre, hr, -⟩ := Timeline.ordered_append.mp hord
  have hagree := (agrees_new.after hpre).mono hr
  exact serve_reply hagree

theorem serve_purge (store : RendezvousStore) (r : Request) {t : ℕ} (h : t ≤ r.now) :
    (store.purgeExpiredAt t).serve r = store.serve r := by
  cases hc : r.call <;>
    simp only [RendezvousStore.serve, hc, registerAt, refreshAt, lookupAt, unregisterAt,
      purge_purge store h]

/-- Purging earlier than needed is invisible to every later call. -/
theorem trace_purge (store : RendezvousStore) {t : ℕ} {rs : List Request}
    (hord : Ordered Request.now Request.now t rs) :
    (store.purgeExpiredAt t).trace rs = store.trace rs := by
  cases rs with
  | nil => rfl
  | cons r rs => simp only [RendezvousStore.trace, serve_purge store r hord.1]

theorem serve_failed {store : RendezvousStore} {r : Request}
    (h : (store.serve r).1.succeeds = false) :
    (store.serve r).2 = store.purgeExpiredAt r.now := by
  cases hc : r.call with
  | register request token =>
    simp only [RendezvousStore.serve, hc, registerAt] at h ⊢
    split at h
    · rfl
    · simp [Reply.succeeds] at h
  | refresh request =>
    simp only [RendezvousStore.serve, hc, refreshAt] at h ⊢
    split at h
    · rfl
    · split_ifs at h ⊢
      · rfl
      · simp [Reply.succeeds] at h
  | lookup id =>
    simp only [RendezvousStore.serve, hc, lookupAt]
    split <;> rfl
  | unregister request =>
    simp only [RendezvousStore.serve, hc, unregisterAt] at h ⊢
    split at h
    · rfl
    · split_ifs at h ⊢
      · rfl
      · simp [Reply.succeeds] at h

theorem unexpired_some {entry : Option Registration} {now : ℕ} {r : Registration}
    (h : unexpired entry now = some r) : entry = some r :=
  (Option.filter_eq_some_iff.mp h).1

theorem serve_stored {store : RendezvousStore} {r : Request} {id : SessionId} {entry : Registration}
    (h : (store.serve r).2.entries id = some entry) : (∃ old, store.entries id = some old) ∨
      ∃ request token, r.call = .register request token ∧ request.sessionId = id := by
  have hpurged {e : Registration} (he : (store.purgeExpiredAt r.now).entries id = some e) :
      ∃ old, store.entries id = some old := ⟨e, unexpired_some he⟩
  cases hc : r.call with
  | register request token =>
    simp only [RendezvousStore.serve, hc, registerAt] at h
    by_cases hid : request.sessionId = id
    · exact .inr ⟨request, token, rfl, hid⟩
    · split at h
      · exact .inl (hpurged h)
      · dsimp only at h
        rw [Function.update_of_ne (Ne.symm hid)] at h
        exact .inl (hpurged h)
  | refresh request =>
    simp only [RendezvousStore.serve, hc, refreshAt] at h
    split at h
    · exact .inl (hpurged h)
    · rename_i old hold
      split_ifs at h
      · exact .inl (hpurged h)
      · by_cases hid : request.sessionId = id
        · exact .inl (hpurged (hid ▸ hold))
        · dsimp only at h
          rw [Function.update_of_ne (Ne.symm hid)] at h
          exact .inl (hpurged h)
  | lookup sessionId =>
    simp only [RendezvousStore.serve, hc, lookupAt] at h
    split at h <;> exact .inl (hpurged h)
  | unregister request =>
    simp only [RendezvousStore.serve, hc, unregisterAt] at h
    split at h
    · exact .inl (hpurged h)
    · split_ifs at h
      · exact .inl (hpurged h)
      · by_cases hid : request.sessionId = id
        · dsimp only at h
          rw [hid, Function.update_self] at h
          cases h
        · dsimp only at h
          rw [Function.update_of_ne (Ne.symm hid)] at h
          exact .inl (hpurged h)

theorem serve_register_stored (store : RendezvousStore) {r : Request} {request : RegisterRequest}
    {token : String} (hc : r.call = .register request token) :
    ∃ entry, (store.serve r).2.entries request.sessionId = some entry := by
  simp only [RendezvousStore.serve, hc, registerAt]
  split
  · rename_i old hold
    exact ⟨old, hold⟩
  · exact ⟨_, Function.update_self ..⟩

def IssuedTo (id : SessionId) (token : String) (history : List (Request × Reply)) : Prop :=
  ∃ e ∈ history, issuedToken e = some token ∧ e.1.call.sessionId = id

theorem IssuedTo.mono {id : SessionId} {token : String} {history later : List (Request × Reply)}
    (h : IssuedTo id token history) : IssuedTo id token (history ++ later) := by
  obtain ⟨e, he, hrest⟩ := h
  exact ⟨e, List.mem_append_left _ he, hrest⟩

theorem filterMap_nodup_unique {α β : Type*} {f : α → Option β} {l : List α} {a b : α} {x : β}
    (h : (l.filterMap f).Nodup) (ha : a ∈ l) (hb : b ∈ l) (hfa : f a = some x)
    (hfb : f b = some x) : a = b := by
  induction l with
  | nil => cases ha
  | cons c l ih =>
    have hmem : ∀ d ∈ l, f d = some x → x ∈ l.filterMap f :=
      fun d hd hfd => List.mem_filterMap.mpr ⟨d, hd, hfd⟩
    rcases List.mem_cons.mp ha with hac | ha' <;> rcases List.mem_cons.mp hb with hbc | hb'
    · rw [hac, hbc]
    · subst hac
      rw [List.filterMap_cons_some hfa, List.nodup_cons] at h
      exact absurd (hmem b hb' hfb) h.1
    · subst hbc
      rw [List.filterMap_cons_some hfb, List.nodup_cons] at h
      exact absurd (hmem a ha' hfa) h.1
    · refine ih ?_ ha' hb'
      cases hc : f c with
      | none => rwa [List.filterMap_cons_none hc] at h
      | some y =>
        rw [List.filterMap_cons_some hc, List.nodup_cons] at h
        exact h.2

theorem IssuedTo.unique {id id' : SessionId} {token : String}
    {history : List (Request × Reply)} (hfresh : (issued history).Nodup)
    (h : IssuedTo id token history) (h' : IssuedTo id' token history) : id = id' := by
  obtain ⟨e, he, hte, rfl⟩ := h
  obtain ⟨e', he', hte', rfl⟩ := h'
  rw [filterMap_nodup_unique hfresh he he' hte hte']

/-- What a served call can do to the grant of an id. -/
inductive GrantChange (id : SessionId) (g : Option Grant) (e : Request × Reply) :
    Option Grant → Prop
  | same : GrantChange id g e g
  | registered (g' : Grant) (h : issuedToken e = some g'.token) (hid : e.1.call.sessionId = id) :
      GrantChange id g e (some g')
  | renewed {old g' : Grant} {request : RefreshRequest} {response : RegisterResponse}
      (hold : g = some old) (htoken : g'.token = old.token) (hc : e.1.call = .refresh request)
      (hr : e.2 = .refreshed (.ok response)) (hid : request.sessionId = id) :
      GrantChange id g e (some g')
  | removed : GrantChange id g e none

theorem grantStep_change (id : SessionId) (g : Option Grant) (e : Request × Reply) :
    GrantChange id g e (grantStep id g e) := by
  obtain ⟨⟨now, unix, call⟩, reply⟩ := e
  rcases call with ⟨request, token⟩ | request | sessionId | request <;>
    rcases reply with response | response | response | response <;> try exact .same
  · rcases response with e | response
    · exact .same
    · by_cases hid : request.sessionId = id
      · simp only [grantStep, hid, ↓reduceIte]
        exact .registered _ rfl hid
      · simp only [grantStep, hid, ↓reduceIte]
        exact .same
  · rcases response with e | response
    · exact .same
    · by_cases hid : request.sessionId = id
      · simp only [grantStep, hid, ↓reduceIte]
        cases g with
        | none => exact .same
        | some old => exact .renewed rfl rfl rfl rfl hid
      · simp only [grantStep, hid, ↓reduceIte]
        exact .same
  · rcases response with e | response
    · exact .same
    · by_cases hid : request.sessionId = id
      · simp only [grantStep, hid, ↓reduceIte]
        exact .removed
      · simp only [grantStep, hid, ↓reduceIte]
        exact .same

theorem lastGrant_issued (id : SessionId) (history : List (Request × Reply)) :
    ∀ g, lastGrant id history = some g → IssuedTo id g.token history := by
  induction history using List.reverseRecOn with
  | nil => rintro g ⟨⟩
  | append_singleton history e ih =>
    intro g hg
    rw [lastGrant_append] at hg
    have hchange := grantStep_change id (lastGrant id history) e
    rw [hg] at hchange
    generalize ho : some g = o at hchange
    cases hchange with
    | same => exact (ih g ho.symm).mono
    | registered g' h hid =>
      rw [Option.some.injEq] at ho
      subst ho
      exact ⟨e, by simp, h, hid⟩
    | renewed hold htoken _ _ _ =>
      rw [Option.some.injEq] at ho
      subst ho
      rw [htoken]
      exact (ih _ hold).mono
    | removed => cases ho

def Call.presents : Call → Option String
  | .refresh request => some request.token
  | .unregister request => some request.token
  | _ => none

def Dead (token : String) (t : ℕ) (history : List (Request × Reply)) : Prop :=
  ∀ id g, lastGrant id history = some g → g.token = token → ¬ g.liveAt t

theorem Grant.liveAt_anti {g : Grant} {t u : ℕ} (h : g.liveAt u) (htu : t ≤ u) : g.liveAt t :=
  lt_of_le_of_lt htu h

theorem Dead.answer_fails {token : String} {t : ℕ} {history : List (Request × Reply)}
    {r : Request} (hdead : Dead token t history) (ht : t ≤ r.now)
    (hp : r.call.presents = some token) :
    (answer (liveGrant r.call.sessionId history r.now) r).succeeds = false := by
  have hlive : ∀ g, liveGrant r.call.sessionId history r.now = some g → g.token ≠ token := by
    intro g hg htok
    obtain ⟨hlast, hnow⟩ := Option.filter_eq_some_iff.mp hg
    exact hdead _ g hlast htok (g.liveAt_anti (of_decide_eq_true hnow) ht)
  cases hc : r.call with
  | register request token => simp [hc, Call.presents] at hp
  | lookup id => simp [hc, Call.presents] at hp
  | refresh request =>
    simp only [hc, Call.presents, Option.some.injEq] at hp
    simp only [hc, Call.sessionId] at hlive
    simp only [answer, hc, Call.sessionId]
    cases hg : liveGrant request.sessionId history r.now with
    | none => rfl
    | some g =>
      have hne : g.token ≠ request.token := hp ▸ hlive g hg
      simp [hne, Reply.succeeds]
  | unregister request =>
    simp only [hc, Call.presents, Option.some.injEq] at hp
    simp only [hc, Call.sessionId] at hlive
    simp only [answer, hc, Call.sessionId]
    cases hg : liveGrant request.sessionId history r.now with
    | none => rfl
    | some g =>
      have hne : g.token ≠ request.token := hp ▸ hlive g hg
      simp [hne, Reply.succeeds]

theorem answer_refreshed {history : List (Request × Reply)} {r : Request}
    {request : RefreshRequest} {response : RegisterResponse} (hc : r.call = .refresh request)
    (hr : answer (liveGrant r.call.sessionId history r.now) r = .refreshed (.ok response)) :
    ∃ g, lastGrant request.sessionId history = some g ∧ g.token = request.token := by
  simp only [answer, hc, Call.sessionId] at hr
  cases hg : liveGrant request.sessionId history r.now with
  | none => simp [hg] at hr
  | some g =>
    refine ⟨g, (Option.filter_eq_some_iff.mp hg).1, ?_⟩
    by_contra hne
    simp [hg, hne] at hr

theorem Dead.step {id : SessionId} {token : String} {t : ℕ} {history : List (Request × Reply)}
    {r : Request} (hdead : Dead token t history) (ht : t ≤ r.now)
    (hissued : IssuedTo id token history)
    (hfresh :
      (issued (history ++ [(r, answer (liveGrant r.call.sessionId history r.now) r)])).Nodup) :
    Dead token t (history ++ [(r, answer (liveGrant r.call.sessionId history r.now) r)]) := by
  set e := (r, answer (liveGrant r.call.sessionId history r.now) r) with he
  intro id' g hg htok
  rw [lastGrant_append] at hg
  have hchange := grantStep_change id' (lastGrant id' history) e
  rw [hg] at hchange
  generalize ho : some g = o at hchange
  cases hchange with
  | same => exact hdead id' g ho.symm htok
  | registered g' h hid =>
    rw [Option.some.injEq] at ho
    subst ho
    rw [htok] at h
    obtain ⟨e', he', htok', -⟩ := hissued
    have hmem : token ∈ issued history := List.mem_filterMap.mpr ⟨e', he', htok'⟩
    simp only [issued, List.filterMap_append, List.nodup_append] at hfresh
    exact absurd rfl (hfresh.2.2 token hmem token (by simp [h]))
  | renewed hold htoken hc hr hid =>
    rw [Option.some.injEq] at ho
    subst ho
    -- the refresh succeeded, so it presented the token of the grant it renewed
    obtain ⟨old', hold', htok'⟩ := answer_refreshed hc hr
    rw [hid, hold, Option.some.injEq] at hold'
    subst hold'
    have hp : r.call.presents = some token := by
      simp [he] at hc
      simp [hc, Call.presents, ← htok', ← htoken, htok]
    have hfail := hdead.answer_fails ht hp
    simp only [he] at hr
    rw [hr] at hfail
    cases hfail
  | removed => cases ho

theorem trace_snoc {pre : List Request} {r : Request}
    (hord : Ordered Request.now Request.now 0 (pre ++ [r])) :
    new.trace (pre ++ [r]) =
      new.trace pre ++ [(r, answer (liveGrant r.call.sessionId (new.trace pre) r.now) r)] := by
  rw [trace_append, ← reply_eq_answer hord]
  rfl

theorem Dead.after {id : SessionId} {token : String} {t : ℕ} {early late : List Request}
    (hord : Ordered Request.now Request.now 0 (early ++ late))
    (hlate : ∀ r ∈ late, t ≤ r.now)
    (hfresh : (issued (new.trace (early ++ late))).Nodup)
    (hissued : IssuedTo id token (new.trace early)) (hdead : Dead token t (new.trace early)) :
    Dead token t (new.trace (early ++ late)) := by
  induction late using List.reverseRecOn with
  | nil => simpa using hdead
  | append_singleton late r ih =>
    rw [← List.append_assoc] at hord hfresh ⊢
    have hmem : ∀ x ∈ late, t ≤ x.now := fun x hx => hlate x (List.mem_append_left _ hx)
    have hsnoc := trace_snoc hord
    rw [hsnoc] at hfresh ⊢
    have hfresh' : (issued (new.trace (early ++ late))).Nodup := by
      rw [issued, List.filterMap_append] at hfresh
      exact (List.nodup_append.mp hfresh).1
    have hdead' := ih (Timeline.ordered_append.mp hord).1 hmem hfresh'
    have hissued' : IssuedTo id token (new.trace (early ++ late)) := by
      rw [trace_append]
      exact hissued.mono
    exact hdead'.step (hlate r (by simp)) hissued' hfresh

/-- The registration of `id` under `token` was made and is over by `t`: it
expired, or a successful unregister removed it. -/
def Gone (id : SessionId) (token : String) (t : ℕ) (history : List (Request × Reply)) : Prop :=
  IssuedTo id token history ∧ ∀ g, liveGrant id history t = some g → g.token ≠ token

theorem Gone.dead {id : SessionId} {token : String} {t : ℕ} {history : List (Request × Reply)}
    (hfresh : (issued history).Nodup) (h : Gone id token t history) : Dead token t history := by
  intro id' g hg htok hlive
  have hid : id = id' := h.1.unique hfresh (htok ▸ lastGrant_issued id' history g hg)
  subst hid
  exact h.2 g (Option.filter_eq_some_iff.mpr ⟨hg, decide_eq_true hlive⟩) htok

theorem liveGrant_eq_some {id : SessionId} {history : List (Request × Reply)} {now : ℕ}
    {g : Grant} : liveGrant id history now = some g ↔
      lastGrant id history = some g ∧ g.liveAt now := by
  simp [liveGrant, Option.filter_eq_some_iff]

theorem answer_lookup (g : Option Grant) {r : Request} {id : SessionId}
    (hc : r.call = .lookup id) :
    ((answer g r).succeeds = true ↔ ∃ x, g = some x) ∧
      ∀ response, answer g r = .found (.ok response) →
        ∃ x, g = some x ∧ response.endpoint = x.endpoint := by
  cases g with
  | none => simp [answer, hc, Reply.succeeds]
  | some x => simp [answer, hc, Reply.succeeds]

theorem answer_register (g : Option Grant) {r : Request} {request : RegisterRequest}
    {token : String} (hc : r.call = .register request token) :
    (answer g r).succeeds = true ↔ g = none := by
  cases g <;> simp [answer, hc, Reply.succeeds]

theorem answer_token (g : Option Grant) {r : Request} {token : String}
    (hp : r.call.presents = some token) :
    (answer g r).succeeds = true ↔ ∃ x, g = some x ∧ x.token = token := by
  cases hc : r.call with
  | register request token => simp [hc, Call.presents] at hp
  | lookup id => simp [hc, Call.presents] at hp
  | refresh request =>
    simp only [hc, Call.presents, Option.some.injEq] at hp
    subst hp
    cases g with
    | none => simp [answer, hc, Reply.succeeds]
    | some x => by_cases h : x.token = request.token <;> simp [answer, hc, Reply.succeeds, h]
  | unregister request =>
    simp only [hc, Call.presents, Option.some.injEq] at hp
    subst hp
    cases g with
    | none => simp [answer, hc, Reply.succeeds]
    | some x => by_cases h : x.token = request.token <;> simp [answer, hc, Reply.succeeds, h]

theorem issued_nodup_of_append {early late : List Request}
    (h : (issued (new.trace (early ++ late))).Nodup) : (issued (new.trace early)).Nodup := by
  rw [trace_append, issued, List.filterMap_append] at h
  exact (List.nodup_append.mp h).1

/-- The store answers every call from its history, whatever the purges did. -/
theorem store_answers_from_history (calls : List Request)
    (hord : Ordered Request.now Request.now 0 calls) (hfresh : (issued (new.trace calls)).Nodup) :
    ∀ pre r post, calls = pre ++ r :: post →
      let history := new.trace pre
      let reply := ((new.after pre).serve r).1
      (∀ id, r.call = .lookup id →
        (reply.succeeds = true ↔ ∃ g, lastGrant id history = some g ∧ g.liveAt r.now) ∧
        ∀ response, reply = .found (.ok response) →
          ∃ g, lastGrant id history = some g ∧ response.endpoint = g.endpoint) ∧
      (∀ request token, r.call = .register request token →
        (reply.succeeds = true ↔
          ¬ ∃ g, lastGrant request.sessionId history = some g ∧ g.liveAt r.now)) ∧
      (∀ token, r.call.presents = some token →
        (reply.succeeds = true ↔ ∃ g, lastGrant r.call.sessionId history = some g ∧
          g.liveAt r.now ∧ g.token = token)) ∧
      (∀ early late id token t, pre = early ++ late → (∀ x ∈ late, t ≤ x.now) → t ≤ r.now →
        Gone id token t (new.trace early) → r.call.presents = some token →
        reply.succeeds = false) ∧
      (reply.succeeds = false →
        (new.after (pre ++ [r])).trace post = (new.after pre).trace post) := by
  rintro pre r post rfl
  have hreply := reply_eq_answer hord
  have hpre : (issued (new.trace pre)).Nodup := issued_nodup_of_append hfresh
  refine ⟨?_, ?_, ?_, ?_, ?_⟩
  · intro id hc
    obtain ⟨hsucc, hend⟩ := answer_lookup (liveGrant id (new.trace pre) r.now) hc
    have hr : ((new.after pre).serve r).1 = answer (liveGrant id (new.trace pre) r.now) r := by
      rw [hreply, hc]
      rfl
    rw [hr]
    refine ⟨hsucc.trans (exists_congr fun g => liveGrant_eq_some), fun response h => ?_⟩
    obtain ⟨g, hg, hge⟩ := hend response h
    exact ⟨g, (liveGrant_eq_some.mp hg).1, hge⟩
  · intro request token hc
    rw [hreply, answer_register _ hc, hc, Option.eq_none_iff_forall_ne_some]
    simp only [ne_eq, liveGrant_eq_some, not_exists, Call.sessionId]
  · intro token hp
    rw [hreply, answer_token _ hp]
    simp only [liveGrant_eq_some, and_assoc]
  · rintro early late id token t rfl hlate ht hgone hp
    have hord' := (Timeline.ordered_append.mp hord).1
    have hearly : (issued (new.trace early)).Nodup := issued_nodup_of_append hpre
    rw [hreply]
    exact ((hgone.dead hearly).after hord' hlate hpre hgone.1).answer_fails ht hp
  · intro hfail
    have htail := (Timeline.ordered_append.mp hord).2.2.2
    rw [after_append]
    change ((new.after pre).serve r).2.trace post = _
    rw [serve_failed hfail]
    exact trace_purge _ htail

def endpointA : EndpointDescriptor := ⟨"a", none, []⟩

/-- A host registers, dies, another host takes the id over, and the first
host's refresh arrives late. -/
def takeover : List Request :=
  [⟨0, 1000, .register ⟨⟨7⟩, endpointA, some 30⟩ "aa"⟩,
    ⟨fromSecs 31, 1031, .register ⟨⟨7⟩, ⟨"b", none, []⟩, none⟩ "bb"⟩]

theorem store_answers_from_history_takeover :
    ((new.after takeover).serve
      ⟨fromSecs 40, 1040, .refresh ⟨⟨7⟩, "aa", endpointA, none⟩⟩).1.succeeds = false := by
  have h := store_answers_from_history
    (takeover ++ [⟨fromSecs 40, 1040, .refresh ⟨⟨7⟩, "aa", endpointA, none⟩⟩])
    (by simp [takeover, Ordered, fromSecs]) (by decide) takeover _ [] rfl
  refine h.2.2.2.1 (takeover.take 1) (takeover.drop 1) ⟨7⟩ "aa" (fromSecs 31) rfl
    (by simp [takeover]) (by decide) ⟨?_, ?_⟩ rfl
  · exact ⟨_, List.mem_cons_self .., rfl, rfl⟩
  · intro g hg
    exact absurd (liveGrant_eq_some.mp hg).2 (by
      have hlast := (liveGrant_eq_some.mp hg).1
      cases hlast
      decide)

end Controlis.Rendezvous
