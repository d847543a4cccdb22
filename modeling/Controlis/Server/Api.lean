import Mathlib.Data.UInt
import Controlis.Foundation.Runs
import Controlis.Rendezvous

/-!
# The rendezvous server

Four routes share one store and one rate limiter, each behind a mutex. A
request first counts against its sender's address and then, at a later instant
and with other requests in between, makes its call to the store. A body that
decodes is any value of its request type: the session id is read as a plain
64-bit number.
-/

namespace Controlis.Server
open Rendezvous Timeline

variable {A : Type*}

structure RateBucket where
  windowStarted : ℕ
  count : ℕ
deriving DecidableEq, Repr

structure RateLimiter (A : Type*) where
  buckets : A → Option RateBucket

def RateLimiter.check [DecidableEq A] (limiter : RateLimiter A) (ip : A) (maxRequests now : ℕ) :
    Bool × RateLimiter A :=
  if maxRequests = 0 then (false, limiter)
  else
    let buckets := fun ip =>
      (limiter.buckets ip).filter fun bucket => now - bucket.windowStarted < fromSecs 60
    let bucket := (buckets ip).getD ⟨now, 0⟩
    let bucket := if fromSecs 60 ≤ now - bucket.windowStarted then ⟨now, 0⟩ else bucket
    if maxRequests ≤ bucket.count then (false, ⟨Function.update buckets ip (some bucket)⟩)
    else (true, ⟨Function.update buckets ip (some { bucket with count := bucket.count + 1 })⟩)

inductive ApiError
  | rendezvous (e : RendezvousError)
  | rateLimited
deriving DecidableEq, Repr

def ApiError.intoResponse : ApiError → ℕ × String
  | .rendezvous .sessionIdOutOfRange => (400, "session id is out of range")
  | .rendezvous .alreadyRegistered => (409, "session id is already registered")
  | .rendezvous .notFound => (404, "session id is not registered")
  | .rendezvous .tokenMismatch => (403, "registration token does not match")
  | .rateLimited => (429, "too many requests")

inductive Response
  | registered (response : RegisterResponse)
  | found (response : LookupResponse)
  | noContent
  | error (e : ApiError)
deriving DecidableEq, Repr

def Response.ofReply : Reply → Response
  | .registered (.ok response) => .registered response
  | .refreshed (.ok response) => .registered response
  | .found (.ok response) => .found response
  | .unregistered (.ok _) => .noContent
  | .registered (.error e) | .refreshed (.error e) | .found (.error e) | .unregistered (.error e) =>
    .error (.rendezvous e)

inductive Body
  | register (request : RegisterRequest)
  | refresh (request : RefreshRequest)
  | lookup (sessionId : UInt64)
  | unregister (request : UnregisterRequest)
deriving DecidableEq, Repr

structure AppState (A : Type*) where
  now : ℕ
  store : RendezvousStore
  rateLimiter : RateLimiter A
  /-- The requests that passed the limiter and have not called the store, by arrival. -/
  pending : ℕ → Option Body
  arrived : ℕ
  /-- The calls the store has served. -/
  history : List (Request × Reply)

def AppState.new : AppState A where
  now := 0
  store := .new
  rateLimiter := ⟨fun _ => none⟩
  pending := fun _ => none
  arrived := 0
  history := []

namespace AppState

def call (s : AppState A) (nowUnix : ℕ) (c : Call) : Response × AppState A :=
  let request : Request := ⟨s.now, nowUnix, c⟩
  let (reply, store) := s.store.serve request
  (.ofReply reply, { s with store := store, history := s.history ++ [(request, reply)] })

def register (s : AppState A) (nowUnix : ℕ) (token : String) (request : RegisterRequest) :
    Response × AppState A :=
  s.call nowUnix (.register request token)

def refresh (s : AppState A) (nowUnix : ℕ) (request : RefreshRequest) : Response × AppState A :=
  s.call nowUnix (.refresh request)

def lookup (s : AppState A) (nowUnix : ℕ) (sessionId : UInt64) : Response × AppState A :=
  match SessionId.new sessionId with
  | .error e => (.error (.rendezvous e), s)
  | .ok sessionId => s.call nowUnix (.lookup sessionId)

def unregister (s : AppState A) (nowUnix : ℕ) (request : UnregisterRequest) :
    Response × AppState A :=
  s.call nowUnix (.unregister request)

def handle (s : AppState A) (nowUnix : ℕ) (token : String) : Body → Response × AppState A
  | .register request => s.register nowUnix token request
  | .refresh request => s.refresh nowUnix request
  | .lookup sessionId => s.lookup nowUnix sessionId
  | .unregister request => s.unregister nowUnix request

def elapse (s : AppState A) (elapsed : ℕ) : AppState A := { s with now := s.now + elapsed }

end AppState

/-- Some time passes, then a request arrives at the limiter, or one goes on to the store. -/
inductive Event (A : Type*)
  | arrive (elapsed : ℕ) (ip : A) (body : Body)
  | serve (elapsed nowUnix : ℕ) (token : String) (task : ℕ)

def step [DecidableEq A] (maxRequests : ℕ) (s : AppState A) : Event A → AppState A
  | .arrive elapsed ip body =>
    let s := s.elapse elapsed
    match s.rateLimiter.check ip maxRequests s.now with
    | (false, limiter) => { s with rateLimiter := limiter }
    | (true, limiter) =>
      { s with
        rateLimiter := limiter
        pending := Function.update s.pending s.arrived (some body)
        arrived := s.arrived + 1 }
  | .serve elapsed nowUnix token task =>
    let s := s.elapse elapsed
    match s.pending task with
    | none => s
    | some body =>
      { (s.handle nowUnix token body).2 with pending := Function.update s.pending task none }

def InRange (s : AppState A) : Prop :=
  ∀ id entry, s.store.entries id = some entry → id.id ≤ sessionIdMask

def Answered (s : AppState A) : Prop :=
  ∀ task sessionId, s.pending task = some (.lookup sessionId) → ∀ elapsed nowUnix grant,
    liveGrant ⟨sessionId⟩ s.history (s.now + elapsed) = some grant →
    ((s.elapse elapsed).lookup nowUnix sessionId).1 =
      .found ⟨grant.endpoint, grant.registration.expiresAtUnix⟩

structure Findable (s : AppState A) : Prop where
  inRange : InRange s
  answered : Answered s

def Registrable (s : AppState A) : Event A → Prop
  | .arrive _ _ _ => True
  | .serve _ _ _ task =>
    ∀ request, s.pending task = some (.register request) → request.sessionId.id ≤ sessionIdMask

/-- Between two events the store holds what the history grants, under ids that can be looked up. -/
structure Sound (s : AppState A) : Prop where
  agrees : Agrees s.now s.store s.history
  inRange : InRange s

variable {s : AppState A}

theorem Sound.new : Sound (.new : AppState A) := ⟨agrees_new, fun _ _ hentry => nomatch hentry⟩

theorem Sound.elapse (h : Sound s) (elapsed : ℕ) : Sound (s.elapse elapsed) :=
  ⟨h.agrees.mono (Nat.le_add_right _ _), h.inRange⟩

theorem sessionId_new {id : UInt64} (h : id ≤ sessionIdMask) : SessionId.new id = .ok ⟨id⟩ :=
  if_neg (UInt64.not_lt.mpr h)

theorem Sound.answered (h : Sound s) : Answered s := by
  intro task sessionId _ elapsed nowUnix grant hlive
  have hagrees : Agrees (s.now + elapsed) s.store s.history :=
    h.agrees.mono (Nat.le_add_right _ _)
  have hentry := hagrees.entries ⟨sessionId⟩
  rw [purge_entries, hlive] at hentry
  have hrange := h.inRange ⟨sessionId⟩ _ (unexpired_some hentry)
  have hreply := serve_reply (r := ⟨s.now + elapsed, nowUnix, .lookup ⟨sessionId⟩⟩) hagrees
  simp only [Call.sessionId, hlive] at hreply
  rw [AppState.lookup, sessionId_new hrange]
  exact congrArg Response.ofReply hreply

theorem Sound.findable (h : Sound s) : Findable s := ⟨h.inRange, h.answered⟩

theorem Sound.call (h : Sound s) (nowUnix : ℕ) (c : Call)
    (hc : ∀ request token, c = .register request token → request.sessionId.id ≤ sessionIdMask) :
    Sound (s.call nowUnix c).2 := by
  refine ⟨h.agrees.serve, fun id entry hentry => ?_⟩
  rcases serve_stored hentry with ⟨old, hold⟩ | ⟨request, token, hcall, rfl⟩
  · exact h.inRange id old hold
  · exact hc request token hcall

theorem Sound.handle (h : Sound s) (nowUnix : ℕ) (token : String) (body : Body)
    (hbody : ∀ request, body = .register request → request.sessionId.id ≤ sessionIdMask) :
    Sound (s.handle nowUnix token body).2 := by
  cases body with
  | register request =>
    apply h.call
    rintro _ _ ⟨⟩
    exact hbody request rfl
  | refresh request => exact h.call nowUnix _ (by simp)
  | lookup sessionId =>
    rw [AppState.handle, AppState.lookup]
    split
    · exact h
    · exact h.call nowUnix _ (by simp)
  | unregister request => exact h.call nowUnix _ (by simp)

theorem Sound.step [DecidableEq A] (maxRequests : ℕ) (h : Sound s) {e : Event A}
    (hok : Registrable s e) : Sound (step maxRequests s e) := by
  cases e with
  | arrive elapsed ip body =>
    rw [Server.step]
    split <;> exact ⟨(h.elapse elapsed).agrees, h.inRange⟩
  | serve elapsed nowUnix token task =>
    rw [Server.step]
    split
    · exact h.elapse elapsed
    · rename_i body hbody
      have hserved := (h.elapse elapsed).handle nowUnix token body fun request hregister =>
        hok request (hbody.trans (congrArg some hregister))
      exact ⟨hserved.agrees, hserved.inRange⟩

theorem registrable_of_inRange [DecidableEq A] {maxRequests : ℕ} {e : Event A}
    (h : InRange (step maxRequests s e)) : Registrable s e := by
  cases e with
  | arrive => trivial
  | serve elapsed nowUnix token task =>
    intro request hpending
    obtain ⟨entry, hentry⟩ := serve_register_stored s.store
      (r := ⟨s.now + elapsed, nowUnix, .register request token⟩) rfl
    apply h request.sessionId entry
    have hpending' : (s.elapse elapsed).pending task = some (.register request) := hpending
    rw [Server.step, hpending']
    exact hentry

theorem registered_ids_can_be_found [DecidableEq A] (maxRequests : ℕ) (es : List (Event A)) :
    (∀ pre, pre <+: es → Findable (pre.foldl (step maxRequests) .new)) ↔
      Runs.Meets (step maxRequests) Registrable .new es := by
  refine (Runs.meets_iff (I := Sound) .new (fun _ => Sound.findable) ?_ ?_).symm
  · exact fun s e hs hok => hs.step maxRequests hok
  · exact fun s e _ hfindable => registrable_of_inRange hfindable.inRange

/-- The smallest id out of range: the registration is accepted, the lookup refused. -/
def oversized : RegisterRequest := ⟨⟨2 ^ 48⟩, ⟨"endpoint", none, []⟩, none⟩

theorem oversized_id_is_lost :
    let s : AppState ℕ := [.arrive 0 0 (.register oversized), .serve 0 0 "token" 0,
      .arrive 0 0 (.lookup (2 ^ 48))].foldl (step 120) .new
    ¬ Findable s ∧ s.pending 1 = some (.lookup (2 ^ 48)) ∧
      (liveGrant ⟨2 ^ 48⟩ s.history s.now).map Grant.endpoint = some ⟨"endpoint", none, []⟩ ∧
      (s.lookup 0 (2 ^ 48)).1 = .error (.rendezvous .sessionIdOutOfRange) ∧
      (ApiError.rendezvous .sessionIdOutOfRange).intoResponse =
        (400, "session id is out of range") := by
  refine ⟨fun hfindable => ?_, by decide, by decide, by decide, rfl⟩
  have hrange := hfindable.inRange ⟨2 ^ 48⟩ _ rfl
  exact absurd hrange (by decide)

end Controlis.Server
