import Controlis.Foundation.Atomic
import Controlis.Server.Api

/-!
# The clients of the rendezvous server

A client sends one request for a call and reads the answer from the status and
the body of the response, as far as they arrive. Requests of many clients are on
their way at once; each passes the limiter and then reaches the store, and any
request or response may get lost.
-/

namespace Controlis.Server
open Rendezvous

variable {A B : Type*}

structure Json (B : Type*) where
  empty : B
  register : RegisterResponse → B
  lookup : LookupResponse → B
  error : String → B
  text : B → String
  parseRegister : B → Except String RegisterResponse
  parseLookup : B → Except String LookupResponse
  register_parse : ∀ response, parseRegister (register response) = .ok response
  lookup_parse : ∀ response, parseLookup (lookup response) = .ok response

def Response.write (json : Json B) : Response → ℕ × B
  | .registered response => (200, json.register response)
  | .found response => (200, json.lookup response)
  | .noContent => (204, json.empty)
  | .error e => (e.intoResponse.1, json.error e.intoResponse.2)

def ApiError.ofStatus : ℕ → Option ApiError
  | 400 => some (.rendezvous .sessionIdOutOfRange)
  | 409 => some (.rendezvous .alreadyRegistered)
  | 404 => some (.rendezvous .notFound)
  | 403 => some (.rendezvous .tokenMismatch)
  | 429 => some .rateLimited
  | _ => none

/-- A request over the limit never reaches the store. -/
def Response.result : Response → Atomic.Result Response
  | .error .rateLimited => .refused
  | response => .answer response

theorem ofStatus_intoResponse (e : ApiError) : ApiError.ofStatus e.intoResponse.1 = some e := by
  cases e with
  | rendezvous e => cases e <;> rfl
  | rateLimited => rfl

def Fits : Body → Response → Prop
  | _, .error _ => True
  | .register _, .registered _ | .refresh _, .registered _ | .lookup _, .found _
  | .unregister _, .noContent => True
  | _, _ => False

end Controlis.Server

namespace Controlis.Server.Client
open Rendezvous Server

variable {A B : Type*}

/-- A response at the client: the connection may break before the body is complete. -/
structure Received (B : Type*) where
  status : ℕ
  body : Except String B

inductive ClientError
  | invalidBaseUrl
  | request (message : String)
  | status (status : ℕ) (body : String)
deriving DecidableEq, Repr

def isSuccess (status : ℕ) : Bool := 200 ≤ status && status < 300

def statusError (json : Json B) (response : Received B) : ClientError :=
  .status response.status (match response.body with
    | .ok body => json.text body
    | .error _ => "")

def decodeResponse {T : Type} (json : Json B) (parse : B → Except String T)
    (response : Received B) : Except ClientError T :=
  if isSuccess response.status then
    match response.body.bind parse with
    | .ok value => .ok value
    | .error message => .error (.request message)
  else .error (statusError json response)

def send {T : Type} (response : Except String (Received B))
    (read : Received B → Except ClientError T) : Except ClientError T :=
  match response with
  | .ok response => read response
  | .error message => .error (.request message)

def register (json : Json B) (response : Except String (Received B)) :
    Except ClientError RegisterResponse :=
  send response (decodeResponse json json.parseRegister)

def refresh (json : Json B) (response : Except String (Received B)) :
    Except ClientError RegisterResponse :=
  send response (decodeResponse json json.parseRegister)

def lookup (json : Json B) (response : Except String (Received B)) :
    Except ClientError LookupResponse :=
  send response (decodeResponse json json.parseLookup)

def unregister (json : Json B) (response : Except String (Received B)) : Except ClientError Unit :=
  send response fun response =>
    if isSuccess response.status then .ok () else .error (statusError json response)

inductive Outcome
  | registered (result : Except ClientError RegisterResponse)
  | refreshed (result : Except ClientError RegisterResponse)
  | found (result : Except ClientError LookupResponse)
  | unregistered (result : Except ClientError Unit)
deriving DecidableEq, Repr

def outcome (json : Json B) (response : Except String (Received B)) : Body → Outcome
  | .register _ => .registered (register json response)
  | .refresh _ => .refreshed (refresh json response)
  | .lookup _ => .found (lookup json response)
  | .unregister _ => .unregistered (unregister json response)

def ClientError.result : ClientError → Atomic.Result Response
  | .status code _ => ((ApiError.ofStatus code).map fun e => Response.result (.error e)).getD .lost
  | _ => .lost

def Outcome.result : Outcome → Atomic.Result Response
  | .registered (.ok response) | .refreshed (.ok response) => .answer (.registered response)
  | .found (.ok response) => .answer (.found response)
  | .unregistered (.ok ()) => .answer .noContent
  | .registered (.error e) | .refreshed (.error e) | .found (.error e) | .unregistered (.error e) =>
    e.result

variable {json : Json B} {body : Body} {response : Response} {text : Except String B}

theorem not_isSuccess (e : ApiError) : isSuccess e.intoResponse.1 = false := by
  cases e with
  | rendezvous e => cases e <;> rfl
  | rateLimited => rfl

theorem statusError_result (json : Json B) (text : Except String B) (e : ApiError) :
    (statusError json ⟨e.intoResponse.1, text⟩).result = Response.result (.error e) := by
  rw [statusError, ClientError.result, ofStatus_intoResponse]
  rfl

theorem decodeResponse_error {T : Type} (parse : B → Except String T) (e : ApiError) :
    decodeResponse json parse ⟨e.intoResponse.1, text⟩ =
      .error (statusError json ⟨e.intoResponse.1, text⟩) := by
  rw [decodeResponse, not_isSuccess]
  rfl

theorem decodeResponse_ok {T : Type} {parse : B → Except String T} {encoded : B} {value : T}
    (hparse : parse encoded = .ok value)
    (htext : text = .ok encoded ∨ ∃ message, text = .error message) :
    decodeResponse json parse ⟨200, text⟩ = .ok value ∨
      ∃ message, decodeResponse json parse ⟨200, text⟩ = .error (.request message) := by
  rcases htext with rfl | ⟨message, rfl⟩
  · left
    have hok : isSuccess 200 = true := rfl
    rw [decodeResponse, if_pos hok]
    simp only [Except.bind, hparse]
  · exact .inr ⟨message, rfl⟩

theorem answer_or_lost {T : Type} (f : Except ClientError T → Outcome) {r : Except ClientError T}
    {value : T} (hread : r = .ok value ∨ ∃ message, r = .error (.request message))
    (hlost : ∀ message, (f (.error (.request message))).result = .lost) :
    (f r).result = (f (.ok value)).result ∨ (f r).result = .lost := by
  rcases hread with rfl | ⟨message, rfl⟩
  · exact .inl rfl
  · exact .inr (hlost message)

theorem outcome_result (hfits : Fits body response)
    (htext : text = .ok (response.write json).2 ∨ ∃ message, text = .error message) :
    (outcome json (.ok ⟨(response.write json).1, text⟩) body).result = response.result ∨
      (outcome json (.ok ⟨(response.write json).1, text⟩) body).result = .lost := by
  cases response with
  | error e =>
    left
    cases body with
    | register request =>
      change (Outcome.registered (decodeResponse json json.parseRegister _)).result = _
      rw [Response.write, decodeResponse_error]
      exact statusError_result json text e
    | refresh request =>
      change (Outcome.refreshed (decodeResponse json json.parseRegister _)).result = _
      rw [Response.write, decodeResponse_error]
      exact statusError_result json text e
    | lookup sessionId =>
      change (Outcome.found (decodeResponse json json.parseLookup _)).result = _
      rw [Response.write, decodeResponse_error]
      exact statusError_result json text e
    | unregister request =>
      rw [Response.write, outcome, unregister, send, not_isSuccess]
      exact statusError_result json text e
  | registered value =>
    have hread : decodeResponse json json.parseRegister ⟨200, text⟩ = .ok value ∨
        ∃ message, decodeResponse json json.parseRegister ⟨200, text⟩ = .error (.request message) :=
      decodeResponse_ok (json.register_parse value) htext
    cases body with
    | register request =>
      exact answer_or_lost Outcome.registered hread fun _ => rfl
    | refresh request =>
      exact answer_or_lost Outcome.refreshed hread fun _ => rfl
    | _ => exact hfits.elim
  | found value =>
    have hread : decodeResponse json json.parseLookup ⟨200, text⟩ = .ok value ∨
        ∃ message, decodeResponse json json.parseLookup ⟨200, text⟩ = .error (.request message) :=
      decodeResponse_ok (json.lookup_parse value) htext
    cases body with
    | lookup sessionId =>
      exact answer_or_lost Outcome.found hread fun _ => rfl
    | _ => exact hfits.elim
  | noContent =>
    cases body with
    | unregister request => exact .inl rfl
    | _ => exact hfits.elim

inductive Stage
  | sent
  | pending (task : ℕ)
  | answered (response : Response)
deriving DecidableEq, Repr

/-- `outcome`: what the client returned, and how many calls had been made by then. -/
structure ClientCall (A : Type*) where
  ip : A
  body : Body
  stage : Stage
  outcome : Option (Outcome × ℕ)

structure Network (A : Type*) where
  server : AppState A
  calls : List (ClientCall A)

/-- A request is made, passes the limiter, goes on to the store, and its response arrives, `cut`
short if the connection breaks. A client fails when its connection does. -/
inductive Event (A : Type*)
  | issue (ip : A) (body : Body)
  | arrive (call elapsed : ℕ)
  | serve (call elapsed nowUnix : ℕ) (token : String)
  | deliver (call : ℕ) (cut : Option String)
  | fail (call : ℕ) (message : String)

def start : Network A := ⟨.new, []⟩

def received (body : B) : Option String → Except String B
  | none => .ok body
  | some message => .error message

def Network.finish (s : Network A) (i : ℕ) (c : ClientCall A) (o : Outcome) : Network A :=
  { s with calls := s.calls.set i { c with outcome := some (o, s.calls.length) } }

def Network.arrive [DecidableEq A] (maxRequests : ℕ) (s : Network A) (i elapsed : ℕ)
    (c : ClientCall A) : Network A where
  server := Server.step maxRequests s.server (.arrive elapsed c.ip c.body)
  calls := s.calls.set i { c with
    stage := match (s.server.rateLimiter.check c.ip maxRequests (s.server.now + elapsed)).1 with
      | true => .pending s.server.arrived
      | false => .answered (.error .rateLimited) }

def Network.serve [DecidableEq A] (maxRequests : ℕ) (s : Network A) (i elapsed nowUnix : ℕ)
    (token : String) (c : ClientCall A) (task : ℕ) : Network A where
  server := Server.step maxRequests s.server (.serve elapsed nowUnix token task)
  calls := s.calls.set i { c with
    stage := .answered ((s.server.elapse elapsed).handle nowUnix token c.body).1 }

def step [DecidableEq A] (json : Json B) (maxRequests : ℕ) (s : Network A) : Event A → Network A
  | .issue ip body => { s with calls := s.calls ++ [⟨ip, body, .sent, none⟩] }
  | .arrive i elapsed =>
    match s.calls[i]? with
    | some ⟨ip, body, .sent, outcome⟩ => s.arrive maxRequests i elapsed ⟨ip, body, .sent, outcome⟩
    | _ => s
  | .serve i elapsed nowUnix token =>
    match s.calls[i]? with
    | some ⟨ip, body, .pending task, outcome⟩ =>
      s.serve maxRequests i elapsed nowUnix token ⟨ip, body, .pending task, outcome⟩ task
    | _ => s
  | .deliver i cut =>
    match s.calls[i]? with
    | some ⟨ip, body, .answered response, none⟩ =>
      s.finish i ⟨ip, body, .answered response, none⟩ (outcome json
        (.ok ⟨(response.write json).1, received (response.write json).2 cut⟩) body)
    | _ => s
  | .fail i message =>
    match s.calls[i]? with
    | some ⟨ip, body, stage, none⟩ =>
      s.finish i ⟨ip, body, stage, none⟩ (outcome json (.error message) body)
    | _ => s

structure Env where
  now : ℕ
  nowUnix : ℕ
  token : String
deriving DecidableEq, Repr

def request (env : Env) : Body → Option Request
  | .register request => some ⟨env.now, env.nowUnix, .register request env.token⟩
  | .refresh request => some ⟨env.now, env.nowUnix, .refresh request⟩
  | .lookup sessionId =>
    if sessionIdMask < sessionId then none else some ⟨env.now, env.nowUnix, .lookup ⟨sessionId⟩⟩
  | .unregister request => some ⟨env.now, env.nowUnix, .unregister request⟩

def answer (store : RendezvousStore) (env : Env) (body : Body) : Response × RendezvousStore :=
  match request env body with
  | none => (.error (.rendezvous .sessionIdOutOfRange), store)
  | some r => (.ofReply (store.serve r).1, (store.serve r).2)

def Stage.status : Stage → Atomic.Status Response
  | .sent | .pending _ => .waiting
  | .answered (.error .rateLimited) => .refused
  | .answered response => .served response

def ClientCall.view (c : ClientCall A) : Atomic.Call Body Response where
  input := c.body
  status := c.stage.status
  returned := c.outcome.map fun r => (r.1.result, r.2)

def requests (log : List (Atomic.Entry Env Body Response)) : List Request :=
  log.filterMap fun e => request e.env e.input

theorem handle_eq (s : AppState A) (nowUnix : ℕ) (token : String) (body : Body) :
    (s.handle nowUnix token body).1 = (answer s.store ⟨s.now, nowUnix, token⟩ body).1 ∧
      (s.handle nowUnix token body).2 = { s with
        store := (answer s.store ⟨s.now, nowUnix, token⟩ body).2
        history := s.history ++
          s.store.trace (request ⟨s.now, nowUnix, token⟩ body).toList } := by
  cases body with
  | lookup sessionId =>
    simp only [AppState.handle, AppState.lookup, SessionId.new, answer, request]
    split_ifs
    · exact ⟨rfl, by simp [RendezvousStore.trace]⟩
    · exact ⟨rfl, rfl⟩
  | _ => exact ⟨rfl, rfl⟩

theorem answer_fits (store : RendezvousStore) (env : Env) (body : Body) :
    Fits body (answer store env body).1 ∧ (answer store env body).1 ≠ .error .rateLimited := by
  cases body with
  | register body =>
    simp only [answer, request, RendezvousStore.serve]
    cases (store.registerAt body env.token env.now env.nowUnix).1 <;>
      exact ⟨trivial, by simp [Response.ofReply]⟩
  | refresh body =>
    simp only [answer, request, RendezvousStore.serve]
    cases (store.refreshAt body env.now env.nowUnix).1 <;>
      exact ⟨trivial, by simp [Response.ofReply]⟩
  | lookup sessionId =>
    simp only [answer, request]
    split_ifs
    · exact ⟨trivial, by simp⟩
    · simp only [RendezvousStore.serve]
      cases (store.lookupAt ⟨sessionId⟩ env.now).1 <;>
        exact ⟨trivial, by simp [Response.ofReply]⟩
  | unregister body =>
    simp only [answer, request, RendezvousStore.serve]
    cases (store.unregisterAt body env.now).1 <;>
      exact ⟨trivial, by simp [Response.ofReply]⟩

theorem answer_store (store : RendezvousStore) (env : Env) (body : Body) :
    (answer store env body).2 = store.after (request env body).toList := by
  rw [answer]
  cases request env body <;> rfl

theorem request_now {env : Env} {body : Body} {r : Request} (h : request env body = some r) :
    r.now = env.now := by
  cases body with
  | lookup sessionId =>
    rw [request] at h
    split_ifs at h
    cases h
    rfl
  | _ =>
    cases h
    rfl

theorem status_answered (h : response ≠ .error .rateLimited) :
    (Stage.answered response).status = .served response := by
  cases response with
  | error e =>
    cases e with
    | rendezvous e => rfl
    | rateLimited => exact absurd rfl h
  | _ => rfl

theorem status_result (response : Response) :
    (Stage.answered response).status.result = some response.result := by
  cases response with
  | error e => cases e <;> rfl
  | _ => rfl

/-- The store has served the requests of `log`, in an order that the clock agrees with. -/
structure Recorded (s : AppState A) (log : List Request) : Prop where
  store : s.store = RendezvousStore.new.after log
  history : s.history = RendezvousStore.new.trace log
  ordered : Timeline.Ordered Request.now Request.now 0 log
  clock : Timeline.horizon Request.now 0 log ≤ s.now

structure Filed (calls : List (ClientCall A)) (arrived : ℕ) (pending : ℕ → Option Body) :
    Prop where
  tasks : ∀ (i : ℕ) (c : ClientCall A) (task : ℕ), calls[i]? = some c →
    c.stage = .pending task → task < arrived ∧ pending task = some c.body
  apart : ∀ (i j : ℕ) (c d : ClientCall A) (task : ℕ), calls[i]? = some c →
    calls[j]? = some d → c.stage = .pending task → d.stage = .pending task → i = j
  fits : ∀ (i : ℕ) (c : ClientCall A) (response : Response), calls[i]? = some c →
    c.stage = .answered response → Fits c.body response

/-- The store's calls account for the clients', with the server's tasks in between. -/
structure Follows (s : Network A) (t : Atomic.State RendezvousStore Env Body Response) :
    Prop where
  object : t.object = s.server.store
  calls : t.calls = s.calls.map ClientCall.view
  recorded : Recorded s.server (requests t.log)
  filed : Filed s.calls s.server.arrived s.server.pending

variable {s : Network A} {t : Atomic.State RendezvousStore Env Body Response}
variable {i : ℕ} {c : ClientCall A} {app app' : AppState A} {log : List Request}
variable {calls calls' : List (ClientCall A)} {arrived task : ℕ} {pending : ℕ → Option Body}

theorem Recorded.wait (h : Recorded app log) (hstore : app'.store = app.store)
    (hhistory : app'.history = app.history) (hnow : app.now ≤ app'.now) : Recorded app' log :=
  ⟨hstore.trans h.store, hhistory.trans h.history, h.ordered, h.clock.trans hnow⟩

theorem Recorded.serve (h : Recorded app log) {env : Env} (hnow : app.now ≤ env.now) (body : Body)
    (hstore : app'.store = (answer app.store env body).2)
    (hhistory : app'.history = app.history ++ app.store.trace (request env body).toList)
    (hclock : app'.now = env.now) : Recorded app' (log ++ (request env body).toList) := by
  have hhorizon := h.clock.trans hnow
  refine ⟨?_, ?_, ?_, ?_⟩
  · rw [hstore, after_append, ← h.store]
    exact answer_store _ _ _
  · rw [hhistory, trace_append, ← h.history, ← h.store]
  -- an id out of range gets its answer without the store
  · cases hrequest : request env body with
    | none => simpa using h.ordered
    | some r =>
      rw [Option.toList_some, Timeline.ordered_append, Timeline.ordered_cons, request_now hrequest]
      exact ⟨h.ordered, hhorizon, le_rfl, trivial⟩
  · rw [Timeline.horizon_append, hclock]
    cases hrequest : request env body with
    | none => exact hhorizon
    | some r => exact (request_now hrequest).le

theorem Filed.keep (h : Filed calls arrived pending) {pending' : ℕ → Option Body}
    (hcalls : ∀ (j : ℕ) (d : ClientCall A), calls'[j]? = some d →
      (∃ d', calls[j]? = some d' ∧ d'.body = d.body ∧ d'.stage = d.stage) ∨ d.stage = .sent ∨
        ∃ response, d.stage = .answered response ∧ Fits d.body response)
    (hpending : ∀ (j : ℕ) (d : ClientCall A) (task : ℕ), calls'[j]? = some d →
      d.stage = .pending task → pending' task = pending task) : Filed calls' arrived pending' := by
  have hold {j : ℕ} {d : ClientCall A} {task : ℕ} (hj : calls'[j]? = some d)
      (hd : d.stage = .pending task) :
      ∃ d', calls[j]? = some d' ∧ d'.body = d.body ∧ d'.stage = .pending task := by
    rcases hcalls j d hj with ⟨d', hd', hbody, hstage⟩ | hsent | ⟨response, hanswered, -⟩
    · exact ⟨d', hd', hbody, hstage.trans hd⟩
    · cases hsent.symm.trans hd
    · cases hanswered.symm.trans hd
  refine ⟨fun j d task hj hd => ?_, fun j k d e task hj hk hd he => ?_,
    fun j d response hj hd => ?_⟩
  · obtain ⟨d', hd', hbody, hstage⟩ := hold hj hd
    rw [hpending j d task hj hd, ← hbody]
    exact h.tasks j d' task hd' hstage
  · obtain ⟨d', hd', -, hstage⟩ := hold hj hd
    obtain ⟨e', he', -, hstage'⟩ := hold hk he
    exact h.apart j k d' e' task hd' he' hstage hstage'
  · rcases hcalls j d hj with ⟨d', hd', hbody, hstage⟩ | hsent | ⟨response', hanswered, hfits⟩
    · exact hbody ▸ h.fits j d' response hd' (hstage.trans hd)
    · cases hsent.symm.trans hd
    · cases hanswered.symm.trans hd
      exact hfits

theorem Filed.admit (h : Filed calls arrived pending) (hc : calls[i]? = some c) :
    Filed (calls.set i { c with stage := .pending arrived }) (arrived + 1)
      (Function.update pending arrived (some c.body)) := by
  have hstages {j : ℕ} {d : ClientCall A}
      (hj : (calls.set i { c with stage := .pending arrived })[j]? = some d) :
      calls[j]? = some d ∨ j = i ∧ d.body = c.body ∧ d.stage = .pending arrived := by
    rw [Atomic.set_getElem? hc] at hj
    split_ifs at hj with hij
    · cases hj
      exact .inr ⟨hij.symm, rfl, rfl⟩
    · exact .inl hj
  have hfresh {j : ℕ} {d : ClientCall A} {task : ℕ} (hj : calls[j]? = some d)
      (hd : d.stage = .pending task) : task ≠ arrived :=
    (h.tasks j d task hj hd).1.ne
  refine ⟨fun j d task hj hd => ?_, fun j k d e task hj hk hd he => ?_,
    fun j d response hj hd => ?_⟩
  · rcases hstages hj with hold | ⟨-, hbody, hnew⟩
    · obtain ⟨hlt, hbody⟩ := h.tasks j d task hold hd
      rw [Function.update_of_ne hlt.ne]
      exact ⟨Nat.lt_succ_of_lt hlt, hbody⟩
    · cases hnew.symm.trans hd
      rw [Function.update_self, hbody]
      exact ⟨Nat.lt_succ_self _, rfl⟩
  · rcases hstages hj with hold | ⟨rfl, -, hnew⟩
    · rcases hstages hk with hold' | ⟨rfl, -, hnew⟩
      · exact h.apart j k d e task hold hold' hd he
      · cases hnew.symm.trans he
        exact absurd rfl (hfresh hold hd)
    · rcases hstages hk with hold' | ⟨rfl, -, -⟩
      · cases hnew.symm.trans hd
        exact absurd rfl (hfresh hold' he)
      · rfl
  · rcases hstages hj with hold | ⟨-, -, hnew⟩
    · exact h.fits j d response hold hd
    · cases hnew.symm.trans hd

theorem Follows.getElem? (h : Follows s t) (hc : s.calls[i]? = some c) :
    t.calls[i]? = some c.view := by
  rw [h.calls, List.getElem?_map, hc]
  rfl

theorem follows_start : Follows (start : Network A) (Atomic.start .new) := by
  have hnone (i : ℕ) (c : ClientCall A) : (start : Network A).calls[i]? ≠ some c := by
    simp [start]
  refine ⟨rfl, rfl, ⟨rfl, rfl, trivial, Nat.le_refl 0⟩, ?_, ?_, ?_⟩
  · exact fun i c task hc => absurd hc (hnone i c)
  · exact fun i j c d task hc => absurd hc (hnone i c)
  · exact fun i c response hc => absurd hc (hnone i c)

theorem Follows.issue (h : Follows s t) (ip : A) (body : Body) :
    Follows { s with calls := s.calls ++ [⟨ip, body, .sent, none⟩] }
      { t with calls := t.calls ++ [⟨body, .waiting, none⟩] } := by
  refine ⟨h.object, ?_, h.recorded, h.filed.keep (fun j d hj => ?_) fun _ _ _ _ _ => rfl⟩
  · rw [h.calls, List.map_append]
    rfl
  · rcases Nat.lt_or_ge j s.calls.length with hlt | hge
    · rw [List.getElem?_append_left hlt] at hj
      exact .inl ⟨d, hj, rfl, rfl⟩
    · rw [List.getElem?_append_right hge] at hj
      rw [List.mem_singleton.mp (List.mem_of_getElem? hj)]
      exact .inr (.inl rfl)

theorem view_set (s : Network A) (i : ℕ) (c : ClientCall A) :
    (s.calls.set i c).map ClientCall.view = (s.calls.map ClientCall.view).set i c.view :=
  List.map_set ..

theorem Follows.finish (h : Follows s t) (hc : s.calls[i]? = some c) {o : Outcome}
    {r : Atomic.Result Response} (hr : o.result = r) :
    Follows (s.finish i c o) (t.give i c.view r) := by
  refine ⟨h.object, ?_, h.recorded, h.filed.keep (fun j d hj => .inl ?_) fun _ _ _ _ _ => rfl⟩
  · rw [Network.finish, view_set, Atomic.State.give, h.calls, List.length_map]
    subst hr
    rfl
  · rw [Network.finish, Atomic.set_getElem? hc] at hj
    split_ifs at hj with hij
    · cases hj
      exact ⟨c, hij ▸ hc, rfl, rfl⟩
    · exact ⟨d, hj, rfl, rfl⟩

theorem fail_result (json : Json B) (message : String) (body : Body) :
    (outcome json (.error message) body).result = .lost := by
  cases body <;> rfl

theorem Follows.admitted [DecidableEq A] (h : Follows s t) {maxRequests elapsed : ℕ}
    (hc : s.calls[i]? = some c) (hsent : c.stage = .sent)
    (hcheck : (s.server.rateLimiter.check c.ip maxRequests (s.server.now + elapsed)).1 = true) :
    Follows (s.arrive maxRequests i elapsed c) t := by
  have hserver : Server.step maxRequests s.server (.arrive elapsed c.ip c.body) = { s.server with
      now := s.server.now + elapsed
      rateLimiter := (s.server.rateLimiter.check c.ip maxRequests (s.server.now + elapsed)).2
      pending := Function.update s.server.pending s.server.arrived (some c.body)
      arrived := s.server.arrived + 1 } := by
    simp only [Server.step, AppState.elapse]
    split
    · rename_i hno
      rw [hno] at hcheck
      cases hcheck
    · rename_i hyes
      rw [hyes]
  rw [Network.arrive, hserver, hcheck]
  refine ⟨h.object, ?_, h.recorded.wait rfl rfl (Nat.le_add_right _ _), h.filed.admit hc⟩
  have hview : ({ c with stage := .pending s.server.arrived } : ClientCall A).view = c.view := by
    rw [ClientCall.view, ClientCall.view, hsent]
    rfl
  change t.calls = (s.calls.set i { c with stage := .pending s.server.arrived }).map _
  rw [view_set, hview, ← h.calls, Atomic.set_same (h.getElem? hc)]

theorem Follows.turnedAway [DecidableEq A] (h : Follows s t) {maxRequests elapsed : ℕ}
    (hc : s.calls[i]? = some c)
    (hcheck : (s.server.rateLimiter.check c.ip maxRequests (s.server.now + elapsed)).1 = false) :
    Follows (s.arrive maxRequests i elapsed c) (t.refuse i c.view) := by
  have hserver : Server.step maxRequests s.server (.arrive elapsed c.ip c.body) = { s.server with
      now := s.server.now + elapsed
      rateLimiter :=
        (s.server.rateLimiter.check c.ip maxRequests (s.server.now + elapsed)).2 } := by
    simp only [Server.step, AppState.elapse]
    split
    · rename_i hno
      rw [hno]
    · rename_i hyes
      rw [hyes] at hcheck
      cases hcheck
  rw [Network.arrive, hserver, hcheck]
  refine ⟨h.object, ?_, h.recorded.wait rfl rfl (Nat.le_add_right _ _),
    h.filed.keep (fun j d hj => ?_) fun _ _ _ _ _ => rfl⟩
  · change (t.refuse i c.view).calls =
      (s.calls.set i { c with stage := .answered (.error .rateLimited) }).map _
    rw [view_set, Atomic.State.refuse, h.calls]
    rfl
  · change (s.calls.set i { c with stage := .answered (.error .rateLimited) })[j]? = some d at hj
    rw [Atomic.set_getElem? hc] at hj
    split_ifs at hj with hij
    · cases hj
      refine .inr (.inr ⟨_, rfl, ?_⟩)
      cases c.body <;> trivial
    · exact .inl ⟨d, hj, rfl, rfl⟩

def Network.env (s : Network A) (elapsed nowUnix : ℕ) (token : String) : Env :=
  ⟨s.server.now + elapsed, nowUnix, token⟩

theorem requests_serve (env : Env) (c : Atomic.Call Body Response) :
    requests (t.serve answer i env c).log =
      requests t.log ++ (request env c.input).toList := by
  rw [requests, Atomic.State.serve, List.filterMap_append]
  cases hrequest : request env c.input with
  | none => exact congrArg _ (List.filterMap_cons_none hrequest)
  | some r => exact congrArg _ (List.filterMap_cons_some hrequest)

theorem Filed.serve (h : Filed calls arrived pending) (hc : calls[i]? = some c)
    (htask : c.stage = .pending task) {response : Response} (hfits : Fits c.body response) :
    Filed (calls.set i { c with stage := .answered response }) arrived
      (Function.update pending task none) := by
  have hstages {j : ℕ} {d : ClientCall A}
      (hj : (calls.set i { c with stage := .answered response })[j]? = some d) :
      (calls[j]? = some d ∧ i ≠ j) ∨ d = { c with stage := .answered response } := by
    rw [Atomic.set_getElem? hc] at hj
    split_ifs at hj with hij
    · exact .inr (Option.some.inj hj).symm
    · exact .inl ⟨hj, hij⟩
  refine h.keep (fun j d hj => ?_) fun j d task' hj hd => ?_
  · rcases hstages hj with ⟨hold, -⟩ | rfl
    · exact .inl ⟨d, hold, rfl, rfl⟩
    · exact .inr (.inr ⟨response, rfl, hfits⟩)
  · rcases hstages hj with ⟨hold, hne⟩ | rfl
    · rw [Function.update_of_ne]
      rintro rfl
      exact hne (h.apart i j c d task' hc hold htask hd)
    · cases hd

theorem Follows.serve [DecidableEq A] (h : Follows s t) {maxRequests elapsed nowUnix : ℕ}
    {token : String} (hc : s.calls[i]? = some c) (htask : c.stage = .pending task) :
    Follows (s.serve maxRequests i elapsed nowUnix token c task)
      (t.serve answer i (s.env elapsed nowUnix token) c.view) := by
  obtain ⟨hresponse, hhandle⟩ := handle_eq (s.server.elapse elapsed) nowUnix token c.body
  obtain ⟨hfits, hlimited⟩ := answer_fits s.server.store
    (s.env elapsed nowUnix token) c.body
  have hserver : Server.step maxRequests s.server (.serve elapsed nowUnix token task) =
      { s.server with
        now := s.server.now + elapsed
        store := (answer s.server.store (s.env elapsed nowUnix token) c.body).2
        history := s.server.history ++ s.server.store.trace
          (request (s.env elapsed nowUnix token) c.body).toList
        pending := Function.update s.server.pending task none } := by
    have hpending : (s.server.elapse elapsed).pending task = some c.body :=
      (h.filed.tasks i c task hc htask).2
    simp only [Server.step, hpending, hhandle]
    rfl
  rw [Network.serve, hserver, hresponse]
  refine ⟨?_, ?_, ?_, h.filed.serve hc htask hfits⟩
  · rw [Atomic.State.serve, h.object]
    rfl
  · have hview : ({ c with stage := .answered (answer s.server.store
        (s.env elapsed nowUnix token) c.body).1 } : ClientCall A).view = { c.view with
          status := .served ((answer t.object (s.env elapsed nowUnix token) c.view.input).1) } := by
      rw [h.object]
      simp only [ClientCall.view]
      rw [Atomic.Call.mk.injEq]
      exact ⟨rfl, status_answered hlimited, rfl⟩
    change _ = (s.calls.set i { c with stage := .answered (answer s.server.store
      (s.env elapsed nowUnix token) c.body).1 }).map ClientCall.view
    rw [view_set, hview, ← h.calls]
    rfl
  · rw [requests_serve]
    exact h.recorded.serve (Nat.le_add_right _ _) c.body rfl rfl rfl

theorem Follows.step [DecidableEq A] (h : Follows s t) (json : Json B) (maxRequests : ℕ)
    (e : Event A) : ∃ fs : List (Atomic.Event Env Body),
      Follows (step json maxRequests s e) (fs.foldl (Atomic.step answer) t) := by
  cases e with
  | issue ip body => exact ⟨[.issue body], h.issue ip body⟩
  | arrive i elapsed =>
    simp only [Client.step]
    split
    · rename_i ip body outcome hc
      cases hcheck : (s.server.rateLimiter.check ip maxRequests (s.server.now + elapsed)).1 with
      | true => exact ⟨[], h.admitted hc rfl hcheck⟩
      | false =>
        refine ⟨[.refuse i], ?_⟩
        rw [List.foldl_cons, Atomic.step_refuse (h.getElem? hc) rfl]
        exact h.turnedAway hc hcheck
    · exact ⟨[], h⟩
  | serve i elapsed nowUnix token =>
    simp only [Client.step]
    split
    · rename_i ip body task outcome hc
      refine ⟨[.serve i (s.env elapsed nowUnix token)], ?_⟩
      rw [List.foldl_cons, Atomic.step_serve (h.getElem? hc) rfl]
      exact h.serve hc rfl
    · exact ⟨[], h⟩
  | deliver i cut =>
    simp only [Client.step]
    split
    · rename_i ip body response hc
      have hfits : Fits body response := h.filed.fits i _ response hc rfl
      have htext : received (response.write json).2 cut = .ok (response.write json).2 ∨
          ∃ message, received (response.write json).2 cut = .error message := by
        cases cut with
        | none => exact .inl rfl
        | some message => exact .inr ⟨message, rfl⟩
      -- what the client makes of a cut response counts as a lost one
      rcases outcome_result hfits htext with hread | hlost
      · refine ⟨[.answer i], ?_⟩
        rw [List.foldl_cons, Atomic.step_answer (h.getElem? hc) rfl (status_result response)]
        exact h.finish hc hread
      · refine ⟨[.giveUp i], ?_⟩
        rw [List.foldl_cons, Atomic.step_giveUp (h.getElem? hc) rfl]
        exact h.finish hc hlost
    · exact ⟨[], h⟩
  | fail i message =>
    simp only [Client.step]
    split
    · rename_i ip body stage hc
      refine ⟨[.giveUp i], ?_⟩
      rw [List.foldl_cons, Atomic.step_giveUp (h.getElem? hc) rfl]
      exact h.finish hc (fail_result json message body)
    · exact ⟨[], h⟩

/-- Whatever gets lost and in whatever order requests are handled, what the clients conclude from
status and body is what one sequential run of the store answers. -/
theorem clients_share_one_store [DecidableEq A] (json : Json B) (maxRequests : ℕ)
    (es : List (Event A)) :
    let s := es.foldl (step json maxRequests) start
    ∃ log : List (Atomic.Entry Env Body Response),
      Atomic.Linearizes answer .new (s.calls.map ClientCall.view) log ∧
      s.server.history = RendezvousStore.new.trace (requests log) ∧
      Timeline.Ordered Request.now Request.now 0 (requests log) := by
  obtain ⟨fs, hfollows⟩ : ∃ fs : List (Atomic.Event Env Body),
      Follows (es.foldl (step json maxRequests) start)
        (fs.foldl (Atomic.step answer) (Atomic.start .new)) :=
    Runs.simulation follows_start fun _ _ e h => h.step json maxRequests e
  have hlinear := Atomic.linearizes answer RendezvousStore.new fs
  rw [hfollows.calls] at hlinear
  exact ⟨_, hlinear, hfollows.recorded.history, hfollows.recorded.ordered⟩

def plainJson : Json (RegisterResponse ⊕ LookupResponse ⊕ String) where
  empty := .inr (.inr "")
  register := .inl
  lookup response := .inr (.inl response)
  error message := .inr (.inr message)
  text
    | .inr (.inr message) => message
    | _ => ""
  parseRegister
    | .inl response => .ok response
    | _ => .error "not a registration"
  parseLookup
    | .inr (.inl response) => .ok response
    | _ => .error "not an endpoint"
  register_parse _ := rfl
  lookup_parse _ := rfl

def sameId : Body := .register ⟨⟨7⟩, ⟨"endpoint", none, []⟩, none⟩

/-- The second of two hosts is registered but does not learn it; the first is told of a conflict. -/
example : (([.issue 1 sameId, .issue 2 sameId, .arrive 0 0, .arrive 1 0, .serve 1 0 0 "aa",
    .serve 0 0 0 "bb", .deliver 0 none, .deliver 1 (some "connection reset")].foldl
    (step plainJson 120) start).calls.map fun c : ClientCall ℕ => c.outcome) =
      [some (.registered (.error (.status 409 "session id is already registered")), 2),
        some (.registered (.error (.request "connection reset")), 2)] := by
  decide

end Controlis.Server.Client
