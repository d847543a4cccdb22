import Controlis.Foundation.Lease
import Controlis.Rendezvous

/-!
# The refresh task

A host that registered on the rendezvous server keeps its registration alive
with a task that refreshes it every thirty seconds and never registers again,
until it unregisters. Seen from the server, the registration is a lease of sixty
seconds: whatever calls of others are served in between, it is there iff the host
has not unregistered and no two refreshes that arrived are sixty seconds apart.
-/

namespace Controlis.Rendezvous
open Lease RendezvousStore
open Timeline (Ordered fromSecs)

def Call.renews (token : String) : Call → Bool
  | .refresh request => request.token = token
  | _ => false

def renewalTimes (token : String) (calls : List Request) : List ℕ :=
  (calls.filter fun r => r.call.renews token).map (·.now)

def Held (id : SessionId) (token : String) (t : ℕ) (history : List (Request × Reply)) : Prop :=
  ∃ g, liveGrant id history t = some g ∧ g.token = token

def leaseTtl : ℕ := fromSecs defaultTtlSecs

variable {id : SessionId} {token : String} {history : List (Request × Reply)} {g : Grant}
variable {r : Request} {t start : ℕ} {renewals : List ℕ}

theorem liveAt_default (httl : g.ttlSecs = some defaultTtlSecs) :
    g.liveAt t ↔ t < g.grantedAt + leaseTtl := by
  rw [Grant.liveAt, httl]
  rfl

theorem lastGrant_other (hlive : liveGrant id history r.now = some g)
    (hother : r.call.presents ≠ some g.token) :
    lastGrant id (history ++ [(r, answer (liveGrant r.call.sessionId history r.now) r)]) =
      some g := by
  have hlast := (liveGrant_eq_some.mp hlive).1
  rw [lastGrant_append, hlast]
  obtain ⟨now, unix, call⟩ := r
  cases call with
  | register request token =>
    by_cases hid : request.sessionId = id
    · subst hid
      simp only [Call.sessionId] at hlive ⊢
      simp only [answer, hlive]
      rfl
    · simp only [answer, Call.sessionId]
      cases liveGrant request.sessionId history now with
      | none => simp [grantStep, hid]
      | some g' => rfl
  | refresh request =>
    by_cases hid : request.sessionId = id
    · subst hid
      simp only [Call.sessionId, Call.presents] at hlive hother ⊢
      have hne : g.token ≠ request.token := fun heq => hother (by rw [heq])
      simp only [answer, hlive, if_neg hne]
      rfl
    · simp only [answer, Call.sessionId]
      cases liveGrant request.sessionId history now with
      | none => rfl
      | some g' =>
        dsimp only
        split_ifs
        · simp [grantStep, hid]
        · rfl
  | lookup sessionId => rfl
  | unregister request =>
    by_cases hid : request.sessionId = id
    · subst hid
      simp only [Call.sessionId, Call.presents] at hlive hother ⊢
      have hne : g.token ≠ request.token := fun heq => hother (by rw [heq])
      simp only [answer, hlive, if_neg hne]
      rfl
    · simp only [answer, Call.sessionId]
      cases liveGrant request.sessionId history now with
      | none => rfl
      | some g' =>
        dsimp only
        split_ifs
        · simp [grantStep, hid]
        · rfl

theorem lastGrant_refresh {request : RefreshRequest} (hc : r.call = .refresh request)
    (hlive : liveGrant request.sessionId history r.now = some g)
    (htoken : g.token = request.token) :
    lastGrant request.sessionId
        (history ++ [(r, answer (liveGrant r.call.sessionId history r.now) r)]) =
      some ⟨g.token, request.endpoint, request.ttlSecs, r.now, r.nowUnix⟩ := by
  obtain ⟨now, unix, call⟩ := r
  subst hc
  rw [lastGrant_append, (liveGrant_eq_some.mp hlive).1]
  simp only [Call.sessionId] at hlive ⊢
  simp only [answer, hlive, if_pos htoken]
  simp [grantStep]

/-- What a host registers, and the descriptor its refresh task sends: the
addresses may have become known in between. -/
structure Listing where
  id : SessionId
  token : String
  registered : EndpointDescriptor
  refreshed : EndpointDescriptor

def Listing.endpoint (listing : Listing) (renewals : List ℕ) : EndpointDescriptor :=
  if renewals = [] then listing.registered else listing.refreshed

variable {listing : Listing}

def Listing.withdrawal (listing : Listing) : Call := .unregister ⟨listing.id, listing.token⟩

/-- The host has not unregistered, and its refreshes leave no gap. -/
def Listing.Leased (listing : Listing) (start : ℕ) (calls : List Request) (t : ℕ) : Prop :=
  (∀ r ∈ calls, r.call ≠ listing.withdrawal) ∧
    Unbroken leaseTtl start (renewalTimes listing.token calls) t

instance (calls : List Request) (t : ℕ) : Decidable (listing.Leased start calls t) :=
  inferInstanceAs (Decidable (_ ∧ _))

variable {calls : List Request}

inductive Standing (listing : Listing) (start : ℕ) (calls : List Request) (t : ℕ)
    (history : List (Request × Reply)) : Prop
  | held (g : Grant) (hgrant : lastGrant listing.id history = some g)
      (htoken : g.token = listing.token)
      (hend : g.endpoint = listing.endpoint (renewalTimes listing.token calls))
      (httl : g.ttlSecs = some defaultTtlSecs)
      (hat : g.grantedAt = lastRenewal start (renewalTimes listing.token calls))
      (hchain : List.IsChain (fun earlier next => next < earlier + leaseTtl)
        (start :: renewalTimes listing.token calls))
      (hkept : ∀ r ∈ calls, r.call ≠ listing.withdrawal)
  -- whoever registers the id now gets another token
  | lapsed (hdead : Dead listing.token t history) (hover : ¬ listing.Leased start calls t)

theorem Standing.held_iff (h : Standing listing start calls t history) :
    Held listing.id listing.token t history ↔ listing.Leased start calls t := by
  cases h with
  | held g hgrant htoken hend httl hat hchain hkept =>
    rw [Listing.Leased, unbroken_iff, ← hat, ← liveAt_default httl]
    constructor
    · rintro ⟨g', hg', -⟩
      obtain ⟨hgrant', hlive⟩ := liveGrant_eq_some.mp hg'
      cases hgrant.symm.trans hgrant'
      exact ⟨hkept, hchain, hlive⟩
    · rintro ⟨-, -, hlive⟩
      exact ⟨g, liveGrant_eq_some.mpr ⟨hgrant, hlive⟩, htoken⟩
  | lapsed hdead hover =>
    refine ⟨?_, fun h => absurd h hover⟩
    rintro ⟨g, hg, htoken⟩
    obtain ⟨hgrant, hlive⟩ := liveGrant_eq_some.mp hg
    exact absurd hlive (hdead listing.id g hgrant htoken)

theorem Standing.liveGrant (h : Standing listing start calls t history)
    (hlease : listing.Leased start calls t) :
    ∃ g, liveGrant listing.id history t = some g ∧ g.token = listing.token ∧
      g.endpoint = listing.endpoint (renewalTimes listing.token calls) := by
  cases h with
  | held g hgrant htoken hend httl hat hchain hkept =>
    refine ⟨g, liveGrant_eq_some.mpr ⟨hgrant, ?_⟩, htoken, hend⟩
    rw [liveAt_default httl, hat]
    exact (unbroken_iff.mp hlease.2).2
  | lapsed hdead hover => exact absurd hlease hover

theorem Dead.mono {t' : ℕ} (h : Dead token t history) (hle : t ≤ t') : Dead token t' history :=
  fun id' g hg htoken hlive => h id' g hg htoken (hlive.trans_le' hle)

theorem renewalTimes_append (xs ys : List Request) :
    renewalTimes token (xs ++ ys) = renewalTimes token xs ++ renewalTimes token ys := by
  simp [renewalTimes]

theorem renewalTimes_own (h : r.call.renews token = true) : renewalTimes token [r] = [r.now] := by
  simp [renewalTimes, h]

theorem renewalTimes_other (h : r.call.renews token = false) : renewalTimes token [r] = [] := by
  simp [renewalTimes, h]

theorem Listing.Leased.anti {t' : ℕ} (h : listing.Leased start calls t') (hle : t ≤ t') :
    listing.Leased start calls t :=
  ⟨h.1, h.2.anti hle⟩

theorem Listing.Leased.before (h : listing.Leased start (calls ++ [r]) r.now) :
    listing.Leased start calls r.now := by
  refine ⟨fun x hx => h.1 x (List.mem_append_left _ hx), ?_⟩
  have hunbroken := h.2
  rw [renewalTimes_append] at hunbroken
  cases hrenews : r.call.renews listing.token with
  | true =>
    rw [renewalTimes_own hrenews, unbroken_snoc] at hunbroken
    exact hunbroken.1
  | false =>
    rwa [renewalTimes_other hrenews, List.append_nil] at hunbroken

theorem Standing.later {t' : ℕ} (h : Standing listing start calls t history) (hle : t ≤ t') :
    Standing listing start calls t' history := by
  cases h with
  | held g hgrant htoken hend httl hat hchain hkept =>
    exact .held g hgrant htoken hend httl hat hchain hkept
  | lapsed hdead hover => exact .lapsed (hdead.mono hle) fun h => hover (h.anti hle)

/-- Only the host uses its token: for the refreshes of its task, which are always the same, and to
unregister. -/
def Listing.OwnCalls (listing : Listing) (r : Request) : Prop :=
  r.call.presents = some listing.token →
    r.call = .refresh ⟨listing.id, listing.token, listing.refreshed, some defaultTtlSecs⟩ ∨
      r.call = listing.withdrawal

instance : Decidable (listing.OwnCalls r) := inferInstanceAs (Decidable (_ → _))

theorem issued_nodup_of_snoc {e : Request × Reply} (h : (issued (history ++ [e])).Nodup) :
    (issued history).Nodup := by
  rw [issued, List.filterMap_append] at h
  exact (List.nodup_append.mp h).1

theorem lastGrant_withdrawn (hc : r.call = listing.withdrawal)
    (hlive : liveGrant listing.id history r.now = some g) (htoken : g.token = listing.token) :
    lastGrant listing.id
      (history ++ [(r, answer (liveGrant r.call.sessionId history r.now) r)]) = none := by
  obtain ⟨now, unix, call⟩ := r
  obtain rfl := hc
  rw [lastGrant_append]
  simp only [Listing.withdrawal, Call.sessionId] at hlive ⊢
  simp only [answer, hlive, if_pos htoken]
  simp [grantStep]

section Step
variable (hissued : IssuedTo listing.id listing.token history)
  (hfresh : (issued (history ++
    [(r, answer (Rendezvous.liveGrant r.call.sessionId history r.now) r)])).Nodup)
include hissued hfresh

theorem Standing.step_live (hgrant : lastGrant listing.id history = some g)
    (hlive : g.liveAt r.now) (htoken : g.token = listing.token)
    (hend : g.endpoint = listing.endpoint (renewalTimes listing.token calls))
    (httl : g.ttlSecs = some defaultTtlSecs)
    (hat : g.grantedAt = lastRenewal start (renewalTimes listing.token calls))
    (hchain : List.IsChain (fun earlier next => next < earlier + leaseTtl)
      (start :: renewalTimes listing.token calls))
    (hkept : ∀ r ∈ calls, r.call ≠ listing.withdrawal) (hown : listing.OwnCalls r) :
    Standing listing start (calls ++ [r]) r.now
      (history ++ [(r, answer (Rendezvous.liveGrant r.call.sessionId history r.now) r)]) := by
  have hlg : Rendezvous.liveGrant listing.id history r.now = some g :=
    liveGrant_eq_some.mpr ⟨hgrant, hlive⟩
  by_cases hwithdrawn : r.call = listing.withdrawal
  · have hnone := lastGrant_withdrawn hwithdrawn hlg htoken
    refine .lapsed (Gone.dead hfresh ⟨hissued.mono, fun g' hg' => ?_⟩) fun hleased => ?_
    · obtain ⟨hsome, -⟩ := liveGrant_eq_some.mp hg'
      exact absurd (hnone.symm.trans hsome) (by simp)
    · exact hleased.1 r (by simp) hwithdrawn
  have hkept' : ∀ x ∈ calls ++ [r], x.call ≠ listing.withdrawal := by
    intro x hx
    rcases List.mem_append.mp hx with hx | hx
    · exact hkept x hx
    · rwa [List.mem_singleton.mp hx]
  by_cases hp : r.call.presents = some listing.token
  · have hrefresh := (hown hp).resolve_right hwithdrawn
    have hgranted := lastGrant_refresh hrefresh hlg htoken
    have hnext : Unbroken leaseTtl start (renewalTimes listing.token calls) r.now :=
      unbroken_iff.mpr ⟨hchain, hat ▸ (liveAt_default httl).mp hlive⟩
    have htimes : renewalTimes listing.token (calls ++ [r]) =
        renewalTimes listing.token calls ++ [r.now] := by
      rw [renewalTimes_append, renewalTimes_own (by simp [hrefresh, Call.renews])]
    refine .held _ hgranted htoken ?_ rfl ?_ (htimes ▸ hnext) hkept'
    · simp [htimes, Listing.endpoint]
    · rw [htimes]
      exact lastRenewal_snoc.symm
  · have hother : r.call.renews listing.token = false := by
      cases hc : r.call with
      | refresh request => simpa [hc, Call.presents, Call.renews] using hp
      | _ => rfl
    have htimes : renewalTimes listing.token (calls ++ [r]) =
        renewalTimes listing.token calls := by
      rw [renewalTimes_append, renewalTimes_other hother, List.append_nil]
    exact .held g (lastGrant_other hlg (htoken ▸ hp)) htoken (htimes ▸ hend) httl (htimes ▸ hat)
      (htimes ▸ hchain) hkept'

theorem Standing.step (h : Standing listing start calls t history) (ht : t ≤ r.now)
    (hown : listing.OwnCalls r) :
    Standing listing start (calls ++ [r]) r.now
      (history ++ [(r, answer (Rendezvous.liveGrant r.call.sessionId history r.now) r)]) := by
  cases h with
  | held g hgrant htoken hend httl hat hchain hkept =>
    by_cases hlive : g.liveAt r.now
    · exact step_live hissued hfresh hgrant hlive htoken hend httl hat hchain hkept hown
    -- the grant ran out: tokens are issued once, so none with this token comes back
    · have hdead : Dead listing.token r.now history :=
        Gone.dead (issued_nodup_of_snoc hfresh) ⟨hissued, fun g' hg' _ => by
          obtain ⟨hgrant', hlive'⟩ := liveGrant_eq_some.mp hg'
          cases hgrant.symm.trans hgrant'
          exact hlive hlive'⟩
      refine .lapsed (hdead.step le_rfl hissued hfresh) fun hleased => hlive ?_
      rw [liveAt_default httl, hat]
      exact (unbroken_iff.mp hleased.before.2).2
  | lapsed hdead hover =>
    refine .lapsed ((hdead.mono ht).step le_rfl hissued hfresh) fun hleased => hover ?_
    exact hleased.before.anti ht

end Step

structure Registered (listing : Listing) (pre : List Request) (reg : Request) : Prop where
  call : reg.call = .register ⟨listing.id, listing.registered, some defaultTtlSecs⟩ listing.token
  accepted : ((new.after pre).serve reg).1.succeeds = true

variable {pre late : List Request} {reg : Request}

theorem Registered.trace (h : Registered listing pre reg)
    (hord : Ordered Request.now Request.now 0 (pre ++ [reg])) :
    new.trace (pre ++ [reg]) = new.trace pre ++
      [(reg, .registered (.ok ⟨listing.token, reg.nowUnix + ttl (some defaultTtlSecs)⟩))] := by
  have hacc := h.accepted
  rw [reply_eq_answer hord, answer_register _ h.call] at hacc
  rw [trace_snoc hord, hacc]
  simp only [answer, h.call]

theorem Registered.issuedTo (h : Registered listing pre reg)
    (hord : Ordered Request.now Request.now 0 (pre ++ [reg])) :
    IssuedTo listing.id listing.token (new.trace (pre ++ [reg])) := by
  rw [h.trace hord]
  refine ⟨_, List.mem_append_right _ (List.mem_singleton_self _), rfl, ?_⟩
  rw [h.call]
  rfl

theorem Registered.standing (h : Registered listing pre reg)
    (hord : Ordered Request.now Request.now 0 (pre ++ [reg])) :
    Standing listing reg.now [] reg.now (new.trace (pre ++ [reg])) := by
  have hgrant : lastGrant listing.id (new.trace (pre ++ [reg])) =
      some ⟨listing.token, listing.registered, some defaultTtlSecs, reg.now, reg.nowUnix⟩ := by
    rw [h.trace hord, lastGrant_append]
    obtain ⟨now, unix, call⟩ := reg
    obtain rfl := h.call
    simp [grantStep]
  exact .held _ hgrant rfl rfl rfl rfl (List.isChain_singleton _) fun _ hr => by cases hr

theorem Registered.standing_after (h : Registered listing pre reg)
    (hord : Ordered Request.now Request.now 0 (pre ++ [reg] ++ late))
    (hfresh : (issued (new.trace (pre ++ [reg] ++ late))).Nodup)
    (hown : ∀ r ∈ late, listing.OwnCalls r) :
    Standing listing reg.now late (Timeline.horizon Request.now reg.now late)
      (new.trace (pre ++ [reg] ++ late)) := by
  induction late using List.reverseRecOn with
  | nil => simpa [Timeline.horizon] using h.standing (by simpa using hord)
  | append_singleton late r ih =>
    rw [← List.append_assoc] at hord hfresh ⊢
    obtain ⟨hbefore, hnow, -⟩ := Timeline.ordered_append.mp hord
    have hissued : IssuedTo listing.id listing.token (new.trace (pre ++ [reg] ++ late)) := by
      rw [trace_append]
      exact (h.issuedTo (Timeline.ordered_append.mp hbefore).1).mono
    have hstanding := ih hbefore (issued_nodup_of_append hfresh)
      fun x hx => hown x (List.mem_append_left _ hx)
    rw [Timeline.horizon_append, Timeline.horizon_append] at hnow
    rw [trace_snoc hord] at hfresh ⊢
    rw [Timeline.horizon_append]
    exact hstanding.step hissued hfresh hnow (hown r (by simp))

theorem Registered.standing_at {before after : List Request} (h : Registered listing pre reg)
    (hord : Ordered Request.now Request.now 0 (pre ++ [reg] ++ (before ++ r :: after)))
    (hfresh : (issued (new.trace (pre ++ [reg] ++ (before ++ r :: after)))).Nodup)
    (hown : ∀ r ∈ before, listing.OwnCalls r) :
    Standing listing reg.now before r.now
      (new.trace (pre ++ [reg] ++ before)) := by
  rw [← List.append_assoc] at hord hfresh
  have hbefore := (Timeline.ordered_append.mp hord).1
  have hnow := (Timeline.ordered_append.mp hord).2.1
  rw [Timeline.horizon_append, Timeline.horizon_append] at hnow
  exact (h.standing_after hbefore (issued_nodup_of_append hfresh) hown).later hnow

def sampleListing : Listing := ⟨⟨7⟩, "aa", endpointA, ⟨"a", some "relay", []⟩⟩

def sampleRegistration : Request :=
  ⟨fromSecs 1, 1001, .register ⟨⟨7⟩, endpointA, some defaultTtlSecs⟩ "aa"⟩

def sampleRefresh (t : ℕ) : Request :=
  ⟨t, 1000, .refresh ⟨⟨7⟩, "aa", ⟨"a", some "relay", []⟩, some defaultTtlSecs⟩⟩

theorem sampleListing_registered : Registered sampleListing [] sampleRegistration := ⟨rfl, rfl⟩

/-- One pass of the task's loop: when its tick came, when the server served the
refresh, if it did, and when the call returned. -/
structure Round where
  sentAt : ℕ
  servedAt : Option ℕ
  doneAt : ℕ

def refreshPeriod : ℕ := fromSecs (defaultTtlSecs / 2)

theorem leaseTtl_eq : leaseTtl = 2 * refreshPeriod := by decide

/-- The first tick comes at once, the `k`-th `k` periods later. A tick that comes due while
the call before it is out is delivered when that returns. -/
def Ticking (start : ℕ) : ℕ → ℕ → List Round → Prop
  | _, _, [] => True
  | k, ready, round :: rounds =>
    round.sentAt = max (start + k * refreshPeriod) ready ∧ round.sentAt ≤ round.doneAt ∧
      Ticking start (k + 1) round.doneAt rounds

structure Round.Prompt (round : Round) (servedAt : ℕ) : Prop where
  served : round.servedAt = some servedAt
  sent : round.sentAt ≤ servedAt
  back : servedAt ≤ round.doneAt
  quick : round.doneAt < round.sentAt + refreshPeriod

def AllPrompt (rounds : List Round) : Prop := ∀ round ∈ rounds, ∃ t, round.Prompt t

section Schedule
variable {k ready last : ℕ} {round : Round} {rounds : List Round} {now : ℕ}

theorem AllPrompt.renewals_eq_nil (h : AllPrompt rounds) :
    rounds.filterMap Round.servedAt = [] ↔ rounds = [] := by
  cases rounds with
  | nil => simp
  | cons round rounds =>
    obtain ⟨t, ht⟩ := h round (by simp)
    simp [ht.served]

theorem Ticking.sent_on_time (h : Ticking start k ready (round :: rounds))
    (hready : ready ≤ start + k * refreshPeriod) :
    round.sentAt = start + k * refreshPeriod := h.1.trans (max_eq_left hready)

theorem due_succ : start + (k + 1) * refreshPeriod = start + k * refreshPeriod + refreshPeriod := by
  rw [Nat.succ_mul, Nat.add_assoc]

theorem Ticking.on_time (h : Ticking start k ready (round :: rounds))
    (hready : ready ≤ start + k * refreshPeriod)
    (hquick : round.doneAt < round.sentAt + refreshPeriod) :
    round.doneAt ≤ start + (k + 1) * refreshPeriod := by
  have hsent := h.sent_on_time hready
  rw [due_succ]
  omega

theorem Ticking.chain (h : Ticking start k ready rounds)
    (hready : ready ≤ start + k * refreshPeriod) (hprompt : AllPrompt rounds)
    (hlast : start + k * refreshPeriod ≤ last + refreshPeriod) :
    List.IsChain (fun earlier next => next < earlier + leaseTtl)
        (last :: rounds.filterMap Round.servedAt) ∧
      start + (k + rounds.length) * refreshPeriod ≤
        lastRenewal last (rounds.filterMap Round.servedAt) + refreshPeriod := by
  induction rounds generalizing k ready last with
  | nil => exact ⟨List.isChain_singleton _, by simpa using hlast⟩
  | cons round rounds ih =>
    obtain ⟨t, ht⟩ := hprompt round (by simp)
    have hsent := h.sent_on_time hready
    have hquick := ht.quick
    have hback := ht.back
    have hafter := ht.sent
    -- served before its next tick, so the one after comes in time for the lease
    have hfar : start + (k + 1) * refreshPeriod ≤ t + refreshPeriod := by
      rw [due_succ]
      omega
    have hnext : t < last + leaseTtl := by
      rw [leaseTtl_eq]
      omega
    obtain ⟨hchain, hend⟩ := ih h.2.2 (h.on_time hready hquick)
      (fun x hx => hprompt x (List.mem_cons_of_mem _ hx)) hfar
    rw [List.filterMap_cons_some ht.served]
    refine ⟨List.isChain_cons_cons.mpr ⟨hnext, hchain⟩, ?_⟩
    rw [List.length_cons, Nat.add_comm rounds.length, ← Nat.add_assoc, lastRenewal_cons]
    exact hend

theorem Ticking.keeps (h : Ticking start 0 start rounds) (hprompt : AllPrompt rounds)
    {granted : ℕ} (hgranted : start ≤ granted + refreshPeriod)
    (hnow : now < start + (rounds.length + 1) * refreshPeriod) :
    Unbroken leaseTtl granted (rounds.filterMap Round.servedAt) now := by
  obtain ⟨hchain, hend⟩ := h.chain (by simp) hprompt (by simpa using hgranted)
  rw [due_succ] at hnow
  rw [unbroken_iff, leaseTtl_eq]
  refine ⟨leaseTtl_eq ▸ hchain, ?_⟩
  rw [Nat.zero_add] at hend
  omega

theorem Ticking.sent_after {early : List Round}
    (h : Ticking start k ready (early ++ round :: rounds))
    (hready : ready ≤ start + k * refreshPeriod) (hprompt : AllPrompt early) :
    round.sentAt = start + (k + early.length) * refreshPeriod ∧
      Ticking start (k + early.length) round.sentAt (round :: rounds) := by
  induction early generalizing k ready with
  | nil =>
    have hsent := h.sent_on_time hready
    exact ⟨hsent, by rw [hsent]; exact (Nat.max_self _).symm, h.2.1, h.2.2⟩
  | cons first early ih =>
    obtain ⟨t, ht⟩ := hprompt first (by simp)
    have hrest := ih h.2.2 (h.on_time hready ht.quick)
      fun x hx => hprompt x (List.mem_cons_of_mem _ hx)
    rw [List.length_cons, Nat.add_comm early.length, ← Nat.add_assoc]
    exact hrest

theorem Ticking.due (h : Ticking start k ready (round :: rounds)) :
    start + k * refreshPeriod ≤ round.sentAt := h.1.symm ▸ Nat.le_max_left ..

theorem Ticking.lost (granted now : ℕ) {early later : List Round} {first lost second : Round}
    {t u : ℕ}
    (h : Ticking start 0 start (early ++ first :: lost :: second :: later))
    (hprompt : AllPrompt early) (hfirst : first.Prompt t) (hlost : lost.servedAt = none)
    (hsecond : second.servedAt = some u) (hslow : t - first.sentAt ≤ u - second.sentAt)
    (hu : second.sentAt ≤ u) :
    ¬ Unbroken leaseTtl granted
      ((early ++ first :: lost :: second :: later).filterMap Round.servedAt) now := by
  obtain ⟨hsent, hrun⟩ := h.sent_after (by simp) hprompt
  have hdue := hrun.2.2.2.2.due
  have hback := hfirst.sent
  rw [due_succ, due_succ, ← hsent] at hdue
  -- two periods lie between the sending times, and that is the time to live
  have hgap : ¬ u < t + leaseTtl := by
    rw [leaseTtl_eq]
    omega
  intro hunbroken
  have hchain := (unbroken_iff.mp hunbroken).1
  rw [List.filterMap_append, List.filterMap_cons_some hfirst.served,
    List.filterMap_cons_none hlost, List.filterMap_cons_some hsecond, ← List.cons_append] at hchain
  have htail := (List.isChain_append.mp hchain).2.1
  exact hgap (List.isChain_cons_cons.mp htail).1

end Schedule

/-- While every refresh is served and answered within its thirty seconds, and the host has not
unregistered, a viewer finds it; one that is lost costs the host its registration for good, unless
the next one reaches the server faster than the one before did. -/
theorem refresh_task_keeps_or_loses (pre late : List Request) (reg : Request) (listing : Listing)
    (hreg : Registered listing pre reg)
    (hord : Ordered Request.now Request.now 0 (pre ++ [reg] ++ late))
    (hfresh : (issued (new.trace (pre ++ [reg] ++ late))).Nodup)
    (hown : ∀ r ∈ late, listing.OwnCalls r) (start : ℕ) (rounds : List Round)
    (hticks : Ticking start 0 start rounds) (hstart : start ≤ reg.now + refreshPeriod) :
    ∀ before r after, late = before ++ r :: after →
      renewalTimes listing.token before = rounds.filterMap Round.servedAt →
      let history := new.trace (pre ++ [reg] ++ before)
      (AllPrompt rounds → r.now < start + (rounds.length + 1) * refreshPeriod →
        (∀ x ∈ before, x.call ≠ listing.withdrawal) →
        Held listing.id listing.token r.now history ∧
        (r.call = .lookup listing.id →
          ∃ response, ((new.after (pre ++ [reg] ++ before)).serve r).1 = .found (.ok response) ∧
            response.endpoint = if rounds = [] then listing.registered else listing.refreshed)) ∧
      ∀ early first lost second later t u,
        rounds = early ++ first :: lost :: second :: later → AllPrompt early →
        first.Prompt t → lost.servedAt = none → second.servedAt = some u →
        second.sentAt ≤ u → t - first.sentAt ≤ u - second.sentAt →
        ¬ Held listing.id listing.token r.now history ∧
          (r.call.presents = some listing.token →
            ((new.after (pre ++ [reg] ++ before)).serve r).1.succeeds = false) := by
  rintro before r after rfl hserved
  have hstanding := hreg.standing_at hord hfresh fun x hx => hown x (by simp [hx])
  have hown' := hown r (by simp)
  rw [← List.append_assoc] at hord
  have hreply := reply_eq_answer hord
  constructor
  · intro hprompt hnow hkept
    have hlease : listing.Leased reg.now before r.now :=
      ⟨hkept, hserved ▸ hticks.keeps hprompt hstart hnow⟩
    refine ⟨hstanding.held_iff.mpr hlease, fun hc => ?_⟩
    obtain ⟨g, hg, -, hend⟩ := hstanding.liveGrant hlease
    rw [hreply, hc]
    simp only [answer, hc, Call.sessionId, hg]
    refine ⟨_, rfl, ?_⟩
    simp only [hend, Listing.endpoint, hserved, hprompt.renewals_eq_nil]
  · rintro early first lost second later t u rfl hearly hfirst hlost hsecond hu hslow
    have hbroken := hticks.lost reg.now r.now hearly hfirst hlost hsecond hslow hu
    have hheld := hstanding.held_iff.not.mpr fun hleased => hbroken (hserved ▸ hleased.2)
    refine ⟨hheld, fun hp => ?_⟩
    rw [Bool.eq_false_iff, hreply, Ne, answer_token _ hp]
    intro hfound
    apply hheld
    rcases hown' hp with hcall | hcall
    · rw [hcall] at hfound
      exact hfound
    · rw [hcall] at hfound
      exact hfound

/-- The second refresh got lost, and the third comes a minute after the first. -/
theorem refresh_task_keeps_or_loses_one :
    ((new.after [sampleRegistration, sampleRefresh (fromSecs 3), sampleRefresh (fromSecs 63)]).serve
      (sampleRefresh (fromSecs 93))).1.succeeds = false := by
  have h := refresh_task_keeps_or_loses [] [sampleRefresh (fromSecs 3),
    sampleRefresh (fromSecs 63), sampleRefresh (fromSecs 93)] sampleRegistration sampleListing
    sampleListing_registered (by simp [sampleRegistration, sampleRefresh, Ordered, fromSecs])
    (by decide) (by decide) (fromSecs 2)
    [⟨fromSecs 2, some (fromSecs 3), fromSecs 4⟩, ⟨fromSecs 32, none, fromSecs 42⟩,
      ⟨fromSecs 62, some (fromSecs 63), fromSecs 64⟩]
    (by simp [Ticking, refreshPeriod, defaultTtlSecs, fromSecs]) (by decide)
    [sampleRefresh (fromSecs 3), sampleRefresh (fromSecs 63)] (sampleRefresh (fromSecs 93)) [] rfl
    (by decide)
  refine (h.2 [] _ _ _ [] (fromSecs 3) (fromSecs 63) rfl (by simp [AllPrompt])
    ⟨rfl, by decide, by decide, by decide⟩ rfl rfl (by decide) (by decide)).2 rfl

end Controlis.Rendezvous
