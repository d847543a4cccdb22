import Controlis.Foundation.Windows
import Controlis.Server.Api

/-!
# The rate limit of one address

Every request purges the buckets of all addresses, but a purge only takes away
buckets whose window is over. So the decisions on the requests of an address are
those of a fixed-window counter fed with that address alone, and any 60 seconds
hold the requests of two windows at most.
-/

namespace Controlis.Server
open Timeline

variable {A : Type*} [DecidableEq A]

def RateLimiter.new : RateLimiter A := ⟨fun _ => none⟩

def RateLimiter.checkAll (limiter : RateLimiter A) (maxRequests : ℕ) : List (A × ℕ) → List Bool
  | [] => []
  | (ip, now) :: requests =>
    let (ok, limiter) := limiter.check ip maxRequests now
    ok :: limiter.checkAll maxRequests requests

def decisionsOn (ip : A) (requests : List (A × ℕ)) (decisions : List Bool) : List Bool :=
  ((requests.zip decisions).filter (·.1.1 = ip)).map (·.2)

def requestsOf (ip : A) (requests : List (A × ℕ)) : List (A × ℕ) := requests.filter (·.1 = ip)

def timesOf (ip : A) (requests : List (A × ℕ)) : List ℕ := (requestsOf ip requests).map (·.2)

def fresh (now : ℕ) (bucket : RateBucket) : Bool := now - bucket.windowStarted < fromSecs 60

def RateLimiter.slot (limiter : RateLimiter A) (ip : A) (now : ℕ) : RateBucket :=
  ((limiter.buckets ip).filter (fresh now)).getD ⟨now, 0⟩

variable {limiter : RateLimiter A} {ip ip' : A} {maxRequests now t : ℕ}

omit [DecidableEq A] in
theorem slot_fresh (limiter : RateLimiter A) (ip : A) (now : ℕ) :
    ¬ fromSecs 60 ≤ now - (limiter.slot ip now).windowStarted := by
  unfold RateLimiter.slot
  cases hslot : (limiter.buckets ip).filter (fresh now) with
  | none => simp [fromSecs]
  | some bucket =>
    have hfresh := (Option.filter_eq_some_iff.mp hslot).2
    simpa [fresh] using hfresh

theorem check_eq (hmax : 0 < maxRequests) : limiter.check ip maxRequests now =
    (decide ((limiter.slot ip now).count < maxRequests), ⟨Function.update
      (fun ip => (limiter.buckets ip).filter (fresh now)) ip (some
        (if (limiter.slot ip now).count < maxRequests then
          { limiter.slot ip now with count := (limiter.slot ip now).count + 1 }
        else limiter.slot ip now))⟩) := by
  have hslot : (((limiter.buckets ip).filter fun bucket =>
      now - bucket.windowStarted < fromSecs 60).getD ⟨now, 0⟩) = limiter.slot ip now := rfl
  unfold RateLimiter.check
  rw [if_neg (by omega)]
  dsimp only
  rw [hslot, if_neg (slot_fresh limiter ip now)]
  by_cases hroom : (limiter.slot ip now).count < maxRequests
  · rw [if_neg (by omega), if_pos hroom, decide_eq_true hroom]
    rfl
  · rw [if_pos (by omega), if_neg hroom, decide_eq_false hroom]
    rfl

/-- Where the counter of an address stands: the start of its window and the requests in it. -/
abbrev Window := Option (ℕ × ℕ)

def Window.at (window : Window) (now : ℕ) : ℕ × ℕ :=
  match window with
  | some (start, k) => if now < start + fromSecs 60 then (start, k) else (now, 0)
  | none => (now, 0)

def Window.decisions (maxRequests : ℕ) : Window → List ℕ → List Bool
  | some (start, k), times =>
    roomFor maxRequests k (times.takeWhile (· < start + fromSecs 60)).length ++
      fixedWindow (fromSecs 60) maxRequests (times.dropWhile (· < start + fromSecs 60))
  | none, times => fixedWindow (fromSecs 60) maxRequests times

theorem Window.decisions_cons (maxRequests : ℕ) (window : Window) (now : ℕ) (times : List ℕ) :
    window.decisions maxRequests (now :: times) = decide ((window.at now).2 < maxRequests) ::
      Window.decisions maxRequests (some ((window.at now).1, (window.at now).2 + 1)) times := by
  have hopen : fixedWindow (fromSecs 60) maxRequests (now :: times) =
      decide (0 < maxRequests) :: Window.decisions maxRequests (some (now, 1)) times := by
    rw [fixedWindow_cons, roomFor_succ]
    rfl
  cases window with
  | none => exact hopen
  | some open_ =>
    obtain ⟨start, k⟩ := open_
    by_cases hin : now < start + fromSecs 60
    · simp only [Window.decisions, Window.at, List.takeWhile_cons, List.dropWhile_cons, hin,
        decide_true, if_true, List.length_cons, roomFor_succ, List.cons_append]
    · simp only [Window.decisions, Window.at, List.takeWhile_cons, List.dropWhile_cons, hin,
        decide_false, if_false, Bool.false_eq_true]
      exact hopen

/-- The bucket of an address counts its window, or what is left of it no longer matters. -/
def Agrees (limiter : RateLimiter A) (maxRequests : ℕ) (ip : A) (window : Window) (now : ℕ) :
    Prop :=
  ∀ t, now ≤ t → (limiter.buckets ip).filter (fresh t) =
    (window.map fun w => (⟨w.1, min maxRequests w.2⟩ : RateBucket)).filter (fresh t)

omit [DecidableEq A] in
theorem Agrees.slot {window : Window} (h : Agrees limiter maxRequests ip window now)
    (hle : now ≤ t) : limiter.slot ip t =
      ⟨(window.at t).1, min maxRequests (window.at t).2⟩ := by
  rw [RateLimiter.slot, h t hle]
  cases window with
  | none => simp [Window.at]
  | some open_ =>
    obtain ⟨start, k⟩ := open_
    have hfresh : fresh t ⟨start, min maxRequests k⟩ = decide (t < start + fromSecs 60) := by
      have hpos : 0 < fromSecs 60 := by decide
      simp only [fresh, decide_eq_decide]
      omega
    by_cases hin : t < start + fromSecs 60
    · simp [Option.filter, hfresh, Window.at, hin]
    · simp [Option.filter, hfresh, Window.at, hin]

theorem Agrees.other {window : Window} (h : Agrees limiter maxRequests ip window now)
    (hle : now ≤ t) (hmax : 0 < maxRequests) (hne : ip ≠ ip') :
    Agrees (limiter.check ip' maxRequests t).2 maxRequests ip window t := by
  intro u hu
  have hpurge : ((limiter.buckets ip).filter (fresh t)).filter (fresh u) =
      (limiter.buckets ip).filter (fresh u) := by
    cases limiter.buckets ip with
    | none => rfl
    | some bucket =>
      have hfresh (hf : fresh u bucket = true) : fresh t bucket = true := by
        simp only [fresh, decide_eq_true_eq] at hf ⊢
        omega
      cases hu : fresh u bucket with
      | true => simp [Option.filter, hu, hfresh hu]
      | false => cases ht : fresh t bucket <;> simp [Option.filter, hu, ht]
  rw [check_eq hmax, ← h u (by omega), ← hpurge]
  simp [Function.update_of_ne hne]

theorem Agrees.own {window : Window} (h : Agrees limiter maxRequests ip window now)
    (hle : now ≤ t) (hmax : 0 < maxRequests) :
    (limiter.check ip maxRequests t).1 = decide ((window.at t).2 < maxRequests) ∧
      Agrees (limiter.check ip maxRequests t).2 maxRequests ip
        (some ((window.at t).1, (window.at t).2 + 1)) t := by
  rw [check_eq hmax, h.slot hle]
  dsimp only
  generalize window.at t = w
  obtain ⟨start, k⟩ := w
  refine ⟨by simp, fun u _ => ?_⟩
  have hcount : (if min maxRequests k < maxRequests then
      (⟨start, min maxRequests k + 1⟩ : RateBucket) else ⟨start, min maxRequests k⟩) =
      ⟨start, min maxRequests (k + 1)⟩ := by
    split_ifs with hroom
    · exact congrArg (RateBucket.mk start) (by omega)
    · exact congrArg (RateBucket.mk start) (by omega)
  dsimp only
  rw [Function.update_self, hcount]
  rfl

theorem decisionsOn_cons (ip ip' : A) (t : ℕ) (requests : List (A × ℕ)) (ok : Bool)
    (decisions : List Bool) : decisionsOn ip ((ip', t) :: requests) (ok :: decisions) =
      if ip' = ip then ok :: decisionsOn ip requests decisions
      else decisionsOn ip requests decisions := by
  by_cases h : ip' = ip <;> simp [decisionsOn, h]

theorem Agrees.decisions {window : Window} {requests : List (A × ℕ)} (hmax : 0 < maxRequests)
    (h : Agrees limiter maxRequests ip window now) (hnow : ∀ r ∈ requests, now ≤ r.2)
    (hsorted : requests.Pairwise (·.2 ≤ ·.2)) :
    decisionsOn ip requests (limiter.checkAll maxRequests requests) =
      window.decisions maxRequests (timesOf ip requests) := by
  induction requests generalizing limiter window now with
  | nil =>
    cases window with
    | none => simp [Window.decisions, timesOf, requestsOf, decisionsOn, fixedWindow_nil]
    | some open_ =>
      simp [Window.decisions, timesOf, requestsOf, decisionsOn, fixedWindow_nil, roomFor]
  | cons r requests ih =>
    obtain ⟨ip', t⟩ := r
    have hle : now ≤ t := hnow _ List.mem_cons_self
    have hlater : ∀ r ∈ requests, t ≤ r.2 := fun r hr => List.rel_of_pairwise_cons hsorted hr
    rw [RateLimiter.checkAll, decisionsOn_cons]
    split_ifs with hip
    · subst hip
      obtain ⟨hdecision, hagrees⟩ := h.own hle hmax
      have htimes : timesOf ip' ((ip', t) :: requests) = t :: timesOf ip' requests := by
        simp [timesOf, requestsOf]
      rw [htimes, Window.decisions_cons, hdecision, ih hagrees hlater hsorted.tail]
    · have htimes : timesOf ip ((ip', t) :: requests) = timesOf ip requests := by
        simp [timesOf, requestsOf, hip]
      rw [htimes, ih (h.other hle hmax (Ne.symm hip)) hlater hsorted.tail]

structure LimitedAlone (maxRequests : ℕ) (requests : List (A × ℕ)) (ip : A) : Prop where
  alone : decisionsOn ip requests (RateLimiter.new.checkAll maxRequests requests) =
    RateLimiter.new.checkAll maxRequests (requestsOf ip requests)
  windowed : decisionsOn ip requests (RateLimiter.new.checkAll maxRequests requests) =
    fixedWindow (fromSecs 60) maxRequests (timesOf ip requests)
  bounded : ∀ lo, inStretch lo (lo + fromSecs 60) (granted (timesOf ip requests)
    (decisionsOn ip requests (RateLimiter.new.checkAll maxRequests requests))) ≤ 2 * maxRequests

omit [DecidableEq A] in
theorem agrees_new (maxRequests : ℕ) (ip : A) : Agrees .new maxRequests ip none 0 :=
  fun _ _ => rfl

theorem length_checkAll (limiter : RateLimiter A) (maxRequests : ℕ) (requests : List (A × ℕ)) :
    (limiter.checkAll maxRequests requests).length = requests.length := by
  induction requests generalizing limiter with
  | nil => rfl
  | cons r requests ih => simp [RateLimiter.checkAll, ih]

theorem decisionsOn_own {requests : List (A × ℕ)} {decisions : List Bool}
    (hown : ∀ r ∈ requests, r.1 = ip) (hlength : decisions.length = requests.length) :
    decisionsOn ip requests decisions = decisions := by
  have hall : (requests.zip decisions).filter (·.1.1 = ip) = requests.zip decisions :=
    List.filter_eq_self.mpr fun x hx => decide_eq_true (hown x.1 (List.of_mem_zip hx).1)
  rw [decisionsOn, hall, List.map_snd_zip (by omega)]

theorem decisionsOn_windowed (requests : List (A × ℕ)) (hmax : 0 < maxRequests)
    (hsorted : requests.Pairwise (·.2 ≤ ·.2)) (ip : A) :
    decisionsOn ip requests (RateLimiter.new.checkAll maxRequests requests) =
      fixedWindow (fromSecs 60) maxRequests (timesOf ip requests) :=
  (agrees_new maxRequests ip).decisions hmax (fun _ _ => Nat.zero_le _) hsorted

theorem rate_limit_is_per_address (maxRequests : ℕ) (requests : List (A × ℕ))
    (hmax : 0 < maxRequests) (hsorted : requests.Pairwise (·.2 ≤ ·.2)) (ip : A) :
    LimitedAlone maxRequests requests ip := by
  have hwindowed := decisionsOn_windowed requests hmax hsorted ip
  refine ⟨?_, hwindowed, fun lo => ?_⟩
  · have hown : ∀ r ∈ requestsOf ip requests, r.1 = ip :=
      fun r hr => of_decide_eq_true (List.mem_filter.mp hr).2
    have halone := decisionsOn_windowed (requestsOf ip requests) hmax
      (hsorted.sublist List.filter_sublist) ip
    rw [decisionsOn_own hown (length_checkAll _ _ _)] at halone
    have htimes : timesOf ip (requestsOf ip requests) = timesOf ip requests := by
      simp [timesOf, requestsOf]
    rw [hwindowed, halone, htimes]
  · rw [hwindowed]
    apply granted_in_stretch maxRequests lo (by decide)
    exact (hsorted.sublist List.filter_sublist).map _ fun _ _ h => h

/-- Two addresses, and a window of the first that is over when it comes back. -/
theorem rate_limit_is_per_address_two : LimitedAlone 1
    [(0, 0), (1, fromSecs 1), (0, fromSecs 59), (0, fromSecs 60)] 0 :=
  rate_limit_is_per_address 1 _ (by decide) (by decide) 0

end Controlis.Server
