import Mathlib.Algebra.BigOperators.Group.Finset.Basic
import Mathlib.Algebra.Order.BigOperators.Group.Finset
import Mathlib.Data.Option.Basic
import Mathlib.Logic.Function.Basic
import Mathlib.Tactic.Linarith
import Mathlib.Tactic.NormNum
import Mathlib.Tactic.Tauto
import Controlis.Foundation.Timeline

/-!
# The per-source brute-force limiter

`BruteForceGuard` keeps a failure record per source. Every fifth failure arms a
block whose length doubles with the blocks already armed, up to fifteen minutes.
Records are dropped lazily: any source's `check` discards every record that is
idle for thirty minutes and no longer blocked. Instants and durations are
nanoseconds. The two counters are unbounded here: a source arms at most one
block every fifteen seconds, so the 32-bit block counter of the source lasts for
more than two thousand years of uptime.

An `Attempt` is what `authenticate` does with the guard: `check` at one instant
and, only if it is allowed, a recorded failure or success at a later one, or
neither when the host user declines the viewer.
-/

open scoped BigOperators
namespace Controlis.RateLimit
open Timeline (Ordered fromSecs)

def failuresBeforeBlock : ℕ := 5
def baseBlock : ℕ := fromSecs 15
def maxBlock : ℕ := fromSecs (15 * 60)
def historyTtl : ℕ := fromSecs (30 * 60)

inductive GuardDecision
  | allow
  | blocked (retryAfter : ℕ)
deriving DecidableEq, Repr

structure Record where
  failures : ℕ
  blocks : ℕ
  blockedUntil : Option ℕ
  lastSeen : ℕ
deriving DecidableEq, Repr

structure BruteForceGuard (S : Type*) where
  records : S → Option Record

variable {S : Type*}

def BruteForceGuard.new : BruteForceGuard S := ⟨fun _ => none⟩

def Record.unblocked (now : ℕ) (record : Record) : Bool :=
  match record.blockedUntil with
  | some u => u ≤ now
  | none => true

def Record.fresh (now : ℕ) (record : Record) : Bool :=
  now - record.lastSeen < historyTtl

def BruteForceGuard.expire (g : BruteForceGuard S) (now : ℕ) : BruteForceGuard S :=
  ⟨fun s => (g.records s).filter fun record => record.fresh now || !record.unblocked now⟩

def decision (record : Option Record) (now : ℕ) : GuardDecision :=
  match record with
  | some record =>
    match record.blockedUntil with
    | some u => if now < u then .blocked (u - now) else .allow
    | none => .allow
  | none => .allow

def BruteForceGuard.check (g : BruteForceGuard S) (source : S) (now : ℕ) :
    GuardDecision × BruteForceGuard S :=
  let g := g.expire now
  (decision (g.records source) now, g)

def blockDuration (blocks : ℕ) : ℕ := min (baseBlock * 2 ^ min blocks 6) maxBlock

def Record.fail (now : ℕ) (record : Option Record) : Record :=
  let record := record.getD ⟨0, 0, none, now⟩
  let record := { record with lastSeen := now, failures := record.failures + 1 }
  if failuresBeforeBlock ≤ record.failures then
    { record with
      blockedUntil := some (now + blockDuration record.blocks)
      blocks := record.blocks + 1
      failures := 0 }
  else record

variable [DecidableEq S]

def BruteForceGuard.recordFailure (g : BruteForceGuard S) (source : S) (now : ℕ) :
    BruteForceGuard S :=
  ⟨Function.update g.records source (some (Record.fail now (g.records source)))⟩

def BruteForceGuard.recordSuccess (g : BruteForceGuard S) (source : S) : BruteForceGuard S :=
  ⟨Function.update g.records source none⟩

inductive Outcome
  | failure
  | success
  | abandoned
deriving DecidableEq, Repr

structure Attempt (S : Type*) where
  source : S
  checkedAt : ℕ
  recordedAt : ℕ
  outcome : Outcome

def BruteForceGuard.settle (g : BruteForceGuard S) (a : Attempt S) : BruteForceGuard S :=
  match a.outcome with
  | .failure => g.recordFailure a.source a.recordedAt
  | .success => g.recordSuccess a.source
  | .abandoned => g

def BruteForceGuard.attempt (g : BruteForceGuard S) (a : Attempt S) : Bool × BruteForceGuard S :=
  match g.check a.source a.checkedAt with
  | (.allow, g) => (true, g.settle a)
  | (.blocked _, g) => (false, g)

def BruteForceGuard.after (g : BruteForceGuard S) (as : List (Attempt S)) : BruteForceGuard S :=
  as.foldl (fun g a => (g.attempt a).2) g

/-- The attempt armed a block: it was let through and its source is blocked
right after it. -/
def BruteForceGuard.arms (g : BruteForceGuard S) (a : Attempt S) : Bool :=
  (g.attempt a).1 && ((g.attempt a).2.check a.source a.recordedAt).1 ≠ .allow

/-- The blocks `s` armed since its history was last empty, `n` before the list. -/
def armedSinceEmpty (s : S) : BruteForceGuard S → ℕ → List (Attempt S) → ℕ
  | _, n, [] => n
  | g, n, a :: as =>
    let n := if (g.expire a.checkedAt).records s = none then 0 else n
    let n := if a.source = s ∧ g.arms a then n + 1 else n
    armedSinceEmpty s (g.attempt a).2 n as

def admittedFailures (s : S) : BruteForceGuard S → List (Attempt S) → List (Attempt S)
  | _, [] => []
  | g, a :: as =>
    let rest := admittedFailures s (g.attempt a).2 as
    if a.source = s ∧ (g.attempt a).1 ∧ a.outcome = .failure then a :: rest else rest

def admits (record : Option Record) (now : ℕ) : Bool :=
  match record with
  | some record => record.unblocked now
  | none => true

def retained (record : Option Record) (now : ℕ) : Option Record :=
  record.filter fun record => record.fresh now || !record.unblocked now

def Attempt.onRecord (s : S) (a : Attempt S) (record : Option Record) : Option Record :=
  let record := retained record a.checkedAt
  if a.source = s ∧ admits record a.checkedAt then
    match a.outcome with
    | .failure => some (Record.fail a.recordedAt record)
    | .success => none
    | .abandoned => record
  else record

theorem decision_eq_allow (record : Option Record) (now : ℕ) :
    decision record now = .allow ↔ admits record now = true := by
  cases record with
  | none => simp [decision, admits]
  | some r =>
    cases h : r.blockedUntil with
    | none => simp [decision, admits, Record.unblocked, h]
    | some u =>
      by_cases hu : now < u
      · simp [decision, admits, Record.unblocked, h, hu]
      · simp [decision, admits, Record.unblocked, h, hu, not_lt.mp hu]

omit [DecidableEq S] in
theorem expire_records (g : BruteForceGuard S) (now : ℕ) (s : S) :
    (g.expire now).records s = retained (g.records s) now := rfl

theorem admits_retained (record : Option Record) (now : ℕ) :
    admits (retained record now) now = admits record now := by
  cases record with
  | none => rfl
  | some r =>
    cases hu : r.unblocked now with
    | true => cases hf : r.fresh now <;> simp [retained, admits, Option.filter, hu, hf]
    | false => simp [retained, admits, Option.filter, hu]

theorem attempt_admitted (g : BruteForceGuard S) (a : Attempt S) :
    (g.attempt a).1 = admits (g.records a.source) a.checkedAt := by
  have hd := decision_eq_allow ((g.expire a.checkedAt).records a.source) a.checkedAt
  rw [expire_records, admits_retained] at hd
  simp only [BruteForceGuard.attempt, BruteForceGuard.check, expire_records]
  cases hc : decision (retained (g.records a.source) a.checkedAt) a.checkedAt with
  | allow => simpa using (hd.mp hc).symm
  | blocked d =>
    have hne : ¬ admits (g.records a.source) a.checkedAt = true := by
      intro h
      rw [hd.mpr h] at hc
      cases hc
    simpa using hne

theorem attempt_records (g : BruteForceGuard S) (a : Attempt S) (s : S) :
    (g.attempt a).2.records s = a.onRecord s (g.records s) := by
  have hd := decision_eq_allow (retained (g.records a.source) a.checkedAt) a.checkedAt
  simp only [BruteForceGuard.attempt, BruteForceGuard.check, expire_records]
  cases hc : decision (retained (g.records a.source) a.checkedAt) a.checkedAt with
  | allow =>
    have ha := hd.mp hc
    by_cases hs : a.source = s
    · subst hs
      cases ho : a.outcome <;>
        simp [BruteForceGuard.settle, ho, BruteForceGuard.recordFailure,
          BruteForceGuard.recordSuccess, Attempt.onRecord, ha,
          expire_records]
    · have hs' : s ≠ a.source := fun h => hs h.symm
      cases ho : a.outcome <;>
        simp [BruteForceGuard.settle, ho, BruteForceGuard.recordFailure,
          BruteForceGuard.recordSuccess, Attempt.onRecord, hs,
          expire_records, Function.update_of_ne hs']
  | blocked d =>
    have ha : ¬ admits (retained (g.records a.source) a.checkedAt) a.checkedAt = true := by
      intro h
      rw [hd.mpr h] at hc
      cases hc
    by_cases hs : a.source = s
    · subst hs
      simp [Attempt.onRecord, ha, expire_records]
    · simp [Attempt.onRecord, hs, expire_records]

omit [DecidableEq S] in
theorem Record.unblocked_iff (r : Record) (now : ℕ) :
    r.unblocked now = true ↔ r.blockedUntil.getD 0 ≤ now := by
  cases h : r.blockedUntil <;> simp [Record.unblocked, h]

def Record.blockEnd (r : Record) : ℕ := r.blockedUntil.getD 0

/-- What one attempt, by anyone, can do to the record `r` of `s`. -/
inductive Change (s : S) (a : Attempt S) (r : Record) : Option Record → Prop
  | kept (h : ¬ (a.source = s ∧ a.outcome = .failure ∧ r.blockEnd ≤ a.checkedAt)) :
      Change s a r (some r)
  | dropped (h : r.lastSeen + historyTtl ≤ a.checkedAt) (hu : r.blockEnd ≤ a.checkedAt)
      (o : Option Record) (ho : a.source ≠ s → o = none) : Change s a r o
  | failed (hs : a.source = s) (ho : a.outcome = .failure) (hu : r.blockEnd ≤ a.checkedAt) :
      Change s a r (some (Record.fail a.recordedAt (some r)))
  | cleared (hs : a.source = s) (ho : a.outcome = .success) (hu : r.blockEnd ≤ a.checkedAt) :
      Change s a r none

theorem onRecord_change (s : S) (a : Attempt S) (r : Record) :
    Change s a r (a.onRecord s (some r)) := by
  have hu := Record.unblocked_iff r a.checkedAt
  cases hub : r.unblocked a.checkedAt with
  | true =>
    have hle : r.blockEnd ≤ a.checkedAt := hu.mp hub
    cases hf : r.fresh a.checkedAt with
    | false =>
      have hidle : r.lastSeen + historyTtl ≤ a.checkedAt := by
        simp only [Record.fresh, decide_eq_false_iff_not, not_lt] at hf
        have hpos : 0 < historyTtl := by decide
        omega
      refine Change.dropped hidle hle _ fun hs => ?_
      simp [Attempt.onRecord, hs, retained, Option.filter, hf, hub]
    | true =>
      have hr : retained (some r) a.checkedAt = some r := by simp [retained, hf]
      by_cases hs : a.source = s
      · cases ho : a.outcome with
        | failure =>
          simp only [Attempt.onRecord, hr, hs, admits, hub, ho, and_self, ↓reduceIte]
          exact .failed hs ho hle
        | success =>
          simp only [Attempt.onRecord, hr, hs, admits, hub, ho, and_self, ↓reduceIte]
          exact .cleared hs ho hle
        | abandoned =>
          simp only [Attempt.onRecord, hr, hs, admits, hub, ho, and_self, ↓reduceIte]
          exact .kept (by simp [ho])
      · simp only [Attempt.onRecord, hr, hs, false_and, ↓reduceIte]
        exact .kept (by simp [hs])
  | false =>
    have hr : retained (some r) a.checkedAt = some r := by simp [retained, hub]
    have hlt : ¬ r.blockEnd ≤ a.checkedAt := by
      intro h
      rw [hu.mpr h] at hub
      cases hub
    simp only [Attempt.onRecord, hr, admits, hub, Bool.false_eq_true, and_false, ↓reduceIte]
    exact .kept (by tauto)

theorem blockDuration_eq (n : ℕ) :
    blockDuration n = fromSecs (min (15 * 2 ^ min n 6) 900) := by
  simp only [blockDuration, baseBlock, maxBlock, fromSecs]
  omega

theorem blockDuration_pos (n : ℕ) : 0 < blockDuration n := by
  have hp : 0 < 2 ^ min n 6 := Nat.two_pow_pos _
  simp only [blockDuration, baseBlock, maxBlock, fromSecs]
  omega

theorem blockDuration_mono {m n : ℕ} (h : m ≤ n) : blockDuration m ≤ blockDuration n := by
  have hp : 2 ^ min m 6 ≤ 2 ^ min n 6 :=
    Nat.pow_le_pow_right (by omega) (by omega)
  simp only [blockDuration]
  exact min_le_min_right _ (Nat.mul_le_mul_left _ hp)

def counted (now : ℕ) (record : Option Record) : Record := record.getD ⟨0, 0, none, now⟩

theorem fail_reached {now : ℕ} {o : Option Record}
    (h : failuresBeforeBlock ≤ (counted now o).failures + 1) :
    Record.fail now o = ⟨0, (counted now o).blocks + 1,
      some (now + blockDuration (counted now o).blocks), now⟩ := by
  simp only [counted] at h
  simp only [Record.fail, counted]
  rw [if_pos h]

theorem fail_below {now : ℕ} {o : Option Record}
    (h : (counted now o).failures + 1 < failuresBeforeBlock) :
    Record.fail now o = ⟨(counted now o).failures + 1, (counted now o).blocks,
      (counted now o).blockedUntil, now⟩ := by
  simp only [counted] at h
  simp only [Record.fail, counted]
  rw [if_neg (by omega)]

theorem admits_mono {o : Option Record} {t u : ℕ} (h : admits o t = true) (htu : t ≤ u) :
    admits o u = true := by
  cases o with
  | none => rfl
  | some r => exact (r.unblocked_iff u).mpr (((r.unblocked_iff t).mp h).trans htu)

theorem arms_iff {g : BruteForceGuard S} {a : Attempt S} (hle : a.checkedAt ≤ a.recordedAt) :
    g.arms a = true ↔ admits (g.records a.source) a.checkedAt = true ∧ a.outcome = .failure ∧
      failuresBeforeBlock ≤
        (counted a.recordedAt (retained (g.records a.source) a.checkedAt)).failures + 1 := by
  have hcheck : ((g.attempt a).2.check a.source a.recordedAt).1 = .allow ↔
      admits (a.onRecord a.source (g.records a.source)) a.recordedAt = true := by
    simp only [BruteForceGuard.check, decision_eq_allow, expire_records, admits_retained,
      attempt_records]
  simp only [BruteForceGuard.arms, attempt_admitted, Bool.and_eq_true, ne_eq, decide_not,
    Bool.not_eq_true', decide_eq_false_iff_not, hcheck]
  refine and_congr_right fun hadm => ?_
  have hret : admits (retained (g.records a.source) a.checkedAt) a.checkedAt = true := by
    rw [admits_retained]; exact hadm
  cases ho : a.outcome with
  | success =>
    simp only [Attempt.onRecord, hret, ho, and_self, ↓reduceIte]
    simp [admits]
  | abandoned => simp [Attempt.onRecord, hret, ho, admits_mono hret hle]
  | failure =>
    simp only [Attempt.onRecord, hret, ho, and_self, ↓reduceIte, true_and]
    generalize retained (g.records a.source) a.checkedAt = o at hret ⊢
    by_cases h5 : failuresBeforeBlock ≤ (counted a.recordedAt o).failures + 1
    · have hpos := blockDuration_pos (counted a.recordedAt o).blocks
      simp only [fail_reached h5, admits, Record.unblocked, decide_eq_true_eq, h5, iff_true]
      omega
    · have hsame : admits (some (Record.fail a.recordedAt o)) a.recordedAt = true := by
        rw [fail_below (by omega)]
        cases o with
        | none => rfl
        | some r =>
          exact (Record.unblocked_iff _ _).mpr
            (((r.unblocked_iff a.checkedAt).mp hret).trans hle)
      simp [hsame, h5]

theorem blocks_attempt {g : BruteForceGuard S} {a : Attempt S} {s : S} {r : Record}
    (hle : a.checkedAt ≤ a.recordedAt) (hr : (g.attempt a).2.records s = some r) :
    r.blocks = (counted 0 (retained (g.records s) a.checkedAt)).blocks +
      if a.source = s ∧ g.arms a then 1 else 0 := by
  have harms := arms_iff (g := g) hle
  rw [attempt_records] at hr
  by_cases hs : a.source = s
  · subst hs
    rw [← admits_retained] at harms
    simp only [Attempt.onRecord, true_and] at hr
    generalize retained (g.records a.source) a.checkedAt = o at hr harms ⊢
    cases hadm : admits o a.checkedAt with
    | false =>
      have hna : g.arms a = false := by simpa [hadm] using harms
      simp only [hadm, Bool.false_eq_true, ↓reduceIte] at hr
      simp [hna, hr, counted]
    | true =>
      simp only [hadm, ↓reduceIte] at hr
      simp only [hadm, true_and] at harms
      cases ho : a.outcome with
      | success => simp [ho] at hr
      | abandoned =>
        have hna : g.arms a = false := by simpa [ho] using harms
        simp only [ho] at hr
        simp [hna, hr, counted]
      | failure =>
        simp only [ho, Option.some.injEq] at hr
        simp only [ho, true_and] at harms
        have hb : (counted a.recordedAt o).blocks = (counted 0 o).blocks := by
          cases o <;> rfl
        by_cases h5 : failuresBeforeBlock ≤ (counted a.recordedAt o).failures + 1
        · simp [← hr, fail_reached h5, harms.mpr h5, hb]
        · have hna : g.arms a = false := by simpa [h5] using harms
          simp [← hr, fail_below (not_le.mp h5), hna, hb]
  · simp only [Attempt.onRecord, hs, false_and, ↓reduceIte] at hr
    simp [hs, hr, counted]

/-- The block counter of a record is the number of blocks armed since the
history was last empty. -/
theorem blocks_eq_armedSinceEmpty (s : S) (as : List (Attempt S)) {g : BruteForceGuard S} {n t : ℕ}
    (hord : Ordered Attempt.checkedAt Attempt.recordedAt t as)
    (hinv : ∀ r, g.records s = some r → r.blocks = n) :
    ∀ r, (g.after as).records s = some r → r.blocks = armedSinceEmpty s g n as := by
  induction as generalizing g n t with
  | nil => exact hinv
  | cons a as ih =>
    obtain ⟨-, hle, hrest⟩ := hord
    simp only [armedSinceEmpty]
    refine ih hrest ?_
    intro r hr
    rw [blocks_attempt hle hr, expire_records]
    cases hret : retained (g.records s) a.checkedAt with
    | none => split_ifs <;> simp_all [counted]
    | some r' =>
      have hmem : g.records s = some r' := (Option.filter_eq_some_iff.mp hret).1
      have hb := hinv r' hmem
      split_ifs <;> simp_all [counted]

theorem block_holds (s : S) (post : List (Attempt S)) {g : BruteForceGuard S} {t E : ℕ}
    (hord : Ordered Attempt.checkedAt Attempt.recordedAt t post)
    (hquiet : ∀ x ∈ post, x.source = s → x.checkedAt < E)
    (hstate : (∃ r, g.records s = some r ∧ r.blockEnd = E) ∨ g.records s = none ∧ E ≤ t) :
    (∃ r, (g.after post).records s = some r ∧ r.blockEnd = E) ∨
      (g.after post).records s = none ∧ E ≤ Timeline.horizon Attempt.recordedAt t post := by
  induction post generalizing g t with
  | nil => exact hstate
  | cons a post ih =>
    obtain ⟨hbegin, hle, hrest⟩ := hord
    have hq := hquiet a (List.mem_cons_self ..)
    refine ih hrest (fun x hx => hquiet x (List.mem_cons_of_mem _ hx)) ?_
    rw [attempt_records]
    rcases hstate with ⟨r, hr, hE⟩ | ⟨hnone, hE⟩
    · have hchange := onRecord_change s a r
      rw [hr]
      generalize a.onRecord s (some r) = o at hchange ⊢
      cases hchange with
      | kept _ => exact Or.inl ⟨r, rfl, hE⟩
      | dropped _ hu _ ho =>
        have hs : a.source ≠ s := fun hs => absurd (hq hs) (by omega)
        exact Or.inr ⟨ho hs, by omega⟩
      | failed hs _ hu => exact absurd (hq hs) (by omega)
      | cleared hs _ hu => exact absurd (hq hs) (by omega)
    · have hs : a.source ≠ s := fun hs => absurd (hq hs) (by omega)
      exact Or.inr ⟨by simp [hnone, Attempt.onRecord, hs, retained], by omega⟩

theorem admitted_iff_block_over {g : BruteForceGuard S} {a b : Attempt S} {t n : ℕ}
    {post : List (Attempt S)}
    (hord : Ordered Attempt.checkedAt Attempt.recordedAt t (a :: post ++ [b]))
    (harm : g.arms a = true) (hb : b.source = a.source)
    (hn : ∀ r, (g.attempt a).2.records a.source = some r → r.blocks = n)
    (hquiet : ∀ x ∈ post, x.source = a.source →
      x.checkedAt < a.recordedAt + blockDuration (n - 1)) :
    (((g.attempt a).2.after post).attempt b).1 = true ↔
      a.recordedAt + blockDuration (n - 1) ≤ b.checkedAt := by
  obtain ⟨-, hle, hrest⟩ := hord
  obtain ⟨hpost, hlast, -⟩ := Timeline.ordered_append.mp hrest
  obtain ⟨hadm, ho, h5⟩ := (arms_iff hle).mp harm
  have hrec : (g.attempt a).2.records a.source = some (Record.fail a.recordedAt
      (retained (g.records a.source) a.checkedAt)) := by
    rw [attempt_records]
    simp [Attempt.onRecord, admits_retained, hadm, ho]
  rw [fail_reached h5] at hrec
  have hblocks := hn _ hrec
  simp only at hblocks
  have hstate := block_holds a.source post hpost hquiet
    (Or.inl ⟨_, hrec, by simp only [Record.blockEnd, Option.getD_some, ← hblocks,
      Nat.add_sub_cancel]⟩)
  rw [attempt_admitted, hb]
  rcases hstate with ⟨r, hr, hE⟩ | ⟨hnone, hE⟩
  · rw [hr, ← hE]
    exact r.unblocked_iff b.checkedAt
  · simp only [hnone, admits, true_iff]
    exact hE.trans hlast

def blockSum (b m : ℕ) : ℕ := ∑ i ∈ Finset.range m, blockDuration (b + i)

theorem blockSum_succ (b m : ℕ) : blockSum b (m + 1) = blockDuration b + blockSum (b + 1) m := by
  simp only [blockSum, Finset.sum_range_succ', Nat.add_zero]
  rw [add_comm]
  congr 1
  exact Finset.sum_congr rfl fun i _ => by rw [show b + (i + 1) = b + 1 + i by omega]

theorem blockSum_mono (b m : ℕ) : blockSum 0 m ≤ blockSum b m :=
  Finset.sum_le_sum fun _ _ => blockDuration_mono (by omega)

def inWindow (stamp : Attempt S → ℕ) (T W : ℕ) (as : List (Attempt S)) : ℕ :=
  as.countP fun a => T ≤ stamp a ∧ stamp a < T + W

variable {stamp : Attempt S → ℕ} {T W : ℕ}

theorem mem_of_admittedFailures {s : S} {x : Attempt S} {as : List (Attempt S)}
    {g : BruteForceGuard S}
    (h : x ∈ admittedFailures s g as) : x ∈ as := by
  induction as generalizing g with
  | nil => cases h
  | cons a as ih =>
    simp only [admittedFailures] at h
    split_ifs at h
    · rcases List.mem_cons.mp h with rfl | h
      · exact List.mem_cons_self ..
      · exact List.mem_cons_of_mem _ (ih h)
    · exact List.mem_cons_of_mem _ (ih h)

theorem inWindow_admitted {s : S} {a : Attempt S} {as : List (Attempt S)} {g : BruteForceGuard S}
    (h : a.source = s ∧ (g.attempt a).1 = true ∧ a.outcome = .failure) :
    inWindow stamp T W (admittedFailures s g (a :: as)) =
      inWindow stamp T W (admittedFailures s (g.attempt a).2 as) +
        if T ≤ stamp a ∧ stamp a < T + W then 1 else 0 := by
  simp only [admittedFailures]
  rw [if_pos h]
  simp [inWindow, List.countP_cons]

theorem inWindow_other {s : S} {a : Attempt S} {as : List (Attempt S)} {g : BruteForceGuard S}
    (h : ¬ (a.source = s ∧ (g.attempt a).1 = true ∧ a.outcome = .failure)) :
    inWindow stamp T W (admittedFailures s g (a :: as)) =
      inWindow stamp T W (admittedFailures s (g.attempt a).2 as) := by
  simp only [admittedFailures]
  rw [if_neg h]

theorem inWindow_late {s : S} {as : List (Attempt S)} {g : BruteForceGuard S}
    (hstamp : ∀ x ∈ as, x.checkedAt ≤ stamp x) (hlate : ∀ x ∈ as, T + W ≤ x.checkedAt) :
    inWindow stamp T W (admittedFailures s g as) = 0 := by
  refine List.countP_eq_zero.mpr fun x hx => ?_
  have hmem := mem_of_admittedFailures hx
  have h1 := hstamp x hmem
  have h2 := hlate x hmem
  simp only [decide_eq_true_eq]
  omega

theorem Record.fail_failures_lt (now : ℕ) (o : Option Record) :
    (Record.fail now o).failures < failuresBeforeBlock := by
  by_cases h5 : failuresBeforeBlock ≤ (counted now o).failures + 1
  · rw [fail_reached h5]
    exact Nat.succ_pos _
  · rw [fail_below (not_le.mp h5)]
    exact not_le.mp h5

/-- A failure spends one unit of the budget of `5 * m` failures that `m` further
blocks leave before the end of the window. -/
theorem fail_budget {o : Option Record} {now m : ℕ}
    (hk : ∀ r, o = some r → r.failures < failuresBeforeBlock) (hm : 0 < m)
    (hsum : T + W ≤ now + blockSum (counted now o).blocks m) :
    (Record.fail now o).lastSeen = now ∧
      ∃ m', T + W ≤ max now (Record.fail now o).blockEnd + blockSum (Record.fail now o).blocks m' ∧
        5 * m' - (Record.fail now o).failures + 1 ≤ 5 * m - (counted now o).failures := by
  have hlt : (counted now o).failures < failuresBeforeBlock := by
    cases o with
    | none => simp [counted, failuresBeforeBlock]
    | some r => exact hk r rfl
  by_cases h5 : failuresBeforeBlock ≤ (counted now o).failures + 1
  · rw [fail_reached h5]
    obtain ⟨m, rfl⟩ : ∃ k, m = k + 1 := ⟨m - 1, by omega⟩
    rw [blockSum_succ] at hsum
    refine ⟨rfl, m, ?_, ?_⟩
    · simp only [Record.blockEnd, Option.getD_some]
      omega
    · simp only [failuresBeforeBlock] at hlt h5 ⊢
      omega
  · rw [fail_below (not_le.mp h5)]
    refine ⟨rfl, m, ?_, ?_⟩
    · have hmax := Nat.le_max_left now
        (Record.blockEnd ⟨(counted now o).failures + 1, (counted now o).blocks,
          (counted now o).blockedUntil, now⟩)
      exact hsum.trans (Nat.add_le_add_right hmax _)
    · simp only [failuresBeforeBlock] at hlt h5 ⊢
      omega

theorem admitted_failure_iff {g : BruteForceGuard S} {a : Attempt S} {s : S} {r : Record}
    (hr : g.records s = some r) :
    (a.source = s ∧ (g.attempt a).1 = true ∧ a.outcome = .failure) ↔
      (a.source = s ∧ a.outcome = .failure ∧ r.blockEnd ≤ a.checkedAt) := by
  refine and_congr_right fun hs => ?_
  rw [attempt_admitted, hs, hr, and_comm]
  exact and_congr_right fun _ => r.unblocked_iff a.checkedAt

/-- From a failure inside the window on: no history expires before the window
does, and `m` more blocks reach its end. -/
theorem inWindow_after_failure (s : S) (hW : W ≤ historyTtl) (as : List (Attempt S))
    {g : BruteForceGuard S} {t m : ℕ} {r : Record}
    (hord : Ordered Attempt.checkedAt Attempt.recordedAt t as)
    (hstamp : ∀ x ∈ as, x.checkedAt ≤ stamp x ∧ stamp x ≤ x.recordedAt)
    (hsucc : ∀ x ∈ as, x.source = s → x.outcome ≠ .success)
    (hr : g.records s = some r) (hk : r.failures < failuresBeforeBlock)
    (hseen : T ≤ r.lastSeen) (ht : T ≤ t)
    (hsum : T + W ≤ max t r.blockEnd + blockSum r.blocks m) :
    inWindow stamp T W (admittedFailures s g as) ≤ 5 * m - r.failures := by
  induction as generalizing g t m r with
  | nil => simp [admittedFailures, inWindow]
  | cons a as ih =>
    have hord' := hord
    obtain ⟨hbegin, hle, hrest⟩ := hord'
    have hstamp' := fun x hx => hstamp x (List.mem_cons_of_mem _ hx)
    have hsucc' := fun x hx => hsucc x (List.mem_cons_of_mem _ hx)
    have hlate : T + W ≤ a.checkedAt →
        inWindow stamp T W (admittedFailures s g (a :: as)) = 0 := by
      intro h
      refine inWindow_late (fun x hx => (hstamp x hx).1) fun x hx => h.trans ?_
      rcases List.mem_cons.mp hx with rfl | hx
      · exact le_rfl
      · exact hle.trans (hrest.le_begins x hx)
    have hadm := admitted_failure_iff (a := a) hr
    have hchange := onRecord_change s a r
    rw [← hr, ← attempt_records] at hchange
    generalize ho : (g.attempt a).2.records s = o at hchange
    cases hchange with
    | kept hk' =>
      rw [inWindow_other (mt hadm.mp hk')]
      exact ih hrest hstamp' hsucc' ho hk hseen (by omega) (by omega)
    | dropped hidle _ _ _ =>
      rw [hlate (by omega)]
      exact Nat.zero_le _
    | cleared hs hout _ => exact absurd hout (hsucc a (List.mem_cons_self ..) hs)
    | failed hs hout hu =>
      obtain ⟨hlo, hhi⟩ := hstamp a (List.mem_cons_self ..)
      rw [inWindow_admitted (hadm.mpr ⟨hs, hout, hu⟩)]
      by_cases hin : stamp a < T + W
      · have hm : 0 < m := by
          rcases Nat.eq_zero_or_pos m with rfl | hm
          · simp only [blockSum, Finset.range_zero, Finset.sum_empty] at hsum
            omega
          · exact hm
        have hk' : ∀ r', some r = some r' → r'.failures < failuresBeforeBlock := by
          rintro r' ⟨⟩
          exact hk
        have hsum' : T + W ≤ a.recordedAt + blockSum (counted a.recordedAt (some r)).blocks m := by
          simp only [counted, Option.getD_some]
          omega
        obtain ⟨hseen2, m', hsum2, hspend⟩ := fail_budget hk' hm hsum'
        have hk2 := Record.fail_failures_lt a.recordedAt (some r)
        have htail := ih hrest hstamp' hsucc' ho hk2 (by omega) (by omega) hsum2
        simp only [counted, Option.getD_some] at hspend
        rw [if_pos ⟨by omega, hin⟩]
        omega
      · have hrest0 : inWindow stamp T W (admittedFailures s (g.attempt a).2 as) = 0 :=
          inWindow_late (fun x hx => (hstamp' x hx).1) fun x hx =>
            (not_lt.mp hin).trans (hhi.trans (hrest.le_begins x hx))
        simp [hrest0, hin]

/-- The general bound: a window no longer than the history's lifetime and than
`m` blocks from an empty history holds at most `5 * m` admitted failures. -/
theorem inWindow_le (s : S) (hW : W ≤ historyTtl) {m : ℕ} (hm : 0 < m) (hblocks : W ≤ blockSum 0 m)
    (as : List (Attempt S)) {g : BruteForceGuard S} {t : ℕ}
    (hord : Ordered Attempt.checkedAt Attempt.recordedAt t as)
    (hstamp : ∀ x ∈ as, x.checkedAt ≤ stamp x ∧ stamp x ≤ x.recordedAt)
    (hsucc : ∀ x ∈ as, x.source = s → x.outcome ≠ .success)
    (hk : ∀ r, g.records s = some r → r.failures < failuresBeforeBlock) :
    inWindow stamp T W (admittedFailures s g as) ≤ 5 * m := by
  induction as generalizing g t with
  | nil => simp [admittedFailures, inWindow]
  | cons a as ih =>
    obtain ⟨-, hle, hrest⟩ := hord
    obtain ⟨hlo, hhi⟩ := hstamp a (List.mem_cons_self ..)
    have hstamp' := fun x hx => hstamp x (List.mem_cons_of_mem _ hx)
    have hsucc' := fun x hx => hsucc x (List.mem_cons_of_mem _ hx)
    have hret : ∀ r, retained (g.records s) a.checkedAt = some r →
        r.failures < failuresBeforeBlock :=
      fun r hr => hk r (Option.filter_eq_some_iff.mp hr).1
    by_cases hadm : a.source = s ∧ (g.attempt a).1 = true ∧ a.outcome = .failure
    · have hrec : (g.attempt a).2.records s =
          some (Record.fail a.recordedAt (retained (g.records s) a.checkedAt)) := by
        obtain ⟨hs, hal, ho⟩ := hadm
        rw [attempt_admitted, hs] at hal
        rw [attempt_records]
        simp [Attempt.onRecord, hs, admits_retained, hal, ho]
      rw [inWindow_admitted hadm]
      by_cases hin : T ≤ stamp a ∧ stamp a < T + W
      · -- the first failure of the window: from here on the budget argument runs
        have hsum : T + W ≤ a.recordedAt +
            blockSum (counted a.recordedAt (retained (g.records s) a.checkedAt)).blocks m := by
          have hb := blockSum_mono
            (counted a.recordedAt (retained (g.records s) a.checkedAt)).blocks m
          omega
        obtain ⟨hseen2, m', hsum2, hspend⟩ := fail_budget hret hm hsum
        have hk2 := Record.fail_failures_lt a.recordedAt (retained (g.records s) a.checkedAt)
        have htail := inWindow_after_failure s hW as hrest hstamp' hsucc' hrec hk2
          (by omega) (by omega) hsum2
        rw [if_pos hin]
        omega
      · rw [if_neg hin, Nat.add_zero]
        refine ih hrest hstamp' hsucc' fun r hr => ?_
        rw [hrec, Option.some.injEq] at hr
        subst hr
        exact Record.fail_failures_lt _ _
    · rw [inWindow_other hadm]
      refine ih hrest hstamp' hsucc' fun r hr => ?_
      have hsame : (g.attempt a).2.records s = retained (g.records s) a.checkedAt := by
        rw [attempt_admitted] at hadm
        rw [attempt_records]
        by_cases hs : a.source = s
        · cases ho : a.outcome with
          | failure =>
            have hna : ¬ admits (g.records s) a.checkedAt = true := by
              intro h
              exact hadm ⟨hs, by rw [hs]; exact h, ho⟩
            simp [Attempt.onRecord, admits_retained, hna]
          | success => exact absurd ho (hsucc a (List.mem_cons_self ..) hs)
          | abandoned => simp [Attempt.onRecord, ho]
        · simp [Attempt.onRecord, hs]
      exact hret r (hsame ▸ hr)

theorem historyTtl_le_blockSum : historyTtl ≤ blockSum 0 7 := by decide

section Own
variable {T S' : Type*} [DecidableEq S']

def Attempt.rename {S : Type*} (f : T → S) (a : Attempt T) : Attempt S :=
  ⟨f a.source, a.checkedAt, a.recordedAt, a.outcome⟩

theorem retained_retained {t u : ℕ} (htu : t ≤ u) (record : Option Record) :
    retained (retained record t) u = retained record u := by
  cases record with
  | none => rfl
  | some r =>
    by_cases hkept : r.fresh t = true ∨ r.unblocked t = false
    · have hr : retained (some r) t = some r := by
        rcases hkept with h | h <;> simp [retained, h]
      rw [hr]
    · have hstale : r.fresh t = false := by
        simpa using fun h => hkept (.inl h)
      have hfree : r.unblocked t = true := by
        simpa using fun h => hkept (.inr h)
      have hstale' : r.fresh u = false := by
        simp only [Record.fresh, decide_eq_false_iff_not, not_lt] at hstale ⊢
        omega
      have hfree' : r.unblocked u = true := by
        rw [Record.unblocked_iff] at hfree ⊢
        omega
      simp [retained, Option.filter, hstale, hfree, hstale', hfree']

def Alike (t : ℕ) (r r' : Option Record) : Prop :=
  ∀ u, t ≤ u → retained r u = retained r' u

theorem Alike.own {t : ℕ} {r r' : Option Record} {s : S} {s' : S'} {a : Attempt T} {f : T → S}
    {g : T → S'} (h : Alike t r r') (hle : t ≤ a.checkedAt) (hs : f a.source = s)
    (hs' : g a.source = s') : (a.rename f).onRecord s r = (a.rename g).onRecord s' r' := by
  simp only [Attempt.onRecord, Attempt.rename, h a.checkedAt hle, hs, hs']

theorem Alike.other {t : ℕ} {r r' : Option Record} {s : S} {a : Attempt S} (h : Alike t r r')
    (hle : t ≤ a.checkedAt) (hs : a.source ≠ s) : Alike a.checkedAt (a.onRecord s r) r' := by
  intro u hu
  simp only [Attempt.onRecord, hs, false_and, ↓reduceIte]
  rw [retained_retained hu]
  exact h u (hle.trans hu)

theorem Alike.mono {t u : ℕ} {r r' : Option Record} (h : Alike t r r') (htu : t ≤ u) :
    Alike u r r' :=
  fun v hv => h v (htu.trans hv)

theorem alike_after {f : T → S} {g : T → S'} {s : S} {s' : S'} {as : List (Attempt T)} {t : ℕ}
    {G : BruteForceGuard S} {G' : BruteForceGuard S'} (h : Alike t (G.records s) (G'.records s'))
    (hord : Ordered Attempt.checkedAt Attempt.recordedAt t as)
    (hname : ∀ a ∈ as, f a.source = s ↔ g a.source = s') :
    Alike (Timeline.horizon Attempt.recordedAt t as)
      ((G.after (as.map (·.rename f))).records s)
      ((G'.after ((as.filter (g ·.source = s')).map (·.rename g))).records s') := by
  induction as generalizing t G G' with
  | nil => exact h
  | cons a as ih =>
    obtain ⟨hchecked, hrecorded, hrest⟩ := hord
    have htail : ∀ b ∈ as, f b.source = s ↔ g b.source = s' :=
      fun b hb => hname b (List.mem_cons_of_mem _ hb)
    by_cases hs : f a.source = s
    · have hs' : g a.source = s' := (hname a List.mem_cons_self).mp hs
      rw [List.filter_cons_of_pos (by simpa using hs'), List.map_cons, List.map_cons]
      refine ih ?_ hrest htail
      rw [attempt_records, attempt_records, h.own hchecked hs hs']
      exact fun _ _ => rfl
    · have hs' : ¬ g a.source = s' := fun hg => hs ((hname a List.mem_cons_self).mpr hg)
      rw [List.filter_cons_of_neg (by simpa using hs'), List.map_cons]
      refine ih ?_ hrest htail
      rw [attempt_records]
      exact (h.other (a := a.rename f) hchecked hs).mono hrecorded

theorem check_after {f : T → S} {g : T → S'} {s : S} {s' : S'} {as : List (Attempt T)} {now : ℕ}
    (hord : Ordered Attempt.checkedAt Attempt.recordedAt 0 as)
    (hnow : Timeline.horizon Attempt.recordedAt 0 as ≤ now)
    (hname : ∀ a ∈ as, f a.source = s ↔ g a.source = s') :
    ((BruteForceGuard.new.after (as.map (·.rename f))).check s now).1 =
      ((BruteForceGuard.new.after ((as.filter (g ·.source = s')).map (·.rename g))).check s'
        now).1 := by
  have hnew : Alike 0 ((.new : BruteForceGuard S).records s)
      ((.new : BruteForceGuard S').records s') := fun _ _ => rfl
  have halike := alike_after hnew hord hname
  exact congrArg (decision · now) (halike now hnow)

end Own

def armedBlockEnd (s : S) (pre : List (Attempt S)) (a : Attempt S) : ℕ :=
  a.recordedAt +
    fromSecs (min (15 * 2 ^ min (armedSinceEmpty s .new 0 (pre ++ [a]) - 1) 6) 900)

omit [DecidableEq S] in
theorem after_append [DecidableEq S] (g : BruteForceGuard S) (xs ys : List (Attempt S)) :
    g.after (xs ++ ys) = (g.after xs).after ys := List.foldl_append ..

theorem admitted_after_armed {s : S} {pre post : List (Attempt S)} {a b : Attempt S}
    (hord : Ordered Attempt.checkedAt Attempt.recordedAt 0 (pre ++ a :: (post ++ [b])))
    (ha : a.source = s) (hb : b.source = s) (harm : (BruteForceGuard.new.after pre).arms a = true)
    (hquiet : ∀ x ∈ post, x.source = s → x.checkedAt < armedBlockEnd s pre a) :
    ((BruteForceGuard.new.after (pre ++ a :: post)).attempt b).1 = true ↔
      armedBlockEnd s pre a ≤ b.checkedAt := by
  subst ha
  have hn : ∀ r, (((BruteForceGuard.new.after pre).attempt a).2).records a.source = some r →
      r.blocks = armedSinceEmpty a.source .new 0 (pre ++ [a]) := by
    have hord' :
        Ordered Attempt.checkedAt Attempt.recordedAt 0 ((pre ++ [a]) ++ (post ++ [b])) := by
      simpa using hord
    have hblocks :=
      blocks_eq_armedSinceEmpty a.source (pre ++ [a]) (g := BruteForceGuard.new) (n := 0)
      (Timeline.ordered_append.mp hord').1 (by rintro r ⟨⟩)
    rwa [after_append] at hblocks
  have htail := (Timeline.ordered_append.mp hord).2
  rw [armedBlockEnd, ← blockDuration_eq] at hquiet ⊢
  rw [after_append]
  exact admitted_iff_block_over htail harm hb hn hquiet

/-- Every block lasts exactly its scheduled time and refuses everything
meanwhile; so fifteen seconds hold at most five admitted failures of a source
and thirty minutes at most thirty-five, wherever between its check and its
recording a failure is counted. -/
theorem brute_force_bound (s : S) (as : List (Attempt S))
    (hord : Ordered Attempt.checkedAt Attempt.recordedAt 0 as) :
    (∀ pre a post b rest, as = pre ++ a :: (post ++ b :: rest) → a.source = s → b.source = s →
      (BruteForceGuard.new.after pre).arms a = true →
      (b.checkedAt < armedBlockEnd s pre a →
        ((BruteForceGuard.new.after (pre ++ a :: post)).attempt b).1 = false) ∧
      ((∀ x ∈ post, x.source = s → x.checkedAt < armedBlockEnd s pre a) →
        armedBlockEnd s pre a ≤ b.checkedAt →
        ((BruteForceGuard.new.after (pre ++ a :: post)).attempt b).1 = true)) ∧
    ((∀ x ∈ as, x.source = s → x.outcome ≠ .success) →
      ∀ (stamp : Attempt S → ℕ) (T : ℕ),
        (∀ x ∈ as, x.checkedAt ≤ stamp x ∧ stamp x ≤ x.recordedAt) →
        inWindow stamp T (fromSecs 15) (admittedFailures s .new as) ≤ 5 ∧
        inWindow stamp T (fromSecs (30 * 60)) (admittedFailures s .new as) ≤ 35) := by
  constructor
  · rintro pre a post b rest rfl ha hb harm
    have hord' : Ordered Attempt.checkedAt Attempt.recordedAt 0 (pre ++ a :: (post ++ [b])) := by
      have hassoc : pre ++ a :: (post ++ b :: rest) = (pre ++ a :: (post ++ [b])) ++ rest := by
        simp
      exact (Timeline.ordered_append.mp (hassoc ▸ hord)).1
    refine ⟨fun hlt => ?_, fun hquiet hge => (admitted_after_armed hord' ha hb harm hquiet).mpr hge⟩
    -- everyone's attempts before `b` are earlier than `b`, so the source was quiet
    have hquiet : ∀ x ∈ post, x.source = s → x.checkedAt < armedBlockEnd s pre a := by
      intro x hx _
      have htail := (Timeline.ordered_append.mp hord').2.2.2
      have hmem := Timeline.Ordered.begins_le_last htail x hx
      omega
    rw [← Bool.not_eq_true]
    exact fun h => absurd ((admitted_after_armed hord' ha hb harm hquiet).mp h) (by omega)
  · intro hsucc stamp T hstamp
    have h15 := inWindow_le (T := T) (W := fromSecs 15) s (by decide) (m := 1) (by decide)
      (by decide) as hord hstamp hsucc (g := BruteForceGuard.new) (by rintro r ⟨⟩)
    have h30 := inWindow_le (T := T) (W := fromSecs (30 * 60)) s (by decide) (m := 7) (by decide)
      historyTtl_le_blockSum as hord hstamp hsucc (g := BruteForceGuard.new) (by rintro r ⟨⟩)
    exact ⟨h15, h30⟩

def guess (source t : ℕ) : Attempt ℕ := ⟨source, fromSecs t, fromSecs t, .failure⟩

/-- Five wrong codes of source 0, a stranger's, and two more of source 0. -/
def guessing : List (Attempt ℕ) :=
  List.replicate 5 (guess 0 0) ++ [guess 1 5, guess 0 10, guess 0 15]

theorem brute_force_bound_guessing :
    ((BruteForceGuard.new.after (List.replicate 5 (guess 0 0) ++ [guess 1 5])).attempt
      (guess 0 10)).1 = false ∧
      inWindow Attempt.recordedAt 0 (fromSecs 15) (admittedFailures 0 .new guessing) ≤ 5 := by
  have h := brute_force_bound 0 guessing (by simp [guessing, guess, Ordered, fromSecs])
  refine ⟨(h.1 (List.replicate 4 (guess 0 0)) (guess 0 0) [guess 1 5] (guess 0 10)
    [guess 0 15] rfl rfl rfl (by decide)).1 (by decide), ?_⟩
  exact (h.2 (by simp [guessing, guess]) Attempt.recordedAt 0 (by simp [guessing, guess])).1

end Controlis.RateLimit
