import Mathlib.Data.List.Basic
import Mathlib.Tactic.Common

/-!
# Programs that talk to an environment

A `Prog` performs effects and goes on with the answers; its loops need not end.
A protocol is a step relation on phases, and a program `Follows` it when every
effect it performs is a step, whatever the answer is. A `Machine` runs a program
in a world that answers its effects and drifts on its own in between, and a log
tells what happened. An invariant of phases and worlds that survives both kinds
of step holds after every run, and so does a law about what the log may record.
-/

namespace Controlis.Interaction

universe u

section Log
variable {X : Type*} {log : List X} {x : X}

theorem snoc_eq_append {before after : List X} (h : log ++ [x] = before ++ after) :
    (before = log ++ [x] ∧ after = []) ∨ ∃ rest, after = rest ++ [x] ∧ log = before ++ rest := by
  rcases List.eq_nil_or_concat' after with rfl | ⟨rest, y, rfl⟩
  · exact .inl ⟨by simpa using h.symm, rfl⟩
  · rw [← List.append_assoc] at h
    obtain ⟨hlog, hx⟩ := List.append_inj' h rfl
    cases hx
    exact .inr ⟨rest, rfl, hlog⟩

def EndsIn (keep : X → Bool) (xs log : List X) : Prop :=
  ∃ earlier, log.filter keep = earlier ++ xs

/-- Every entry obeys the law `P`, given what was recorded before it. -/
def Lawful (P : List X → X → Prop) (log : List X) : Prop :=
  ∀ before x after, log = before ++ x :: after → P before x

def Grows (P : List X → X → Prop) (log log' : List X) : Prop :=
  log' = log ∨ ∃ x, log' = log ++ [x] ∧ P log x

theorem EndsIn.snoc {keep : X → Bool} {xs : List X} (h : EndsIn keep xs log)
    (hx : keep x = true) : EndsIn keep (xs ++ [x]) (log ++ [x]) := by
  obtain ⟨earlier, hearlier⟩ := h
  exact ⟨earlier, by simp [List.filter_append, hearlier, hx]⟩

theorem EndsIn.skip {keep : X → Bool} {xs : List X} (h : EndsIn keep xs log)
    (hx : keep x = false) : EndsIn keep xs (log ++ [x]) := by
  obtain ⟨earlier, hearlier⟩ := h
  exact ⟨earlier, by simp [List.filter_append, hearlier, hx]⟩

theorem EndsIn.nil {keep : X → Bool} : EndsIn keep [] log := ⟨_, (List.append_nil _).symm⟩

theorem Lawful.nil {P : List X → X → Prop} : Lawful P [] := by
  intro before x after h
  simp at h

theorem Lawful.left {P : List X → X → Prop} {more : List X} (h : Lawful P (log ++ more)) :
    Lawful P log := by
  intro before y after heq
  exact h before y (after ++ more) (by simp [heq])

theorem Lawful.snoc {P : List X → X → Prop} (h : Lawful P log) (hx : P log x) :
    Lawful P (log ++ [x]) := by
  intro before y after heq
  rcases snoc_eq_append heq with ⟨-, hnil⟩ | ⟨rest, hrest, hlog⟩
  · cases hnil
  · cases rest with
    | nil =>
      cases hrest
      rwa [hlog, List.append_nil] at hx
    | cons z rest =>
      cases hrest
      exact h before y rest hlog

theorem Lawful.grow {P : List X → X → Prop} {log' : List X} (h : Lawful P log)
    (hgrow : Grows P log log') : Lawful P log' := by
  rcases hgrow with rfl | ⟨x, rfl, hx⟩
  · exact h
  · exact h.snoc hx

end Log

/-- A loop repeats its body on `s` until it gives an answer for the continuation. -/
inductive Prog (E : Type) (A : E → Type) : Type → Type 1
  | ret {R : Type} (r : R) : Prog E A R
  | call {R : Type} (e : E) (k : A e → Prog E A R) : Prog E A R
  | loop {S T R : Type} (body : S → Prog E A (S ⊕ T)) (s : S) (k : T → Prog E A R) : Prog E A R

variable {E : Type} {A : E → Type}

namespace Prog

def bind {R S : Type} : Prog E A R → (R → Prog E A S) → Prog E A S
  | .ret r, f => f r
  | .call e k, f => .call e fun a => (k a).bind f
  | .loop body s k, f => .loop body s fun t => (k t).bind f

instance : Monad (Prog E A) where
  pure := .ret
  bind := .bind

def perform (e : E) : Prog E A (A e) := .call e .ret

def repeatFrom {S T : Type} (s : S) (body : S → Prog E A (S ⊕ T)) : Prog E A T :=
  .loop body s .ret

def unroll {S T R : Type} (body : S → Prog E A (S ⊕ T)) (s : S) (k : T → Prog E A R) :
    Prog E A R :=
  (body s).bind fun
    | .inl s => .loop body s k
    | .inr t => k t

def resume [DecidableEq E] {R : Type} : Prog E A R → List (Σ e, A e) → Option (Prog E A R)
  | p, [] => some p
  | .call e k, ⟨e', a⟩ :: rest => if h : e' = e then (k (h ▸ a)).resume rest else none
  | _, _ => none

theorem resume_perform [DecidableEq E] {R : Type} (e : E) (f : A e → Prog E A R) (a : A e)
    (rest : List (Σ e, A e)) :
    (perform e >>= f).resume (⟨e, a⟩ :: rest) = (f a).resume rest := dif_pos rfl

def Only (ok : E → Prop) : {R : Type} → Prog E A R → Prop
  | _, .ret _ => True
  | _, .call e k => ok e ∧ ∀ a, (k a).Only ok
  | _, .loop body _ k => (∀ s, (body s).Only ok) ∧ ∀ t, (k t).Only ok

section Only
variable {ok : E → Prop} {R S T : Type}

theorem only_bind {p : Prog E A R} {f : R → Prog E A S} (hp : p.Only ok)
    (hf : ∀ r, (f r).Only ok) : (p >>= f).Only ok := by
  induction p with
  | ret r => exact hf r
  | call e k ih => exact ⟨hp.1, fun a => ih a (hp.2 a) hf⟩
  | loop body s k _ ih => exact ⟨hp.1, fun t => ih t (hp.2 t) hf⟩

theorem Only.mono {p : Prog E A R} {ok' : E → Prop} (hp : p.Only ok) (h : ∀ e, ok e → ok' e) :
    p.Only ok' := by
  induction p with
  | ret r => trivial
  | call e k ih => exact ⟨h e hp.1, fun a => ih a (hp.2 a)⟩
  | loop body s k ihbody ihk => exact ⟨fun s => ihbody s (hp.1 s), fun t => ihk t (hp.2 t)⟩

theorem only_call {e : E} {f : A e → Prog E A S} (he : ok e) (hf : ∀ a, (f a).Only ok) :
    (perform e >>= f).Only ok := ⟨he, hf⟩

theorem only_repeatFrom {s : S} {body : S → Prog E A (S ⊕ T)} (h : ∀ s, (body s).Only ok) :
    (repeatFrom s body).Only ok := ⟨h, fun _ => trivial⟩

end Only

end Prog

variable {Φ : Type} {step : Φ → (e : E) → A e → Φ → Prop}

/-- From `φ` the program only takes steps of the protocol, and returns in `post`. -/
def Follows (step : Φ → (e : E) → A e → Φ → Prop) :
    {R : Type} → Prog E A R → (R → Φ → Prop) → Φ → Prop
  | _, .ret r, post, φ => post r φ
  | _, .call e k, post, φ => ∀ a, ∃ φ', step φ e a φ' ∧ Follows step (k a) post φ'
  | _, .loop (S := S) body s k, post, φ => ∃ I : S → Φ → Prop, I s φ ∧ ∀ s φ, I s φ →
      Follows step (body s) (fun
        | .inl s, φ => I s φ
        | .inr t, φ => Follows step (k t) post φ) φ

section Follows
variable {R S T : Type} {φ : Φ}

theorem Follows.mono {p : Prog E A R} {post post' : R → Φ → Prop} (h : Follows step p post φ)
    (hpost : ∀ r φ, post r φ → post' r φ) : Follows step p post' φ := by
  induction p generalizing φ with
  | ret r => exact hpost r φ h
  | call e k ih =>
    intro a
    obtain ⟨φ', hstep, hk⟩ := h a
    exact ⟨φ', hstep, ih a hk hpost⟩
  | loop body s k ihbody ihk =>
    obtain ⟨I, hs, hI⟩ := h
    refine ⟨I, hs, fun s φ hφ => ihbody s (hI s φ hφ) ?_⟩
    rintro (s | t) φ hφ
    · exact hφ
    · exact ihk t hφ hpost

theorem follows_bind {p : Prog E A R} {f : R → Prog E A S} {post : S → Φ → Prop} :
    Follows step (p.bind f) post φ ↔ Follows step p (fun r φ => Follows step (f r) post φ) φ := by
  induction p generalizing φ with
  | ret r => exact Iff.rfl
  | call e k ih => simp only [Prog.bind, Follows, ih]
  | loop body s k ihbody ihk => simp only [Prog.bind, Follows, ihk]

theorem follows_call {e : E} {f : A e → Prog E A S} {post : S → Φ → Prop} :
    Follows step (.perform e >>= f) post φ ↔
      ∀ a, ∃ φ', step φ e a φ' ∧ Follows step (f a) post φ' := Iff.rfl

theorem Follows.bind {p : Prog E A R} {f : R → Prog E A S} {post : S → Φ → Prop}
    {mid : R → Φ → Prop} (h : Follows step p mid φ)
    (hf : ∀ r φ, mid r φ → Follows step (f r) post φ) : Follows step (p >>= f) post φ :=
  follows_bind.mpr (h.mono hf)

theorem Follows.loop {s : S} {body : S → Prog E A (S ⊕ T)} {post : T → Φ → Prop}
    {J : S → Φ → Prop} (hs : J s φ) (hbody : ∀ s φ, J s φ →
      Follows step (body s) (fun r φ => r.elim (J · φ) (post · φ)) φ) :
    Follows step (.repeatFrom s body) post φ := by
  refine ⟨J, hs, fun s φ hφ => (hbody s φ hφ).mono ?_⟩
  rintro (s | t) φ hφ
  · exact hφ
  · exact hφ

theorem Follows.repeatFrom {s : S} {body : S → Prog E A (S ⊕ T)} {J : Φ → Prop} (hs : J φ)
    (hbody : ∀ s φ, J φ → Follows step (body s) (fun _ φ => J φ) φ) :
    Follows step (.repeatFrom s body) (fun _ φ => J φ) φ := by
  refine Follows.loop (J := fun _ φ => J φ) hs fun s φ hφ => (hbody s φ hφ).mono ?_
  rintro (_ | _) φ hφ
  · exact hφ
  · exact hφ

theorem Follows.unroll {body : S → Prog E A (S ⊕ T)} {s : S} {k : T → Prog E A R}
    {post : R → Φ → Prop} (h : Follows step (.loop body s k) post φ) :
    Follows step (.unroll body s k) post φ := by
  obtain ⟨I, hs, hI⟩ := h
  refine follows_bind.mpr ((hI s φ hs).mono ?_)
  rintro (s | t) φ hφ
  · exact ⟨I, hφ, hI⟩
  · exact hφ

theorem Follows.of_only {p : Prog E A R} {ok : E → Prop} (hp : p.Only ok)
    (hstep : ∀ e a, ok e → step φ e a φ) : Follows step p (fun _ φ' => φ' = φ) φ := by
  induction p with
  | ret r => rfl
  | call e k ih => exact fun a => ⟨φ, hstep e a hp.1, ih a (hp.2 a)⟩
  | loop body s k ihbody ihk =>
    refine ⟨fun _ φ' => φ' = φ, rfl, fun s φ' hφ => ?_⟩
    subst hφ
    refine (ihbody s (hp.1 s)).mono ?_
    rintro (s | t) φ hφ
    · exact hφ
    · subst hφ
      exact ihk t (hp.2 t)

end Follows

/-- A world that answers effects, where it can, and drifts on its own. -/
structure Machine (E : Type) (A : E → Type) (W D : Type) where
  respond : W → (e : E) → A e → Option W
  drift : W → D → W

structure State (E : Type) (A : E → Type) (W R : Type) where
  task : Prog E A R
  world : W

inductive Tick (E : Type) (A : E → Type) (D : Type)
  | host (answer : (e : E) → A e)
  | drift (d : D)

variable {W D X R : Type}

def Machine.tick (m : Machine E A W D) (σ : State E A W R) : Tick E A D → State E A W R
  | .drift d => { σ with world := m.drift σ.world d }
  | .host answer =>
    match σ.task with
    | .ret _ => σ
    | .call e k =>
      match m.respond σ.world e (answer e) with
      | some world => ⟨k (answer e), world⟩
      | none => σ
    | .loop body s k => { σ with task := .unroll body s k }

def Machine.run (m : Machine E A W D) (σ : State E A W R) (ticks : List (Tick E A D)) :
    State E A W R :=
  ticks.foldl m.tick σ

/-- The invariant `I` survives every step, and every step obeys the law `P` of the log. -/
structure Machine.Keeps (m : Machine E A W D) (step : Φ → (e : E) → A e → Φ → Prop)
    (log : W → List X) (I : Φ → W → Prop) (P : List X → X → Prop) : Prop where
  respond : ∀ {φ φ' : Φ} {w w' : W} {e : E} {a : A e}, I φ w → step φ e a φ' →
    m.respond w e a = some w' → I φ' w' ∧ Grows P (log w) (log w')
  drift : ∀ {φ : Φ} {w : W} (d : D), I φ w → I φ (m.drift w d) ∧ Grows P (log w) (log (m.drift w d))

variable {m : Machine E A W D} {log : W → List X} {I : Φ → W → Prop} {P : List X → X → Prop}

theorem Machine.Keeps.tick (h : m.Keeps step log I P) {σ : State E A W R} {post : R → Φ → Prop}
    {φ : Φ} (hfollows : Follows step σ.task post φ) (hI : I φ σ.world)
    (t : Tick E A D) :
    ∃ φ', Follows step (m.tick σ t).task post φ' ∧ I φ' (m.tick σ t).world ∧
      Grows P (log σ.world) (log (m.tick σ t).world) := by
  obtain ⟨task, world⟩ := σ
  cases t with
  | drift d =>
    obtain ⟨hI', hgrow⟩ := h.drift d hI
    exact ⟨φ, hfollows, hI', hgrow⟩
  | host answer =>
    cases task with
    | ret r => exact ⟨φ, hfollows, hI, .inl rfl⟩
    | loop body s k => exact ⟨φ, hfollows.unroll, hI, .inl rfl⟩
    | call e k =>
      obtain ⟨φ', hstep, hk⟩ := hfollows (answer e)
      simp only [Machine.tick]
      cases hrespond : m.respond world e (answer e) with
      | none => exact ⟨φ, hfollows, hI, .inl rfl⟩
      | some world' =>
        obtain ⟨hI', hgrow⟩ := h.respond hI hstep hrespond
        exact ⟨φ', hk, hI', hgrow⟩

/-- A program that follows the protocol keeps the invariant and a lawful log, however long it
runs. -/
theorem Machine.Keeps.run (h : m.Keeps step log I P) {σ : State E A W R} {post : R → Φ → Prop}
    {φ : Φ} (hfollows : Follows step σ.task post φ) (hI : I φ σ.world)
    (hlog : Lawful P (log σ.world)) (ticks : List (Tick E A D)) :
    ∃ φ', Follows step (m.run σ ticks).task post φ' ∧ I φ' (m.run σ ticks).world ∧
      Lawful P (log (m.run σ ticks).world) := by
  induction ticks generalizing σ φ with
  | nil => exact ⟨φ, hfollows, hI, hlog⟩
  | cons t ticks ih =>
    obtain ⟨φ', hfollows', hI', hgrow⟩ := h.tick hfollows hI t
    exact ih hfollows' hI' (hlog.grow hgrow)

end Controlis.Interaction
