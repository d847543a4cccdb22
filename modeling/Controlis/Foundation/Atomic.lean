import Mathlib.Data.List.Nodup
import Controlis.Foundation.Runs

/-!
# Calls to one object

Many callers call an object and wait. The object serves a call at some time after
it was made, one at a time, in an environment of that time; it may also refuse the
call unserved. A caller learns the reply, or the refusal, or gives up, and then
the call may still be served. Whatever the order of these steps, one sequential
run of the object explains what all callers learn.
-/

namespace Controlis.Atomic
open Runs

variable {σ ε β ω : Type*}

inductive Status (ω : Type*)
  | waiting
  | refused
  | served (reply : ω)

inductive Result (ω : Type*)
  | answer (reply : ω)
  | refused
  | lost

/-- `returned`: what the caller has learnt, and how many calls had been made by then. -/
structure Call (β ω : Type*) where
  input : β
  status : Status ω
  returned : Option (Result ω × ℕ)

structure Entry (ε β ω : Type*) where
  call : ℕ
  env : ε
  input : β
  reply : ω

structure State (σ ε β ω : Type*) where
  object : σ
  calls : List (Call β ω)
  log : List (Entry ε β ω)

inductive Event (ε β : Type*)
  | issue (input : β)
  | refuse (call : ℕ)
  | serve (call : ℕ) (env : ε)
  | answer (call : ℕ)
  | giveUp (call : ℕ)

def start (x : σ) : State σ ε β ω := ⟨x, [], []⟩

def Status.result : Status ω → Option (Result ω)
  | .waiting => none
  | .refused => some .refused
  | .served reply => some (.answer reply)

def State.give (s : State σ ε β ω) (i : ℕ) (c : Call β ω) (r : Result ω) : State σ ε β ω :=
  { s with calls := s.calls.set i { c with returned := some (r, s.calls.length) } }

def State.refuse (s : State σ ε β ω) (i : ℕ) (c : Call β ω) : State σ ε β ω :=
  { s with calls := s.calls.set i { c with status := .refused } }

def State.serve (obj : σ → ε → β → ω × σ) (s : State σ ε β ω) (i : ℕ) (env : ε) (c : Call β ω) :
    State σ ε β ω where
  object := (obj s.object env c.input).2
  calls := s.calls.set i { c with status := .served (obj s.object env c.input).1 }
  log := s.log ++ [⟨i, env, c.input, (obj s.object env c.input).1⟩]

def step (obj : σ → ε → β → ω × σ) (s : State σ ε β ω) : Event ε β → State σ ε β ω
  | .issue input => { s with calls := s.calls ++ [⟨input, .waiting, none⟩] }
  | .refuse i =>
    match s.calls[i]? with
    | some ⟨input, .waiting, returned⟩ => s.refuse i ⟨input, .waiting, returned⟩
    | _ => s
  | .serve i env =>
    match s.calls[i]? with
    | some ⟨input, .waiting, returned⟩ => s.serve obj i env ⟨input, .waiting, returned⟩
    | _ => s
  | .answer i =>
    match s.calls[i]? with
    | some ⟨input, status, none⟩ =>
      match status.result with
      | some r => s.give i ⟨input, status, none⟩ r
      | none => s
    | _ => s
  | .giveUp i =>
    match s.calls[i]? with
    | some ⟨input, status, none⟩ => s.give i ⟨input, status, none⟩ .lost
    | _ => s

def Legal (obj : σ → ε → β → ω × σ) : σ → List (Entry ε β ω) → Prop
  | _, [] => True
  | x, e :: log => (obj x e.env e.input).1 = e.reply ∧ Legal obj (obj x e.env e.input).2 log

def after (obj : σ → ε → β → ω × σ) (x : σ) (log : List (Entry ε β ω)) : σ :=
  log.foldl (fun x e => (obj x e.env e.input).2) x

/-- No call is served twice; what a caller is told of a reply is in the log, and nothing of a call
that is refused; a call that is made once the reply is known comes later in the log. -/
structure Linearizes (obj : σ → ε → β → ω × σ) (x : σ) (calls : List (Call β ω))
    (log : List (Entry ε β ω)) : Prop where
  legal : Legal obj x log
  once : (log.map Entry.call).Nodup
  made : ∀ e ∈ log, (calls[e.call]?).map Call.input = some e.input
  answered : ∀ (i : ℕ) (c : Call β ω) (reply : ω) (n : ℕ), calls[i]? = some c →
    c.returned = some (.answer reply, n) → ∃ e ∈ log, e.call = i ∧ e.reply = reply
  refused : ∀ (i : ℕ) (c : Call β ω) (n : ℕ), calls[i]? = some c →
    c.returned = some (.refused, n) → i ∉ log.map Entry.call
  ordered : ∀ (i j : ℕ) (c : Call β ω) (reply : ω) (n : ℕ), calls[i]? = some c →
    c.returned = some (.answer reply, n) → n ≤ j → j ∈ log.map Entry.call →
      [i, j].Sublist (log.map Entry.call)

variable {obj : σ → ε → β → ω × σ} {x : σ} {s : State σ ε β ω} {log : List (Entry ε β ω)}

theorem legal_snoc {e : Entry ε β ω} (h : Legal obj x log)
    (he : (obj (after obj x log) e.env e.input).1 = e.reply) : Legal obj x (log ++ [e]) := by
  induction log generalizing x with
  | nil => exact ⟨he, trivial⟩
  | cons e' log ih => exact ⟨h.1, ih h.2 he⟩

theorem after_snoc (e : Entry ε β ω) :
    after obj x (log ++ [e]) = (obj (after obj x log) e.env e.input).2 := by
  rw [after, List.foldl_append]
  rfl

def Learnt (log : List (Entry ε β ω)) (made i : ℕ) (c : Call β ω) : Result ω × ℕ → Prop
  | (.answer reply, n) => c.status = .served reply ∧ n ≤ made ∧
    ∀ j, n ≤ j → j ∈ log.map Entry.call → [i, j].Sublist (log.map Entry.call)
  | (.refused, _) => c.status = .refused
  | (.lost, _) => True

structure Sound (obj : σ → ε → β → ω × σ) (x : σ) (s : State σ ε β ω) : Prop where
  legal : Legal obj x s.log
  object : s.object = after obj x s.log
  once : (s.log.map Entry.call).Nodup
  logged : ∀ e ∈ s.log, ∃ c, s.calls[e.call]? = some c ∧ c.input = e.input ∧
    c.status = .served e.reply
  served : ∀ (i : ℕ) (c : Call β ω) (reply : ω), s.calls[i]? = some c →
    c.status = .served reply → ∃ e ∈ s.log, e.call = i ∧ e.reply = reply
  learnt : ∀ (i : ℕ) (c : Call β ω) (r : Result ω × ℕ), s.calls[i]? = some c →
    c.returned = some r → Learnt s.log s.calls.length i c r

theorem Sound.linearizes (h : Sound obj x s) : Linearizes obj x s.calls s.log where
  legal := h.legal
  once := h.once
  made e he := by
    obtain ⟨c, hc, hinput, -⟩ := h.logged e he
    rw [hc, ← hinput]
    rfl
  answered i c reply n hc hreturned := h.served i c reply hc (h.learnt i c _ hc hreturned).1
  refused i c n hc hreturned hmem := by
    have hrefused : c.status = .refused := h.learnt i c _ hc hreturned
    obtain ⟨e, he, rfl⟩ := List.mem_map.mp hmem
    obtain ⟨c', hc', -, hserved⟩ := h.logged e he
    cases hc.symm.trans hc'
    rw [hrefused] at hserved
    cases hserved
  ordered i j c reply n hc hreturned hj hmem := (h.learnt i c _ hc hreturned).2.2 j hj hmem

variable {c c' : Call β ω} {i j : ℕ}

theorem set_getElem? {α : Type*} {xs : List α} {y : α} (h : xs[i]? = some y) (z : α) :
    (xs.set i z)[j]? = if i = j then some z else xs[j]? := by
  rw [List.getElem?_set]
  split_ifs with hij hlt
  · rfl
  · exact absurd (List.getElem?_eq_some_iff.mp h).1 hlt
  · rfl

theorem set_same {α : Type*} {xs : List α} {y : α} (h : xs[i]? = some y) : xs.set i y = xs := by
  refine List.ext_getElem? fun j => ?_
  rw [set_getElem? h]
  split_ifs with hij
  · rw [← hij, h]
  · rfl

theorem step_refuse (hc : s.calls[i]? = some c) (hwaiting : c.status = .waiting) :
    step obj s (.refuse i) = s.refuse i c := by
  obtain ⟨input, status, returned⟩ := c
  cases hwaiting
  simp only [step, hc]

theorem step_serve (hc : s.calls[i]? = some c) (hwaiting : c.status = .waiting) (env : ε) :
    step obj s (.serve i env) = s.serve obj i env c := by
  obtain ⟨input, status, returned⟩ := c
  cases hwaiting
  simp only [step, hc]

theorem step_answer (hc : s.calls[i]? = some c) (hwaits : c.returned = none) {r : Result ω}
    (hr : c.status.result = some r) : step obj s (.answer i) = s.give i c r := by
  obtain ⟨input, status, returned⟩ := c
  cases hwaits
  simp only [step, hc, hr]

theorem step_giveUp (hc : s.calls[i]? = some c) (hwaits : c.returned = none) :
    step obj s (.giveUp i) = s.give i c .lost := by
  obtain ⟨input, status, returned⟩ := c
  cases hwaits
  simp only [step, hc]

theorem sound_start (obj : σ → ε → β → ω × σ) (x : σ) : Sound obj x (start x) :=
  ⟨trivial, rfl, List.nodup_nil, nofun, nofun, nofun⟩

theorem Sound.issue (h : Sound obj x s) (input : β) :
    Sound obj x { s with calls := s.calls ++ [⟨input, .waiting, none⟩] } := by
  have hcalls {j : ℕ} {c : Call β ω} (hj : (s.calls ++ [⟨input, .waiting, none⟩])[j]? = some c) :
      s.calls[j]? = some c ∨ c = ⟨input, .waiting, none⟩ := by
    rcases Nat.lt_or_ge j s.calls.length with hlt | hge
    · rw [List.getElem?_append_left hlt] at hj
      exact .inl hj
    · rw [List.getElem?_append_right hge] at hj
      exact .inr (List.mem_singleton.mp (List.mem_of_getElem? hj))
  refine ⟨h.legal, h.object, h.once, ?_, ?_, ?_⟩
  · intro e he
    obtain ⟨c, hc, hsame⟩ := h.logged e he
    refine ⟨c, ?_, hsame⟩
    rwa [List.getElem?_append_left (List.getElem?_eq_some_iff.mp hc).1]
  · intro j c reply hj hserved
    rcases hcalls hj with hold | rfl
    · exact h.served j c reply hold hserved
    · cases hserved
  · intro j c r hj hreturned
    rcases hcalls hj with hold | rfl
    · have hlearnt := h.learnt j c r hold hreturned
      obtain ⟨result, n⟩ := r
      cases result with
      | answer reply =>
        obtain ⟨hserved, hn, hordered⟩ := hlearnt
        rw [List.length_append]
        exact ⟨hserved, Nat.le_trans hn (Nat.le_add_right _ _), hordered⟩
      | refused => exact hlearnt
      | lost => trivial
    · cases hreturned

/-- A call that waits is not in the log, and its caller has given up if anything. -/
theorem Sound.waiting (h : Sound obj x s) (hc : s.calls[i]? = some c)
    (hwaiting : c.status = .waiting) :
    i ∉ s.log.map Entry.call ∧ ∀ r, c.returned = some r → r.1 = .lost := by
  constructor
  · intro hmem
    obtain ⟨e, he, rfl⟩ := List.mem_map.mp hmem
    obtain ⟨c', hc', -, hserved⟩ := h.logged e he
    cases hc.symm.trans hc'
    rw [hwaiting] at hserved
    cases hserved
  · rintro ⟨result, n⟩ hreturned
    have hlearnt := h.learnt i c _ hc hreturned
    cases result with
    | answer reply =>
      have hserved := hlearnt.1
      rw [hwaiting] at hserved
      cases hserved
    | refused =>
      have hrefused : c.status = .refused := hlearnt
      rw [hwaiting] at hrefused
      cases hrefused
    | lost => rfl

theorem learnt_lost {r : Result ω × ℕ} (h : r.1 = .lost) (log : List (Entry ε β ω)) (n : ℕ) :
    Learnt log n i c r := by
  obtain ⟨result, m⟩ := r
  cases h
  trivial

theorem Sound.refuse (h : Sound obj x s) (hc : s.calls[i]? = some c)
    (hwaiting : c.status = .waiting) : Sound obj x (s.refuse i c) := by
  obtain ⟨hunserved, hlost⟩ := h.waiting hc hwaiting
  refine ⟨h.legal, h.object, h.once, ?_, ?_, ?_⟩
  · intro e he
    obtain ⟨c', hc', hsame⟩ := h.logged e he
    refine ⟨c', ?_, hsame⟩
    rw [State.refuse, set_getElem? hc, if_neg]
    · exact hc'
    · rintro rfl
      exact hunserved (List.mem_map_of_mem he)
  · intro j c' reply hj hserved
    rw [State.refuse, set_getElem? hc] at hj
    split_ifs at hj
    · cases hj
      cases hserved
    · exact h.served j c' reply hj hserved
  · intro j c' r hj hreturned
    have hlength : (s.refuse i c).calls.length = s.calls.length := List.length_set
    rw [State.refuse, set_getElem? hc] at hj
    rw [hlength]
    split_ifs at hj
    · cases hj
      exact learnt_lost (hlost r hreturned) _ _
    · exact h.learnt j c' r hj hreturned

theorem Sound.serve (h : Sound obj x s) (hc : s.calls[i]? = some c)
    (hwaiting : c.status = .waiting) (env : ε) : Sound obj x (s.serve obj i env c) := by
  obtain ⟨hunserved, hlost⟩ := h.waiting hc hwaiting
  have hlog : (s.serve obj i env c).log.map Entry.call = s.log.map Entry.call ++ [i] :=
    List.map_append
  refine ⟨?_, ?_, ?_, ?_, ?_, ?_⟩
  · apply legal_snoc h.legal
    rw [← h.object]
  · rw [State.serve, after_snoc, ← h.object]
  · rw [hlog]
    exact List.nodup_append.mpr ⟨h.once, List.nodup_singleton i, fun a ha b hb => by
      rw [List.mem_singleton.mp hb]
      rintro rfl
      exact hunserved ha⟩
  · intro e he
    simp only [State.serve, set_getElem? hc]
    rcases List.mem_append.mp he with hold | hnew
    · obtain ⟨c', hc', hsame⟩ := h.logged e hold
      refine ⟨c', ?_, hsame⟩
      rw [if_neg]
      · exact hc'
      · rintro rfl
        exact hunserved (List.mem_map_of_mem hold)
    · rw [List.mem_singleton.mp hnew]
      exact ⟨_, if_pos rfl, rfl, rfl⟩
  · intro j c' reply hj hserved
    simp only [State.serve, set_getElem? hc] at hj
    split_ifs at hj with hij
    · cases hj
      cases hserved
      exact ⟨_, List.mem_append_right _ (List.mem_singleton.mpr rfl), hij, rfl⟩
    · obtain ⟨e, he, hsame⟩ := h.served j c' reply hj hserved
      exact ⟨e, List.mem_append_left _ he, hsame⟩
  · intro j c' r hj hreturned
    have hlength : (s.serve obj i env c).calls.length = s.calls.length := List.length_set
    simp only [State.serve, set_getElem? hc] at hj
    rw [hlength]
    split_ifs at hj
    · cases hj
      exact learnt_lost (hlost r hreturned) _ _
    · have hlearnt := h.learnt j c' r hj hreturned
      obtain ⟨result, n⟩ := r
      cases result with
      | answer reply =>
        obtain ⟨hserved, hn, hordered⟩ := hlearnt
        refine ⟨hserved, hn, fun k hk hmem => ?_⟩
        rw [hlog] at hmem ⊢
        rcases List.mem_append.mp hmem with hmem | hmem
        · exact (hordered k hk hmem).trans (List.sublist_append_left _ _)
        · -- the call served now is the last one, and this one was served before
          obtain ⟨e, he, hcall, -⟩ := h.served j c' reply hj hserved
          rw [List.mem_singleton.mp hmem]
          have hj' : j ∈ s.log.map Entry.call := hcall ▸ List.mem_map_of_mem he
          exact (List.singleton_sublist.mpr hj').append (List.Sublist.refl [i])
      | refused => exact hlearnt
      | lost => trivial

theorem Sound.give (h : Sound obj x s) (hc : s.calls[i]? = some c) {r : Result ω}
    (hr : r = .lost ∨ c.status.result = some r) : Sound obj x (s.give i c r) := by
  refine ⟨h.legal, h.object, h.once, ?_, ?_, ?_⟩
  · intro e he
    obtain ⟨c', hc', hsame⟩ := h.logged e he
    rw [State.give, set_getElem? hc]
    split_ifs with hij
    · subst hij
      cases hc.symm.trans hc'
      exact ⟨_, rfl, hsame⟩
    · exact ⟨c', hc', hsame⟩
  · intro j c' reply hj hserved
    rw [State.give, set_getElem? hc] at hj
    split_ifs at hj with hij
    · subst hij
      cases hj
      exact h.served i c reply hc hserved
    · exact h.served j c' reply hj hserved
  · intro j c' r' hj hreturned
    have hlength : (s.give i c r).calls.length = s.calls.length := List.length_set
    rw [State.give, set_getElem? hc] at hj
    rw [hlength]
    split_ifs at hj
    · cases hj
      cases hreturned
      cases r with
      | answer reply =>
        have hresult := hr.resolve_left nofun
        refine ⟨?_, Nat.le_refl _, fun k hk hmem => ?_⟩
        · cases hstatus : c.status with
          | served reply' =>
            rw [hstatus] at hresult
            cases hresult
            rfl
          | _ =>
            rw [hstatus] at hresult
            cases hresult
        · obtain ⟨e, he, rfl⟩ := List.mem_map.mp hmem
          obtain ⟨c', hc', -⟩ := h.logged e he
          exact absurd (List.getElem?_eq_some_iff.mp hc').1 (Nat.not_lt.mpr hk)
      | refused =>
        have hresult := hr.resolve_left nofun
        change c.status = .refused
        cases hstatus : c.status with
        | refused => rfl
        | _ =>
          rw [hstatus] at hresult
          cases hresult
      | lost => trivial
    · exact h.learnt j c' r' hj hreturned

theorem Sound.step (h : Sound obj x s) (e : Event ε β) : Sound obj x (step obj s e) := by
  cases e with
  | issue input => exact h.issue input
  | refuse i =>
    simp only [Atomic.step]
    split
    · rename_i hc
      exact h.refuse hc rfl
    · exact h
  | serve i env =>
    simp only [Atomic.step]
    split
    · rename_i hc
      exact h.serve hc rfl env
    · exact h
  | answer i =>
    simp only [Atomic.step]
    split
    · rename_i hc
      split
      · rename_i hr
        exact h.give hc (.inr hr)
      · exact h
    · exact h
  | giveUp i =>
    simp only [Atomic.step]
    split
    · rename_i hc
      exact h.give hc (.inl rfl)
    · exact h

theorem linearizes (obj : σ → ε → β → ω × σ) (x : σ) (es : List (Event ε β)) :
    Linearizes obj x (es.foldl (step obj) (start x)).calls (es.foldl (step obj) (start x)).log :=
  (invariant (sound_start obj x) fun _ e h => Sound.step h e).linearizes

end Controlis.Atomic
