import Mathlib.Data.List.Induction

/-!
# Runs of a step function

A run folds a step function over a list of events. An invariant that every step
keeps holds after every run. The other rules serve conditional results: runs
whose steps all meet a condition on the state before them, and a condition on
the last state that must have held all along.
-/

namespace Controlis.Runs

variable {S E : Type*} {step : S → E → S} {s : S} {es : List E}

theorem run_snoc (e : E) : (es ++ [e]).foldl step s = step (es.foldl step s) e := by
  rw [List.foldl_append]
  rfl

theorem invariant {I : S → Prop} (hs : I s) (hstep : ∀ s e, I s → I (step s e)) :
    I (es.foldl step s) := by
  induction es generalizing s with
  | nil => exact hs
  | cons e es ih => exact ih (hstep s e hs)

def Meets (step : S → E → S) (ok : S → E → Prop) : S → List E → Prop
  | _, [] => True
  | s, e :: es => ok s e ∧ Meets step ok (step s e) es

instance instDecidableMeets {ok : S → E → Prop} [∀ s e, Decidable (ok s e)] :
    ∀ (s : S) (es : List E), Decidable (Meets step ok s es)
  | _, [] => .isTrue trivial
  | s, e :: es =>
    have : Decidable (Meets step ok (step s e) es) := instDecidableMeets (step s e) es
    inferInstanceAs (Decidable (ok s e ∧ Meets step ok (step s e) es))

theorem invariant_of_meets {I : S → Prop} {ok : S → E → Prop} (hs : I s)
    (hok : Meets step ok s es) (hstep : ∀ s e, I s → ok s e → I (step s e)) :
    I (es.foldl step s) := by
  induction es generalizing s with
  | nil => exact hs
  | cons e es ih => exact ih (hstep s e hs hok.1) hok.2

theorem meets_of_forall {ok : E → Prop} (h : ∀ e ∈ es, ok e) :
    Meets step (fun _ => ok) s es := by
  induction es generalizing s with
  | nil => trivial
  | cons e es ih =>
    exact ⟨h e List.mem_cons_self, ih fun e' he' => h e' (List.mem_cons_of_mem _ he')⟩

theorem Meets.always {I P : S → Prop} {ok : S → E → Prop} (hok : Meets step ok s es) (hs : I s)
    (hgood : ∀ s, I s → P s) (hstep : ∀ s e, I s → ok s e → I (step s e)) :
    ∀ pre, pre <+: es → P (pre.foldl step s) := by
  intro pre hpre
  induction es generalizing s pre with
  | nil =>
    rw [List.prefix_nil.mp hpre]
    exact hgood s hs
  | cons e es ih =>
    cases pre with
    | nil => exact hgood s hs
    | cons e' pre =>
      obtain ⟨rfl, htail⟩ := List.cons_prefix_cons.mp hpre
      exact ih hok.2 (hstep s e' hs hok.1) pre htail

/-- A run meets the condition iff all its states are good, where from a good state exactly the
steps that meet the condition lead to good states. -/
theorem meets_iff {I P : S → Prop} {ok : S → E → Prop} (hs : I s) (hgood : ∀ s, I s → P s)
    (hstep : ∀ s e, I s → ok s e → I (step s e))
    (honly : ∀ s e, I s → P (step s e) → ok s e) :
    Meets step ok s es ↔ ∀ pre, pre <+: es → P (pre.foldl step s) := by
  refine ⟨fun hok => hok.always hs hgood hstep, fun hall => ?_⟩
  induction es generalizing s with
  | nil => trivial
  | cons e es ih =>
    have hok : ok s e := honly s e hs (hall [e] (List.cons_prefix_cons.mpr ⟨rfl, by simp⟩))
    refine ⟨hok, ih (hstep s e hs hok) fun pre hpre => ?_⟩
    exact hall (e :: pre) (List.cons_prefix_cons.mpr ⟨rfl, hpre⟩)

theorem invariant_of_end {I C : S → Prop} {R : S → S → Prop} (hrefl : ∀ s, R s s)
    (htrans : ∀ s t u, R s t → R t u → R s u) (hback : ∀ s e, C (step s e) → C s)
    (hstep : ∀ s e, I s → C (step s e) → I (step s e) ∧ R s (step s e)) (hs : I s)
    (hend : C (es.foldl step s)) : I (es.foldl step s) ∧ R s (es.foldl step s) := by
  induction es using List.reverseRecOn with
  | nil => exact ⟨hs, hrefl s⟩
  | append_singleton es e ih =>
    rw [run_snoc] at hend ⊢
    obtain ⟨hI, hR⟩ := ih (hback _ e hend)
    obtain ⟨hI', hR'⟩ := hstep _ e hI hend
    exact ⟨hI', htrans _ _ _ hR hR'⟩

/-- From a state where some step of its `own` always brings a machine closer to the end, such steps
bring it there. -/
theorem reaches {I Done : S → Prop} {own : E → Prop} (measure : S → ℕ)
    (hnext : ∀ s, I s → ¬Done s → ∃ e, own e ∧ I (step s e) ∧ measure (step s e) < measure s)
    (hs : I s) : ∃ es : List E, (∀ e ∈ es, own e) ∧ Done (es.foldl step s) := by
  induction hn : measure s using Nat.strongRecOn generalizing s with
  | ind n ih =>
    by_cases hdone : Done s
    · exact ⟨[], nofun, hdone⟩
    · obtain ⟨e, hown, hI, hlt⟩ := hnext s hs hdone
      obtain ⟨es, howns, hend⟩ := ih _ (hn ▸ hlt) hI rfl
      refine ⟨e :: es, ?_, hend⟩
      rintro e' (_ | ⟨_, he'⟩)
      · exact hown
      · exact howns e' he'

theorem simulation {T F : Type*} {step' : T → F → T} {R : S → T → Prop} {t : T} (hR : R s t)
    (hstep : ∀ s t e, R s t → ∃ fs : List F, R (step s e) (fs.foldl step' t)) :
    ∃ fs : List F, R (es.foldl step s) (fs.foldl step' t) := by
  induction es generalizing s t with
  | nil => exact ⟨[], hR⟩
  | cons e es ih =>
    obtain ⟨fs, hnext⟩ := hstep s t e hR
    obtain ⟨gs, hlast⟩ := ih hnext
    refine ⟨fs ++ gs, ?_⟩
    rw [List.foldl_append]
    exact hlast

end Controlis.Runs
