import Mathlib.Data.List.Induction
import Mathlib.Tactic.Common

/-!
# Presses and releases

A stroke presses or releases one of many keys, and a key is down if its last
stroke was a press. Whoever keeps the pressed keys on a list and strikes
released keys from it has every key that is down on the list, and releasing the
list leaves nothing down. Names may be merged: if no key is down, no group of
keys is.
-/

namespace Controlis.Strokes

variable {K C : Type*} [DecidableEq K] [DecidableEq C]

abbrev Stroke (K : Type*) := K × Bool

/-- The last stroke of the key, if there was one: `true` for a press. -/
def lastOf (k : K) : List (Stroke K) → Option Bool
  | [] => none
  | s :: strokes => (lastOf k strokes).or (if s.1 = k then some s.2 else none)

def Down (strokes : List (Stroke K)) (k : K) : Prop := lastOf k strokes = some true

instance (strokes : List (Stroke K)) (k : K) : Decidable (Down strokes k) :=
  inferInstanceAs (Decidable (_ = _))

def AllUp (strokes : List (Stroke K)) : Prop := ∀ k, ¬ Down strokes k

variable {k : K} {strokes xs ys : List (Stroke K)} {held : List K}

theorem lastOf_append (k : K) (xs ys : List (Stroke K)) :
    lastOf k (xs ++ ys) = (lastOf k ys).or (lastOf k xs) := by
  induction xs with
  | nil => simp [lastOf]
  | cons s xs ih => rw [List.cons_append, lastOf, lastOf, ih, Option.or_assoc]

theorem lastOf_snoc (k j : K) (pressed : Bool) (strokes : List (Stroke K)) :
    lastOf k (strokes ++ [(j, pressed)]) = if j = k then some pressed else lastOf k strokes := by
  rw [lastOf_append]
  by_cases h : j = k <;> simp [lastOf, h]

theorem allUp_nil : AllUp ([] : List (Stroke K)) := fun _ h => by cases h

theorem AllUp.append (h : AllUp xs) (h' : AllUp ys) : AllUp (xs ++ ys) := by
  intro k hk
  rw [Down, lastOf_append] at hk
  cases hlast : lastOf k ys with
  | none =>
    rw [hlast, Option.none_or] at hk
    exact h k hk
  | some pressed =>
    rw [hlast, Option.some_or] at hk
    exact h' k (hlast.trans hk)

theorem allUp_flatMap {α : Type*} {f : α → List (Stroke K)} {as : List α}
    (h : ∀ a ∈ as, AllUp (f a)) : AllUp (as.flatMap f) := by
  induction as with
  | nil => exact allUp_nil
  | cons a as ih =>
    exact (h a List.mem_cons_self).append (ih fun a' ha' => h a' (List.mem_cons_of_mem _ ha'))

def Tracks (held : List K) (strokes : List (Stroke K)) : Prop := ∀ k, Down strokes k → k ∈ held

theorem AllUp.tracks (h : AllUp strokes) : Tracks held strokes := fun k hk => absurd hk (h k)

theorem Tracks.press (h : Tracks held strokes) (j : K) :
    Tracks (held ++ [j]) (strokes ++ [(j, true)]) := by
  intro k hk
  rw [Down, lastOf_snoc] at hk
  split_ifs at hk with hj
  · exact List.mem_append_right _ (List.mem_singleton.mpr hj.symm)
  · exact List.mem_append_left _ (h k hk)

theorem Tracks.release (h : Tracks held strokes) (j : K) :
    Tracks (held.filter (· ≠ j)) (strokes ++ [(j, false)]) := by
  intro k hk
  rw [Down, lastOf_snoc] at hk
  split_ifs at hk with hj
  · cases hk
  · exact List.mem_filter.mpr ⟨h k hk, by simpa using Ne.symm hj⟩

theorem lastOf_releases (held : List K) :
    lastOf k (held.map (·, false)) = if k ∈ held then some false else none := by
  induction held with
  | nil => rfl
  | cons j held ih =>
    rw [List.map_cons, lastOf, ih]
    by_cases hk : k ∈ held
    · simp [hk]
    · by_cases hj : j = k
      · subst hj
        simp [hk]
      · simp [hk, hj, Ne.symm hj]

theorem down_releases {released : List K} :
    Down (strokes ++ released.map (·, false)) k ↔ Down strokes k ∧ k ∉ released := by
  rw [Down, lastOf_append, lastOf_releases]
  by_cases hk : k ∈ released <;> simp [hk, Down]

theorem Tracks.releaseAll (h : Tracks held strokes) :
    AllUp (strokes ++ held.map (·, false)) := by
  intro k hk
  obtain ⟨hdown, hheld⟩ := down_releases.mp hk
  exact hheld (h k hdown)

def Matches (held : List K) (strokes : List (Stroke K)) : Prop := ∀ k, Down strokes k ↔ k ∈ held

theorem Matches.tracks (h : Matches held strokes) : Tracks held strokes := fun k => (h k).mp

theorem Matches.press {held' : List K} {j : K} (h : Matches held strokes)
    (hheld : ∀ k, k ∈ held' ↔ k = j ∨ k ∈ held) : Matches held' (strokes ++ [(j, true)]) := by
  intro k
  rw [hheld, Down, lastOf_snoc]
  by_cases hj : j = k
  · simp [hj]
  · simpa [Down, hj, Ne.symm hj] using h k

theorem Matches.release {held' : List K} {j : K} (h : Matches held strokes)
    (hheld : ∀ k, k ∈ held' ↔ k ∈ held ∧ k ≠ j) : Matches held' (strokes ++ [(j, false)]) := by
  intro k
  rw [hheld, Down, lastOf_snoc]
  by_cases hj : j = k
  · simp [hj]
  · simpa [Down, hj, Ne.symm hj] using h k

/-- Releasing some of what is held leaves nothing down only if it was all of it. -/
theorem Matches.allUp_iff (h : Matches held strokes) (p : K → Bool) :
    AllUp (strokes ++ (held.filter p).map (·, false)) ↔ ∀ k ∈ held, p k = true := by
  constructor
  · intro hup k hk
    by_contra hp
    apply hup k
    exact down_releases.mpr ⟨(h k).mpr hk, fun hreleased => hp (List.mem_filter.mp hreleased).2⟩
  · intro hall k hk
    obtain ⟨hdown, hleft⟩ := down_releases.mp hk
    have hheld := (h k).mp hdown
    exact hleft (List.mem_filter.mpr ⟨hheld, hall k hheld⟩)

def rename (f : K → Option C) (strokes : List (Stroke K)) : List (Stroke C) :=
  strokes.filterMap fun s => (f s.1).map (·, s.2)

omit [DecidableEq K] [DecidableEq C] in
theorem rename_append (f : K → Option C) (xs ys : List (Stroke K)) :
    rename f (xs ++ ys) = rename f xs ++ rename f ys := List.filterMap_append ..

theorem exists_lastOf_rename {f : K → Option C} {c : C} {pressed : Bool}
    (h : lastOf c (rename f strokes) = some pressed) :
    ∃ k, f k = some c ∧ lastOf k strokes = some pressed := by
  induction strokes using List.reverseRecOn with
  | nil => cases h
  | append_singleton strokes s ih =>
    obtain ⟨j, p⟩ := s
    cases hf : f j with
    | none =>
      have hdrop : rename f (strokes ++ [(j, p)]) = rename f strokes := by
        simp [rename, hf]
      rw [hdrop] at h
      obtain ⟨k, hk, hlast⟩ := ih h
      refine ⟨k, hk, ?_⟩
      rw [lastOf_snoc, if_neg]
      · exact hlast
      · rintro rfl
        rw [hf] at hk
        cases hk
    | some d =>
      have hadd : rename f (strokes ++ [(j, p)]) = rename f strokes ++ [(d, p)] := by
        simp [rename, hf]
      rw [hadd, lastOf_snoc] at h
      split_ifs at h with hd
      · subst hd
        exact ⟨j, hf, by rw [lastOf_snoc, if_pos rfl, h]⟩
      · obtain ⟨k, hk, hlast⟩ := ih h
        refine ⟨k, hk, ?_⟩
        rw [lastOf_snoc, if_neg]
        · exact hlast
        · rintro rfl
          rw [hf] at hk
          exact hd (Option.some.inj hk)

theorem AllUp.rename {f : K → Option C} (h : AllUp strokes) : AllUp (rename f strokes) := by
  intro c hc
  obtain ⟨k, -, hk⟩ := exists_lastOf_rename hc
  exact h k hk

end Controlis.Strokes
