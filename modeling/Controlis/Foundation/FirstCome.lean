import Mathlib.Data.List.Basic
import Mathlib.Logic.Function.Basic
import Mathlib.Tactic.Common

/-!
# Maps in which the first entry stays

A map is filled group by group: every group names keys and has one value for
all of them, and a key that has a value already keeps it. A key then has the
value of the first group that names it.
-/

namespace Controlis.FirstCome

variable {α β γ : Type*} [DecidableEq α]

/-- `map.entry(a).or_insert(b)`. -/
def orInsert (m : α → Option β) (a : α) (b : β) : α → Option β :=
  if (m a).isSome then m else Function.update m a (some b)

def insertAll (m : α → Option β) (b : β) (keys : List α) : α → Option β :=
  keys.foldl (fun m a => orInsert m a b) m

def collect (keys : γ → List α) (value : γ → β) (groups : List γ) : α → Option β :=
  groups.foldl (fun m g => insertAll m (value g) (keys g)) fun _ => none

variable {m : α → Option β} {a : α} {b : β}

theorem orInsert_apply (m : α → Option β) (a : α) (b : β) (c : α) :
    orInsert m a b c = (m c).or (if c = a then some b else none) := by
  unfold orInsert
  by_cases hc : c = a
  · subst hc
    cases hm : m c <;> simp [hm]
  · cases hm : (m a).isSome <;> simp [hc]

theorem insertAll_apply (m : α → Option β) (b : β) (keys : List α) (c : α) :
    insertAll m b keys c = (m c).or (if c ∈ keys then some b else none) := by
  induction keys generalizing m with
  | nil => simp [insertAll]
  | cons a keys ih =>
    have hrest : insertAll m b (a :: keys) = insertAll (orInsert m a b) b keys := rfl
    rw [hrest, ih, orInsert_apply, Option.or_assoc]
    congr 1
    by_cases hc : c = a <;> simp [hc]

theorem insertAll_append (m : α → Option β) (b : β) (keys keys' : List α) :
    insertAll m b (keys ++ keys') = insertAll (insertAll m b keys) b keys' := List.foldl_append

theorem collect_apply (keys : γ → List α) (value : γ → β) (groups : List γ) (c : α) :
    collect keys value groups c = (groups.find? fun g => c ∈ keys g).map value := by
  have hfold (m : α → Option β) :
      groups.foldl (fun m g => insertAll m (value g) (keys g)) m c =
        (m c).or ((groups.find? fun g => c ∈ keys g).map value) := by
    induction groups generalizing m with
    | nil => simp
    | cons g groups ih =>
      rw [List.foldl_cons, ih, insertAll_apply, Option.or_assoc]
      congr 1
      by_cases hc : c ∈ keys g <;> simp [hc]
  exact hfold fun _ => none

theorem find?_ascending {xs : List ℕ} (hxs : xs.Pairwise (· < ·)) {p : ℕ → Bool} {x : ℕ} :
    xs.find? p = some x ↔ x ∈ xs ∧ p x ∧ ∀ y ∈ xs, y < x → ¬p y := by
  induction xs with
  | nil => simp
  | cons z xs ih =>
    obtain ⟨hfirst, hrest⟩ := List.pairwise_cons.mp hxs
    by_cases hz : p z
    · rw [List.find?_cons_of_pos hz]
      constructor
      · intro h
        cases h
        refine ⟨List.mem_cons_self, hz, ?_⟩
        intro y hy hlt
        rcases List.mem_cons.mp hy with rfl | hy
        · omega
        · have := hfirst y hy
          omega
      · rintro ⟨hx, -, hleast⟩
        rcases List.mem_cons.mp hx with rfl | hx
        · rfl
        · exact absurd hz (hleast z List.mem_cons_self (hfirst x hx))
    · rw [List.find?_cons_of_neg hz, ih hrest]
      constructor
      · rintro ⟨hx, hpx, hleast⟩
        refine ⟨List.mem_cons_of_mem _ hx, hpx, ?_⟩
        intro y hy hlt
        rcases List.mem_cons.mp hy with rfl | hy
        · exact hz
        · exact hleast y hy hlt
      · rintro ⟨hx, hpx, hleast⟩
        rcases List.mem_cons.mp hx with rfl | hx
        · exact absurd hpx hz
        · exact ⟨hx, hpx, fun y hy => hleast y (List.mem_cons_of_mem _ hy)⟩

end Controlis.FirstCome
