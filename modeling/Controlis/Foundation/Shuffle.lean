import Mathlib.Data.List.Induction
import Mathlib.Data.List.Infix

/-!
# Two senders and one log

A log that two senders append to holds what each of them has sent, in its own
order. So does every first part of it, and every selection from it.
-/

namespace Controlis

inductive Shuffle {α : Type*} : List α → List α → List α → Prop
  | nil : Shuffle [] [] []
  | left {xs ys zs : List α} (h : Shuffle xs ys zs) (x : α) : Shuffle (xs ++ [x]) ys (zs ++ [x])
  | right {xs ys zs : List α} (h : Shuffle xs ys zs) (y : α) : Shuffle xs (ys ++ [y]) (zs ++ [y])

namespace Shuffle

variable {α β : Type*} {xs ys zs xs' ys' zs' : List α}

theorem append (h : Shuffle xs ys zs) (h' : Shuffle xs' ys' zs') :
    Shuffle (xs ++ xs') (ys ++ ys') (zs ++ zs') := by
  induction h' with
  | nil => simpa using h
  | left _ x ih =>
    rw [← List.append_assoc, ← List.append_assoc]
    exact ih.left x
  | right _ y ih =>
    rw [← List.append_assoc, ← List.append_assoc]
    exact ih.right y

theorem of_left (xs : List α) : Shuffle xs [] xs := by
  induction xs using List.reverseRecOn with
  | nil => exact .nil
  | append_singleton xs x ih => exact ih.left x

theorem of_right (ys : List α) : Shuffle [] ys ys := by
  induction ys using List.reverseRecOn with
  | nil => exact .nil
  | append_singleton ys y ih => exact ih.right y

theorem filterMap (f : α → Option β) (h : Shuffle xs ys zs) :
    Shuffle (xs.filterMap f) (ys.filterMap f) (zs.filterMap f) := by
  induction h with
  | nil => exact .nil
  | left _ x ih =>
    rw [List.filterMap_append, List.filterMap_append]
    simpa using ih.append (.of_left ([x].filterMap f))
  | right _ y ih =>
    rw [List.filterMap_append, List.filterMap_append]
    simpa using ih.append (.of_right ([y].filterMap f))

theorem filter (p : α → Bool) (h : Shuffle xs ys zs) :
    Shuffle (xs.filter p) (ys.filter p) (zs.filter p) := by
  simpa only [List.filterMap_eq_filter] using h.filterMap (Option.guard p)

theorem of_prefix {pre : List α} (h : Shuffle xs ys zs) (hpre : pre <+: zs) :
    ∃ first second, first <+: xs ∧ second <+: ys ∧ Shuffle first second pre := by
  induction h with
  | nil =>
    rw [List.prefix_nil.mp hpre]
    exact ⟨[], [], List.prefix_rfl, List.prefix_rfl, .nil⟩
  | left h x ih =>
    rcases List.prefix_concat_iff.mp hpre with rfl | hbefore
    · exact ⟨_, _, List.prefix_rfl, List.prefix_rfl, h.left x⟩
    · obtain ⟨first, second, hfirst, hsecond, hshuffle⟩ := ih hbefore
      exact ⟨first, second, hfirst.trans (List.prefix_append ..), hsecond, hshuffle⟩
  | right h y ih =>
    rcases List.prefix_concat_iff.mp hpre with rfl | hbefore
    · exact ⟨_, _, List.prefix_rfl, List.prefix_rfl, h.right y⟩
    · obtain ⟨first, second, hfirst, hsecond, hshuffle⟩ := ih hbefore
      exact ⟨first, second, hfirst, hsecond.trans (List.prefix_append ..), hshuffle⟩

end Shuffle

end Controlis
