import Mathlib.Data.List.Basic
import Mathlib.Tactic.Common

/-!
# A slot for the latest value

A writer posts values into a slot of size one and a reader takes them out; a
value that is not taken in time is overwritten. The histories of both are kept
beside the slot. What the reader took, with what waits for it, is a
subsequence of what was posted that ends in the same value.
-/

namespace Controlis.Latest

structure Mailbox (α : Type*) where
  value : Option α
  posted : List α
  taken : List α
deriving DecidableEq, Repr

namespace Mailbox
variable {α : Type*} {m : Mailbox α}

def empty : Mailbox α := ⟨none, [], []⟩

def post (m : Mailbox α) (a : α) : Mailbox α :=
  { m with value := some a, posted := m.posted ++ [a] }

def take (m : Mailbox α) : Mailbox α :=
  { m with value := none, taken := m.taken ++ m.value.toList }

def kept (m : Mailbox α) : List α := m.taken ++ m.value.toList

structure Fresh (m : Mailbox α) : Prop where
  ordered : m.kept.Sublist m.posted
  last : m.kept.getLast? = m.posted.getLast?

@[simp] theorem posted_take : m.take.posted = m.posted := rfl

@[simp] theorem kept_take : m.take.kept = m.kept := List.append_nil _

@[simp] theorem posted_post (a : α) : (m.post a).posted = m.posted ++ [a] := rfl

@[simp] theorem kept_post (a : α) : (m.post a).kept = m.taken ++ [a] := rfl

theorem fresh_empty : (empty : Mailbox α).Fresh := ⟨.slnil, rfl⟩

theorem Fresh.take (h : m.Fresh) : m.take.Fresh where
  ordered := by
    rw [kept_take]
    exact h.ordered
  last := by
    rw [kept_take]
    exact h.last

theorem Fresh.post (h : m.Fresh) (a : α) : (m.post a).Fresh where
  ordered := by
    have htaken : m.taken.Sublist m.posted :=
      (List.sublist_append_left ..).trans h.ordered
    rw [kept_post, posted_post]
    exact htaken.append (.refl _)
  last := by rw [kept_post, posted_post, List.getLast?_concat, List.getLast?_concat]

/-- A reader that found the slot empty has the last value. -/
theorem Fresh.caught_up (h : m.Fresh) (hempty : m.value = none) :
    m.taken.getLast? = m.posted.getLast? := by
  rw [← h.last, kept, hempty, Option.toList_none, List.append_nil]

end Mailbox

end Controlis.Latest
