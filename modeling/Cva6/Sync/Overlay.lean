import Mathlib.Logic.Function.Basic
/-!
# A buffer over a memory

A buffer holds the newest value of some addresses, and a memory that of the others. What is
seen at an address is what the buffer holds, or else what the memory holds. The memory may hold
anything where the buffer holds a value, and an address leaves the buffer when the memory
holds its value.
-/

namespace Cva6.Sync

variable {α β : Type*}

def view (buf : α → Option β) (mem : α → β) : α → β := fun a => (buf a).getD (mem a)

variable {buf buf' write : α → Option β} {mem mem' : α → β} {a : α} {b : β}

theorem view_of_some (h : buf a = some b) : view buf mem a = b := by
  rw [view, h]
  rfl

theorem view_of_none (h : buf a = none) : view buf mem a = mem a := by
  rw [view, h]
  rfl

theorem view_of_empty (h : ∀ a, buf a = none) : view buf mem = mem :=
  funext fun a => view_of_none (h a)

theorem view_congr_at (h : buf a = none → mem a = mem' a) : view buf mem a = view buf mem' a := by
  cases hb : buf a with
  | none => rw [view_of_none hb, view_of_none hb, h hb]
  | some b => rw [view_of_some hb, view_of_some hb]

/-- In one step the buffer takes the values of `write`, and gives up only what the memory holds
after the step. -/
structure Moves (write buf buf' : α → Option β) (mem' : α → β) : Prop where
  written : ∀ a b, write a = some b → buf' a = some b
  kept : ∀ a b, write a = none → buf a = some b → buf' a = some b ∨ buf' a = none ∧ mem' a = b
  free : ∀ a, write a = none → buf a = none → buf' a = none

/-- What is seen after a step is what was written in it, over what was seen before. -/
theorem Moves.view_eq (h : Moves write buf buf' mem') :
    view buf' mem' = view write (view buf mem') := by
  funext a
  cases hw : write a with
  | some b => rw [view_of_some hw, view_of_some (h.written a b hw)]
  | none =>
      rw [view_of_none hw]
      cases hb : buf a with
      | none => rw [view_of_none hb, view_of_none (h.free a hw hb)]
      | some b =>
          rw [view_of_some hb]
          rcases h.kept a b hw hb with hstays | ⟨hleaves, hmem⟩
          · exact view_of_some hstays
          · rw [view_of_none hleaves, hmem]

end Cva6.Sync
