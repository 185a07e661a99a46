import Mathlib.Order.Lattice
/-!
# Selection by priority

A search for the candidate of the highest priority, from the last to the first, that keeps one
whose priority is at least what it has to beat. It ends with the first of the best.
-/

namespace Cva6.Sync

variable {α β : Type*} [LinearOrder β] (q : α → Bool) (prio : α → β)

/-- The search, from the last candidate to the first, with the priority to beat. -/
def firstBest (bound : β) (l : List α) : β × Option α :=
  l.foldr (fun a best => if q a && decide (best.1 ≤ prio a) then (prio a, some a) else best)
    (bound, none)

variable {q prio} {bound : β}

theorem firstBest_cons (a : α) (l : List α) : firstBest q prio bound (a :: l) =
    if q a && decide ((firstBest q prio bound l).1 ≤ prio a) then (prio a, some a)
    else firstBest q prio bound l := rfl

theorem firstBest_none {l : List α} (h : (firstBest q prio bound l).2 = none) :
    (firstBest q prio bound l).1 = bound ∧ ∀ a ∈ l, q a = true → prio a < bound := by
  induction l with
  | nil => exact ⟨rfl, fun _ ha => absurd ha List.not_mem_nil⟩
  | cons a l ih =>
      rw [firstBest_cons] at h ⊢
      split_ifs at h ⊢ with htake
      obtain ⟨hbound, hrest⟩ := ih h
      refine ⟨hbound, fun b hb hq => ?_⟩
      rcases List.mem_cons.mp hb with rfl | hb
      · rw [hq, Bool.true_and, decide_eq_true_iff, hbound] at htake
        exact lt_of_not_ge htake
      · exact hrest b hb hq

theorem le_firstBest (l : List α) : bound ≤ (firstBest q prio bound l).1 ∧
    ∀ a ∈ l, q a = true → prio a ≤ (firstBest q prio bound l).1 := by
  induction l with
  | nil => exact ⟨le_rfl, fun _ ha => absurd ha List.not_mem_nil⟩
  | cons c l ih =>
      obtain ⟨hbound, hrest⟩ := ih
      rw [firstBest_cons]
      split_ifs with htake
      · rw [Bool.and_eq_true, decide_eq_true_iff] at htake
        refine ⟨hbound.trans htake.2, fun a ha hqa => ?_⟩
        rcases List.mem_cons.mp ha with rfl | ha
        · exact le_rfl
        · exact (hrest a ha hqa).trans htake.2
      · refine ⟨hbound, fun a ha hqa => ?_⟩
        rcases List.mem_cons.mp ha with rfl | ha
        · rw [hqa, Bool.true_and, decide_eq_true_iff] at htake
          exact (lt_of_not_ge htake).le
        · exact hrest a ha hqa

theorem firstBest_fst {l : List α} {b : α} (h : (firstBest q prio bound l).2 = some b) :
    (firstBest q prio bound l).1 = prio b ∧ q b = true := by
  induction l with
  | nil => exact absurd h (by simp [firstBest])
  | cons c l ih =>
      rw [firstBest_cons] at h ⊢
      split_ifs at h ⊢ with htake
      · obtain rfl : c = b := Option.some.inj h
        exact ⟨rfl, (Bool.and_eq_true _ _ ▸ htake).1⟩
      · exact ih h

theorem firstBest_max {l : List α} {b : α} (h : (firstBest q prio bound l).2 = some b) :
    bound ≤ prio b ∧ ∀ a ∈ l, q a = true → prio a ≤ prio b := by
  rw [← (firstBest_fst h).1]
  exact le_firstBest l

/-- Of several candidates of the highest priority the first one is kept. -/
theorem firstBest_lt [LinearOrder α] {l : List α} {b : α} (hl : l.Pairwise (· < ·))
    (h : (firstBest q prio bound l).2 = some b) :
    ∀ a ∈ l, a < b → q a = true → prio a < prio b := by
  induction l with
  | nil => exact fun _ ha => absurd ha List.not_mem_nil
  | cons c l ih =>
      obtain ⟨hc, hl⟩ := List.pairwise_cons.mp hl
      rw [firstBest_cons] at h
      split_ifs at h with htake
      · obtain rfl : c = b := Option.some.inj h
        intro a ha hlt
        rcases List.mem_cons.mp ha with rfl | ha
        · exact absurd hlt (lt_irrefl _)
        · exact absurd hlt (hc a ha).not_gt
      · intro a ha hlt hqa
        rcases List.mem_cons.mp ha with rfl | ha
        · rw [hqa, Bool.true_and, decide_eq_true_iff, (firstBest_fst h).1] at htake
          exact lt_of_not_ge htake
        · exact ih hl h a ha hlt hqa

end Cva6.Sync
