import Mathlib.Data.Fin.Basic
import Mathlib.Order.Fin.Basic
/-!
# Handshakes by toggling

A request is a change of a level. The level travels through a chain of stages, each of which
keeps its own or takes that of the stage before it, at any pace, and the head changes again
when the last stage shows its level. At most one change is under way.
-/

namespace Cva6.Sync

variable {n : Nat} {v v' : Fin (n + 1) → Bool} {j k : Fin (n + 1)}

/-- The stages that do not show the level of the head are the last ones. -/
def OneFront (v : Fin (n + 1) → Bool) : Prop :=
  ∀ j k, j ≤ k → v j ≠ v 0 → v k ≠ v 0

/-- A stage keeps its level or takes that of the stage before it. -/
def Shifts (v v' : Fin (n + 1) → Bool) : Prop :=
  ∀ k : Fin n, v' k.succ = v k.succ ∨ v' k.succ = v k.castSucc

/-- The head keeps its level, or changes it when the last stage shows it. -/
def Toggles (v v' : Fin (n + 1) → Bool) : Prop :=
  v' 0 = v 0 ∨ v' 0 = !v 0 ∧ v (Fin.last n) = v 0

theorem oneFront_const (b : Bool) : OneFront (n := n) fun _ => b := by
  intro _ _ _ h
  exact absurd rfl h

theorem OneFront.eq_of_le (h : OneFront v) (hjk : j ≤ k) (hk : v k = v 0) : v j = v 0 := by
  by_contra hj
  exact h j k hjk hj hk

theorem OneFront.eq_of_last (h : OneFront v) (hl : v (Fin.last n) = v 0) (k : Fin (n + 1)) :
    v k = v 0 :=
  h.eq_of_le (Fin.le_last k) hl

theorem OneFront.of_ne (h : OneFront v) (hjk : j ≤ k) (hne : v j ≠ v k) :
    v j = v 0 ∧ v k ≠ v 0 := by
  have hj : v j = v 0 := by
    by_contra hj
    have hk := h j k hjk hj
    apply hne
    cases hv : v 0 <;> simp_all
  refine ⟨hj, fun hk => hne ?_⟩
  rw [hj, hk]

theorem OneFront.next (h : OneFront v) (hs : Shifts v v') (ht : Toggles v v') :
    OneFront v' := by
  rcases ht with hkeep | ⟨hflip, hlast⟩
  · intro j k hjk hj
    rw [hkeep] at hj ⊢
    -- what differs from the head differed from it before
    have hold {m : Fin (n + 1)} (hm : v' m ≠ v 0) : v m ≠ v 0 := by
      cases m using Fin.cases with
      | zero => exact absurd hkeep hm
      | succ m =>
          rcases hs m with heq | heq
          · rw [← heq]
            exact hm
          · rw [heq] at hm
            exact h _ _ m.castSucc_lt_succ.le hm
    rcases hjk.eq_or_lt with rfl | hlt
    · exact hj
    · have hbehind := hold hj
      cases k using Fin.cases with
      | zero => exact absurd hlt (Fin.not_lt_zero j)
      | succ k =>
          rcases hs k with heq | heq <;> rw [heq]
          · exact h _ _ hlt.le hbehind
          · exact h _ _ (Fin.le_castSucc_iff.mpr hlt) hbehind
  · -- the stages behind the head all show the old level
    intro j k hjk hj
    have hall := h.eq_of_last hlast
    cases k using Fin.cases with
    | zero =>
        rw [Fin.le_zero_iff.mp hjk] at hj
        exact absurd rfl hj
    | succ k =>
        have hk : v' k.succ = v 0 := by
          rcases hs k with heq | heq <;> rw [heq, hall]
        rw [hk, hflip]
        exact (Bool.not_ne_self _).symm

/-! ## Progress -/

/-- The first `t` stages behind the head show its level. -/
def Shown (v : Fin (n + 1) → Bool) (t : Nat) : Prop := ∀ k : Fin (n + 1), k.val ≤ t → v k = v 0

theorem shown_zero : Shown v 0 := by
  intro k hk
  rw [show k = 0 from Fin.ext (Nat.le_zero.mp hk)]

theorem Shown.next {t : Nat} (h : Shown v t) (hs : Shifts v v') (hkeep : v' 0 = v 0) :
    Shown v' t := by
  intro k hk
  rw [hkeep]
  cases k using Fin.cases with
  | zero => exact hkeep
  | succ k =>
      rcases hs k with heq | heq <;> rw [heq]
      · exact h _ hk
      · exact h _ (Nat.le_of_succ_le hk)

theorem Shown.advance {t : Nat} (h : Shown v t) (hs : Shifts v v') (hkeep : v' 0 = v 0)
    (htakes : ∀ k : Fin n, k.val = t → v' k.succ = v k.castSucc) : Shown v' (t + 1) := by
  intro k hk
  rcases Nat.lt_or_eq_of_le hk with hlt | heq
  · exact h.next hs hkeep k (Nat.le_of_lt_succ hlt)
  · rw [hkeep]
    cases k using Fin.cases with
    | zero => exact hkeep
    | succ k =>
        have hkt : k.val = t := Nat.succ.inj heq
        rw [htakes k hkt]
        exact h _ hkt.le

end Cva6.Sync
