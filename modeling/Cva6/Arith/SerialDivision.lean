import Mathlib.Tactic.Ring
/-!
# Serial division

Division of natural numbers by one comparison and one subtraction for each bit of the
quotient. The divisor starts aligned with the dividend and is halved in every step.
-/

namespace Cva6.Arith.SerialDivision

structure State where
  remainder : Nat
  divisor : Nat
  quotient : Nat

def step (s : State) : State :=
  if s.divisor ≤ s.remainder then
    ⟨s.remainder - s.divisor, s.divisor / 2, 2 * s.quotient + 1⟩
  else ⟨s.remainder, s.divisor / 2, 2 * s.quotient⟩

/-- The division of `m` by `n` with `k` bits of the quotient left. -/
structure Dividing (m n k : Nat) (s : State) : Prop where
  sum : s.remainder + n * 2 ^ k * s.quotient = m
  remainder_lt : s.remainder < n * 2 ^ k
  divisor : 2 * s.divisor = n * 2 ^ k

variable {m n k : Nat} {s : State}

theorem dividing_init (h : m < n * 2 ^ (k + 1)) : Dividing m n (k + 1) ⟨m, n * 2 ^ k, 0⟩ where
  sum := by simp
  remainder_lt := h
  divisor := by ring

theorem Dividing.divisor_eq (h : Dividing m n (k + 1) s) : s.divisor = n * 2 ^ k := by
  have hd := h.divisor
  rw [Nat.pow_succ, ← Nat.mul_assoc] at hd
  omega

theorem Dividing.step_sum (h : Dividing m n (k + 1) s) :
    (step s).remainder + n * 2 ^ k * (step s).quotient = m ∧
      (step s).remainder < n * 2 ^ k := by
  have hd := h.divisor_eq
  have hlt := h.remainder_lt
  have hsum := h.sum
  rw [Nat.pow_succ, ← Nat.mul_assoc] at hlt hsum
  unfold step
  rw [hd]
  split_ifs with hc
  · constructor
    · show s.remainder - n * 2 ^ k + n * 2 ^ k * (2 * s.quotient + 1) = m
      rw [← hsum, Nat.mul_add, ← Nat.mul_assoc]
      omega
    · show s.remainder - n * 2 ^ k < _
      omega
  · constructor
    · rw [← hsum, ← Nat.mul_assoc]
    · show s.remainder < _
      omega

theorem Dividing.step (h : Dividing m n (k + 2) s) : Dividing m n (k + 1) (step s) where
  sum := h.step_sum.1
  remainder_lt := h.step_sum.2
  divisor := by
    have hdiv : (SerialDivision.step s).divisor = s.divisor / 2 := by
      unfold SerialDivision.step
      split <;> rfl
    rw [hdiv, h.divisor_eq, Nat.pow_succ, ← Nat.mul_assoc]
    omega

theorem Dividing.last (h : Dividing m n 1 s) (hn : 0 < n) :
    (SerialDivision.step s).quotient = m / n ∧ (SerialDivision.step s).remainder = m % n := by
  obtain ⟨hsum, hlt⟩ := h.step_sum
  rw [Nat.pow_zero, Nat.mul_one] at hsum hlt
  rw [← hsum, Nat.add_mul_div_left _ _ hn, Nat.div_eq_of_lt hlt, Nat.add_mul_mod_self_left,
    Nat.mod_eq_of_lt hlt, Nat.zero_add]
  exact ⟨rfl, rfl⟩

end Cva6.Arith.SerialDivision
