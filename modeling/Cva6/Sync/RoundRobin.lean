import Mathlib.Tactic.Common
import Mathlib.Algebra.Group.Nat.Defs
/-!
# Round-robin arbiters

A tree of two-input nodes chooses among `2 ^ h` requests. A node prefers its right half when the
bit of the round-robin counter for its level is set, and goes to the half that requests when only
one does. Whatever the counter is, the choice is a request.
-/

namespace Cva6.Sync.RoundRobin

variable (req : Nat → Bool) (rr : Nat → Bool)

/-- One of the `2 ^ h` inputs from `base` on requests. -/
def anyFrom : Nat → Nat → Bool
  | 0, base => req base
  | h + 1, base => anyFrom h base || anyFrom h (base + 2 ^ h)

/-- The input chosen among the `2 ^ h` inputs from `base` on. -/
def pickFrom : Nat → Nat → Nat
  | 0, base => base
  | h + 1, base =>
      if !anyFrom req h base || anyFrom req h (base + 2 ^ h) && rr h then
        pickFrom h (base + 2 ^ h)
      else pickFrom h base

variable {req rr}

theorem anyFrom_of_req (h : Nat) {base n : Nat} (hle : base ≤ n) (hlt : n < base + 2 ^ h)
    (hn : req n = true) : anyFrom req h base = true := by
  induction h generalizing base with
  | zero =>
      have hbase : base = n := by
        rw [Nat.pow_zero] at hlt
        omega
      rw [anyFrom, hbase, hn]
  | succ h ih =>
      have htwice : 2 ^ (h + 1) = 2 ^ h + 2 ^ h := by omega
      rw [anyFrom, Bool.or_eq_true]
      by_cases hhalf : n < base + 2 ^ h
      · exact .inl (ih hle hhalf)
      · exact .inr (ih (Nat.le_of_not_lt hhalf) (by omega))

theorem pickFrom_lt (h base : Nat) : pickFrom req rr h base < base + 2 ^ h := by
  induction h generalizing base with
  | zero => exact Nat.lt_succ_self base
  | succ h ih =>
      have htwice : 2 ^ (h + 1) = 2 ^ h + 2 ^ h := by omega
      have hpos : 0 < 2 ^ h := Nat.two_pow_pos h
      have hleft := ih base
      have hright := ih (base + 2 ^ h)
      rw [pickFrom]
      split <;> omega

theorem pickFrom_req (h : Nat) {base : Nat} (hany : anyFrom req h base = true) :
    req (pickFrom req rr h base) = true := by
  induction h generalizing base with
  | zero => exact hany
  | succ h ih =>
      rw [anyFrom, Bool.or_eq_true] at hany
      rw [pickFrom]
      split
      case isTrue hright =>
        refine ih ?_
        cases hleft : anyFrom req h base with
        | false => exact hany.resolve_left (by simp [hleft])
        | true =>
            rw [hleft, Bool.not_true, Bool.false_or, Bool.and_eq_true] at hright
            exact hright.1
      case isFalse hleft =>
        refine ih ?_
        simp only [Bool.or_eq_true, Bool.not_eq_true', not_or, Bool.not_eq_false] at hleft
        exact hleft.1

def choose {h : Nat} (m : Fin (2 ^ h) → Bool) (cnt : BitVec h) : Fin (2 ^ h) :=
  ⟨pickFrom (fun n => if hn : n < 2 ^ h then m ⟨n, hn⟩ else false) (fun l => cnt.getLsbD l) h 0,
    Nat.lt_of_lt_of_eq (pickFrom_lt h 0) (Nat.zero_add _)⟩

theorem choose_req {h : Nat} {m : Fin (2 ^ h) → Bool} (cnt : BitVec h)
    (hm : ∃ k, m k = true) : m (choose m cnt) = true := by
  obtain ⟨k, hk⟩ := hm
  have hany : anyFrom (fun n => if hn : n < 2 ^ h then m ⟨n, hn⟩ else false) h 0 = true :=
    anyFrom_of_req h (Nat.zero_le k.val) (by simp) (by simpa using hk)
  have hreq : (fun n => if hn : n < 2 ^ h then m ⟨n, hn⟩ else false)
      (pickFrom _ (fun l => cnt.getLsbD l) h 0) = true := pickFrom_req h hany
  have hlt := (choose m cnt).isLt
  unfold choose at hlt ⊢
  simpa [hlt] using hreq

def advance {h : Nat} (cnt : BitVec h) (granted : Bool) : BitVec h :=
  if granted then cnt + 1 else cnt

end Cva6.Sync.RoundRobin
