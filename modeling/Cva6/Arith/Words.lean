import Mathlib.Data.Nat.Init
import Mathlib.Algebra.Group.Nat.Defs
/-!
# Words put together from parts

A concatenation of bit vectors as a number, and a set of bit positions as a word.
-/

namespace Cva6.Arith

theorem toNat_append_eq {n m : Nat} (x : BitVec n) (y : BitVec m) :
    (x ++ y).toNat = x.toNat * 2 ^ m + y.toNat := by
  rw [BitVec.toNat_append, ← Nat.shiftLeft_add_eq_or_of_lt y.isLt, Nat.shiftLeft_eq]

def maskBits {n : Nat} (m : Fin n → Bool) : BitVec n :=
  (BitVec.ofBoolListLE (List.ofFn m)).setWidth n

@[simp] theorem getLsbD_maskBits {n : Nat} (m : Fin n → Bool) (k : Fin n) :
    (maskBits m).getLsbD k.val = m k := by
  rw [maskBits, BitVec.getLsbD_setWidth, decide_eq_true k.isLt, Bool.true_and,
    BitVec.getLsbD_ofBoolListLE]
  simp

end Cva6.Arith
