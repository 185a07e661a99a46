import Mathlib.Order.Interval.Set.Basic
import Mathlib.Data.Nat.Find
import Mathlib.Algebra.Group.Nat.Defs
/-!
# Regions of physical memory

The regions that the privileged architecture assigns to a protection entry. An
address register holds an address in words of four bytes. An entry covers
nothing, the range from the previous register to its own (`TOR`), one word
(`NA4`), or a naturally aligned block whose size is coded in the trailing ones
of the register (`NAPOT`).
-/

namespace Cva6.Pmp

/-! ## Trailing ones -/

section TrailingOnes

variable {w : Nat}

theorem exists_clear (x : BitVec w) : ∃ k, x.getLsbD k = false :=
  ⟨w, BitVec.getLsbD_of_ge x w (Nat.le_refl w)⟩

def trailingOnes (x : BitVec w) : Nat :=
  Nat.find (exists_clear x)

theorem trailingOnes_eq_iff {x : BitVec w} {k : Nat} :
    trailingOnes x = k ↔ x.getLsbD k = false ∧ ∀ j < k, x.getLsbD j = true := by
  rw [trailingOnes, Nat.find_eq_iff]
  simp only [Bool.not_eq_false]

theorem trailingOnes_le (x : BitVec w) : trailingOnes x ≤ w :=
  Nat.find_min' _ (BitVec.getLsbD_of_ge x w (Nat.le_refl w))

theorem trailingOnes_setWidth {v : Nat} (x : BitVec w) (h : w ≤ v) :
    trailingOnes (x.setWidth v) = trailingOnes x := by
  obtain ⟨hclear, hset⟩ := trailingOnes_eq_iff.mp (rfl : trailingOnes x = trailingOnes x)
  have hle := trailingOnes_le x
  rw [trailingOnes_eq_iff]
  constructor
  · rw [BitVec.getLsbD_setWidth, hclear, Bool.and_false]
  · intro j hj
    rw [BitVec.getLsbD_setWidth, hset j hj, decide_eq_true (by omega), Bool.and_true]

theorem trailingOnes_of_even {x : BitVec w} (h : x.getLsbD 0 = false) : trailingOnes x = 0 :=
  trailingOnes_eq_iff.mpr ⟨h, fun j hj => absurd hj (Nat.not_lt_zero j)⟩

theorem trailingOnes_of_odd {x : BitVec w} (h : x.getLsbD 0 = true) : 0 < trailingOnes x := by
  rw [Nat.pos_iff_ne_zero]
  intro hzero
  rw [(trailingOnes_eq_iff.mp hzero).1] at h
  cases h

end TrailingOnes

/-! ## Blocks -/

def block (s a : Nat) : Set Nat :=
  Set.Ico (a / 2 ^ s * 2 ^ s) (a / 2 ^ s * 2 ^ s + 2 ^ s)

theorem mem_block {s a x : Nat} : x ∈ block s a ↔ x / 2 ^ s = a / 2 ^ s := by
  have hpos : 0 < 2 ^ s := Nat.two_pow_pos s
  rw [block, Set.mem_Ico, Nat.div_eq_iff hpos]
  omega

theorem mem_block_self (s a : Nat) : a ∈ block s a :=
  mem_block.mpr rfl

theorem block_mono {s t a x : Nat} (h : s ≤ t) (hx : x ∈ block s a) : x ∈ block t a := by
  rw [mem_block] at hx ⊢
  obtain ⟨k, rfl⟩ := Nat.exists_eq_add_of_le h
  rw [Nat.pow_add, ← Nat.div_div_eq_div_mul, ← Nat.div_div_eq_div_mul, hx]

/-- Two words agree under the mask of a block exactly when they lie in one block. -/
theorem and_mask_eq_iff {w : Nat} (x y : BitVec w) (s : Nat) :
    x &&& BitVec.allOnes w <<< s = y &&& BitVec.allOnes w <<< s ↔ x.toNat ∈ block s y.toNat := by
  have hbits : x &&& BitVec.allOnes w <<< s = y &&& BitVec.allOnes w <<< s ↔ x >>> s = y >>> s := by
    constructor
    · intro h
      apply BitVec.eq_of_getLsbD_eq
      intro i _
      have hi := congrArg (fun z => z.getLsbD (s + i)) h
      by_cases hw : s + i < w
      · simpa [hw, show i < w by omega, show ¬s + i < s by omega] using hi
      · simp [BitVec.getLsbD_of_ge _ (s + i) (not_lt.mp hw)]
    · intro h
      apply BitVec.eq_of_getLsbD_eq
      intro i hi
      by_cases hs : i < s
      · simp [hs]
      · have hbit := congrArg (fun z => z.getLsbD (i - s)) h
        have hback : s + (i - s) = i := by omega
        simp only [BitVec.getLsbD_ushiftRight, hback] at hbit
        rw [BitVec.getLsbD_and, BitVec.getLsbD_and, hbit]
  rw [hbits, mem_block, ← BitVec.toNat_inj, BitVec.toNat_ushiftRight, BitVec.toNat_ushiftRight,
    Nat.shiftRight_eq_div_pow, Nat.shiftRight_eq_div_pow]

/-! ## Regions -/

inductive Mode where
  | OFF | TOR | NA4 | NAPOT
  deriving DecidableEq, Repr

/-- The addresses that an entry covers, for its own register and the one before it. -/
def region {w : Nat} (mode : Mode) (prev addr : BitVec w) : Set Nat :=
  match mode with
  | .OFF => ∅
  | .TOR => Set.Ico (4 * prev.toNat) (4 * addr.toNat)
  | .NA4 => Set.Ico (4 * addr.toNat) (4 * addr.toNat + 4)
  | .NAPOT => block (trailingOnes addr + 3) (4 * addr.toNat)

theorem region_setWidth {v w : Nat} (mode : Mode) (prev addr : BitVec w) (h : w ≤ v) :
    region mode (prev.setWidth v) (addr.setWidth v) = region mode prev addr := by
  have hwide (x : BitVec w) : (x.setWidth v).toNat = x.toNat := by
    rw [BitVec.toNat_setWidth]
    exact Nat.mod_eq_of_lt (x.isLt.trans_le (Nat.pow_le_pow_right (by decide) h))
  cases mode with
  | OFF => rfl
  | TOR => rw [region, region, hwide, hwide]
  | NA4 => rw [region, region, hwide]
  | NAPOT => rw [region, region, hwide, trailingOnes_setWidth addr h]

end Cva6.Pmp
