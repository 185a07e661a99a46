import Cva6.Csr.Effects
import Cva6.Csr.TrapReturn
/-!
# Trap vectors

The vector of a trap is the base of the trap vector register of the level it is
taken to; in vectored mode an interrupt adds four times its code. The register
file replaces the addition by putting the code into bits 7 to 2, which is right
for a base that is aligned to 256 bytes: a write to `mtvec` in vectored mode
aligns it, a write to `stvec` does not. It also takes the mode from both
registers at once.
-/

namespace Cva6.Csr

open Cva6.Riscv Cva6.Sync

/-! ## The rule -/

def Regs.xtvec (q : Regs) (lvl : PrivLvl) : XLen :=
  if lvl = privLvlS then q.stvec else q.mtvec

def Regs.otherTvec (q : Regs) (lvl : PrivLvl) : XLen :=
  if lvl = privLvlS then q.mtvec else q.stvec

def tvecBase (tvec : XLen) : XLen :=
  tvec.extractLsb' 2 30 ++ 0#2

def isVectored (tvec : XLen) : Bool :=
  tvec.getLsbD 0

def isInterrupt (cause : XLen) : Bool :=
  cause.getLsbD 31

def causeCode (cause : XLen) : XLen :=
  (cause.extractLsb' 0 31).setWidth 32

/-- Where a trap to the level of `tvec` must go. -/
def vectorOf (tvec cause : XLen) : XLen :=
  if isInterrupt cause && isVectored tvec then tvecBase tvec + 4 * causeCode cause
  else tvecBase tvec

/-- The base is aligned to 256 bytes and the code has six bits (of the bits of the code the last
one does not reach the address). -/
def Aligned (tvec cause : XLen) : Prop :=
  tvec.extractLsb' 2 6 = 0 ∧ cause.extractLsb' 6 24 = 0

/-- When the concatenation gives the vector: an interrupt to a vectored level finds its base
aligned; one to a direct level finds the other level direct too, or its base already holds the
code. -/
def VectorOk (tvec other cause : XLen) : Prop :=
  isInterrupt cause = true →
    if isVectored tvec then Aligned tvec cause
    else isVectored other = true → tvec.extractLsb' 2 6 = cause.extractLsb' 0 6

/-! ## The concatenation -/

def withCode (base cause : XLen) : XLen :=
  base.extractLsb' 8 24 ++ cause.extractLsb' 0 6 ++ base.extractLsb' 0 2

theorem toNat_tvecBase (tvec : XLen) : (tvecBase tvec).toNat = tvec.toNat / 4 * 4 := by
  have hlt := tvec.isLt
  rw [tvecBase, BitVec.toNat_append, ← Nat.shiftLeft_add_eq_or_of_lt (BitVec.isLt _),
    Nat.shiftLeft_eq, BitVec.extractLsb'_toNat, Nat.shiftRight_eq_div_pow]
  show tvec.toNat / 2 ^ 2 % 2 ^ 30 * 2 ^ 2 + 0 = tvec.toNat / 4 * 4
  omega

theorem toNat_withCode (base cause : XLen) : (withCode base cause).toNat =
    base.toNat / 256 * 256 + cause.toNat % 64 * 4 + base.toNat % 4 := by
  have hlt := base.isLt
  rw [withCode, BitVec.toNat_append, ← Nat.shiftLeft_add_eq_or_of_lt (BitVec.isLt _),
    BitVec.toNat_append, ← Nat.shiftLeft_add_eq_or_of_lt (BitVec.isLt _)]
  simp only [Nat.shiftLeft_eq, BitVec.extractLsb'_toNat, Nat.shiftRight_eq_div_pow]
  omega

theorem toNat_causeCode (cause : XLen) : (causeCode cause).toNat = cause.toNat % 2 ^ 31 := by
  rw [causeCode, BitVec.toNat_setWidth, BitVec.extractLsb'_toNat, Nat.shiftRight_zero]
  omega

theorem extractLsb'_eq_iff (x y : XLen) (i j w : Nat) : x.extractLsb' i w = y.extractLsb' j w ↔
    x.toNat / 2 ^ i % 2 ^ w = y.toNat / 2 ^ j % 2 ^ w := by
  rw [← BitVec.toNat_inj, BitVec.extractLsb'_toNat, BitVec.extractLsb'_toNat,
    Nat.shiftRight_eq_div_pow, Nat.shiftRight_eq_div_pow]

theorem extractLsb'_eq_zero_iff (x : XLen) (i w : Nat) : x.extractLsb' i w = 0 ↔
    x.toNat / 2 ^ i % 2 ^ w = 0 := by
  rw [← BitVec.toNat_inj, BitVec.extractLsb'_toNat, Nat.shiftRight_eq_div_pow]
  exact Iff.rfl

theorem withCode_eq_base_iff (tvec cause : XLen) :
    withCode (tvecBase tvec) cause = tvecBase tvec ↔
      tvec.extractLsb' 2 6 = cause.extractLsb' 0 6 := by
  rw [extractLsb'_eq_iff, ← BitVec.toNat_inj, toNat_withCode, toNat_tvecBase]
  omega

theorem withCode_eq_sum_iff (tvec cause : XLen) :
    withCode (tvecBase tvec) cause = tvecBase tvec + 4 * causeCode cause ↔
      Aligned tvec cause := by
  have htvec := tvec.isLt
  have hcause := cause.isLt
  have hsum : (tvecBase tvec + 4 * causeCode cause).toNat =
      (tvec.toNat / 4 * 4 + 4 * (cause.toNat % 2 ^ 31)) % 2 ^ 32 := by
    rw [BitVec.toNat_add, BitVec.toNat_mul, toNat_tvecBase, toNat_causeCode]
    show (tvec.toNat / 4 * 4 + 4 * (cause.toNat % 2 ^ 31) % 2 ^ 32) % 2 ^ 32 = _
    omega
  rw [Aligned, extractLsb'_eq_zero_iff, extractLsb'_eq_zero_iff, ← BitVec.toNat_inj, hsum,
    toNat_withCode, toNat_tvecBase]
  omega

/-! ## The vector -/

variable {q : Regs} {p : Platform} {r : Retire}

theorem trapVectorBase_eq (h : takesTrap q r = true) : trapVectorBase q p r =
    if (isVectored q.mtvec || isVectored q.stvec) && isInterrupt r.ex.cause then
      withCode (tvecBase (q.xtvec (trapToPrivLvl q r))) r.ex.cause
    else tvecBase (q.xtvec (trapToPrivLvl q r)) := by
  have hdebug : q.debugMode = false := by
    simp only [takesTrap, Bool.and_eq_true, Bool.not_eq_true'] at h
    exact h.1.1
  have hbase : (if trapToPrivLvl q r == privLvlS then q.stvec.extractLsb' 2 30 ++ 0#2
      else q.mtvec.extractLsb' 2 30 ++ 0#2) = tvecBase (q.xtvec (trapToPrivLvl q r)) := by
    rcases trapToPrivLvl_cases q r with hlvl | hlvl <;> rw [hlvl] <;> rfl
  unfold trapVectorBase
  simp only [hdebug, Bool.false_eq_true, if_false]
  rw [hbase]
  rfl

/-- A trap goes to the vector of its level exactly when the concatenation is the sum and the
other level's mode does not matter. -/
theorem trapVector_iff (h : takesTrap q r = true) :
    trapVectorBase q p r = vectorOf (q.xtvec (trapToPrivLvl q r)) r.ex.cause ↔
      VectorOk (q.xtvec (trapToPrivLvl q r)) (q.otherTvec (trapToPrivLvl q r)) r.ex.cause := by
  have hboth : (isVectored q.mtvec || isVectored q.stvec) =
      (isVectored (q.xtvec (trapToPrivLvl q r)) || isVectored (q.otherTvec (trapToPrivLvl q r))) := by
    rcases trapToPrivLvl_cases q r with hlvl | hlvl
    · rw [hlvl]
      exact Bool.or_comm _ _
    · rw [hlvl]
      rfl
  rw [trapVectorBase_eq h, hboth, vectorOf, VectorOk]
  generalize q.xtvec (trapToPrivLvl q r) = tvec
  generalize q.otherTvec (trapToPrivLvl q r) = other
  cases isInterrupt r.ex.cause with
  | false => simp
  | true =>
      cases isVectored tvec with
      | true => simpa using withCode_eq_sum_iff tvec r.ex.cause
      | false =>
          cases isVectored other with
          | true => simpa using withCode_eq_base_iff tvec r.ex.cause
          | false => simp

def raised (cause : XLen) : Retire :=
  { (default : Retire) with ex := ⟨cause, 0, true⟩ }

/-- An exception to a direct level, the other level being vectored. -/
theorem trapVector_exception :
    let q := { Regs.reset with mtvec := 0x1000, stvec := 0x2001 }
    takesTrap q (raised illegalInstr) = true ∧
      trapVectorBase q default (raised illegalInstr) =
        vectorOf (q.xtvec (trapToPrivLvl q (raised illegalInstr))) illegalInstr := by
  intro q
  have htrap : takesTrap q (raised illegalInstr) = true := by decide
  refine ⟨htrap, (trapVector_iff (p := default) htrap).mpr ?_⟩
  intro hirq
  exact absurd hirq (by decide)

/-- Firmware makes the supervisor's vector a vectored one and leaves the machine's direct. A timer
interrupt taken to machine mode then goes to 28, and the base of `mtvec` is 64. -/
theorem timer_misses_mtvec :
    let q := csrRegfile.run [csrWriteCycle 0x105 1]
    takesTrap q (raised 0x80000007) = true ∧
      trapToPrivLvl q (raised 0x80000007) = privLvlM ∧ isVectored q.mtvec = false ∧
      tvecBase q.mtvec = 64 ∧ trapVectorBase q default (raised 0x80000007) = 28 ∧
      trapVectorBase q default (raised 0x80000007) ≠
        vectorOf (q.xtvec (trapToPrivLvl q (raised 0x80000007))) 0x80000007 := by
  decide +kernel

/-! ## What the writes establish -/

/-- In vectored mode the base is aligned to 256 bytes. -/
def TvecAligned (tvec : XLen) : Prop :=
  isVectored tvec = true → tvec.extractLsb' 2 6 = 0

theorem mtvecValue_aligned (wdata : XLen) : TvecAligned (mtvecValue wdata) := by
  unfold TvecAligned mtvecValue
  split
  · intro _
    rw [extractLsb'_eq_zero_iff]
    rw [BitVec.toNat_append, ← Nat.shiftLeft_add_eq_or_of_lt (BitVec.isLt _), BitVec.toNat_append,
      ← Nat.shiftLeft_add_eq_or_of_lt (BitVec.isLt _), Nat.shiftLeft_eq, Nat.shiftLeft_eq]
    have hmode := (wdata.extractLsb' 0 1).isLt
    have hzero : (0#7).toNat = 0 := rfl
    omega
  · rename_i hmode
    intro hvec
    refine absurd ?_ hmode
    rw [isVectored, tvec, getLsbD_append_low (by decide), BitVec.getLsbD_extractLsb'] at hvec
    simpa using hvec

theorem csrNext_mtvec (q : Regs) (p : Platform) (a : Access) (r : Retire) :
    (csrNext q p a r).mtvec = (written q p a r).mtvec :=
  congrArg Settings.mtvec (csrNext_settings q p a r)

theorem written_mtvec (q : Regs) (p : Platform) (a : Access) (r : Retire) :
    (written q p a r).mtvec =
      if writesReg q a .mtvec then mtvecValue (csrWdata q p a)
      else if q.mtvecRstLoad then p.bootAddr + 0x40 else q.mtvec := by
  have hidle : (counters q p r).d.mtvec =
      if q.mtvecRstLoad then p.bootAddr + 0x40 else q.mtvec := rfl
  rw [← hidle]
  unfold written writeBlock writesReg
  cases (strobes q a).csrWe with
  | false => rfl
  | true =>
      simp only [↓reduceIte, Bool.true_and]
      cases CsrReg.ofAddr a.csrAddr with
      | none => rfl
      | some reg =>
          cases reg <;>
            simp [writeReg, writeFcsr, apply_ite Update.d, apply_ite Regs.mtvec]

/-- Started at an even address, the core never has a vectored `mtvec` that is not aligned. -/
theorem mtvec_aligned (ins : List Cycle)
    (h : csrRegfile.Throughout (fun _ c => c.platform.bootAddr.getLsbD 0 = false) ins) :
    TvecAligned (csrRegfile.run ins).mtvec := by
  refine Machine.invariant (m := csrRegfile) (I := fun q => TvecAligned q.mtvec) ?_ ?_ ins h
  · intro hvec
    exact absurd hvec (by decide)
  · intro q c hq hboot
    show TvecAligned (csrNext q c.platform c.access c.retire).mtvec
    rw [csrNext_mtvec, written_mtvec]
    split_ifs
    · exact mtvecValue_aligned _
    · intro hvec
      have hsum : (c.platform.bootAddr + 0x40).getLsbD 0 = c.platform.bootAddr.getLsbD 0 := by
        rw [BitVec.getLsbD_add (by decide)]
        simp
      rw [isVectored, hsum, hboot] at hvec
      exact absurd hvec (by decide)
    · exact hq

/-- An interrupt to the machine level in vectored mode goes where it must. -/
theorem machine_vectored (h : takesTrap q r = true) (hlvl : trapToPrivLvl q r = privLvlM)
    (halign : TvecAligned q.mtvec) (hvec : isVectored q.mtvec = true)
    (hcode : r.ex.cause.extractLsb' 6 24 = 0) :
    trapVectorBase q p r = vectorOf q.mtvec r.ex.cause := by
  have hx : q.xtvec (trapToPrivLvl q r) = q.mtvec := by
    rw [hlvl]
    rfl
  rw [trapVector_iff h |>.mpr, hx]
  intro _
  rw [hx, if_pos hvec]
  exact ⟨halign hvec, hcode⟩

end Cva6.Csr
