import Cva6.Decoder
import Cva6.Mult.Model
/-!
# The results of the unit

What the unit answers to each operator, as a function of the operands, and the operators that
the decoder sends to it.
-/

namespace Cva6.Mult

/-! ## Products -/

def rv32mProduct (a b : XLen) : FuOp → XLen
  | .MULH => (a.signExtend 64 * b.signExtend 64).extractLsb' 32 32
  | .MULHU => (a.setWidth 64 * b.setWidth 64).extractLsb' 32 32
  | .MULHSU => (a.signExtend 64 * b.setWidth 64).extractLsb' 32 32
  | _ => a * b

namespace Multiplier

theorem toInt_extended (sign : Bool) (x : XLen) :
    (extended sign x).toInt = if sign then x.toInt else x.toNat := by
  have hlt := x.isLt
  rw [extended, BitVec.toInt_append, Serdiv.getLsbD_31]
  cases sign with
  | false => simp
  | true =>
      have hx := BitVec.toInt_eq_toNat_cond x
      by_cases h : 2 ^ 31 ≤ x.toNat
      · rw [if_neg (by omega)] at hx
        rw [decide_eq_true h, hx]
        simp
        omega
      · rw [if_pos (by omega)] at hx
        rw [decide_eq_false h, hx]
        simp

theorem signExtend_extended (sign : Bool) (x : XLen) :
    (extended sign x).signExtend 64 = if sign then x.signExtend 64 else x.setWidth 64 := by
  apply BitVec.eq_of_toInt_eq
  rw [BitVec.toInt_signExtend_of_le (by omega), toInt_extended]
  cases sign with
  | true =>
      rw [if_pos rfl, if_pos rfl, BitVec.toInt_signExtend_of_le (by omega)]
  | false =>
      have hlt := x.isLt
      rw [if_neg Bool.false_ne_true, if_neg Bool.false_ne_true, BitVec.toInt_eq_toNat_of_lt]
      · rw [BitVec.toNat_setWidth, Nat.mod_eq_of_lt (by omega)]
      · rw [BitVec.toNat_setWidth, Nat.mod_eq_of_lt (by omega)]
        omega

theorem setWidth_product (op : FuOp) (a b : XLen) : (product op a b).setWidth 32 = a * b := by
  have hlow (sign : Bool) (x : XLen) : ((extended sign x).signExtend 64).setWidth 32 = x := by
    rw [signExtend_extended]
    cases sign with
    | true =>
        apply BitVec.eq_of_getLsbD_eq
        intro k hk
        have hk' : k < 64 := by omega
        rw [if_pos rfl, BitVec.getLsbD_setWidth, BitVec.getLsbD_signExtend]
        simp [hk, hk']
    | false => simp
  rw [product, BitVec.setWidth_mul _ _ (by omega), hlow, hlow]

theorem result_next (i : Input) (valid : Bool) :
    result (next i valid) = rv32mProduct i.operandA i.operandB i.operator := by
  have hlow := setWidth_product i.operator i.operandA i.operandB
  have hhigh : product i.operator i.operandA i.operandB =
      (if signA i.operator then i.operandA.signExtend 64 else i.operandA.setWidth 64) *
        (if signB i.operator then i.operandB.signExtend 64 else i.operandB.setWidth 64) := by
    rw [product, signExtend_extended, signExtend_extended]
  unfold result next rv32mProduct
  split <;> simp_all [signA, signB]

end Multiplier

/-! ## All operators -/

def value (op : FuOp) (a b : XLen) : XLen :=
  if isMul op then rv32mProduct a b op
  else if Misaligned op a b then if isRem op then -1 else 0
  else rv32m a b op

variable {s : State} {i : Input} {n : Nat}

theorem division_not_mul {op : FuOp} (h : isDivision op = true) : isMul op = false := by
  rcases division_cases h with rfl | rfl | rfl | rfl <;> rfl

theorem mul_not_isDiv {op : FuOp} (h : isMul op = true) : isDiv op = false := by
  cases op <;> first | rfl | simp [isMul] at h

theorem Starts.computes_value (h : Starts s i) :
    Computes s i (value i.operator i.operandA i.operandB) := by
  rw [value, division_not_mul h.division, if_neg Bool.false_ne_true]
  by_cases hm : Misaligned i.operator i.operandA i.operandB
  · rw [if_pos hm]
    exact h.computes_misaligned hm
  · rw [if_neg hm]
    exact h.computes hm

theorem Starts.next_eq (h : Starts s i) : mult.next s i = mult.next mult.init i := by
  have hinit : Starts mult.init i := ⟨rfl, h.valid, h.flush, h.division⟩
  show State.mk _ (Serdiv.next s.div (divIn s i)) = State.mk _ (Serdiv.next _ (divIn mult.init i))
  rw [h.loads.next_eq, hinit.loads.next_eq]
  rfl

/-! ## The operators of the decoder -/

def isDefined (op : FuOp) : Bool := isMul op || isDivision op

section Decoder

open Cva6.Decoder

theorem decodeOp_defined (w : BitVec 32) (h : (decodeOp w).fu = .MULT) :
    isDefined (decodeOp w).op = true ∨ (decodeOp w).illegalInstr = true := by
  have h7 : funct7 w = 0b0000001 := by
    rcases decodeOp_fu w with hfu | hfu
    · simp [hfu] at h
    · unfold opUnit at hfu
      split at hfu
      · assumption
      · simp [hfu] at h
  unfold decodeOp
  split
  · exact .inr rfl
  · split <;> first | exact .inl rfl | exact .inr rfl | simp_all

theorem decoder_isDefined (i : Decoder.Input) (h : (decoder i).fu = .MULT) :
    isDefined (decoder i).op = true ∨ (decoder i).illegalInstr = true := by
  unfold decoder at h ⊢
  split_ifs at h ⊢
  · simp [Decoded.default] at h
  split at h
  · simp [decodeSystem_fu] at h
  · simp [decodeMiscMem_fu] at h
  · exact decodeOp_defined _ h
  · exact .inr rfl
  · simp [decodeOpImm_fu] at h
  · simp [decodeOpImm32] at h
  · simp [decodeStore_fu] at h
  · simp [decodeLoad_fu] at h
  · simp [decodeAmo_fu] at h
  · simp [decodeBranch_fu] at h
  · simp [decodeJalr_spec] at h
  all_goals simp [decodeJal, Decoded.default, decodeLui, decodeAuipc] at h

/-- An instruction that the decoder sends to the unit without an exception has a result. -/
theorem instructionO_isDefined (i : Decoder.Input) (hex : (instructionO i).ex.valid = false)
    (hfu : (instructionO i).fu = .MULT) : isDefined (instructionO i).op = true := by
  refine (decoder_isDefined i hfu).resolve_right ?_
  intro hill
  have hval : (instructionO i).ex.valid = true := exceptionHandling_valid i _ (.inr hill)
  simp [hval] at hex

end Decoder

end Cva6.Mult
