import Cva6.BranchUnit
import Cva6.Decoder
/-!
# The arithmetic logic unit

`alu.sv` for `XLEN = 32`: one adder, one comparator and one right shifter, which bit
reversal turns into a left shifter. The word operators of the 64-bit configuration are
kept. What the base instruction set defines for an operator is stated beside the unit.
-/

namespace Cva6.Alu

open Cva6.BranchUnit (FuData sgn less)

variable (d : FuData)

/-! ## The adder -/

def adderOpBNegate : Bool :=
  match d.operator with
  | .EQ | .NE | .SUB | .SUBW => true
  | _ => false

/-- The operand with a one behind it, the carry of a subtraction. -/
def adderInA : BitVec 33 := d.operandA.concat true

def adderInB : BitVec 33 :=
  d.operandB.concat false ^^^ (if adderOpBNegate d then BitVec.allOnes 33 else 0)

def adderResultExt : BitVec 34 := (adderInA d).setWidth 34 + (adderInB d).setWidth 34

def adderResult : XLen := (adderResultExt d).extractLsb' 1 32

def adderZFlag : Bool := adderResult d == 0

def aluBranchRes : Bool :=
  match d.operator with
  | .EQ => adderZFlag d
  | .NE => !adderZFlag d
  | .LTS | .LTU => less d
  | .GES | .GEU => !less d
  | _ => true

/-! ## The shifter -/

def shiftLeft : Bool := d.operator == .SLL || d.operator == .SLLW

def shiftArithmetic : Bool := d.operator == .SRA || d.operator == .SRAW

/-- `shift_op_a`, and `shift_op_a32` with it: both are 32 bits wide here. -/
def shiftOpA : XLen := if shiftLeft d then d.operandA.reverse else d.operandA

/-- `shift_op_a_64`, and `shift_op_a_32` with it. -/
def shiftOpAExt : BitVec 33 :=
  BitVec.ofBool (shiftArithmetic d && (shiftOpA d).getLsbD 31) ++ shiftOpA d

/-- The right shift by `amount`, reversed back for a left shift. -/
def shifted (amount : Nat) : XLen :=
  let result := ((shiftOpAExt d).sshiftRight amount).setWidth 32
  if shiftLeft d then result.reverse else result

/-- Six bits select the amount, as for 64-bit registers. -/
def shiftResult : XLen := shifted d (d.operandB.extractLsb' 0 6).toNat

def shiftResult32 : XLen := shifted d (d.operandB.extractLsb' 0 5).toNat

/-! ## The result -/

def result : XLen :=
  match d.operator with
  | .ANDL => d.operandA &&& d.operandB
  | .ORL => d.operandA ||| d.operandB
  | .XORL => d.operandA ^^^ d.operandB
  | .ADD | .SUB | .ADDW | .SUBW => adderResult d
  | .SLL | .SRL | .SRA => shiftResult d
  | .SLLW | .SRLW | .SRAW => shiftResult32 d
  | .SLTS | .SLTU => (BitVec.ofBool (less d)).setWidth 32
  | _ => 0

/-! ## The base instruction set -/

def shamt (b : XLen) : Nat := (b.extractLsb' 0 5).toNat

/-- The result of an operator; `none` for an operator without one. -/
def rv32i : FuOp → Option (XLen → XLen → XLen)
  | .ADD => some fun a b => a + b
  | .SUB => some fun a b => a - b
  | .ANDL => some fun a b => a &&& b
  | .ORL => some fun a b => a ||| b
  | .XORL => some fun a b => a ^^^ b
  | .SLL => some fun a b => a <<< shamt b
  | .SRL => some fun a b => a >>> shamt b
  | .SRA => some fun a b => a.sshiftRight (shamt b)
  | .SLTS => some fun a b => if a.slt b then 1 else 0
  | .SLTU => some fun a b => if a.ult b then 1 else 0
  | _ => none

def isFlow (op : FuOp) : Bool := opIsBranch op || op == .JAL || op == .JALR

/-- The unit computes what the base instruction set defines. -/
def Meets : Prop :=
  (∀ f ∈ rv32i d.operator, result d = f d.operandA d.operandB) ∧
    (isFlow d.operator = true →
      aluBranchRes d = BranchUnit.taken d.operator d.operandA d.operandB)

instance : Decidable (Meets d) := inferInstanceAs (Decidable (_ ∧ _))

/-- Bit 5 of the shift amount is clear, or the bits that the shift by the low five bits
keeps are those that are shifted in. -/
def ShiftFits (a b : XLen) : FuOp → Prop
  | .SLL => b.getLsbD 5 = false ∨ 2 ^ (32 - shamt b) ∣ a.toNat
  | .SRL => b.getLsbD 5 = false ∨ a.toNat < 2 ^ shamt b
  | .SRA => b.getLsbD 5 = false ∨ -2 ^ shamt b ≤ a.toInt ∧ a.toInt < 2 ^ shamt b
  | _ => True

/-! ## Values of the parts -/

theorem adderResult_eq : adderResult d =
    if adderOpBNegate d then d.operandA - d.operandB else d.operandA + d.operandB := by
  unfold adderResult adderResultExt adderInA adderInB
  apply BitVec.eq_of_toNat_eq
  cases adderOpBNegate d with
  | true =>
      rw [if_pos rfl, if_pos rfl, BitVec.xor_allOnes]
      simp [BitVec.toNat_concat, Nat.shiftRight_eq_div_pow]
      omega
  | false =>
      rw [if_neg Bool.false_ne_true, if_neg Bool.false_ne_true]
      simp [BitVec.toNat_concat, Nat.shiftRight_eq_div_pow]
      omega

theorem aluBranchRes_eq : aluBranchRes d = BranchUnit.aluBranchRes d := by
  have hz (hop : adderOpBNegate d = true) : adderZFlag d = BranchUnit.adderZFlag d := by
    rw [Bool.eq_iff_iff, BranchUnit.adderZFlag_iff, adderZFlag, adderResult_eq, if_pos hop,
      beq_iff_eq]
    exact sub_eq_zero
  unfold aluBranchRes BranchUnit.aluBranchRes
  split <;> simp_all [adderOpBNegate]

theorem setWidth_less : (BitVec.ofBool (less d)).setWidth 32 =
    if (if sgn d then d.operandA.slt d.operandB else d.operandA.ult d.operandB) then 1 else 0 := by
  rw [BranchUnit.less_eq]
  cases (if sgn d then d.operandA.slt d.operandB else d.operandA.ult d.operandB) <;> rfl

variable {d}

theorem shifted_right (hl : shiftLeft d = false) (n : Nat) :
    shifted d n =
      if shiftArithmetic d then d.operandA.sshiftRight n else d.operandA >>> n := by
  simp only [shifted, shiftOpAExt, shiftOpA, hl, Bool.false_eq_true, if_false]
  apply BitVec.eq_of_getLsbD_eq
  intro k hk
  have hmsb : d.operandA.msb = d.operandA.getLsbD 31 := BitVec.msb_eq_getLsbD_last _
  cases shiftArithmetic d with
  | true =>
      simp [BitVec.getLsbD_sshiftRight, hmsb]
      grind
  | false =>
      simp [BitVec.getLsbD_sshiftRight]
      grind

theorem shifted_left (hl : shiftLeft d = true) (ha : shiftArithmetic d = false) (n : Nat) :
    shifted d n = d.operandA <<< n := by
  simp only [shifted, shiftOpAExt, shiftOpA, hl, ha, Bool.false_and, if_true]
  apply BitVec.eq_of_getLsbD_eq
  intro k hk
  simp [BitVec.getLsbD_sshiftRight, BitVec.getLsbD_reverse, BitVec.getMsbD]
  grind

theorem amount_eq (b : XLen) :
    (b.extractLsb' 0 6).toNat = shamt b + if b.getLsbD 5 then 32 else 0 := by
  have hbit : b.getLsbD 5 = decide (b.toNat / 2 ^ 5 % 2 = 1) := by
    rw [BitVec.getLsbD, Nat.testBit_eq_decide_div_mod_eq]
  rw [hbit]
  simp [shamt]
  split <;> omega

theorem shamt_lt (b : XLen) : shamt b < 32 := (b.extractLsb' 0 5).isLt

/-! ## Shifts by more than a register -/

theorem shiftLeft_fits (a : XLen) {k : Nat} (hk : k < 32) :
    a <<< (k + 32) = a <<< k ↔ 2 ^ (32 - k) ∣ a.toNat := by
  have hzero : a <<< (k + 32) = 0#32 := BitVec.shiftLeft_eq_zero (by omega)
  rw [hzero, eq_comm, ← BitVec.toNat_inj, BitVec.toNat_shiftLeft, BitVec.toNat_ofNat,
    Nat.shiftLeft_eq, Nat.zero_mod, ← Nat.dvd_iff_mod_eq_zero]
  have hpow : 2 ^ 32 = 2 ^ (32 - k) * 2 ^ k := by
    rw [← Nat.pow_add, Nat.sub_add_cancel hk.le]
  rw [hpow]
  exact Nat.mul_dvd_mul_iff_right (Nat.two_pow_pos k)

theorem shiftRight_fits (a : XLen) (k : Nat) :
    a >>> (k + 32) = a >>> k ↔ a.toNat < 2 ^ k := by
  have hzero : a >>> (k + 32) = 0#32 := BitVec.ushiftRight_eq_zero (by omega)
  rw [hzero, eq_comm, ← BitVec.toNat_inj, BitVec.toNat_ushiftRight, Nat.shiftRight_eq_div_pow]
  simp

theorem sshiftRight_fits (a : XLen) (k : Nat) :
    a.sshiftRight (k + 32) = a.sshiftRight k ↔ -2 ^ k ≤ a.toInt ∧ a.toInt < 2 ^ k := by
  have hlo := BitVec.le_toInt a
  have hhi := BitVec.toInt_lt (x := a)
  have hpow : (0 : Int) < 2 ^ k := Int.pow_pos (by decide)
  -- the shift by more than a register leaves the sign
  have hsign : a.toInt / 2 ^ (k + 32) = if a.toInt < 0 then -1 else 0 := by
    have hbig : (2 : Int) ^ (k + 32) = 2 ^ k * 2 ^ 32 := pow_add 2 k 32
    split_ifs with hneg
    · rw [Int.ediv_eq_iff_of_pos (by omega)]
      omega
    · rw [Int.ediv_eq_zero_of_lt (by omega)]
      omega
  rw [← BitVec.toInt_inj, BitVec.toInt_sshiftRight, BitVec.toInt_sshiftRight,
    Int.shiftRight_eq_div_pow, Int.shiftRight_eq_div_pow]
  push_cast
  rw [hsign]
  rw [eq_comm, Int.ediv_eq_iff_of_pos hpow]
  split_ifs with hneg <;> omega

/-! ## The unit and the base instruction set -/

theorem amount_fits (f : Nat → XLen) (b : XLen) :
    f (b.extractLsb' 0 6).toNat = f (shamt b) ↔
      b.getLsbD 5 = false ∨ f (shamt b + 32) = f (shamt b) := by
  rw [amount_eq]
  cases b.getLsbD 5 <;> simp

/-- The shifter takes six bits of the amount, also for a register of 32 bits. -/
theorem result_sll_amount (hop : d.operator = .SLL) :
    result d = d.operandA <<< (d.operandB.extractLsb' 0 6).toNat := by
  rw [← shifted_left (by simp [shiftLeft, hop]) (by simp [shiftArithmetic, hop])]
  simp [result, hop, shiftResult]

theorem result_sll (hop : d.operator = .SLL) :
    result d = d.operandA <<< shamt d.operandB ↔
      ShiftFits d.operandA d.operandB d.operator := by
  rw [result_sll_amount hop, amount_fits (d.operandA <<< ·), shiftLeft_fits _ (shamt_lt _), hop]
  rfl

theorem result_srl (hop : d.operator = .SRL) :
    result d = d.operandA >>> shamt d.operandB ↔
      ShiftFits d.operandA d.operandB d.operator := by
  have hshift : result d = d.operandA >>> (d.operandB.extractLsb' 0 6).toNat := by
    have h := shifted_right (d := d) (by simp [shiftLeft, hop]) (d.operandB.extractLsb' 0 6).toNat
    rw [if_neg (by simp [shiftArithmetic, hop])] at h
    simp only [result, hop, shiftResult, h]
  rw [hshift, amount_fits (d.operandA >>> ·), shiftRight_fits, hop]
  rfl

theorem result_sra (hop : d.operator = .SRA) :
    result d = d.operandA.sshiftRight (shamt d.operandB) ↔
      ShiftFits d.operandA d.operandB d.operator := by
  have hshift : result d = d.operandA.sshiftRight (d.operandB.extractLsb' 0 6).toNat := by
    have h := shifted_right (d := d) (by simp [shiftLeft, hop]) (d.operandB.extractLsb' 0 6).toNat
    rw [if_pos (by simp [shiftArithmetic, hop])] at h
    simp only [result, hop, shiftResult, h]
  rw [hshift, amount_fits (d.operandA.sshiftRight ·), sshiftRight_fits, hop]
  rfl

theorem result_of_not_shift {f : XLen → XLen → XLen} (h : f ∈ rv32i d.operator)
    (hl : d.operator ≠ .SLL) (hr : d.operator ≠ .SRL) (ha : d.operator ≠ .SRA) :
    result d = f d.operandA d.operandB := by
  have hadd := adderResult_eq d
  have hless := setWidth_less d
  unfold rv32i at h
  split at h
  all_goals
    simp_all [result, adderOpBNegate, sgn]
    try rw [← h]

/-- For an operator with a result, only the shift amount can be wrong. -/
theorem result_eq_iff {f : XLen → XLen → XLen} (h : f ∈ rv32i d.operator) :
    result d = f d.operandA d.operandB ↔ ShiftFits d.operandA d.operandB d.operator := by
  by_cases hl : d.operator = .SLL
  · rw [← result_sll hl]
    simp only [rv32i, hl, Option.mem_some] at h
    rw [← h]
  by_cases hr : d.operator = .SRL
  · rw [← result_srl hr]
    simp only [rv32i, hr, Option.mem_some] at h
    rw [← h]
  by_cases ha : d.operator = .SRA
  · rw [← result_sra ha]
    simp only [rv32i, ha, Option.mem_some] at h
    rw [← h]
  · have hfits : ShiftFits d.operandA d.operandB d.operator := by
      unfold ShiftFits
      split <;> first | contradiction | trivial
    exact iff_of_true (result_of_not_shift h hl hr ha) hfits

theorem meets_iff : Meets d ↔ ShiftFits d.operandA d.operandB d.operator := by
  have hflow : aluBranchRes d = BranchUnit.taken d.operator d.operandA d.operandB := by
    rw [aluBranchRes_eq, BranchUnit.aluBranchRes_eq]
  constructor
  · intro h
    cases hf : rv32i d.operator with
    | some f => exact (result_eq_iff hf).mp (h.1 f hf)
    | none =>
        unfold ShiftFits
        split <;> simp_all [rv32i]
  · intro h
    exact ⟨fun f hf => (result_eq_iff hf).mpr h, fun _ => hflow⟩

/-! ## The operators of the decoder -/

def isDefined (op : FuOp) : Bool := (rv32i op).isSome || isFlow op

section Decoder

open Cva6.Decoder

theorem decodeOp_defined (w : BitVec 32) (h : opUnit w = .ALU) :
    isDefined (decodeOp w).op = true := by
  have h7 : funct7 w ≠ 0b0000001 := by
    intro h7
    simp [opUnit, h7] at h
  unfold decodeOp
  split
  · rfl
  · split <;> first | rfl | contradiction

theorem decodeOpImm_defined (w : BitVec 32) : isDefined (decodeOpImm w).op = true := by
  unfold decodeOpImm
  split
  all_goals simp only [apply_ite Decoded.op, apply_ite isDefined, ite_self]
  all_goals first | rfl | (split_ifs <;> rfl)

theorem decodeBranch_defined (w : BitVec 32) : isDefined (decodeBranch w).op = true := by
  unfold decodeBranch
  split <;> rfl

theorem decodeJalr_defined (w : BitVec 32) : isDefined (decodeJalr w).op = true := by
  unfold decodeJalr
  split <;> rfl

theorem decoder_defined (i : Decoder.Input)
    (h : (decoder i).fu = .ALU ∨ (decoder i).fu = .CTRL_FLOW) :
    isDefined (decoder i).op = true := by
  unfold decoder at h ⊢
  split_ifs at h ⊢
  · rfl
  split at h
  · simp [decodeSystem_fu] at h
  · simp [decodeMiscMem_fu] at h
  · refine decodeOp_defined _ ?_
    rcases decodeOp_fu i.instruction with hfu | hfu
    · simp [hfu] at h
    · rcases opUnit_cases i.instruction with hunit | hunit
      · exact hunit
      · simp [hfu, hunit] at h
  · rfl
  · exact decodeOpImm_defined _
  · rfl
  · simp [decodeStore_fu] at h
  · simp [decodeLoad_fu] at h
  · simp [decodeAmo_fu] at h
  · exact decodeBranch_defined _
  · exact decodeJalr_defined _
  all_goals rfl

/-- For every instruction the decoder sends to the unit and all operands, the unit computes
what the base instruction set defines if and only if the shift amount fits. -/
theorem decoded_meets_iff (i : Decoder.Input)
    (hfu : (instructionO i).fu = .ALU ∨ (instructionO i).fu = .CTRL_FLOW) (a b imm : XLen) :
    isDefined (instructionO i).op = true ∧
      (Meets ⟨(instructionO i).op, a, b, imm⟩ ↔ ShiftFits a b (instructionO i).op) :=
  ⟨decoder_defined i hfu, meets_iff⟩

/-- `sra a0, a0, a1`. -/
def sraWord : Decoder.Input := { (default : Decoder.Input) with instruction := 0x40b55533 }

/-- A register-held amount of 35 shifts -5 by 35 and not by 3, with the same result. -/
theorem sra_of_small_meets : (instructionO sraWord).op = .SRA ∧
    Meets ⟨(instructionO sraWord).op, -5, 35, 0⟩ :=
  ⟨by decide, (decoded_meets_iff sraWord (.inl (by decide)) (-5) 35 0).2.mpr
    (.inr (by decide))⟩

/-- `sll a0, a0, a1`. -/
def sllWord : Decoder.Input := { (default : Decoder.Input) with instruction := 0x00b51533 }

/-- `sll a0, a0, a1` with `a1 = 32` clears the register instead of keeping it. -/
theorem sll_by_32_clears :
    (instructionO sllWord).fu = .ALU ∧ (instructionO sllWord).op = .SLL ∧
      result ⟨(instructionO sllWord).op, 1, 32, 0⟩ = 0 ∧
        ¬Meets ⟨(instructionO sllWord).op, 1, 32, 0⟩ := by
  have hop : (instructionO sllWord).op = .SLL := by decide
  have hzero : result ⟨(instructionO sllWord).op, 1, 32, 0⟩ = 0 := by
    rw [result_sll_amount hop]
    decide
  refine ⟨by decide, hop, hzero, fun h => ?_⟩
  -- bit 5 of the amount is set, and the operand has bits that a full shift would lose
  have hfits : ShiftFits 1 32 (instructionO sllWord).op := meets_iff.mp h
  rw [hop] at hfits
  exact absurd hfits (by unfold ShiftFits; decide)

end Decoder

end Cva6.Alu
