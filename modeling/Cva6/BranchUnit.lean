import Cva6.Riscv
/-!
# Branch resolution

`branch_unit.sv`, and the comparison of `alu.sv` it is given. What a control-flow
instruction should do is stated beside it.
-/

namespace Cva6.BranchUnit

/-- The fields of `fu_data_t` the unit reads. -/
structure FuData where
  operator : FuOp
  operandA : XLen
  operandB : XLen
  imm : XLen
  deriving DecidableEq, Repr, Inhabited

/-! ## The comparison -/

variable (d : FuData)

/-- `adder_z_flag` for the operators that subtract. -/
def adderZFlag : Bool := d.operandA + ~~~d.operandB + 1 == 0

/-- `sgn`, for the operators that reach the unit. -/
def sgn : Bool := d.operator == .SLTS || d.operator == .LTS || d.operator == .GES

def extended (x : XLen) : BitVec 33 := BitVec.ofBool (sgn d && x.getLsbD 31) ++ x

def less : Bool := (extended d d.operandA).slt (extended d d.operandB)

def aluBranchRes : Bool :=
  match d.operator with
  | .EQ => adderZFlag d
  | .NE => !adderZFlag d
  | .LTS | .LTU => less d
  | .GES | .GEU => !less d
  | _ => true

/-! ## The unit -/

structure Input where
  fuData : FuData
  pc : XLen
  isCompressedInstr : Bool
  branchValid : Bool
  branchCompRes : Bool
  branchPredict : BranchpredictSbe
  deriving DecidableEq, Repr, Inhabited

variable (i : Input)

def jumpBase : XLen := if i.fuData.operator = .JALR then i.fuData.operandA else i.pc

def nextPc : XLen := i.pc + if i.isCompressedInstr then 2 else 4

def even (a : XLen) : XLen := a &&& ~~~1

def targetAddress : XLen :=
  let t := jumpBase i + i.fuData.imm
  if i.fuData.operator = .JALR then even t else t

def branchMispredict : Bool :=
  opIsBranch i.fuData.operator && i.branchCompRes != (i.branchPredict.cf == .Branch)

def jalrMispredict : Bool :=
  i.fuData.operator == .JALR &&
    (i.branchPredict.cf == .NoCF || targetAddress i != i.branchPredict.predictAddress)

def resolvedBranch : BpResolve where
  valid := i.branchValid
  pc := i.pc
  targetAddress :=
    if i.branchValid then if i.branchCompRes then targetAddress i else nextPc i else 0
  isMispredict := i.branchValid && (branchMispredict i || jalrMispredict i)
  isTaken := i.branchValid && i.branchCompRes
  cfType :=
    if i.branchValid && jalrMispredict i && i.branchPredict.cf != .Return then .JumpR
    else if i.branchValid && branchMispredict i then .Branch
    else i.branchPredict.cf

def branchResult : XLen := nextPc i

def branchException : Exception where
  cause := Riscv.instrAddrMisaligned
  tval := i.pc
  valid := i.branchValid && (targetAddress i).getLsbD 0

/-! ## What an instruction should do -/

/-- The condition of a branch; a jump is always taken. -/
def taken (op : FuOp) (a b : XLen) : Bool :=
  match op with
  | .EQ => a == b
  | .NE => a != b
  | .LTS => a.slt b
  | .GES => !a.slt b
  | .LTU => a.ult b
  | .GEU => !a.ult b
  | _ => true

/-- Where the program goes on after a decoded instruction that does not trap, with the
values of its source registers. Returns from traps are redirected when they commit. -/
def realSuccessor (e : ScoreboardEntry) (a b : XLen) : XLen :=
  let sequential := e.pc + if e.isCompressed then 2 else 4
  if e.fu = .CTRL_FLOW then
    match e.op with
    | .JAL => e.pc + e.result
    | .JALR => even (a + e.result)
    | op => if taken op a b then e.pc + e.result else sequential
  else sequential

theorem adderZFlag_iff : adderZFlag d = true ↔ d.operandA = d.operandB := by
  have hneg : d.operandA + ~~~d.operandB + 1 = d.operandA - d.operandB := by
    rw [BitVec.add_assoc, BitVec.sub_eq_add_neg, BitVec.neg_eq_not_add]
    rfl
  rw [adderZFlag, hneg, beq_iff_eq]
  constructor
  · intro h
    rw [← BitVec.sub_add_cancel d.operandA d.operandB, h]
    exact BitVec.zero_add _
  · intro h
    rw [h, BitVec.sub_self]
    rfl

theorem toInt_extended (x : XLen) :
    (extended d x).toInt = if sgn d then x.toInt else x.toNat := by
  have hlt := x.isLt
  have hmsb : x.getLsbD 31 = decide (2 ^ 31 ≤ x.toNat) := by
    rw [← BitVec.msb_eq_getLsbD_last x, BitVec.msb_eq_decide]
  rw [extended, BitVec.toInt_append, hmsb]
  cases sgn d with
  | false => simp
  | true =>
      have hx := BitVec.toInt_eq_toNat_cond x
      by_cases h : 2 ^ 31 ≤ x.toNat
      · rw [if_neg (by omega)] at hx
        rw [decide_eq_true h, hx]
        simp
        omega
      · rw [if_pos (by omega)] at hx
        rw [decide_eq_false h, hx]
        simp

theorem less_eq : less d =
    if sgn d then d.operandA.slt d.operandB else d.operandA.ult d.operandB := by
  rw [Bool.eq_iff_iff, less, BitVec.slt_iff_toInt_lt, toInt_extended, toInt_extended]
  cases sgn d with
  | false => simp [BitVec.ult_iff_toNat_lt]
  | true => simp [BitVec.slt_iff_toInt_lt]

theorem aluBranchRes_eq : aluBranchRes d = taken d.operator d.operandA d.operandB := by
  have hz : adderZFlag d = (d.operandA == d.operandB) := by
    rw [Bool.eq_iff_iff, adderZFlag_iff, beq_iff_eq]
  have hl := less_eq d
  unfold aluBranchRes taken
  split <;> simp_all [sgn, bne]

/-! ## Accepted predictions -/

variable {i}

theorem jalr_accepted (hv : i.branchValid = true) (hop : i.fuData.operator = .JALR)
    (h : (resolvedBranch i).isMispredict = false) :
    i.branchPredict.cf ≠ .NoCF ∧
      even (i.fuData.operandA + i.fuData.imm) = i.branchPredict.predictAddress := by
  have htarget : targetAddress i = even (i.fuData.operandA + i.fuData.imm) := by
    simp [targetAddress, jumpBase, hop]
  rw [← htarget]
  simpa [resolvedBranch, hv, jalrMispredict, hop, branchMispredict, opIsBranch] using h

theorem branch_accepted (hv : i.branchValid = true) (hop : opIsBranch i.fuData.operator = true)
    (h : (resolvedBranch i).isMispredict = false) :
    i.branchCompRes = (i.branchPredict.cf == .Branch) := by
  simp only [resolvedBranch, hv, branchMispredict, hop, Bool.true_and, Bool.or_eq_false_iff] at h
  simpa using h.1

end Cva6.BranchUnit
