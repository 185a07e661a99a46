import Cva6.Issue.Scoreboard
/-!
# Issue and read operands

`issue_read_operands.sv` without floating point, with the integer register file
`ariane_regfile_ff.sv` it contains, and the renaming in front of it (`re_name.sv`
with `ENABLE_RENAME = 0`).
-/

namespace Cva6.Issue.ReadOperands

/-- `re_name` cuts the register numbers to five bits. -/
def reName (e : ScoreboardEntry) : ScoreboardEntry :=
  { e with
    rs1 := (e.rs1.setWidth 5).setWidth 6
    rs2 := (e.rs2.setWidth 5).setWidth 6
    rd := (e.rd.setWidth 5).setWidth 6 }

abbrev Regfile := BitVec 5 → XLen

structure CommitWrite where
  weGpr0 : Bool
  waddr0 : BitVec 5
  wdata0 : XLen
  weGpr1 : Bool
  waddr1 : BitVec 5
  wdata1 : XLen
  deriving DecidableEq, Repr, Inhabited

/-- Port 1 is written after port 0, and register zero stays zero. -/
def regfileNext (r : Regfile) (w : CommitWrite) : Regfile := fun n =>
  if n = 0 then 0
  else if w.weGpr1 && w.waddr1 == n then w.wdata1
  else if w.weGpr0 && w.waddr0 == n then w.wdata0
  else r n

/-- The register between issue and the functional units. -/
structure Regs where
  operandA : XLen
  operandB : XLen
  imm : XLen
  fu : Fu
  operator : FuOp
  transId : TransId
  pc : XLen
  isCompressedInstr : Bool
  branchPredict : BranchpredictSbe
  aluValid : Bool
  branchValid : Bool
  multValid : Bool
  lsuValid : Bool
  csrValid : Bool
  regfile : Regfile

def reset : Regs :=
  ⟨0, 0, 0, .NONE, .ADD, 0, 0, false, default, false, false, false, false, false, fun _ => 0⟩

structure Input where
  flush : Bool
  issueInstr : ScoreboardEntry
  issueInstrValid : Bool
  /-- `rs1_i` when `rs1_valid_i`. -/
  rs1 : Option XLen
  rs2 : Option XLen
  rdClobberGpr : RegAddr → Fu
  fluReady : Bool
  lsuReady : Bool
  fpuReady : Bool
  commit : CommitWrite

variable (q : Regs) (i : Input)

def fuBusy : Bool :=
  match i.issueInstr.fu with
  | .NONE => false
  | .ALU | .CTRL_FLOW | .CSR | .MULT => !i.fluReady
  | .FPU | .FPU_VEC => !i.fpuReady
  | .LOAD | .STORE => !i.lsuReady

/-- A clobbered source can be forwarded; a CSR result cannot, except to an
`SFENCE.VMA`. -/
def forwardable (r : RegAddr) (value : Option XLen) : Bool :=
  value.isSome && (i.rdClobberGpr r != .CSR || i.issueInstr.op == .SFENCE_VMA)

def clobbered1 : Bool := !i.issueInstr.useZimm && i.rdClobberGpr i.issueInstr.rs1 != .NONE

def clobbered2 : Bool := i.rdClobberGpr i.issueInstr.rs2 != .NONE

def forwardRs1 : Bool := clobbered1 i && forwardable i i.issueInstr.rs1 i.rs1

def forwardRs2 : Bool := clobbered2 i && forwardable i i.issueInstr.rs2 i.rs2

/-- The process `operands_available`. -/
def stall : Bool :=
  (clobbered1 i && !forwardable i i.issueInstr.rs1 i.rs1) ||
    (clobbered2 i && !forwardable i i.issueInstr.rs2 i.rs2)

/-- The process `forwarding_operand_select`. -/
def operandA : XLen :=
  let a := q.regfile (i.issueInstr.rs1.setWidth 5)
  let a := if forwardRs1 i then i.rs1.getD 0 else a
  let a := if i.issueInstr.usePc then i.issueInstr.pc else a
  if i.issueInstr.useZimm then (i.issueInstr.rs1.setWidth 5).setWidth 32 else a

def operandB : XLen :=
  let b := q.regfile (i.issueInstr.rs2.setWidth 5)
  let b := if forwardRs2 i then i.rs2.getD 0 else b
  if i.issueInstr.useImm && i.issueInstr.fu != .STORE && i.issueInstr.fu != .CTRL_FLOW then
    i.issueInstr.result
  else b

/-- The destination is not written by an instruction in flight, or only by one
that is written to the register file in this cycle. -/
def wawFree : Bool :=
  i.rdClobberGpr i.issueInstr.rd == .NONE ||
    (i.commit.weGpr0 && i.commit.waddr0.setWidth 6 == i.issueInstr.rd) ||
    (i.commit.weGpr1 && i.commit.waddr1.setWidth 6 == i.issueInstr.rd)

/-- The process `issue_scoreboard`. -/
def issueAck : Bool :=
  let ack := i.issueInstrValid &&
    ((!stall i && !fuBusy i && wawFree i) || i.issueInstr.ex.valid || i.issueInstr.fu == .NONE)
  if q.multValid && i.issueInstr.fu != .MULT then false else ack

def next : Regs :=
  let valid := !i.issueInstr.ex.valid && i.issueInstrValid && issueAck q i && !i.flush
  { operandA := operandA q i
    operandB := operandB q i
    imm := i.issueInstr.result
    fu := i.issueInstr.fu
    operator := i.issueInstr.op
    transId := i.issueInstr.transId
    pc := i.issueInstr.pc
    isCompressedInstr := i.issueInstr.isCompressed
    branchPredict := i.issueInstr.bp
    aluValid := valid && i.issueInstr.fu == .ALU
    branchValid := valid && i.issueInstr.fu == .CTRL_FLOW
    multValid := valid && i.issueInstr.fu == .MULT
    lsuValid := valid && (i.issueInstr.fu == .LOAD || i.issueInstr.fu == .STORE)
    csrValid := valid && i.issueInstr.fu == .CSR
    regfile := regfileNext q.regfile i.commit }

end Cva6.Issue.ReadOperands
