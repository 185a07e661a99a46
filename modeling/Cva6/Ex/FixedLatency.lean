import Cva6.Alu
import Cva6.Issue.ReadOperands
import Cva6.Mult.Values
import Cva6.Sync.Schedule
/-!
# The fixed-latency units

`issue_read_operands.sv` in front of the fixed-latency part of `ex_stage.sv`: the ALU, the
branch unit, the buffer for the addresses of CSR instructions (`csr_buffer.sv`) and the
multiplication and division unit share one write port into the scoreboard. The rest of the
core is the environment.
-/

namespace Cva6.Ex

open Cva6.Sync Cva6.Issue

/-! ## The CSR buffer -/

structure CsrBuffer where
  csrAddress : BitVec 12
  valid : Bool
  deriving DecidableEq, Repr, Inhabited

namespace CsrBuffer

variable (q : CsrBuffer) (csrValid csrCommit : Bool)

def ready : Bool := !((q.valid || csrValid) && !csrCommit)

def next (operandB : XLen) (flush : Bool) : CsrBuffer where
  csrAddress := if csrValid then operandB.extractLsb' 0 12 else q.csrAddress
  valid :=
    if flush then false
    else if csrCommit && !csrValid then false
    else if csrValid then true
    else q.valid

end CsrBuffer

/-! ## The stage -/

structure Input where
  /-- The inputs of the issue stage, where `fluReady` is left to the units. -/
  issue : ReadOperands.Input
  /-- `flush_i` of the execute stage. -/
  flush : Bool
  csrCommit : Bool

structure State where
  iro : ReadOperands.Regs
  csr : CsrBuffer
  mult : Mult.State

structure WriteBack where
  transId : TransId
  result : XLen
  /-- The exception, if it is valid. -/
  exception : Option Exception
  deriving DecidableEq, Repr, Inhabited

def raised (ex : Exception) : Option Exception := if ex.valid then some ex else none

section Units

variable (q : ReadOperands.Regs)

def fuData : BranchUnit.FuData := ⟨q.operator, q.operandA, q.operandB, q.imm⟩

/-- `alu_data`: the operands are silenced for the other units. -/
def aluData : BranchUnit.FuData :=
  if q.aluValid || q.branchValid then fuData q else ⟨.ADD, 0, 0, 0⟩

def branchIn : BranchUnit.Input where
  fuData := fuData q
  pc := q.pc
  isCompressedInstr := q.isCompressedInstr
  branchValid := q.branchValid
  branchCompRes := Alu.aluBranchRes (aluData q)
  branchPredict := q.branchPredict

def multIn (flush : Bool) : Mult.Input :=
  if q.multValid then ⟨q.operator, q.operandA, q.operandB, q.transId, true, flush⟩
  else ⟨.ADD, 0, 0, 0, false, flush⟩

end Units

variable (s : State) (i : Input)

def multValid : Bool := Mult.multValidO s.mult (multIn s.iro i.flush)

def fluValid : Bool :=
  s.iro.aluValid || s.iro.branchValid || s.iro.csrValid || multValid s i

def fluResult : XLen :=
  if s.iro.aluValid then Alu.result (aluData s.iro)
  else if s.iro.csrValid then s.iro.operandA
  else if multValid s i then Mult.result s.mult
  else BranchUnit.branchResult (branchIn s.iro)

def fluTransId : TransId :=
  if s.iro.aluValid then s.iro.transId
  else if s.iro.csrValid then s.iro.transId
  else if multValid s i then Mult.multTransId s.mult
  else s.iro.transId

def fluException : Exception := BranchUnit.branchException (branchIn s.iro)

def fluReady : Bool :=
  s.csr.ready s.iro.csrValid i.csrCommit && Mult.multReady s.mult (multIn s.iro i.flush)

def iroIn : ReadOperands.Input := { i.issue with fluReady := fluReady s i }

def ex : Machine State Input where
  init := ⟨ReadOperands.reset, ⟨0, false⟩, Mult.mult.init⟩
  next s i :=
    { iro := ReadOperands.next s.iro (iroIn s i)
      csr := s.csr.next s.iro.csrValid i.csrCommit s.iro.operandB i.flush
      mult := Mult.mult.next s.mult (multIn s.iro i.flush) }

/-! ## The write port -/

def written : List WriteBack :=
  if fluValid s i then [⟨fluTransId s i, fluResult s i, raised (fluException s)⟩] else []

/-- The results of the units that need the port in a cycle. -/
def needs : List WriteBack :=
  (if s.iro.aluValid then [⟨s.iro.transId, Alu.result (fuData s.iro), none⟩] else []) ++
    (if s.iro.branchValid then
      [⟨s.iro.transId, BranchUnit.branchResult (branchIn s.iro), raised (fluException s)⟩]
    else []) ++
    (if s.iro.csrValid then [⟨s.iro.transId, s.iro.operandA, none⟩] else []) ++
    (if s.mult.mul.multValid then
      [⟨s.mult.mul.transId, Mult.Multiplier.result s.mult.mul, none⟩]
    else []) ++
    (if Mult.divValid s.mult (multIn s.iro i.flush) then
      [⟨s.mult.div.id, Mult.Serdiv.resO s.mult.div, none⟩]
    else [])

def isFlu : Fu → Bool
  | .ALU | .CTRL_FLOW | .CSR | .MULT => true
  | _ => false

/-- What the unit of an issued instruction answers to its operands. -/
def ownResult (q : ReadOperands.Regs) : WriteBack :=
  match q.fu with
  | .ALU => ⟨q.transId, Alu.result (fuData q), none⟩
  | .CTRL_FLOW =>
      let i : BranchUnit.Input :=
        ⟨fuData q, q.pc, q.isCompressedInstr, true, Alu.aluBranchRes (fuData q), q.branchPredict⟩
      ⟨q.transId, BranchUnit.branchResult i, raised (BranchUnit.branchException i)⟩
  | .CSR => ⟨q.transId, q.operandA, none⟩
  | _ => ⟨q.transId, Mult.value q.operator q.operandA q.operandB, none⟩

/-- An instruction is given to one of the units. An excepted one is not, and neither is one
that is flushed as it is issued. -/
def issues : Bool :=
  let e := i.issue.issueInstr
  !e.ex.valid && i.issue.issueInstrValid && ReadOperands.issueAck s.iro (iroIn s i) &&
    !i.issue.flush && isFlu e.fu

def issued : List WriteBack :=
  if issues s i then [ownResult (ReadOperands.next s.iro (iroIn s i))] else []

/-- What happens at the port: the result of an instruction is owed from its issue on, and a
flush of the execute stage drops what is still owed. -/
def portEvents : List (Schedule.Event WriteBack) := Machine.portEvents Input.flush written issued s i

/-- The decoder sends operators to the multiplication and division unit that have a result. -/
def Legal : Prop :=
  i.issue.issueInstr.ex.valid = false → i.issue.issueInstr.fu = .MULT →
    Mult.isDefined i.issue.issueInstr.op = true

instance : Decidable (Legal i) := inferInstanceAs (Decidable (_ → _ → _))

end Cva6.Ex
