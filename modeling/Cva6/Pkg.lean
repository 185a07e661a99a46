import Mathlib.Data.BitVec
/-!
# Shared types

The types of `ariane_pkg.sv` that travel between the pipeline stages, for the
configuration the repository builds: 32-bit registers, virtual and physical
addresses (`XLEN = VLEN = PLEN = 32`), no floating-point unit
(`FP_PRESENT = 0`), atomics enabled (`RVA = 1`), an eight-entry scoreboard
(`TRANS_ID_BITS = 3`) and two commit ports.
-/

namespace Cva6

abbrev XLen := BitVec 32

/-- A transaction identifier, the index of a scoreboard entry. -/
abbrev TransId := BitVec 3

/-- A register address of `REG_ADDR_SIZE` bits. Bit 5 is used by `re_name`. -/
abbrev RegAddr := BitVec 6

/-! The numerals of the index types `Fin 2`, `Fin 4`, `Fin 8` and `Fin 16`. -/

instance neZero_two : NeZero 2 := ⟨Nat.succ_ne_zero 1⟩
instance neZero_four : NeZero 4 := ⟨Nat.succ_ne_zero 3⟩
instance neZero_eight : NeZero 8 := ⟨Nat.succ_ne_zero 7⟩
instance neZero_sixteen : NeZero 16 := ⟨Nat.succ_ne_zero 15⟩

/-- `fu_t`: the functional unit an instruction is sent to. -/
inductive Fu where
  | NONE | LOAD | STORE | ALU | CTRL_FLOW | MULT | CSR | FPU | FPU_VEC
  deriving DecidableEq, Repr, Inhabited

/-- `fu_op`: the operation a functional unit performs. -/
inductive FuOp where
  | ADD | SUB | ADDW | SUBW
  | XORL | ORL | ANDL
  | SRA | SRL | SLL | SRLW | SLLW | SRAW
  | LTS | LTU | GES | GEU | EQ | NE
  | JAL | JALR | BRANCH
  | SLTS | SLTU
  | MRET | SRET | DRET | ECALL | WFI | FENCE | FENCE_I | SFENCE_VMA
  | CSR_WRITE | CSR_READ | CSR_SET | CSR_CLEAR
  | LD | SD | LW | LWU | SW | LH | LHU | SH | LB | SB | LBU
  | AMO_LRW | AMO_LRD | AMO_SCW | AMO_SCD
  | AMO_SWAPW | AMO_ADDW | AMO_ANDW | AMO_ORW | AMO_XORW
  | AMO_MAXW | AMO_MAXWU | AMO_MINW | AMO_MINWU
  | AMO_SWAPD | AMO_ADDD | AMO_ANDD | AMO_ORD | AMO_XORD
  | AMO_MAXD | AMO_MAXDU | AMO_MIND | AMO_MINDU
  | MUL | MULH | MULHU | MULHSU | MULW
  | DIV | DIVU | DIVW | DIVUW | REM | REMU | REMW | REMUW
  | FLD | FLW | FLH | FLB | FSD | FSW | FSH | FSB
  | FADD | FSUB | FMUL | FDIV | FMIN_MAX | FSQRT | FMADD | FMSUB | FNMSUB | FNMADD
  | FCVT_F2I | FCVT_I2F | FCVT_F2F | FSGNJ | FMV_F2X | FMV_X2F
  | FCMP
  | FCLASS
  | VFMIN | VFMAX | VFSGNJ | VFSGNJN | VFSGNJX | VFEQ | VFNE | VFLT | VFGE | VFLE | VFGT
  | VFCPKAB_S | VFCPKCD_S | VFCPKAB_D | VFCPKCD_D
  deriving DecidableEq, Repr, Inhabited

/-- `is_amo`: the operations from `AMO_LRW` to `AMO_MINDU`. -/
def isAmo : FuOp → Bool
  | .AMO_LRW | .AMO_LRD | .AMO_SCW | .AMO_SCD => true
  | .AMO_SWAPW | .AMO_ADDW | .AMO_ANDW | .AMO_ORW | .AMO_XORW => true
  | .AMO_MAXW | .AMO_MAXWU | .AMO_MINW | .AMO_MINWU => true
  | .AMO_SWAPD | .AMO_ADDD | .AMO_ANDD | .AMO_ORD | .AMO_XORD => true
  | .AMO_MAXD | .AMO_MAXDU | .AMO_MIND | .AMO_MINDU => true
  | _ => false

def isFence (op : FuOp) : Bool :=
  op == .SFENCE_VMA || op == .FENCE || op == .FENCE_I

/-- `op_is_branch`: the conditional branches. -/
def opIsBranch : FuOp → Bool
  | .EQ | .NE | .LTS | .GES | .LTU | .GEU => true
  | _ => false

/-- `is_rd_fpr`, which is constantly false when `FP_PRESENT` is 0. -/
def isRdFpr (_op : FuOp) : Bool := false

structure Exception where
  cause : XLen
  tval : XLen
  valid : Bool
  deriving DecidableEq, Repr

instance : Inhabited Exception := ⟨⟨0, 0, false⟩⟩

/-- `cf_t`: the kinds of predicted control flow. -/
inductive Cf where
  | NoCF | Branch | Jump | JumpR | Return
  deriving DecidableEq, Repr, Inhabited

structure BranchpredictSbe where
  cf : Cf
  predictAddress : XLen
  deriving DecidableEq, Repr

instance : Inhabited BranchpredictSbe := ⟨⟨.NoCF, 0⟩⟩

structure BpResolve where
  valid : Bool
  pc : XLen
  targetAddress : XLen
  isMispredict : Bool
  isTaken : Bool
  cfType : Cf
  deriving DecidableEq, Repr, Inhabited

structure ScoreboardEntry where
  pc : XLen
  transId : TransId
  fu : Fu
  op : FuOp
  rs1 : RegAddr
  rs2 : RegAddr
  rd : RegAddr
  /-- The immediate until the instruction is written back, its result after. -/
  result : XLen
  valid : Bool
  useImm : Bool
  useZimm : Bool
  usePc : Bool
  ex : Exception
  bp : BranchpredictSbe
  isCompressed : Bool
  deriving DecidableEq, Repr

/-- The all-zero entry, the contents of a scoreboard slot after reset. -/
instance : Inhabited ScoreboardEntry where
  default :=
    { pc := 0, transId := 0, fu := .NONE, op := .ADD, rs1 := 0, rs2 := 0, rd := 0,
      result := 0, valid := false, useImm := false, useZimm := false, usePc := false,
      ex := default, bp := default, isCompressed := false }

structure AmoResp where
  ack : Bool
  result : BitVec 64
  deriving DecidableEq, Repr

instance : Inhabited AmoResp := ⟨⟨false, 0⟩⟩

structure CommitPorts where
  instr0 : ScoreboardEntry
  instr1 : ScoreboardEntry
  deriving DecidableEq, Repr, Inhabited

/-- `commit_ack`, one bit per commit port. -/
@[ext] structure CommitAck where
  ack0 : Bool
  ack1 : Bool
  deriving DecidableEq, Repr, Inhabited

/-- Acknowledgements the commit stage can produce: the second port is only
acknowledged together with the first. -/
def CommitAck.Legal (a : CommitAck) : Prop :=
  a.ack1 = true → a.ack0 = true

instance (a : CommitAck) : Decidable a.Legal :=
  inferInstanceAs (Decidable (_ → _))

def acknowledged (ports : CommitPorts) (a : CommitAck) : List ScoreboardEntry :=
  (if a.ack0 then [ports.instr0] else []) ++ (if a.ack1 then [ports.instr1] else [])

end Cva6
