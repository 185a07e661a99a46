import Cva6.Riscv
/-!
# The instruction set

The instructions of RV32IMA with Zicsr, Zifencei and the privileged instructions, and their
encoding, as the opcode tables of the instruction-set manual list them. Fields the tables
print as zero are zero.
-/

namespace Cva6.Isa

abbrev Reg := BitVec 5

inductive BranchOp where
  | BEQ | BNE | BLT | BGE | BLTU | BGEU
  deriving DecidableEq, Repr

inductive LoadOp where
  | LB | LH | LW | LBU | LHU
  deriving DecidableEq, Repr

inductive StoreOp where
  | SB | SH | SW
  deriving DecidableEq, Repr

inductive ImmOp where
  | ADDI | SLTI | SLTIU | XORI | ORI | ANDI
  deriving DecidableEq, Repr

inductive ShiftOp where
  | SLLI | SRLI | SRAI
  deriving DecidableEq, Repr

inductive RegOp where
  | ADD | SUB | SLL | SLT | SLTU | XOR | SRL | SRA | OR | AND
  | MUL | MULH | MULHSU | MULHU | DIV | DIVU | REM | REMU
  deriving DecidableEq, Repr

inductive AmoOp where
  | SC | AMOSWAP | AMOADD | AMOXOR | AMOAND | AMOOR | AMOMIN | AMOMAX | AMOMINU | AMOMAXU
  deriving DecidableEq, Repr

inductive CsrOp where
  | CSRRW | CSRRS | CSRRC
  deriving DecidableEq, Repr

/-- An instruction. Branch and jump offsets count halfwords. -/
inductive Instr where
  | lui (rd : Reg) (imm : BitVec 20)
  | auipc (rd : Reg) (imm : BitVec 20)
  | jal (rd : Reg) (offset : BitVec 20)
  | jalr (rd rs1 : Reg) (imm : BitVec 12)
  | branch (op : BranchOp) (rs1 rs2 : Reg) (offset : BitVec 12)
  | load (op : LoadOp) (rd rs1 : Reg) (imm : BitVec 12)
  | store (op : StoreOp) (rs1 rs2 : Reg) (imm : BitVec 12)
  | opImm (op : ImmOp) (rd rs1 : Reg) (imm : BitVec 12)
  | shiftImm (op : ShiftOp) (rd rs1 : Reg) (shamt : BitVec 5)
  | op (op : RegOp) (rd rs1 rs2 : Reg)
  | lr (rd rs1 : Reg) (aqRl : BitVec 2)
  | amo (op : AmoOp) (rd rs1 rs2 : Reg) (aqRl : BitVec 2)
  | fence (pred succ : BitVec 4)
  | fenceI
  | csr (op : CsrOp) (rd rs1 : Reg) (csr : BitVec 12)
  | csrImm (op : CsrOp) (rd : Reg) (zimm : BitVec 5) (csr : BitVec 12)
  | ecall
  | ebreak
  | sret
  | mret
  | dret
  | wfi
  | sfenceVma (rs1 rs2 : Reg)
  deriving DecidableEq, Repr

/-! ## Formats -/

section Formats

variable (op : BitVec 7) (rd rs1 rs2 : Reg) (f3 : BitVec 3) (f7 : BitVec 7)

def rType : BitVec 32 := f7 ++ rs2 ++ rs1 ++ f3 ++ rd ++ op

def iType (imm : BitVec 12) : BitVec 32 :=
  rType op rd rs1 (imm.extractLsb' 0 5) f3 (imm.extractLsb' 5 7)

def sType (imm : BitVec 12) : BitVec 32 :=
  rType op (imm.extractLsb' 0 5) rs1 rs2 f3 (imm.extractLsb' 5 7)

/-- Bits 12, 10 to 5, 4 to 1 and 11 of the offset. -/
def bType (offset : BitVec 12) : BitVec 32 :=
  rType op (offset.extractLsb' 0 4 ++ offset.extractLsb' 10 1) rs1 rs2 f3
    (offset.extractLsb' 11 1 ++ offset.extractLsb' 4 6)

def uType (imm : BitVec 20) : BitVec 32 :=
  rType op rd (imm.extractLsb' 3 5) (imm.extractLsb' 8 5) (imm.extractLsb' 0 3)
    (imm.extractLsb' 13 7)

/-- Bits 20, 10 to 1, 11 and 19 to 12 of the offset. -/
def jType (offset : BitVec 20) : BitVec 32 :=
  rType op rd (offset.extractLsb' 14 5) (offset.extractLsb' 0 4 ++ offset.extractLsb' 10 1)
    (offset.extractLsb' 11 3) (offset.extractLsb' 19 1 ++ offset.extractLsb' 4 6)

end Formats

/-! ## Encoding -/

def BranchOp.funct3 : BranchOp → BitVec 3
  | BEQ => 0b000 | BNE => 0b001 | BLT => 0b100 | BGE => 0b101 | BLTU => 0b110 | BGEU => 0b111

def LoadOp.funct3 : LoadOp → BitVec 3
  | LB => 0b000 | LH => 0b001 | LW => 0b010 | LBU => 0b100 | LHU => 0b101

def StoreOp.funct3 : StoreOp → BitVec 3
  | SB => 0b000 | SH => 0b001 | SW => 0b010

def ImmOp.funct3 : ImmOp → BitVec 3
  | ADDI => 0b000 | SLTI => 0b010 | SLTIU => 0b011 | XORI => 0b100 | ORI => 0b110 | ANDI => 0b111

def ShiftOp.funct3 : ShiftOp → BitVec 3
  | SLLI => 0b001 | SRLI | SRAI => 0b101

def ShiftOp.funct7 : ShiftOp → BitVec 7
  | SLLI | SRLI => 0b0000000 | SRAI => 0b0100000

def RegOp.funct3 : RegOp → BitVec 3
  | ADD | SUB | MUL => 0b000
  | SLL | MULH => 0b001
  | SLT | MULHSU => 0b010
  | SLTU | MULHU => 0b011
  | XOR | DIV => 0b100
  | SRL | SRA | DIVU => 0b101
  | OR | REM => 0b110
  | AND | REMU => 0b111

def RegOp.funct7 : RegOp → BitVec 7
  | SUB | SRA => 0b0100000
  | MUL | MULH | MULHSU | MULHU | DIV | DIVU | REM | REMU => 0b0000001
  | _ => 0b0000000

def AmoOp.funct5 : AmoOp → BitVec 5
  | AMOADD => 0b00000 | AMOSWAP => 0b00001 | SC => 0b00011 | AMOXOR => 0b00100
  | AMOOR => 0b01000 | AMOAND => 0b01100 | AMOMIN => 0b10000 | AMOMAX => 0b10100
  | AMOMINU => 0b11000 | AMOMAXU => 0b11100

def CsrOp.funct3 : CsrOp → BitVec 3
  | CSRRW => 0b001 | CSRRS => 0b010 | CSRRC => 0b011

def CsrOp.funct3Imm : CsrOp → BitVec 3
  | CSRRW => 0b101 | CSRRS => 0b110 | CSRRC => 0b111

def encode : Instr → BitVec 32
  | .lui rd imm => uType 0b0110111 rd imm
  | .auipc rd imm => uType 0b0010111 rd imm
  | .jal rd offset => jType 0b1101111 rd offset
  | .jalr rd rs1 imm => iType 0b1100111 rd rs1 0b000 imm
  | .branch op rs1 rs2 offset => bType 0b1100011 rs1 rs2 op.funct3 offset
  | .load op rd rs1 imm => iType 0b0000011 rd rs1 op.funct3 imm
  | .store op rs1 rs2 imm => sType 0b0100011 rs1 rs2 op.funct3 imm
  | .opImm op rd rs1 imm => iType 0b0010011 rd rs1 op.funct3 imm
  | .shiftImm op rd rs1 shamt => rType 0b0010011 rd rs1 shamt op.funct3 op.funct7
  | .op op rd rs1 rs2 => rType 0b0110011 rd rs1 rs2 op.funct3 op.funct7
  | .lr rd rs1 aqRl => rType 0b0101111 rd rs1 0 0b010 (0b00010#5 ++ aqRl)
  | .amo op rd rs1 rs2 aqRl => rType 0b0101111 rd rs1 rs2 0b010 (op.funct5 ++ aqRl)
  | .fence pred succ => iType 0b0001111 0 0 0b000 (0b0000#4 ++ pred ++ succ)
  | .fenceI => iType 0b0001111 0 0 0b001 0
  | .csr op rd rs1 csr => iType 0b1110011 rd rs1 op.funct3 csr
  | .csrImm op rd zimm csr => iType 0b1110011 rd zimm op.funct3Imm csr
  | .ecall => iType 0b1110011 0 0 0b000 0x000
  | .ebreak => iType 0b1110011 0 0 0b000 0x001
  | .sret => iType 0b1110011 0 0 0b000 0x102
  | .mret => iType 0b1110011 0 0 0b000 0x302
  | .dret => iType 0b1110011 0 0 0b000 0x7b2
  | .wfi => iType 0b1110011 0 0 0b000 0x105
  | .sfenceVma rs1 rs2 => rType 0b1110011 0 rs1 rs2 0b000 0b0001001

end Cva6.Isa
