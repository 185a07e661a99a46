import Cva6.Pkg
/-!
# The compressed decoder

`compressed_decoder.sv`: the expansion of 16-bit instructions. The cases follow the
quadrants of the compressed encoding.
-/

namespace Cva6.CompressedDecoder

structure Output where
  instr : BitVec 32
  illegalInstr : Bool
  isCompressed : Bool
  deriving DecidableEq, Repr

def Output.legal (w : BitVec 32) : Output := ⟨w, false, true⟩

def opcodeLoad : BitVec 7 := 0b0000011
def opcodeLoadFp : BitVec 7 := 0b0000111
def opcodeOpImm : BitVec 7 := 0b0010011
def opcodeOpImm32 : BitVec 7 := 0b0011011
def opcodeStore : BitVec 7 := 0b0100011
def opcodeStoreFp : BitVec 7 := 0b0100111
def opcodeOp : BitVec 7 := 0b0110011
def opcodeLui : BitVec 7 := 0b0110111
def opcodeOp32 : BitVec 7 := 0b0111011
def opcodeBranch : BitVec 7 := 0b1100011
def opcodeJalr : BitVec 7 := 0b1100111
def opcodeJal : BitVec 7 := 0b1101111

variable (i : BitVec 32)

/-- `instr_i[hi:lo]`. -/
abbrev bits (hi lo : Nat) : BitVec (hi - lo + 1) := i.extractLsb hi lo

/-- The three-bit register fields. -/
def rs1p : BitVec 5 := 0b01#2 ++ bits i 9 7
def rs2p : BitVec 5 := 0b01#2 ++ bits i 4 2

def imm6 : BitVec 12 := (bits i 12 12 ++ bits i 6 2).signExtend 12

def expandC0 : Output :=
  match bits i 15 13 with
  | 0b000#3 =>
      -- c.addi4spn -> addi rd', x2, imm
      { Output.legal (0#2 ++ bits i 10 7 ++ bits i 12 11 ++ bits i 5 5 ++ bits i 6 6 ++ 0#2 ++
          2#5 ++ 0#3 ++ rs2p i ++ opcodeOpImm) with
        illegalInstr := bits i 12 5 == 0 }
  | 0b001#3 =>
      -- c.fld -> fld rd', imm(rs1')
      .legal (0#4 ++ bits i 6 5 ++ bits i 12 10 ++ 0#3 ++ rs1p i ++ 3#3 ++ rs2p i ++ opcodeLoadFp)
  | 0b010#3 =>
      -- c.lw -> lw rd', imm(rs1')
      .legal (0#5 ++ bits i 5 5 ++ bits i 12 10 ++ bits i 6 6 ++ 0#2 ++ rs1p i ++ 2#3 ++ rs2p i ++
        opcodeLoad)
  | 0b011#3 =>
      -- c.ld -> ld rd', imm(rs1')
      .legal (0#4 ++ bits i 6 5 ++ bits i 12 10 ++ 0#3 ++ rs1p i ++ 3#3 ++ rs2p i ++ opcodeLoad)
  | 0b101#3 =>
      -- c.fsd -> fsd rs2', imm(rs1')
      .legal (0#4 ++ bits i 6 5 ++ bits i 12 12 ++ rs2p i ++ rs1p i ++ 3#3 ++ bits i 11 10 ++ 0#3 ++
        opcodeStoreFp)
  | 0b110#3 =>
      -- c.sw -> sw rs2', imm(rs1')
      .legal (0#5 ++ bits i 5 5 ++ bits i 12 12 ++ rs2p i ++ rs1p i ++ 2#3 ++ bits i 11 10 ++
        bits i 6 6 ++ 0#2 ++ opcodeStore)
  | 0b111#3 =>
      -- c.sd -> sd rs2', imm(rs1')
      .legal (0#4 ++ bits i 6 5 ++ bits i 12 12 ++ rs2p i ++ rs1p i ++ 3#3 ++ bits i 11 10 ++ 0#3 ++
        opcodeStore)
  | _ => ⟨i, true, true⟩

/-- The register-register operations of `c.sub` and its neighbours. -/
def expandMiscAlu : Output :=
  match bits i 11 10 with
  | 0b00#2 | 0b01#2 =>
      -- c.srli, c.srai
      .legal (0#1 ++ bits i 10 10 ++ 0#4 ++ bits i 12 12 ++ bits i 6 2 ++ rs1p i ++ 5#3 ++ rs1p i ++
        opcodeOpImm)
  | 0b10#2 =>
      -- c.andi
      .legal (imm6 i ++ rs1p i ++ 7#3 ++ rs1p i ++ opcodeOpImm)
  | _ =>
      match bits i 12 12 ++ bits i 6 5 with
      | 0b000#3 => .legal (0b01#2 ++ 0#5 ++ rs2p i ++ rs1p i ++ 0#3 ++ rs1p i ++ opcodeOp)
      | 0b001#3 => .legal (0#7 ++ rs2p i ++ rs1p i ++ 4#3 ++ rs1p i ++ opcodeOp)
      | 0b010#3 => .legal (0#7 ++ rs2p i ++ rs1p i ++ 6#3 ++ rs1p i ++ opcodeOp)
      | 0b011#3 => .legal (0#7 ++ rs2p i ++ rs1p i ++ 7#3 ++ rs1p i ++ opcodeOp)
      | 0b100#3 => .legal (0b01#2 ++ 0#5 ++ rs2p i ++ rs1p i ++ 0#3 ++ rs1p i ++ opcodeOp32)
      | 0b101#3 => .legal (0#2 ++ 0#5 ++ rs2p i ++ rs1p i ++ 0#3 ++ rs1p i ++ opcodeOp32)
      | _ => ⟨i, true, true⟩

def expandJ : BitVec 32 :=
  bits i 12 12 ++ bits i 8 8 ++ bits i 10 9 ++ bits i 6 6 ++ bits i 7 7 ++ bits i 2 2 ++
    bits i 11 11 ++ bits i 5 3 ++ (bits i 12 12).signExtend 9 ++ 0#4 ++ ~~~(bits i 15 15) ++ opcodeJal

def expandBz : BitVec 32 :=
  (bits i 12 12).signExtend 4 ++ bits i 6 5 ++ bits i 2 2 ++ 0#5 ++ rs1p i ++ 0#2 ++ bits i 13 13 ++
    bits i 11 10 ++ bits i 4 3 ++ bits i 12 12 ++ opcodeBranch

def expandC1 : Output :=
  match bits i 15 13 with
  | 0b000#3 =>
      -- c.addi -> addi rd, rd, nzimm
      .legal (imm6 i ++ bits i 11 7 ++ 0#3 ++ bits i 11 7 ++ opcodeOpImm)
  | 0b001#3 =>
      -- c.addiw -> addiw rd, rd, nzimm, also in the 32-bit configuration
      if bits i 11 7 != 0 then .legal (imm6 i ++ bits i 11 7 ++ 0#3 ++ bits i 11 7 ++ opcodeOpImm32)
      else ⟨i, true, true⟩
  | 0b010#3 =>
      -- c.li -> addi rd, x0, nzimm
      .legal (imm6 i ++ 0#5 ++ 0#3 ++ bits i 11 7 ++ opcodeOpImm)
  | 0b011#3 =>
      -- c.lui -> lui rd, imm, or c.addi16sp -> addi x2, x2, nzimm
      let w : BitVec 32 :=
        if bits i 11 7 = 2 then
          (bits i 12 12).signExtend 3 ++ bits i 4 3 ++ bits i 5 5 ++ bits i 2 2 ++ bits i 6 6 ++ 0#4 ++
            2#5 ++ 0#3 ++ 2#5 ++ opcodeOpImm
        else (bits i 12 12).signExtend 15 ++ bits i 6 2 ++ bits i 11 7 ++ opcodeLui
      { Output.legal w with illegalInstr := bits i 12 12 ++ bits i 6 2 == 0#6 }
  | 0b100#3 => expandMiscAlu i
  | 0b101#3 => .legal (expandJ i)
  | _ => .legal (expandBz i)

/-- `c.jr`, `c.mv`, `c.ebreak`, `c.jalr` and `c.add`. -/
def expandJalrMvAdd : Output :=
  if bits i 12 12 = 0 then
    if bits i 6 2 = 0 then
      { Output.legal (0#12 ++ bits i 11 7 ++ 0#3 ++ 0#5 ++ opcodeJalr) with
        illegalInstr := bits i 11 7 == 0 }
    else .legal (0#7 ++ bits i 6 2 ++ 0#5 ++ 0#3 ++ bits i 11 7 ++ opcodeOp)
  else if bits i 11 7 = 0 ∧ bits i 6 2 = 0 then .legal 0x00100073
  else if bits i 11 7 ≠ 0 ∧ bits i 6 2 = 0 then
    .legal (0#12 ++ bits i 11 7 ++ 0#3 ++ 1#5 ++ opcodeJalr)
  else .legal (0#7 ++ bits i 6 2 ++ bits i 11 7 ++ 0#3 ++ bits i 11 7 ++ opcodeOp)

def expandC2 : Output :=
  match bits i 15 13 with
  | 0b000#3 =>
      -- c.slli -> slli rd, rd, shamt
      .legal (0#6 ++ bits i 12 12 ++ bits i 6 2 ++ bits i 11 7 ++ 1#3 ++ bits i 11 7 ++ opcodeOpImm)
  | 0b001#3 =>
      -- c.fldsp -> fld rd, imm(x2)
      .legal (0#3 ++ bits i 4 2 ++ bits i 12 12 ++ bits i 6 5 ++ 0#3 ++ 2#5 ++ 3#3 ++ bits i 11 7 ++
        opcodeLoadFp)
  | 0b010#3 =>
      -- c.lwsp -> lw rd, imm(x2)
      { Output.legal (0#4 ++ bits i 3 2 ++ bits i 12 12 ++ bits i 6 4 ++ 0#2 ++ 2#5 ++ 2#3 ++
          bits i 11 7 ++ opcodeLoad) with
        illegalInstr := bits i 11 7 == 0 }
  | 0b011#3 =>
      -- c.ldsp -> ld rd, imm(x2)
      { Output.legal (0#3 ++ bits i 4 2 ++ bits i 12 12 ++ bits i 6 5 ++ 0#3 ++ 2#5 ++ 3#3 ++
          bits i 11 7 ++ opcodeLoad) with
        illegalInstr := bits i 11 7 == 0 }
  | 0b100#3 => expandJalrMvAdd i
  | 0b101#3 =>
      -- c.fsdsp -> fsd rs2, imm(x2)
      .legal (0#3 ++ bits i 9 7 ++ bits i 12 12 ++ bits i 6 2 ++ 2#5 ++ 3#3 ++ bits i 11 10 ++ 0#3 ++
        opcodeStoreFp)
  | 0b110#3 =>
      -- c.swsp -> sw rs2, imm(x2)
      .legal (0#4 ++ bits i 8 7 ++ bits i 12 12 ++ bits i 6 2 ++ 2#5 ++ 2#3 ++ bits i 11 9 ++ 0#2 ++
        opcodeStore)
  | _ =>
      -- c.sdsp -> sd rs2, imm(x2)
      .legal (0#3 ++ bits i 9 7 ++ bits i 12 12 ++ bits i 6 2 ++ 2#5 ++ 3#3 ++ bits i 11 10 ++ 0#3 ++
        opcodeStore)

/-- `compressed_decoder`: an illegal compressed instruction is passed on as it is. -/
def compressedDecoder : Output :=
  let o :=
    match bits i 1 0 with
    | 0b00#2 => expandC0 i
    | 0b01#2 => expandC1 i
    | 0b10#2 => expandC2 i
    | _ => ⟨i, false, false⟩
  if o.illegalInstr && o.isCompressed then { o with instr := i } else o

end Cva6.CompressedDecoder
