import Cva6.Decoder
import Cva6.Isa.Instr
/-!
# The decoder and the instruction set

Which words the decoder accepts, and what it makes of them, compared with the encoding of the
instructions.
-/

namespace Cva6.Isa

open Cva6.Riscv Cva6.Decoder

/-! ## Fields of an encoded word -/

section Fields

variable (op : BitVec 7) (rd rs1 rs2 : Reg) (f3 : BitVec 3) (f7 : BitVec 7)

theorem extract_low {m n : Nat} (x : BitVec m) (y : BitVec n) {k len : Nat} (h : k + len ≤ n) :
    (x ++ y).extractLsb' k len = y.extractLsb' k len :=
  BitVec.extractLsb'_append_eq_of_add_le h

theorem extract_high {m n : Nat} (x : BitVec m) (y : BitVec n) {k len : Nat} (h : n ≤ k) :
    (x ++ y).extractLsb' k len = x.extractLsb' (k - n) len :=
  BitVec.extractLsb'_append_eq_of_le h

@[simp] theorem opcode_rType : opcode (rType op rd rs1 rs2 f3 f7) = op := by
  exact (extract_low (f7 ++ rs2 ++ rs1 ++ f3 ++ rd) op (by decide)).trans (by simp)

@[simp] theorem rdField_rType : rdField (rType op rd rs1 rs2 f3 f7) = rd := by
  refine (extract_high (f7 ++ rs2 ++ rs1 ++ f3 ++ rd) op (by decide)).trans ?_
  exact (extract_low (f7 ++ rs2 ++ rs1 ++ f3) rd (by decide)).trans (by simp)

@[simp] theorem funct3_rType : funct3 (rType op rd rs1 rs2 f3 f7) = f3 := by
  refine (extract_high (f7 ++ rs2 ++ rs1 ++ f3 ++ rd) op (by decide)).trans ?_
  refine (extract_high (f7 ++ rs2 ++ rs1 ++ f3) rd (by decide)).trans ?_
  exact (extract_low (f7 ++ rs2 ++ rs1) f3 (by decide)).trans (by simp)

@[simp] theorem rs1Field_rType : rs1Field (rType op rd rs1 rs2 f3 f7) = rs1 := by
  refine (extract_high (f7 ++ rs2 ++ rs1 ++ f3 ++ rd) op (by decide)).trans ?_
  refine (extract_high (f7 ++ rs2 ++ rs1 ++ f3) rd (by decide)).trans ?_
  refine (extract_high (f7 ++ rs2 ++ rs1) f3 (by decide)).trans ?_
  exact (extract_low (f7 ++ rs2) rs1 (by decide)).trans (by simp)

/-- The upper twelve bits. -/
@[simp] theorem immI_rType : immI (rType op rd rs1 rs2 f3 f7) = f7 ++ rs2 := by
  refine (extract_high (f7 ++ rs2 ++ rs1 ++ f3 ++ rd) op (by decide)).trans ?_
  refine (extract_high (f7 ++ rs2 ++ rs1 ++ f3) rd (by decide)).trans ?_
  refine (extract_high (f7 ++ rs2 ++ rs1) f3 (by decide)).trans ?_
  exact (extract_high (f7 ++ rs2) rs1 (by decide)).trans (by simp)

theorem extract_extract (w : BitVec 32) (a n k len : Nat) (h : k + len ≤ n) :
    (w.extractLsb' a n).extractLsb' k len = w.extractLsb' (a + k) len := by
  ext j hj
  have hlt : k + j < n := by omega
  simp [hlt, Nat.add_assoc]

theorem rs2Field_eq (w : BitVec 32) : rs2Field w = (immI w).extractLsb' 0 5 :=
  (extract_extract w 20 12 0 5 (by decide)).symm

theorem funct7_eq (w : BitVec 32) : funct7 w = (immI w).extractLsb' 5 7 :=
  (extract_extract w 20 12 5 7 (by decide)).symm

theorem funct5_eq (w : BitVec 32) : funct5 w = (funct7 w).extractLsb' 2 5 :=
  (extract_extract w 25 7 2 5 (by decide)).symm

theorem funct6_eq (w : BitVec 32) : funct6 w = (funct7 w).extractLsb' 1 6 :=
  (extract_extract w 25 7 1 6 (by decide)).symm

@[simp] theorem rs2Field_rType : rs2Field (rType op rd rs1 rs2 f3 f7) = rs2 := by
  rw [rs2Field_eq, immI_rType]
  exact BitVec.extractLsb'_append_eq_right

@[simp] theorem funct7_rType : funct7 (rType op rd rs1 rs2 f3 f7) = f7 := by
  rw [funct7_eq, immI_rType]
  exact BitVec.extractLsb'_append_eq_left

theorem extract_join {n : Nat} (x : BitVec n) (k m len : Nat) :
    x.extractLsb' (k + len) m ++ x.extractLsb' k len = x.extractLsb' k (m + len) :=
  BitVec.extractLsb'_append_extractLsb'_eq_extractLsb' rfl

@[simp] theorem immI_iType (imm : BitVec 12) : immI (iType op rd rs1 f3 imm) = imm := by
  rw [iType, immI_rType]
  exact BitVec.extractLsb'_append_extractLsb'

theorem iimm_iType (imm : BitVec 12) :
    signExtend (iType op rd rs1 f3 imm) .IIMM = imm.signExtend 32 :=
  congrArg (BitVec.signExtend 32) (immI_iType op rd rs1 f3 imm)

theorem iimm_rType :
    signExtend (rType op rd rs1 rs2 f3 f7) .IIMM = (f7 ++ rs2).signExtend 32 :=
  congrArg (BitVec.signExtend 32) (immI_rType op rd rs1 rs2 f3 f7)

theorem simm_sType (imm : BitVec 12) :
    signExtend (sType op rs1 rs2 f3 imm) .SIMM = imm.signExtend 32 := by
  rw [signExtend, sType, funct7_rType, rdField_rType]
  exact congrArg _ BitVec.extractLsb'_append_extractLsb'

theorem sbimm_eq_fields (w : BitVec 32) : signExtend w .SBIMM =
    ((funct7 w).extractLsb' 6 1 ++ (rdField w).extractLsb' 0 1 ++ (funct7 w).extractLsb' 0 6 ++
      (rdField w).extractLsb' 1 4 ++ 0#1).signExtend 32 := by
  rw [funct7, rdField, extract_extract w 25 7 6 1 (by decide), extract_extract w 25 7 0 6 (by decide),
    extract_extract w 7 5 0 1 (by decide), extract_extract w 7 5 1 4 (by decide)]
  rfl

theorem sbimm_bType (offset : BitVec 12) :
    signExtend (bType op rs1 rs2 f3 offset) .SBIMM = (offset ++ 0#1).signExtend 32 := by
  have h7 : (offset.extractLsb' 11 1 ++ offset.extractLsb' 4 6).extractLsb' 6 1 =
      offset.extractLsb' 11 1 := BitVec.extractLsb'_append_eq_left
  have h7' : (offset.extractLsb' 11 1 ++ offset.extractLsb' 4 6).extractLsb' 0 6 =
      offset.extractLsb' 4 6 := BitVec.extractLsb'_append_eq_right
  have hd : (offset.extractLsb' 0 4 ++ offset.extractLsb' 10 1).extractLsb' 1 4 =
      offset.extractLsb' 0 4 := BitVec.extractLsb'_append_eq_left
  have hd' : (offset.extractLsb' 0 4 ++ offset.extractLsb' 10 1).extractLsb' 0 1 =
      offset.extractLsb' 10 1 := BitVec.extractLsb'_append_eq_right
  rw [sbimm_eq_fields, bType, funct7_rType, rdField_rType, h7, h7', hd, hd',
    extract_join offset 10 1 1, extract_join offset 4 2 6, extract_join offset 0 8 4]
  exact congrArg (fun x : BitVec 12 => (x ++ 0#1).signExtend 32) BitVec.extractLsb'_eq_self

theorem uimm_uType (imm : BitVec 20) :
    signExtend (uType op rd imm) .UIMM = imm ++ 0#12 := by
  have hw (w : BitVec 32) : w.extractLsb' 12 20 = immI w ++ rs1Field w ++ funct3 w := by
    unfold immI rs1Field funct3
    rw [extract_join w 15 12 5, extract_join w 12 17 3]
  rw [signExtend, hw, uType, immI_rType, rs1Field_rType, funct3_rType, extract_join imm 8 7 5,
    extract_join imm 3 12 5, extract_join imm 0 17 3]
  exact congrArg (fun x : BitVec 20 => x ++ 0#12) BitVec.extractLsb'_eq_self

theorem jimm_eq_fields (w : BitVec 32) : signExtend w .JIMM =
    ((funct7 w).extractLsb' 6 1 ++ (rs1Field w ++ funct3 w) ++ (rs2Field w).extractLsb' 0 1 ++
      ((funct7 w).extractLsb' 0 6 ++ (rs2Field w).extractLsb' 1 4) ++ 0#1).signExtend 32 := by
  rw [funct7, rs1Field, rs2Field, funct3, extract_extract w 25 7 6 1 (by decide),
    extract_extract w 25 7 0 6 (by decide), extract_extract w 20 5 0 1 (by decide),
    extract_extract w 20 5 1 4 (by decide), extract_join w 12 5 3, extract_join w 21 6 4]
  rfl

theorem jimm_jType (offset : BitVec 20) :
    signExtend (jType op rd offset) .JIMM = (offset ++ 0#1).signExtend 32 := by
  have h7 : (offset.extractLsb' 19 1 ++ offset.extractLsb' 4 6).extractLsb' 6 1 =
      offset.extractLsb' 19 1 := BitVec.extractLsb'_append_eq_left
  have h7' : (offset.extractLsb' 19 1 ++ offset.extractLsb' 4 6).extractLsb' 0 6 =
      offset.extractLsb' 4 6 := BitVec.extractLsb'_append_eq_right
  have h2 : (offset.extractLsb' 0 4 ++ offset.extractLsb' 10 1).extractLsb' 1 4 =
      offset.extractLsb' 0 4 := BitVec.extractLsb'_append_eq_left
  have h2' : (offset.extractLsb' 0 4 ++ offset.extractLsb' 10 1).extractLsb' 0 1 =
      offset.extractLsb' 10 1 := BitVec.extractLsb'_append_eq_right
  rw [jimm_eq_fields, jType, funct7_rType, rs1Field_rType, rs2Field_rType, funct3_rType, h7, h7', h2,
    h2', extract_join offset 11 5 3, extract_join offset 0 6 4, extract_join offset 11 1 8,
    extract_join offset 10 9 1, extract_join offset 0 10 10]
  exact congrArg (fun x : BitVec 20 => (x ++ 0#1).signExtend 32) BitVec.extractLsb'_eq_self

end Fields

/-! ## Entries -/

structure Entry where
  fu : Fu
  op : FuOp
  rs1 : RegAddr
  rs2 : RegAddr
  rd : RegAddr
  imm : XLen
  useImm : Bool
  usePc : Bool
  useZimm : Bool
  deriving DecidableEq, Repr

def Entry.of (e : ScoreboardEntry) : Entry :=
  ⟨e.fu, e.op, e.rs1, e.rs2, e.rd, e.result, e.useImm, e.usePc, e.useZimm⟩

def Entry.plain (fu : Fu) (op : FuOp) : Entry := ⟨fu, op, 0, 0, 0, 0, false, false, false⟩

def Entry.withImm (e : Entry) (imm : XLen) : Entry := { e with imm := imm, useImm := true }

def BranchOp.fuOp : BranchOp → FuOp
  | BEQ => .EQ | BNE => .NE | BLT => .LTS | BGE => .GES | BLTU => .LTU | BGEU => .GEU

def LoadOp.fuOp : LoadOp → FuOp
  | LB => .LB | LH => .LH | LW => .LW | LBU => .LBU | LHU => .LHU

def StoreOp.fuOp : StoreOp → FuOp
  | SB => .SB | SH => .SH | SW => .SW

def ImmOp.fuOp : ImmOp → FuOp
  | ADDI => .ADD | SLTI => .SLTS | SLTIU => .SLTU | XORI => .XORL | ORI => .ORL | ANDI => .ANDL

def ShiftOp.fuOp : ShiftOp → FuOp
  | SLLI => .SLL | SRLI => .SRL | SRAI => .SRA

def RegOp.fuOp : RegOp → FuOp
  | ADD => .ADD | SUB => .SUB | SLL => .SLL | SLT => .SLTS | SLTU => .SLTU | XOR => .XORL
  | SRL => .SRL | SRA => .SRA | OR => .ORL | AND => .ANDL
  | MUL => .MUL | MULH => .MULH | MULHSU => .MULHSU | MULHU => .MULHU
  | DIV => .DIV | DIVU => .DIVU | REM => .REM | REMU => .REMU

/-- The instructions of the M extension have a unit of their own. -/
def RegOp.fu : RegOp → Fu
  | MUL | MULH | MULHSU | MULHU | DIV | DIVU | REM | REMU => .MULT
  | _ => .ALU

def AmoOp.fuOp : AmoOp → FuOp
  | SC => .AMO_SCW | AMOSWAP => .AMO_SWAPW | AMOADD => .AMO_ADDW | AMOXOR => .AMO_XORW
  | AMOAND => .AMO_ANDW | AMOOR => .AMO_ORW | AMOMIN => .AMO_MINW | AMOMAX => .AMO_MAXW
  | AMOMINU => .AMO_MINWU | AMOMAXU => .AMO_MAXWU

/-- To set or clear no bits is to read. -/
def CsrOp.fuOp (rs1 : BitVec 5) : CsrOp → FuOp
  | CSRRW => .CSR_WRITE
  | CSRRS => if rs1 = 0 then .CSR_READ else .CSR_SET
  | CSRRC => if rs1 = 0 then .CSR_READ else .CSR_CLEAR

/-- A system instruction. The second source is not used; it holds the low bits of the upper
half of the word. -/
def system (op : FuOp) (funct12 : BitVec 12) : Entry :=
  { Entry.plain .CSR op with rs2 := reg (funct12.extractLsb' 0 5) }

def entry : Instr → Entry
  | .lui rd imm => { Entry.plain .ALU .ADD with rd := reg rd }.withImm (imm ++ 0#12)
  | .auipc rd imm =>
      { Entry.plain .ALU .ADD with rd := reg rd, usePc := true }.withImm (imm ++ 0#12)
  | .jal rd offset =>
      { Entry.plain .CTRL_FLOW .JAL with rd := reg rd }.withImm ((offset ++ 0#1).signExtend 32)
  | .jalr rd rs1 imm =>
      { Entry.plain .CTRL_FLOW .JALR with rd := reg rd, rs1 := reg rs1 }.withImm (imm.signExtend 32)
  | .branch op rs1 rs2 offset =>
      { Entry.plain .CTRL_FLOW op.fuOp with rs1 := reg rs1, rs2 := reg rs2 }.withImm
        ((offset ++ 0#1).signExtend 32)
  | .load op rd rs1 imm =>
      { Entry.plain .LOAD op.fuOp with rd := reg rd, rs1 := reg rs1 }.withImm (imm.signExtend 32)
  | .store op rs1 rs2 imm =>
      { Entry.plain .STORE op.fuOp with rs1 := reg rs1, rs2 := reg rs2 }.withImm
        (imm.signExtend 32)
  | .opImm op rd rs1 imm =>
      { Entry.plain .ALU op.fuOp with rd := reg rd, rs1 := reg rs1 }.withImm (imm.signExtend 32)
  -- the amount is in the low five bits of the immediate
  | .shiftImm op rd rs1 shamt =>
      { Entry.plain .ALU op.fuOp with rd := reg rd, rs1 := reg rs1 }.withImm
        ((op.funct7 ++ shamt).signExtend 32)
  | .op op rd rs1 rs2 =>
      { Entry.plain op.fu op.fuOp with rd := reg rd, rs1 := reg rs1, rs2 := reg rs2 }
  | .lr rd rs1 _ => { Entry.plain .STORE .AMO_LRW with rd := reg rd, rs1 := reg rs1 }
  | .amo op rd rs1 rs2 _ =>
      { Entry.plain .STORE op.fuOp with rd := reg rd, rs1 := reg rs1, rs2 := reg rs2 }
  | .fence _ _ => Entry.plain .CSR .FENCE
  | .fenceI => Entry.plain .CSR .FENCE_I
  | .csr op rd rs1 csr =>
      { system (op.fuOp rs1) csr with rd := reg rd, rs1 := reg rs1 }.withImm (csr.signExtend 32)
  | .csrImm op rd zimm csr =>
      { system (op.fuOp zimm) csr with rd := reg rd, rs1 := reg zimm, useZimm := true }.withImm
        (csr.signExtend 32)
  | .ecall => system .ADD 0x000
  | .ebreak => system .ADD 0x001
  | .sret => system .SRET 0x102
  | .mret => system .MRET 0x302
  | .dret => system .DRET 0x7b2
  | .wfi => system .WFI 0x105
  | .sfenceVma rs1 rs2 => { Entry.plain .CSR .SFENCE_VMA with rs1 := reg rs1, rs2 := reg rs2 }

/-- Whether an instruction may be executed at the privilege level and with the trap bits the
decoder is given. Accesses to control and status registers are checked when they are made. -/
def Permitted (i : Decoder.Input) : Instr → Prop
  | .sret => i.privLvl = privLvlM ∨ i.privLvl = privLvlS ∧ i.tsr = false
  | .mret => i.privLvl = privLvlM
  | .dret => i.debugMode = true
  | .wfi => i.privLvl = privLvlM ∨ i.privLvl = privLvlS ∧ i.tw = false
  | .sfenceVma _ _ => i.privLvl = privLvlM ∨ i.privLvl = privLvlS ∧ i.tvm = false
  | _ => True

def trap (i : Decoder.Input) : Instr → Option XLen
  | .ecall =>
      some (if i.privLvl = privLvlM then envCallMmode
        else if i.privLvl = privLvlS then envCallSmode else envCallUmode)
  | .ebreak => some breakpoint
  | _ => none

def cause (ex : Exception) : Option XLen := if ex.valid then some ex.cause else none

/-- A word the decoder is given at a privilege level, with no exception from the fetch and
neither an interrupt nor a debug request to take. -/
structure Plain (i : Decoder.Input) : Prop where
  ex : i.ex.valid = false
  isIllegal : i.isIllegal = false
  interrupt : interruptTaken i = false
  debugReq : (i.debugReq && !i.debugMode) = false
  privLvl : i.privLvl = privLvlM ∨ i.privLvl = privLvlS ∨ i.privLvl = privLvlU

def Valid (i : Decoder.Input) : Prop :=
  ∃ ins, encode ins = i.instruction ∧ Permitted i ins

def immSelect : Instr → ImmSelect
  | .lui _ _ | .auipc _ _ => .UIMM
  | .jal _ _ => .JIMM
  | .jalr _ _ _ | .load _ _ _ _ | .opImm _ _ _ _ | .shiftImm _ _ _ _ => .IIMM
  | .csr _ _ _ _ | .csrImm _ _ _ _ => .IIMM
  | .store _ _ _ _ => .SIMM
  | .branch _ _ _ _ => .SBIMM
  | _ => .NOIMM

def decoded (ins : Instr) : Decoded where
  fu := (entry ins).fu
  op := (entry ins).op
  rs1 := (entry ins).rs1
  rs2 := (entry ins).rs2
  rd := (entry ins).rd
  usePc := (entry ins).usePc
  useZimm := (entry ins).useZimm
  immSelect := immSelect ins
  illegalInstr := false
  ecall := ins = .ecall
  ebreak := ins = .ebreak
  isControlFlowInstr := (entry ins).fu == .CTRL_FLOW

theorem signExtend_encode (ins : Instr) :
    signExtend (encode ins) (immSelect ins) = (entry ins).imm ∧
      (immSelect ins != .NOIMM) = (entry ins).useImm := by
  cases ins with
  | lui rd imm => exact ⟨uimm_uType _ _ _, rfl⟩
  | auipc rd imm => exact ⟨uimm_uType _ _ _, rfl⟩
  | jal rd offset => exact ⟨jimm_jType _ _ _, rfl⟩
  | jalr rd rs1 imm => exact ⟨iimm_iType _ _ _ _ _, rfl⟩
  | branch op rs1 rs2 offset => exact ⟨sbimm_bType _ _ _ _ _, rfl⟩
  | load op rd rs1 imm => exact ⟨iimm_iType _ _ _ _ _, rfl⟩
  | store op rs1 rs2 imm => exact ⟨simm_sType _ _ _ _ _, rfl⟩
  | opImm op rd rs1 imm => exact ⟨iimm_iType _ _ _ _ _, rfl⟩
  | shiftImm op rd rs1 shamt => exact ⟨iimm_rType _ _ _ _ _ _, rfl⟩
  | csr op rd rs1 csr => exact ⟨iimm_iType _ _ _ _ _, rfl⟩
  | csrImm op rd zimm csr => exact ⟨iimm_iType _ _ _ _ _, rfl⟩
  | _ => exact ⟨rfl, rfl⟩

section Encoded

variable (rd rs1 rs2 : Reg)

theorem decodeOp_encode (op : RegOp) :
    decodeOp (encode (.op op rd rs1 rs2)) = decoded (.op op rd rs1 rs2) := by
  have henc : encode (.op op rd rs1 rs2) = rType 0b0110011 rd rs1 rs2 op.funct3 op.funct7 := rfl
  have hvec (w : BitVec 32) : w.extractLsb' 30 2 = (funct7 w).extractLsb' 5 2 :=
    (extract_extract w 25 7 5 2 (by decide)).symm
  unfold decodeOp
  rw [hvec]
  simp only [henc, opUnit, funct7_rType, funct3_rType, rs1Field_rType, rs2Field_rType,
    rdField_rType]
  cases op <;> rfl

theorem decodeOpImm_encode (op : ImmOp) (imm : BitVec 12) :
    decodeOpImm (encode (.opImm op rd rs1 imm)) = decoded (.opImm op rd rs1 imm) := by
  have henc : encode (.opImm op rd rs1 imm) = iType 0b0010011 rd rs1 op.funct3 imm := rfl
  unfold decodeOpImm
  simp only [henc, iType, funct3_rType, rs1Field_rType, rdField_rType]
  cases op <;> rfl

theorem decodeOpImm_encode_shift (op : ShiftOp) (shamt : BitVec 5) :
    decodeOpImm (encode (.shiftImm op rd rs1 shamt)) = decoded (.shiftImm op rd rs1 shamt) := by
  have henc : encode (.shiftImm op rd rs1 shamt) =
      rType 0b0010011 rd rs1 shamt op.funct3 op.funct7 := rfl
  have hbit (w : BitVec 32) : w.getLsbD 25 = (funct7 w).getLsbD 0 := by
    simp [funct7]
  unfold decodeOpImm
  rw [hbit, funct6_eq]
  simp only [henc, funct7_rType, funct3_rType, rs1Field_rType, rdField_rType]
  cases op <;> rfl

theorem decodeLoad_encode (op : LoadOp) (imm : BitVec 12) :
    decodeLoad (encode (.load op rd rs1 imm)) = decoded (.load op rd rs1 imm) := by
  have henc : encode (.load op rd rs1 imm) = iType 0b0000011 rd rs1 op.funct3 imm := rfl
  unfold decodeLoad
  simp only [henc, iType, funct3_rType, rs1Field_rType, rdField_rType]
  cases op <;> rfl

theorem decodeStore_encode (op : StoreOp) (imm : BitVec 12) :
    decodeStore (encode (.store op rs1 rs2 imm)) = decoded (.store op rs1 rs2 imm) := by
  have henc : encode (.store op rs1 rs2 imm) = sType 0b0100011 rs1 rs2 op.funct3 imm := rfl
  unfold decodeStore
  simp only [henc, sType, funct3_rType, rs1Field_rType, rs2Field_rType]
  cases op <;> rfl

theorem decodeBranch_encode (op : BranchOp) (offset : BitVec 12) :
    decodeBranch (encode (.branch op rs1 rs2 offset)) = decoded (.branch op rs1 rs2 offset) := by
  have henc : encode (.branch op rs1 rs2 offset) = bType 0b1100011 rs1 rs2 op.funct3 offset := rfl
  unfold decodeBranch
  simp only [henc, bType, funct3_rType, rs1Field_rType, rs2Field_rType]
  cases op <;> rfl

theorem decodeJalr_encode (imm : BitVec 12) :
    decodeJalr (encode (.jalr rd rs1 imm)) = decoded (.jalr rd rs1 imm) := by
  have henc : encode (.jalr rd rs1 imm) = iType 0b1100111 rd rs1 0b000 imm := rfl
  unfold decodeJalr
  simp only [henc, iType, funct3_rType, rs1Field_rType, rdField_rType]
  rfl

theorem decodeAmo_encode (op : AmoOp) (aqRl : BitVec 2) :
    decodeAmo (encode (.amo op rd rs1 rs2 aqRl)) = decoded (.amo op rd rs1 rs2 aqRl) := by
  have henc : encode (.amo op rd rs1 rs2 aqRl) =
      rType 0b0101111 rd rs1 rs2 0b010 (op.funct5 ++ aqRl) := rfl
  have h5 : (op.funct5 ++ aqRl).extractLsb' 2 5 = op.funct5 := BitVec.extractLsb'_append_eq_left
  unfold decodeAmo
  rw [funct5_eq]
  simp only [henc, funct7_rType, funct3_rType, rs1Field_rType, rs2Field_rType, rdField_rType, h5]
  cases op <;> rfl

theorem decodeAmo_encode_lr (aqRl : BitVec 2) :
    decodeAmo (encode (.lr rd rs1 aqRl)) = decoded (.lr rd rs1 aqRl) := by
  have henc : encode (.lr rd rs1 aqRl) = rType 0b0101111 rd rs1 0 0b010 (0b00010#5 ++ aqRl) := rfl
  have h5 : (0b00010#5 ++ aqRl).extractLsb' 2 5 = 0b00010#5 := BitVec.extractLsb'_append_eq_left
  unfold decodeAmo
  rw [funct5_eq]
  simp only [henc, funct7_rType, funct3_rType, rs1Field_rType, rs2Field_rType, rdField_rType, h5]
  rfl

theorem decodeMiscMem_encode (pred succ : BitVec 4) :
    decodeMiscMem (encode (.fence pred succ)) = decoded (.fence pred succ) := by
  have henc : encode (.fence pred succ) =
      iType 0b0001111 0 0 0b000 (0b0000#4 ++ pred ++ succ) := rfl
  have htop (w : BitVec 32) : w.extractLsb' 28 4 = (immI w).extractLsb' 8 4 :=
    (extract_extract w 20 12 8 4 (by decide)).symm
  have hzero : (0b0000#4 ++ pred ++ succ).extractLsb' 8 4 = 0b0000#4 := by
    refine (extract_high (0b0000#4 ++ pred) succ (by decide)).trans ?_
    exact BitVec.extractLsb'_append_eq_left
  unfold decodeMiscMem decodeFence
  rw [htop]
  simp only [henc, immI_iType, hzero]
  simp only [iType, funct3_rType, rs1Field_rType, rdField_rType]
  rfl

theorem decodeMiscMem_encode_fenceI : decodeMiscMem (encode .fenceI) = decoded .fenceI := by
  decide

theorem decodeLui_encode (imm : BitVec 20) :
    decodeLui (encode (.lui rd imm)) = decoded (.lui rd imm) := by
  have henc : encode (.lui rd imm) = uType 0b0110111 rd imm := rfl
  simp only [decodeLui, henc, uType, rdField_rType]
  rfl

theorem decodeAuipc_encode (imm : BitVec 20) :
    decodeAuipc (encode (.auipc rd imm)) = decoded (.auipc rd imm) := by
  have henc : encode (.auipc rd imm) = uType 0b0010111 rd imm := rfl
  simp only [decodeAuipc, henc, uType, rdField_rType]
  rfl

theorem decodeJal_encode (offset : BitVec 20) :
    decodeJal (encode (.jal rd offset)) = decoded (.jal rd offset) := by
  have henc : encode (.jal rd offset) = jType 0b1101111 rd offset := rfl
  simp only [decodeJal, henc, jType, rdField_rType]
  rfl

end Encoded

section System

variable {i : Decoder.Input}

theorem decodeSystem_encode_csr {op : CsrOp} {rd rs1 : Reg} {csr : BitVec 12}
    (h : i.instruction = encode (.csr op rd rs1 csr)) :
    decodeSystem i = decoded (.csr op rd rs1 csr) := by
  have henc : encode (.csr op rd rs1 csr) = iType 0b1110011 rd rs1 op.funct3 csr := rfl
  unfold decodeSystem csrSetOp
  rw [h]
  simp only [henc, iType, funct3_rType, rs1Field_rType, rdField_rType, rs2Field_rType]
  cases op <;> rfl

theorem decodeSystem_encode_csrImm {op : CsrOp} {rd : Reg} {zimm : BitVec 5} {csr : BitVec 12}
    (h : i.instruction = encode (.csrImm op rd zimm csr)) :
    decodeSystem i = decoded (.csrImm op rd zimm csr) := by
  have henc : encode (.csrImm op rd zimm csr) = iType 0b1110011 rd zimm op.funct3Imm csr := rfl
  unfold decodeSystem csrSetOp
  rw [h]
  simp only [henc, iType, funct3_rType, rs1Field_rType, rdField_rType, rs2Field_rType]
  cases op <;> rfl

/-- The signals the privileged instructions start from. -/
def systemDefault (rs1 rs2 : Reg) : Decoded :=
  { Decoded.default with fu := .CSR, rs1 := reg rs1, rs2 := reg rs2 }

theorem decodeSystem_priv {rs1 rs2 : Reg} {f7 : BitVec 7}
    (h : i.instruction = rType 0b1110011 0 rs1 rs2 0b000 f7) :
    decodeSystem i = decodePrivileged i (systemDefault rs1 rs2) := by
  unfold decodeSystem
  rw [h]
  simp only [funct3_rType, rs1Field_rType, rdField_rType, rs2Field_rType]
  rfl

theorem decodeSystem_funct12 {imm : BitVec 12} (h : i.instruction = iType 0b1110011 0 0 0b000 imm) :
    decodeSystem i = decodePrivileged i (systemDefault 0 (imm.extractLsb' 0 5)) ∧
      immI i.instruction = imm ∧ rs1Field i.instruction = 0 ∧ rdField i.instruction = 0 := by
  refine ⟨decodeSystem_priv h, ?_, ?_, ?_⟩
  · rw [h, immI_iType]
  · rw [h, iType, rs1Field_rType]
  · rw [h, iType, rdField_rType]

theorem decodeSystem_encode_ecall (h : i.instruction = encode .ecall) :
    decodeSystem i = decoded .ecall := by
  obtain ⟨hd, himm, hrs1, hrd⟩ := decodeSystem_funct12 h
  rw [hd, decodePrivileged, himm, hrs1, hrd]
  rfl

theorem decodeSystem_encode_ebreak (h : i.instruction = encode .ebreak) :
    decodeSystem i = decoded .ebreak := by
  obtain ⟨hd, himm, hrs1, hrd⟩ := decodeSystem_funct12 h
  rw [hd, decodePrivileged, himm, hrs1, hrd]
  rfl

theorem decodeSystem_encode_sret (h : i.instruction = encode .sret) (hp : Permitted i .sret) :
    decodeSystem i = decoded .sret := by
  obtain ⟨hd, himm, hrs1, hrd⟩ := decodeSystem_funct12 h
  rw [hd, decodePrivileged, himm, hrs1, hrd]
  rcases hp with hp | ⟨hp, ht⟩
  · rw [hp]
    rfl
  · rw [hp, ht]
    rfl

theorem decodeSystem_encode_mret (h : i.instruction = encode .mret) (hp : Permitted i .mret) :
    decodeSystem i = decoded .mret := by
  obtain ⟨hd, himm, hrs1, hrd⟩ := decodeSystem_funct12 h
  rw [hd, decodePrivileged, himm, hrs1, hrd, show i.privLvl = privLvlM from hp]
  rfl

theorem decodeSystem_encode_dret (h : i.instruction = encode .dret) (hp : Permitted i .dret) :
    decodeSystem i = decoded .dret := by
  obtain ⟨hd, himm, hrs1, hrd⟩ := decodeSystem_funct12 h
  rw [hd, decodePrivileged, himm, hrs1, hrd, show i.debugMode = true from hp]
  rfl

theorem decodeSystem_encode_wfi (h : i.instruction = encode .wfi) (hp : Permitted i .wfi) :
    decodeSystem i = decoded .wfi := by
  obtain ⟨hd, himm, hrs1, hrd⟩ := decodeSystem_funct12 h
  rw [hd, decodePrivileged, himm, hrs1, hrd]
  rcases hp with hp | ⟨hp, ht⟩
  · rw [hp]
    rfl
  · rw [hp, ht]
    rfl

/-- No other privileged instruction has the upper seven bits of `SFENCE.VMA`. -/
theorem sfence_funct12 (rs2 : Reg) :
    0b0001001#7 ++ rs2 ≠ 0x000 ∧ 0b0001001#7 ++ rs2 ≠ 0x001 ∧ 0b0001001#7 ++ rs2 ≠ 0x102 ∧
      0b0001001#7 ++ rs2 ≠ 0x302 ∧ 0b0001001#7 ++ rs2 ≠ 0x7b2 ∧ 0b0001001#7 ++ rs2 ≠ 0x105 := by
  have hne (c : BitVec 12) (hc : c.extractLsb' 5 7 ≠ 0b0001001#7) : 0b0001001#7 ++ rs2 ≠ c := by
    rintro rfl
    exact hc BitVec.extractLsb'_append_eq_left
  exact ⟨hne _ (by decide), hne _ (by decide), hne _ (by decide), hne _ (by decide),
    hne _ (by decide), hne _ (by decide)⟩

theorem decodeSystem_encode_sfenceVma {rs1 rs2 : Reg}
    (h : i.instruction = encode (.sfenceVma rs1 rs2)) (hp : Permitted i (.sfenceVma rs1 rs2)) :
    decodeSystem i = decoded (.sfenceVma rs1 rs2) := by
  obtain ⟨h0, h1, h2, h3, h4, h5⟩ := sfence_funct12 rs2
  have himm : immI i.instruction = 0b0001001#7 ++ rs2 := by
    rw [h]
    exact immI_rType ..
  have hf7 : funct7 i.instruction = 0b0001001#7 := by
    rw [h]
    exact funct7_rType ..
  rw [decodeSystem_priv h, decodePrivileged, himm, hf7]
  simp only [h0, h1, h2, h3, h4, h5, if_false]
  -- what the register fields raise is assigned again
  generalize (rs1Field i.instruction != 0 || rdField i.instruction != 0) = raised
  rcases hp with hp | ⟨hp, ht⟩
  · rw [hp]
    cases raised <;> rfl
  · rw [hp, ht]
    cases raised <;> rfl

end System

theorem opcode_encode_eq {i : Decoder.Input} {ins : Instr} (h : encode ins = i.instruction) :
    opcode i.instruction = opcode (encode ins) := by
  rw [h]

/-- An instruction that is permitted is decoded as what it is. -/
theorem decoder_encode {i : Decoder.Input} {ins : Instr} (hex : i.ex.valid = false)
    (h : encode ins = i.instruction) (hp : Permitted i ins) : decoder i = decoded ins := by
  have hop := opcode_encode_eq h
  unfold decoder
  rw [hex]
  simp only [Bool.false_eq_true, if_false]
  cases ins with
  | lui rd imm =>
      rw [hop, encode, uType, opcode_rType, ← h]
      exact decodeLui_encode rd imm
  | auipc rd imm =>
      rw [hop, encode, uType, opcode_rType, ← h]
      exact decodeAuipc_encode rd imm
  | jal rd offset =>
      rw [hop, encode, jType, opcode_rType, ← h]
      exact decodeJal_encode rd offset
  | jalr rd rs1 imm =>
      rw [hop, encode, iType, opcode_rType, ← h]
      exact decodeJalr_encode rd rs1 imm
  | branch op rs1 rs2 offset =>
      rw [hop, encode, bType, opcode_rType, ← h]
      exact decodeBranch_encode rs1 rs2 op offset
  | load op rd rs1 imm =>
      rw [hop, encode, iType, opcode_rType, ← h]
      exact decodeLoad_encode rd rs1 op imm
  | store op rs1 rs2 imm =>
      rw [hop, encode, sType, opcode_rType, ← h]
      exact decodeStore_encode rs1 rs2 op imm
  | opImm op rd rs1 imm =>
      rw [hop, encode, iType, opcode_rType, ← h]
      exact decodeOpImm_encode rd rs1 op imm
  | shiftImm op rd rs1 shamt =>
      rw [hop, encode, opcode_rType, ← h]
      exact decodeOpImm_encode_shift rd rs1 op shamt
  | op op rd rs1 rs2 =>
      rw [hop, encode, opcode_rType, ← h]
      exact decodeOp_encode rd rs1 rs2 op
  | lr rd rs1 aqRl =>
      rw [hop, encode, opcode_rType, ← h]
      exact decodeAmo_encode_lr rd rs1 aqRl
  | amo op rd rs1 rs2 aqRl =>
      rw [hop, encode, opcode_rType, ← h]
      exact decodeAmo_encode rd rs1 rs2 op aqRl
  | fence pred succ =>
      rw [hop, encode, iType, opcode_rType, ← h]
      exact decodeMiscMem_encode pred succ
  | fenceI =>
      rw [hop, encode, iType, opcode_rType, ← h]
      exact decodeMiscMem_encode_fenceI
  | csr op rd rs1 csr =>
      rw [hop, encode, iType, opcode_rType]
      exact decodeSystem_encode_csr h.symm
  | csrImm op rd zimm csr =>
      rw [hop, encode, iType, opcode_rType]
      exact decodeSystem_encode_csrImm h.symm
  | ecall =>
      rw [hop, encode, iType, opcode_rType]
      exact decodeSystem_encode_ecall h.symm
  | ebreak =>
      rw [hop, encode, iType, opcode_rType]
      exact decodeSystem_encode_ebreak h.symm
  | sret =>
      rw [hop, encode, iType, opcode_rType]
      exact decodeSystem_encode_sret h.symm hp
  | mret =>
      rw [hop, encode, iType, opcode_rType]
      exact decodeSystem_encode_mret h.symm hp
  | dret =>
      rw [hop, encode, iType, opcode_rType]
      exact decodeSystem_encode_dret h.symm hp
  | wfi =>
      rw [hop, encode, iType, opcode_rType]
      exact decodeSystem_encode_wfi h.symm hp
  | sfenceVma rs1 rs2 =>
      rw [hop, encode, opcode_rType]
      exact decodeSystem_encode_sfenceVma h.symm hp

end Cva6.Isa
