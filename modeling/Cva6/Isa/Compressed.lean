import Cva6.IdStage
import Cva6.Isa.Accept
/-!
# Compressed instructions

The expansion of the 16-bit instructions of RV32C, as the tables of the instruction-set manual
list them, and the comparison with `compressed_decoder.sv` followed by the decoder.
-/

namespace Cva6.Isa

open Cva6.Riscv Cva6.Decoder Cva6.CompressedDecoder

namespace Rvc

section Fields

variable (w : BitVec 16)

/-- `inst[hi:lo]`. -/
abbrev inst (hi lo : Nat) : BitVec (hi - lo + 1) := w.extractLsb hi lo

/-- The destination, which is also the first source. -/
def rd : Reg := inst w 11 7
def rs2 : Reg := inst w 6 2

def rs1Short : Reg := 0b01#2 ++ inst w 9 7
def rs2Short : Reg := 0b01#2 ++ inst w 4 2

/-- `imm[5]` and `imm[4:0]`. -/
def imm : BitVec 12 := (inst w 12 12 ++ inst w 6 2).signExtend 12

/-- `uimm[5:3]` and `uimm[2|6]`. -/
def offsetLw : BitVec 12 := 0#5 ++ inst w 5 5 ++ inst w 12 10 ++ inst w 6 6 ++ 0#2

/-- `offset[11|4|9:8|10|6|7|3:1|5]`, in halfwords. -/
def offsetJ : BitVec 20 :=
  (inst w 12 12 ++ inst w 8 8 ++ inst w 10 9 ++ inst w 6 6 ++ inst w 7 7 ++ inst w 2 2 ++
    inst w 11 11 ++ inst w 5 3).signExtend 20

/-- `offset[8|4:3]` and `offset[7:6|2:1|5]`, in halfwords. -/
def offsetB : BitVec 12 :=
  (inst w 12 12 ++ inst w 6 5 ++ inst w 2 2 ++ inst w 11 10 ++ inst w 4 3).signExtend 12

end Fields

/-! ## The quadrants -/

section Quadrants

variable (w : BitVec 16)

def quadrant0 : Option Instr :=
  match inst w 15 13 with
  | 0b000#3 =>
      -- C.ADDI4SPN, nzuimm[5:4|9:6|2|3]
      if inst w 12 5 = 0 then none
      else some (.opImm .ADDI (rs2Short w) 2
        (0#2 ++ inst w 10 7 ++ inst w 12 11 ++ inst w 5 5 ++ inst w 6 6 ++ 0#2))
  | 0b010#3 => some (.load .LW (rs2Short w) (rs1Short w) (offsetLw w))
  | 0b110#3 => some (.store .SW (rs1Short w) (rs2Short w) (offsetLw w))
  -- C.FLD, C.FLW, C.FSD and C.FSW, and a reserved code
  | _ => none

def arithmetic : Option Instr :=
  match inst w 11 10 with
  -- shamt[5] is zero for 32-bit registers
  | 0b00#2 =>
      if inst w 12 12 = 0 then some (.shiftImm .SRLI (rs1Short w) (rs1Short w) (rs2 w)) else none
  | 0b01#2 =>
      if inst w 12 12 = 0 then some (.shiftImm .SRAI (rs1Short w) (rs1Short w) (rs2 w)) else none
  | 0b10#2 => some (.opImm .ANDI (rs1Short w) (rs1Short w) (imm w))
  | _ =>
      match inst w 12 12 ++ inst w 6 5 with
      | 0b000#3 => some (.op .SUB (rs1Short w) (rs1Short w) (rs2Short w))
      | 0b001#3 => some (.op .XOR (rs1Short w) (rs1Short w) (rs2Short w))
      | 0b010#3 => some (.op .OR (rs1Short w) (rs1Short w) (rs2Short w))
      | 0b011#3 => some (.op .AND (rs1Short w) (rs1Short w) (rs2Short w))
      -- C.SUBW and C.ADDW need 64-bit registers
      | _ => none

def quadrant1 : Option Instr :=
  match inst w 15 13 with
  | 0b000#3 => some (.opImm .ADDI (rd w) (rd w) (imm w))
  -- C.JAL, where the 64-bit set has C.ADDIW
  | 0b001#3 => some (.jal 1 (offsetJ w))
  | 0b010#3 => some (.opImm .ADDI (rd w) 0 (imm w))
  | 0b011#3 =>
      if inst w 12 12 ++ inst w 6 2 = 0#6 then none
      -- C.ADDI16SP, nzimm[9] and nzimm[4|6|8:7|5]
      else if rd w = 2 then
        some (.opImm .ADDI 2 2
          ((inst w 12 12 ++ inst w 4 3 ++ inst w 5 5 ++ inst w 2 2 ++ inst w 6 6 ++
            0#4).signExtend 12))
      else some (.lui (rd w) ((inst w 12 12 ++ inst w 6 2).signExtend 20))
  | 0b100#3 => arithmetic w
  | 0b101#3 => some (.jal 0 (offsetJ w))
  | 0b110#3 => some (.branch .BEQ (rs1Short w) 0 (offsetB w))
  | _ => some (.branch .BNE (rs1Short w) 0 (offsetB w))

/-- C.JR, C.MV, C.EBREAK, C.JALR and C.ADD. -/
def jumpOrMove : Option Instr :=
  if inst w 12 12 = 0 then
    if rs2 w = 0 then
      if rd w = 0 then none else some (.jalr 0 (rd w) 0)
    else some (.op .ADD (rd w) 0 (rs2 w))
  else if rs2 w = 0 then
    if rd w = 0 then some .ebreak else some (.jalr 1 (rd w) 0)
  else some (.op .ADD (rd w) (rd w) (rs2 w))

def quadrant2 : Option Instr :=
  match inst w 15 13 with
  | 0b000#3 =>
      if inst w 12 12 = 0 then some (.shiftImm .SLLI (rd w) (rd w) (rs2 w)) else none
  | 0b010#3 =>
      -- C.LWSP, uimm[5] and uimm[4:2|7:6]
      if rd w = 0 then none
      else some (.load .LW (rd w) 2 (0#4 ++ inst w 3 2 ++ inst w 12 12 ++ inst w 6 4 ++ 0#2))
  | 0b100#3 => jumpOrMove w
  | 0b110#3 =>
      -- C.SWSP, uimm[5:2|7:6]
      some (.store .SW 2 (rs2 w) (0#4 ++ inst w 8 7 ++ inst w 12 9 ++ 0#2))
  -- C.FLDSP, C.FLWSP, C.FSDSP and C.FSWSP
  | _ => none

def expand : Option Instr :=
  match inst w 1 0 with
  | 0b00#2 => quadrant0 w
  | 0b01#2 => quadrant1 w
  | 0b10#2 => quadrant2 w
  | _ => none

end Quadrants

end Rvc

/-! ## Words of the expansion -/

section Words

variable (op : BitVec 7) (rd rs1 rs2 : Reg) (f3 : BitVec 3)

theorem iType_eq (imm : BitVec 12) : iType op rd rs1 f3 imm = imm ++ rs1 ++ f3 ++ rd ++ op := by
  have himm : imm.extractLsb' 5 7 ++ imm.extractLsb' 0 5 = imm :=
    BitVec.extractLsb'_append_extractLsb'
  unfold iType rType
  rw [himm]

theorem uType_eq (imm : BitVec 20) : uType op rd imm = imm ++ rd ++ op := by
  unfold uType rType
  rw [extract_join imm 8 7 5, extract_join imm 3 12 5, extract_join imm 0 17 3]
  exact congrArg (fun x : BitVec 20 => x ++ rd ++ op) BitVec.extractLsb'_eq_self

theorem regroup {n a b : Nat} (x : BitVec n) (y : BitVec a) (z : BitVec b) :
    x ++ y ++ z = (x ++ (y ++ z)).cast (Nat.add_assoc n a b).symm :=
  BitVec.append_assoc

theorem regroup₃ {n a b c : Nat} (x : BitVec n) (y : BitVec a) (z : BitVec b) (u : BitVec c) :
    x ++ y ++ z ++ u = (x ++ (y ++ z ++ u)).cast (by omega) := by
  apply BitVec.eq_of_getLsbD_eq
  intro j hj
  simp only [BitVec.getLsbD_cast, BitVec.getLsbD_append]
  by_cases hu : j < c
  · have hyzu : j < a + b + c := by omega
    simp [hu, hyzu]
  by_cases hz : j - c < b
  · have hyzu : j < a + b + c := by omega
    simp [hu, hz, hyzu]
  by_cases hy : j - c - b < a
  · have hyzu : j < a + b + c := by omega
    simp [hu, hz, hy, hyzu]
  · have hyzu : ¬j < a + b + c := by omega
    have hsub : j - c - b - a = j - (a + b + c) := by omega
    simp [hu, hz, hy, hyzu, hsub]

theorem sType_eq_parts (hi : BitVec 7) (lo : BitVec 5) :
    sType op rs1 rs2 f3 (hi ++ lo) = hi ++ rs2 ++ rs1 ++ f3 ++ lo ++ op := by
  have hlow : (hi ++ lo).extractLsb' 0 5 = lo := BitVec.extractLsb'_append_eq_right
  have hhigh : (hi ++ lo).extractLsb' 5 7 = hi := BitVec.extractLsb'_append_eq_left
  rw [sType, hlow, hhigh]
  rfl

end Words

/-! ## The expander -/

/-- The decoder accepts the word nowhere. -/
def Rejected (w : BitVec 32) : Prop :=
  ∀ i : Decoder.Input, i.ex.valid = false → i.instruction = w → (decoder i).illegalInstr = true

/-- The expander gives the word of the instruction, or there is none and the word is refused,
by the expander or by the decoder. -/
def Expands (o : Output) : Option Instr → Prop
  | some ins => o = .legal (encode ins)
  | none => o.illegalInstr = true ∨ Rejected o.instr

def half (i : BitVec 32) : BitVec 16 := i.extractLsb' 0 16

theorem inst_half (i : BitVec 32) (hi lo : Nat) (h : lo + (hi - lo + 1) ≤ 16) :
    Rvc.inst (half i) hi lo = bits i hi lo :=
  (extract_extract i 0 16 lo (hi - lo + 1) h).trans (by rw [Nat.zero_add]; rfl)

theorem funct_cases (f : BitVec 3) : f = 0 ∨ f = 1 ∨ f = 2 ∨ f = 3 ∨ f = 4 ∨ f = 5 ∨ f = 6 ∨
    f = 7 := by
  revert f
  decide

theorem rejected_of_opcode {w : BitVec 32}
    (h : opcode w = opcodeLoadFp ∨ opcode w = opcodeStoreFp ∨ opcode w = opcodeOp32 ∨
      opcode w = opcodeOpImm32) : Rejected w := by
  rintro i hex rfl
  unfold decoder
  rcases h with h | h | h | h <;> rw [hex, h] <;> rfl

theorem rejected_load (rd rs1 : Reg) (imm : BitVec 12) :
    Rejected (imm ++ rs1 ++ 3#3 ++ rd ++ opcodeLoad) := by
  rintro i hex hi
  rw [← iType_eq] at hi
  unfold decoder decodeLoad
  rw [hex, hi, iType, opcode_rType, funct3_rType]
  rfl

theorem rejected_store (rs1 rs2 : Reg) (hi : BitVec 7) (lo : BitVec 2) :
    Rejected (hi ++ rs2 ++ rs1 ++ 3#3 ++ lo ++ 0#3 ++ opcodeStore) := by
  have hw : hi ++ rs2 ++ rs1 ++ 3#3 ++ lo ++ 0#3 ++ opcodeStore =
      rType opcodeStore (lo ++ 0#3) rs1 rs2 3#3 hi :=
    congrArg (· ++ opcodeStore) (regroup _ lo 0#3)
  rintro i hex hi
  unfold decoder decodeStore
  rw [hex, hi, hw, opcode_rType, funct3_rType]
  rfl

section Quadrants

variable (i : BitVec 32)

theorem rs1Short_half : Rvc.rs1Short (half i) = rs1p i := by
  unfold Rvc.rs1Short rs1p
  rw [inst_half i 9 7 (by decide)]

theorem rs2Short_half : Rvc.rs2Short (half i) = rs2p i := by
  unfold Rvc.rs2Short rs2p
  rw [inst_half i 4 2 (by decide)]

theorem rd_half : Rvc.rd (half i) = bits i 11 7 := inst_half i 11 7 (by decide)

theorem rs2_half : Rvc.rs2 (half i) = bits i 6 2 := inst_half i 6 2 (by decide)

theorem imm_half : Rvc.imm (half i) = imm6 i := by
  unfold Rvc.imm imm6
  rw [inst_half i 12 12 (by decide), inst_half i 6 2 (by decide)]

theorem offsetLw_half : Rvc.offsetLw (half i) =
    0#5 ++ bits i 5 5 ++ bits i 12 10 ++ bits i 6 6 ++ 0#2 := by
  unfold Rvc.offsetLw
  rw [inst_half i 12 10 (by decide), inst_half i 6 6 (by decide), inst_half i 5 5 (by decide)]

theorem offsetLw_parts (a : BitVec 1) (b : BitVec 1) (c : BitVec 2) (d : BitVec 1) :
    0#5 ++ a ++ (b ++ c) ++ d ++ 0#2 = (0#5 ++ a ++ b) ++ (c ++ d ++ 0#2) := by
  revert a b c d
  decide

theorem encode_sw : encode (.store .SW (rs1p i) (rs2p i) (Rvc.offsetLw (half i))) =
    0#5 ++ bits i 5 5 ++ bits i 12 12 ++ rs2p i ++ rs1p i ++ 2#3 ++ bits i 11 10 ++ bits i 6 6 ++
      0#2 ++ opcodeStore := by
  have hsplit : bits i 12 10 = bits i 12 12 ++ bits i 11 10 := (extract_join i 10 1 2).symm
  have hoff := offsetLw_parts (bits i 5 5) (bits i 12 12) (bits i 11 10) (bits i 6 6)
  rw [offsetLw_half, hsplit]
  refine (congrArg (sType opcodeStore (rs1p i) (rs2p i) 2) hoff).trans ?_
  refine (sType_eq_parts ..).trans ?_
  exact congrArg (· ++ opcodeStore) (regroup₃ _ (bits i 11 10) (bits i 6 6) 0#2).symm

theorem expandC0_expands : Expands (expandC0 i) (Rvc.quadrant0 (half i)) := by
  unfold expandC0 Rvc.quadrant0
  rw [inst_half i 15 13 (by decide)]
  rcases funct_cases (bits i 15 13) with h | h | h | h | h | h | h | h <;> rw [h]
  · rw [inst_half i 12 5 (by decide)]
    by_cases hz : bits i 12 5 = 0
    · rw [if_pos hz]
      exact .inl (beq_iff_eq.2 hz)
    · rw [if_neg hz, rs2Short_half, inst_half i 10 7 (by decide), inst_half i 12 11 (by decide),
        inst_half i 5 5 (by decide), inst_half i 6 6 (by decide)]
      show Output.mk _ (bits i 12 5 == 0) true = Output.mk _ false true
      rw [beq_false_of_ne hz]
      exact congrArg Output.legal (iType_eq ..).symm
  · exact .inr (rejected_of_opcode (.inl (opcode_append _ _)))
  · rw [rs1Short_half, rs2Short_half, offsetLw_half]
    exact congrArg Output.legal (iType_eq ..).symm
  · exact .inr (rejected_load _ _ _)
  · exact .inl rfl
  · exact .inr (rejected_of_opcode (.inr (.inl (opcode_append _ _))))
  · rw [rs1Short_half, rs2Short_half]
    exact congrArg Output.legal (encode_sw i).symm
  · exact .inr (rejected_store _ _ _ _)

/-! ### Quadrant 1 -/

theorem offsetJ_parts (s a : BitVec 1) (b : BitVec 2) (c d e f : BitVec 1) (g : BitVec 3) :
    ∀ off : BitVec 20, off = (s ++ a ++ b ++ c ++ d ++ e ++ f ++ g).signExtend 20 →
      (off.extractLsb' 19 1 ++ off.extractLsb' 4 6) ++ (off.extractLsb' 0 4 ++ off.extractLsb' 10 1) ++
        off.extractLsb' 14 5 ++ off.extractLsb' 11 3 =
      s ++ a ++ b ++ c ++ d ++ e ++ f ++ g ++ s.signExtend 9 := by
  rintro _ rfl
  revert s a b c d e f g
  decide +kernel

theorem encode_j (h : bits i 15 15 = 1) :
    encode (.jal 0 (Rvc.offsetJ (half i))) = expandJ i := by
  have hoff := offsetJ_parts (bits i 12 12) (bits i 8 8) (bits i 10 9) (bits i 6 6) (bits i 7 7)
    (bits i 2 2) (bits i 11 11) (bits i 5 3) (Rvc.offsetJ (half i)) (by
      unfold Rvc.offsetJ
      rw [inst_half i 12 12 (by decide), inst_half i 8 8 (by decide), inst_half i 10 9 (by decide),
        inst_half i 6 6 (by decide), inst_half i 7 7 (by decide), inst_half i 2 2 (by decide),
        inst_half i 11 11 (by decide), inst_half i 5 3 (by decide)])
  refine (congrArg (fun x : BitVec 20 => x ++ 0#5 ++ opcodeJal) hoff).trans ?_
  unfold expandJ
  rw [h]
  exact congrArg (· ++ opcodeJal) (regroup _ 0#4 0#1).symm

theorem offsetB_parts (s : BitVec 1) (a : BitVec 2) (b : BitVec 1) (c d : BitVec 2) :
    ∀ off : BitVec 12, off = (s ++ a ++ b ++ c ++ d).signExtend 12 →
      off.extractLsb' 0 4 ++ off.extractLsb' 10 1 = c ++ d ++ s ∧
      off.extractLsb' 11 1 ++ off.extractLsb' 4 6 = s.signExtend 4 ++ a ++ b := by
  rintro _ rfl
  revert s a b c d
  decide +kernel

theorem encode_bz {op : BranchOp} (h : op.funct3 = 0#2 ++ bits i 13 13) :
    encode (.branch op (rs1p i) 0 (Rvc.offsetB (half i))) = expandBz i := by
  obtain ⟨hlow, hhigh⟩ := offsetB_parts (bits i 12 12) (bits i 6 5) (bits i 2 2) (bits i 11 10)
    (bits i 4 3) (Rvc.offsetB (half i)) (by
      unfold Rvc.offsetB
      rw [inst_half i 12 12 (by decide), inst_half i 6 5 (by decide), inst_half i 2 2 (by decide),
        inst_half i 11 10 (by decide), inst_half i 4 3 (by decide)])
  rw [encode, bType, hlow, hhigh, h]
  unfold expandBz
  refine (congrArg (· ++ opcodeBranch)
    (regroup₃ _ (bits i 11 10) (bits i 4 3) (bits i 12 12)).symm).trans ?_
  exact congrArg (fun x : BitVec 20 =>
    x ++ bits i 11 10 ++ bits i 4 3 ++ bits i 12 12 ++ opcodeBranch)
    (regroup _ 0#2 (bits i 13 13)).symm

theorem rejected_shift (rd rs1 shamt : Reg) {f3 : BitVec 3} {f7 : BitVec 7}
    (h3 : f3 = 1 ∨ f3 = 5) (h7 : f7.getLsbD 0 = true) :
    Rejected (rType opcodeOpImm rd rs1 shamt f3 f7) := by
  rintro i hex hi
  have hbit : i.instruction.getLsbD 25 = true := by
    have hw : i.instruction.getLsbD 25 = (funct7 i.instruction).getLsbD 0 := by simp [funct7]
    rw [hw, hi, funct7_rType, h7]
  have hop : opcode i.instruction = opcodeOpImm := by rw [hi, opcode_rType]
  have hf3 : funct3 i.instruction = f3 := by rw [hi, funct3_rType]
  unfold decoder decodeOpImm
  rw [hex, hop, hf3, hbit]
  rcases h3 with rfl | rfl <;> rfl

theorem bits_ten {v : BitVec 2} (h : bits i 11 10 = v) : bits i 10 10 = v.extractLsb' 0 1 := by
  rw [← h]
  exact (extract_extract i 10 2 0 1 (by decide)).symm

theorem bit_cases (b : BitVec 1) : b = 0 ∨ b = 1 := by
  revert b
  decide

theorem pair_cases (b : BitVec 2) : b = 0 ∨ b = 1 ∨ b = 2 ∨ b = 3 := by
  revert b
  decide

theorem shift_expands (op : ShiftOp) (h3 : op.funct3 = 5) (b : BitVec 1)
    (h7 : op.funct7 = 0#1 ++ b ++ 0#4 ++ 0#1) (hb : bits i 10 10 = b) :
    Expands
      (.legal (0#1 ++ bits i 10 10 ++ 0#4 ++ bits i 12 12 ++ bits i 6 2 ++ rs1p i ++ 5#3 ++ rs1p i ++
        opcodeOpImm))
      (if bits i 12 12 = 0 then some (.shiftImm op (rs1p i) (rs1p i) (bits i 6 2)) else none) := by
  rcases bit_cases (bits i 12 12) with h12 | h12
  · rw [if_pos h12, h12, hb]
    show Output.legal _ = Output.legal (rType _ _ _ _ op.funct3 op.funct7)
    rw [h3, h7]
    rfl
  · rw [if_neg (by rw [h12]; decide), h12]
    refine .inr (rejected_shift (rs1p i) (rs1p i) (bits i 6 2) (.inr rfl) ?_)
    rw [hb]
    clear h7 hb
    revert b
    decide

theorem expandMiscAlu_expands : Expands (expandMiscAlu i) (Rvc.arithmetic (half i)) := by
  unfold expandMiscAlu Rvc.arithmetic
  rw [rs1Short_half, rs2Short_half, rs2_half, imm_half, inst_half i 11 10 (by decide),
    inst_half i 12 12 (by decide), inst_half i 6 5 (by decide)]
  rcases pair_cases (bits i 11 10) with h | h | h | h
  · have hb := bits_ten i h
    rw [h]
    exact shift_expands i .SRLI rfl _ (by decide) hb
  · have hb := bits_ten i h
    rw [h]
    exact shift_expands i .SRAI rfl _ (by decide) hb
  · rw [h]
    exact congrArg Output.legal (iType_eq ..).symm
  · rw [h]
    rcases funct_cases (bits i 12 12 ++ bits i 6 5) with h | h | h | h | h | h | h | h <;>
      simp only [h]
    · rfl
    · rfl
    · rfl
    · rfl
    · exact .inr (rejected_of_opcode (.inr (.inr (.inl (opcode_append _ _)))))
    · exact .inr (rejected_of_opcode (.inr (.inr (.inl (opcode_append _ _)))))
    · exact .inl rfl
    · exact .inl rfl

theorem addi16sp_parts (s : BitVec 1) (a : BitVec 2) (b c d : BitVec 1) :
    (s ++ a ++ b ++ c ++ d ++ 0#4).signExtend 12 = s.signExtend 3 ++ a ++ b ++ c ++ d ++ 0#4 := by
  revert s a b c d
  decide

theorem lui_parts (s : BitVec 1) (a : BitVec 5) :
    (s ++ a).signExtend 20 = s.signExtend 15 ++ a := by
  revert s a
  decide

theorem bits_top {v : BitVec 3} (h : bits i 15 13 = v) :
    bits i 15 15 = v.extractLsb' 2 1 ∧ bits i 13 13 = v.extractLsb' 0 1 := by
  rw [← h]
  exact ⟨(extract_extract i 13 3 2 1 (by decide)).symm, (extract_extract i 13 3 0 1 (by decide)).symm⟩

theorem lui_expands (h : bits i 15 13 = 3) : Expands (expandC1 i) (Rvc.quadrant1 (half i)) := by
  unfold expandC1 Rvc.quadrant1
  rw [rd_half, inst_half i 15 13 (by decide), inst_half i 12 12 (by decide),
    inst_half i 6 2 (by decide), inst_half i 4 3 (by decide), inst_half i 5 5 (by decide),
    inst_half i 2 2 (by decide), inst_half i 6 6 (by decide), h]
  by_cases hz : bits i 12 12 ++ bits i 6 2 = 0#6
  · rw [if_pos hz]
    exact .inl (beq_iff_eq.2 hz)
  rw [if_neg hz, beq_false_of_ne hz]
  by_cases hrd : bits i 11 7 = 2
  · rw [if_pos hrd, if_pos hrd, addi16sp_parts]
    exact congrArg Output.legal (iType_eq ..).symm
  · rw [if_neg hrd, if_neg hrd, lui_parts]
    exact congrArg Output.legal (uType_eq ..).symm

theorem expandC1_expands (hjal : bits i 15 13 ≠ 1) :
    Expands (expandC1 i) (Rvc.quadrant1 (half i)) := by
  rcases funct_cases (bits i 15 13) with h | h | h | h | h | h | h | h
  · unfold expandC1 Rvc.quadrant1
    rw [rd_half, imm_half, inst_half i 15 13 (by decide), h]
    exact congrArg Output.legal (iType_eq ..).symm
  · exact absurd h hjal
  · unfold expandC1 Rvc.quadrant1
    rw [rd_half, imm_half, inst_half i 15 13 (by decide), h]
    exact congrArg Output.legal (iType_eq ..).symm
  · exact lui_expands i h
  · unfold expandC1 Rvc.quadrant1
    rw [inst_half i 15 13 (by decide), h]
    exact expandMiscAlu_expands i
  · unfold expandC1 Rvc.quadrant1
    rw [inst_half i 15 13 (by decide), h]
    exact congrArg Output.legal (encode_j i (bits_top i h).1).symm
  · unfold expandC1 Rvc.quadrant1
    rw [rs1Short_half, inst_half i 15 13 (by decide), h]
    refine congrArg Output.legal (encode_bz i ?_).symm
    rw [(bits_top i h).2]
    rfl
  · unfold expandC1 Rvc.quadrant1
    rw [rs1Short_half, inst_half i 15 13 (by decide), h]
    refine congrArg Output.legal (encode_bz i ?_).symm
    rw [(bits_top i h).2]
    rfl

/-! ### Quadrant 2 -/

theorem slli_expands (h : bits i 15 13 = 0) : Expands (expandC2 i) (Rvc.quadrant2 (half i)) := by
  unfold expandC2 Rvc.quadrant2
  rw [rd_half, rs2_half, inst_half i 15 13 (by decide), inst_half i 12 12 (by decide), h]
  rcases bit_cases (bits i 12 12) with h12 | h12
  · rw [if_pos h12, h12]
    rfl
  · rw [if_neg (by rw [h12]; decide), h12]
    exact .inr (rejected_shift (bits i 11 7) (bits i 11 7) (bits i 6 2) (.inl rfl) (by decide))

theorem lwsp_expands (h : bits i 15 13 = 2) : Expands (expandC2 i) (Rvc.quadrant2 (half i)) := by
  unfold expandC2 Rvc.quadrant2
  rw [rd_half, inst_half i 15 13 (by decide), inst_half i 3 2 (by decide),
    inst_half i 12 12 (by decide), inst_half i 6 4 (by decide), h]
  by_cases hz : bits i 11 7 = 0
  · rw [if_pos hz]
    exact .inl (beq_iff_eq.2 hz)
  · rw [if_neg hz, beq_false_of_ne hz]
    exact congrArg Output.legal (iType_eq ..).symm

theorem expandJalrMvAdd_expands : Expands (expandJalrMvAdd i) (Rvc.jumpOrMove (half i)) := by
  unfold expandJalrMvAdd Rvc.jumpOrMove
  rw [rd_half, rs2_half, inst_half i 12 12 (by decide)]
  by_cases h12 : bits i 12 12 = 0 <;> by_cases hrs2 : bits i 6 2 = 0 <;>
    by_cases hrd : bits i 11 7 = 0
  · rw [if_pos h12, if_pos h12, if_pos hrs2, if_pos hrs2, if_pos hrd]
    exact .inl (beq_iff_eq.2 hrd)
  · rw [if_pos h12, if_pos h12, if_pos hrs2, if_pos hrs2, if_neg hrd, beq_false_of_ne hrd]
    exact congrArg Output.legal (iType_eq ..).symm
  · rw [if_pos h12, if_pos h12, if_neg hrs2, if_neg hrs2]
    rfl
  · rw [if_pos h12, if_pos h12, if_neg hrs2, if_neg hrs2]
    rfl
  · rw [if_neg h12, if_neg h12, if_pos ⟨hrd, hrs2⟩, if_pos hrs2, if_pos hrd]
    rfl
  · rw [if_neg h12, if_neg h12, if_neg fun h => hrd h.1, if_pos ⟨hrd, hrs2⟩, if_pos hrs2, if_neg hrd]
    exact congrArg Output.legal (iType_eq ..).symm
  · rw [if_neg h12, if_neg h12, if_neg fun h => hrs2 h.2, if_neg fun h => hrs2 h.2, if_neg hrs2]
    rfl
  · rw [if_neg h12, if_neg h12, if_neg fun h => hrs2 h.2, if_neg fun h => hrs2 h.2, if_neg hrs2]
    rfl

theorem swsp_parts (a : BitVec 2) (b : BitVec 1) (c : BitVec 3) :
    0#4 ++ a ++ (b ++ c) ++ 0#2 = (0#4 ++ a ++ b) ++ (c ++ 0#2) := by
  revert a b c
  decide

theorem encode_swsp :
    encode (.store .SW 2 (bits i 6 2) (0#4 ++ bits i 8 7 ++ bits i 12 9 ++ 0#2)) =
      0#4 ++ bits i 8 7 ++ bits i 12 12 ++ bits i 6 2 ++ 2#5 ++ 2#3 ++ bits i 11 9 ++ 0#2 ++
        opcodeStore := by
  have hsplit : bits i 12 9 = bits i 12 12 ++ bits i 11 9 := (extract_join i 9 1 3).symm
  have hoff := swsp_parts (bits i 8 7) (bits i 12 12) (bits i 11 9)
  rw [hsplit]
  refine (congrArg (sType opcodeStore 2 (bits i 6 2) 2) hoff).trans ?_
  refine (sType_eq_parts ..).trans ?_
  exact congrArg (· ++ opcodeStore) (regroup _ (bits i 11 9) 0#2).symm

theorem expandC2_expands : Expands (expandC2 i) (Rvc.quadrant2 (half i)) := by
  rcases funct_cases (bits i 15 13) with h | h | h | h | h | h | h | h
  · exact slli_expands i h
  · unfold expandC2 Rvc.quadrant2
    rw [inst_half i 15 13 (by decide), h]
    exact .inr (rejected_of_opcode (.inl (opcode_append _ _)))
  · exact lwsp_expands i h
  · unfold expandC2 Rvc.quadrant2
    rw [inst_half i 15 13 (by decide), h]
    exact .inr (rejected_load _ _ _)
  · unfold expandC2 Rvc.quadrant2
    rw [inst_half i 15 13 (by decide), h]
    exact expandJalrMvAdd_expands i
  · unfold expandC2 Rvc.quadrant2
    rw [inst_half i 15 13 (by decide), h]
    exact .inr (rejected_of_opcode (.inr (.inl (opcode_append _ _))))
  · unfold expandC2 Rvc.quadrant2
    rw [rs2_half, inst_half i 15 13 (by decide), inst_half i 8 7 (by decide),
      inst_half i 12 9 (by decide), h]
    exact congrArg Output.legal (encode_swsp i).symm
  · unfold expandC2 Rvc.quadrant2
    rw [inst_half i 15 13 (by decide), h]
    exact .inr (rejected_store _ _ _ _)

/-- `C.JAL` is taken for `C.ADDIW`, which is refused. -/
theorem expandC1_jal (h : bits i 15 13 = 1) : Expands (expandC1 i) none := by
  unfold expandC1
  rw [h]
  by_cases hrd : bits i 11 7 = 0
  · rw [hrd]
    exact .inl rfl
  · rw [bne_iff_ne.2 hrd]
    exact .inr (rejected_of_opcode (.inr (.inr (.inr (opcode_append _ _)))))

end Quadrants

def IsCJal (i : BitVec 32) : Prop := bits i 1 0 = 1 ∧ bits i 15 13 = 1

instance (i : BitVec 32) : Decidable (IsCJal i) := inferInstanceAs (Decidable (_ ∧ _))

/-- The check at the end, which puts the word back where it is illegal. -/
theorem Expands.putBack {i : BitVec 32} {o : Output} {r : Option Instr} (h : Expands o r) :
    Expands (if o.illegalInstr && o.isCompressed then { o with instr := i } else o) r := by
  cases r with
  | some ins =>
      obtain rfl : o = .legal (encode ins) := h
      rfl
  | none =>
      cases hill : o.illegalInstr with
      | false => exact h
      | true =>
          cases o.isCompressed with
          | false => exact .inl hill
          | true => exact .inl rfl

theorem compressedDecoder_expands {i : BitVec 32} (hlow : bits i 1 0 ≠ 3) :
    Expands (compressedDecoder i) (if IsCJal i then none else Rvc.expand (half i)) := by
  have hquadrant : Rvc.inst (half i) 1 0 = bits i 1 0 := inst_half i 1 0 (by decide)
  rcases pair_cases (bits i 1 0) with h | h | h | h
  · rw [if_neg fun hj : IsCJal i => absurd (h.symm.trans hj.1) (by decide)]
    unfold compressedDecoder Rvc.expand
    rw [hquadrant, h]
    exact (expandC0_expands i).putBack
  · by_cases hjal : bits i 15 13 = 1
    · have hcj : IsCJal i := ⟨h, hjal⟩
      rw [if_pos hcj]
      unfold compressedDecoder
      rw [h]
      exact (expandC1_jal i hjal).putBack
    · rw [if_neg fun hj : IsCJal i => hjal hj.2]
      unfold compressedDecoder Rvc.expand
      rw [hquadrant, h]
      exact (expandC1_expands i hjal).putBack
  · rw [if_neg fun hj : IsCJal i => absurd (h.symm.trans hj.1) (by decide)]
    unfold compressedDecoder Rvc.expand
    rw [hquadrant, h]
    exact (expandC2_expands i).putBack
  · exact absurd h hlow

/-! ## Decoding -/

def unprivileged : Instr → Bool
  | .sret | .mret | .dret | .wfi | .sfenceVma _ _ => false
  | _ => true

theorem permitted_of_unprivileged {ins : Instr} (h : unprivileged ins = true) (i : Decoder.Input) :
    Permitted i ins := by
  cases ins with
  | sret | mret | dret | wfi | sfenceVma => cases h
  | _ => trivial

theorem unprivileged_expand (w : BitVec 16) : (Rvc.expand w).all unprivileged = true := by
  have h0 : (Rvc.quadrant0 w).all unprivileged = true := by
    unfold Rvc.quadrant0
    split <;> try split
    all_goals rfl
  have ha : (Rvc.arithmetic w).all unprivileged = true := by
    unfold Rvc.arithmetic
    split <;> try split
    all_goals rfl
  have h1 : (Rvc.quadrant1 w).all unprivileged = true := by
    unfold Rvc.quadrant1
    split
    case h_5 => exact ha
    all_goals first | rfl | skip
    split
    · rfl
    · split <;> rfl
  have hj : (Rvc.jumpOrMove w).all unprivileged = true := by
    unfold Rvc.jumpOrMove
    split <;> split <;> try split
    all_goals rfl
  have h2 : (Rvc.quadrant2 w).all unprivileged = true := by
    unfold Rvc.quadrant2
    split
    case h_3 => exact hj
    all_goals try split
    all_goals rfl
  unfold Rvc.expand
  split
  · exact h0
  · exact h1
  · exact h2
  · rfl

open IdStage (Hart decoderIn decodedInstruction)
open Frontend (FetchEntry)

/-- A fetch entry that is decoded with no exception from the fetch and neither an interrupt
nor a debug request to take. -/
structure Quiet (c : Hart) (e : FetchEntry) : Prop where
  ex : e.ex.valid = false
  interrupt : interruptTaken (decoderIn c e) = false
  debugReq : (c.debugReq && !c.debugMode) = false
  privLvl : c.privLvl = privLvlM ∨ c.privLvl = privLvlS ∨ c.privLvl = privLvlU

def widened (e : FetchEntry) (ins : Instr) : FetchEntry := { e with instruction := encode ins }

/-- The word is treated as RV32C says: it is illegal where no instruction is listed for it, and
is otherwise decoded as the 32-bit word of the instruction is, which is decoded as what it
is. -/
def ConformsRvc (c : Hart) (e : FetchEntry) : Prop :=
  (cause (decodedInstruction c e).ex = some illegalInstr ↔ Rvc.expand (half e.instruction) = none) ∧
    ∀ ins, Rvc.expand (half e.instruction) = some ins →
      Entry.of (decodedInstruction c e) = Entry.of (decodedInstruction c (widened e ins)) ∧
        cause (decodedInstruction c e).ex = cause (decodedInstruction c (widened e ins)).ex ∧
        Entry.of (decodedInstruction c e) = entry ins

section Decoding

variable {c : Hart} {e : FetchEntry}

theorem Quiet.plain (h : Quiet c e) (hill : (compressedDecoder e.instruction).illegalInstr = false) :
    Plain (decoderIn c e) :=
  ⟨h.ex, hill, h.interrupt, h.debugReq, h.privLvl⟩

theorem Quiet.cause_refused (h : Quiet c e) (hr : Expands (compressedDecoder e.instruction) none) :
    cause (decodedInstruction c e).ex = some illegalInstr := by
  have hill : ((decoder (decoderIn c e)).illegalInstr || (decoderIn c e).isIllegal) = true := by
    rcases hr with hr | hr
    · exact Bool.or_eq_true_iff.2 (.inr hr)
    · exact Bool.or_eq_true_iff.2 (.inl (hr _ h.ex rfl))
  show cause (exceptionHandling (decoderIn c e) (decoder (decoderIn c e))) = _
  unfold exceptionHandling cause
  rw [hill, h.interrupt, show (decoderIn c e).ex.valid = false from h.ex,
    show ((decoderIn c e).debugReq && !(decoderIn c e).debugMode) = false from h.debugReq]
  rfl

theorem Quiet.decoded {ins : Instr} (h : Quiet c e) (hu : unprivileged ins = true)
    (ho : compressedDecoder e.instruction = .legal (encode ins)) :
    Entry.of (decodedInstruction c e) = entry ins ∧
      cause (decodedInstruction c e).ex = trap (decoderIn c e) ins := by
  refine instructionO_encode (h.plain (by rw [ho]; rfl)) ?_ (permitted_of_unprivileged hu _)
  exact (congrArg Output.instr ho).symm

theorem encode_low (ins : Instr) : bits (encode ins) 1 0 = 3 := by
  have hop : bits (encode ins) 1 0 = (opcode (encode ins)).extractLsb' 0 2 :=
    (extract_extract (encode ins) 0 7 0 2 (by decide)).symm
  rw [hop]
  cases ins <;> simp only [encode, iType, sType, bType, uType, jType, opcode_rType] <;> rfl

theorem compressedDecoder_wide (ins : Instr) :
    compressedDecoder (encode ins) = ⟨encode ins, false, false⟩ := by
  unfold compressedDecoder
  rw [encode_low]
  rfl

theorem Quiet.decoded_wide {ins : Instr} (h : Quiet c e) (hu : unprivileged ins = true) :
    Entry.of (decodedInstruction c (widened e ins)) = entry ins ∧
      cause (decodedInstruction c (widened e ins)).ex = trap (decoderIn c e) ins := by
  have hplain : Plain (decoderIn c (widened e ins)) :=
    ⟨h.ex, congrArg Output.illegalInstr (compressedDecoder_wide ins), h.interrupt, h.debugReq,
      h.privLvl⟩
  have hi : encode ins = (decoderIn c (widened e ins)).instruction :=
    (congrArg Output.instr (compressedDecoder_wide ins)).symm
  exact instructionO_encode hplain hi (permitted_of_unprivileged hu _)

theorem Quiet.trap_ne (h : Quiet c e) (ins : Instr) :
    trap (decoderIn c e) ins ≠ some illegalInstr := by
  cases ins with
  | ecall =>
      show some (if c.privLvl = privLvlM then envCallMmode
        else if c.privLvl = privLvlS then envCallSmode else envCallUmode) ≠ _
      rcases h.privLvl with hp | hp | hp <;> rw [hp] <;> decide
  | ebreak =>
      show some breakpoint ≠ _
      decide
  | _ => exact fun ht => by cases ht

theorem Quiet.conforms (h : Quiet c e)
    (hx : Expands (compressedDecoder e.instruction) (Rvc.expand (half e.instruction))) :
    ConformsRvc c e := by
  have hu := unprivileged_expand (half e.instruction)
  unfold ConformsRvc
  cases hr : Rvc.expand (half e.instruction) with
  | none =>
      rw [hr] at hx
      exact ⟨⟨fun _ => rfl, fun _ => h.cause_refused hx⟩, fun ins hins => by cases hins⟩
  | some ins =>
      rw [hr] at hx hu
      obtain ⟨hentry, hcause⟩ := h.decoded hu hx
      obtain ⟨hwide, hwcause⟩ := h.decoded_wide hu
      refine ⟨⟨fun hill => absurd (hcause.symm.trans hill) (h.trap_ne ins), fun hn => by cases hn⟩, ?_⟩
      intro ins' hins
      obtain rfl := Option.some.inj hins
      exact ⟨hentry.trans hwide.symm, hcause.trans hwcause.symm, hentry⟩

theorem Quiet.not_conforms_jal (h : Quiet c e) (hj : IsCJal e.instruction) : ¬ConformsRvc c e := by
  intro hc
  have hlow : bits e.instruction 1 0 ≠ 3 := by
    rw [hj.1]
    decide
  have hx := compressedDecoder_expands hlow
  rw [if_pos hj] at hx
  have hnone := hc.1.1 (h.cause_refused hx)
  unfold Rvc.expand Rvc.quadrant1 at hnone
  rw [inst_half _ 1 0 (by decide), inst_half _ 15 13 (by decide), hj.1, hj.2] at hnone
  cases hnone

/-- A compressed instruction means what RV32C says unless it is `C.JAL`. -/
theorem conformsRvc_iff (h : Quiet c e) (hlow : bits e.instruction 1 0 ≠ 3) :
    ConformsRvc c e ↔ ¬IsCJal e.instruction := by
  constructor
  · intro hc hj
    exact h.not_conforms_jal hj hc
  · intro hj
    have hx := compressedDecoder_expands hlow
    rw [if_neg hj] at hx
    exact h.conforms hx

end Decoding

def machineHart : Hart := { (default : Hart) with privLvl := privLvlM }

def fetched (w : BitVec 32) : FetchEntry := { (default : FetchEntry) with instruction := w }

theorem quiet_fetched (w : BitVec 32) : Quiet machineHart (fetched w) := by
  have hint : interruptTaken (decoderIn machineHart (fetched w)) =
      interruptTaken (decoderIn machineHart (fetched 0)) := rfl
  exact ⟨rfl, hint.trans (by decide), rfl, .inl rfl⟩

/-- `c.j +16`. -/
theorem c_j_conforms : Rvc.expand (half 0xa801) = some (.jal 0 8) ∧
    ConformsRvc machineHart (fetched 0xa801) :=
  ⟨by decide, (conformsRvc_iff (quiet_fetched _) (by decide)).2 (by decide)⟩

/-- `c.jal +16` is an illegal instruction. -/
theorem c_jal_refused : Rvc.expand (half 0x2801) = some (.jal 1 8) ∧
    cause (decodedInstruction machineHart (fetched 0x2801)).ex = some illegalInstr ∧
    ¬ConformsRvc machineHart (fetched 0x2801) :=
  ⟨by decide, by decide, (quiet_fetched _).not_conforms_jal (by decide)⟩

end Cva6.Isa
