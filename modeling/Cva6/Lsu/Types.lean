import Cva6.Pkg
/-!
# Load-store unit types

The request type of the load-store unit and the functions of `ariane_pkg.sv`
that lay out data and byte enables on the 64-bit data port. With `XLEN = 32` the
value is rotated inside one word and the store buffer places the word.
-/

namespace Cva6.Lsu

structure LsuCtrl where
  valid : Bool
  vaddr : XLen
  overflow : Bool
  data : BitVec 64
  be : BitVec 8
  fu : Fu
  operator : FuOp
  transId : TransId
  deriving DecidableEq, Repr, Inhabited

inductive Amo where
  | NONE | LR | SC | SWAP | ADD | AND | OR | XOR | MAX | MAXU | MIN | MINU
  deriving DecidableEq, Repr, Inhabited

/-- The atomic operation `amo_op_d` that the store unit derives. -/
def amoOp : FuOp → Amo
  | .AMO_LRW | .AMO_LRD => .LR
  | .AMO_SCW | .AMO_SCD => .SC
  | .AMO_SWAPW | .AMO_SWAPD => .SWAP
  | .AMO_ADDW | .AMO_ADDD => .ADD
  | .AMO_ANDW | .AMO_ANDD => .AND
  | .AMO_ORW | .AMO_ORD => .OR
  | .AMO_XORW | .AMO_XORD => .XOR
  | .AMO_MAXW | .AMO_MAXD => .MAX
  | .AMO_MAXWU | .AMO_MAXDU => .MAXU
  | .AMO_MINW | .AMO_MIND => .MIN
  | .AMO_MINWU | .AMO_MINDU => .MINU
  | _ => .NONE

def extractTransferSize : FuOp → BitVec 2
  | .LD | .SD | .FLD | .FSD => 3
  | .AMO_LRD | .AMO_SCD | .AMO_SWAPD | .AMO_ADDD | .AMO_ANDD | .AMO_ORD => 3
  | .AMO_XORD | .AMO_MAXD | .AMO_MAXDU | .AMO_MIND | .AMO_MINDU => 3
  | .LW | .LWU | .SW | .FLW | .FSW => 2
  | .AMO_LRW | .AMO_SCW | .AMO_SWAPW | .AMO_ADDW | .AMO_ANDW | .AMO_ORW => 2
  | .AMO_XORW | .AMO_MAXW | .AMO_MAXWU | .AMO_MINW | .AMO_MINWU => 2
  | .LH | .LHU | .SH | .FLH | .FSH => 1
  | .LB | .LBU | .SB | .FLB | .FSB => 0
  | _ => 3

/-- `data_align` for `XLEN = 32`: bit 2 of the address is ignored. -/
def dataAlign (addr : BitVec 3) (data : XLen) : XLen :=
  match addr.setWidth 2 with
  | 0#2 => data
  | 1#2 => data.extractLsb' 0 24 ++ data.extractLsb' 24 8
  | 2#2 => data.extractLsb' 0 16 ++ data.extractLsb' 16 16
  | _ => data.extractLsb' 0 8 ++ data.extractLsb' 8 24

/-- `be_gen`; the offsets its inner `case` statements leave out give no bytes. -/
def beGen (addr : BitVec 3) (size : BitVec 2) : BitVec 8 :=
  match size with
  | 3#2 => 0xff
  | 2#2 => if addr.toNat ≤ 4 then 0x0f <<< addr.toNat else 0
  | 1#2 => if addr.toNat ≤ 6 then 0x03 <<< addr.toNat else 0
  | _ => 0x01 <<< addr.toNat

theorem amoOp_eq_none_iff (op : FuOp) : amoOp op = .NONE ↔ isAmo op = false := by
  cases op <;> decide

end Cva6.Lsu
