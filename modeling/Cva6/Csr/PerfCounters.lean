import Cva6.Pkg
import Cva6.Sync.Machine
/-!
# The performance counters

`perf_counters.sv`. Every condition adds one to its counter and several assignments to one
counter in a cycle assign the same value, so a counter goes up by one at most. The loop over the
commit ports stops before the last port.
-/

namespace Cva6.Perf

/-- The counters `CSR_ML1_ICACHE_MISS` to `CSR_MIF_EMPTY`. -/
inductive Counter where
  | ML1_ICACHE_MISS | ML1_DCACHE_MISS | MITLB_MISS | MDTLB_MISS | MLOAD | MSTORE
  | MEXCEPTION | MEXCEPTION_RET | MBRANCH_JUMP | MCALL | MRET | MMIS_PREDICT | MSB_FULL
  | MIF_EMPTY
  deriving DecidableEq, Repr

/-- The counter at `{RegOffset, addr_i}`; the addresses without one are reserved. -/
def Counter.ofAddr (addr : BitVec 5) : Option Counter :=
  match addr with
  | 0x03#5 => some .ML1_ICACHE_MISS
  | 0x04#5 => some .ML1_DCACHE_MISS
  | 0x05#5 => some .MITLB_MISS
  | 0x06#5 => some .MDTLB_MISS
  | 0x07#5 => some .MLOAD
  | 0x08#5 => some .MSTORE
  | 0x09#5 => some .MEXCEPTION
  | 0x0a#5 => some .MEXCEPTION_RET
  | 0x0b#5 => some .MBRANCH_JUMP
  | 0x0c#5 => some .MCALL
  | 0x0d#5 => some .MRET
  | 0x0e#5 => some .MMIS_PREDICT
  | 0x0f#5 => some .MSB_FULL
  | 0x10#5 => some .MIF_EMPTY
  | _ => none

abbrev Regs := Counter → XLen

def reset : Regs := fun _ => 0

structure Input where
  debugMode : Bool
  addr : BitVec 5
  we : Bool
  data : XLen
  commitInstr : CommitPorts
  commitAck : CommitAck
  l1IcacheMiss : Bool
  l1DcacheMiss : Bool
  itlbMiss : Bool
  dtlbMiss : Bool
  sbFull : Bool
  ifEmpty : Bool
  exValid : Bool
  eret : Bool
  /-- `valid` and `is_mispredict` of `resolved_branch_i`. -/
  isMispredict : Bool
  deriving DecidableEq, Repr, Inhabited

variable (q : Regs) (i : Input)

def ports : List (ScoreboardEntry × Bool) :=
  [(i.commitInstr.instr0, i.commitAck.ack0), (i.commitInstr.instr1, i.commitAck.ack1)]

/-- An instruction of the class is committed on a port below `NR_COMMIT_PORTS - 1`. -/
def retired (p : ScoreboardEntry → Bool) : Bool := ((ports i).take 1).any fun e => e.2 && p e.1

/-- The unconditional jump that saves the return address, which is expected as `ADD`. -/
def testsCall (e : ScoreboardEntry) : Bool := e.fu == .CTRL_FLOW && e.op == .ADD && e.rd == 1

def testsReturn (e : ScoreboardEntry) : Bool := e.op == .JALR && e.rd == 1

def event : Counter → Bool
  | .ML1_ICACHE_MISS => i.l1IcacheMiss
  | .ML1_DCACHE_MISS => i.l1DcacheMiss
  | .MITLB_MISS => i.itlbMiss
  | .MDTLB_MISS => i.dtlbMiss
  | .MLOAD => retired i fun e => e.fu == .LOAD
  | .MSTORE => retired i fun e => e.fu == .STORE
  | .MBRANCH_JUMP => retired i fun e => e.fu == .CTRL_FLOW
  | .MCALL => retired i testsCall
  | .MRET => retired i testsReturn
  | .MEXCEPTION => i.exValid
  | .MEXCEPTION_RET => i.eret
  | .MMIS_PREDICT => i.isMispredict
  | .MSB_FULL => i.sbFull
  | .MIF_EMPTY => i.ifEmpty

def dataO (addr : BitVec 5) : XLen := ((Counter.ofAddr addr).map q).getD 0

def next : Regs := fun c =>
  if i.we && Counter.ofAddr i.addr == some c then i.data
  else if !i.debugMode && event i c then q c + 1
  else q c

theorem next_of_not_written {q : Regs} {i : Input} {c : Counter} (hd : i.debugMode = false)
    (hw : (i.we && Counter.ofAddr i.addr == some c) = false) :
    next q i c = if event i c then q c + 1 else q c := by
  rw [next, hw, hd]
  rfl

theorem retired_eq (p : ScoreboardEntry → Bool) :
    retired i p = (i.commitAck.ack0 && p i.commitInstr.instr0) := by
  simp [retired, ports]

end Cva6.Perf
