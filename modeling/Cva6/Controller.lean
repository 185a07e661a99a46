import Cva6.Pkg
/-!
# The flush controller

`controller.sv` in the write-through data-cache configuration (`WT_DCACHE`), in
which neither fence raises `flush_dcache` or `fence_active`.
-/

namespace Cva6.Controller

structure Regs where
  fenceActive : Bool
  flushDcache : Bool
  deriving DecidableEq, Repr

structure Input where
  eret : Bool
  exValid : Bool
  setDebugPc : Bool
  isMispredict : Bool
  flushCsr : Bool
  fenceI : Bool
  fence : Bool
  sfenceVma : Bool
  flushCommit : Bool
  deriving DecidableEq, Repr

structure Output where
  setPcCommit : Bool
  flushIf : Bool
  flushUnissuedInstr : Bool
  flushId : Bool
  flushEx : Bool
  flushIcache : Bool
  flushTlb : Bool
  flushBp : Bool
  deriving DecidableEq, Repr

def restart (o : Output) : Output :=
  { o with
    setPcCommit := true
    flushIf := true
    flushUnissuedInstr := true
    flushId := true
    flushEx := true }

def flushCtrl (i : Input) : Output :=
  let o : Output := ⟨false, false, false, false, false, false, false, false⟩
  let o := if i.isMispredict then { o with flushUnissuedInstr := true, flushIf := true } else o
  let o := if i.fence then restart o else o
  let o := if i.fenceI then { restart o with flushIcache := true } else o
  let o := if i.sfenceVma then { restart o with flushTlb := true } else o
  let o := if i.flushCsr || i.flushCommit then restart o else o
  if i.exValid || i.eret || i.setDebugPc then
    { restart o with setPcCommit := false, flushBp := true }
  else o

def reset : Regs := ⟨false, false⟩

/-- The clocked process; without a data-cache flush the registers never rise. -/
def next (q : Regs) : Regs := ⟨q.fenceActive, false⟩

def halt (q : Regs) (haltCsr : Bool) : Bool := haltCsr || q.fenceActive

theorem flushCtrl_flushEx (i : Input) :
    (flushCtrl i).flushEx =
      (i.fence || i.fenceI || i.sfenceVma || i.flushCsr || i.flushCommit || i.exValid ||
        i.eret || i.setDebugPc) := by
  simp only [flushCtrl, restart, apply_ite Output.flushEx, ite_self]
  cases i.fence <;> cases i.fenceI <;> cases i.sfenceVma <;> cases i.flushCsr <;>
    cases i.flushCommit <;> cases i.exValid <;> cases i.eret <;> cases i.setDebugPc <;> rfl

theorem flushCtrl_setPcCommit (i : Input) :
    (flushCtrl i).setPcCommit =
      ((i.fence || i.fenceI || i.sfenceVma || i.flushCsr || i.flushCommit) &&
        !(i.exValid || i.eret || i.setDebugPc)) := by
  simp only [flushCtrl, restart, apply_ite Output.setPcCommit, ite_self]
  cases i.fence <;> cases i.fenceI <;> cases i.sfenceVma <;> cases i.flushCsr <;>
    cases i.flushCommit <;> cases i.exValid <;> cases i.eret <;> cases i.setDebugPc <;> rfl

theorem flushCtrl_flushId (i : Input) : (flushCtrl i).flushId = (flushCtrl i).flushEx := by
  simp only [flushCtrl, restart, apply_ite Output.flushEx, apply_ite Output.flushId]

/-- What is not issued yet and what is being fetched is flushed with it, and on a misprediction. -/
theorem flushCtrl_flushUnissuedInstr (i : Input) :
    (flushCtrl i).flushUnissuedInstr = (i.isMispredict || (flushCtrl i).flushId) ∧
      (flushCtrl i).flushIf = (i.isMispredict || (flushCtrl i).flushId) := by
  obtain ⟨a1, a2, a3, a4, a5, a6, a7, a8, a9⟩ := i
  cases a1 <;> cases a2 <;> cases a3 <;> cases a4 <;> cases a5 <;> cases a6 <;> cases a7 <;>
    cases a8 <;> cases a9 <;> decide

theorem flushUnissuedInstr_of_flushEx (i : Input) (h : (flushCtrl i).flushEx = true) :
    (flushCtrl i).flushUnissuedInstr = true := by
  rw [(flushCtrl_flushUnissuedInstr i).1, flushCtrl_flushId, h, Bool.or_true]

end Cva6.Controller
