import Cva6.Backend.Flush
import Cva6.DataSide.Model
import Cva6.Lsu.LoadPath
/-!
# The data side with its record

The data side is run together with the path of its loads, the request that was given to the
load-store unit for each scoreboard slot, and the reads of device pages next to the loads
from such pages that were retired.
-/

namespace Cva6.DataSide

open Cva6.Sync Cva6.Issue Cva6.Lsu

structure Tracked where
  hw : State
  path : PathState
  /-- The load that the output register holds, unless it was flushed. -/
  piped : Option Item
  req : TransId → LsuCtrl
  /-- The reads of device pages that the memory side has accepted. -/
  reads : List Dcache.MemReq
  /-- The loads from device pages that the commit stage has acknowledged. -/
  retired : List LsuCtrl

section Record

variable (cfg : Dcache.Cfg) (s : State) (i : Input)

/-- The inputs of the load path; what it drives itself is ignored. -/
def pathIn : PathInput :=
  let c := Dcache.ctrlIn cfg s.dc.hw (dcIn cfg s i) 1
  { lsu := lsuIn cfg s i
    cacheEn := c.cacheEn
    missAck := c.missAck
    missReplay := c.missReplay
    missRtrnVld := c.missRtrnVld
    wrClVld := c.wrClVld
    rdAck := c.rdAck
    rdVldBits := c.rdVldBits
    rdHitOh := c.rdHitOh
    rdData := ofWord (Dcache.rdata cfg s.dc.hw (dcIn cfg s i)) }

/-- The page is non-idempotent, and no line of it is cached. -/
def device (tag : BitVec 20) : Bool := cfg.nonIdempotent tag && !cfg.cacheable tag

def deviceReads : List Dcache.MemReq :=
  (Dcache.accepted cfg s.dc.hw (dcIn cfg s i)).toList.filter fun r =>
    r.rtype == .LOAD && device cfg r.paddr.word.tag

def ackedSlots : List TransId :=
  (if (out cfg s i).commitAck.ack0 then [s.core.sb.commitPointer0] else []) ++
    (if (out cfg s i).commitAck.ack1 then [s.core.sb.commitPointer1] else [])

end Record

def reqNow (t : Tracked) (n : TransId) : LsuCtrl :=
  if t.hw.core.iro.lsuValid && n == t.hw.core.iro.transId then
    lsuReq t.hw.core.iro.lsuValid (fuData t.hw.core.iro)
  else t.req n

def pageOf (c : LsuCtrl) : BitVec 20 := c.vaddr.extractLsb' 12 20

def deviceRetired (cfg : Dcache.Cfg) (t : Tracked) (i : Input) : List LsuCtrl :=
  ((ackedSlots cfg t.hw i).filter fun n =>
    (t.hw.core.sb.mem n).sbe.fu == .LOAD && device cfg (pageOf (t.req n))).map t.req

def tracked (cfg : Dcache.Cfg) (z : Dcache.Start) : Machine Tracked Input where
  init := ⟨(dataSide cfg z).init, (loadPath cfg.nonIdempotent).init, none, fun _ => default, [], []⟩
  next t i :=
    { hw := (dataSide cfg z).next t.hw i
      path := (loadPath cfg.nonIdempotent).next t.path (pathIn cfg t.hw i)
      piped :=
        if (flushes cfg t.hw i).flushEx then none
        else if ldValidO cfg.nonIdempotent t.path (pathIn cfg t.hw i) then t.path.outstanding
        else none
      req := reqNow t
      reads := t.reads ++ deviceReads cfg t.hw i
      retired := t.retired ++ deviceRetired cfg t i }

/-! ## The wires -/

variable {cfg : Dcache.Cfg} {z : Dcache.Start} {s : State} {i : Input}

/-- The controller drives all flushes of the back end together. -/
theorem flushUnissued_of_flushEx (h : (flushes cfg s i).flushEx = true) :
    (flushes cfg s i).flushUnissuedInstr = true :=
  Controller.flushUnissuedInstr_of_flushEx _ h

theorem lsuValid_next :
    (ReadOperands.next s.core.iro (Core.iroIn s.core (coreIn cfg s i))).lsuValid =
      (issueValid cfg s i && lsuReady (lsu s) && !(flushes cfg s i).flushEx &&
        ((fuData (ReadOperands.next s.core.iro (Core.iroIn s.core (coreIn cfg s i)))).fu == .LOAD ||
          (fuData (ReadOperands.next s.core.iro (Core.iroIn s.core (coreIn cfg s i)))).fu ==
            .STORE)) := by
  let j := Core.iroIn s.core (coreIn cfg s i)
  show (issueValid cfg s i && (j.issueInstr.fu == .LOAD || j.issueInstr.fu == .STORE)) =
    (issueValid cfg s i && lsuReady (lsu s) && !(flushes cfg s i).flushEx &&
      (j.issueInstr.fu == .LOAD || j.issueInstr.fu == .STORE))
  cases hv : issueValid cfg s i with
  | false => rfl
  | true =>
      have hv : (!j.issueInstr.ex.valid && j.issueInstrValid &&
        ReadOperands.issueAck s.core.iro j && !j.flush) = true := hv
      simp only [Bool.and_eq_true, Bool.not_eq_true'] at hv
      obtain ⟨⟨⟨hex, -⟩, hack⟩, hflush⟩ := hv
      have hnoflush : (flushes cfg s i).flushEx = false := by
        by_contra hne
        have hall : j.flush = true := flushUnissued_of_flushEx (Bool.not_eq_false _ ▸ hne)
        rw [hflush] at hall
        cases hall
      rw [hnoflush]
      cases hfu : j.issueInstr.fu == .LOAD || j.issueInstr.fu == .STORE with
      | false => simp
      | true =>
          have hready : lsuReady (lsu s) = true := by
            have hbusy : ReadOperands.fuBusy j = false := by
              have hack : (if s.core.iro.multValid && j.issueInstr.fu != .MULT then false
                else j.issueInstrValid && ((!ReadOperands.stall j && !ReadOperands.fuBusy j &&
                  ReadOperands.wawFree j) || j.issueInstr.ex.valid || j.issueInstr.fu == .NONE)) =
                true := hack
              have hnone : (j.issueInstr.fu == .NONE) = false := by
                cases hf : j.issueInstr.fu <;> simp [hf] at hfu ⊢
              rw [hex, hnone] at hack
              split_ifs at hack
              simp only [Bool.or_false, Bool.and_eq_true, Bool.not_eq_true'] at hack
              exact hack.2.1.2
            have hlsu : ReadOperands.fuBusy j = !lsuReady (lsu s) := by
              unfold ReadOperands.fuBusy
              cases hf : j.issueInstr.fu <;> simp [hf] at hfu ⊢ <;> rfl
            rw [hlsu, Bool.not_eq_false'] at hbusy
            exact hbusy
          rw [hready]
          rfl

theorem lsu_next :
    lsu ((dataSide cfg z).next s i) =
      (loadStoreUnit cfg.nonIdempotent).next (lsu s) (lsuIn cfg s i) := by
  show Lsu.State.mk (ReadOperands.next s.core.iro (Core.iroIn s.core (coreIn cfg s i))).lsuValid
    _ _ _ _ _ _ = _
  rw [lsuValid_next]
  rfl

structure Agrees (t : Tracked) : Prop where
  lsu : t.path.lsu.hw = lsu t.hw
  port : t.path.ctrl = t.hw.dc.hw.ctrl 1

variable {t : Tracked}

theorem Agrees.pathReq_eq (h : Agrees t) :
    pathReq cfg.nonIdempotent t.path (pathIn cfg t.hw i) = (dcIn cfg t.hw i).loads 1 := by
  show loadReq cfg.nonIdempotent t.path.lsu.hw _ =
    loadReq cfg.nonIdempotent (DataSide.lsu t.hw) (lsuReqIn cfg t.hw i)
  rw [h.lsu]
  exact loadReq_congr cfg.nonIdempotent (DataSide.lsu t.hw) rfl

theorem Agrees.ctrlIn_eq (h : Agrees t) :
    Lsu.ctrlIn cfg.nonIdempotent t.path (pathIn cfg t.hw i) =
      Dcache.ctrlIn cfg t.hw.dc.hw (dcIn cfg t.hw i) 1 := by
  unfold Lsu.ctrlIn
  rw [h.pathReq_eq]
  rfl

theorem Agrees.lsuIn_eq (h : Agrees t) :
    Lsu.lsuIn cfg.nonIdempotent t.path (pathIn cfg t.hw i) = lsuIn cfg t.hw i := by
  unfold Lsu.lsuIn
  rw [h.ctrlIn_eq, h.port]
  rfl

theorem Agrees.next (h : Agrees t) : Agrees ((tracked cfg z).next t i) where
  lsu := by
    show (loadStoreUnit cfg.nonIdempotent).next t.path.lsu.hw
      (Lsu.lsuIn cfg.nonIdempotent t.path (pathIn cfg t.hw i)) = _
    rw [h.lsuIn_eq, h.lsu]
    exact (lsu_next (z := z)).symm
  port := by
    show Dcache.Ctrl.next t.path.ctrl
      (Lsu.ctrlIn cfg.nonIdempotent t.path (pathIn cfg t.hw i)) = _
    rw [h.ctrlIn_eq, h.port]
    rfl

theorem tracked_hw (ins : List Input) :
    ((tracked cfg z).run ins).hw = (dataSide cfg z).run ins := by
  induction ins using List.reverseRecOn with
  | nil => rfl
  | append_singleton ins i ih =>
      rw [Machine.run_snoc, Machine.run_snoc, ← ih]
      rfl

theorem run_dc (ins : List Input) :
    ((dataSide cfg z).run ins).dc =
      (Dcache.dcache cfg z).run ((dataSide cfg z).log (fun s i => [dcIn cfg s i]) ins) := by
  induction ins using List.reverseRecOn with
  | nil => rfl
  | append_singleton ins i ih =>
      rw [Machine.run_snoc, Machine.log_snoc, Machine.run_snoc, ← ih]
      rfl

end Cva6.DataSide
