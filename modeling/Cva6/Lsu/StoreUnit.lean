import Cva6.Lsu.StoreBuffer
import Cva6.Sync.Machine
/-!
# The store unit

`store_unit.sv` with its store buffer and its one-entry atomic buffer. The answers
of the address translation (hit, exception, physical address) are inputs; without
an MMU (`MMU_PRESENT = 0`) every address translates to itself, one cycle later.
-/

namespace Cva6.Lsu.StoreUnit

open Cva6.Sync

inductive Fsm where
  | IDLE | VALID_STORE | WAIT_TRANSLATION | WAIT_STORE_READY
  deriving DecidableEq, Repr

structure Regs where
  state : Fsm
  stBe : BitVec 8
  stData : XLen
  stDataSize : BitVec 2
  transId : TransId
  amoOp : Amo
  deriving DecidableEq, Repr

def Regs.reset : Regs := ⟨.IDLE, 0, 0, 0, 0, .NONE⟩

/-! ## Control -/

structure ControlIn where
  flush : Bool
  valid : Bool
  instrIsAmo : Bool
  stReady : Bool
  dtlbHit : Bool
  exValid : Bool
  deriving DecidableEq, Repr

structure ControlOut where
  translationReq : Bool
  valid : Bool
  stValid : Bool
  stValidWithoutFlush : Bool
  popSt : Bool
  state : Fsm
  deriving DecidableEq, Repr

/-- Take up a new request: it is posted in the next cycle unless its translation
or the buffers are not ready. -/
def takeRequest (i : ControlIn) (o : ControlOut) : ControlOut :=
  let o := { o with state := .VALID_STORE, translationReq := true, popSt := true }
  let o := if !i.dtlbHit then { o with state := .WAIT_TRANSLATION, popSt := false } else o
  if !i.stReady then { o with state := .WAIT_STORE_READY, popSt := false } else o

def storeControl (state : Fsm) (i : ControlIn) : ControlOut :=
  let o : ControlOut := ⟨false, false, false, false, false, state⟩
  let o :=
    match state with
    | .IDLE => if i.valid then takeRequest i o else o
    | .VALID_STORE =>
        let o := { o with valid := true, stValid := !i.flush, stValidWithoutFlush := true }
        -- the atomic buffer has depth one, so an atomic waits
        if i.valid && !i.instrIsAmo then takeRequest i o else { o with state := .IDLE }
    | .WAIT_STORE_READY =>
        let o := { o with translationReq := true }
        if i.stReady && i.dtlbHit then { o with state := .IDLE } else o
    | .WAIT_TRANSLATION =>
        let o := { o with translationReq := true }
        if i.dtlbHit then { o with state := .IDLE } else o
  let o :=
    if i.exValid && state != .IDLE then
      { o with popSt := true, stValid := false, state := .IDLE, valid := true }
    else o
  if i.flush then { o with state := .IDLE } else o

/-! ## The atomic buffer -/

/-- `amo_op_t` of `amo_buffer.sv`. -/
structure AmoEntry where
  op : Amo
  paddr : BitVec 32
  data : XLen
  size : BitVec 2
  deriving DecidableEq, Repr

/-- One clock edge of the depth-one `fifo_v3`: a push into a full buffer and a pop
of an empty one are ignored. -/
def amoNext (q : Option AmoEntry) (flush push pop : Bool) (e : AmoEntry) : Option AmoEntry :=
  if flush then none
  else
    match q with
    | some a => if pop then none else some a
    | none => if push then some e else none

/-! ## The unit with its buffers -/

structure Input where
  flush : Bool
  lsuCtrl : LsuCtrl
  dtlbHit : Bool
  exValid : Bool
  paddr : BitVec 32
  commit : Bool
  amoValidCommit : Bool
  amoAck : Bool
  dataGnt : Bool
  deriving DecidableEq, Repr, Inhabited

structure State where
  unit : Regs
  buffer : StoreBuffer.Regs
  amo : Option AmoEntry

variable (s : State) (i : Input)

def stReady : Bool := StoreBuffer.ready s.buffer i.commit && s.amo.isNone

def controlIn : ControlIn where
  flush := i.flush
  valid := i.lsuCtrl.fu == .STORE && i.lsuCtrl.valid
  instrIsAmo := isAmo i.lsuCtrl.operator
  stReady := stReady s i
  dtlbHit := i.dtlbHit
  exValid := i.exValid

def control : ControlOut := storeControl s.unit.state (controlIn s i)

def bufferIn : StoreBuffer.Input where
  flush := i.flush
  commit := i.commit
  valid := (control s i).stValid && s.unit.amoOp == .NONE
  paddr := i.paddr
  data := s.unit.stData
  be := s.unit.stBe
  dataSize := s.unit.stDataSize
  dataGnt := i.dataGnt

/-- The data registers sample the request in every cycle. -/
def unitNext : Regs where
  state := (control s i).state
  stBe := i.lsuCtrl.be
  stData :=
    if isAmo i.lsuCtrl.operator then i.lsuCtrl.data.setWidth 32
    else dataAlign (i.lsuCtrl.vaddr.setWidth 3) (i.lsuCtrl.data.setWidth 32)
  stDataSize := extractTransferSize i.lsuCtrl.operator
  transId := i.lsuCtrl.transId
  amoOp := amoOp i.lsuCtrl.operator

def storeUnit : Machine State Input where
  init := ⟨Regs.reset, StoreBuffer.reset, none⟩
  next s i :=
    { unit := unitNext s i
      buffer := StoreBuffer.next s.buffer (bufferIn s i)
      amo := amoNext s.amo (i.flush && !i.amoValidCommit)
        ((control s i).stValid && s.unit.amoOp != .NONE) i.amoAck
        ⟨s.unit.amoOp, i.paddr, s.unit.stData, s.unit.stDataSize⟩ }

def amoReq : Bool :=
  StoreBuffer.noStPending s.buffer && i.amoValidCommit && s.amo.isSome

/-! ## When a store is posted -/

theorem control_stValid :
    (control s i).stValid = (s.unit.state == .VALID_STORE && !i.flush && !i.exValid) := by
  have general (state : Fsm) (c : ControlIn) : (storeControl state c).stValid =
      (state == .VALID_STORE && !c.flush && !c.exValid) := by
    obtain ⟨flush, valid, instrIsAmo, stReady, dtlbHit, exValid⟩ := c
    cases state <;> cases flush <;> cases valid <;> cases stReady <;> cases instrIsAmo <;>
      cases dtlbHit <;> cases exValid <;> decide
  exact general _ _

/-- A store is posted in the next cycle only if it was requested in a cycle
without a flush in which the buffers were ready. -/
theorem storeControl_validStore (state : Fsm) (c : ControlIn)
    (h : (storeControl state c).state = .VALID_STORE) :
    c.flush = false ∧ c.valid = true ∧ c.stReady = true := by
  obtain ⟨flush, valid, instrIsAmo, stReady, dtlbHit, exValid⟩ := c
  revert h
  cases state <;> cases flush <;> cases valid <;> cases stReady <;> cases instrIsAmo <;>
    cases dtlbHit <;> cases exValid <;> decide

/-- An atomic is not taken up while the request before it is posted. -/
theorem storeControl_takes_amo {state : Fsm} {c : ControlIn}
    (h : (storeControl state c).state = .VALID_STORE) (hamo : c.instrIsAmo = true) :
    state ≠ .VALID_STORE := by
  obtain ⟨flush, valid, instrIsAmo, stReady, dtlbHit, exValid⟩ := c
  subst hamo
  revert h
  cases state <;> cases flush <;> cases valid <;> cases stReady <;> cases dtlbHit <;>
    cases exValid <;> decide

/-- The request popped from the LSU in this cycle will be posted, if it translates:
the cycle is not flushed, and what is written back is not an exception. -/
def taken : Bool :=
  (control s i).popSt && !i.flush && !((control s i).valid && i.exValid)

theorem state_validStore_iff : (control s i).state = .VALID_STORE ↔ taken s i = true := by
  have general (state : Fsm) (c : ControlIn) : (storeControl state c).state = .VALID_STORE ↔
      ((storeControl state c).popSt && !c.flush &&
        !((storeControl state c).valid && c.exValid)) = true := by
    obtain ⟨flush, valid, instrIsAmo, stReady, dtlbHit, exValid⟩ := c
    cases state <;> cases flush <;> cases valid <;> cases stReady <;> cases instrIsAmo <;>
      cases dtlbHit <;> cases exValid <;> decide
  exact general _ _

theorem control_stValidWithoutFlush :
    (control s i).stValidWithoutFlush = (s.unit.state == .VALID_STORE) := by
  have general (state : Fsm) (c : ControlIn) :
      (storeControl state c).stValidWithoutFlush = (state == .VALID_STORE) := by
    obtain ⟨flush, valid, instrIsAmo, stReady, dtlbHit, exValid⟩ := c
    cases state <;> cases flush <;> cases valid <;> cases stReady <;> cases instrIsAmo <;>
      cases dtlbHit <;> cases exValid <;> decide
  exact general _ _

theorem storeControl_popSt {state : Fsm} {c : ControlIn} (hex : c.exValid = false)
    (h : (storeControl state c).popSt = true) : c.valid = true := by
  obtain ⟨flush, valid, instrIsAmo, stReady, dtlbHit, exValid⟩ := c
  subst hex
  revert h
  cases state <;> cases flush <;> cases valid <;> cases stReady <;> cases instrIsAmo <;>
    cases dtlbHit <;> decide

/-! ## Room in the speculative queue -/

variable {s : State} {i : Input}

theorem state_of_bufferIn_valid (hv : (bufferIn s i).valid = true) :
    s.unit.state = .VALID_STORE := by
  simp [bufferIn, control_stValid] at hv
  exact hv.1.1.1

/-- The store that is about to be posted finds room: the buffer was ready when it was taken,
and only the one before it can have been posted since. -/
theorem room_next (hok : s.buffer.speculative.Ok)
    (hroom : s.unit.state = .VALID_STORE → s.buffer.speculative.statusCnt.toNat ≤ 3)
    (hcommit : i.commit = true → 0 < s.buffer.speculative.statusCnt.toNat ∧ i.flush = false)
    (hs : (storeUnit.next s i).unit.state = .VALID_STORE) :
    (storeUnit.next s i).buffer.speculative.statusCnt.toNat ≤ 3 := by
  obtain ⟨hflush, -, hready⟩ := storeControl_validStore _ _ hs
  have hflush : i.flush = false := hflush
  have hready : (StoreBuffer.ready s.buffer i.commit && s.amo.isNone) = true := hready
  have hle := hok.le
  have hvalid : (bufferIn s i).valid = true → s.buffer.speculative.statusCnt.toNat ≤ 3 :=
    fun hv => hroom (state_of_bufferIn_valid hv)
  have hspec := (StoreBuffer.coreIf_spec (i := bufferIn s i) hok
    (fun hv => Nat.lt_succ_of_le (hvalid hv)) hcommit).2
  have hlen : (storeUnit.next s i).buffer.speculative.statusCnt.toNat =
      (StoreBuffer.coreIf s.buffer (bufferIn s i)).contents.length :=
    (StoreBuffer.Queue.length_contents _).symm
  rw [hlen, hspec]
  show List.length (if i.flush then _ else _) ≤ 3
  rw [hflush]
  show List.length ((if i.commit then _ else _) ++ _) ≤ 3
  cases hc : i.commit with
  | true =>
      have hpos := (hcommit hc).1
      cases hv : (bufferIn s i).valid with
      | true =>
          have := hvalid hv
          simp
          omega
      | false =>
          simp
          omega
  | false =>
      have hlt : s.buffer.speculative.statusCnt.toNat < 3 := by
        rw [Bool.and_eq_true, hc] at hready
        simpa [StoreBuffer.ready, BitVec.lt_def] using hready.1
      cases hv : (bufferIn s i).valid <;> simp <;> omega

end Cva6.Lsu.StoreUnit
