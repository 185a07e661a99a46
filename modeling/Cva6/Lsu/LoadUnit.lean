import Cva6.Lsu.Types
import Cva6.Sync.Machine
import Mathlib.Data.Fintype.Defs
/-!
# The load unit

`load_unit.sv`: the state machine that takes a load from the LSU to the read port
of the data cache, and the process that writes the answer back. The unit remembers
one load, the one whose answer is awaited, in `load_data_q`.
-/

namespace Cva6.Lsu.LoadUnit

inductive Fsm where
  | IDLE | WAIT_GNT | SEND_TAG | WAIT_PAGE_OFFSET
  | ABORT_TRANSACTION | ABORT_TRANSACTION_NI | WAIT_TRANSLATION | WAIT_FLUSH | WAIT_WB_EMPTY
  deriving DecidableEq, Repr

structure LoadData where
  transId : TransId
  addressOffset : BitVec 3
  operator : FuOp
  deriving DecidableEq, Repr

structure Regs where
  state : Fsm
  loadData : LoadData
  idxQ : BitVec 3
  signedQ : Bool
  fpSignQ : Bool
  deriving DecidableEq, Repr

def reset : Regs := ⟨.IDLE, ⟨0, 0, .ADD⟩, 0, false, false⟩

/-- What `load_control` and `rvalid_output` see of their surroundings. -/
structure Input where
  flush : Bool
  valid : Bool
  lsuCtrl : LsuCtrl
  pageOffsetMatches : Bool
  dtlbHit : Bool
  stallNi : Bool
  ex : Exception
  wbufferNotNi : Bool
  dataGnt : Bool
  dataRvalid : Bool
  dataRdata : BitVec 64
  deriving DecidableEq, Repr, Inhabited

structure ControlOut where
  state : Fsm
  translationReq : Bool
  dataReq : Bool
  killReq : Bool
  tagValid : Bool
  popLd : Bool
  deriving DecidableEq, Repr

/-! ## Control -/

/-- The outcome of a granted request: its tag follows in the next cycle, or it is
aborted there. -/
def granted (i : Input) (o : ControlOut) : ControlOut :=
  if i.dtlbHit && !i.stallNi then { o with state := .SEND_TAG, popLd := true }
  else if i.dtlbHit && i.stallNi then { o with state := .ABORT_TRANSACTION_NI }
  else { o with state := .ABORT_TRANSACTION }

/-- Take up a new load, which `IDLE` and `SEND_TAG` do alike. -/
def takeRequest (i : Input) (o : ControlOut) : ControlOut :=
  let o := { o with translationReq := true }
  if !i.pageOffsetMatches then
    let o := { o with dataReq := true }
    if !i.dataGnt then { o with state := .WAIT_GNT } else granted i o
  else { o with state := .WAIT_PAGE_OFFSET }

/-- The `case` of `load_control`. -/
def fsm (state : Fsm) (i : Input) : ControlOut :=
  let o : ControlOut := ⟨state, false, false, false, false, false⟩
  match state with
  | .IDLE => if i.valid then takeRequest i o else o
  | .WAIT_PAGE_OFFSET => if !i.pageOffsetMatches then { o with state := .WAIT_GNT } else o
  | .ABORT_TRANSACTION => { o with killReq := true, tagValid := true, state := .WAIT_TRANSLATION }
  | .ABORT_TRANSACTION_NI => { o with killReq := true, tagValid := true, state := .WAIT_WB_EMPTY }
  | .WAIT_WB_EMPTY => if i.wbufferNotNi then { o with state := .WAIT_TRANSLATION } else o
  | .WAIT_TRANSLATION =>
      let o := { o with translationReq := true }
      if i.dtlbHit then { o with state := .WAIT_GNT } else o
  | .WAIT_GNT =>
      let o := { o with translationReq := true, dataReq := true }
      if i.dataGnt then granted i o else o
  | .SEND_TAG =>
      let o := { o with tagValid := true, state := .IDLE }
      let o := if i.valid then takeRequest i o else o
      if i.ex.valid then { o with killReq := true } else o
  | .WAIT_FLUSH => { o with killReq := true, tagValid := true, state := .IDLE }

/-- The process `load_control`. An excepting load is not popped while an answer
comes in, which would be written back under its identifier. -/
def loadControl (state : Fsm) (i : Input) : ControlOut :=
  let o := fsm state i
  let o :=
    if i.ex.valid && i.valid then
      let o := { o with state := .IDLE }
      if !i.dataRvalid then { o with popLd := true } else o
    else o
  if i.flush then { o with state := .WAIT_FLUSH } else o

variable (q : Regs) (i : Input)

def control : ControlOut := loadControl q.state i

def inData (c : LsuCtrl) : LoadData := ⟨c.transId, c.vaddr.setWidth 3, c.operator⟩

def loadDataD : LoadData :=
  if (control q i).popLd && !i.ex.valid then inData i.lsuCtrl else q.loadData

/-! ## Retiring a load -/

def isSigned : FuOp → Bool
  | .LW | .LH | .LB => true
  | _ => false

def isFpSign : FuOp → Bool
  | .FLW | .FLH | .FLB => true
  | _ => false

/-- The byte that holds the sign, `idx_d`. -/
def signIdx (d : LoadData) : BitVec 3 :=
  match d.operator with
  | .LW | .FLW => d.addressOffset + 3
  | .LH | .FLH => d.addressOffset + 1
  | _ => d.addressOffset

/-- `result_o`. The sign bit is selected from the top bits of the eight bytes. -/
def resultOf (d : LoadData) (idx : BitVec 3) (signed fpSign : Bool) (rdata : BitVec 64) : XLen :=
  let shiftedData := rdata >>> (8 * d.addressOffset.toNat)
  let signBit := (signed && rdata.getLsbD (8 * idx.toNat + 7)) || fpSign
  let sign (w : Nat) : BitVec w := if signBit then BitVec.allOnes w else 0
  match d.operator with
  | .LW | .LWU | .FLW => shiftedData.setWidth 32
  | .LH | .LHU | .FLH => sign 16 ++ shiftedData.setWidth 16
  | .LB | .LBU | .FLB => sign 24 ++ shiftedData.setWidth 8
  | _ => shiftedData.setWidth 32

def result : XLen := resultOf q.loadData q.idxQ q.signedQ q.fpSignQ i.dataRdata

/-- What the unit hands to the output register. -/
structure Output where
  valid : Bool
  transId : TransId
  result : XLen
  ex : Exception
  deriving DecidableEq, Repr, Inhabited

/-- An exception of the load at hand is written back, unless an answer is. -/
def retiresException : Bool := i.valid && i.ex.valid && !i.dataRvalid

def validO : Bool :=
  let valid := i.dataRvalid && q.state != .WAIT_FLUSH && (!(control q i).killReq || i.ex.valid)
  if retiresException i then true
  else if q.state == .WAIT_TRANSLATION then false
  else valid

def output : Output where
  valid := validO q i
  transId := if retiresException i then i.lsuCtrl.transId else q.loadData.transId
  result := result q i
  ex := i.ex

def next : Regs where
  state := (control q i).state
  loadData := loadDataD q i
  idxQ := signIdx (loadDataD q i)
  signedQ := isSigned (loadDataD q i).operator
  fpSignQ := isFpSign (loadDataD q i).operator

/-! ## Without exceptions -/

variable {state : Fsm} {i : Input}

theorem loadControl_of_no_ex (hex : i.ex.valid = false) :
    loadControl state i =
      if i.flush then { fsm state i with state := .WAIT_FLUSH } else fsm state i := by
  simp [loadControl, hex]

@[simp] theorem granted_dataReq (o : ControlOut) : (granted i o).dataReq = o.dataReq := by
  unfold granted
  split_ifs <;> rfl

@[simp] theorem granted_killReq (o : ControlOut) : (granted i o).killReq = o.killReq := by
  unfold granted
  split_ifs <;> rfl

@[simp] theorem granted_tagValid (o : ControlOut) : (granted i o).tagValid = o.tagValid := by
  unfold granted
  split_ifs <;> rfl

@[simp] theorem takeRequest_killReq (o : ControlOut) : (takeRequest i o).killReq = o.killReq := by
  unfold takeRequest
  split_ifs <;> simp

@[simp] theorem takeRequest_tagValid (o : ControlOut) :
    (takeRequest i o).tagValid = o.tagValid := by
  unfold takeRequest
  split_ifs <;> simp

/-- The states in which the load unit asks the data cache for the load at hand. -/
def asks (state : Fsm) (i : Input) : Bool :=
  ((state == .IDLE || state == .SEND_TAG) && i.valid && !i.pageOffsetMatches) || state == .WAIT_GNT

theorem loadControl_dataReq (hex : i.ex.valid = false) :
    (loadControl state i).dataReq = asks state i := by
  have h : (fsm state i).dataReq = asks state i := by
    cases state <;> simp [fsm, asks, takeRequest] <;> split_ifs <;> simp_all
  rw [loadControl_of_no_ex hex, ← h]
  split_ifs <;> rfl

/-- A load leaves the queue when it is granted and need not stall. -/
theorem loadControl_popLd (hex : i.ex.valid = false) :
    (loadControl state i).popLd = (asks state i && i.dataGnt && i.dtlbHit && !i.stallNi) := by
  have h : (fsm state i).popLd = (asks state i && i.dataGnt && i.dtlbHit && !i.stallNi) := by
    cases state <;> simp [fsm, asks, takeRequest, granted] <;> split_ifs <;> simp_all
  rw [loadControl_of_no_ex hex, ← h]
  split_ifs <;> rfl

theorem loadControl_killReq (hex : i.ex.valid = false) :
    (loadControl state i).killReq =
      (state == .ABORT_TRANSACTION || state == .ABORT_TRANSACTION_NI || state == .WAIT_FLUSH) := by
  have h : (fsm state i).killReq = (state == .ABORT_TRANSACTION ||
      state == .ABORT_TRANSACTION_NI || state == .WAIT_FLUSH) := by
    cases state <;> simp [fsm, hex] <;> split_ifs <;> simp
  rw [loadControl_of_no_ex hex, ← h]
  split_ifs <;> rfl

theorem loadControl_tagValid (hex : i.ex.valid = false) :
    (loadControl state i).tagValid = (state == .ABORT_TRANSACTION ||
      state == .ABORT_TRANSACTION_NI || state == .WAIT_FLUSH || state == .SEND_TAG) := by
  have h : (fsm state i).tagValid = (state == .ABORT_TRANSACTION ||
      state == .ABORT_TRANSACTION_NI || state == .WAIT_FLUSH || state == .SEND_TAG) := by
    cases state <;> simp [fsm] <;> split_ifs <;> simp
  rw [loadControl_of_no_ex hex, ← h]
  split_ifs <;> rfl

theorem loadControl_sendTag (hex : i.ex.valid = false) :
    (loadControl state i).state = .SEND_TAG ↔
      (loadControl state i).popLd = true ∧ i.flush = false := by
  have h : (fsm state i).state = .SEND_TAG ↔ (fsm state i).popLd = true := by
    cases state <;> simp [fsm, takeRequest, granted] <;> split_ifs <;> simp_all
  rw [loadControl_of_no_ex hex]
  cases i.flush with
  | true => simp
  | false => simpa using h

theorem validO_of_no_ex {q : Regs} (hex : i.ex.valid = false) :
    validO q i = (i.dataRvalid && q.state != .WAIT_FLUSH && q.state != .ABORT_TRANSACTION &&
      q.state != .ABORT_TRANSACTION_NI && q.state != .WAIT_TRANSLATION) := by
  have hexc : retiresException i = false := by simp [retiresException, hex]
  rw [validO, hexc, control, loadControl_killReq hex, hex]
  cases q.state <;> cases i.dataRvalid <;> rfl

/-- The states in which a load that was checked against the stores waits for its grant. -/
def waitsChecked : Fsm → Bool
  | .WAIT_GNT | .ABORT_TRANSACTION | .ABORT_TRANSACTION_NI | .WAIT_TRANSLATION
  | .WAIT_WB_EMPTY => true
  | _ => false

def waits (state : Fsm) : Bool := waitsChecked state || state == .WAIT_PAGE_OFFSET

/-- How the unit comes to wait for a grant: the load at hand has been checked in this cycle,
or had been before; in both cases it is not popped. -/
theorem loadControl_waitsChecked (hex : i.ex.valid = false)
    (h : waitsChecked (loadControl state i).state = true) :
    i.flush = false ∧ (loadControl state i).popLd = false ∧
      (waitsChecked state = true ∨
        i.pageOffsetMatches = false ∧ (waits state = true ∨ i.valid = true)) := by
  rw [loadControl_of_no_ex hex] at h ⊢
  cases hf : i.flush with
  | true => simp [hf, waitsChecked] at h
  | false =>
      rw [hf] at h
      revert h
      cases state <;> simp [fsm, takeRequest, granted, waitsChecked, waits] <;> split_ifs <;>
        simp_all

theorem loadControl_waits (hex : i.ex.valid = false)
    (h : waits (loadControl state i).state = true) :
    i.flush = false ∧ (loadControl state i).popLd = false ∧ (waits state = true ∨ i.valid = true) := by
  rw [loadControl_of_no_ex hex] at h ⊢
  cases hf : i.flush with
  | true => simp [hf, waitsChecked, waits] at h
  | false =>
      rw [hf] at h
      revert h
      cases state <;> simp [fsm, takeRequest, granted, waitsChecked, waits] <;> split_ifs <;>
        simp_all

/-! ## The value of a load -/

def SignOk (q : Regs) : Prop :=
  q.idxQ = signIdx q.loadData ∧ q.signedQ = isSigned q.loadData.operator ∧
    q.fpSignQ = isFpSign q.loadData.operator

theorem next_signOk (q : Regs) (i : Input) : SignOk (next q i) := ⟨rfl, rfl, rfl⟩

/-- The value a load returns of the doubleword that holds it, its lowest byte at `offset`. -/
def loadValue (op : FuOp) (offset : Nat) (rdata : BitVec 64) : XLen :=
  let shifted := rdata >>> (8 * offset)
  match op with
  | .LH => (shifted.setWidth 16).signExtend 32
  | .LHU => (shifted.setWidth 16).setWidth 32
  | .LB => (shifted.setWidth 8).signExtend 32
  | .LBU => (shifted.setWidth 8).setWidth 32
  | _ => shifted.setWidth 32

theorem signExtend_eq_append {n k : Nat} (x : BitVec n) :
    (if x.getLsbD (n - 1) then BitVec.allOnes k else 0#k) ++ x = (x.signExtend (k + n)) := by
  ext m hm
  rw [BitVec.getElem_signExtend, BitVec.getElem_append]
  split_ifs with hlt hbit
  · rfl
  · simp [BitVec.msb_eq_getLsbD_last, hbit]
  · simpa [BitVec.msb_eq_getLsbD_last] using hbit

theorem append_zero_eq_setWidth {n k : Nat} (x : BitVec n) : 0#k ++ x = x.setWidth (k + n) := by
  ext m hm
  rw [BitVec.getElem_append, BitVec.getElem_setWidth]
  split_ifs with hlt
  · simp [hlt]
  · simp [BitVec.getLsbD_of_ge x m (by omega)]

def FitsDword (d : LoadData) : Prop :=
  match d.operator with
  | .LW | .LWU => d.addressOffset.toNat ≤ 4
  | .LH | .LHU => d.addressOffset.toNat ≤ 6
  | .LB | .LBU => True
  | _ => False

theorem resultOf_eq_loadValue {d : LoadData} (h : FitsDword d) (rdata : BitVec 64) :
    resultOf d (signIdx d) (isSigned d.operator) (isFpSign d.operator) rdata =
      loadValue d.operator d.addressOffset.toNat rdata := by
  have hoff := d.addressOffset.isLt
  -- the selected bit is the top bit of the shifted and truncated value
  have hbit (w k : Nat) (hk : k = 8 * d.addressOffset.toNat + (w - 1)) (hw : 0 < w) :
      rdata.getLsbD k =
        ((rdata >>> (8 * d.addressOffset.toNat)).setWidth w).getLsbD (w - 1) := by
    have hlt : w - 1 < w := by omega
    rw [BitVec.getLsbD_setWidth, BitVec.getLsbD_ushiftRight, hk]
    simp [hlt]
  unfold FitsDword at h
  split at h <;> rename_i hop <;> try exact h.elim
  all_goals simp only [resultOf, loadValue, hop, isSigned, isFpSign, signIdx]
  case h_3 =>
    have hadd : (d.addressOffset + 1).toNat = d.addressOffset.toNat + 1 := by
      rw [BitVec.toNat_add]
      simp
      omega
    rw [Bool.true_and, Bool.or_false, hadd, hbit 16 _ (by omega) (by omega)]
    exact signExtend_eq_append _
  case h_5 =>
    rw [Bool.true_and, Bool.or_false, hbit 8 _ (by omega) (by omega)]
    exact signExtend_eq_append _
  all_goals exact append_zero_eq_setWidth _

theorem setWidth_signExtend {n m k : Nat} (x : BitVec n) (h : m ≤ k) :
    (x.signExtend k).setWidth m = x.signExtend m := by
  ext b hb
  have hlt : b < k := by omega
  simp [BitVec.getElem_signExtend, BitVec.getLsbD_eq_getElem, hlt]

/-- The result multiplexer that `load_unit.sv` keeps as a comment: the data is shifted to the
offset and then extended to 64 bits. -/
def leanResult (d : LoadData) (rdata : BitVec 64) : BitVec 64 :=
  let shiftedData := rdata >>> (8 * d.addressOffset.toNat)
  match d.operator with
  | .LWU => (shiftedData.setWidth 32).setWidth 64
  | .LHU => (shiftedData.setWidth 16).setWidth 64
  | .LBU => (shiftedData.setWidth 8).setWidth 64
  | .LW => (shiftedData.setWidth 32).signExtend 64
  | .LH => (shiftedData.setWidth 16).signExtend 64
  | .LB => (shiftedData.setWidth 8).signExtend 64
  | _ => shiftedData

def loadBytes : FuOp → Option Nat
  | .LD => some 8
  | .LW | .LWU => some 4
  | .LH | .LHU => some 2
  | .LB | .LBU => some 1
  | _ => none

def Aligned (d : LoadData) : Prop :=
  ∃ n, loadBytes d.operator = some n ∧ n ∣ d.addressOffset.toNat

theorem Aligned.ld_or_fits {d : LoadData} (h : Aligned d) : d.operator = .LD ∨ FitsDword d := by
  obtain ⟨n, hop, m, hm⟩ := h
  have hoff := d.addressOffset.isLt
  unfold loadBytes at hop
  unfold FitsDword
  split at hop <;> rename_i heq <;> simp only [heq, reduceCtorEq, false_or, true_or, or_true]
  · obtain rfl : 4 = n := by simpa using hop
    omega
  · obtain rfl : 4 = n := by simpa using hop
    omega
  · obtain rfl : 2 = n := by simpa using hop
    omega
  · obtain rfl : 2 = n := by simpa using hop
    omega
  · simp at hop

theorem loadValue_eq_leanResult {d : LoadData} (h : FitsDword d) (rdata : BitVec 64) :
    loadValue d.operator d.addressOffset.toNat rdata = (leanResult d rdata).setWidth 32 := by
  unfold FitsDword at h
  split at h <;> rename_i hop <;> try exact h.elim
  all_goals simp only [loadValue, leanResult, hop]
  case h_1 => rw [setWidth_signExtend _ (by omega), BitVec.signExtend_eq]
  case h_2 => rw [BitVec.setWidth_setWidth_of_le _ (by omega), BitVec.setWidth_eq]
  case h_3 | h_5 => exact (setWidth_signExtend _ (by omega)).symm
  all_goals exact (BitVec.setWidth_setWidth_of_le _ (by omega)).symm

def loadUnit : Sync.Machine Regs Input where
  init := reset
  next := next

theorem run_signOk (ins : List Input) : SignOk (loadUnit.run ins) := by
  induction ins using List.reverseRecOn with
  | nil => exact ⟨rfl, rfl, rfl⟩
  | append_singleton ins i _ =>
      rw [Sync.Machine.run_snoc]
      exact next_signOk _ _

/-- The multiplexer with the sign bit selected a cycle ahead computes what the one in the
comment does. -/
theorem result_eq_leanResult (ins : List Input) (i : Input)
    (h : Aligned (loadUnit.run ins).loadData) :
    result (loadUnit.run ins) i =
      (leanResult (loadUnit.run ins).loadData i.dataRdata).setWidth 32 := by
  obtain ⟨hidx, hsigned, hfp⟩ := run_signOk ins
  rw [result, hidx, hsigned, hfp]
  rcases h.ld_or_fits with hop | hfits
  · simp only [resultOf, leanResult, hop]
  · rw [resultOf_eq_loadValue hfits, loadValue_eq_leanResult hfits]

/-- A negative byte at offset 3. -/
theorem result_eq_leanResult_byte :
    let load : Input := { (default : Input) with
      valid := true, dtlbHit := true, dataGnt := true
      lsuCtrl := ⟨true, 0x1003, false, 0, 8, .LOAD, .LB, 1⟩ }
    let answer : Input := { (default : Input) with dataRvalid := true, dataRdata := 0x80402010 }
    result (loadUnit.run [load]) answer = 0xffffff80 ∧
      result (loadUnit.run [load]) answer =
        (leanResult (loadUnit.run [load]).loadData answer.dataRdata).setWidth 32 := by
  intro load answer
  exact ⟨by decide, result_eq_leanResult [load] answer ⟨1, by decide, by decide⟩⟩

/-! ## Kinds of states -/

/-- What the data cache sees of the state: nothing is under way, a tag is sent, a granted
request is killed, the load waits after such a kill, or a flush kills what is under way. -/
inductive Kind where
  | quiet | sendTag | abort | late | flush
  deriving DecidableEq, Repr

instance : Fintype Kind :=
  ⟨{.quiet, .sendTag, .abort, .late, .flush}, fun k => by cases k <;> simp⟩

def kind : Fsm → Kind
  | .IDLE | .WAIT_GNT | .WAIT_PAGE_OFFSET => .quiet
  | .SEND_TAG => .sendTag
  | .ABORT_TRANSACTION | .ABORT_TRANSACTION_NI => .abort
  | .WAIT_WB_EMPTY | .WAIT_TRANSLATION => .late
  | .WAIT_FLUSH => .flush

theorem kill_iff : (state == .ABORT_TRANSACTION || state == .ABORT_TRANSACTION_NI ||
    state == .WAIT_FLUSH) = (kind state == .abort || kind state == .flush) := by
  cases state <;> rfl

theorem kind_sendTag : kind state = .sendTag ↔ state = .SEND_TAG := by
  cases state <;> simp [kind]

/-- How the kind changes: a flush kills what is under way, a granted load sends its tag when
it is popped and is aborted otherwise, and without a grant the unit goes on waiting. -/
def kindStep (k k' : Kind) (flush gnt pop : Bool) : Bool :=
  if flush then k' == .flush
  else if gnt then (k == .quiet || k == .sendTag) && k' == (if pop then .sendTag else .abort)
  else
    !pop &&
      match k with
      | .quiet | .sendTag | .flush => k' == .quiet
      | .abort => k' == .late
      | .late => k' == .late || k' == .quiet

theorem kind_next (hex : i.ex.valid = false) (ha : i.dataGnt = true → asks state i = true) :
    kindStep (kind state) (kind (loadControl state i).state) i.flush i.dataGnt
      (loadControl state i).popLd = true := by
  have hpop := @loadControl_popLd state _ hex
  have hstate := congrArg ControlOut.state (@loadControl_of_no_ex state _ hex)
  cases hf : i.flush with
  | true =>
      rw [hstate, hf]
      rfl
  | false =>
      rw [hpop, hstate, hf]
      cases hg : i.dataGnt with
      | true =>
          have ha := ha hg
          revert ha
          cases state <;> simp [asks, fsm, takeRequest, granted, hg] <;> intros <;> split_ifs <;>
            simp_all [kind, kindStep]
      | false =>
          cases state <;> simp [kind, fsm, takeRequest, hg] <;>
            first | rfl | (split_ifs <;> rfl)

end Cva6.Lsu.LoadUnit
