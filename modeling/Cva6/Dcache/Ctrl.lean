import Cva6.Dcache.Mem
/-!
# Read controller

`wt_dcache_ctrl.sv`: the controller of one read port.
-/

namespace Cva6.Dcache.Ctrl

inductive FsmState where
  | IDLE | READ | MISS_REQ | MISS_WAIT | KILL_MISS | KILL_MISS_ACK | REPLAY_REQ | REPLAY_READ
  deriving DecidableEq, Repr, Inhabited

structure Regs where
  state : FsmState
  addressTagQ : Tag
  addressIdxQ : Idx
  addressOffQ : Bank
  addressLaneQ : Lane
  vldDataQ : WayMask
  dataSizeQ : BitVec 2
  rdReqQ : Bool
  rdAckQ : Bool

def reset : Regs := ⟨.IDLE, 0, 0, 0, 0, fun _ => false, 0, false, false⟩

structure Input where
  cacheEn : Bool
  req : LoadReq
  missAck : Bool
  missReplay : Bool
  missRtrnVld : Bool
  wrClVld : Bool
  rdAck : Bool
  rdVldBits : WayMask
  rdHitOh : WayMask

variable (q : Regs) (i : Input)

/-! ## Requests that depend on the state alone -/

def rdReq (req : LoadReq) : Bool :=
  match q.state with
  | .IDLE => req.dataReq
  | .READ | .REPLAY_READ | .REPLAY_REQ => true
  | _ => false

def missReq : Bool := q.state == .MISS_REQ || q.state == .KILL_MISS_ACK

def saveTag (req : LoadReq) : Bool := q.state == .READ && !req.killReq && req.tagValid

/-- `address_tag_d`, which is also `rd_tag_o`. -/
def addressTagD (req : LoadReq) : Tag := if saveTag q req then req.tag else q.addressTagQ

def missPaddr : Paddr := ⟨⟨q.addressTagQ, q.addressIdxQ, q.addressOffQ⟩, q.addressLaneQ⟩

def missNc (cfg : Cfg) (cacheEn : Bool) : Bool := !cacheEn || !cfg.cacheable q.addressTagQ

def missSize (cfg : Cfg) (cacheEn : Bool) : BitVec 3 :=
  if missNc q cfg cacheEn then q.dataSizeQ.setWidth 3 else 7

/-! ## The process `p_fsm` -/

/-- The tag is there and the load is not killed. -/
def tagCycle : Bool :=
  (q.state == .READ || q.state == .REPLAY_READ) && !i.req.killReq &&
    (i.req.tagValid || q.state == .REPLAY_READ)

def hit : Bool := tagCycle q i && !(i.wrClVld || !q.rdAckQ) && any i.rdHitOh && i.cacheEn

def dataGnt : Bool :=
  match q.state with
  | .IDLE => i.req.dataReq && i.rdAck
  | .READ | .REPLAY_READ => hit q i && i.rdAck && i.req.dataReq
  | _ => false

def dataRvalid : Bool :=
  match q.state with
  | .READ | .REPLAY_READ => i.req.killReq || hit q i
  | .MISS_REQ | .REPLAY_REQ => i.req.killReq
  | .MISS_WAIT => i.req.killReq || i.missRtrnVld
  | _ => false

def stateD : FsmState :=
  match q.state with
  | .IDLE => if i.req.dataReq && i.rdAck then .READ else .IDLE
  | .READ | .REPLAY_READ =>
      if i.req.killReq then .IDLE
      else if i.req.tagValid || q.state == .REPLAY_READ then
        if i.wrClVld || !q.rdAckQ then .REPLAY_REQ
        else if any i.rdHitOh && i.cacheEn then
          if i.rdAck && i.req.dataReq then .READ else .IDLE
        else .MISS_REQ
      else q.state
  | .MISS_REQ =>
      if i.req.killReq then (if i.missAck then .KILL_MISS else .KILL_MISS_ACK)
      else if i.missReplay then .REPLAY_REQ
      else if i.missAck then .MISS_WAIT
      else .MISS_REQ
  | .MISS_WAIT =>
      if i.req.killReq then (if i.missRtrnVld then .IDLE else .KILL_MISS)
      else if i.missRtrnVld then .IDLE
      else .MISS_WAIT
  | .REPLAY_REQ =>
      if i.req.killReq then .IDLE else if i.rdAck then .REPLAY_READ else .REPLAY_REQ
  | .KILL_MISS_ACK =>
      if i.missReplay then .IDLE else if i.missAck then .KILL_MISS else .KILL_MISS_ACK
  | .KILL_MISS => if i.missRtrnVld then .IDLE else .KILL_MISS

/-- `address_idx_d` and `address_off_d`: what is read from the arrays. -/
def addressIdxD : Idx := if dataGnt q i then i.req.idx else q.addressIdxQ

def addressOffD : Bank := if dataGnt q i then i.req.bank else q.addressOffQ

def next : Regs where
  state := stateD q i
  addressTagQ := addressTagD q i.req
  addressIdxQ := addressIdxD q i
  addressOffQ := addressOffD q i
  addressLaneQ := if dataGnt q i then i.req.lane else q.addressLaneQ
  vldDataQ := if q.rdReqQ then i.rdVldBits else q.vldDataQ
  dataSizeQ := if dataGnt q i then i.req.dataSize else q.dataSizeQ
  rdReqQ := rdReq q i.req
  rdAckQ := i.rdAck

/-! ## Misses -/

/-- A read whose tag is compared misses, and goes to the miss unit. -/
structure Missed : Prop where
  wrCl : i.wrClVld = false
  acked : q.rdAckQ = true
  miss : i.cacheEn = true → any i.rdHitOh = false
  idx : addressIdxD q i = q.addressIdxQ

section Misses

variable {q i}

theorem of_missReq_next (h : missReq (next q i) = true) : missReq q = true ∨ Missed q i := by
  have h : (stateD q i == .MISS_REQ || stateD q i == .KILL_MISS_ACK) = true := h
  rw [Bool.or_eq_true, beq_iff_eq, beq_iff_eq] at h
  have hmissed (htag : q.state = .READ ∨ q.state = .REPLAY_READ) : Missed q i := by
    have hcl : (i.wrClVld || !q.rdAckQ) = false ∧ (any i.rdHitOh && i.cacheEn) = false := by
      rcases htag with hs | hs <;>
        simp only [stateD, hs] at h <;> split_ifs at h with _ _ hcl hhit <;> simp_all
    have hgnt : dataGnt q i = false := by
      rcases htag with hs | hs <;> simp [dataGnt, hit, hs, Bool.and_assoc, hcl.2]
    rw [Bool.or_eq_false_iff, Bool.not_eq_false'] at hcl
    refine ⟨hcl.1.1, hcl.1.2, fun hen => ?_, ?_⟩
    · rw [hen, Bool.and_true] at hcl
      exact hcl.2
    · rw [addressIdxD, hgnt, if_neg Bool.false_ne_true]
  cases hs : q.state
  case READ => exact .inr (hmissed (.inl hs))
  case REPLAY_READ => exact .inr (hmissed (.inr hs))
  case MISS_REQ => exact .inl (by simp [missReq, hs])
  case KILL_MISS_ACK => exact .inl (by simp [missReq, hs])
  all_goals
    simp only [stateD, hs] at h
    split_ifs at h <;> simp at h

theorem missPaddr_next (h : missReq q = true) : missPaddr (next q i) = missPaddr q := by
  rw [missReq, Bool.or_eq_true, beq_iff_eq, beq_iff_eq] at h
  have hgnt : dataGnt q i = false := by rcases h with hs | hs <;> simp [dataGnt, hs]
  have hsave : saveTag q i.req = false := by rcases h with hs | hs <;> simp [saveTag, hs]
  simp [missPaddr, next, addressTagD, addressIdxD, addressOffD, hgnt, hsave]

end Misses

/-! ## Phases of a read -/

/-- No read is under way, its tag is due, it waits for the arrays or the miss unit, or it has
been killed with its miss under way. -/
inductive Phase where
  | idle | tag | pending | killed
  deriving DecidableEq, Repr

instance : Fintype Phase := ⟨{.idle, .tag, .pending, .killed}, fun p => by cases p <;> simp⟩

def phase : FsmState → Phase
  | .IDLE => .idle
  | .READ => .tag
  | .MISS_REQ | .MISS_WAIT | .REPLAY_REQ | .REPLAY_READ => .pending
  | .KILL_MISS | .KILL_MISS_ACK => .killed

variable {q i}

/-- How the phase changes: a killed read is given up at once, or when its miss has returned;
one that is not killed is answered, and then another one may be granted, or goes on. -/
def phaseStep (p p' : Phase) (kill gnt rvalid : Bool) : Bool :=
  match p with
  | .idle => !rvalid && p' == if gnt then .tag else .idle
  | .tag | .pending =>
      if kill then !gnt && (p' == .idle || (p' == .killed && p == .pending))
      else if rvalid then p' == if gnt then .tag else .idle
      else !gnt && p' == .pending
  | .killed => !rvalid && !gnt && (p' == .killed || p' == .idle)

theorem dataReq_of_dataGnt (h : dataGnt q i = true) : i.req.dataReq = true := by
  unfold dataGnt at h
  cases hs : q.state <;> simp_all

theorem stateD_of_dataGnt (h : dataGnt q i = true) : stateD q i = .READ := by
  cases hs : q.state <;>
    simp only [dataGnt, hit, tagCycle, hs, Bool.and_eq_true, Bool.not_eq_true',
      Bool.false_eq_true] at h <;>
    simp_all [stateD]

theorem phase_next (htag : q.state = .READ → i.req.killReq = false → i.req.tagValid = true) :
    phaseStep (phase q.state) (phase (stateD q i)) i.req.killReq (dataGnt q i) (dataRvalid q i) =
      true := by
  cases hs : q.state <;> simp only [stateD, dataGnt, dataRvalid, hit, tagCycle, hs]
  case IDLE => cases i.req.dataReq <;> cases i.rdAck <;> rfl
  case READ =>
    cases hk : i.req.killReq with
    | true => rfl
    | false =>
        rw [htag hs hk]
        cases i.wrClVld <;> cases q.rdAckQ <;> cases any i.rdHitOh <;> cases i.cacheEn <;>
          cases i.rdAck <;> cases i.req.dataReq <;> decide
  case REPLAY_READ =>
    cases i.req.killReq <;> cases i.req.tagValid <;> cases i.wrClVld <;> cases q.rdAckQ <;>
      cases any i.rdHitOh <;> cases i.cacheEn <;> cases i.rdAck <;> cases i.req.dataReq <;> decide
  case MISS_REQ =>
    cases i.req.killReq <;> cases i.missReplay <;> cases i.missAck <;> decide
  case MISS_WAIT => cases i.req.killReq <;> cases i.missRtrnVld <;> decide
  case KILL_MISS => cases i.missRtrnVld <;> rfl
  case KILL_MISS_ACK => cases i.missReplay <;> cases i.missAck <;> rfl
  case REPLAY_REQ => cases i.req.killReq <;> cases i.rdAck <;> decide

/-- A read that is neither killed nor answered waits for the memory once its miss is
acknowledged. -/
theorem stateD_missWait (hkill : i.req.killReq = false) (hrv : dataRvalid q i = false)
    (hexcl : i.missReplay = true → i.missAck = false) :
    stateD q i = .MISS_WAIT ↔
      q.state = .MISS_WAIT ∨ q.state = .MISS_REQ ∧ i.missAck = true := by
  cases hs : q.state <;> simp only [stateD, dataRvalid, hs, hkill] at hrv ⊢
  case MISS_REQ =>
    cases hr : i.missReplay with
    | true => simp [hexcl hr]
    | false => cases i.missAck <;> simp
  case MISS_WAIT =>
    rw [Bool.false_or] at hrv
    simp [hrv]
  all_goals
    simp only [reduceCtorEq, false_and, or_self, iff_false]
    split_ifs <;> simp

end Cva6.Dcache.Ctrl
