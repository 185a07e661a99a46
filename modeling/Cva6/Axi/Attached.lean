import Cva6.Axi.Routing
import Cva6.Dcache.Requests
import Cva6.Sync.RoundRobin
/-!
# The data cache on the adapter

`wt_dcache.sv` with its memory side connected to `wt_axi_adapter.sv`, as in
`wt_cache_subsystem.sv`. The miss unit drains the write buffer and the outstanding read before
an atomic and waits for its answer, so that an atomic is alone on the bus. Only the write
responses of earlier atomics may still be to come.
-/

namespace Cva6.Axi

open Cva6.Sync Cva6.Dcache

/-- What the core and the bus drive. What the adapter drives is ignored in `dc`, and so are the
choices of the two arbiters of the write buffer that make the transactions. -/
structure CacheInput where
  dc : Dcache.Input
  icacheDataReq : Bool
  icacheData : IcacheReq
  axi : Resp

structure Attached where
  dc : Dcache.State
  axi : State
  /-- The counters of `i_dirty_rr` and `i_tx_id_rr`. -/
  dirtyRr : BitVec 3
  txRr : BitVec 2

section Wires

variable (cfg : Cfg) (x : Attached) (i : CacheInput)

def choice : Wbuffer.Choice where
  dirtyPtr := RoundRobin.choose (h := 3) (Wbuffer.dirty x.dc.hw.wbuf) x.dirtyRr
  txId := RoundRobin.choose (h := 2) (fun id => !(x.dc.hw.wbuf.txStat id).vld) x.txRr
  checkPtr := i.dc.choice.checkPtr

/-- A write is applied at the latest with its acknowledgement. -/
def applied (id : TxId) : Bool :=
  i.dc.apply id ||
    (x.axi.hw.dcacheRtrnVld && x.axi.hw.dcacheRtrnType == .STORE_ACK &&
      id == x.axi.hw.dcacheRtrnTid)

def offered : Dcache.Input :=
  { i.dc with
    choice := choice x i
    apply := applied x i
    memRtrnVld := x.axi.hw.dcacheRtrnVld
    memRtrn :=
      ⟨x.axi.hw.dcacheRtrnType, x.axi.hw.dcacheShift.data, x.axi.hw.dcacheRtrnInv,
        x.axi.hw.dcacheRtrnTid⟩ }

def adapterIn : Input where
  icacheDataReq := i.icacheDataReq
  icacheData := i.icacheData
  dcacheDataReq := Missunit.memDataReq x.dc.hw.miss (missIn cfg x.dc.hw (offered x i))
  dcacheData := Missunit.memData x.dc.hw.miss (missIn cfg x.dc.hw (offered x i))
  axi := i.axi

def dcIn : Dcache.Input :=
  { offered x i with memDataAck := dcacheDataAck x.axi.hw (adapterIn cfg x i) }

def sends : Bool := Wbuffer.dirtyRdEn x.dc.hw.wbuf (wbufIn cfg x.dc.hw (dcIn cfg x i))

def attached (z : Start) : Machine Attached CacheInput where
  init := ⟨start z, adapter.init, 0, 0⟩
  next x i :=
    { dc := x.dc.next cfg (dcIn cfg x i)
      axi := adapter.next x.axi (adapterIn cfg x i)
      dirtyRr := RoundRobin.advance x.dirtyRr (sends cfg x i)
      txRr := RoundRobin.advance x.txRr (sends cfg x i) }

end Wires

/-! ## The environment -/

/-- When a store-conditional is presented to the bus, no write response of an earlier atomic is to
come, but for one that is discarded in this cycle. -/
def NoStale (cfg : Cfg) (x : Attached) (i : CacheInput) : Prop :=
  selects x.axi.hw .ATOMIC = true → MemReq.isSc (dcacheHead x.axi.hw) = true →
    (stale x.axi).length ≤
      if bPop x.axi.hw (adapterIn cfg x i) && bDiscard x.axi.hw (adapterIn cfg x i) then 1 else 0

def OnBus (cfg : Cfg) (x : Attached) (i : CacheInput) : Prop :=
  Legal x.axi (adapterIn cfg x i)

/-! ## The transactions without an answer -/

/-- The accepted requests of a type that the data cache has no answer to, the one whose
answer is returned in this cycle among them. -/
def unanswered (x : Attached) (t : ReqType) : List MemReq :=
  answered t x.axi.bus.done ++ pending x.axi t

/-- The data cache and the adapter agree on what is in flight. -/
structure Joined (x : Attached) : Prop where
  axi : Ok x.axi
  books : Books x.dc
  returned : ∀ d, x.axi.bus.done = some d → ∃ r, dcacheRtrn x.axi.hw = some r ∧ Returns d r
  silent : x.axi.bus.done = none → ∀ r, dcacheRtrn x.axi.hw = some r → r.rtype = .INV_REQ
  loads : (unanswered x .LOAD).length ≤ if x.dc.hw.miss.mshrVldQ then 1 else 0
  loadWait : x.dc.hw.miss.state = .LOAD_WAIT → x.dc.hw.miss.mshrVldQ = false
  tids : ((unanswered x .STORE).map (·.tid)).Nodup
  stores : ∀ r ∈ unanswered x .STORE, (x.dc.side.writes r.tid).isSome = true
  atomics : (unanswered x .ATOMIC).length ≤ if x.dc.hw.miss.state = .AMO_WAIT then 1 else 0
  alone : Missunit.amoSel x.dc.hw.miss = true →
    unanswered x .LOAD = [] ∧ unanswered x .STORE = []

variable {cfg : Cfg} {z : Start} {x : Attached} {i : CacheInput}

theorem joined_init : Joined (attached cfg z).init where
  axi := ok_init
  books := books_start z
  returned := nofun
  silent _ := nofun
  loads := Nat.zero_le _
  loadWait := nofun
  tids := List.nodup_nil
  stores := nofun
  atomics := Nat.zero_le _
  alone := nofun

/-! ## The wires -/

theorem accepted_attached : Dcache.accepted cfg x.dc.hw (dcIn cfg x i) =
    if dcacheDataAck x.axi.hw (adapterIn cfg x i) then some (adapterIn cfg x i).dcacheData
    else none := by
  have hreq : Missunit.memDataReq x.dc.hw.miss (missIn cfg x.dc.hw (dcIn cfg x i)) =
      (adapterIn cfg x i).dcacheDataReq := rfl
  have hdata : Missunit.memData x.dc.hw.miss (missIn cfg x.dc.hw (dcIn cfg x i)) =
      (adapterIn cfg x i).dcacheData := rfl
  have hack : (dcIn cfg x i).memDataAck = dcacheDataAck x.axi.hw (adapterIn cfg x i) := rfl
  rw [Dcache.accepted, hreq, hdata, hack, dcacheDataAck]
  cases (adapterIn cfg x i).dcacheDataReq <;> rfl

theorem kind_of_ack (h : dcacheDataAck x.axi.hw (adapterIn cfg x i) = true) :
    (adapterIn cfg x i).dcacheData.rtype = .STORE ∧ Missunit.amoSel x.dc.hw.miss = false ∨
      (adapterIn cfg x i).dcacheData.rtype = .LOAD ∧
        Missunit.sendsLoad x.dc.hw.miss (missIn cfg x.dc.hw (dcIn cfg x i)) = true ∨
      (adapterIn cfg x i).dcacheData.rtype = .ATOMIC ∧ x.dc.hw.miss.state = .AMO ∧
        Missunit.sendsAmo x.dc.hw.miss (missIn cfg x.dc.hw (dcIn cfg x i)) = true := by
  have hreq : Missunit.memDataReq x.dc.hw.miss (missIn cfg x.dc.hw (dcIn cfg x i)) = true := by
    rw [dcacheDataAck, Bool.and_eq_true] at h
    exact h.1
  show Missunit.rtype x.dc.hw.miss (missIn cfg x.dc.hw (dcIn cfg x i)) = .STORE ∧ _ ∨
    Missunit.rtype x.dc.hw.miss (missIn cfg x.dc.hw (dcIn cfg x i)) = .LOAD ∧ _ ∨
    Missunit.rtype x.dc.hw.miss (missIn cfg x.dc.hw (dcIn cfg x i)) = .ATOMIC ∧ _
  rw [Missunit.memDataReq, Bool.or_eq_true] at hreq
  rcases hreq with hreq | hamo
  · have hsel : Missunit.amoSel x.dc.hw.miss = false := amoSel_of_sends hreq
    rw [Missunit.rtype, hsel, if_neg Bool.false_ne_true]
    cases hstore : Missunit.sendsStore x.dc.hw.miss (missIn cfg x.dc.hw (dcIn cfg x i)) with
    | true => exact .inl ⟨rfl, rfl⟩
    | false =>
        rw [hstore, Bool.false_or] at hreq
        exact .inr (.inl ⟨rfl, hreq⟩)
  · have hstate : x.dc.hw.miss.state = .AMO := by
      rw [Missunit.sendsAmo, Bool.and_eq_true, beq_iff_eq] at hamo
      exact hamo.1
    refine .inr (.inr ⟨?_, hstate, hamo⟩)
    simp [Missunit.rtype, Missunit.amoSel, hstate]

theorem ack_not_amoWait (h : dcacheDataAck x.axi.hw (adapterIn cfg x i) = true) :
    x.dc.hw.miss.state ≠ .AMO_WAIT := by
  intro hstate
  rcases kind_of_ack h with ⟨-, hsel⟩ | ⟨-, hload⟩ | ⟨-, hamo, -⟩
  · simp [Missunit.amoSel, hstate] at hsel
  · simp [Missunit.sendsLoad, hstate] at hload
  · rw [hstate] at hamo
    cases hamo

theorem pending_nil {t : ReqType} (h : unanswered x t = []) : pending x.axi t = [] := by
  rw [unanswered, List.append_eq_nil_iff] at h
  exact h.2

theorem Joined.exclusive (h : Joined x) (hs : NoStale cfg x i) :
    Exclusive x.axi (adapterIn cfg x i) where
  alone hack := by
    have hnone := h.atomics
    rw [if_neg (ack_not_amoWait hack), Nat.le_zero, List.length_eq_zero_iff] at hnone
    exact pending_nil hnone
  atomic hack hr := by
    rcases kind_of_ack hack with ⟨ht, -⟩ | ⟨ht, -⟩ | ⟨-, hstate, -⟩
    · rw [hr] at ht
      cases ht
    · rw [hr] at ht
      cases ht
    · obtain ⟨hload, hstore⟩ := h.alone (by simp [Missunit.amoSel, hstate])
      exact ⟨pending_nil hload, pending_nil hstore⟩
  sc := hs

theorem Joined.unanswered_next (h : Joined x) (hs : NoStale cfg x i) (hl : OnBus cfg x i)
    (t : ReqType) : unanswered ((attached cfg z).next x i) t = pending x.axi t ++
      if dcacheDataAck x.axi.hw (adapterIn cfg x i) && (adapterIn cfg x i).dcacheData.rtype == t then
        [(adapterIn cfg x i).dcacheData]
      else [] :=
  h.axi.pending_next (h.exclusive hs) hl t

/-! ## The answers -/

theorem Joined.answered_of_rtrns (h : Joined x) {t : ReqType}
    (hr : rtrns (dcIn cfg x i) (ackType t) = true) :
    ∃ d, x.axi.bus.done = some d ∧ d.req.rtype = t ∧ x.axi.hw.dcacheRtrnTid = d.req.tid := by
  have hr : (x.axi.hw.dcacheRtrnVld && x.axi.hw.dcacheRtrnType == ackType t) = true := hr
  rw [Bool.and_eq_true, beq_iff_eq] at hr
  obtain ⟨hvld, htype⟩ := hr
  have hrtrn : dcacheRtrn x.axi.hw = some ⟨x.axi.hw.dcacheRtrnType, x.axi.hw.dcacheShift.data,
      x.axi.hw.dcacheRtrnInv, x.axi.hw.dcacheRtrnTid⟩ := by
    rw [dcacheRtrn, if_pos hvld]
  cases hd : x.axi.bus.done with
  | none =>
      have hinv := h.silent hd _ hrtrn
      rw [show x.axi.hw.dcacheRtrnType = _ from hinv] at htype
      cases t <;> cases htype
  | some d =>
      obtain ⟨r, hr, hret⟩ := h.returned d hd
      rw [hrtrn, Option.some.injEq] at hr
      subst hr
      refine ⟨d, rfl, ?_, hret.tid⟩
      have hsame : ackType d.req.rtype = ackType t := hret.type.symm.trans htype
      revert hsame
      cases d.req.rtype <;> cases t <;> simp [ackType]

theorem answered_of_done {t : ReqType} {d : Done} (hd : x.axi.bus.done = some d)
    (ht : d.req.rtype = t) : answered t x.axi.bus.done = [d.req] := by
  simp [answered, hd, ht]

variable (cfg i) in
theorem Joined.not_rtrns (h : Joined x) {t : ReqType} (hone : (unanswered x t).length ≤ 1)
    (hp : pending x.axi t ≠ []) : rtrns (dcIn cfg x i) (ackType t) = false := by
  by_contra hne
  obtain ⟨d, hd, ht, -⟩ := h.answered_of_rtrns (Bool.not_eq_false _ ▸ hne)
  have hpos := List.length_pos_iff.mpr hp
  rw [unanswered, answered_of_done hd ht, List.length_append, List.length_singleton] at hone
  omega

theorem Joined.loads_le (h : Joined x) : (unanswered x .LOAD).length ≤ 1 := by
  refine h.loads.trans ?_
  split <;> omega

theorem Joined.atomics_le (h : Joined x) : (unanswered x .ATOMIC).length ≤ 1 := by
  refine h.atomics.trans ?_
  split <;> omega

theorem length_pending_le (t : ReqType) : (pending x.axi t).length ≤ (unanswered x t).length := by
  rw [unanswered, List.length_append]
  omega

/-! ## One cycle of the miss unit -/

theorem Joined.no_load_of_sendsLoad (h : Joined x)
    (hs : Missunit.sendsLoad x.dc.hw.miss (missIn cfg x.dc.hw (dcIn cfg x i)) = true) :
    pending x.axi .LOAD = [] := by
  have hfree (hv : x.dc.hw.miss.mshrVldQ = false) : pending x.axi .LOAD = [] := by
    have hloads := h.loads
    rw [hv, if_neg Bool.false_ne_true, Nat.le_zero, List.length_eq_zero_iff] at hloads
    exact pending_nil hloads
  cases hstate : x.dc.hw.miss.state <;> simp only [Missunit.sendsLoad, hstate] at hs
  case IDLE =>
    rw [Bool.and_eq_true] at hs
    have hidle := hs.2
    simp only [Missunit.idleLoad, Bool.and_eq_true, Bool.or_eq_true, Bool.not_eq_true'] at hidle
    rcases hidle.1.1.2 with hv | hack
    · exact hfree hv
    · rw [Missunit.loadAck, Bool.and_eq_true] at hack
      by_contra hne
      have hnot := h.not_rtrns cfg i h.loads_le hne
      exact Bool.noConfusion (hnot.symm.trans hack.1)
  case LOAD_WAIT => exact hfree (h.loadWait hstate)
  all_goals cases hs

section Step

variable (h : Joined x) (hs : NoStale cfg x i) (hl : OnBus cfg x i)

include h hs hl

theorem Joined.loads_next : (unanswered ((attached cfg z).next x i) .LOAD).length ≤
    if ((attached cfg z).next x i).dc.hw.miss.mshrVldQ then 1 else 0 := by
  have hvld : ((attached cfg z).next x i).dc.hw.miss.mshrVldQ =
      if Missunit.mshrAllocate x.dc.hw.miss (missIn cfg x.dc.hw (dcIn cfg x i)) then true
      else if Missunit.loadAck x.dc.hw.miss (missIn cfg x.dc.hw (dcIn cfg x i)) then false
      else x.dc.hw.miss.mshrVldQ := rfl
  rw [h.unanswered_next hs hl]
  by_cases hacc : (dcacheDataAck x.axi.hw (adapterIn cfg x i) &&
      (adapterIn cfg x i).dcacheData.rtype == .LOAD) = true
  · rw [if_pos hacc]
    rw [Bool.and_eq_true, beq_iff_eq] at hacc
    rcases kind_of_ack hacc.1 with ⟨ht, -⟩ | ⟨-, hsend⟩ | ⟨ht, -⟩
    · rw [hacc.2] at ht
      cases ht
    · have hack : (missIn cfg x.dc.hw (dcIn cfg x i)).memDataAck = true := hacc.1
      rw [h.no_load_of_sendsLoad hsend, hvld, Missunit.mshrAllocate, hsend, hack]
      exact Nat.le_refl 1
    · rw [hacc.2] at ht
      cases ht
  · rw [if_neg hacc, List.append_nil]
    by_cases hp : pending x.axi .LOAD = []
    · rw [hp]
      exact Nat.zero_le _
    · have hload : Missunit.loadAck x.dc.hw.miss (missIn cfg x.dc.hw (dcIn cfg x i)) = false := by
        have hno : rtrns (dcIn cfg x i) .LOAD_ACK = false := h.not_rtrns cfg i h.loads_le hp
        exact (congrArg (· && x.dc.hw.miss.mshrVldQ) hno).trans (Bool.false_and _)
      have hold : x.dc.hw.miss.mshrVldQ = true := by
        by_contra hfalse
        have hloads := h.loads
        rw [if_neg hfalse, Nat.le_zero, List.length_eq_zero_iff] at hloads
        exact hp (pending_nil hloads)
      rw [hvld, hload, hold, if_neg Bool.false_ne_true, ite_self, if_pos rfl]
      exact (length_pending_le _).trans h.loads_le

theorem Joined.atomics_next : (unanswered ((attached cfg z).next x i) .ATOMIC).length ≤
    if ((attached cfg z).next x i).dc.hw.miss.state = .AMO_WAIT then 1 else 0 := by
  have hstate : ((attached cfg z).next x i).dc.hw.miss.state =
      Missunit.stateD x.dc.hw.miss (missIn cfg x.dc.hw (dcIn cfg x i)) := rfl
  rw [h.unanswered_next hs hl, hstate]
  by_cases hacc : (dcacheDataAck x.axi.hw (adapterIn cfg x i) &&
      (adapterIn cfg x i).dcacheData.rtype == .ATOMIC) = true
  · rw [if_pos hacc]
    rw [Bool.and_eq_true, beq_iff_eq] at hacc
    rw [(h.exclusive hs).alone hacc.1, List.nil_append, List.length_singleton]
    rcases kind_of_ack hacc.1 with ⟨ht, -⟩ | ⟨ht, -⟩ | ⟨-, hamo, hsend⟩
    · rw [hacc.2] at ht
      cases ht
    · rw [hacc.2] at ht
      cases ht
    · have hack : (missIn cfg x.dc.hw (dcIn cfg x i)).memDataAck = true := hacc.1
      have hwait : Missunit.stateD x.dc.hw.miss (missIn cfg x.dc.hw (dcIn cfg x i)) = .AMO_WAIT := by
        simp [Missunit.stateD, hamo, hsend, hack]
      rw [if_pos hwait]
  · rw [if_neg hacc, List.append_nil]
    by_cases hp : pending x.axi .ATOMIC = []
    · rw [hp]
      exact Nat.zero_le _
    · have hnow : x.dc.hw.miss.state = .AMO_WAIT := by
        by_contra hne
        have hnone := h.atomics
        rw [if_neg hne, Nat.le_zero, List.length_eq_zero_iff] at hnone
        exact hp (pending_nil hnone)
      have hno : rtrns (dcIn cfg x i) .ATOMIC_ACK = false := h.not_rtrns cfg i h.atomics_le hp
      have hack : Missunit.amoAck x.dc.hw.miss (missIn cfg x.dc.hw (dcIn cfg x i)) = false :=
        (congrArg (· && x.dc.hw.miss.amoReqQ) hno).trans (Bool.false_and _)
      have hwait : Missunit.stateD x.dc.hw.miss (missIn cfg x.dc.hw (dcIn cfg x i)) = .AMO_WAIT := by
        simp [Missunit.stateD, hnow, hack]
      rw [if_pos hwait]
      exact (length_pending_le _).trans h.atomics_le

omit hs hl in
theorem Joined.loadWait_next (hnext : ((attached cfg z).next x i).dc.hw.miss.state = .LOAD_WAIT) :
    ((attached cfg z).next x i).dc.hw.miss.mshrVldQ = false := by
  obtain ⟨hsend, hack, -⟩ := sendsLoad_of_loadWait (i := dcIn cfg x i) hnext
  have halloc : Missunit.mshrAllocate x.dc.hw.miss (missIn cfg x.dc.hw (dcIn cfg x i)) = false := by
    have hack : (missIn cfg x.dc.hw (dcIn cfg x i)).memDataAck = false := hack
    rw [Missunit.mshrAllocate, hack, Bool.and_false]
  show (if Missunit.mshrAllocate x.dc.hw.miss (missIn cfg x.dc.hw (dcIn cfg x i)) then true
    else if Missunit.loadAck x.dc.hw.miss (missIn cfg x.dc.hw (dcIn cfg x i)) then false
    else x.dc.hw.miss.mshrVldQ) = false
  rw [halloc, if_neg Bool.false_ne_true]
  cases hstate : x.dc.hw.miss.state <;> simp only [Missunit.sendsLoad, hstate] at hsend
  case IDLE =>
    rw [Bool.and_eq_true] at hsend
    have hidle := hsend.2
    simp only [Missunit.idleLoad, Bool.and_eq_true, Bool.or_eq_true, Bool.not_eq_true'] at hidle
    rcases hidle.1.1.2 with hv | hload
    · rw [hv, ite_self]
    · rw [if_pos hload]
  case LOAD_WAIT => rw [h.loadWait hstate, ite_self]
  all_goals cases hsend

omit hs hl in
theorem Joined.writeAnswered : WriteAnswered x.dc (dcIn cfg x i) := by
  intro hr
  obtain ⟨d, hd, ht, htid⟩ := h.answered_of_rtrns (t := .STORE) hr
  have hmem : d.req ∈ unanswered x .STORE := by
    rw [unanswered, answered_of_done hd ht]
    exact List.mem_cons_self
  obtain ⟨w, hw⟩ := Option.isSome_iff_exists.mp (h.stores _ hmem)
  refine ⟨w, (congrArg x.dc.side.writes htid).trans hw, .inr ?_⟩
  show (_ || (x.axi.hw.dcacheRtrnVld && x.axi.hw.dcacheRtrnType == .STORE_ACK &&
    x.axi.hw.dcacheRtrnTid == x.axi.hw.dcacheRtrnTid)) = true
  have hr : (x.axi.hw.dcacheRtrnVld && x.axi.hw.dcacheRtrnType == .STORE_ACK) = true := hr
  rw [hr, beq_self_eq_true, Bool.and_true, Bool.or_true]

omit h hs hl in
theorem chosen_dcIn : Wbuffer.Chosen x.dc.hw.wbuf (dcIn cfg x i).choice := by
  constructor
  · intro hany
    exact RoundRobin.choose_req (h := 3) _ (any_iff.mp hany)
  · intro hany
    exact (Bool.not_eq_true' _).mp (RoundRobin.choose_req (h := 2) _ (any_iff.mp hany))

omit hs hl in
theorem Joined.writes_kept {r : MemReq} (hr : r ∈ pending x.axi .STORE) :
    (((attached cfg z).next x i).dc.side.writes r.tid).isSome = true := by
  have hold := h.stores r (List.mem_append_right _ hr)
  have hnot : (rtrns (dcIn cfg x i) .STORE_ACK && x.axi.hw.dcacheRtrnTid == r.tid) = false := by
    by_contra hne
    rw [Bool.not_eq_false, Bool.and_eq_true, beq_iff_eq] at hne
    obtain ⟨hack, heq⟩ := hne
    obtain ⟨d, hd, ht, htid⟩ := h.answered_of_rtrns (t := .STORE) hack
    have hnodup := h.tids
    rw [unanswered, answered_of_done hd ht, List.singleton_append, List.map_cons,
      List.nodup_cons] at hnodup
    exact hnodup.1 (List.mem_map.mpr ⟨r, hr, heq.symm.trans htid⟩)
  have hkept : (writesNext.kept x.dc.side (dcIn cfg x i) r.tid).isSome = true := by
    unfold writesNext.kept
    rw [if_neg (by rw [show (dcIn cfg x i).memRtrn.tid = x.axi.hw.dcacheRtrnTid from rfl, hnot];
                   exact Bool.false_ne_true), Option.isSome_map]
    exact hold
  show (writesNext x.dc.side (dcIn cfg x i) _ r.tid).isSome = true
  unfold writesNext
  split
  · split
    · rfl
    · exact hkept
  · exact hkept

omit hs hl in
theorem Joined.of_store (hack : dcacheDataAck x.axi.hw (adapterIn cfg x i) = true)
    (ht : (adapterIn cfg x i).dcacheData.rtype = .STORE) :
    (adapterIn cfg x i).dcacheData = storeMemReq cfg x.dc.hw (dcIn cfg x i) ∧
      Wbuffer.dirtyRdEn x.dc.hw.wbuf (wbufIn cfg x.dc.hw (dcIn cfg x i)) = true := by
  have hacc : Dcache.accepted cfg x.dc.hw (dcIn cfg x i) = some (adapterIn cfg x i).dcacheData := by
    rw [accepted_attached, if_pos hack]
  generalize (adapterIn cfg x i).dcacheData = r at hacc ht ⊢
  cases h.books.waits.sent hacc with
  | store hen => exact ⟨rfl, hen⟩
  | load p _ _ => cases ht
  | atomic _ _ hr => rw [hr] at ht; cases ht

omit h hs hl in
theorem writes_accepted (hack : dcacheDataAck x.axi.hw (adapterIn cfg x i) = true)
    (ht : (adapterIn cfg x i).dcacheData.rtype = .STORE) :
    (((attached cfg z).next x i).dc.side.writes (adapterIn cfg x i).dcacheData.tid).isSome =
      true := by
  have hacc : Dcache.accepted cfg x.dc.hw (dcIn cfg x i) = some (adapterIn cfg x i).dcacheData := by
    rw [accepted_attached, if_pos hack]
  show (writesNext x.dc.side (dcIn cfg x i) (Dcache.accepted cfg x.dc.hw (dcIn cfg x i)) _).isSome =
    true
  rw [hacc]
  simp [writesNext, ht]

theorem Joined.stores_next (r : MemReq) (hr : r ∈ unanswered ((attached cfg z).next x i) .STORE) :
    (((attached cfg z).next x i).dc.side.writes r.tid).isSome = true := by
  rw [h.unanswered_next hs hl, List.mem_append] at hr
  rcases hr with hr | hr
  · exact h.writes_kept hr
  · split_ifs at hr with hacc
    · rw [Bool.and_eq_true, beq_iff_eq] at hacc
      rw [List.mem_singleton] at hr
      rw [hr]
      exact writes_accepted hacc.1 hacc.2
    · cases hr

theorem Joined.tids_next : ((unanswered ((attached cfg z).next x i) .STORE).map (·.tid)).Nodup := by
  have hold : ((pending x.axi .STORE).map (·.tid)).Nodup := by
    have htids := h.tids
    rw [unanswered, List.map_append] at htids
    exact (List.nodup_append.mp htids).2.1
  rw [h.unanswered_next hs hl]
  by_cases hacc : (dcacheDataAck x.axi.hw (adapterIn cfg x i) &&
      (adapterIn cfg x i).dcacheData.rtype == .STORE) = true
  · rw [if_pos hacc]
    rw [Bool.and_eq_true, beq_iff_eq] at hacc
    obtain ⟨heq, hen⟩ := h.of_store hacc.1 hacc.2
    -- the identifier of the new transaction is free
    have hfree := h.books.wbuf.free_txId
      (chosen_dcIn : Wbuffer.Chosen x.dc.hw.wbuf (dcIn cfg x i).choice) (Wbuffer.of_dirtyRdEn hen).2
    rw [List.map_append, List.map_singleton]
    refine List.Nodup.append hold (List.nodup_singleton _) ?_
    intro id hid hnew
    obtain ⟨r, hr, rfl⟩ := List.mem_map.mp hid
    have hvld := (h.books.writes _ (h.stores r (List.mem_append_right _ hr))).1
    have htid : r.tid = Wbuffer.txId x.dc.hw.wbuf (dcIn cfg x i).choice := by
      rw [List.mem_singleton.mp hnew, heq]
      rfl
    rw [htid, hfree] at hvld
    cases hvld
  · rw [if_neg hacc, List.append_nil]
    exact hold

omit hs hl in
theorem Joined.no_store_of_empty (hempty : Wbuffer.emptyO x.dc.hw.wbuf = true) :
    pending x.axi .STORE = [] := by
  by_contra hne
  obtain ⟨r, hr⟩ := List.exists_mem_of_ne_nil _ hne
  have hwrite := h.stores r (List.mem_append_right _ hr)
  rw [h.books.no_write_of_empty hempty r.tid] at hwrite
  cases hwrite

/-- The miss unit turns to an atomic when nothing else is in flight, and sends nothing else
until it is answered. -/
theorem Joined.alone_next
    (hsel : Missunit.amoSel ((attached cfg z).next x i).dc.hw.miss = true) :
    unanswered ((attached cfg z).next x i) .LOAD = [] ∧
      unanswered ((attached cfg z).next x i) .STORE = [] := by
  have hstate : ((attached cfg z).next x i).dc.hw.miss.state =
      Missunit.stateD x.dc.hw.miss (missIn cfg x.dc.hw (dcIn cfg x i)) := rfl
  rw [Missunit.amoSel, hstate] at hsel
  have hsame (hnow : Missunit.amoSel x.dc.hw.miss = true) {t : ReqType} (ht : t ≠ .ATOMIC)
      (hp : unanswered x t = []) : unanswered ((attached cfg z).next x i) t = [] := by
    rw [h.unanswered_next hs hl, pending_nil hp, List.nil_append]
    refine if_neg fun hacc => ?_
    rw [Bool.and_eq_true, beq_iff_eq] at hacc
    rcases kind_of_ack hacc.1 with ⟨-, hno⟩ | ⟨-, hload⟩ | ⟨ha, -⟩
    · rw [hnow] at hno
      cases hno
    · have hno : Missunit.amoSel x.dc.hw.miss = false :=
        amoSel_of_sends (by rw [hload, Bool.or_true])
      rw [hnow] at hno
      cases hno
    · exact ht (hacc.2.symm.trans ha)
  by_cases hnow : Missunit.amoSel x.dc.hw.miss = true
  · obtain ⟨hload, hstore⟩ := h.alone hnow
    exact ⟨hsame hnow (by decide) hload, hsame hnow (by decide) hstore⟩
  · -- only an idle miss unit turns to an atomic, and sends nothing in that cycle
    have hturn : x.dc.hw.miss.state = .IDLE ∧ i.dc.amo.req = true ∧
        Wbuffer.emptyO x.dc.hw.wbuf = true ∧ x.dc.hw.miss.mshrVldQ = false := by
      rw [Bool.or_eq_true, beq_iff_eq, beq_iff_eq] at hsel
      cases hq : x.dc.hw.miss.state <;> simp only [Missunit.stateD, hq] at hsel
      case IDLE =>
        split at hsel
        · split at hsel <;> simp at hsel
        · split at hsel
          · rename_i hreq
            split at hsel
            · rename_i hempty
              rw [Bool.and_eq_true, Bool.not_eq_true'] at hempty
              exact ⟨rfl, hreq, hempty.1, hempty.2⟩
            · simp at hsel
          · split at hsel
            · simp at hsel
            · split at hsel <;> simp at hsel
      case AMO => exact absurd (by simp [Missunit.amoSel, hq]) hnow
      case AMO_WAIT => exact absurd (by simp [Missunit.amoSel, hq]) hnow
      all_goals split at hsel <;> simp at hsel
    obtain ⟨hidle, hreq, hempty, hvld⟩ := hturn
    have hmiss : Missunit.idleMiss x.dc.hw.miss (missIn cfg x.dc.hw (dcIn cfg x i)) = false := by
      have hreq : (missIn cfg x.dc.hw (dcIn cfg x i)).amo.req = true := hreq
      rw [Missunit.idleMiss, hreq]
      simp
    have hack : dcacheDataAck x.axi.hw (adapterIn cfg x i) = false := by
      have hno : (adapterIn cfg x i).dcacheDataReq = false := by
        show Missunit.memDataReq x.dc.hw.miss (missIn cfg x.dc.hw (dcIn cfg x i)) = false
        simp [Missunit.memDataReq, Missunit.sendsStore, Missunit.sendsLoad, Missunit.sendsAmo, hidle,
          hmiss]
      rw [dcacheDataAck, hno, Bool.false_and]
    have hload : pending x.axi .LOAD = [] := by
      have hloads := h.loads
      rw [hvld, if_neg Bool.false_ne_true, Nat.le_zero, List.length_eq_zero_iff] at hloads
      exact pending_nil hloads
    rw [h.unanswered_next hs hl, h.unanswered_next hs hl, hload, h.no_store_of_empty hempty, hack]
    exact ⟨rfl, rfl⟩

theorem Joined.next : Joined ((attached cfg z).next x i) where
  axi := h.axi.next (h.exclusive hs) hl
  books := h.books.next h.writeAnswered chosen_dcIn
  returned _ hd := h.axi.rtrn_done (h.exclusive hs) hl hd
  silent hd r hr := by
    have hnone := h.axi.rtrn_none (h.exclusive hs) hl hd
    rw [show dcacheRtrn (Axi.next x.axi.hw (adapterIn cfg x i)) = some r from hr, Option.map_some]
      at hnone
    split_ifs at hnone
    exact congrArg Prod.fst (Option.some.inj hnone)
  loads := h.loads_next hs hl
  loadWait := h.loadWait_next
  tids := h.tids_next hs hl
  stores := h.stores_next hs hl
  atomics := h.atomics_next hs hl
  alone := h.alone_next hs hl

end Step

end Cva6.Axi
