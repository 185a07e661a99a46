import Cva6.Axi.Cycle
/-!
# Routing of the answers

Every answer the adapter returns belongs to the oldest request of its type that has no
answer yet, with the identifier and the beats of that request. What is accepted is
answered or in flight, and the bus only has to answer for everything to be answered.
-/

namespace Cva6.Axi

open Cva6.Sync Cva6.Dcache

def ackType : ReqType → RtrnType
  | .STORE => .STORE_ACK
  | .LOAD => .LOAD_ACK
  | .ATOMIC => .ATOMIC_ACK

/-- The answer of a transaction: its type and identifier, all of its beats, and the beats
in the words of the line. -/
structure Returns (d : Done) (r : Rtrn) : Prop where
  type : r.rtype = ackType d.req.rtype
  tid : r.tid = d.req.tid
  beats : d.beats.length = MemReq.beats d.req
  line : Holds r.data d.beats

structure FillReturns (d : Read IcacheReq) (r : IcacheRtrn) : Prop where
  tid : r.tid = d.req.tid
  beats : d.beats.length = fillBeats d.req
  line : Holds r.data d.beats

variable {s : State} {i : Input}

/-! ## The return registers -/

theorem rdEn_not_invalidate (hr : dcacheRdEn s.hw i = true) : invalidate s.hw i = false := by
  simp only [dcacheRdEn, rdRdy, Bool.and_eq_true, Bool.not_eq_true'] at hr
  exact hr.2

theorem bPop_not_invalidate (hp : bPop s.hw i = true) :
    invalidate s.hw i = false ∧ dcacheRdEn s.hw i = false := by
  simp only [bPop, Bool.and_eq_true, Bool.not_eq_true'] at hp
  exact hp.1

theorem Ok.rtrn_beat (h : Ok s) (he : Exclusive s i) (hl : Legal s i)
    (hr : dcacheRdEn s.hw i = true) {d : Done} (hd : doneNext s i = some d) :
    ∃ r, dcacheRtrn (Axi.next s.hw i) = some r ∧ Returns d r := by
  obtain ⟨harr, -⟩ := h.arrived he hl
  obtain ⟨hld, har, -, hrd, hwr, -⟩ := arrived_rest (s := s) (i := i)
  obtain ⟨r, l, hrl, hlast⟩ := hl.dcacheBeat hr
  rw [doneNext, if_pos hr, hrl, rDone_cons] at hd
  have hrlast : i.axi.rLast = true := by
    by_contra hc
    simp [hc] at hd
  rw [if_pos hrlast, Option.some.injEq] at hd
  subst hd
  have hinv := rdEn_not_invalidate hr
  have hvld : (Axi.next s.hw i).dcacheRtrnVld = true := by
    simp [Axi.next, dcacheRtrnVldD, hr, hrlast]
  refine ⟨_, by rw [dcacheRtrn, if_pos hvld], ?_⟩
  have hlen : r.beats.length + 1 = r.len := by simpa [hrlast] using hlast.symm
  have hshift : (Axi.next s.hw i).dcacheShift = s.hw.dcacheShift.push i.axi.rData true := by
    simp [Axi.next, dcacheShiftD, hr, hrlast]
  have hreads := h.reads
  cases hid : i.axi.rId.getLsbD 1 with
  | false =>
      simp only [hid, Bool.false_eq_true, if_false] at hrl
      obtain ⟨-, -, htid, htype⟩ := harr.beat_load (hld.trans hrl) i.axi.rData i.axi.rLast
      rw [hrl, List.cons_append] at hreads
      obtain ⟨hline, hbeats⟩ := hreads.line i.axi.rData true hlen
      refine ⟨?_, ?_, hbeats, hshift ▸ hline⟩
      · simp only [Axi.next, dcacheRtrnTypeD, hinv, hr, hid, htype, ackType, Bool.false_eq_true,
          if_false, if_true]
      · have hnot : dcacheWrPop s.hw i = false := by
          simp only [dcacheWrPop, hid, bPop_of_beat hr, Bool.and_false, Bool.false_and,
            Bool.or_self]
        simp only [Axi.next, dcacheRtrnTidD, hnot, Bool.false_eq_true, if_false]
        exact Fifo.mem_readPointer_of_head? _ (hrd ▸ htid)
  | true =>
      simp only [hid, if_true] at hrl
      obtain ⟨-, -, htid, hback⟩ := harr.beat_amo (har.trans hrl) i.axi.rData i.axi.rLast
      have htype := (MemReq.readsBack_iff.mp hback).1
      obtain ⟨rfl, -, -, hnil, -⟩ := harr.reading (har.trans hrl)
      rw [← hld, hnil, List.nil_append, hrl] at hreads
      obtain ⟨hline, hbeats⟩ := hreads.line i.axi.rData true hlen
      refine ⟨?_, ?_, hbeats, hshift ▸ hline⟩
      · simp only [Axi.next, dcacheRtrnTypeD, hinv, hr, hid, htype, ackType, Bool.false_eq_true,
          if_false, if_true]
      · rw [hwr, hrd] at htid
        simp only [Axi.next, dcacheRtrnTidD, dcacheWrPop, hr, hid, hrlast, bPop_of_beat hr,
          wrEmpty_eq]
        cases hemp : s.hw.wrDcacheId.contents.isEmpty with
        | true =>
            simp only [hemp, if_true] at htid
            simpa using Fifo.mem_readPointer_of_head? _ htid
        | false =>
            simp only [hemp, Bool.false_eq_true, if_false] at htid
            simpa using Fifo.mem_readPointer_of_head? _ htid

theorem MemReq.beats_of_write {r : MemReq} (h : r.rtype = .STORE ∨ MemReq.isSc r = true) :
    MemReq.beats r = 0 := by
  rcases h with h | h
  · simp [MemReq.beats, h]
  · obtain ⟨ht, hop⟩ := MemReq.isSc_iff.mp h
    simp [MemReq.beats, ht, hop]

theorem Ok.rtrn_response (h : Ok s) (he : Exclusive s i) (hl : Legal s i)
    (hp : bPop s.hw i = true) {d : Done} (hd : doneNext s i = some d) :
    ∃ r, dcacheRtrn (Axi.next s.hw i) = some r ∧ Returns d r := by
  obtain ⟨harr, -⟩ := h.arrived he hl
  obtain ⟨-, -, -, -, hwr, -⟩ := arrived_rest (s := s) (i := i)
  obtain ⟨hinv, hrd⟩ := bPop_not_invalidate hp
  obtain ⟨r, ok, l, hb⟩ := h.bPop_cons hl hp
  have hbuf := arrived_buffered.trans hb
  simp only [doneNext, hrd, hp, Bool.false_eq_true, if_false, if_true, bDone, hb] at hd
  have hback : MemReq.readsBack r = false := by
    by_contra hc
    simp [hc] at hd
  simp only [hback, Bool.false_eq_true, if_false, Option.some.injEq] at hd
  subst hd
  have hdisc : bDiscard s.hw i = false := (h.bDiscard_eq he hl hb).trans hback
  have hpop : dcacheWrPop s.hw i = true := by simp [dcacheWrPop, hp, hdisc]
  have hvld : (Axi.next s.hw i).dcacheRtrnVld = true := by
    simp [Axi.next, dcacheRtrnVldD, hp, hdisc]
  have hatomic : bAtomic s.hw i = (r.rtype == .ATOMIC) := by
    rw [bAtomic, h.bOut_eq hl hb, writeId_bit]
  have hhead : (Axi.arrived s i).wrIds.head? = some r.tid ∧
      (r.rtype = .STORE ∨ MemReq.isSc r = true) := by
    rcases MemReq.write_kinds (harr.buffered (r, ok) (by simp [hbuf])) with
      ⟨ht, hs, hr⟩ | ⟨ht, hs, hr⟩ | ⟨-, -, hr⟩
    · exact ⟨(harr.popB_store hbuf ht hr).2.2, .inl ht⟩
    · exact ⟨(harr.popB_sc hbuf ht hs hr).2.2, .inr hs⟩
    · simp [hback] at hr
  refine ⟨_, by rw [dcacheRtrn, if_pos hvld], ?_, ?_, ?_, ?_⟩
  · simp only [Axi.next, dcacheRtrnTypeD, hinv, hrd, hp, hatomic, Bool.false_eq_true, if_false,
      if_true]
    rcases hhead.2 with ht | ht
    · rw [ht]
      rfl
    · rw [(MemReq.isSc_iff.mp ht).1]
      rfl
  · simp only [Axi.next, dcacheRtrnTidD, hpop, if_true]
    exact Fifo.mem_readPointer_of_head? _ (hwr ▸ hhead.1)
  · exact (MemReq.beats_of_write hhead.2).symm
  · intro k b hb'
    simp at hb'

theorem Ok.rtrn_done (h : Ok s) (he : Exclusive s i) (hl : Legal s i) {d : Done}
    (hd : doneNext s i = some d) :
    ∃ r, dcacheRtrn (Axi.next s.hw i) = some r ∧ Returns d r := by
  cases hr : dcacheRdEn s.hw i with
  | true => exact h.rtrn_beat he hl hr hd
  | false =>
      cases hp : bPop s.hw i with
      | true => exact h.rtrn_response he hl hp hd
      | false => simp [doneNext, hr, hp] at hd

/-- What is returned without an answer is the invalidation of a granted atomic. -/
theorem Ok.rtrn_none (h : Ok s) (he : Exclusive s i) (hl : Legal s i)
    (hd : doneNext s i = none) :
    (dcacheRtrn (Axi.next s.hw i)).map (fun r => (r.rtype, r.inv)) =
      if invalidate s.hw i then some (.INV_REQ, ⟨false, true, (dcacheHead s.hw).paddr.word.idx, 0⟩)
      else none := by
  cases hinv : invalidate s.hw i with
  | true => simp [dcacheRtrn, Axi.next, dcacheRtrnVldD, dcacheRtrnTypeD, dcacheRtrnInvD, hinv]
  | false =>
      have hvld : (Axi.next s.hw i).dcacheRtrnVld = false := by
        simp only [Axi.next, dcacheRtrnVldD, hinv, Bool.false_or, Bool.or_eq_false_iff]
        cases hr : dcacheRdEn s.hw i with
        | true =>
            obtain ⟨r, l, hrl, -⟩ := hl.dcacheBeat hr
            rw [doneNext, if_pos hr, hrl, rDone_cons] at hd
            cases hlast : i.axi.rLast with
            | true => simp [hlast] at hd
            | false => simp [bPop_of_beat hr]
        | false =>
            cases hp : bPop s.hw i with
            | false => simp
            | true =>
                obtain ⟨r, ok, l, hb⟩ := h.bPop_cons hl hp
                simp only [doneNext, hr, hp, Bool.false_eq_true, if_false, if_true, bDone, hb] at hd
                rw [h.bDiscard_eq he hl hb]
                cases hback : MemReq.readsBack r with
                | true => simp
                | false => simp [hback] at hd
      simp [dcacheRtrn, hvld]

/-! ## Fills -/

theorem Ok.fill_returns (h : Ok s) (hl : Legal s i) :
    match (busNext s i).filled with
    | some d => ∃ r, icacheRtrn (Axi.next s.hw i) = some r ∧ FillReturns d r
    | none => icacheRtrn (Axi.next s.hw i) = none := by
  cases hr : icacheRdEn s.hw i && i.axi.rLast with
  | false => simp [busNext, hr, icacheRtrn, Axi.next, icacheRtrnVldD]
  | true =>
      have hr' := hr
      simp only [Bool.and_eq_true] at hr'
      obtain ⟨hrd, hrlast⟩ := hr'
      obtain ⟨r, l, hrl, hlast⟩ := hl.icacheBeat hrd
      have hlen : r.beats.length + 1 = r.len := by simpa [hrlast] using hlast.symm
      have hfills := h.fills
      rw [hrl] at hfills
      obtain ⟨hline, hbeats⟩ := hfills.line i.axi.rData true hlen
      simp only [busNext, hr, if_true, hrl, complete]
      refine ⟨⟨(Axi.next s.hw i).icacheRtrnTid, (Axi.next s.hw i).icacheShift.data⟩, ?_, ?_, ?_, ?_⟩
      · simp [icacheRtrn, Axi.next, icacheRtrnVldD, hrd, hrlast]
      · apply Fifo.mem_readPointer_of_head?
        rw [h.fillIds, hrl]
        rfl
      · exact hbeats
      · simpa [Axi.next, hrd, hrlast] using hline

theorem Ok.pendingFills_next (h : Ok s) (hl : Legal s i) :
    (busNext s i).filled.toList.map (·.req) ++ pendingFills (adapter.next s i) =
      pendingFills s ++ if icacheDataAck s.hw i then [i.icacheData] else [] := by
  have hdata : (Axi.next s.hw i).icacheData.contents = _ := icacheData_next
  have hret : (busNext s i).filled.toList.map (·.req) ++
      (if icacheRdEn s.hw i then advance i.axi.rData i.axi.rLast s.bus.fills
        else s.bus.fills).map (·.req) = s.bus.fills.map (·.req) := by
    cases hr : icacheRdEn s.hw i with
    | false => simp [busNext, hr]
    | true =>
        obtain ⟨r, l, hrl, -⟩ := hl.icacheBeat hr
        cases hlast : i.axi.rLast <;> simp [busNext, hr, hrl, hlast, advance, complete]
  have hgrant : (if arbAck0 s.hw i then [(⟨icacheHead s.hw, rdBeats s.hw, []⟩ : Read IcacheReq)]
      else []).map (·.req) ++ s.hw.icacheData.contents.drop (if arbAck0 s.hw i then 1 else 0) =
        s.hw.icacheData.contents := by
    cases ha : arbAck0 s.hw i with
    | false => simp
    | true =>
        have hcons := icacheData_cons (h.arb.ack0 ha).1
        rw [hcons]
        rfl
  have hfills : (adapter.next s i).bus.fills = (if icacheRdEn s.hw i then
      advance i.axi.rData i.axi.rLast s.bus.fills else s.bus.fills) ++
        if arbAck0 s.hw i then [⟨icacheHead s.hw, rdBeats s.hw, []⟩] else [] := rfl
  have hqueue : (adapter.next s i).hw.icacheData.contents = _ := hdata
  rw [pendingFills, pendingFills, hfills, hqueue, List.map_append, ← hret]
  conv_rhs => rw [← hgrant]
  simp only [List.append_assoc]

/-! ## Histories -/

/-- The bus is legal and an atomic is alone. -/
def Admissible (s : State) (i : Input) : Prop := Legal s i ∧ Exclusive s i

def accepted (t : ReqType) (ins : List Input) : List MemReq :=
  adapter.log (fun s i =>
    if dcacheDataAck s.hw i && i.dcacheData.rtype == t then [i.dcacheData] else []) ins

/-- The transactions of a type the bus has completed, with their beats. -/
def completed (t : ReqType) (ins : List Input) : List Done :=
  adapter.log (fun s i => (doneNext s i).toList.filter (·.req.rtype == t)) ins

def returns (t : RtrnType) (ins : List Input) : List Rtrn :=
  adapter.log (fun s i => (dcacheRtrn (next s.hw i)).toList.filter (·.rtype == t)) ins

def acceptedFills (ins : List Input) : List IcacheReq :=
  adapter.log (fun s i => if icacheDataAck s.hw i then [i.icacheData] else []) ins

def completedFills (ins : List Input) : List (Read IcacheReq) :=
  adapter.log (fun s i => (busNext s i).filled.toList) ins

def fillReturns (ins : List Input) : List IcacheRtrn :=
  adapter.log (fun s i => (icacheRtrn (next s.hw i)).toList) ins

def grantedAtomics (ins : List Input) : List MemReq :=
  adapter.log (fun s i => (granted s i).filter (·.rtype == .ATOMIC)) ins

theorem ok_run (ins : List Input) (h : adapter.Throughout Admissible ins) : Ok (adapter.run ins) :=
  Machine.invariant ok_init (fun _ _ hok hE => hok.next hE.2 hE.1) ins h

theorem accepted_eq (t : ReqType) : ∀ ins, adapter.Throughout Admissible ins →
    accepted t ins = (completed t ins).map (·.req) ++ pending (adapter.run ins) t := by
  refine Machine.run_induction ?_ ?_
  · cases t <;> simp [accepted, completed, pending, queued, adapter, reset]
  · intro ins i h ih hE
    have hstep := (ok_run ins h).pending_next hE.2 hE.1 t
    have hdone : ((doneNext (adapter.run ins) i).toList.filter (·.req.rtype == t)).map (·.req) =
        answered t (doneNext (adapter.run ins) i) := by
      rw [answered, List.filter_map]
      rfl
    simp only [accepted, completed, Machine.log_snoc, Machine.run_snoc, List.map_append] at ih ⊢
    rw [hdone, List.append_assoc, hstep, ih, List.append_assoc]

theorem acceptedFills_eq : ∀ ins, adapter.Throughout Admissible ins →
    acceptedFills ins = (completedFills ins).map (·.req) ++ pendingFills (adapter.run ins) := by
  refine Machine.run_induction ?_ ?_
  · simp [acceptedFills, completedFills, pendingFills, adapter, reset]
  · intro ins i h ih hE
    have hstep := (ok_run ins h).pendingFills_next hE.1
    simp only [acceptedFills, completedFills, Machine.log_snoc, Machine.run_snoc,
      List.map_append] at ih ⊢
    rw [List.append_assoc, hstep, ih, List.append_assoc]

theorem completed_returns (t : ReqType) : ∀ ins, adapter.Throughout Admissible ins →
    List.Forall₂ Returns (completed t ins) (returns (ackType t) ins) := by
  refine Machine.run_induction .nil ?_
  intro ins i h ih hE
  have hok := ok_run ins h
  simp only [completed, returns, Machine.log_snoc] at ih ⊢
  refine List.rel_append ih ?_
  cases hd : doneNext (adapter.run ins) i with
  | some d =>
      obtain ⟨r, hr, hret⟩ := hok.rtrn_done hE.2 hE.1 hd
      have hack : (r.rtype == ackType t) = (d.req.rtype == t) := by
        rw [hret.type]
        cases d.req.rtype <;> cases t <;> rfl
      rw [hr]
      simp only [Option.toList_some, List.filter_cons, hack, List.filter_nil]
      split_ifs
      · exact .cons hret .nil
      · exact .nil
  | none =>
      have hnone := hok.rtrn_none hE.2 hE.1 hd
      have hnil : (dcacheRtrn (next (adapter.run ins).hw i)).toList.filter
          (·.rtype == ackType t) = [] := by
        cases hr : dcacheRtrn (next (adapter.run ins).hw i) with
        | none => rfl
        | some r =>
            rw [hr, Option.map_some] at hnone
            split_ifs at hnone with hinv
            · have htype : r.rtype = .INV_REQ := by simpa using congrArg (Option.map (·.1)) hnone
              simp only [Option.toList_some, List.filter_cons, htype, List.filter_nil]
              cases t <;> rfl
      rw [hnil]
      exact .nil

theorem completedFills_returns : ∀ ins, adapter.Throughout Admissible ins →
    List.Forall₂ FillReturns (completedFills ins) (fillReturns ins) := by
  refine Machine.run_induction .nil ?_
  intro ins i h ih hE
  have hstep := (ok_run ins h).fill_returns hE.1
  simp only [completedFills, fillReturns, Machine.log_snoc] at ih ⊢
  refine List.rel_append ih ?_
  cases hd : (busNext (adapter.run ins) i).filled with
  | some d =>
      simp only [hd] at hstep
      obtain ⟨r, hr, hret⟩ := hstep
      rw [hr]
      exact .cons hret .nil
  | none =>
      simp only [hd] at hstep
      rw [hstep]
      exact .nil

/-- The invalidation of an atomic: all ways of its set. -/
def selfInval (r : MemReq) : Inval := ⟨false, true, r.paddr.word.idx, 0⟩

theorem granted_atomic (h : Ok s) : (granted s i).filter (·.rtype == .ATOMIC) =
    if invalidate s.hw i then [dcacheHead s.hw] else [] := by
  rw [h.arb.invalidate_eq, granted]
  cases arbAck1 s.hw i <;> simp [List.filter_cons]

theorem returns_inval : ∀ ins, adapter.Throughout Admissible ins →
    (returns .INV_REQ ins).map (·.inv) = (grantedAtomics ins).map selfInval := by
  refine Machine.run_induction rfl ?_
  intro ins i h ih hE
  have hok := ok_run ins h
  simp only [returns, grantedAtomics, Machine.log_snoc, List.map_append] at ih ⊢
  rw [ih, granted_atomic hok]
  congr 1
  cases hd : doneNext (adapter.run ins) i with
  | some d =>
      obtain ⟨r, hr, hret⟩ := hok.rtrn_done hE.2 hE.1 hd
      have hinv : invalidate (adapter.run ins).hw i = false := by
        cases hrd : dcacheRdEn (adapter.run ins).hw i with
        | true => exact rdEn_not_invalidate hrd
        | false =>
            cases hp : bPop (adapter.run ins).hw i with
            | true => exact (bPop_not_invalidate hp).1
            | false => simp [doneNext, hrd, hp] at hd
      rw [hr, hinv]
      simp only [Option.toList_some, List.filter_cons, hret.type, List.filter_nil]
      cases d.req.rtype <;> rfl
  | none =>
      have hnone := hok.rtrn_none hE.2 hE.1 hd
      cases hr : dcacheRtrn (next (adapter.run ins).hw i) with
      | none =>
          rw [hr] at hnone
          split_ifs at hnone with hinv
          · simp at hnone
          · simp [hinv]
      | some r =>
          rw [hr, Option.map_some] at hnone
          split_ifs at hnone with hinv
          · simp only [Option.some.injEq, Prod.mk.injEq] at hnone
            simp [hinv, hnone, selfInval]

/-! ## Everything is answered -/

def left {ρ : Type} (l : List (Read ρ)) : Nat := (l.map fun r => r.len - r.beats.length).sum

/-- The transfers and returns still to come, at most. -/
def Flight.work (f : Flight) : Nat :=
  5 * f.queue.length + left f.loads + left f.amoReads + 2 * (f.stores.length + f.amoWrites.length) +
    f.buffered.length

def work (s : State) : Nat :=
  5 * s.hw.icacheData.contents.length + left s.bus.fills + (flight s).work

/-- The bus accepts a transaction, gives a beat or a response, or a response waits in the
buffer of the adapter. -/
def busy (s : State) (i : Input) : Bool :=
  arbGnt s.hw i || icacheRdEn s.hw i || dcacheRdEn s.hw i || bPush s.hw i || !s.bus.buffered.isEmpty

theorem left_append {ρ : Type} (l l' : List (Read ρ)) : left (l ++ l') = left l + left l' := by
  simp [left]

theorem left_advance {ρ : Type} {len : ρ → Nat} {r : Read ρ} {l : List (Read ρ)} {sh : Shift}
    (h : ReadsOk len (r :: l) sh) (b : Word) :
    left (advance b (decide (r.beats.length + 1 = r.len)) (r :: l)) + 1 = left (r :: l) := by
  obtain ⟨-, -, hlt⟩ := h.each r (by simp)
  by_cases hlast : r.beats.length + 1 = r.len
  · simp only [left, advance, hlast, decide_true, if_true, List.map_cons, List.sum_cons]
    omega
  · simp only [left, advance, hlast, decide_false, Bool.false_eq_true, if_false, List.map_cons,
      List.sum_cons, List.length_append, List.length_singleton]
    omega

theorem work_arrived (hl : Legal s i) (hn : dcacheDataAck s.hw i = false) :
    (arrived s i).work + (if bPush s.hw i then 1 else 0) = (flight s).work := by
  unfold arrived requested
  simp only [hn, Bool.false_eq_true, if_false]
  split_ifs with hp
  · rcases hl.bId hp with ⟨hid, hne⟩ | ⟨hid, hne⟩
    · obtain ⟨r, l, hr⟩ := List.exists_cons_of_ne_nil hne
      have hbit : i.axi.bId.getLsbD 1 = false := by rw [hid]; rfl
      simp only [Flight.work, Flight.pushB, hbit, flight, hr, Bool.false_eq_true, if_false,
        List.tail_cons, List.length_cons, List.length_append, List.length_nil]
      omega
    · obtain ⟨r, l, hr⟩ := List.exists_cons_of_ne_nil hne
      have hbit : i.axi.bId.getLsbD 1 = true := by rw [hid]; rfl
      simp only [Flight.work, Flight.pushB, hbit, flight, hr, if_true,
        List.tail_cons, List.length_cons, List.length_append, List.length_nil]
      omega
  · rfl

theorem Ok.work_returned (h : Ok s) (hl : Legal s i) :
    (Axi.returned s i).work + (if dcacheRdEn s.hw i || bPop s.hw i then 1 else 0) =
      (Axi.arrived s i).work := by
  obtain ⟨hld, har, -⟩ := arrived_rest (s := s) (i := i)
  unfold Axi.returned
  cases hr : dcacheRdEn s.hw i with
  | true =>
      obtain ⟨r, l, hreads, hlast, hcase⟩ := h.beat_oldest hl hr
      have hleft := left_advance hreads i.axi.rData
      rcases hcase with ⟨hid, hrl, -⟩ | ⟨hid, hrl, -⟩
      · simp only [Flight.work, Flight.beat, hid, hld, hrl, hlast, Bool.false_eq_true, if_false,
          Bool.true_or, if_true]
        omega
      · simp only [Flight.work, Flight.beat, hid, har, hrl, hlast, if_true, Bool.true_or]
        omega
  | false =>
      cases hp : bPop s.hw i with
      | false => simp
      | true =>
          obtain ⟨r, ok, l, hb⟩ := h.bPop_cons hl hp
          have hbuf := arrived_buffered.trans hb
          simp only [Bool.false_eq_true, if_false, if_true, Bool.false_or, Flight.popB, hbuf,
            Flight.work, List.length_cons]
          omega

theorem work_selected : (selected s i).work = (returned s i).work := by
  obtain ⟨hl, hr, hst, haw, hb, -⟩ := selected_rest (s := s) (i := i)
  simp only [Flight.work, hl, hr, hst, haw, hb, selected_queue, returned_queue]

theorem granted_work (r : MemReq) :
    left (if r.rtype = .LOAD then [(⟨r, MemReq.beats r, []⟩ : Read MemReq)] else []) +
      left (if MemReq.readsBack r then [(⟨r, MemReq.beats r, []⟩ : Read MemReq)] else []) +
      2 * ((if r.rtype = .STORE then [r] else []).length +
        (if MemReq.writesAmo r then [r] else []).length) ≤ 4 := by
  have hone (h : r.rtype = .LOAD ∨ MemReq.readsBack r = true) :
      left [(⟨r, MemReq.beats r, []⟩ : Read MemReq)] ≤ 2 := by
    simpa [left] using (MemReq.beats_of_read h).2
  have hnil : left ([] : List (Read MemReq)) = 0 := rfl
  cases ht : r.rtype with
  | LOAD =>
      have := hone (.inl ht)
      simp [ht, MemReq.readsBack, MemReq.writesAmo, beq_eq_decide, hnil]
      omega
  | STORE => simp [ht, MemReq.readsBack, MemReq.writesAmo, beq_eq_decide, hnil]
  | ATOMIC =>
      simp only [reduceCtorEq, if_false, hnil, List.length_nil]
      split_ifs with hb hw
      · have := hone (.inr hb)
        simp only [List.length_singleton]
        omega
      · have := hone (.inr hb)
        simp only [List.length_nil]
        omega
      · simp [hnil]
      · simp [hnil]

theorem Ok.work_cycle (h : Ok s) :
    (Axi.cycle s i).work + (if arbAck1 s.hw i then 1 else 0) ≤ (Axi.selected s i).work := by
  unfold Axi.cycle
  split_ifs with ha
  · obtain ⟨l, hq, -⟩ := h.selected_cons ha
    have hgrant := granted_work (dcacheHead s.hw)
    simp only [Flight.work, Flight.grant, hq, left_append, List.length_append, List.length_cons]
    omega
  · simp

theorem Ok.work_fills (h : Ok s) (hl : Legal s i) (hn : icacheDataAck s.hw i = false) :
    5 * (Axi.next s.hw i).icacheData.contents.length + left (busNext s i).fills +
        ((if icacheRdEn s.hw i then 1 else 0) + if arbAck0 s.hw i then 1 else 0) ≤
      5 * s.hw.icacheData.contents.length + left s.bus.fills := by
  have hret : left (if icacheRdEn s.hw i then advance i.axi.rData i.axi.rLast s.bus.fills
      else s.bus.fills) + (if icacheRdEn s.hw i then 1 else 0) = left s.bus.fills := by
    split_ifs with hr
    · obtain ⟨r, l, hrl, hlast⟩ := hl.icacheBeat hr
      have hfills := h.fills
      rw [hrl] at hfills ⊢
      rw [hlast]
      exact left_advance hfills i.axi.rData
    · rfl
  rw [icacheData_next, hn, ← hret]
  simp only [busNext, left_append, Bool.false_eq_true, if_false, List.append_nil, List.length_drop]
  cases ha : arbAck0 s.hw i with
  | false =>
      simp only [Bool.false_eq_true, if_false, left, List.map_nil, List.sum_nil]
      omega
  | true =>
      have hcons := congrArg List.length (icacheData_cons (h.arb.ack0 ha).1)
      have hlen : rdBeats s.hw ≤ 2 := by
        unfold rdBeats
        split_ifs <;> decide
      have hone : left [(⟨icacheHead s.hw, rdBeats s.hw, []⟩ : Read IcacheReq)] ≤ 2 := by
        simpa [left] using hlen
      simp only [List.length_cons] at hcons
      simp only [if_true]
      omega

/-- In a busy cycle something moves: a buffered response is returned unless an
invalidation or a beat takes its place. -/
theorem Ok.busy_moves (h : Ok s) (hl : Legal s i) (hb : busy s i = true) :
    icacheRdEn s.hw i = true ∨ arbAck0 s.hw i = true ∨ bPush s.hw i = true ∨
      (dcacheRdEn s.hw i || bPop s.hw i) = true ∨ arbAck1 s.hw i = true := by
  simp only [busy, Bool.or_eq_true] at hb
  rcases hb with (((hb | hb) | hb) | hb) | hb
  · cases hi : arbIdx s.hw with
    | false => exact .inr (.inl (by simp [arbAck0, hb, hi]))
    | true => exact .inr (.inr (.inr (.inr (by simp [arbAck1, hb, hi]))))
  · exact .inl hb
  · exact .inr (.inr (.inr (.inl (by simp [hb]))))
  · exact .inr (.inr (.inl hb))
  · cases hp : bPop s.hw i with
    | true => exact .inr (.inr (.inr (.inl (by simp))))
    | false =>
        have hne : bEmpty s.hw i = false := by
          rw [← Bool.not_eq_true, h.bEmpty_iff hl, bAll, List.append_eq_nil_iff]
          intro hnil
          simp [hnil.1] at hb
        simp only [bPop, hne, Bool.not_false, Bool.and_true, Bool.and_eq_false_iff,
          Bool.not_eq_false'] at hp
        rcases hp with hp | hp
        · rw [h.arb.invalidate_eq, Bool.and_eq_true] at hp
          exact .inr (.inr (.inr (.inr hp.1)))
        · exact .inr (.inr (.inr (.inl (by simp [hp]))))

/-- With no new requests, every busy cycle brings the adapter nearer to its rest. -/
theorem Ok.work_next (h : Ok s) (he : Exclusive s i) (hl : Legal s i)
    (hn : i.icacheDataReq = false ∧ i.dcacheDataReq = false) :
    work (adapter.next s i) + (if busy s i then 1 else 0) ≤ work s := by
  have hi : icacheDataAck s.hw i = false := by simp [icacheDataAck, hn.1]
  have hd : dcacheDataAck s.hw i = false := by simp [dcacheDataAck, hn.2]
  have hfills := h.work_fills hl hi
  have harr := work_arrived hl hd
  have hret := h.work_returned hl
  have hsel := work_selected (s := s) (i := i)
  have hcyc := h.work_cycle (i := i)
  have hwork : work (adapter.next s i) = 5 * (Axi.next s.hw i).icacheData.contents.length +
      left (busNext s i).fills + (Axi.cycle s i).work := by
    rw [work, h.flight_next he hl]
    rfl
  have hbusy := h.busy_moves hl
  rw [hwork, work]
  cases hb : busy s i with
  | false =>
      simp only [Bool.false_eq_true, if_false]
      omega
  | true =>
      simp only [if_true]
      rcases hbusy hb with hx | hx | hx | hx | hx <;> simp only [hx, if_true] at hfills harr hret hcyc <;>
        omega

def still (i : Input) : Prop := i.icacheDataReq = false ∧ i.dcacheDataReq = false

theorem work_run (ins ext : List Input) (h : adapter.Throughout Admissible (ins ++ ext))
    (hn : ∀ i ∈ ext, still i) :
    work (adapter.run (ins ++ ext)) + adapter.countFrom busy (adapter.run ins) ext ≤
      work (adapter.run ins) := by
  induction ext generalizing ins with
  | nil => simp [Machine.countFrom]
  | cons i ext ih =>
      have hcycle := h ins i ext rfl
      have hstep := (ok_run ins h.take).work_next hcycle.2 hcycle.1 (hn i (by simp))
      have hih := ih (ins ++ [i]) (by simpa using h) (fun j hj => hn j (by simp [hj]))
      rw [Machine.run_snoc] at hih
      simp only [List.append_assoc, List.singleton_append] at hih
      simp only [Machine.countFrom]
      omega

theorem left_eq_zero {ρ : Type} {len : ρ → Nat} {l : List (Read ρ)} {sh : Shift}
    (h : ReadsOk len l sh) (h0 : left l = 0) : l = [] := by
  cases l with
  | nil => rfl
  | cons r l =>
      obtain ⟨-, -, hlt⟩ := h.each r (by simp)
      simp only [left, List.map_cons, List.sum_cons] at h0
      omega

theorem Ok.rest (h : Ok s) (hw : work s = 0) :
    (∀ t, pending s t = []) ∧ pendingFills s = [] := by
  simp only [work, Flight.work, Axi.flight] at hw
  have hleft : left (s.bus.loads ++ s.bus.amoReads) = 0 := by
    rw [left_append]
    omega
  have hreads := List.append_eq_nil_iff.mp (left_eq_zero h.reads hleft)
  have hfills := left_eq_zero h.fills (by omega)
  have hq : queued s = [] := List.length_eq_zero_iff.mp (by omega)
  have hst : s.bus.stores = [] := List.length_eq_zero_iff.mp (by omega)
  have haw : s.bus.amoWrites = [] := List.length_eq_zero_iff.mp (by omega)
  have hb : s.bus.buffered = [] := List.length_eq_zero_iff.mp (by omega)
  have hi : s.hw.icacheData.contents = [] := List.length_eq_zero_iff.mp (by omega)
  refine ⟨fun t => ?_, by simp [pendingFills, hfills, hi]⟩
  cases t <;> simp [pending, hreads, hq, hst, haw, hb]

theorem accepted_append (t : ReqType) (ins ext : List Input) (hn : ∀ i ∈ ext, still i) :
    accepted t (ins ++ ext) = accepted t ins ∧
      acceptedFills (ins ++ ext) = acceptedFills ins := by
  induction ext using List.reverseRecOn with
  | nil => simp
  | append_singleton ext i ih =>
      obtain ⟨hd, hf⟩ := ih fun j hj => hn j (by simp [hj])
      obtain ⟨hi, hd'⟩ := hn i (by simp)
      have hia : icacheDataAck (adapter.run (ins ++ ext)).hw i = false := by
        simp [icacheDataAck, hi]
      have hda : dcacheDataAck (adapter.run (ins ++ ext)).hw i = false := by
        simp [dcacheDataAck, hd']
      simp only [accepted, acceptedFills, ← List.append_assoc, Machine.log_snoc, hia, hda,
        Bool.false_and, Bool.false_eq_true, if_false, List.append_nil] at hd hf ⊢
      exact ⟨hd, hf⟩

/-- The answers of a run. -/
structure Routed (ins : List Input) : Prop where
  /-- What is accepted is answered, in order and once, or in flight. -/
  data : ∀ t, accepted t ins = (completed t ins).map (·.req) ++ pending (adapter.run ins) t
  /-- The answers are those of the completed transactions. -/
  returns : ∀ t, List.Forall₂ Returns (completed t ins) (returns (ackType t) ins)
  fills : acceptedFills ins = (completedFills ins).map (·.req) ++ pendingFills (adapter.run ins)
  fillReturns : List.Forall₂ FillReturns (completedFills ins) (fillReturns ins)
  /-- One invalidation for each granted atomic. -/
  invals : (Axi.returns .INV_REQ ins).map (·.inv) = (grantedAtomics ins).map selfInval
  /-- In the cycle of an invalidation no beat is taken, an arriving write response is
  buffered, and nothing is returned. -/
  held : ∀ i, invalidate (adapter.run ins).hw i = true →
    rdRdy (adapter.run ins).hw i = false ∧
      (busNext (adapter.run ins) i).buffered = bAll (adapter.run ins) i ∧
      (busNext (adapter.run ins) i).done = none ∧ (busNext (adapter.run ins) i).filled = none
  /-- Without new requests everything is answered, after a bounded number of cycles in
  which the bus does its part. -/
  finishes : ∀ ext, adapter.Throughout Admissible (ins ++ ext) → (∀ i ∈ ext, still i) →
    work (adapter.run ins) ≤ adapter.countFrom busy (adapter.run ins) ext →
      (∀ t, accepted t ins = (completed t (ins ++ ext)).map (·.req)) ∧
        acceptedFills ins = (completedFills (ins ++ ext)).map (·.req)

theorem held_of_invalidate (hinv : invalidate s.hw i = true) :
    rdRdy s.hw i = false ∧ (busNext s i).buffered = bAll s i ∧ (busNext s i).done = none ∧
      (busNext s i).filled = none := by
  have hrd : rdRdy s.hw i = false := by simp [rdRdy, hinv]
  have hd : dcacheRdEn s.hw i = false := by simp [dcacheRdEn, hrd]
  have hi : icacheRdEn s.hw i = false := by simp [icacheRdEn, hrd]
  have hp : bPop s.hw i = false := by simp [bPop, hinv]
  simp [hrd, busNext, doneNext, hd, hi, hp]

/-- Each accepted load, store, atomic and fill is answered once, in order, with its own
identifier and its own beats. -/
theorem requests_routed (ins : List Input) (h : adapter.Throughout Admissible ins) :
    Routed ins where
  data t := accepted_eq t ins h
  returns t := completed_returns t ins h
  fills := acceptedFills_eq ins h
  fillReturns := completedFills_returns ins h
  invals := returns_inval ins h
  held _ hinv := held_of_invalidate hinv
  finishes := by
    intro ext hext hn hcount
    have hwork := work_run ins ext hext hn
    obtain ⟨hpend, hfills⟩ := (ok_run _ hext).rest (by omega)
    refine ⟨fun t => ?_, ?_⟩
    · have := accepted_eq t _ hext
      rw [(accepted_append t ins ext hn).1, hpend, List.append_nil] at this
      exact this
    · have := acceptedFills_eq _ hext
      rw [(accepted_append .LOAD ins ext hn).2, hfills, List.append_nil] at this
      exact this

/-! ## A run with every kind of request -/

theorem exists_cons_iff {α : Type} {l : List α} {p : α → Prop} :
    (∃ r l', l = r :: l' ∧ p r) ↔ ∃ r ∈ l.head?, p r := by
  cases l with
  | nil => simp
  | cons r l => simp

instance (s : State) (i : Input) : Decidable (Legal s i) :=
  decidable_of_iff
    ((i.axi.rValid = true →
      (i.axi.rId = 0 ∧ ∃ r ∈ s.bus.fills.head?, i.axi.rLast = decide (r.beats.length + 1 = r.len)) ∨
      (i.axi.rId = 1 ∧ ∃ r ∈ s.bus.loads.head?, i.axi.rLast = decide (r.beats.length + 1 = r.len)) ∨
      (i.axi.rId = 3 ∧
        ∃ r ∈ s.bus.amoReads.head?, i.axi.rLast = decide (r.beats.length + 1 = r.len))) ∧
      (i.axi.bValid = true →
        (i.axi.bId = 1 ∧ s.bus.stores ≠ []) ∨ (i.axi.bId = 3 ∧ s.bus.amoWrites ≠ [])))
    ⟨fun h => ⟨by simpa only [exists_cons_iff] using h.1, h.2⟩,
      fun h => ⟨by simpa only [exists_cons_iff] using h.read, h.write⟩⟩

instance (s : State) (i : Input) : Decidable (Exclusive s i) :=
  decidable_of_iff
    ((dcacheDataAck s.hw i = true → pending s .ATOMIC = []) ∧
      (dcacheDataAck s.hw i = true → i.dcacheData.rtype = .ATOMIC →
        pending s .LOAD = [] ∧ pending s .STORE = []) ∧
      (selects s.hw .ATOMIC = true → MemReq.isSc (dcacheHead s.hw) = true →
        (stale s).length ≤ if bPop s.hw i && bDiscard s.hw i then 1 else 0))
    ⟨fun h => ⟨h.1, h.2.1, h.2.2⟩, fun h => ⟨h.alone, h.atomic, h.sc⟩⟩

instance (s : State) (i : Input) : Decidable (Admissible s i) :=
  inferInstanceAs (Decidable (_ ∧ _))

def Resp.ready : Resp := ⟨true, true, true, false, 0, false, false, 0, fun _ => 0, false⟩

def Input.idle : Input := ⟨false, ⟨0, false, 0⟩, false, zeroReq, Resp.ready⟩

def Resp.beat (r : Resp) (id : AxiId) (b : BitVec 8) (last : Bool) : Resp :=
  { r with rValid := true, rId := id, rData := fun _ => b, rLast := last }

def Resp.response (r : Resp) (id : AxiId) (ok : Bool) : Resp :=
  { r with bValid := true, bId := id, bExokay := ok }

def dataRequest (r : MemReq) : Input := { Input.idle with dcacheDataReq := true, dcacheData := r }

/-- A load of a line, a store and a fill overlap; their beats are interleaved. Then an
atomic and, after its write response, a store-conditional are carried out. -/
def mixedRun : List Input :=
  [{ dataRequest { zeroReq with rtype := .LOAD, size := 7, tid := 1 } with
      icacheDataReq := true, icacheData := ⟨0x80, false, 0⟩ },
    dataRequest { zeroReq with size := 3, tid := 2 },
    Input.idle, Input.idle,
    { Input.idle with axi := Resp.ready.beat 1 0xa0 false },
    { Input.idle with axi := (Resp.ready.beat 0 0xb0 false).response 1 false },
    { Input.idle with axi := Resp.ready.beat 1 0xa1 true },
    { Input.idle with axi := Resp.ready.beat 0 0xb1 true },
    dataRequest { zeroReq with rtype := .ATOMIC, size := 2, tid := 3, amoOp := .SWAP },
    Input.idle,
    { Input.idle with axi := Resp.ready.beat 3 0xc0 true },
    { Input.idle with axi := Resp.ready.response 3 false },
    dataRequest { zeroReq with rtype := .ATOMIC, size := 2, tid := 1, amoOp := .SC },
    Input.idle,
    { Input.idle with axi := Resp.ready.response 3 true },
    Input.idle]

theorem requests_routed_mixedRun : adapter.Throughout Admissible mixedRun ∧ Routed mixedRun ∧
    (completed .ATOMIC mixedRun).length = 2 := by
  have h : adapter.Throughout Admissible mixedRun := by decide +kernel
  exact ⟨h, requests_routed mixedRun h, by decide +kernel⟩

end Cva6.Axi
