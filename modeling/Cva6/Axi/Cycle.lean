import Cva6.Axi.Flight
/-!
# A cycle of the adapter

A cycle accepts a request, takes a write response, returns a beat or a write response,
selects an atomic and grants a request, in this order. The invariant of the adapter is
preserved by every cycle in which the bus is legal and atomics are alone.
-/

namespace Cva6.Axi

open Cva6.Sync Cva6.Dcache

def flight (s : State) : Flight where
  queue := queued s
  loads := s.bus.loads
  amoReads := s.bus.amoReads
  stores := s.bus.stores
  amoWrites := s.bus.amoWrites
  buffered := s.bus.buffered
  rdIds := s.hw.rdDcacheId.contents
  wrIds := s.hw.wrDcacheId.contents
  amoGenR := s.hw.amoGenR

variable (s : State) (i : Input)

def requested : Flight :=
  if dcacheDataAck s.hw i then (flight s).accept i.dcacheData else flight s

def arrived : Flight :=
  if bPush s.hw i then (requested s i).pushB (i.axi.bId.getLsbD 1) i.axi.bExokay
  else requested s i

def returned : Flight :=
  if dcacheRdEn s.hw i then (arrived s i).beat (i.axi.rId.getLsbD 1) i.axi.rData i.axi.rLast
  else if bPop s.hw i then (arrived s i).popB
  else arrived s i

def selected : Flight :=
  if selects s.hw .ATOMIC then (returned s i).select else returned s i

def cycle : Flight := if arbAck1 s.hw i then (selected s i).grant else selected s i

def writeId (r : MemReq) : AxiId := if r.rtype = .ATOMIC then 3 else 1

def fillBeats (r : IcacheReq) : Nat := if r.nc then 1 else 2

structure Ok : Prop where
  arb : ArbOk s.hw
  flight : FlightOk (flight s)
  buffer : s.hw.bFifo.contents = s.bus.buffered.map fun p => (p.2, writeId p.1)
  reads : ReadsOk MemReq.beats (s.bus.loads ++ s.bus.amoReads) s.hw.dcacheShift
  fills : ReadsOk fillBeats s.bus.fills s.hw.icacheShift
  fillIds : s.hw.rdIcacheId.contents = s.bus.fills.map (·.req.tid)

/-- An atomic is only accepted with no other transaction of the data cache in flight, and
nothing is accepted until it is answered. When a store-conditional is presented to the bus, no
write response of an atomic before it is to come, but for one that is discarded in this cycle. -/
structure Exclusive : Prop where
  alone : dcacheDataAck s.hw i = true → pending s .ATOMIC = []
  atomic : dcacheDataAck s.hw i = true → i.dcacheData.rtype = .ATOMIC →
    pending s .LOAD = [] ∧ pending s .STORE = []
  sc : selects s.hw .ATOMIC = true → MemReq.isSc (dcacheHead s.hw) = true →
    (stale s).length ≤ if bPop s.hw i && bDiscard s.hw i then 1 else 0

variable {s i}

theorem pending_eq (t : ReqType) : pending s t = (flight s).pending t := by
  cases t <;> rfl

/-! ## The stages -/

theorem Ok.requested (h : Ok s) (he : Exclusive s i) : FlightOk (requested s i) := by
  unfold Axi.requested
  split_ifs with ha
  · refine h.flight.accept ?_ ?_
    · exact (pending_eq _).symm.trans (he.alone ha)
    · simpa only [pending_eq] using he.atomic ha
  · exact h.flight

theorem requested_rest : (requested s i).loads = s.bus.loads ∧
    (requested s i).amoReads = s.bus.amoReads ∧ (requested s i).stores = s.bus.stores ∧
    (requested s i).amoWrites = s.bus.amoWrites ∧ (requested s i).buffered = s.bus.buffered ∧
    (requested s i).rdIds = s.hw.rdDcacheId.contents ∧
    (requested s i).wrIds = s.hw.wrDcacheId.contents ∧ (requested s i).amoGenR = s.hw.amoGenR := by
  unfold requested
  split_ifs <;> exact ⟨rfl, rfl, rfl, rfl, rfl, rfl, rfl, rfl⟩

theorem requested_queue : (requested s i).queue =
    queued s ++ if dcacheDataAck s.hw i then [i.dcacheData] else [] := by
  unfold requested
  split_ifs <;> simp [Flight.accept, flight]

theorem Legal.bId (hl : Legal s i) (hp : bPush s.hw i = true) :
    (i.axi.bId = 1 ∧ s.bus.stores ≠ []) ∨ (i.axi.bId = 3 ∧ s.bus.amoWrites ≠ []) := by
  simp only [bPush, Bool.and_eq_true] at hp
  exact hl.write hp.1

theorem Ok.arrived (h : Ok s) (he : Exclusive s i) (hl : Legal s i) :
    FlightOk (arrived s i) ∧ ∀ t, (arrived s i).pending t = (Axi.requested s i).pending t := by
  have hreq := h.requested he
  obtain ⟨-, -, hst, haw, -⟩ := requested_rest (s := s) (i := i)
  unfold Axi.arrived
  split_ifs with hp
  · rcases hl.bId hp with ⟨hid, hne⟩ | ⟨hid, hne⟩
    · have hbit : i.axi.bId.getLsbD 1 = false := by rw [hid]; rfl
      rw [hbit]
      exact hreq.pushB_store (by rwa [hst])
    · have hbit : i.axi.bId.getLsbD 1 = true := by rw [hid]; rfl
      rw [hbit]
      exact hreq.pushB_amo (by rwa [haw])
  · exact ⟨hreq, fun _ => rfl⟩

theorem arrived_rest : (arrived s i).loads = s.bus.loads ∧
    (arrived s i).amoReads = s.bus.amoReads ∧
    (arrived s i).queue = queued s ++ (if dcacheDataAck s.hw i then [i.dcacheData] else []) ∧
    (arrived s i).rdIds = s.hw.rdDcacheId.contents ∧
    (arrived s i).wrIds = s.hw.wrDcacheId.contents ∧ (arrived s i).amoGenR = s.hw.amoGenR := by
  obtain ⟨hld, har, -, -, -, hrd, hwr, hg⟩ := requested_rest (s := s) (i := i)
  rw [← requested_queue]
  unfold arrived Flight.pushB
  split_ifs <;> exact ⟨hld, har, rfl, hrd, hwr, hg⟩

theorem arrived_stores : (arrived s i).stores =
    s.bus.stores.drop (if bPush s.hw i && !i.axi.bId.getLsbD 1 then 1 else 0) := by
  obtain ⟨-, -, hst, -⟩ := requested_rest (s := s) (i := i)
  unfold arrived Flight.pushB
  cases bPush s.hw i <;> cases i.axi.bId.getLsbD 1 <;> simp [hst]

theorem arrived_amoWrites : (arrived s i).amoWrites =
    s.bus.amoWrites.drop (if bPush s.hw i && i.axi.bId.getLsbD 1 then 1 else 0) := by
  obtain ⟨-, -, -, haw, -⟩ := requested_rest (s := s) (i := i)
  unfold arrived Flight.pushB
  cases bPush s.hw i <;> cases i.axi.bId.getLsbD 1 <;> simp [haw]

theorem arrived_buffered : (arrived s i).buffered = bAll s i := by
  obtain ⟨-, -, hst, haw, hb, -⟩ := requested_rest (s := s) (i := i)
  unfold arrived Flight.pushB bAll bOwner
  cases bPush s.hw i <;> cases i.axi.bId.getLsbD 1 <;> simp [hst, haw, hb]

/-! ## Write responses -/

theorem Ok.bFifo_eq (h : Ok s) (hl : Legal s i) :
    s.hw.bFifo.contents ++ (if bPush s.hw i then [(i.axi.bExokay, i.axi.bId)] else []) =
      (bAll s i).map fun p => (p.2, writeId p.1) := by
  rw [h.buffer, bAll, List.map_append]
  congr 1
  split_ifs with hp
  · simp only [List.map_cons, List.map_nil, List.cons.injEq, Prod.mk.injEq, true_and, and_true]
    rcases hl.bId hp with ⟨hid, hne⟩ | ⟨hid, hne⟩
    · obtain ⟨r, l, hr⟩ := List.exists_cons_of_ne_nil hne
      have ht := h.flight.stores r (by simp [Axi.flight, hr])
      simp [bOwner, hid, hr, writeId, ht]
    · obtain ⟨r, l, hr⟩ := List.exists_cons_of_ne_nil hne
      have ht := (MemReq.writesAmo_iff.mp (h.flight.amoWrites r (by simp [Axi.flight, hr]))).1
      simp [bOwner, hid, hr, writeId, ht]
  · rfl

theorem Ok.bEmpty_iff (h : Ok s) (hl : Legal s i) : bEmpty s.hw i = true ↔ bAll s i = [] := by
  rw [bEmpty, Fifo.empty_fallThrough_iff _ _ (i.axi.bExokay, i.axi.bId), h.bFifo_eq hl,
    List.map_eq_nil_iff]

theorem Ok.bOut_eq (h : Ok s) (hl : Legal s i) {r : MemReq} {ok : Bool} {l : List (MemReq × Bool)}
    (hb : bAll s i = (r, ok) :: l) : bOut s.hw i = (ok, writeId r) := by
  apply Fifo.dataO_fallThrough (l := l.map fun p => (p.2, writeId p.1))
  rw [h.bFifo_eq hl, hb, List.map_cons]

theorem writeId_bit (r : MemReq) : (writeId r).getLsbD 1 = (r.rtype == .ATOMIC) := by
  unfold writeId
  split_ifs with ht
  · rw [ht]
    rfl
  · simp [ht]

theorem Ok.bPop_cons (h : Ok s) (hl : Legal s i) (hp : bPop s.hw i = true) :
    ∃ r ok l, bAll s i = (r, ok) :: l := by
  simp only [bPop, Bool.and_eq_true, Bool.not_eq_true'] at hp
  have hne : bAll s i ≠ [] := by
    rw [Ne, ← h.bEmpty_iff hl, hp.2]
    simp
  obtain ⟨⟨r, ok⟩, l, hb⟩ := List.exists_cons_of_ne_nil hne
  exact ⟨r, ok, l, hb⟩

/-- The response is discarded exactly when its atomic is answered by a beat. -/
theorem Ok.bDiscard_eq (h : Ok s) (he : Exclusive s i) (hl : Legal s i) {r : MemReq} {ok : Bool}
    {l : List (MemReq × Bool)} (hb : bAll s i = (r, ok) :: l) :
    bDiscard s.hw i = MemReq.readsBack r := by
  have hd := (h.arrived he hl).1.discards (arrived_buffered.trans hb)
  obtain ⟨-, -, -, -, -, hg⟩ := arrived_rest (s := s) (i := i)
  rw [bDiscard, bAtomic, h.bOut_eq hl hb, writeId_bit, ← hd, hg]

/-! ## Beats -/

/-- A beat for the data cache belongs to the oldest load or to the oldest atomic. -/
theorem Legal.dcacheBeat (hl : Legal s i) (hr : dcacheRdEn s.hw i = true) :
    ∃ r l, (if i.axi.rId.getLsbD 1 then s.bus.amoReads else s.bus.loads) = r :: l ∧
      i.axi.rLast = decide (r.beats.length + 1 = r.len) := by
  simp only [dcacheRdEn, Bool.and_eq_true] at hr
  obtain ⟨⟨hv, hid⟩, -⟩ := hr
  rcases hl.read hv with ⟨h, -⟩ | ⟨h, r, l, hrl⟩ | ⟨h, r, l, hrl⟩
  · rw [h] at hid
    exact absurd hid (by decide)
  · refine ⟨r, l, ?_⟩
    rw [h]
    exact hrl
  · refine ⟨r, l, ?_⟩
    rw [h]
    exact hrl

theorem Legal.icacheBeat (hl : Legal s i) (hr : icacheRdEn s.hw i = true) :
    ∃ r l, s.bus.fills = r :: l ∧ i.axi.rLast = decide (r.beats.length + 1 = r.len) := by
  simp only [icacheRdEn, Bool.and_eq_true, beq_iff_eq] at hr
  obtain ⟨⟨hv, hid⟩, -⟩ := hr
  rcases hl.read hv with ⟨-, h⟩ | ⟨h, -⟩ | ⟨h, -⟩
  · exact h
  · rw [hid] at h
    exact absurd h (by decide)
  · rw [hid] at h
    exact absurd h (by decide)

theorem rDone_cons (r : Read MemReq) (l : List (Read MemReq)) : rDone i (r :: l) =
    if i.axi.rLast then some ⟨r.req, r.beats ++ [i.axi.rData], false⟩ else none := by
  unfold rDone
  split_ifs <;> rfl

def answered (t : ReqType) (d : Option Done) : List MemReq :=
  (d.toList.map (·.req)).filter (·.rtype == t)

theorem answered_rDone (r : Read MemReq) (l : List (Read MemReq)) (t : ReqType) :
    answered t (rDone i (r :: l)) = if i.axi.rLast && r.req.rtype == t then [r.req] else [] := by
  rw [rDone_cons]
  cases i.axi.rLast <;> simp [answered, List.filter_cons]

theorem Ok.returned_beat (h : Ok s) (he : Exclusive s i) (hl : Legal s i)
    (hr : dcacheRdEn s.hw i = true) :
    FlightOk (returned s i) ∧ ∀ t, answered t (doneNext s i) ++ (returned s i).pending t =
      (Axi.arrived s i).pending t := by
  obtain ⟨harr, -⟩ := h.arrived he hl
  obtain ⟨hld, har, -⟩ := arrived_rest (s := s) (i := i)
  obtain ⟨r, l, hrl, -⟩ := hl.dcacheBeat hr
  rw [Axi.returned, doneNext, if_pos hr, if_pos hr, hrl]
  cases hid : i.axi.rId.getLsbD 1 with
  | false =>
      simp only [hid, Bool.false_eq_true, if_false] at hrl
      obtain ⟨hok, hpend, -⟩ := harr.beat_load (hld.trans hrl) i.axi.rData i.axi.rLast
      exact ⟨hok, fun t => by rw [answered_rDone, hpend]⟩
  | true =>
      simp only [hid, if_true] at hrl
      obtain ⟨hok, hpend, -⟩ := harr.beat_amo (har.trans hrl) i.axi.rData i.axi.rLast
      exact ⟨hok, fun t => by rw [answered_rDone, hpend]⟩

/-- The write response of this cycle answers its owner, unless it is discarded. -/
theorem Ok.returned_response (h : Ok s) (he : Exclusive s i) (hl : Legal s i)
    (hr : dcacheRdEn s.hw i = false) (hp : bPop s.hw i = true) :
    FlightOk (returned s i) ∧ ∀ t, answered t (doneNext s i) ++ (returned s i).pending t =
      (Axi.arrived s i).pending t := by
  obtain ⟨harr, -⟩ := h.arrived he hl
  obtain ⟨r, ok, l, hb⟩ := h.bPop_cons hl hp
  have hbuf := arrived_buffered.trans hb
  simp only [Axi.returned, doneNext, hr, hp, Bool.false_eq_true, if_false, if_true, bDone, hb]
  rcases MemReq.write_kinds (harr.buffered (r, ok) (by simp [hbuf])) with
    ⟨ht, hs, hr⟩ | ⟨ht, hs, hr⟩ | ⟨ht, hs, hr⟩
  · obtain ⟨hok, hpend, -⟩ := harr.popB_store hbuf ht hr
    refine ⟨hok, fun t => ?_⟩
    rw [← hpend]
    simp [answered, hr, List.filter_cons]
  · obtain ⟨hok, hpend, -⟩ := harr.popB_sc hbuf ht hs hr
    refine ⟨hok, fun t => ?_⟩
    rw [← hpend]
    simp [answered, hr, List.filter_cons]
  · obtain ⟨hok, hpend⟩ := harr.popB_stale hbuf ht hs hr
    exact ⟨hok, fun t => by simp [answered, hr, hpend]⟩

theorem Ok.returned (h : Ok s) (he : Exclusive s i) (hl : Legal s i) :
    FlightOk (returned s i) ∧ ∀ t, answered t (doneNext s i) ++ (returned s i).pending t =
      (Axi.arrived s i).pending t := by
  cases hr : dcacheRdEn s.hw i with
  | true => exact h.returned_beat he hl hr
  | false =>
      cases hp : bPop s.hw i with
      | true => exact h.returned_response he hl hr hp
      | false =>
          obtain ⟨harr, -⟩ := h.arrived he hl
          simpa [Axi.returned, doneNext, hr, hp, answered] using harr

theorem Ok.arrived_stale (h : Ok s) (hl : Legal s i) : (Axi.arrived s i).stale = stale s := by
  have hreq : (Axi.requested s i).stale = stale s := by
    unfold Axi.requested
    split_ifs <;> rfl
  obtain ⟨-, -, hst, haw, -⟩ := requested_rest (s := s) (i := i)
  rw [← hreq]
  unfold Axi.arrived
  split_ifs with hp
  · rcases hl.bId hp with ⟨hid, hne⟩ | ⟨hid, hne⟩
    · obtain ⟨r, l, hr⟩ := List.exists_cons_of_ne_nil hne
      have hbit : i.axi.bId.getLsbD 1 = false := by rw [hid]; rfl
      rw [hbit]
      have hkind := h.flight.stores r (by simp [Axi.flight, hr])
      exact (Flight.pushB_stores _ (hst.trans hr) hkind).2.2
    · obtain ⟨r, l, hr⟩ := List.exists_cons_of_ne_nil hne
      have hbit : i.axi.bId.getLsbD 1 = true := by rw [hid]; rfl
      have ht := (MemReq.writesAmo_iff.mp (h.flight.amoWrites r (by simp [Axi.flight, hr]))).1
      rw [hbit]
      exact (Flight.pushB_amoWrites _ (haw.trans hr) ht).2.2
  · rfl

theorem bPop_of_beat (hr : dcacheRdEn s.hw i = true) : bPop s.hw i = false := by
  simp [bPop, hr]

theorem Ok.returned_stale (h : Ok s) (he : Exclusive s i) (hl : Legal s i) :
    (Axi.returned s i).stale =
      (stale s).drop (if bPop s.hw i && bDiscard s.hw i then 1 else 0) := by
  have harr := h.arrived_stale hl
  unfold Axi.returned
  cases hr : dcacheRdEn s.hw i with
  | true =>
      rw [bPop_of_beat hr]
      exact harr
  | false =>
      cases hp : bPop s.hw i with
      | true =>
          obtain ⟨r, ok, l, hb⟩ := h.bPop_cons hl hp
          rw [h.bDiscard_eq he hl hb, ← harr,
            (Flight.popB_lists (arrived_buffered.trans hb)).2.2]
          cases MemReq.readsBack r <;> rfl
      | false => exact harr

theorem returned_queue : (returned s i).queue =
    queued s ++ if dcacheDataAck s.hw i then [i.dcacheData] else [] := by
  obtain ⟨-, -, hq, -⟩ := arrived_rest (s := s) (i := i)
  rw [← hq]
  unfold returned Flight.popB
  split_ifs
  · rfl
  · split <;> rfl
  · rfl

theorem selected_queue : (selected s i).queue =
    queued s ++ if dcacheDataAck s.hw i then [i.dcacheData] else [] := by
  rw [← returned_queue]
  unfold selected Flight.select
  split_ifs
  · split <;> rfl
  · rfl

theorem Exclusive.no_stale (he : Exclusive s i) (h : Ok s) (hl : Legal s i)
    (hs : selects s.hw .ATOMIC = true) (hsc : MemReq.isSc (dcacheHead s.hw) = true) :
    (Axi.returned s i).stale = [] := by
  rw [h.returned_stale he hl, List.drop_eq_nil_iff]
  exact he.sc hs hsc

theorem Ok.returned_head (h : Ok s) (hs : selects s.hw .ATOMIC = true) :
    (Axi.returned s i).queue.head? = some (dcacheHead s.hw) := by
  simp only [selects, Bool.and_eq_true, beq_iff_eq] at hs
  rw [returned_queue, queued, dcacheData_cons (h.arb.arbReq1_of_idx hs.1.1 hs.1.2)]
  rfl

theorem Ok.selected (h : Ok s) (he : Exclusive s i) (hl : Legal s i) :
    FlightOk (selected s i) ∧ ∀ t, (selected s i).pending t = (Axi.returned s i).pending t := by
  obtain ⟨hret, -⟩ := h.returned he hl
  unfold Axi.selected
  split_ifs with hs
  · refine hret.select fun r hr => ?_
    rw [h.returned_head hs, Option.mem_some_iff] at hr
    subst hr
    exact he.no_stale h hl hs
  · exact ⟨hret, fun _ => rfl⟩

theorem selected_stale : (selected s i).stale = (returned s i).stale := by
  unfold selected Flight.select
  split_ifs
  · split <;> rfl
  · rfl

/-! ## Grants -/

theorem Ok.selected_cons (h : Ok s) (ha : arbAck1 s.hw i = true) :
    ∃ l, (Axi.selected s i).queue = dcacheHead s.hw :: l ∧
      l = (queued s).tail ++ if dcacheDataAck s.hw i then [i.dcacheData] else [] := by
  refine ⟨_, ?_, rfl⟩
  rw [selected_queue, queued, dcacheData_cons (h.arb.ack1 ha).1]
  rfl

theorem Ok.selects_of_ack (h : Ok s) (ha : arbAck1 s.hw i = true)
    (ht : (dcacheHead s.hw).rtype = .ATOMIC) : selects s.hw .ATOMIC = true := by
  have hinv := h.arb.invalidate_eq (i := i)
  rw [ha, ht] at hinv
  simp only [invalidate, beq_self_eq_true, Bool.and_self, Bool.and_eq_true] at hinv
  exact hinv.1

theorem Ok.selected_amoGenR (h : Ok s) :
    (Axi.selected s i).amoGenR = amoGenRD s.hw := by
  have hg : (Axi.returned s i).amoGenR = s.hw.amoGenR := by
    obtain ⟨-, -, -, -, -, hg⟩ := arrived_rest (s := s) (i := i)
    rw [← hg]
    unfold Axi.returned Flight.popB
    split_ifs
    · rfl
    · split <;> rfl
    · rfl
  unfold Axi.selected amoGenRD
  split_ifs with hs
  · simp only [selects, Bool.and_eq_true, beq_iff_eq] at hs
    obtain ⟨⟨hany, hidx⟩, ht⟩ := hs
    have hq := returned_queue (s := s) (i := i)
    rw [queued, dcacheData_cons (h.arb.arbReq1_of_idx hany hidx)] at hq
    simp [Flight.select, hq, ht]
  · exact hg

theorem Ok.cycle (h : Ok s) (he : Exclusive s i) (hl : Legal s i) :
    FlightOk (cycle s i) ∧ ∀ t, (cycle s i).pending t = (Axi.selected s i).pending t := by
  obtain ⟨hsel, -⟩ := h.selected he hl
  unfold Axi.cycle
  split_ifs with ha
  · obtain ⟨l, hq, -⟩ := h.selected_cons ha
    refine hsel.grant hq (fun ht => ?_) fun hsc => ?_
    · rw [h.selected_amoGenR, amoGenRD, if_pos (h.selects_of_ack ha ht)]
    · rw [selected_stale]
      exact he.no_stale h hl (h.selects_of_ack ha (MemReq.isSc_iff.mp hsc).1) hsc
  · exact ⟨hsel, fun _ => rfl⟩

/-! ## The state after the cycle -/

theorem selected_rest : (selected s i).loads = (returned s i).loads ∧
    (selected s i).amoReads = (returned s i).amoReads ∧
    (selected s i).stores = (returned s i).stores ∧
    (selected s i).amoWrites = (returned s i).amoWrites ∧
    (selected s i).buffered = (returned s i).buffered ∧
    (selected s i).rdIds = (returned s i).rdIds ∧ (selected s i).wrIds = (returned s i).wrIds := by
  unfold selected Flight.select
  split_ifs
  · split <;> exact ⟨rfl, rfl, rfl, rfl, rfl, rfl, rfl⟩
  · exact ⟨rfl, rfl, rfl, rfl, rfl, rfl, rfl⟩

theorem selected_reads :
    (selected s i).loads = (if dcacheRdEn s.hw i && !i.axi.rId.getLsbD 1 then
        advance i.axi.rData i.axi.rLast s.bus.loads else s.bus.loads) ∧
      (selected s i).amoReads = (if dcacheRdEn s.hw i && i.axi.rId.getLsbD 1 then
        advance i.axi.rData i.axi.rLast s.bus.amoReads else s.bus.amoReads) := by
  obtain ⟨hl, hr, -⟩ := selected_rest (s := s) (i := i)
  obtain ⟨hld, har, -⟩ := arrived_rest (s := s) (i := i)
  rw [hl, hr, ← hld, ← har]
  unfold returned Flight.popB
  cases dcacheRdEn s.hw i with
  | true => cases i.axi.rId.getLsbD 1 <;> exact ⟨rfl, rfl⟩
  | false =>
      cases bPop s.hw i with
      | false => exact ⟨rfl, rfl⟩
      | true =>
          simp only [Bool.false_eq_true, if_false, if_true, Bool.false_and]
          split <;> exact ⟨rfl, rfl⟩

theorem selected_writes : (selected s i).stores = (arrived s i).stores ∧
    (selected s i).amoWrites = (arrived s i).amoWrites ∧
    (selected s i).buffered = (bAll s i).drop (if bPop s.hw i then 1 else 0) := by
  obtain ⟨-, -, hst, haw, hb, -⟩ := selected_rest (s := s) (i := i)
  rw [hst, haw, hb, ← arrived_buffered]
  unfold returned Flight.popB
  cases hr : dcacheRdEn s.hw i with
  | true => simp [Flight.beat, bPop_of_beat hr]
  | false =>
      cases bPop s.hw i with
      | false => simp
      | true =>
          simp only [Bool.false_eq_true, if_false, if_true]
          split
          · next hnil => simp [hnil]
          · next hcons => simp [hcons]

theorem wrEmpty_eq : s.hw.wrDcacheId.empty false false = s.hw.wrDcacheId.contents.isEmpty := by
  rw [Bool.eq_iff_iff, Fifo.empty_iff, List.isEmpty_iff]

theorem Ok.selected_ids (h : Ok s) (he : Exclusive s i) (hl : Legal s i) :
    (Axi.selected s i).rdIds = s.hw.rdDcacheId.contents.drop (if dcacheRdPop s.hw i then 1 else 0) ∧
      (Axi.selected s i).wrIds =
        s.hw.wrDcacheId.contents.drop (if dcacheWrPop s.hw i then 1 else 0) := by
  obtain ⟨-, -, -, -, -, hrd, hwr⟩ := selected_rest (s := s) (i := i)
  obtain ⟨-, -, -, hard, harw, -⟩ := arrived_rest (s := s) (i := i)
  rw [hrd, hwr]
  unfold Axi.returned
  cases hr : dcacheRdEn s.hw i with
  | true =>
      simp [Flight.beat, hard, harw, dcacheRdPop, dcacheWrPop, bPop_of_beat hr, hr, wrEmpty_eq]
  | false =>
      cases hp : bPop s.hw i with
      | false => simp [hard, harw, dcacheRdPop, dcacheWrPop, hr, hp]
      | true =>
          obtain ⟨r, ok, l, hb⟩ := h.bPop_cons hl hp
          have hbuf := arrived_buffered.trans hb
          have hdisc := (h.arrived he hl).1.discards hbuf
          simp only [Bool.false_eq_true, if_false, if_true, Flight.popB, hbuf, hdisc, hard, harw,
            dcacheRdPop, dcacheWrPop, hr, hp, h.bDiscard_eq he hl hb, Bool.false_and, Bool.false_or,
            Bool.true_and, List.drop_zero, true_and]
          cases MemReq.readsBack r <;> rfl

theorem rdBeats_of_ack (ha : arbAck1 s.hw i = true) :
    rdBeats s.hw = if (dcacheHead s.hw).size.getLsbD 2 then 2 else 1 := by
  simp only [arbAck1, Bool.and_eq_true] at ha
  simp [rdBeats, ha.2]

theorem Ok.ids_push (h : Ok s) :
    (next s.hw i).rdDcacheId.contents =
        s.hw.rdDcacheId.contents.drop (if dcacheRdPop s.hw i then 1 else 0) ++
          (if arbAck1 s.hw i && !MemReq.isWrite (dcacheHead s.hw) then [(dcacheHead s.hw).tid]
            else []) ∧
      (next s.hw i).wrDcacheId.contents =
        s.hw.wrDcacheId.contents.drop (if dcacheWrPop s.hw i then 1 else 0) ++
          if arbAck1 s.hw i && MemReq.isWrite (dcacheHead s.hw) then [(dcacheHead s.hw).tid]
          else [] := by
  simp only [next, Fifo.contents_step, h.arb.push1_rd, h.arb.push1_wr]
  cases ha : arbAck1 s.hw i with
  | false => simp
  | true =>
      obtain ⟨-, hwr, hrd⟩ := arbReq1_iff.mp (h.arb.ack1 ha).1
      simp [hwr, hrd]

theorem granted_reads (ha : arbAck1 s.hw i = true) :
    ((granted s i).filter fun r => r.rtype == .LOAD).map
        (fun r => (⟨r, rdBeats s.hw, []⟩ : Read MemReq)) =
      (if (dcacheHead s.hw).rtype = .LOAD then
        [⟨dcacheHead s.hw, MemReq.beats (dcacheHead s.hw), []⟩] else []) ∧
    ((granted s i).filter MemReq.readsBack).map
        (fun r => (⟨r, if r.amoOp = .LR then rdBeats s.hw else 1, []⟩ : Read MemReq)) =
      if MemReq.readsBack (dcacheHead s.hw) then
        [⟨dcacheHead s.hw, MemReq.beats (dcacheHead s.hw), []⟩] else [] := by
  rw [granted, if_pos ha, rdBeats_of_ack ha]
  constructor
  · cases ht : (dcacheHead s.hw).rtype with
    | LOAD => simp only [MemReq.beats, ht, List.filter_cons]; rfl
    | STORE => simp [ht, beq_eq_decide]
    | ATOMIC => simp [ht, beq_eq_decide]
  · simp only [List.filter_cons, List.filter_nil]
    cases hb : MemReq.readsBack (dcacheHead s.hw) with
    | false => rfl
    | true =>
        obtain ⟨ht, hop⟩ := MemReq.readsBack_iff.mp hb
        simp only [if_true, List.map_cons, List.map_nil, List.cons.injEq, Read.mk.injEq, true_and,
          and_true, MemReq.beats, ht]
        cases hop' : (dcacheHead s.hw).amoOp <;> simp [hop'] at hop ⊢

theorem Ok.flight_next (h : Ok s) (he : Exclusive s i) (hl : Legal s i) :
    Axi.flight (adapter.next s i) = Axi.cycle s i := by
  obtain ⟨hld, har⟩ := selected_reads (s := s) (i := i)
  obtain ⟨hst, haw, hb⟩ := selected_writes (s := s) (i := i)
  obtain ⟨hrd, hwr⟩ := h.selected_ids he hl
  obtain ⟨hnrd, hnwr⟩ := h.ids_push (i := i)
  have hg := h.selected_amoGenR (i := i)
  have hq : (next s.hw i).dcacheData.contents = _ := dcacheData_next
  have hqueue : (Axi.selected s i).queue = s.hw.dcacheData.contents ++ _ := selected_queue
  unfold Axi.cycle
  cases ha : arbAck1 s.hw i with
  | false =>
      simp only [ha, Bool.false_and, Bool.false_eq_true, if_false, List.append_nil,
        List.drop_zero] at hnrd hnwr hq
      ext1 <;> simp only [Axi.flight, adapter, queued, busNext, granted, ha, Bool.false_eq_true,
        if_false, List.filter_nil, List.map_nil, List.append_nil]
      · rw [hq, hqueue]
      · rw [hld]
      · rw [har]
      · rw [hst, arrived_stores]
      · rw [haw, arrived_amoWrites]
      · rw [hb]
      · rw [hnrd, hrd]
      · rw [hnwr, hwr]
      · rw [hg]
        rfl
  | true =>
      obtain ⟨l, hcons, hl⟩ := h.selected_cons ha
      obtain ⟨hloads, hamo⟩ := granted_reads ha
      simp only [ha, Bool.true_and, if_true] at hnrd hnwr hq
      ext1 <;> simp only [Axi.flight, adapter, queued, busNext, Flight.grant, hcons, if_true]
      · rw [hq, hl, queued, List.drop_one]
      · rw [hloads, hld]
      · rw [hamo, har]
      · rw [hst, arrived_stores, granted, if_pos ha]
        simp [List.filter_cons]
      · rw [haw, arrived_amoWrites, granted, if_pos ha]
        simp [List.filter_cons]
      · rw [hb]
      · rw [hnrd, hrd]
        cases MemReq.isWrite (dcacheHead s.hw) <;> rfl
      · rw [hnwr, hwr]
      · rw [hg]
        rfl

/-! ## The invariant -/

theorem Ok.buffer_next (h : Ok s) (hl : Legal s i) : (next s.hw i).bFifo.contents =
    (busNext s i).buffered.map fun p => (p.2, writeId p.1) := by
  have hw : s.hw.bFifo.writes (bPush s.hw i) = bPush s.hw i := by
    unfold Fifo.writes bPush
    cases i.axi.bValid <;> simp
  simp only [next, Fifo.contents_next, hw, if_true, busNext, List.map_drop, h.bFifo_eq hl]

theorem Ok.beat_oldest (h : Ok s) (hl : Legal s i) (hr : dcacheRdEn s.hw i = true) :
    ∃ r l, ReadsOk MemReq.beats (r :: l) s.hw.dcacheShift ∧
      i.axi.rLast = decide (r.beats.length + 1 = r.len) ∧
      ((i.axi.rId.getLsbD 1 = false ∧ s.bus.loads = r :: l ∧ s.bus.amoReads = []) ∨
        (i.axi.rId.getLsbD 1 = true ∧ s.bus.amoReads = r :: l ∧ s.bus.loads = [])) := by
  obtain ⟨r, l, hrl, hlast⟩ := hl.dcacheBeat hr
  have hreads := h.reads
  refine ⟨r, l, ?_⟩
  cases hid : i.axi.rId.getLsbD 1 with
  | false =>
      simp only [hid, Bool.false_eq_true, if_false] at hrl
      have hatomic : (Axi.flight s).pending .ATOMIC = [] :=
        h.flight.no_atomic (.inl (by simp [Flight.pending, Axi.flight, hrl]))
      have hnil : s.bus.amoReads = [] := (Flight.pending_atomic_nil.mp hatomic).1
      rw [hrl, hnil, List.append_nil] at hreads
      exact ⟨hreads, hlast, .inl ⟨rfl, hrl, hnil⟩⟩
  | true =>
      simp only [hid, if_true] at hrl
      have hnil : s.bus.loads = [] := (h.flight.reading hrl).2.2.2.1
      rw [hrl, hnil, List.nil_append] at hreads
      exact ⟨hreads, hlast, .inr ⟨rfl, hrl, hnil⟩⟩

theorem Ok.reads_returned (h : Ok s) (hl : Legal s i) :
    ReadsOk MemReq.beats ((Axi.selected s i).loads ++ (Axi.selected s i).amoReads)
      (dcacheShiftD s.hw i) := by
  obtain ⟨hld, har⟩ := selected_reads (s := s) (i := i)
  rw [hld, har]
  cases hr : dcacheRdEn s.hw i with
  | false =>
      simp only [Bool.false_and, Bool.false_eq_true, if_false, dcacheShiftD, hr]
      split_ifs
      · exact h.reads.congr rfl (by simp)
      · exact h.reads
  | true =>
      obtain ⟨r, l, hreads, hlast, hcase⟩ := h.beat_oldest hl hr
      have hbeat := hreads.beat i.axi.rData
      simp only [dcacheShiftD, hr, if_true, Bool.true_and, hlast]
      rcases hcase with ⟨hid, hrl, hnil⟩ | ⟨hid, hrl, hnil⟩
      · rw [hid, hrl, hnil]
        simpa using hbeat
      · rw [hid, hrl, hnil]
        simpa using hbeat

theorem Ok.reads_next (h : Ok s) (he : Exclusive s i) (hl : Legal s i) :
    ReadsOk MemReq.beats ((busNext s i).loads ++ (busNext s i).amoReads) (next s.hw i).dcacheShift := by
  have hret := h.reads_returned hl
  have hnext := h.flight_next he hl
  have hld : (busNext s i).loads = (Axi.cycle s i).loads := congrArg Flight.loads hnext
  have har : (busNext s i).amoReads = (Axi.cycle s i).amoReads := congrArg Flight.amoReads hnext
  obtain ⟨hsel, -⟩ := h.selected he hl
  rw [hld, har]
  unfold Axi.cycle
  split_ifs with ha
  · obtain ⟨l, hq, -⟩ := h.selected_cons ha
    simp only [Flight.grant, hq]
    by_cases ht : (dcacheHead s.hw).rtype = .ATOMIC
    · obtain ⟨-, hreads, -, hloads, -⟩ := hsel.waiting hq ht
      rw [hloads, hreads] at hret ⊢
      simp only [ht, reduceCtorEq, if_false, List.append_nil, List.nil_append]
      split_ifs with hb
      · obtain ⟨hpos, hle⟩ := MemReq.beats_of_read (.inr hb)
        exact hret.snoc rfl hle hpos rfl
      · exact hret
    · have hb : MemReq.readsBack (dcacheHead s.hw) = false := by simp [MemReq.readsBack, ht]
      simp only [hb, Bool.false_eq_true, if_false, List.append_nil]
      split_ifs with hload
      · have hatomic := hsel.no_atomic (.inl (by simp [Flight.pending, hq, hload]))
        have hreads := (Flight.pending_atomic_nil.mp hatomic).1
        obtain ⟨hpos, hle⟩ := MemReq.beats_of_read (.inl hload)
        rw [hreads, List.append_nil] at hret ⊢
        exact hret.snoc rfl hle hpos rfl
      · rw [List.append_nil]
        exact hret
  · exact hret

theorem fillBeats_bounds (r : IcacheReq) : 0 < fillBeats r ∧ fillBeats r ≤ 2 := by
  unfold fillBeats
  split_ifs <;> decide

theorem Ok.fills_next (h : Ok s) (hl : Legal s i) :
    ReadsOk fillBeats (busNext s i).fills (next s.hw i).icacheShift := by
  have hret : ReadsOk fillBeats
      (if icacheRdEn s.hw i then advance i.axi.rData i.axi.rLast s.bus.fills else s.bus.fills)
      (if icacheRdEn s.hw i then s.hw.icacheShift.push i.axi.rData i.axi.rLast
        else s.hw.icacheShift) := by
    split_ifs with hr
    · obtain ⟨r, l, hrl, hlast⟩ := hl.icacheBeat hr
      have hfills := h.fills
      rw [hrl] at hfills ⊢
      rw [hlast]
      exact hfills.beat i.axi.rData
    · exact h.fills
  simp only [busNext, next]
  cases ha : arbAck0 s.hw i with
  | false => simpa using hret
  | true =>
      have hlen : rdBeats s.hw = fillBeats (icacheHead s.hw) := by
        simp only [arbAck0, Bool.and_eq_true, Bool.not_eq_true'] at ha
        simp [rdBeats, ha.2, fillBeats]
      obtain ⟨hpos, hle⟩ := fillBeats_bounds (icacheHead s.hw)
      simp only [if_true]
      exact hret.snoc hlen (hlen.trans_le hle) (hlen ▸ hpos) rfl

theorem Ok.fillIds_next (h : Ok s) (hl : Legal s i) :
    (next s.hw i).rdIcacheId.contents = (busNext s i).fills.map (·.req.tid) := by
  simp only [next, Fifo.contents_step, h.arb.push0, busNext, List.map_append, h.fillIds]
  congr 1
  · cases hr : icacheRdEn s.hw i with
    | false => simp [icacheRtrnVldD, hr]
    | true =>
        obtain ⟨r, l, hrl, -⟩ := hl.icacheBeat hr
        cases hlast : i.axi.rLast <;> simp [icacheRtrnVldD, hr, hrl, advance, hlast]
  · cases ha : arbAck0 s.hw i with
    | false => simp
    | true =>
        have hfull := (arbReq0_iff.mp (h.arb.ack0 ha).1).2
        simp [hfull]

theorem Ok.next (h : Ok s) (he : Exclusive s i) (hl : Legal s i) : Ok (adapter.next s i) where
  arb := h.arb.next
  flight := h.flight_next he hl ▸ (h.cycle he hl).1
  buffer := h.buffer_next hl
  reads := h.reads_next he hl
  fills := h.fills_next hl
  fillIds := h.fillIds_next hl

theorem ok_init : Ok adapter.init where
  arb := arbOk_reset
  flight := by
    constructor <;> simp [flight, adapter, queued, reset, Flight.pending, Flight.bufStores,
      Flight.scs, Flight.stale]
  buffer := by simp [adapter, reset]
  reads := by constructor <;> simp [adapter, reset]
  fills := by constructor <;> simp [adapter, reset]
  fillIds := by simp [adapter, reset]

theorem Ok.pending_next (h : Ok s) (he : Exclusive s i) (hl : Legal s i) (t : ReqType) :
    answered t (doneNext s i) ++ pending (adapter.next s i) t =
      pending s t ++
        if dcacheDataAck s.hw i && i.dcacheData.rtype == t then [i.dcacheData] else [] := by
  rw [pending_eq, pending_eq, h.flight_next he hl, (h.cycle he hl).2, (h.selected he hl).2,
    (h.returned he hl).2, (h.arrived he hl).2]
  unfold Axi.requested
  cases dcacheDataAck s.hw i with
  | false => simp
  | true =>
      cases t <;> simp [Flight.pending, Flight.accept, Flight.bufStores, Flight.scs,
        List.filter_cons]

end Cva6.Axi
