import Cva6.Lsu.LoadOrder
import Cva6.Dcache.Ctrl
/-!
# From the load-store unit to the read port of the data cache and back

The load-store unit with the read controller of its port (`wt_dcache_ctrl.sv`). The arrays,
the miss unit and the other ports are the environment of the controller. The load whose
answer is awaited and the answers given so far are recorded next to the hardware.
-/

namespace Cva6.Lsu

open Cva6.Sync Cva6.Dcache

/-- An answer of the data cache that was written back: the load, the address the controller
presented to the arrays in that cycle, and the doubleword that came back. -/
structure Answer where
  item : Item
  addr : Paddr
  data : BitVec 64

structure PathState where
  lsu : Tracked
  ctrl : Ctrl.Regs
  /-- The load that was popped last, until it is answered or flushed. -/
  outstanding : Option Item
  answered : List Answer
  /-- What was flushed before it was answered. -/
  flushed : List Item

structure PathInput where
  /-- The inputs of the load-store unit; the answers of its read port are computed. -/
  lsu : Input
  cacheEn : Bool
  missAck : Bool
  missReplay : Bool
  missRtrnVld : Bool
  wrClVld : Bool
  rdAck : Bool
  rdVldBits : WayMask
  rdHitOh : WayMask
  rdData : BitVec 64

variable (ni : NonIdempotent) (s : PathState) (i : PathInput)

/-- The request of the load unit, which does not depend on the answers to it. -/
def pathReq : LoadReq := loadReq ni s.lsu.hw { i.lsu with loadGnt := false, loadRvalid := false }

def ctrlIn : Ctrl.Input where
  cacheEn := i.cacheEn
  req := pathReq ni s i
  missAck := i.missAck
  missReplay := i.missReplay
  missRtrnVld := i.missRtrnVld
  wrClVld := i.wrClVld
  rdAck := i.rdAck
  rdVldBits := i.rdVldBits
  rdHitOh := i.rdHitOh

def lsuIn : Input :=
  { i.lsu with
    loadGnt := Ctrl.dataGnt s.ctrl (ctrlIn ni s i)
    loadRvalid := Ctrl.dataRvalid s.ctrl (ctrlIn ni s i)
    loadRdata := i.rdData }

def ldValidO : Bool := LoadUnit.validO s.lsu.hw.load (loadIn ni s.lsu.hw (lsuIn ni s i))

def popLd : Bool := (loadOut ni s.lsu.hw (lsuIn ni s i)).popLd

/-- The address that the controller presents to the arrays and to the miss unit: the index
and the offset of the last grant, with the tag that came one cycle later. -/
def ctrlAddr : Paddr :=
  ⟨⟨Ctrl.addressTagD s.ctrl (pathReq ni s i), s.ctrl.addressIdxQ, s.ctrl.addressOffQ⟩,
    s.ctrl.addressLaneQ⟩

def answeredNow : List Answer :=
  if ldValidO ni s i then s.outstanding.toList.map fun e => ⟨e, ctrlAddr ni s i, i.rdData⟩ else []

def loadPath : Machine PathState PathInput where
  init := ⟨(tracked ni).init, Ctrl.reset, none, [], []⟩
  next s i :=
    { lsu := (tracked ni).next s.lsu (lsuIn ni s i)
      ctrl := Ctrl.next s.ctrl (ctrlIn ni s i)
      outstanding :=
        if i.lsu.flush then none
        else if popLd ni s i then (present s.lsu).head?
        else if ldValidO ni s i then none
        else s.outstanding
      answered := s.answered ++ answeredNow ni s i
      flushed :=
        s.flushed ++
          (if i.lsu.flush then
            present s.lsu ++ (if ldValidO ni s i then [] else s.outstanding.toList)
          else []) }

/-! ## The two state machines -/

/-- Which states of the load unit and of the controller go together, and whether an answer
is awaited. In its tag phase a read gets the tag of the load awaited, or is killed; later it
belongs to the load awaited, or is killed in this cycle because of a flush. -/
def Coupled (load : LoadUnit.Kind) (read : Ctrl.Phase) (awaited : Bool) : Bool :=
  match read with
  | .idle => !awaited && (load == .quiet || load == .late || load == .flush)
  | .tag => if awaited then load == .sendTag else load == .abort || load == .flush
  | .pending => if awaited then load == .quiet else load == .flush
  | .killed => !awaited && (load == .quiet || load == .flush)

/-- The request depends on the inputs only through the comparison with the older stores. -/
theorem loadReq_congr (q : State) {j j' : Input}
    (hj : pageOffsetMatches q j = pageOffsetMatches q j') : loadReq ni q j = loadReq ni q j' := by
  have hasks : LoadUnit.asks q.load.state (loadIn ni q j) =
      LoadUnit.asks q.load.state (loadIn ni q j') := by
    simp [LoadUnit.asks, loadIn, hj]
  simp only [loadReq, loadOut, LoadUnit.control]
  rw [LoadUnit.loadControl_dataReq rfl, LoadUnit.loadControl_dataReq rfl,
    LoadUnit.loadControl_killReq rfl, LoadUnit.loadControl_killReq rfl,
    LoadUnit.loadControl_tagValid rfl, LoadUnit.loadControl_tagValid rfl, hasks]

structure Wired (load : LoadUnit.Regs) (j : LoadUnit.Input) (q : Ctrl.Regs) (c : Ctrl.Input) :
    Prop where
  no_ex : j.ex.valid = false
  dataReq : c.req.dataReq = LoadUnit.asks load.state j
  killReq : c.req.killReq = (load.state == .ABORT_TRANSACTION ||
    load.state == .ABORT_TRANSACTION_NI || load.state == .WAIT_FLUSH)
  tagValid : c.req.tagValid = (load.state == .ABORT_TRANSACTION ||
    load.state == .ABORT_TRANSACTION_NI || load.state == .WAIT_FLUSH || load.state == .SEND_TAG)
  dataGnt : j.dataGnt = Ctrl.dataGnt q c
  dataRvalid : j.dataRvalid = Ctrl.dataRvalid q c

theorem wired :
    Wired s.lsu.hw.load (loadIn ni s.lsu.hw (lsuIn ni s i)) s.ctrl (ctrlIn ni s i) where
  no_ex := rfl
  dataReq := LoadUnit.loadControl_dataReq rfl
  killReq := LoadUnit.loadControl_killReq rfl
  tagValid := LoadUnit.loadControl_tagValid rfl
  dataGnt := rfl
  dataRvalid := rfl

section Step

variable {load : LoadUnit.Regs} {j : LoadUnit.Input} {q : Ctrl.Regs} {c : Ctrl.Input}
  {awaited : Bool}

theorem Wired.validO_eq (hw : Wired load j q c) :
    LoadUnit.validO load j = (Ctrl.dataRvalid q c && !c.req.killReq &&
      load.state != .WAIT_TRANSLATION) := by
  rw [LoadUnit.validO_of_no_ex hw.no_ex, hw.dataRvalid, hw.killReq]
  cases load.state <;> cases Ctrl.dataRvalid q c <;> rfl

theorem coupled_step (k k' : LoadUnit.Kind) (p p' : Ctrl.Phase) (awaited flush gnt rvalid pop : Bool)
    (h : Coupled k p awaited = true) (hk : LoadUnit.kindStep k k' flush gnt pop = true)
    (hp : Ctrl.phaseStep p p' (k == .abort || k == .flush) gnt rvalid = true) :
    Coupled k' p' (!flush && (pop || (awaited && !(rvalid && !(k == .abort || k == .flush))))) =
      true := by
  revert k k' p p' awaited flush gnt rvalid pop
  decide +kernel

/-- Only an awaited load is answered, and the next one is granted only then. -/
theorem coupled_answer (k : LoadUnit.Kind) (p p' : Ctrl.Phase) (awaited gnt rvalid : Bool)
    (h : Coupled k p awaited = true)
    (hp : Ctrl.phaseStep p p' (k == .abort || k == .flush) gnt rvalid = true) :
    ((rvalid && !(k == .abort || k == .flush)) = true → awaited = true) ∧
      (awaited = true → (k == .abort || k == .flush) = false ∧
        (p = .tag → k = .sendTag) ∧ (gnt = true → rvalid = true) ∧
        (rvalid = false → p' = .pending)) := by
  refine ⟨?_, fun ha => ⟨?_, ?_, ?_, ?_⟩⟩ <;> revert k p p' awaited gnt rvalid <;> decide +kernel

/-- A read that goes on has not been answered, or has lost its load after its tag phase. -/
theorem coupled_going (k : LoadUnit.Kind) (p p' : Ctrl.Phase) (awaited gnt rvalid : Bool)
    (h : Coupled k p awaited = true)
    (hp : Ctrl.phaseStep p p' (k == .abort || k == .flush) gnt rvalid = true)
    (hgoing : p' ≠ .idle ∧ p' ≠ .tag) :
    (awaited = true → rvalid = false) ∧ (awaited = false → p ≠ .idle ∧ p ≠ .tag) := by
  constructor <;> revert k p p' awaited gnt rvalid <;> decide +kernel

end Step

/-! ## What the path holds -/

def loadAddr (c : LsuCtrl) : Paddr := paddrOf c.vaddr

/-- The address that the controller holds; the tag comes from the load unit in its tag
phase. -/
def heldAddr (s : PathState) : Paddr :=
  ⟨⟨if s.ctrl.state = .READ then s.lsu.hw.mmuPaddr.extractLsb' 12 20 else s.ctrl.addressTagQ,
    s.ctrl.addressIdxQ, s.ctrl.addressOffQ⟩, s.ctrl.addressLaneQ⟩

def chain (s : PathState) : List Item :=
  s.answered.map Answer.item ++ s.outstanding.toList ++ s.lsu.record.waiting

structure PathOk (s : PathState) : Prop where
  queue : QueueOk s.lsu
  coupled : Coupled (LoadUnit.kind s.lsu.hw.load.state) (Ctrl.phase s.ctrl.state)
    s.outstanding.isSome = true
  rdAck : s.ctrl.state = .READ ∨ s.ctrl.state = .REPLAY_READ → s.ctrl.rdAckQ = true
  signOk : LoadUnit.SignOk s.lsu.hw.load
  load_data : ∀ e ∈ s.outstanding, s.lsu.hw.load.loadData = LoadUnit.inData e.2
  address : ∀ e ∈ s.outstanding, heldAddr s = loadAddr e.2
  ordered : ((chain s).map Prod.fst).Pairwise (· < ·)
  identity : ∀ e ∈ chain s, s.lsu.record.accepted[e.1]? = some e.2
  loads : ∀ e ∈ s.answered.map Answer.item ++ s.outstanding.toList, e.2.fu = .LOAD
  answers : ∀ a ∈ s.answered, a.addr = loadAddr a.item.2
  accounted : ∀ n c, s.lsu.record.accepted[n]? = some c → c.fu = .LOAD →
    (n, c) ∈ chain s ∨ (n, c) ∈ s.flushed

variable {ni : NonIdempotent} {s : PathState} {i : PathInput}

variable (ni) in
theorem PathOk.phase_next (h : PathOk s) :
    Ctrl.phaseStep (Ctrl.phase s.ctrl.state) (Ctrl.phase (Ctrl.stateD s.ctrl (ctrlIn ni s i)))
      (LoadUnit.kind s.lsu.hw.load.state == .abort || LoadUnit.kind s.lsu.hw.load.state == .flush)
      (Ctrl.dataGnt s.ctrl (ctrlIn ni s i)) (Ctrl.dataRvalid s.ctrl (ctrlIn ni s i)) = true := by
  have hw := wired ni s i
  rw [← LoadUnit.kill_iff, ← hw.killReq]
  apply Ctrl.phase_next
  intro hread hkill
  -- in the tag phase a load that is not killed sends its tag
  have hcoupled := h.coupled
  rw [hread] at hcoupled
  rw [hw.killReq, LoadUnit.kill_iff] at hkill
  rw [hw.tagValid]
  revert hcoupled hkill
  cases s.lsu.hw.load.state <;> cases s.outstanding.isSome <;> decide

/-- The load unit takes every answer to the awaited load. -/
theorem PathOk.ldValidO_eq (h : PathOk s) (ha : s.outstanding.isSome = true) :
    ldValidO ni s i =
      (Ctrl.dataRvalid s.ctrl (ctrlIn ni s i) && !(pathReq ni s i).killReq) := by
  have hvalid : ldValidO ni s i = (Ctrl.dataRvalid s.ctrl (ctrlIn ni s i) &&
      !(pathReq ni s i).killReq && s.lsu.hw.load.state != .WAIT_TRANSLATION) :=
    (wired ni s i).validO_eq
  have hne : (s.lsu.hw.load.state != .WAIT_TRANSLATION) = true := by
    have hcoupled := h.coupled
    rw [ha] at hcoupled
    revert hcoupled
    cases s.lsu.hw.load.state <;> cases Ctrl.phase s.ctrl.state <;> decide
  rw [hvalid, hne, Bool.and_true]

theorem PathOk.answer (h : PathOk s) (ni : NonIdempotent) (i : PathInput) :
    (ldValidO ni s i = true → s.outstanding.isSome = true) ∧
      (s.outstanding.isSome = true →
        (pathReq ni s i).killReq = false ∧
        (s.ctrl.state = .READ → (pathReq ni s i).tagValid = true) ∧
        (Ctrl.dataGnt s.ctrl (ctrlIn ni s i) = true → ldValidO ni s i = true) ∧
        (ldValidO ni s i = false →
          Ctrl.phase (Ctrl.stateD s.ctrl (ctrlIn ni s i)) = .pending)) := by
  have hw := wired ni s i
  have hkill : (pathReq ni s i).killReq = (LoadUnit.kind s.lsu.hw.load.state == .abort ||
      LoadUnit.kind s.lsu.hw.load.state == .flush) := hw.killReq.trans LoadUnit.kill_iff
  have hvalid : ldValidO ni s i = (Ctrl.dataRvalid s.ctrl (ctrlIn ni s i) &&
      !(pathReq ni s i).killReq && s.lsu.hw.load.state != .WAIT_TRANSLATION) := hw.validO_eq
  have hanswer := coupled_answer _ _ _ _ _ _ h.coupled (h.phase_next ni (i := i))
  rw [← hkill] at hanswer
  have hlate : s.outstanding.isSome = true →
      ldValidO ni s i = Ctrl.dataRvalid s.ctrl (ctrlIn ni s i) := by
    intro ha
    rw [h.ldValidO_eq ha, (hanswer.2 ha).1]
    simp
  refine ⟨?_, ?_⟩
  · intro hv
    rw [hvalid, Bool.and_eq_true] at hv
    exact hanswer.1 hv.1
  · intro ha
    obtain ⟨hk, htag, hgnt, hpend⟩ := hanswer.2 ha
    rw [hlate ha]
    refine ⟨hk, ?_, hgnt, hpend⟩
    intro hread
    have hsend := LoadUnit.kind_sendTag.mp (htag (by rw [hread]; rfl))
    have htagv : (pathReq ni s i).tagValid = _ := hw.tagValid
    rw [htagv, hsend]
    rfl

variable (ni) in
theorem PathOk.ctrlAddr_eq (h : PathOk s) (ha : s.outstanding.isSome = true) :
    ctrlAddr ni s i = heldAddr s := by
  obtain ⟨hk, htag, -, -⟩ := (h.answer ni i).2 ha
  simp only [ctrlAddr, heldAddr, Ctrl.addressTagD, Ctrl.saveTag]
  by_cases hread : s.ctrl.state = .READ
  · simp [hread, hk, htag hread]
    rfl
  · simp [hread]

/-! ## One cycle -/

theorem popLd_dataGnt (hp : popLd ni s i = true) : Ctrl.dataGnt s.ctrl (ctrlIn ni s i) = true := by
  have hp : (LoadUnit.loadControl s.lsu.hw.load.state (loadIn ni s.lsu.hw (lsuIn ni s i))).popLd =
    true := hp
  rw [LoadUnit.loadControl_popLd rfl] at hp
  simp only [Bool.and_eq_true] at hp
  exact hp.1.1.2

theorem PathOk.head_of_popLd (h : PathOk s) (hp : popLd ni s i = true) :
    ∃ n rest, present s.lsu = (n, lsuCtrl s.lsu.hw) :: rest ∧ (lsuCtrl s.lsu.hw).fu = .LOAD :=
  h.queue.head_of_popLd hp

theorem PathOk.outstanding_next (h : PathOk s) {e : Item}
    (he : e ∈ ((loadPath ni).next s i).outstanding) :
    i.lsu.flush = false ∧
      ((popLd ni s i = true ∧ e.2 = lsuCtrl s.lsu.hw ∧ ∃ rest, present s.lsu = e :: rest) ∨
        (popLd ni s i = false ∧ ldValidO ni s i = false ∧ e ∈ s.outstanding)) := by
  have he : (if i.lsu.flush then none else if popLd ni s i then (present s.lsu).head?
    else if ldValidO ni s i then none else s.outstanding) = some e := he
  split_ifs at he with hf hp hv
  · obtain ⟨n, rest, hpres, -⟩ := h.head_of_popLd hp
    rw [hpres, List.head?_cons, Option.some.injEq] at he
    subst he
    exact ⟨Bool.eq_false_iff.mpr hf, .inl ⟨hp, rfl, rest, hpres⟩⟩
  · exact ⟨Bool.eq_false_iff.mpr hf,
      .inr ⟨Bool.eq_false_iff.mpr hp, Bool.eq_false_iff.mpr hv, he⟩⟩

theorem PathOk.isSome_next (h : PathOk s) :
    ((loadPath ni).next s i).outstanding.isSome =
      (!i.lsu.flush && (popLd ni s i || (s.outstanding.isSome && !ldValidO ni s i))) := by
  show (if i.lsu.flush then none else if popLd ni s i then (present s.lsu).head?
    else if ldValidO ni s i then none else s.outstanding).isSome = _
  cases i.lsu.flush with
  | true => rfl
  | false =>
      cases hp : popLd ni s i with
      | true =>
          obtain ⟨n, rest, hpres, -⟩ := h.head_of_popLd hp
          simp [hpres]
      | false => cases ldValidO ni s i <;> simp

variable (ni) in
theorem PathOk.coupled_next (h : PathOk s) :
    Coupled (LoadUnit.kind ((loadPath ni).next s i).lsu.hw.load.state)
      (Ctrl.phase ((loadPath ni).next s i).ctrl.state)
      ((loadPath ni).next s i).outstanding.isSome = true := by
  have hw := wired ni s i
  have hkind : LoadUnit.kindStep (LoadUnit.kind s.lsu.hw.load.state)
      (LoadUnit.kind ((loadPath ni).next s i).lsu.hw.load.state) i.lsu.flush
      (Ctrl.dataGnt s.ctrl (ctrlIn ni s i)) (popLd ni s i) = true :=
    LoadUnit.kind_next hw.no_ex fun hg => hw.dataReq.symm.trans (Ctrl.dataReq_of_dataGnt hg)
  have hstep := coupled_step _ _ _ _ _ _ _ _ _ h.coupled hkind (h.phase_next ni (i := i))
  rw [h.isSome_next]
  cases ha : s.outstanding.isSome with
  | false =>
      rw [ha, Bool.false_and] at hstep
      rw [Bool.false_and]
      exact hstep
  | true =>
      have hkill : (pathReq ni s i).killReq = (LoadUnit.kind s.lsu.hw.load.state == .abort ||
          LoadUnit.kind s.lsu.hw.load.state == .flush) := hw.killReq.trans LoadUnit.kill_iff
      rw [ha, ← hkill] at hstep
      rw [h.ldValidO_eq ha]
      exact hstep

variable (ni) in
theorem PathOk.tag_of_read (h : PathOk s) (hread : s.ctrl.state = .READ) :
    (pathReq ni s i).killReq = true ∨ (pathReq ni s i).tagValid = true := by
  have hw := wired ni s i
  have hkill : (pathReq ni s i).killReq = _ := hw.killReq
  have htag : (pathReq ni s i).tagValid = _ := hw.tagValid
  have hcoupled := h.coupled
  rw [hread] at hcoupled
  rw [hkill, htag]
  revert hcoupled
  cases s.lsu.hw.load.state <;> cases s.outstanding.isSome <;> decide

theorem PathOk.rdAck_next (h : PathOk s)
    (hread : ((loadPath ni).next s i).ctrl.state = .READ ∨
      ((loadPath ni).next s i).ctrl.state = .REPLAY_READ) :
    ((loadPath ni).next s i).ctrl.rdAckQ = true := by
  show i.rdAck = true
  have hread : Ctrl.stateD s.ctrl (ctrlIn ni s i) = .READ ∨
    Ctrl.stateD s.ctrl (ctrlIn ni s i) = .REPLAY_READ := hread
  have htag := h.tag_of_read ni (i := i)
  by_contra hack
  have hack : (ctrlIn ni s i).rdAck = false := Bool.eq_false_iff.mpr hack
  have hreq : (ctrlIn ni s i).req = pathReq ni s i := rfl
  rw [← hreq] at htag
  simp only [Ctrl.stateD, hack] at hread
  cases hs : s.ctrl.state <;> simp [hs] at hread htag <;> split_ifs at hread <;> simp_all

theorem PathOk.load_data_next (h : PathOk s) (e : Item)
    (he : e ∈ ((loadPath ni).next s i).outstanding) :
    ((loadPath ni).next s i).lsu.hw.load.loadData = LoadUnit.inData e.2 := by
  show (if popLd ni s i && !mmuException.valid then LoadUnit.inData (lsuCtrl s.lsu.hw)
    else s.lsu.hw.load.loadData) = _
  obtain ⟨-, ⟨hp, heq, -⟩ | ⟨hp, -, hold⟩⟩ := h.outstanding_next he
  · rw [hp, heq]
    rfl
  · rw [hp]
    exact h.load_data e hold

theorem read_of_popLd (hp : popLd ni s i = true) :
    ((loadPath ni).next s i).ctrl.state = .READ :=
  Ctrl.stateD_of_dataGnt (popLd_dataGnt hp)

theorem PathOk.no_grant (h : PathOk s) {e : Item} (he : e ∈ s.outstanding)
    (hv : ldValidO ni s i = false) : Ctrl.dataGnt s.ctrl (ctrlIn ni s i) = false := by
  apply Bool.eq_false_iff.mpr
  intro hg
  rw [((h.answer ni i).2 (Option.isSome_of_mem he)).2.2.1 hg] at hv
  cases hv

theorem PathOk.address_next (h : PathOk s) (e : Item)
    (he : e ∈ ((loadPath ni).next s i).outstanding) :
    heldAddr ((loadPath ni).next s i) = loadAddr e.2 := by
  obtain ⟨-, ⟨hp, heq, -⟩ | ⟨hp, hv, hold⟩⟩ := h.outstanding_next he
  · -- the index and the offset are sampled with the grant, the tag follows from the load unit
    have hg := popLd_dataGnt hp
    have hread := read_of_popLd hp
    obtain ⟨-, -, -, hfu⟩ := h.head_of_popLd hp
    have hpaddr : ((loadPath ni).next s i).lsu.hw.mmuPaddr = (lsuCtrl s.lsu.hw).vaddr :=
      if_pos (.inl hfu)
    rw [heldAddr, hread, if_pos rfl, hpaddr, heq]
    show Paddr.mk ⟨_, if Ctrl.dataGnt s.ctrl (ctrlIn ni s i) then _ else _,
      if Ctrl.dataGnt s.ctrl (ctrlIn ni s i) then _ else _⟩
      (if Ctrl.dataGnt s.ctrl (ctrlIn ni s i) then _ else _) = _
    rw [hg]
    rfl
  · have hawaited : s.outstanding.isSome = true := Option.isSome_of_mem hold
    have hg := h.no_grant hold hv
    have hpend := ((h.answer ni i).2 hawaited).2.2.2 hv
    have hread : ((loadPath ni).next s i).ctrl.state ≠ .READ := by
      intro hread
      have hread : Ctrl.stateD s.ctrl (ctrlIn ni s i) = .READ := hread
      rw [hread] at hpend
      cases hpend
    have hkeep := h.address e hold
    rw [← h.ctrlAddr_eq ni (i := i) hawaited] at hkeep
    rw [heldAddr, if_neg hread, ← hkeep]
    show Paddr.mk ⟨_, if Ctrl.dataGnt s.ctrl (ctrlIn ni s i) then _ else _,
      if Ctrl.dataGnt s.ctrl (ctrlIn ni s i) then _ else _⟩
      (if Ctrl.dataGnt s.ctrl (ctrlIn ni s i) then _ else _) = _
    rw [hg]
    rfl

theorem popped_of_popLd (hp : popLd ni s i = true) : popped ni s.lsu (lsuIn ni s i) = true := by
  have hp : (loadOut ni s.lsu.hw (lsuIn ni s i)).popLd = true := hp
  rw [popped, hp]
  rfl

/-- The load before it has been answered when a load is popped. -/
theorem PathOk.answered_of_popLd (h : PathOk s) (hp : popLd ni s i = true) :
    (if ldValidO ni s i then s.outstanding else none) = s.outstanding := by
  cases ha : s.outstanding with
  | none => simp
  | some e => simp [((h.answer ni i).2 (by simp [ha])).2.2.1 (popLd_dataGnt hp)]

variable (ni) in
/-- Without a flush every request that was awaited or present is answered, awaited, taken by
the store unit or waiting, in the same order. -/
theorem PathOk.moved (h : PathOk s) (hf : i.lsu.flush = false) :
    (if ldValidO ni s i then s.outstanding else none).toList ++
        ((loadPath ni).next s i).outstanding.toList ++
        ((loadPath ni).next s i).lsu.record.unit.toList ++
        ((loadPath ni).next s i).lsu.record.waiting =
      s.outstanding.toList ++ present s.lsu := by
  have hff : (lsuIn ni s i).flush = false := hf
  show _ ++ (if i.lsu.flush then none else if popLd ni s i then (present s.lsu).head?
    else if ldValidO ni s i then none else s.outstanding).toList ++
      (if StoreUnit.taken s.lsu.hw.store (storeIn s.lsu.hw (lsuIn ni s i)) then
        (present s.lsu).head? else none).toList ++
      (if (lsuIn ni s i).flush then [] else if popped ni s.lsu (lsuIn ni s i) then
        (present s.lsu).tail else present s.lsu) = _
  rw [hf, hff, if_neg Bool.false_ne_true, if_neg Bool.false_ne_true]
  cases hp : popLd ni s i with
  | true =>
      obtain ⟨n, rest, hpres, hfu⟩ := h.head_of_popLd hp
      rw [h.answered_of_popLd hp, popped_of_popLd hp, h.queue.not_taken hfu, hpres]
      simp
  | false =>
      have hloads : (if ldValidO ni s i then s.outstanding else none).toList ++
          (if ldValidO ni s i then none else s.outstanding).toList = s.outstanding.toList := by
        cases ldValidO ni s i <;> simp
      rw [if_neg Bool.false_ne_true, hloads, List.append_assoc]
      congr 1
      cases hst : (storeOut s.lsu.hw (lsuIn ni s i)).popSt with
      | true =>
          obtain ⟨n, rest, hpres, -⟩ := h.queue.head_of_popSt hst
          have hpop : popped ni s.lsu (lsuIn ni s i) = true := by
            rw [popped, hst, Bool.or_true]
          rw [taken_of_popSt hst hff, hpop, hpres]
          rfl
      | false =>
          have hpop : popped ni s.lsu (lsuIn ni s i) = false := by
            have hp : (loadOut ni s.lsu.hw (lsuIn ni s i)).popLd = false := hp
            rw [popped, hp, hst]
            rfl
          have htaken : StoreUnit.taken s.lsu.hw.store (storeIn s.lsu.hw (lsuIn ni s i)) =
              false := by
            have hst : (StoreUnit.control s.lsu.hw.store
              (storeIn s.lsu.hw (lsuIn ni s i))).popSt = false := hst
            rw [StoreUnit.taken, hst]
            rfl
          rw [htaken, hpop]
          rfl

/-- The chain only loses flushed requests and the stores that are popped, and grows by the
arriving request. -/
theorem PathOk.chain_next (h : PathOk s) :
    (chain ((loadPath ni).next s i)).Sublist (chain s ++ arriving s.lsu) := by
  have hanswered : ((loadPath ni).next s i).answered.map Answer.item =
      s.answered.map Answer.item ++ if ldValidO ni s i then s.outstanding.toList else [] := by
    show (s.answered ++ answeredNow ni s i).map Answer.item = _
    rw [List.map_append, answeredNow]
    split_ifs <;> simp [Function.comp_def]
  have hpresent : chain s ++ arriving s.lsu =
      s.answered.map Answer.item ++ (s.outstanding.toList ++ present s.lsu) := by
    simp [chain, present]
  rw [chain, hanswered, hpresent, List.append_assoc, List.append_assoc]
  apply List.Sublist.append_left
  show List.Sublist (_ ++ ((if i.lsu.flush then none else if popLd ni s i then
    (present s.lsu).head? else if ldValidO ni s i then none else s.outstanding).toList ++
      (if i.lsu.flush then [] else if popped ni s.lsu (lsuIn ni s i) then
        (present s.lsu).tail else present s.lsu))) _
  cases hf : i.lsu.flush with
  | true =>
      simp only [if_true, Option.toList_none, List.append_nil]
      split_ifs
      · exact List.sublist_append_left _ _
      · exact List.nil_sublist _
  | false =>
      simp only [Bool.false_eq_true, if_false]
      have hrest : (if popped ni s.lsu (lsuIn ni s i) then (present s.lsu).tail
          else present s.lsu).Sublist (present s.lsu) := by
        split_ifs
        · exact List.tail_sublist _
        · exact List.Sublist.refl _
      cases hp : popLd ni s i with
      | true =>
          obtain ⟨n, rest, hpres, -⟩ := h.head_of_popLd hp
          have hdone : (if ldValidO ni s i then s.outstanding.toList else []) =
              s.outstanding.toList := by
            rw [← h.answered_of_popLd hp]
            cases ldValidO ni s i <;> rfl
          rw [hdone, popped_of_popLd hp, hpres]
          exact List.Sublist.refl _
      | false =>
          cases ldValidO ni s i with
          | true => simpa using hrest
          | false => simpa using hrest

theorem mem_arriving {t : Tracked} {e : Item} (he : e ∈ arriving t) :
    e.1 = t.record.accepted.length ∧ (t.record.accepted ++ (arriving t).map Prod.snd)[e.1]? =
      some e.2 := by
  unfold arriving at he ⊢
  split_ifs at he ⊢
  · rw [List.mem_singleton] at he
    simp [he]
  · cases he

theorem PathOk.lt_accepted (h : PathOk s) {e : Item} (he : e ∈ chain s) :
    e.1 < s.lsu.record.accepted.length := by
  have := h.identity e he
  exact (List.getElem?_eq_some_iff.mp this).1

theorem PathOk.identity_next (h : PathOk s) (e : Item)
    (he : e ∈ chain ((loadPath ni).next s i)) :
    ((loadPath ni).next s i).lsu.record.accepted[e.1]? = some e.2 := by
  show (s.lsu.record.accepted ++ (arriving s.lsu).map Prod.snd)[e.1]? = some e.2
  rcases List.mem_append.mp (h.chain_next.subset he) with he | he
  · rw [List.getElem?_append_left (h.lt_accepted he)]
    exact h.identity e he
  · exact (mem_arriving he).2

theorem PathOk.ordered_next (h : PathOk s) :
    ((chain ((loadPath ni).next s i)).map Prod.fst).Pairwise (· < ·) := by
  refine List.Pairwise.sublist (h.chain_next.map Prod.fst) ?_
  rw [List.map_append, List.pairwise_append]
  refine ⟨h.ordered, ?_, ?_⟩
  · unfold arriving
    split_ifs <;> simp
  · intro n hn m hm
    obtain ⟨e, he, rfl⟩ := List.mem_map.mp hn
    obtain ⟨e', he', rfl⟩ := List.mem_map.mp hm
    rw [(mem_arriving he').1]
    exact h.lt_accepted he

theorem mem_answered_next {e : Item}
    (he : e ∈ ((loadPath ni).next s i).answered.map Answer.item) :
    e ∈ s.answered.map Answer.item ∨ e ∈ s.outstanding.toList := by
  have he : e ∈ (s.answered ++ answeredNow ni s i).map Answer.item := he
  rw [List.map_append, List.mem_append] at he
  refine he.imp_right ?_
  intro he
  unfold answeredNow at he
  split_ifs at he
  · simpa [Function.comp_def] using he
  · cases he

theorem PathOk.loads_next (h : PathOk s) (e : Item)
    (he : e ∈ ((loadPath ni).next s i).answered.map Answer.item ++
      ((loadPath ni).next s i).outstanding.toList) : e.2.fu = .LOAD := by
  rcases List.mem_append.mp he with he | he
  · exact h.loads e (List.mem_append.mpr (mem_answered_next he))
  · obtain ⟨-, ⟨hp, heq, -⟩ | ⟨-, -, hold⟩⟩ := h.outstanding_next (Option.mem_toList.mp he)
    · obtain ⟨-, -, -, hfu⟩ := h.head_of_popLd hp
      rw [heq]
      exact hfu
    · exact h.loads e (List.mem_append_right _ (Option.mem_toList.mpr hold))

theorem PathOk.answers_next (h : PathOk s) (a : Answer)
    (ha : a ∈ ((loadPath ni).next s i).answered) : a.addr = loadAddr a.item.2 := by
  have ha : a ∈ s.answered ++ answeredNow ni s i := ha
  rcases List.mem_append.mp ha with ha | ha
  · exact h.answers a ha
  · unfold answeredNow at ha
    split_ifs at ha
    · obtain ⟨e, he, rfl⟩ := List.mem_map.mp ha
      rw [Option.mem_toList] at he
      show ctrlAddr ni s i = loadAddr e.2
      rw [h.ctrlAddr_eq ni (Option.isSome_of_mem he)]
      exact h.address e he
    · cases ha

variable (ni) in
theorem PathOk.load_present_stays (h : PathOk s) {e : Item} (he : e ∈ present s.lsu)
    (hfu : e.2.fu = .LOAD) (hf : i.lsu.flush = false) :
    e ∈ ((loadPath ni).next s i).outstanding.toList ∨
      e ∈ ((loadPath ni).next s i).lsu.record.waiting := by
  have hff : (lsuIn ni s i).flush = false := hf
  cases hpop : popped ni s.lsu (lsuIn ni s i) with
  | false => exact .inr (by simp [loadPath, tracked, recordNext, hff, hpop, he])
  | true =>
      cases hpres : present s.lsu with
      | nil => simp [hpres] at he
      | cons e' rest =>
          rw [hpres, List.mem_cons] at he
          rcases he with rfl | he
          · -- only the load unit pops a load
            have hld : popLd ni s i = true := by
              rw [popped, Bool.or_eq_true] at hpop
              rcases hpop with hpop | hpop
              · exact hpop
              · obtain ⟨n, rest', hpres', hstore⟩ := h.queue.head_of_popSt hpop
                rw [hpres, List.cons.injEq] at hpres'
                rw [hpres'.1] at hfu
                rw [hfu] at hstore
                cases hstore
            exact .inl (by simp [loadPath, hf, hld, hpres])
          · exact .inr (by simp [loadPath, tracked, recordNext, hff, hpop, hpres, he])

theorem PathOk.load_present_next (h : PathOk s) {e : Item} (he : e ∈ present s.lsu)
    (hfu : e.2.fu = .LOAD) :
    e ∈ chain ((loadPath ni).next s i) ∨ e ∈ ((loadPath ni).next s i).flushed := by
  cases hf : i.lsu.flush with
  | true => exact .inr (by simp [loadPath, hf, he])
  | false =>
      refine .inl ?_
      rcases h.load_present_stays ni he hfu hf with he | he
      · exact List.mem_append_left _ (List.mem_append_right _ he)
      · exact List.mem_append_right _ he

theorem PathOk.outstanding_stays (h : PathOk s) {e : Item} (he : e ∈ s.outstanding)
    (hf : i.lsu.flush = false) (hv : ldValidO ni s i = false) :
    e ∈ ((loadPath ni).next s i).outstanding := by
  have hp : popLd ni s i = false := by
    apply Bool.eq_false_iff.mpr
    intro hp
    rw [((h.answer ni i).2 (Option.isSome_of_mem he)).2.2.1 (popLd_dataGnt hp)] at hv
    cases hv
  show (if i.lsu.flush then none else if popLd ni s i then (present s.lsu).head?
    else if ldValidO ni s i then none else s.outstanding) = some e
  rw [hf, hp, hv]
  exact he

theorem PathOk.outstanding_accounted (h : PathOk s) {e : Item} (he : e ∈ s.outstanding.toList) :
    e ∈ chain ((loadPath ni).next s i) ∨ e ∈ ((loadPath ni).next s i).flushed := by
  cases hv : ldValidO ni s i with
  | true =>
      refine .inl (List.mem_append_left _ (List.mem_append_left _ ?_))
      have he' : s.outstanding = some e := Option.mem_toList.mp he
      simp [loadPath, answeredNow, hv, he']
  | false =>
      cases hf : i.lsu.flush with
      | true => exact .inr (by simp [loadPath, hf, hv, Option.mem_toList.mp he])
      | false =>
          refine .inl (List.mem_append_left _ (List.mem_append_right _ ?_))
          exact Option.mem_toList.mpr (h.outstanding_stays (Option.mem_toList.mp he) hf hv)

theorem PathOk.accounted_next (h : PathOk s) (n : Nat) (c : LsuCtrl)
    (hacc : ((loadPath ni).next s i).lsu.record.accepted[n]? = some c) (hfu : c.fu = .LOAD) :
    (n, c) ∈ chain ((loadPath ni).next s i) ∨ (n, c) ∈ ((loadPath ni).next s i).flushed := by
  have hacc : (s.lsu.record.accepted ++ (arriving s.lsu).map Prod.snd)[n]? = some c := hacc
  have hbefore : (n, c) ∈ chain s ∨ (n, c) ∈ s.flushed ∨ (n, c) ∈ arriving s.lsu := by
    by_cases hn : n < s.lsu.record.accepted.length
    · rw [List.getElem?_append_left hn] at hacc
      exact (h.accounted n c hacc hfu).imp_right .inl
    · rw [List.getElem?_append_right (by omega)] at hacc
      refine .inr (.inr ?_)
      unfold arriving at hacc ⊢
      cases hv : s.lsu.hw.lsuValid with
      | false => simp [hv] at hacc
      | true =>
          simp only [hv, if_true, List.map_cons, List.map_nil, List.getElem?_singleton] at hacc
          split_ifs at hacc with hzero
          rw [if_pos rfl, List.mem_singleton]
          have hneq : n = s.lsu.record.accepted.length := by omega
          rw [hneq, ← Option.some.inj hacc]
  rcases hbefore with hmem | hmem | hmem
  · rcases List.mem_append.mp hmem with hmem | hmem
    · rcases List.mem_append.mp hmem with hmem | hmem
      · refine .inl (List.mem_append_left _ (List.mem_append_left _ ?_))
        show _ ∈ (s.answered ++ answeredNow ni s i).map Answer.item
        rw [List.map_append]
        exact List.mem_append_left _ hmem
      · exact h.outstanding_accounted hmem
    · exact h.load_present_next (List.mem_append_left _ hmem) hfu
  · exact .inr (List.mem_append_left _ hmem)
  · exact h.load_present_next (List.mem_append_right _ hmem) hfu

/-- A load from a non-idempotent page is popped only when it is the oldest instruction and
no store is inside. -/
theorem PathOk.alone_of_popLd (h : PathOk s) (hp : popLd ni s i = true)
    (hni : ni ((lsuCtrl s.lsu.hw).vaddr.extractLsb' 12 20) = true) :
    i.lsu.dcacheWbufferNotNi = true ∧
      StoreBuffer.storeBufferEmpty s.lsu.hw.store.buffer = true ∧
      i.lsu.commitTranId = (lsuCtrl s.lsu.hw).transId := by
  obtain ⟨-, -, -, hfu⟩ := h.head_of_popLd hp
  have hp : (LoadUnit.loadControl s.lsu.hw.load.state (loadIn ni s.lsu.hw (lsuIn ni s i))).popLd =
    true := hp
  rw [LoadUnit.loadControl_popLd rfl, Bool.and_eq_true] at hp
  have hstall : (!stallNi ni s.lsu.hw (lsuIn ni s i)) = true := hp.2
  have hvaddr : mmuVaddr s.lsu.hw = (lsuCtrl s.lsu.hw).vaddr := if_pos (.inl hfu)
  simp only [stallNi, hvaddr, hni, Bool.and_true, Bool.not_eq_true', Bool.or_eq_false_iff,
    Bool.not_eq_false', bne_eq_false_iff_eq] at hstall
  exact ⟨hstall.1.1, hstall.1.2, hstall.2⟩

def SizeOk (s : PathState) : Prop :=
  ∀ e ∈ s.outstanding, s.ctrl.dataSizeQ = extractTransferSize e.2.operator

theorem SizeOk.next (hs : SizeOk s) (h : PathOk s) : SizeOk ((loadPath ni).next s i) := by
  intro e he
  show (if Ctrl.dataGnt s.ctrl (ctrlIn ni s i) then (pathReq ni s i).dataSize
    else s.ctrl.dataSizeQ) = _
  obtain ⟨-, ⟨hp, heq, -⟩ | ⟨-, hv, hold⟩⟩ := h.outstanding_next he
  · rw [popLd_dataGnt hp, heq]
    rfl
  · rw [h.no_grant hold hv]
    exact hs e hold

theorem PathOk.of_killed (h : PathOk s) (hnone : ((loadPath ni).next s i).outstanding = none)
    (hidle : ((loadPath ni).next s i).ctrl.state ≠ .IDLE)
    (hread : ((loadPath ni).next s i).ctrl.state ≠ .READ) :
    (i.lsu.flush = true ∧ ∃ e ∈ s.outstanding,
      ((loadPath ni).next s i).ctrl.addressTagQ = (loadAddr e.2).word.tag) ∨
      (s.outstanding = none ∧ s.ctrl.state ≠ .IDLE ∧ s.ctrl.state ≠ .READ ∧
        ((loadPath ni).next s i).ctrl.addressTagQ = s.ctrl.addressTagQ) := by
  have hphase : Ctrl.phase (Ctrl.stateD s.ctrl (ctrlIn ni s i)) ≠ .idle ∧
      Ctrl.phase (Ctrl.stateD s.ctrl (ctrlIn ni s i)) ≠ .tag := by
    have hidle : Ctrl.stateD s.ctrl (ctrlIn ni s i) ≠ .IDLE := hidle
    have hread : Ctrl.stateD s.ctrl (ctrlIn ni s i) ≠ .READ := hread
    revert hidle hread
    cases Ctrl.stateD s.ctrl (ctrlIn ni s i) <;> decide
  have hgoing := coupled_going _ _ _ _ _ _ h.coupled (h.phase_next ni (i := i)) hphase
  cases ha : s.outstanding with
  | some e =>
      have he : e ∈ s.outstanding := ha
      refine .inl ⟨?_, e, rfl, ?_⟩
      · have hv : ldValidO ni s i = false := by
          have hvalid : ldValidO ni s i = _ := (wired ni s i).validO_eq
          rw [hvalid, hgoing.1 (by rw [ha]; rfl)]
          rfl
        by_contra hf
        have hstay := h.outstanding_stays he (Bool.eq_false_iff.mpr hf) hv
        rw [hnone] at hstay
        cases hstay
      · have haddr := h.ctrlAddr_eq ni (i := i) (Option.isSome_of_mem he)
        rw [h.address e he] at haddr
        exact congrArg (fun a => a.word.tag) haddr
  | none =>
      obtain ⟨hnidle, hntag⟩ := hgoing.2 (by rw [ha]; rfl)
      have hstate : s.ctrl.state ≠ .READ := by
        intro hs
        rw [hs] at hntag
        exact hntag rfl
      refine .inr ⟨rfl, ?_, hstate, ?_⟩
      · intro hs
        rw [hs] at hnidle
        exact hnidle rfl
      · show Ctrl.addressTagD s.ctrl (pathReq ni s i) = s.ctrl.addressTagQ
        simp [Ctrl.addressTagD, Ctrl.saveTag, hstate]

theorem PathOk.next (h : PathOk s) : PathOk ((loadPath ni).next s i) where
  queue := h.queue.next
  coupled := h.coupled_next ni
  rdAck := h.rdAck_next
  signOk := LoadUnit.next_signOk _ _
  load_data := h.load_data_next
  address := h.address_next
  ordered := h.ordered_next
  identity := h.identity_next
  loads := h.loads_next
  answers := h.answers_next
  accounted := h.accounted_next

theorem pathOk_init : PathOk (loadPath ni).init where
  queue := inv_init.queue
  coupled := rfl
  rdAck := by simp [loadPath, Ctrl.reset]
  signOk := ⟨rfl, rfl, rfl⟩
  load_data := by simp [loadPath]
  address := by simp [loadPath]
  ordered := by simp [loadPath, chain, tracked]
  identity := by simp [loadPath, chain, tracked]
  loads := by simp [loadPath]
  answers := by simp [loadPath]
  accounted := by simp [loadPath, tracked]

theorem pathOk_run (ins : List PathInput) : PathOk ((loadPath ni).run ins) := by
  induction ins using List.reverseRecOn with
  | nil => exact pathOk_init
  | append_singleton ins i ih =>
      rw [Machine.run_snoc]
      exact ih.next

end Cva6.Lsu
