import Cva6.Backend.Flush
import Cva6.Core.Model
import Cva6.Sync.Forward
/-!
# Operands of committed instructions

The core is run together with the operands it registered for each slot and with
the sequential machine that executes the acknowledged instructions one after the
other. The instructions in flight are the items of an in-order pipeline with
forwarding: a slot provides its result to younger instructions once it has been
written back, unless it is a CSR instruction, and an excepted instruction, an
atomic or a fence is a barrier, because everything behind it is flushed with it.
-/

namespace Cva6.Core

open Cva6.Sync Cva6.Issue Cva6.Lsu

/-! ## The sequential machine -/

structure Ops where
  a : XLen
  b : XLen
  imm : XLen

structure Record where
  ops : TransId → Ops
  regs : ReadOperands.Regfile
  /-- The commit stage asked for an atomic in the cycle before: `amo_req_q`. -/
  amoAsked : Bool

structure Tracked where
  hw : State
  record : Record

def rdOf (e : ScoreboardEntry) : BitVec 5 := e.rd.setWidth 5

def destOf (r : BitVec 5) : Option (BitVec 5) := if r = 0 then none else some r

section Sequential

variable (s : State) (i : Input)

def port0 : ScoreboardEntry := (Scoreboard.commitInstr s.sb).instr0

def port1 : ScoreboardEntry := (Scoreboard.commitInstr s.sb).instr1

def csrException : Exception := Backend.csrException s.be (backendIn s i)

def ack0 : Bool := (out s i).commitAck.ack0

def ack1 : Bool := (out s i).commitAck.ack1

/-- The result of the instruction at port 0: the answer of the data cache for an
atomic, of the CSR file for its instructions, and otherwise what was written back. -/
def result0 : XLen :=
  if isAmo (port0 s).op then i.amoResp.result.setWidth 32
  else if (port0 s).fu == .CSR then (Backend.commitInput s.be (backendIn s i)).csrRdata
  else (port0 s).result

def write0 : Option (BitVec 5 × XLen) :=
  if ack0 s i && rdOf (port0 s) != 0 && !((port0 s).fu == .CSR && (csrException s i).valid) then
    some (rdOf (port0 s), result0 s i)
  else none

def write1 : Option (BitVec 5 × XLen) :=
  if ack1 s i && rdOf (port1 s) != 0 then some (rdOf (port1 s), (port1 s).result) else none

def issuedOps : Ops :=
  ⟨ReadOperands.operandA s.iro (iroIn s i), ReadOperands.operandB s.iro (iroIn s i),
    (decodedInstr i).result⟩

end Sequential

def tracked : Machine Tracked Input where
  init := ⟨core.init, ⟨fun _ => ⟨0, 0, 0⟩, fun _ => 0, false⟩⟩
  next t i :=
    { hw := core.next t.hw i
      record :=
        { ops := fun n =>
            if Scoreboard.issueEn t.hw.sb (sbIn t.hw i) && n == t.hw.sb.issuePointer then
              issuedOps t.hw i
            else t.record.ops n
          regs := Forward.write (Forward.write t.record.regs (write0 t.hw i)) (write1 t.hw i)
          amoAsked := (out t.hw i).amoValidCommit } }

def expectedA (e : ScoreboardEntry) (regs : ReadOperands.Regfile) : XLen :=
  if e.useZimm then (e.rs1.setWidth 5).setWidth 32
  else if e.usePc then e.pc
  else regs (e.rs1.setWidth 5)

def selectsImm (e : ScoreboardEntry) : Bool := e.useImm && e.fu != .STORE && e.fu != .CTRL_FLOW

def expectedB (e : ScoreboardEntry) (imm : XLen) (regs : ReadOperands.Regfile) : XLen :=
  if selectsImm e then imm else regs (e.rs2.setWidth 5)

def OperandsRight (e : ScoreboardEntry) (o : Ops) (regs : ReadOperands.Regfile) : Prop :=
  o.a = expectedA e regs ∧ o.b = expectedB e o.imm regs

/-- The instructions acknowledged in a cycle, `SFENCE.VMA` apart, were issued with
the operands of the sequential machine. -/
def Correct (t : Tracked) (i : Input) : Prop :=
  (ack0 t.hw i = true → (port0 t.hw).op ≠ .SFENCE_VMA →
    OperandsRight (port0 t.hw) (t.record.ops (port0 t.hw).transId) t.record.regs) ∧
  (ack1 t.hw i = true → (port1 t.hw).op ≠ .SFENCE_VMA →
    OperandsRight (port1 t.hw) (t.record.ops (port1 t.hw).transId)
      (Forward.write t.record.regs (write0 t.hw i)))

instance (e : ScoreboardEntry) (o : Ops) (regs : ReadOperands.Regfile) :
    Decidable (OperandsRight e o regs) :=
  inferInstanceAs (Decidable (_ ∧ _))

instance (t : Tracked) (i : Input) : Decidable (Correct t i) :=
  inferInstanceAs (Decidable ((_ → _ → _) ∧ (_ → _ → _)))

/-! ## The environment -/

/-- A functional unit writes back a transaction that is in flight and not written
back yet, and no two ports the same one. What is left of flushed transactions may
come out while the scoreboard is empty. -/
def FuContract (q : Scoreboard.Regs) (wb : List Scoreboard.WbPort) : Prop :=
  (∀ p ∈ wb, p.valid = true →
    q.issueCnt = 0 ∨ ((q.mem p.transId).issued = true ∧ (q.mem p.transId).sbe.valid = false)) ∧
  wb.Pairwise fun p p' => p.valid = true → p'.valid = true → p.transId ≠ p'.transId

/-- The data cache answers an atomic only if it was asked for in the cycle before. -/
def AmoContract (t : Tracked) (i : Input) : Prop :=
  i.amoResp.ack = true → t.record.amoAsked = true

/-- An `SFENCE.VMA` with a destination waits for stores at port 0 when the detector
has seen a violation and the flag is about to rise: it has written its register
and will be flushed, or acknowledged without a write. -/
def StrayWrite (s : State) (i : Input) : Prop :=
  s.be.cfi.stateJalr = .stateJalr3 ∧ Backend.flag s.be = false ∧
    Backend.retiring s.be (backendIn s i) = true ∧ (port0 s).op = .SFENCE_VMA ∧
    rdOf (port0 s) ≠ 0 ∧ (backendIn s i).noStPending = false

instance (q : Scoreboard.Regs) (wb : List Scoreboard.WbPort) : Decidable (FuContract q wb) :=
  inferInstanceAs (Decidable ((∀ p ∈ wb, _ → _) ∧ _))

instance (t : Tracked) (i : Input) : Decidable (AmoContract t i) :=
  inferInstanceAs (Decidable (_ → _))

instance (s : State) (i : Input) : Decidable (StrayWrite s i) :=
  inferInstanceAs (Decidable (_ ∧ _ ∧ _ ∧ _ ∧ _ ∧ _))

/-! ## Instructions in flight -/

/-- Everything younger than such an instruction is flushed with it. -/
def poison (e : ScoreboardEntry) : Bool := e.ex.valid || isAmo e.op || isFence e.op

def item (e : ScoreboardEntry) (o : Ops) : Forward.Item (BitVec 5) XLen where
  dest := destOf (rdOf e)
  value := if e.valid && e.fu != .CSR then some e.result else none
  reads :=
    if e.ex.valid || e.op == .SFENCE_VMA then []
    else (if e.useZimm || e.usePc then [] else [(e.rs1.setWidth 5, o.a)]) ++
      (if selectsImm e then [] else [(e.rs2.setWidth 5, o.b)])
  barrier := poison e

def itemAt (t : Tracked) (n : TransId) : Forward.Item (BitVec 5) XLen :=
  item (t.hw.sb.mem n).sbe (t.record.ops n)

def flight (t : Tracked) : List (Forward.Item (BitVec 5) XLen) :=
  Ring.window (itemAt t) t.hw.sb.commitPointer0 t.hw.sb.issueCnt.toNat

/-- Port 0 holds an `SFENCE.VMA` that may have written `r` and will be acknowledged. -/
def Waiting (s : State) (r : BitVec 5) : Prop :=
  (port0 s).valid = true ∧ (port0 s).ex.valid = false ∧ (port0 s).op = .SFENCE_VMA ∧
    rdOf (port0 s) = r ∧ r ≠ 0 ∧ s.be.cfi.stateJalr ≠ .stateJalr3 ∧ Backend.flag s.be = false

def Selected (e : ScoreboardEntry) (o : Ops) : Prop :=
  (e.useZimm = true → o.a = (e.rs1.setWidth 5).setWidth 32) ∧
    (e.useZimm = false → e.usePc = true → o.a = e.pc) ∧
    (selectsImm e = true → o.b = o.imm)

structure Inv (t : Tracked) : Prop where
  ok : Scoreboard.Ok t.hw.sb
  ctrl : t.hw.be.ctrl = Controller.reset
  sound : ∀ n, (t.hw.sb.mem n).issued = true → Decoder.EntrySound (t.hw.sb.mem n).sbe
  fpr : ∀ n, (t.hw.sb.mem n).isRdFprFlag = false
  rd_lt : ∀ n, (rdOf (t.hw.sb.mem n).sbe).setWidth 6 = (t.hw.sb.mem n).sbe.rd
  selected : ∀ n, (t.hw.sb.mem n).issued = true → Selected (t.hw.sb.mem n).sbe (t.record.ops n)
  waw : (∀ n, (t.hw.sb.mem n).issued = true → poison (t.hw.sb.mem n).sbe = false) →
    ∀ n n', (t.hw.sb.mem n).issued = true → (t.hw.sb.mem n').issued = true →
      rdOf (t.hw.sb.mem n).sbe = rdOf (t.hw.sb.mem n').sbe → rdOf (t.hw.sb.mem n).sbe ≠ 0 → n = n'
  served : Forward.Served (some ∘ t.record.regs) (flight t)
  asked : t.record.amoAsked = true → (port0 t.hw).valid = true → isAmo (port0 t.hw).op = true
  zero : t.record.regs 0 = 0
  regs : ∀ r, t.hw.iro.regfile r = t.record.regs r ∨ Waiting t.hw r

/-! ## What the commit stage acknowledges and writes -/

section Commit

variable {s : State} {i : Input}

theorem retiring_of_ack0 (h : ack0 s i = true) : Backend.retiring s.be (backendIn s i) = true := by
  unfold ack0 out Backend.out at h
  rw [Commit.commit_ack0, Bool.and_eq_true] at h
  exact h.1

theorem port0_of_retiring (h : Backend.retiring s.be (backendIn s i) = true) :
    (port0 s).valid = true ∧ (port0 s).ex.valid = false := by
  have h : ((port0 s).valid && !(port0 s).ex.valid && !Backend.halt s.be) = true := h
  simp only [Bool.and_eq_true, Bool.not_eq_true'] at h
  exact h.1

theorem of_ack1 (h : ack1 s i = true) :
    ack0 s i = true ∧ (port1 s).valid = true ∧ (port1 s).ex.valid = false ∧
      (port0 s).fu ≠ .CSR ∧ isAmo (port0 s).op = false ∧ Commit.port1Fu (port1 s).fu = true := by
  unfold ack1 out Backend.out at h
  rw [Commit.commit_ack1] at h
  have h : (ack0 s i && (port1 s).valid && !Backend.halt s.be && !((port0 s).fu == .CSR) &&
    !s.be.ctrl.flushDcache && !isAmo (port0 s).op && !s.be.csr.dcsr.step &&
    (!(Backend.ex s.be (backendIn s i)).valid && !(port1 s).ex.valid &&
      Commit.port1Fu (port1 s).fu)) = true := h
  simp only [Bool.and_eq_true, Bool.not_eq_true', beq_eq_false_iff_ne] at h
  obtain ⟨⟨⟨⟨⟨⟨⟨h0, h1⟩, -⟩, hcsr⟩, -⟩, hamo⟩, -⟩, ⟨-, hex⟩, hfu⟩ := h
  exact ⟨h0, h1, hex, hcsr, hamo, hfu⟩

theorem not_poison_of_ack0 (h : ack0 s i = true) (hf : (flushes s i).flushEx = false) :
    poison (port0 s) = false := by
  have hex := (port0_of_retiring (retiring_of_ack0 h)).2
  by_contra hne
  have hb : isAmo (port0 s).op = true ∨ isFence (port0 s).op = true := by
    rw [Bool.not_eq_false] at hne
    simpa only [poison, hex, Bool.false_or, Bool.or_eq_true] using hne
  have : (flushes s i).flushEx = true := Backend.flushEx_of_ack_barrier _ _ h hb
  simp [hf] at this

theorem ack0_eq (hdc : s.be.ctrl.flushDcache = false) :
    ack0 s i =
      (Backend.retiring s.be (backendIn s i) &&
        if isAmo (port0 s).op then i.amoResp.ack
        else if isFence (port0 s).op then (backendIn s i).noStPending
        else if (port0 s).fu == .CSR then !(csrException s i).valid
        else if (port0 s).fu == .STORE then (backendIn s i).commitLsuReady
        else true) := by
  unfold ack0 out Backend.out
  rw [Commit.commit_ack0]
  show (Backend.retiring s.be (backendIn s i) && if isAmo (port0 s).op then i.amoResp.ack
    else if (port0 s).op == .FENCE then (backendIn s i).noStPending
    else if (port0 s).op == .FENCE_I || s.be.ctrl.flushDcache && (port0 s).fu != .STORE then
      (backendIn s i).noStPending
    else if (port0 s).op == .SFENCE_VMA then (backendIn s i).noStPending
    else if (port0 s).fu == .CSR then !(csrException s i).valid
    else if (port0 s).fu == .STORE then (backendIn s i).commitLsuReady
    else true) = _
  rw [hdc, isFence]
  cases (port0 s).op == .FENCE <;> cases (port0 s).op == .FENCE_I <;>
    cases (port0 s).op == .SFENCE_VMA <;> simp

theorem weGpr0_eq :
    (commitWrite s i).weGpr0 =
      (Backend.retiring s.be (backendIn s i) &&
        if isAmo (port0 s).op then i.amoResp.ack
        else !((port0 s).fu == .CSR && (csrException s i).valid)) :=
  Commit.commit_weGpr0 _

theorem write0_of_ack0 (hs : Decoder.EntrySound (port0 s)) (hdc : s.be.ctrl.flushDcache = false)
    (hamo : i.amoResp.ack = true → isAmo (port0 s).op = true) (h : ack0 s i = true) :
    write0 s i = if (commitWrite s i).weGpr0 && (commitWrite s i).waddr0 != 0 then
      some ((commitWrite s i).waddr0, (commitWrite s i).wdata0) else none := by
  have hret := retiring_of_ack0 h
  have hack := h
  rw [ack0_eq hdc, hret, Bool.true_and] at hack
  have hwdata : (commitWrite s i).wdata0 =
      if (port0 s).fu == .CSR && !(csrException s i).valid then
        (Backend.commitInput s.be (backendIn s i)).csrRdata
      else if i.amoResp.ack then i.amoResp.result.setWidth 32 else (port0 s).result := by
    refine (Commit.commit_wdata0 _).trans ?_
    show (if Backend.retiring s.be (backendIn s i) && _ && _ then _ else _) = _
    rw [hret, Bool.true_and]
    rfl
  have haddr : (commitWrite s i).waddr0 = rdOf (port0 s) := rfl
  unfold write0
  rw [h, Bool.true_and, hwdata, weGpr0_eq, hret, Bool.true_and, haddr]
  cases ha : isAmo (port0 s).op with
  | true =>
      have hfu := hs.amo ha
      have hresp : i.amoResp.ack = true := by simpa [ha] using hack
      simp [hfu, hresp, result0, ha]
  | false =>
      have hresp : i.amoResp.ack = false := by
        by_contra hne
        have := hamo (by simpa using hne)
        simp [ha] at this
      cases hfu : (port0 s).fu == .CSR <;> cases hc : (csrException s i).valid <;>
        cases hr : rdOf (port0 s) != 0 <;> simp [hfu, hresp, result0, ha]

/-- Without an acknowledgement only a waiting `SFENCE.VMA` writes a register. -/
theorem sfence_of_weGpr0 (hs : Decoder.EntrySound (port0 s)) (hdc : s.be.ctrl.flushDcache = false)
    (h : ack0 s i = false) (hwe : (commitWrite s i).weGpr0 = true)
    (hrd : rdOf (port0 s) ≠ 0) :
    Backend.retiring s.be (backendIn s i) = true ∧ (port0 s).op = .SFENCE_VMA ∧
      (csrException s i).valid = false ∧ (backendIn s i).noStPending = false := by
  rw [weGpr0_eq, Bool.and_eq_true] at hwe
  obtain ⟨hret, hwe⟩ := hwe
  have hex := (port0_of_retiring hret).2
  have hrd' : (port0 s).rd ≠ 0 := by
    intro hz
    exact hrd (by simp [rdOf, hz])
  rw [ack0_eq hdc, hret, Bool.true_and] at h
  cases ha : isAmo (port0 s).op with
  | true =>
      simp only [ha, if_true] at h hwe
      simp [h] at hwe
  | false =>
      simp only [ha, Bool.false_eq_true, if_false] at h hwe
      cases hfence : isFence (port0 s).op with
      | true =>
          simp only [hfence, if_true] at h
          have hfu := hs.fence hfence
          have hop : (port0 s).op = .SFENCE_VMA := by
            by_contra hne
            refine hrd' (hs.fence_rd ?_)
            simpa [isFence, hne] using hfence
          exact ⟨hret, hop, by simpa [hfu] using hwe, h⟩
      | false =>
          simp only [hfence, Bool.false_eq_true, if_false] at h
          cases hfu : (port0 s).fu == .CSR with
          | true =>
              simp only [hfu, if_true, Bool.true_and] at h hwe
              simp [h] at hwe
          | false =>
              have hst : (port0 s).fu = .STORE := by
                by_contra hne
                simp [hfu, hne] at h
              exact absurd (hs.store hst ha hex) hrd'

end Commit

/-! ## Slots that stay in flight -/

theorem item_advances {e e' : ScoreboardEntry} (o : Ops)
    (hd : Scoreboard.decodedFields e' = Scoreboard.decodedFields e)
    (hex : e.ex.valid = true → e'.ex.valid = true)
    (hv : e.valid = true → e'.valid = true ∧ e'.result = e.result) :
    Forward.Advances (item e o) (item e' o) := by
  obtain ⟨⟨hfu, hop, hrd⟩, ⟨hrs1, hrs2, -⟩, himm, hzimm, hpc⟩ := Scoreboard.decodedFields_eq hd
  refine ⟨?_, ?_, ?_, ?_⟩
  · simp only [item, rdOf, hrd]
  · intro v hval
    simp only [item, Option.ite_none_right_eq_some, Bool.and_eq_true, Option.some.injEq] at hval ⊢
    obtain ⟨⟨hvalid, hcsr⟩, rfl⟩ := hval
    exact ⟨⟨(hv hvalid).1, by rwa [hfu]⟩, (hv hvalid).2⟩
  · cases hex' : e'.ex.valid with
    | true => simp [item, hex']
    | false =>
        have hex0 : e.ex.valid = false := by
          by_contra hne
          simp [hex (by simpa using hne)] at hex'
        simp only [item, selectsImm, hex', hex0, hop, hzimm, hpc, himm, hfu, hrs1, hrs2]
        exact List.Subset.refl _
  · simp only [item, poison, hop, Bool.or_eq_true]
    rintro ((h | h) | h)
    · exact .inl (.inl (hex h))
    · exact .inl (.inr h)
    · exact .inr h

section Step

variable {t : Tracked} {i : Input}

theorem slot_staying (hok : Scoreboard.Ok t.hw.sb) {n : TransId}
    (hn : (t.hw.sb.mem n).issued = true) (hf : (sbIn t.hw i).flush = false)
    (hack : Scoreboard.ackedSlot t.hw.sb (sbIn t.hw i) n = false) :
    (tracked.next t i).hw.sb.mem n = i.wb.foldl (Scoreboard.writeBack t.hw.sb (sbIn t.hw i) n)
      (if (t.hw.sb.mem n).sbe.fu == .NONE then (t.hw.sb.mem n).complete else t.hw.sb.mem n) :=
  hok.issueFifo_staying hn hf hack

theorem decoded_staying (hok : Scoreboard.Ok t.hw.sb) {n : TransId}
    (hn : (t.hw.sb.mem n).issued = true) (hf : (sbIn t.hw i).flush = false)
    (hack : Scoreboard.ackedSlot t.hw.sb (sbIn t.hw i) n = false) :
    let e := (t.hw.sb.mem n).sbe
    let e' := ((tracked.next t i).hw.sb.mem n).sbe
    Scoreboard.decodedFields e' = Scoreboard.decodedFields e ∧
      (e.ex.valid = true → e'.ex.valid = true) := by
  intro e e'
  have he' : e' = _ := congrArg Scoreboard.Slot.sbe (slot_staying hok hn hf hack)
  constructor
  · rw [he', Scoreboard.foldl_writeBack_decodedFields]
    split <;> rfl
  · intro hex
    rw [he']
    refine Scoreboard.foldl_writeBack_ex n i.wb ?_
    split <;> exact hex

theorem Inv.entry_staying (h : Inv t) (hfu : FuContract t.hw.sb i.wb) {n : TransId}
    (hn : (t.hw.sb.mem n).issued = true) (hf : (sbIn t.hw i).flush = false)
    (hack : Scoreboard.ackedSlot t.hw.sb (sbIn t.hw i) n = false) :
    let e := (t.hw.sb.mem n).sbe
    let e' := ((tracked.next t i).hw.sb.mem n).sbe
    Scoreboard.decodedFields e' = Scoreboard.decodedFields e ∧
      (e.ex.valid = true → e'.ex.valid = true) ∧
      (e.valid = true → e' = e) := by
  intro e e'
  have he' : e' = _ := congrArg Scoreboard.Slot.sbe (slot_staying h.ok hn hf hack)
  obtain ⟨hdec, hex⟩ := decoded_staying h.ok hn hf hack
  refine ⟨hdec, hex, ?_⟩
  intro hv
  have hnoport : ∀ p ∈ i.wb, p.valid = true → p.transId ≠ n := by
    rintro p hp hpv rfl
    rcases hfu.1 p hp hpv with hz | ⟨-, hnv⟩
    · obtain ⟨k, hk, -⟩ := (h.ok.issued_iff _).mp hn
      simp [hz] at hk
    · exact absurd hv (by simp [e, hnv])
  rw [he', Scoreboard.foldl_writeBack_of_no_port hnoport]
  split
  · show { (t.hw.sb.mem n).sbe with valid := true } = (t.hw.sb.mem n).sbe
    rw [← hv]
  · rfl

theorem Inv.itemAt_staying (h : Inv t) (hfu : FuContract t.hw.sb i.wb) {n : TransId}
    (hn : (t.hw.sb.mem n).issued = true) (hf : (sbIn t.hw i).flush = false)
    (hack : Scoreboard.ackedSlot t.hw.sb (sbIn t.hw i) n = false) :
    Forward.Advances (itemAt t n) (itemAt (tracked.next t i) n) := by
  obtain ⟨hd, hex, hv⟩ := h.entry_staying hfu hn hf hack
  have hops : (tracked.next t i).record.ops n = t.record.ops n := by
    have hne : n ≠ t.hw.sb.issuePointer := by
      rintro rfl
      simp [h.ok.issuePointer_free] at hn
    simp [tracked, hne]
  unfold itemAt
  rw [hops]
  refine item_advances _ hd hex ?_
  intro hvalid
  rw [hv hvalid]
  exact ⟨hvalid, rfl⟩

/-! ## The register file -/

theorem sound_port {q : Scoreboard.Regs} {n : TransId} {e : ScoreboardEntry} (hok : Scoreboard.Ok q)
    (hsound : ∀ n, (q.mem n).issued = true → Decoder.EntrySound (q.mem n).sbe)
    (hv : e.valid = true) (he : e = { (q.mem n).sbe with transId := n }) :
    Decoder.EntrySound e := by
  subst he
  exact (hsound n (hok.valid_issued n hv)).transId n

theorem Inv.flushDcache (h : Inv t) : t.hw.be.ctrl.flushDcache = false := by
  rw [h.ctrl]
  rfl

theorem ack1_of_not_ack0 {s : State} (h : ack0 s i = false) : ack1 s i = false := by
  by_contra hne
  have := (of_ack1 (Bool.not_eq_false _ ▸ hne)).1
  simp [h] at this

theorem flush_eq : (sbIn t.hw i).flush = (flushes t.hw i).flushEx :=
  Backend.flushId_eq _ _

theorem pointer_staying (hflush : (flushes t.hw i).flushEx = false) (hack : ack0 t.hw i = false) :
    (tracked.next t i).hw.sb.commitPointer0 = t.hw.sb.commitPointer0 ∧
      Scoreboard.ackedSlot t.hw.sb (sbIn t.hw i) t.hw.sb.commitPointer0 = false := by
  have hf : (sbIn t.hw i).flush = false := by rw [flush_eq, hflush]
  have hcommit : (sbIn t.hw i).commitAck = ⟨false, false⟩ :=
    CommitAck.ext hack (ack1_of_not_ack0 hack)
  constructor
  · have hnext := Scoreboard.commitPointer0_next (q := t.hw.sb) hf
    rw [hcommit] at hnext
    exact hnext.trans (Ring.slot_zero _)
  · unfold Scoreboard.ackedSlot
    rw [hcommit]
    rfl

/-- The oldest instruction in flight stays at port 0 until it is acknowledged or flushed. -/
theorem op_port0_staying (hok : Scoreboard.Ok t.hw.sb)
    (hissued : (t.hw.sb.mem t.hw.sb.commitPointer0).issued = true)
    (hflush : (flushes t.hw i).flushEx = false) (hack : ack0 t.hw i = false) :
    (port0 (tracked.next t i).hw).op = (port0 t.hw).op := by
  have hf : (sbIn t.hw i).flush = false := by rw [flush_eq, hflush]
  obtain ⟨hcp, hslot⟩ := pointer_staying hflush hack
  show ((tracked.next t i).hw.sb.mem (tracked.next t i).hw.sb.commitPointer0).sbe.op = _
  rw [hcp]
  exact (Scoreboard.decodedFields_eq (decoded_staying hok hissued hf hslot).1).1.2.1

/-- What is valid at port 0 stays there until it is acknowledged or flushed. -/
theorem Inv.port0_staying (h : Inv t) (hfu : FuContract t.hw.sb i.wb)
    (hv : (port0 t.hw).valid = true) (hflush : (flushes t.hw i).flushEx = false)
    (hack : ack0 t.hw i = false) : port0 (tracked.next t i).hw = port0 t.hw := by
  have hf : (sbIn t.hw i).flush = false := by rw [flush_eq, hflush]
  obtain ⟨hcp, hslot⟩ := pointer_staying hflush hack
  have hentry := (h.entry_staying hfu (h.ok.valid_issued _ hv) hf hslot).2.2 hv
  show ({ ((tracked.next t i).hw.sb.mem (tracked.next t i).hw.sb.commitPointer0).sbe with
    transId := (tracked.next t i).hw.sb.commitPointer0 } : ScoreboardEntry) = _
  rw [hcp, hentry]
  rfl

/-- A waiting `SFENCE.VMA` goes on waiting until it is acknowledged. -/
theorem Inv.waiting_next (h : Inv t) (hfu : FuContract t.hw.sb i.wb) {r : BitVec 5}
    (hw : Waiting t.hw r) (hack : ack0 t.hw i = false) : Waiting (tracked.next t i).hw r := by
  obtain ⟨hv, hex, hop, hrd, hr, hstate, hflag⟩ := hw
  have hflush : (flushes t.hw i).flushEx = false :=
    Backend.flushEx_of_sfence_waiting _ _ hop hex hflag hack h.flushDcache
  have hport := h.port0_staying hfu hv hflush hack
  have hcommit : (out t.hw i).commitAck = ⟨false, false⟩ :=
    CommitAck.ext hack (ack1_of_not_ack0 hack)
  have hcfi : (tracked.next t i).hw.be.cfi.stateJalr = t.hw.be.cfi.stateJalr :=
    Cfi.nextState_none _ _ hcommit
  refine ⟨by rw [hport, hv], by rw [hport, hex], by rw [hport, hop], by rw [hport, hrd], hr,
    by rw [hcfi]; exact hstate, ?_⟩
  show (t.hw.be.cfi.stateJalr == .stateJalr3) = false
  simpa using hstate

/-- The atomic that was asked for is still at port 0, or it has gone with everything
behind it. -/
theorem Inv.asked_next (h : Inv t) (hfu : FuContract t.hw.sb i.wb)
    (hasked : (tracked.next t i).record.amoAsked = true)
    (hv : (port0 (tracked.next t i).hw).valid = true) :
    isAmo (port0 (tracked.next t i).hw).op = true := by
  change (out t.hw i).amoValidCommit = true at hasked
  rw [out, Backend.out, Commit.commit_amoValidCommit, Bool.and_eq_true] at hasked
  have hret : Backend.retiring t.hw.be (backendIn t.hw i) = true := hasked.1
  have hamo : isAmo (port0 t.hw).op = true := hasked.2
  have hflush : (flushes t.hw i).flushEx = false := by
    by_contra hne
    have := (Scoreboard.issueFifo_flush (q := t.hw.sb) (i := sbIn t.hw i)
      (tracked.next t i).hw.sb.commitPointer0 (by rw [flush_eq]; exact Bool.not_eq_false _ ▸ hne)).2
    rw [show (Scoreboard.issueFifo t.hw.sb (sbIn t.hw i) _).sbe.valid = true from hv] at this
    cases this
  have hack : ack0 t.hw i = false := by
    by_contra hne
    have : (flushes t.hw i).flushEx = true :=
      Backend.flushEx_of_ack_barrier _ _ (Bool.not_eq_false _ ▸ hne) (.inl hamo)
    rw [hflush] at this
    cases this
  rw [h.port0_staying hfu (port0_of_retiring hret).1 hflush hack, hamo]

theorem write1_eq : write1 t.hw i = if (commitWrite t.hw i).weGpr1 && (commitWrite t.hw i).waddr1 != 0
    then some ((commitWrite t.hw i).waddr1, (commitWrite t.hw i).wdata1) else none := by
  have hwe : (commitWrite t.hw i).weGpr1 = ack1 t.hw i := Commit.commit_weGpr1 _
  have hdata : (commitWrite t.hw i).wdata1 = (port1 t.hw).result := Commit.commit_wdata1 _
  rw [hwe, hdata]
  rfl

theorem write_zero {regs : ReadOperands.Regfile} {c : Bool} {r : BitVec 5} {v : XLen} :
    Forward.write regs (if c && r != 0 then some (r, v) else none) 0 = regs 0 := by
  by_cases hc : (c && r != 0) = true
  · rw [if_pos hc]
    simp only [Bool.and_eq_true, bne_iff_ne] at hc
    exact Function.update_of_ne (Ne.symm hc.2) _ _
  · rw [if_neg hc]
    rfl

theorem write_apply {regs : ReadOperands.Regfile} {c : Bool} {r n : BitVec 5} {v : XLen}
    (hn : n ≠ 0) :
    Forward.write regs (if c && r != 0 then some (r, v) else none) n =
      if c && r == n then v else regs n := by
  by_cases hr : r = n
  · subst hr
    have hne : (r != 0) = true := bne_iff_ne.mpr hn
    rw [hne, Bool.and_true, beq_self_eq_true, Bool.and_true]
    cases c with
    | true => exact Function.update_self _ _ _
    | false => rfl
  · have hne : (r == n) = false := beq_eq_false_iff_ne.mpr hr
    rw [hne, Bool.and_false]
    by_cases hc : (c && r != 0) = true
    · rw [if_pos hc]
      exact Function.update_of_ne (Ne.symm hr) _ _
    · rw [if_neg hc]
      rfl

/-- The register file holds the sequential state, but for the register of an
`SFENCE.VMA` that waits at port 0. -/
theorem Inv.regs_next (h : Inv t) (hfu : FuContract t.hw.sb i.wb) (hamo : AmoContract t i)
    (hstray : ¬StrayWrite t.hw i) (r : BitVec 5) :
    (tracked.next t i).hw.iro.regfile r = (tracked.next t i).record.regs r ∨
      Waiting (tracked.next t i).hw r := by
  show ReadOperands.regfileNext t.hw.iro.regfile (commitWrite t.hw i) r =
    Forward.write (Forward.write t.record.regs (write0 t.hw i)) (write1 t.hw i) r ∨ _
  rw [write1_eq]
  by_cases hr : r = 0
  · left
    subst hr
    rw [write_zero, ReadOperands.regfileNext, if_pos rfl]
    cases hack : ack0 t.hw i with
    | true =>
        have hv := (port0_of_retiring (retiring_of_ack0 hack)).1
        rw [write0_of_ack0 (sound_port h.ok h.sound hv rfl) h.flushDcache
            (fun hresp => h.asked (hamo hresp) hv) hack, write_zero, h.zero]
    | false =>
        rw [write0, hack]
        exact h.zero.symm
  rw [write_apply hr, ReadOperands.regfileNext, if_neg hr]
  cases h1 : (commitWrite t.hw i).weGpr1 && (commitWrite t.hw i).waddr1 == r with
  | true => exact .inl rfl
  | false =>
      rw [if_neg Bool.false_ne_true, if_neg Bool.false_ne_true]
      cases hack : ack0 t.hw i with
      | true =>
          have hret := retiring_of_ack0 hack
          have hv := (port0_of_retiring hret).1
          rw [write0_of_ack0 (sound_port h.ok h.sound hv rfl) h.flushDcache
            (fun hresp => h.asked (hamo hresp) hv) hack, write_apply hr]
          cases h0 : (commitWrite t.hw i).weGpr0 && (commitWrite t.hw i).waddr0 == r with
          | true => exact .inl rfl
          | false =>
              rw [if_neg Bool.false_ne_true, if_neg Bool.false_ne_true]
              rcases h.regs r with heq | ⟨-, -, hop, hrd, -, -, hflag⟩
              · exact .inl heq
              · -- the waiting `SFENCE.VMA` is the one that is acknowledged, and it writes `r`
                have hcsr : (csrException t.hw i).valid = false := by
                  by_contra hne
                  rcases Backend.csrException_cases _ _ (Bool.not_eq_false _ ▸ hne) with h | ⟨-, -, h⟩
                  · simp [hflag] at h
                  · rw [show (backendIn t.hw i).commitInstr.instr0.op = .SFENCE_VMA from hop] at h
                    simp [Csr.isAccess] at h
                have hwe : (commitWrite t.hw i).weGpr0 = true := by
                  rw [weGpr0_eq, hret, hop, hcsr]
                  simp [isAmo]
                have haddr : (commitWrite t.hw i).waddr0 = r := hrd
                simp [hwe, haddr] at h0
      | false =>
          have hnone : write0 t.hw i = none := by rw [write0, hack]; rfl
          rw [hnone]
          show (if _ then _ else _) = t.record.regs r ∨ _
          cases h0 : (commitWrite t.hw i).weGpr0 && (commitWrite t.hw i).waddr0 == r with
          | true =>
              right
              rw [Bool.and_eq_true, beq_iff_eq] at h0
              have hrd : rdOf (port0 t.hw) = r := h0.2
              have hret : Backend.retiring t.hw.be (backendIn t.hw i) = true := by
                have hwe := h0.1
                rw [weGpr0_eq, Bool.and_eq_true] at hwe
                exact hwe.1
              obtain ⟨hv, hex⟩ := port0_of_retiring hret
              obtain ⟨-, hop, hcsr, hst⟩ := sfence_of_weGpr0
                (sound_port h.ok h.sound hv rfl) h.flushDcache hack h0.1 (by rw [hrd]; exact hr)
              have hflag : Backend.flag t.hw.be = false := by
                by_contra hne
                have := Backend.csrException_valid_of_flag t.hw.be (backendIn t.hw i)
                  (Bool.not_eq_false _ ▸ hne)
                rw [show (Backend.csrException t.hw.be (backendIn t.hw i)).valid = false from hcsr]
                  at this
                cases this
              refine h.waiting_next hfu ⟨hv, hex, hop, hrd, hr, ?_, hflag⟩ hack
              intro hstate
              exact hstray ⟨hstate, hflag, hret, hop, by rw [hrd]; exact hr, hst⟩
          | false =>
              rw [if_neg Bool.false_ne_true]
              rcases h.regs r with heq | hw
              · exact .inl heq
              · exact .inr (h.waiting_next hfu hw hack)

end Step

end Cva6.Core
