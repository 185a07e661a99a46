import Cva6.Core.Operands
/-!
# Retiring and forwarding

What a cycle does to the instructions in flight: the acknowledged ones leave for
the register file, the others go on, and the instruction that is issued reads what
those in front of it provide.
-/

namespace Cva6.Core

open Cva6.Sync Cva6.Issue Cva6.Lsu

section Retire

variable {t : Tracked} {i : Input}

structure Retires (e : ScoreboardEntry) (w : Option (BitVec 5 × XLen)) : Prop where
  clean : poison e = false
  dest : w.map Prod.fst = destOf (rdOf e)
  value : e.fu ≠ .CSR → ∀ p ∈ w, p.2 = e.result

theorem map_fst_write {c : Bool} {r : BitVec 5} {v : XLen} (hc : c = true) :
    (if c && r != 0 then some (r, v) else none : Option (BitVec 5 × XLen)).map Prod.fst =
      destOf r := by
  rw [hc, Bool.true_and, destOf]
  by_cases hr : r = 0
  · rw [if_pos hr, if_neg (by rw [bne_iff_ne]; exact not_not.mpr hr)]
    rfl
  · rw [if_neg hr, if_pos (by rw [bne_iff_ne]; exact hr)]
    rfl

theorem Inv.retires0 (h : Inv t) (hclean : poison (port0 t.hw) = false)
    (hack : ack0 t.hw i = true) : Retires (port0 t.hw) (write0 t.hw i) := by
  have hparts := hclean
  simp only [poison, Bool.or_eq_false_iff] at hparts
  obtain ⟨⟨-, hamo⟩, hfence⟩ := hparts
  have hcsr : (!((port0 t.hw).fu == .CSR && (csrException t.hw i).valid)) = true := by
    have hack' := hack
    rw [ack0_eq h.flushDcache, hamo, hfence, Bool.and_eq_true] at hack'
    cases hfu : (port0 t.hw).fu == .CSR with
    | false => rfl
    | true => simpa [hfu] using hack'.2
  have hwrite : write0 t.hw i = if true && rdOf (port0 t.hw) != 0 then
      some (rdOf (port0 t.hw), result0 t.hw i) else none := by
    rw [write0, hack, hcsr, Bool.and_true]
  refine ⟨hclean, ?_, ?_⟩
  · rw [hwrite]
    exact map_fst_write rfl
  · intro hfu p hp
    rw [hwrite, Option.mem_def, Option.ite_none_right_eq_some] at hp
    rw [← Option.some.inj hp.2]
    show result0 t.hw i = _
    rw [result0, hamo, beq_eq_false_iff_ne.mpr hfu]
    rfl

theorem Inv.retires1 (h : Inv t) (hack : ack1 t.hw i = true) :
    Retires (port1 t.hw) (write1 t.hw i) := by
  obtain ⟨-, hv, hex, -, -, hfu⟩ := of_ack1 hack
  have hs := sound_port h.ok h.sound hv rfl
  refine ⟨?_, ?_, ?_⟩
  · -- port 1 takes neither stores nor CSR instructions, so no atomics and no fences
    have hamo : isAmo (port1 t.hw).op = false := by
      by_contra hne
      rw [hs.amo (Bool.not_eq_false _ ▸ hne)] at hfu
      simp [Commit.port1Fu, Commit.isFpu] at hfu
    have hfence : isFence (port1 t.hw).op = false := by
      by_contra hne
      rw [hs.fence (Bool.not_eq_false _ ▸ hne)] at hfu
      simp [Commit.port1Fu, Commit.isFpu] at hfu
    rw [poison, hex, hamo, hfence]
    rfl
  · exact map_fst_write hack
  · intro _ p hp
    rw [write1, Option.mem_def, Option.ite_none_right_eq_some] at hp
    rw [← Option.some.inj hp.2]

theorem Retires.extends {e : ScoreboardEntry} {w : Option (BitVec 5 × XLen)} (hw : Retires e w)
    (regs : ReadOperands.Regfile) (o : Ops) :
    Forward.Extends (Forward.bypass (some ∘ regs) (item e o)) (some ∘ Forward.write regs w) := by
  refine Forward.extends_write hw.dest ?_
  intro v hv p hp
  simp only [item, Option.ite_none_right_eq_some, Bool.and_eq_true, bne_iff_ne] at hv
  rw [hw.value hv.1.2 p hp]
  exact Option.some.inj hv.2

def retired (t : Tracked) (i : Input) : Nat := Scoreboard.acks (sbIn t.hw i).commitAck

theorem retired_eq : retired t i =
    (if ack0 t.hw i then 1 else 0) + if ack1 t.hw i then 1 else 0 := rfl

theorem Inv.retired_le (h : Inv t) : retired t i ≤ t.hw.sb.issueCnt.toNat :=
  h.ok.acks_le (ackLegal t.hw i)

/-- The register file after the cycle knows what the acknowledged instructions
provided. -/
theorem Inv.extends_retired (h : Inv t) (hf : (flushes t.hw i).flushEx = false) :
    Forward.Extends
      ((Ring.window (itemAt t) t.hw.sb.commitPointer0 (retired t i)).foldl Forward.bypass
        (some ∘ t.record.regs))
      (some ∘ (tracked.next t i).record.regs) := by
  show Forward.Extends _ (some ∘ Forward.write (Forward.write t.record.regs _) _)
  cases hack : ack0 t.hw i with
  | false =>
      have hack1 := ack1_of_not_ack0 hack
      have hnone0 : write0 t.hw i = none := by rw [write0, hack]; rfl
      have hnone1 : write1 t.hw i = none := by rw [write1, hack1]; rfl
      have hzero : retired t i = 0 := by rw [retired_eq, hack, hack1]; rfl
      rw [hnone0, hnone1, hzero]
      exact fun _ _ hv => hv
  | true =>
      have hport0 := (h.retires0 (not_poison_of_ack0 hack hf) hack).extends t.record.regs
        (t.record.ops t.hw.sb.commitPointer0)
      cases hack1 : ack1 t.hw i with
      | false =>
          have hnone1 : write1 t.hw i = none := by rw [write1, hack1]; rfl
          have hone : retired t i = 1 := by rw [retired_eq, hack, hack1]; rfl
          rw [hnone1, hone, Ring.window_cons]
          exact hport0
      | true =>
          have htwo : retired t i = 2 := by rw [retired_eq, hack, hack1]; rfl
          have hle := h.retired_le (i := i)
          have hcp1 := h.ok.commitPointer1_of_pos (by omega)
          have hport1 := (h.retires1 hack1).extends
            (Forward.write t.record.regs (write0 t.hw i))
            (t.record.ops t.hw.sb.commitPointer1)
          rw [htwo, Ring.window_cons, Ring.window_cons, ← hcp1]
          exact (hport0.bypass (.refl _)).trans hport1

end Retire

/-! ## What the instructions in flight provide -/

section Lookup

variable {t : Tracked} {i : Input}

def ackedSlot (t : Tracked) (i : Input) (n : TransId) : Bool :=
  Scoreboard.ackedSlot t.hw.sb (sbIn t.hw i) n

/-- A slot as the instruction that is issued finds it: as it leaves, or as it is
after the write-backs of the cycle. -/
def itemSeen (t : Tracked) (i : Input) (n : TransId) : Forward.Item (BitVec 5) XLen :=
  if ackedSlot t i n then itemAt t n else itemAt (tracked.next t i) n

def staying (t : Tracked) (i : Input) : List (Forward.Item (BitVec 5) XLen) :=
  Ring.window (itemAt (tracked.next t i)) (Ring.slot t.hw.sb.commitPointer0 (retired t i))
    (t.hw.sb.issueCnt.toNat - retired t i)

def seen (t : Tracked) (i : Input) : List (Forward.Item (BitVec 5) XLen) :=
  Ring.window (itemAt t) t.hw.sb.commitPointer0 (retired t i) ++ staying t i

theorem Inv.mem_seen (h : Inv t) {it : Forward.Item (BitVec 5) XLen} :
    it ∈ seen t i ↔ ∃ n, (t.hw.sb.mem n).issued = true ∧ itemSeen t i n = it := by
  have hacked (n : TransId) : Ring.InWindow t.hw.sb.commitPointer0 (retired t i) n ↔
      ackedSlot t i n = true := h.ok.inWindow_acks (ackLegal t.hw i) n
  have hstaying (n : TransId) : Ring.InWindow (Ring.slot t.hw.sb.commitPointer0 (retired t i))
      (t.hw.sb.issueCnt.toNat - retired t i) n ↔
      (t.hw.sb.mem n).issued = true ∧ ackedSlot t i n = false :=
    h.ok.staying_iff (ackLegal t.hw i) n
  have hissued (n : TransId) (hn : ackedSlot t i n = true) : (t.hw.sb.mem n).issued = true := by
    obtain ⟨k, hk, heq⟩ := (hacked n).mpr hn
    exact (h.ok.issued_iff n).mpr ⟨k, hk.trans_le h.retired_le, heq⟩
  simp only [seen, staying, List.mem_append, Ring.mem_window, hacked, hstaying, itemSeen]
  constructor
  · rintro (⟨n, hn, rfl⟩ | ⟨n, ⟨hn, hack⟩, rfl⟩)
    · exact ⟨n, hissued n hn, by rw [if_pos hn]⟩
    · exact ⟨n, hn, by rw [hack]; rfl⟩
  · rintro ⟨n, hn, rfl⟩
    cases hack : ackedSlot t i n with
    | true => exact .inl ⟨n, hack, rfl⟩
    | false => exact .inr ⟨n, ⟨hn, hack⟩, rfl⟩

theorem Inv.valid_of_acked {n : TransId} (hack : ackedSlot t i n = true) :
    (t.hw.sb.mem n).sbe.valid = true := by
  have hlegal := ackLegal t.hw i
  simp only [ackedSlot, Scoreboard.ackedSlot, Bool.or_eq_true, Bool.and_eq_true, beq_iff_eq] at hack
  rcases hack with ⟨hack, rfl⟩ | ⟨hack, rfl⟩
  · exact hlegal.1 hack
  · exact (hlegal.2 hack).2

/-- In a cycle without a flush no acknowledged instruction is a barrier. -/
theorem Inv.clean_of_acked (h : Inv t) (hf : (flushes t.hw i).flushEx = false) {n : TransId}
    (hack : ackedSlot t i n = true) : poison (t.hw.sb.mem n).sbe = false := by
  simp only [ackedSlot, Scoreboard.ackedSlot, Bool.or_eq_true, Bool.and_eq_true, beq_iff_eq] at hack
  rcases hack with ⟨hack, rfl⟩ | ⟨hack, rfl⟩
  · exact not_poison_of_ack0 hack hf
  · exact (h.retires1 hack).clean

theorem Inv.itemSeen_advances (h : Inv t) (hfu : FuContract t.hw.sb i.wb)
    (hf : (flushes t.hw i).flushEx = false) {n : TransId} (hn : (t.hw.sb.mem n).issued = true) :
    Forward.Advances (itemAt t n) (itemSeen t i n) := by
  unfold itemSeen
  cases hack : ackedSlot t i n with
  | true => exact .refl _
  | false => exact h.itemAt_staying hfu hn (by rw [flush_eq, hf]) hack

theorem Inv.clean_of_staying (h : Inv t) (hfu : FuContract t.hw.sb i.wb)
    (hf : (flushes t.hw i).flushEx = false) (hclean : ∀ it ∈ staying t i, it.barrier = false)
    (n : TransId) (hn : (t.hw.sb.mem n).issued = true) : poison (t.hw.sb.mem n).sbe = false := by
  cases hack : ackedSlot t i n with
  | true => exact h.clean_of_acked hf hack
  | false =>
      have hmem : itemAt (tracked.next t i) n ∈ staying t i :=
        Ring.mem_window.mpr ⟨n, (h.ok.staying_iff (ackLegal t.hw i) n).mpr ⟨hn, hack⟩, rfl⟩
      have hadv := h.itemAt_staying hfu hn (by rw [flush_eq, hf]) hack
      by_contra hne
      have := hadv.barrier (Bool.not_eq_false _ ▸ hne)
      rw [hclean _ hmem] at this
      cases this

theorem Inv.fu_ne_none (h : Inv t)
    (hclean : ∀ n, (t.hw.sb.mem n).issued = true → poison (t.hw.sb.mem n).sbe = false)
    {n : TransId} (hn : (t.hw.sb.mem n).issued = true) : (t.hw.sb.mem n).sbe.fu ≠ .NONE := by
  intro hfu
  have hex := (h.sound n hn).none hfu
  have := hclean n hn
  simp [poison, hex] at this

theorem Inv.value_of_readOperand (h : Inv t) (hfu : FuContract t.hw.sb i.wb)
    (hf : (flushes t.hw i).flushEx = false)
    (hclean : ∀ n, (t.hw.sb.mem n).issued = true → poison (t.hw.sb.mem n).sbe = false)
    {n : TransId} (hn : (t.hw.sb.mem n).issued = true)
    (hrd : rdOf (t.hw.sb.mem n).sbe ≠ 0) (hcsr : (t.hw.sb.mem n).sbe.fu ≠ .CSR) {v : XLen}
    (hv : Scoreboard.readOperand t.hw.sb i.wb (t.hw.sb.mem n).sbe.rd = some v) :
    (itemSeen t i n).value = some v := by
  have hunique {m : TransId} (hm : (t.hw.sb.mem m).issued = true)
      (heq : (t.hw.sb.mem m).sbe.rd = (t.hw.sb.mem n).sbe.rd) : m = n := by
    have hrdeq : rdOf (t.hw.sb.mem m).sbe = rdOf (t.hw.sb.mem n).sbe := by
      rw [rdOf, rdOf, heq]
    exact h.waw hclean m n hm hn hrdeq (by rw [hrdeq]; exact hrd)
  have hvalue {e : ScoreboardEntry} {o : Ops} (hve : e.valid = true) (hfue : e.fu ≠ .CSR)
      (hre : e.result = v) : (item e o).value = some v := by
    simp [item, hve, hfue, hre]
  rcases Scoreboard.of_readOperand hv with ⟨p, hp, hpv, hprd, rfl⟩ | ⟨m, hm, hmv, hmrd, hres⟩
  · -- a port writes the slot back in this cycle, so the slot was not acknowledged
    rcases hfu.1 p hp hpv with hz | ⟨hm, hmv⟩
    · obtain ⟨k, hk, -⟩ := (h.ok.issued_iff n).mp hn
      simp [hz] at hk
    · have hid := hunique hm hprd
      have hack : ackedSlot t i n = false := by
        by_contra hne
        have := Inv.valid_of_acked (Bool.not_eq_false _ ▸ hne)
        rw [← hid, hmv] at this
        cases this
      have hflush : (sbIn t.hw i).flush = false := by rw [flush_eq, hf]
      have hslot : (tracked.next t i).hw.sb.mem n = i.wb.foldl _ _ :=
        h.ok.issueFifo_staying hn hflush hack
      obtain ⟨hv', hr'⟩ := Scoreboard.foldl_writeBack_of_port (i := sbIn t.hw i) hn hfu.2 hp hpv hid
        (if (t.hw.sb.mem n).sbe.fu == .NONE then (t.hw.sb.mem n).complete else t.hw.sb.mem n)
      have hdec := (h.entry_staying hfu hn hflush hack).1
      have hfu' := (Scoreboard.decodedFields_eq hdec).1.1
      rw [itemSeen, hack]
      refine hvalue ?_ ?_ ?_
      · rw [hslot]
        exact hv'
      · rw [hfu']
        exact hcsr
      · rw [hslot]
        exact hr'
  · obtain rfl := hunique hm hmrd
    exact (h.itemSeen_advances hfu hf hn).value v (hvalue hmv hcsr hres)

/-- The value that issue finds for a register: forwarded if the register is
clobbered, and else read from the register file. -/
def sourceValue (s : State) (i : Input) (r : BitVec 5) : XLen :=
  if Scoreboard.rdClobberGpr s.sb (r.setWidth 6) != .NONE then
    (Scoreboard.readOperand s.sb i.wb (r.setWidth 6)).getD 0
  else s.iro.regfile r

theorem setWidth_setWidth (r : BitVec 5) : (r.setWidth 6).setWidth 5 = r := by
  rw [BitVec.setWidth_setWidth_of_le _ (by omega), BitVec.setWidth_eq]

theorem setWidth_ne_zero {r : BitVec 5} (hr : r ≠ 0) : r.setWidth 6 ≠ 0 := by
  intro h
  refine hr ?_
  rw [← setWidth_setWidth r, h]
  rfl

theorem Inv.itemSeen_dest (h : Inv t) (hfu : FuContract t.hw.sb i.wb)
    (hf : (flushes t.hw i).flushEx = false) {n : TransId} (hn : (t.hw.sb.mem n).issued = true) :
    (itemSeen t i n).dest = destOf (rdOf (t.hw.sb.mem n).sbe) :=
  (h.itemSeen_advances hfu hf hn).dest

/-- When no barrier is in flight, an instruction that need not stall finds what the
instructions in front of it provide. -/
theorem Inv.foldl_seen (h : Inv t) (hfu : FuContract t.hw.sb i.wb)
    (hf : (flushes t.hw i).flushEx = false)
    (hclean : ∀ n, (t.hw.sb.mem n).issued = true → poison (t.hw.sb.mem n).sbe = false)
    {r : BitVec 5}
    (hready : Scoreboard.rdClobberGpr t.hw.sb (r.setWidth 6) ≠ .NONE →
      (Scoreboard.readOperand t.hw.sb i.wb (r.setWidth 6)).isSome = true ∧
        Scoreboard.rdClobberGpr t.hw.sb (r.setWidth 6) ≠ .CSR) :
    (seen t i).foldl Forward.bypass (some ∘ t.record.regs) r = some (sourceValue t.hw i r) := by
  unfold sourceValue
  by_cases hc : Scoreboard.rdClobberGpr t.hw.sb (r.setWidth 6) = .NONE
  · rw [hc]
    have hfile : t.hw.iro.regfile r = t.record.regs r := by
      rcases h.regs r with heq | ⟨hv, -, hop, -⟩
      · exact heq
      · have := hclean _ (h.ok.valid_issued _ hv)
        have hop : (t.hw.sb.mem t.hw.sb.commitPointer0).sbe.op = .SFENCE_VMA := hop
        simp [poison, hop, isFence] at this
    have hne : ∀ it ∈ seen t i, it.dest ≠ some r := by
      intro it hit hd
      obtain ⟨n, hn, rfl⟩ := h.mem_seen.mp hit
      rw [h.itemSeen_dest hfu hf hn, destOf, Option.ite_none_left_eq_some] at hd
      obtain ⟨hz, hd⟩ := hd
      have hrd : rdOf (t.hw.sb.mem n).sbe = r := Option.some.inj hd
      have hr : r ≠ 0 := by rw [← hrd]; exact hz
      refine Scoreboard.rdClobberGpr_none (setWidth_ne_zero hr) h.fpr
        (fun _ hm => h.fu_ne_none hclean hm) hc n hn ?_
      rw [← hrd, h.rd_lt]
    rw [Forward.foldl_bypass_of_forall_ne hne]
    show some _ = some (t.hw.iro.regfile r)
    rw [hfile]
  · obtain ⟨hsome, hcsr⟩ := hready hc
    obtain ⟨v, hv⟩ := Option.isSome_iff_exists.mp hsome
    obtain ⟨hr6, m, hm, hmrd, hmfu⟩ := Scoreboard.of_rdClobberGpr_ne hc
    have hrdm : rdOf (t.hw.sb.mem m).sbe = r := by
      rw [rdOf, hmrd, setWidth_setWidth]
    have hr : r ≠ 0 := by
      rintro rfl
      exact hr6 rfl
    have hvm : (itemSeen t i m).value = some v :=
      h.value_of_readOperand hfu hf hclean hm (by rw [hrdm]; exact hr) (by rw [hmfu]; exact hcsr)
        (by rw [hmrd]; exact hv)
    rw [if_pos (bne_iff_ne.mpr hc), hv]
    refine Forward.foldl_bypass_of_forall_eq ?_ (.inr ⟨itemSeen t i m, h.mem_seen.mpr ⟨m, hm, rfl⟩, ?_⟩)
    · intro it hit hd
      obtain ⟨n, hn, rfl⟩ := h.mem_seen.mp hit
      rw [h.itemSeen_dest hfu hf hn, destOf, Option.ite_none_left_eq_some] at hd
      have hrdn : rdOf (t.hw.sb.mem n).sbe = r := Option.some.inj hd.2
      obtain rfl := h.waw hclean n m hn hm (by rw [hrdn, hrdm]) hd.1
      exact hvm
    · rw [h.itemSeen_dest hfu hf hm, hrdm, destOf, if_neg hr]

end Lookup

/-! ## Issue -/

section Issue

variable {t : Tracked} {i : Input}

theorem issueAck_of_issueEn (hen : Scoreboard.issueEn t.hw.sb (sbIn t.hw i) = true) :
    ReadOperands.issueAck t.hw.iro (iroIn t.hw i) = true := by
  simp only [Scoreboard.issueEn, Scoreboard.decodedInstrAck, Bool.and_eq_true] at hen
  exact hen.1.2.1

theorem checks_of_issueEn (hen : Scoreboard.issueEn t.hw.sb (sbIn t.hw i) = true)
    (hex : (decodedInstr i).ex.valid = false) :
    ReadOperands.stall (iroIn t.hw i) = false ∧ ReadOperands.fuBusy (iroIn t.hw i) = false ∧
      ReadOperands.wawFree (iroIn t.hw i) = true := by
  have hfu : (decodedInstr i).fu ≠ .NONE := by
    intro hfu
    have := (Decoder.instructionO_sound i.fetch).none hfu
    simp [show (Decoder.instructionO i.fetch).ex.valid = false from hex] at this
  have hack := issueAck_of_issueEn hen
  have hex' : (iroIn t.hw i).issueInstr.ex.valid = false := hex
  have hfu' : ((iroIn t.hw i).issueInstr.fu == .NONE) = false := beq_eq_false_iff_ne.mpr hfu
  simp only [ReadOperands.issueAck, hex', hfu', Bool.or_false] at hack
  split at hack
  · cases hack
  · simp only [Bool.and_eq_true, Bool.not_eq_true'] at hack
    exact ⟨hack.2.1.1, hack.2.1.2, hack.2.2⟩

theorem ready_of_issueEn (hen : Scoreboard.issueEn t.hw.sb (sbIn t.hw i) = true)
    (hex : (decodedInstr i).ex.valid = false) :
    ReadOperands.stall (iroIn t.hw i) = false ∧ ReadOperands.wawFree (iroIn t.hw i) = true :=
  ⟨(checks_of_issueEn hen hex).1, (checks_of_issueEn hen hex).2.2⟩

theorem decodedInstr_rs1 : (((decodedInstr i).rs1.setWidth 5).setWidth 6 : BitVec 6) =
    (decodedInstr i).rs1 :=
  congrArg (BitVec.setWidth 6) (setWidth_setWidth _)

theorem decodedInstr_rs2 : (((decodedInstr i).rs2.setWidth 5).setWidth 6 : BitVec 6) =
    (decodedInstr i).rs2 :=
  congrArg (BitVec.setWidth 6) (setWidth_setWidth _)

def Ready (s : State) (i : Input) (r : RegAddr) : Prop :=
  Scoreboard.rdClobberGpr s.sb r ≠ .NONE →
    (Scoreboard.readOperand s.sb i.wb r).isSome = true ∧ Scoreboard.rdClobberGpr s.sb r ≠ .CSR

theorem source_of_not_stalled {r : RegAddr} (hr : (r.setWidth 5).setWidth 6 = r)
    (hop : (decodedInstr i).op ≠ .SFENCE_VMA)
    (h : (Scoreboard.rdClobberGpr t.hw.sb r != .NONE && !ReadOperands.forwardable (iroIn t.hw i) r
      (Scoreboard.readOperand t.hw.sb i.wb r)) = false) :
    Ready t.hw i r ∧
      (if Scoreboard.rdClobberGpr t.hw.sb r != .NONE && ReadOperands.forwardable (iroIn t.hw i) r
          (Scoreboard.readOperand t.hw.sb i.wb r) then
        (Scoreboard.readOperand t.hw.sb i.wb r).getD 0
      else t.hw.iro.regfile (r.setWidth 5)) = sourceValue t.hw i (r.setWidth 5) := by
  have hop' : ((iroIn t.hw i).issueInstr.op == .SFENCE_VMA) = false := beq_eq_false_iff_ne.mpr hop
  rw [sourceValue, hr]
  by_cases hne : Scoreboard.rdClobberGpr t.hw.sb r = .NONE
  · rw [hne]
    exact ⟨fun h => absurd hne h, rfl⟩
  · rw [bne_iff_ne.mpr hne, Bool.true_and, Bool.not_eq_false'] at h
    rw [bne_iff_ne.mpr hne, h]
    simp only [ReadOperands.forwardable, hop', Bool.or_false, Bool.and_eq_true, bne_iff_ne] at h
    exact ⟨fun _ => h, rfl⟩

theorem operandA_of_register (hstall : ReadOperands.stall (iroIn t.hw i) = false)
    (hop : (decodedInstr i).op ≠ .SFENCE_VMA) (hzimm : (decodedInstr i).useZimm = false)
    (hpc : (decodedInstr i).usePc = false) :
    Ready t.hw i (decodedInstr i).rs1 ∧
      (issuedOps t.hw i).a = sourceValue t.hw i ((decodedInstr i).rs1.setWidth 5) := by
  have hclob : ReadOperands.clobbered1 (iroIn t.hw i) =
      (Scoreboard.rdClobberGpr t.hw.sb (decodedInstr i).rs1 != .NONE) := by
    show (!(decodedInstr i).useZimm && _) = _
    rw [hzimm]
    rfl
  rw [ReadOperands.stall, Bool.or_eq_false_iff, hclob] at hstall
  obtain ⟨hready, hvalue⟩ := source_of_not_stalled decodedInstr_rs1 hop hstall.1
  refine ⟨hready, ?_⟩
  rw [← hvalue, ← hclob]
  show (if (decodedInstr i).useZimm then _ else if (decodedInstr i).usePc then _ else
    if ReadOperands.forwardRs1 (iroIn t.hw i) then _ else _) = _
  rw [hzimm, hpc]
  rfl

theorem operandB_of_register (hstall : ReadOperands.stall (iroIn t.hw i) = false)
    (hop : (decodedInstr i).op ≠ .SFENCE_VMA) (himm : selectsImm (decodedInstr i) = false) :
    Ready t.hw i (decodedInstr i).rs2 ∧
      (issuedOps t.hw i).b = sourceValue t.hw i ((decodedInstr i).rs2.setWidth 5) := by
  rw [ReadOperands.stall, Bool.or_eq_false_iff] at hstall
  obtain ⟨hready, hvalue⟩ := source_of_not_stalled decodedInstr_rs2 hop hstall.2
  refine ⟨hready, ?_⟩
  rw [← hvalue]
  show (if selectsImm (decodedInstr i) then _ else
    if ReadOperands.forwardRs2 (iroIn t.hw i) then _ else _) = _
  rw [himm]
  rfl

theorem issuedOps_selected : Selected (decodedInstr i) (issuedOps t.hw i) := by
  refine ⟨?_, ?_, ?_⟩
  · intro hzimm
    show (if (decodedInstr i).useZimm then _ else _) = _
    rw [hzimm]
    rfl
  · intro hzimm hpc
    show (if (decodedInstr i).useZimm then _ else if (decodedInstr i).usePc then _ else _) = _
    rw [hzimm, hpc]
    rfl
  · intro himm
    show (if selectsImm (decodedInstr i) then _ else _) = _
    rw [himm]
    rfl

theorem Inv.itemAt_issued (h : Inv t) (hf : (flushes t.hw i).flushEx = false)
    (hen : Scoreboard.issueEn t.hw.sb (sbIn t.hw i) = true) :
    itemAt (tracked.next t i) t.hw.sb.issuePointer = item (decodedInstr i) (issuedOps t.hw i) := by
  have hslot : (tracked.next t i).hw.sb.mem t.hw.sb.issuePointer = _ :=
    h.ok.issueFifo_new (ackLegal t.hw i) (by rw [flush_eq, hf]) hen
  have hops : (tracked.next t i).record.ops t.hw.sb.issuePointer = issuedOps t.hw i := by
    show (if Scoreboard.issueEn t.hw.sb (sbIn t.hw i) && _ == _ then _ else _) = _
    rw [hen, beq_self_eq_true]
    rfl
  rw [itemAt, hslot, hops]
  rfl

theorem Inv.served_issued (h : Inv t) (hfu : FuContract t.hw.sb i.wb)
    (hf : (flushes t.hw i).flushEx = false)
    (hen : Scoreboard.issueEn t.hw.sb (sbIn t.hw i) = true)
    (hclean : ∀ it ∈ staying t i, it.barrier = false) :
    ∀ p ∈ (item (decodedInstr i) (issuedOps t.hw i)).reads,
      (staying t i).foldl Forward.bypass (some ∘ (tracked.next t i).record.regs) p.1 =
        some p.2 := by
  intro p hp
  simp only [item] at hp
  split at hp
  · cases hp
  rename_i hbad
  simp only [Bool.or_eq_true, beq_iff_eq, not_or, Bool.not_eq_true] at hbad
  obtain ⟨hex, hop⟩ := hbad
  have hstall := (ready_of_issueEn hen hex).1
  have hclean' := h.clean_of_staying hfu hf hclean
  have hseen {r : RegAddr} (hr : (r.setWidth 5).setWidth 6 = r) (hready : Ready t.hw i r) :
      (staying t i).foldl Forward.bypass (some ∘ (tracked.next t i).record.regs) (r.setWidth 5) =
        some (sourceValue t.hw i (r.setWidth 5)) := by
    have hlook : (seen t i).foldl Forward.bypass (some ∘ t.record.regs) (r.setWidth 5) =
        some (sourceValue t.hw i (r.setWidth 5)) := by
      refine h.foldl_seen hfu hf hclean' ?_
      rw [hr]
      exact hready
    rw [seen, List.foldl_append] at hlook
    exact (h.extends_retired hf).foldl_bypass (staying t i) _ _ hlook
  rcases List.mem_append.mp hp with hp | hp
  · split at hp
    · cases hp
    · rename_i hsel
      simp only [Bool.or_eq_true, not_or, Bool.not_eq_true] at hsel
      obtain ⟨hready, ha⟩ := operandA_of_register hstall hop hsel.1 hsel.2
      rw [List.mem_singleton.mp hp, ha]
      exact hseen decodedInstr_rs1 hready
  · split at hp
    · cases hp
    · rename_i hsel
      obtain ⟨hready, hb⟩ := operandB_of_register hstall hop (Bool.not_eq_true _ ▸ hsel)
      rw [List.mem_singleton.mp hp, hb]
      exact hseen decodedInstr_rs2 hready

theorem Inv.served_next (h : Inv t) (hfu : FuContract t.hw.sb i.wb)
    (hf : (flushes t.hw i).flushEx = false) :
    Forward.Served (some ∘ (tracked.next t i).record.regs) (flight (tracked.next t i)) := by
  have hflush : (sbIn t.hw i).flush = false := by rw [flush_eq, hf]
  have hflight : flight (tracked.next t i) = staying t i ++
      if Scoreboard.issueEn t.hw.sb (sbIn t.hw i) then
        [itemAt (tracked.next t i) t.hw.sb.issuePointer] else [] :=
    h.ok.window_next (ackLegal t.hw i) hflush _
  have hstay : Forward.Served (some ∘ (tracked.next t i).record.regs) (staying t i) := by
    have hsplit : flight t = Ring.window (itemAt t) t.hw.sb.commitPointer0 (retired t i) ++
        Ring.window (itemAt t) (Ring.slot t.hw.sb.commitPointer0 (retired t i))
          (t.hw.sb.issueCnt.toNat - retired t i) := by
      rw [← Ring.window_add, Nat.add_sub_cancel' h.retired_le]
      rfl
    have hserved := h.served
    rw [hsplit, Forward.served_append] at hserved
    refine Forward.Served.mono ?_ (h.extends_retired hf) (hserved.2 ?_)
    · refine Ring.window_forall₂ ?_
      intro n hn
      obtain ⟨hn, hack⟩ := (h.ok.staying_iff (ackLegal t.hw i) n).mp hn
      exact h.itemAt_staying hfu hn hflush hack
    · intro it hit
      obtain ⟨n, hn, rfl⟩ := Ring.mem_window.mp hit
      exact h.clean_of_acked hf ((h.ok.inWindow_acks (ackLegal t.hw i) n).mp hn)
  rw [hflight, Forward.served_append]
  refine ⟨hstay, ?_⟩
  intro hclean
  cases hen : Scoreboard.issueEn t.hw.sb (sbIn t.hw i) with
  | false => trivial
  | true =>
      rw [h.itemAt_issued hf hen]
      exact ⟨h.served_issued hfu hf hen hclean, fun _ => trivial⟩

end Issue

end Cva6.Core
