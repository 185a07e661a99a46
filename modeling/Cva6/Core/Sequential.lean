import Cva6.Core.Forwarding
/-!
# The operands are those of the sequential machine

The invariant of the tracked core is kept by every cycle in which the functional
units and the data cache keep their contracts and no waiting `SFENCE.VMA` writes a
register that it may have to give up. It gives the operands of every acknowledged instruction.
-/

namespace Cva6.Core

open Cva6.Sync Cva6.Issue Cva6.Lsu

section Step

variable {t : Tracked} {i : Input}

/-! ## The slots after a cycle -/

/-- The slot was in flight before and is only written back. -/
structure Stays (t : Tracked) (i : Input) (n : TransId) : Prop where
  issued : (t.hw.sb.mem n).issued = true
  acked : ackedSlot t i n = false
  decoded : Scoreboard.decodedFields ((tracked.next t i).hw.sb.mem n).sbe =
    Scoreboard.decodedFields (t.hw.sb.mem n).sbe
  ex : (t.hw.sb.mem n).sbe.ex.valid = true →
    ((tracked.next t i).hw.sb.mem n).sbe.ex.valid = true
  ops : (tracked.next t i).record.ops n = t.record.ops n

structure Fresh (t : Tracked) (i : Input) (n : TransId) : Prop where
  issueEn : Scoreboard.issueEn t.hw.sb (sbIn t.hw i) = true
  pointer : n = t.hw.sb.issuePointer
  entry : ((tracked.next t i).hw.sb.mem n).sbe = decodedInstr i
  ops : (tracked.next t i).record.ops n = issuedOps t.hw i

theorem fresh_of_issueEn (hok : Scoreboard.Ok t.hw.sb) (hf : (flushes t.hw i).flushEx = false)
    (hen : Scoreboard.issueEn t.hw.sb (sbIn t.hw i) = true) : Fresh t i t.hw.sb.issuePointer := by
  have hflush : (sbIn t.hw i).flush = false := by rw [flush_eq, hf]
  have hslot : (tracked.next t i).hw.sb.mem t.hw.sb.issuePointer = _ :=
    hok.issueFifo_new (ackLegal t.hw i) hflush hen
  refine ⟨hen, rfl, by rw [hslot]; rfl, ?_⟩
  simp [tracked, hen]

theorem slot_next (hok : Scoreboard.Ok t.hw.sb) (hf : (flushes t.hw i).flushEx = false)
    {n : TransId} (hn : ((tracked.next t i).hw.sb.mem n).issued = true) :
    Stays t i n ∨ Fresh t i n := by
  have hflush : (sbIn t.hw i).flush = false := by rw [flush_eq, hf]
  have hissued : (((Scoreboard.issueEn t.hw.sb (sbIn t.hw i) && n == t.hw.sb.issuePointer) ||
      (t.hw.sb.mem n).issued) && !ackedSlot t i n) = true := by
    rw [← hn]
    exact (Scoreboard.issueFifo_issued n hflush).symm
  simp only [Bool.and_eq_true, Bool.or_eq_true, Bool.not_eq_true', beq_iff_eq] at hissued
  obtain ⟨⟨hen, rfl⟩ | hold, hack⟩ := hissued
  · exact .inr (fresh_of_issueEn hok hf hen)
  · left
    obtain ⟨hdec, hex⟩ := decoded_staying hok hold hflush hack
    refine ⟨hold, hack, hdec, hex, ?_⟩
    have hne : n ≠ t.hw.sb.issuePointer := by
      rintro rfl
      simp [hok.issuePointer_free] at hold
    simp [tracked, hne]

theorem not_issued_of_flush (hf : (flushes t.hw i).flushEx = true) (n : TransId) :
    ((tracked.next t i).hw.sb.mem n).issued = false :=
  (Scoreboard.issueFifo_flush n (by rw [flush_eq, hf])).1

/-! ## The words in the slots -/

/-- What the decoder saw of the instruction in each slot, with that of the instruction issued
in the cycle. -/
def sources (t : Tracked) (i : Input) (src : TransId → Decoder.Input) (n : TransId) :
    Decoder.Input :=
  if Scoreboard.issueEn t.hw.sb (sbIn t.hw i) && n == t.hw.sb.issuePointer then i.fetch
  else src n

/-- What is in flight is what the decoder made of the instruction in its slot. -/
structure Decodes (t : Tracked) (src : TransId → Decoder.Input) : Prop where
  decoded : ∀ n, (t.hw.sb.mem n).issued = true →
    Scoreboard.decodedFields (t.hw.sb.mem n).sbe =
      Scoreboard.decodedFields (ReadOperands.reName (Decoder.instructionO (src n)))
  excepted : ∀ n, (t.hw.sb.mem n).issued = true →
    (Decoder.instructionO (src n)).ex.valid = true → (t.hw.sb.mem n).sbe.ex.valid = true

theorem decodes_init (src : TransId → Decoder.Input) : Decodes tracked.init src where
  decoded n hn := by cases hn
  excepted n hn := by cases hn

section Sources

variable {src : TransId → Decoder.Input} {n : TransId}

theorem Stays.sources (hs : Stays t i n) (hok : Scoreboard.Ok t.hw.sb) :
    sources t i src n = src n := by
  have hne : n ≠ t.hw.sb.issuePointer := by
    rintro rfl
    exact Bool.noConfusion (hok.issuePointer_free.symm.trans hs.issued)
  rw [Core.sources, beq_false_of_ne hne, Bool.and_false]
  rfl

theorem Fresh.sources (hs : Fresh t i n) : sources t i src n = i.fetch := by
  rw [Core.sources, hs.issueEn, beq_iff_eq.mpr hs.pointer]
  rfl

theorem Decodes.next (h : Decodes t src) (hok : Scoreboard.Ok t.hw.sb) :
    Decodes (tracked.next t i) (Core.sources t i src) := by
  cases hf : (flushes t.hw i).flushEx with
  | true =>
      have hempty (n : TransId) : ((tracked.next t i).hw.sb.mem n).issued ≠ true := by
        rw [not_issued_of_flush hf n]
        exact Bool.false_ne_true
      exact ⟨fun n hn => absurd hn (hempty n), fun n hn => absurd hn (hempty n)⟩
  | false =>
      refine ⟨fun n hn => ?_, fun n hn hex => ?_⟩
      · rcases slot_next hok hf hn with hs | hs
        · rw [hs.sources hok]
          exact hs.decoded.trans (h.decoded n hs.issued)
        · rw [hs.sources]
          exact congrArg Scoreboard.decodedFields hs.entry
      · rcases slot_next hok hf hn with hs | hs
        · rw [hs.sources hok] at hex
          exact hs.ex (h.excepted n hs.issued hex)
        · rw [hs.sources] at hex
          exact (congrArg (·.ex.valid) hs.entry).trans hex

end Sources

theorem EntrySound.of_decodedFields {e e' : ScoreboardEntry} (h : Decoder.EntrySound e)
    (hd : Scoreboard.decodedFields e' = Scoreboard.decodedFields e)
    (hex : e.ex.valid = true → e'.ex.valid = true) : Decoder.EntrySound e' := by
  obtain ⟨⟨hfu, hop, hrd⟩, -⟩ := Scoreboard.decodedFields_eq hd
  refine ⟨?_, ?_, ?_, ?_, ?_, ?_⟩
  · rw [hop, hfu]
    exact h.fence
  · rw [hop, hrd]
    exact h.fence_rd
  · rw [hop, hfu]
    exact h.amo
  · rw [hop, hfu, hrd]
    intro hst hamo hv
    refine h.store hst hamo ?_
    by_contra hne
    rw [hex (Bool.not_eq_false _ ▸ hne)] at hv
    cases hv
  · rw [hfu]
    exact fun hnone => hex (h.none hnone)
  · rw [hfu]
    exact h.not_fpu

theorem decodedInstr_sound : Decoder.EntrySound (decodedInstr i) := by
  have h := Decoder.instructionO_sound i.fetch
  have hrd {rd : RegAddr} (hz : rd = 0) : (rd.setWidth 5).setWidth 6 = (0 : RegAddr) := by
    rw [hz]
    rfl
  exact ⟨h.fence, fun hop => hrd (h.fence_rd hop), h.amo, fun hst ha hv => hrd (h.store hst ha hv),
    h.none, h.not_fpu⟩

theorem sound_next (hok : Scoreboard.Ok t.hw.sb)
    (h : ∀ n, (t.hw.sb.mem n).issued = true → Decoder.EntrySound (t.hw.sb.mem n).sbe)
    (hf : (flushes t.hw i).flushEx = false) (n : TransId)
    (hn : ((tracked.next t i).hw.sb.mem n).issued = true) :
    Decoder.EntrySound ((tracked.next t i).hw.sb.mem n).sbe := by
  rcases slot_next hok hf hn with hs | hs
  · exact EntrySound.of_decodedFields (h n hs.issued) hs.decoded hs.ex
  · rw [hs.entry]
    exact decodedInstr_sound

theorem Selected.of_decodedFields {e e' : ScoreboardEntry} {o : Ops} (h : Selected e o)
    (hd : Scoreboard.decodedFields e' = Scoreboard.decodedFields e) : Selected e' o := by
  obtain ⟨⟨hfu, -, -⟩, ⟨hrs1, -, hpc⟩, himm, hzimm, husePc⟩ := Scoreboard.decodedFields_eq hd
  unfold Selected selectsImm
  rw [hfu, hrs1, hpc, himm, hzimm, husePc]
  exact h

theorem Inv.selected_next (h : Inv t) (hf : (flushes t.hw i).flushEx = false) (n : TransId)
    (hn : ((tracked.next t i).hw.sb.mem n).issued = true) :
    Selected ((tracked.next t i).hw.sb.mem n).sbe ((tracked.next t i).record.ops n) := by
  rcases slot_next h.ok hf hn with hs | hs
  · rw [hs.ops]
    exact (h.selected n hs.issued).of_decodedFields hs.decoded
  · rw [hs.entry, hs.ops]
    exact issuedOps_selected

theorem Inv.rd_lt_next (h : Inv t) (n : TransId) :
    (rdOf ((tracked.next t i).hw.sb.mem n).sbe).setWidth 6 =
      ((tracked.next t i).hw.sb.mem n).sbe.rd := by
  have hd := Scoreboard.issueFifo_decodedFields t.hw.sb (sbIn t.hw i) n
  have hrd := (Scoreboard.decodedFields_eq hd).1.2.2
  unfold rdOf
  show ((Scoreboard.issueFifo t.hw.sb (sbIn t.hw i) n).sbe.rd.setWidth 5).setWidth 6 =
    (Scoreboard.issueFifo t.hw.sb (sbIn t.hw i) n).sbe.rd
  rw [hrd]
  split
  · exact congrArg (BitVec.setWidth 6) (setWidth_setWidth _)
  · exact h.rd_lt n

theorem Inv.fpr_next (h : Inv t) (n : TransId) :
    ((tracked.next t i).hw.sb.mem n).isRdFprFlag = false := by
  have hwb (wb : List Scoreboard.WbPort) (s : Scoreboard.Slot) :
      (wb.foldl (Scoreboard.writeBack t.hw.sb (sbIn t.hw i) n) s).isRdFprFlag = s.isRdFprFlag := by
    induction wb generalizing s with
    | nil => rfl
    | cons p wb ih =>
        rw [List.foldl_cons, ih, Scoreboard.writeBack]
        split <;> rfl
  show (Scoreboard.issueFifo t.hw.sb (sbIn t.hw i) n).isRdFprFlag = false
  simp only [Scoreboard.issueFifo, apply_ite Scoreboard.Slot.isRdFprFlag, Scoreboard.Slot.clear,
    Scoreboard.Slot.flush, Scoreboard.Slot.complete, hwb, ite_self, isRdFpr, h.fpr n]

theorem write0_ne_zero : ∀ p ∈ write0 t.hw i, p.1 ≠ 0 := by
  intro p hp
  rw [write0, Option.mem_def, Option.ite_none_right_eq_some] at hp
  simp only [Bool.and_eq_true, bne_iff_ne] at hp
  rw [← Option.some.inj hp.2]
  exact hp.1.1.2

theorem write1_ne_zero : ∀ p ∈ write1 t.hw i, p.1 ≠ 0 := by
  intro p hp
  rw [write1, Option.mem_def, Option.ite_none_right_eq_some] at hp
  simp only [Bool.and_eq_true, bne_iff_ne] at hp
  rw [← Option.some.inj hp.2]
  exact hp.1.2

theorem Inv.zero_next (h : Inv t) : (tracked.next t i).record.regs 0 = 0 := by
  show Forward.write (Forward.write t.record.regs _) _ 0 = 0
  rw [Forward.write_of_ne write1_ne_zero, Forward.write_of_ne write0_ne_zero, h.zero]

/-! ## One writer for each register -/

theorem Inv.fresh_rd_ne (h : Inv t)
    (hclean : ∀ n, (t.hw.sb.mem n).issued = true → poison (t.hw.sb.mem n).sbe = false)
    (hen : Scoreboard.issueEn t.hw.sb (sbIn t.hw i) = true)
    (hex : (decodedInstr i).ex.valid = false) (hrd : rdOf (decodedInstr i) ≠ 0) {n : TransId}
    (hn : (t.hw.sb.mem n).issued = true) (hack : ackedSlot t i n = false) :
    rdOf (t.hw.sb.mem n).sbe ≠ rdOf (decodedInstr i) := by
  intro heq
  have hrd6 : (rdOf (decodedInstr i)).setWidth 6 = (decodedInstr i).rd :=
    congrArg (BitVec.setWidth 6) (setWidth_setWidth _)
  have hport {m : TransId} (hm : (t.hw.sb.mem m).issued = true)
      (hmrd : (rdOf (t.hw.sb.mem m).sbe).setWidth 6 = (decodedInstr i).rd) : m = n := by
    have hrdm : rdOf (t.hw.sb.mem m).sbe = rdOf (decodedInstr i) := by
      rw [← setWidth_setWidth (rdOf _), hmrd]
      rfl
    exact h.waw hclean m n hm hn (hrdm.trans heq.symm) (by rw [hrdm]; exact hrd)
  simp only [ackedSlot, Scoreboard.ackedSlot, Bool.or_eq_false_iff] at hack
  have hwaw := (ready_of_issueEn hen hex).2
  simp only [ReadOperands.wawFree, Bool.or_eq_true, Bool.and_eq_true, beq_iff_eq] at hwaw
  rcases hwaw with (hnone | ⟨hwe, haddr⟩) | ⟨hwe, haddr⟩
  · have hr6 : (decodedInstr i).rd ≠ 0 := by
      rw [← hrd6]
      exact setWidth_ne_zero hrd
    refine Scoreboard.rdClobberGpr_none hr6 h.fpr (fun _ hm => h.fu_ne_none hclean hm) hnone n hn ?_
    rw [← h.rd_lt, heq, hrd6]
  · -- port 0 writes the register, so it is acknowledged or a waiting `SFENCE.VMA`
    have hret : Backend.retiring t.hw.be (backendIn t.hw i) = true := by
      have hwe' : (commitWrite t.hw i).weGpr0 = true := hwe
      rw [weGpr0_eq, Bool.and_eq_true] at hwe'
      exact hwe'.1
    have hv := (port0_of_retiring hret).1
    have hissued := h.ok.valid_issued _ hv
    obtain rfl := hport hissued haddr
    have hack0 : ack0 t.hw i = false := by
      have := hack.1
      rw [beq_self_eq_true, Bool.and_true] at this
      exact this
    have hop := (sfence_of_weGpr0 (sound_port h.ok h.sound hv rfl) h.flushDcache hack0 hwe
      (by rw [show rdOf (port0 t.hw) = _ from heq]; exact hrd)).2.1
    have hclean0 := hclean _ hissued
    have hop : (t.hw.sb.mem t.hw.sb.commitPointer0).sbe.op = .SFENCE_VMA := hop
    simp [poison, hop, isFence] at hclean0
  · have hack1 : ack1 t.hw i = true := by
      rw [← hwe]
      exact (Commit.commit_weGpr1 _).symm
    have hissued := h.ok.valid_issued _ (of_ack1 hack1).2.1
    obtain rfl := hport hissued haddr
    have := hack.2
    rw [beq_self_eq_true, Bool.and_true] at this
    change ack1 t.hw i = false at this
    rw [hack1] at this
    cases this

theorem Stays.rdOf_eq {n : TransId} (hs : Stays t i n) :
    rdOf ((tracked.next t i).hw.sb.mem n).sbe = rdOf (t.hw.sb.mem n).sbe := by
  rw [rdOf, rdOf, (Scoreboard.decodedFields_eq hs.decoded).1.2.2]

theorem Inv.waw_next (h : Inv t) (hfu : FuContract t.hw.sb i.wb)
    (hf : (flushes t.hw i).flushEx = false)
    (hclean' : ∀ n, ((tracked.next t i).hw.sb.mem n).issued = true →
      poison ((tracked.next t i).hw.sb.mem n).sbe = false) (n n' : TransId)
    (hn : ((tracked.next t i).hw.sb.mem n).issued = true)
    (hn' : ((tracked.next t i).hw.sb.mem n').issued = true)
    (heq : rdOf ((tracked.next t i).hw.sb.mem n).sbe = rdOf ((tracked.next t i).hw.sb.mem n').sbe)
    (hne : rdOf ((tracked.next t i).hw.sb.mem n).sbe ≠ 0) : n = n' := by
  have hclean (m : TransId) (hm : (t.hw.sb.mem m).issued = true) :
      poison (t.hw.sb.mem m).sbe = false := by
    refine h.clean_of_staying hfu hf ?_ m hm
    intro it hit
    obtain ⟨k, hk, rfl⟩ := Ring.mem_window.mp hit
    obtain ⟨hk, hack⟩ := (h.ok.staying_iff (ackLegal t.hw i) k).mp hk
    refine hclean' k ?_
    show (Scoreboard.issueFifo t.hw.sb (sbIn t.hw i) k).issued = true
    rw [Scoreboard.issueFifo_issued k (by rw [flush_eq, hf]), hk, hack, Bool.or_true]
    rfl
  have hfresh {m m' : TransId} (hm : Stays t i m) (hm' : Fresh t i m')
      (hclean' : poison ((tracked.next t i).hw.sb.mem m').sbe = false)
      (heq : rdOf ((tracked.next t i).hw.sb.mem m).sbe =
        rdOf ((tracked.next t i).hw.sb.mem m').sbe)
      (hne : rdOf ((tracked.next t i).hw.sb.mem m).sbe ≠ 0) : False := by
    rw [hm.rdOf_eq, hm'.entry] at heq
    rw [hm.rdOf_eq, heq] at hne
    rw [hm'.entry] at hclean'
    simp only [poison, Bool.or_eq_false_iff] at hclean'
    exact h.fresh_rd_ne hclean hm'.issueEn hclean'.1.1 hne hm.issued hm.acked heq
  rcases slot_next h.ok hf hn with hs | hs <;> rcases slot_next h.ok hf hn' with hs' | hs'
  · rw [hs.rdOf_eq] at heq hne
    rw [hs'.rdOf_eq] at heq
    exact h.waw hclean n n' hs.issued hs'.issued heq hne
  · exact (hfresh hs hs' (hclean' n' hn') heq hne).elim
  · exact (hfresh hs' hs (hclean' n hn) heq.symm (by rw [← heq]; exact hne)).elim
  · rw [hs.pointer, hs'.pointer]

/-! ## The invariant along a run -/

theorem Inv.next (h : Inv t) (hfu : FuContract t.hw.sb i.wb) (hamo : AmoContract t i)
    (hstray : ¬StrayWrite t.hw i) : Inv (tracked.next t i) := by
  have hctrl : (tracked.next t i).hw.be.ctrl = Controller.reset := by
    show Controller.next t.hw.be.ctrl = Controller.reset
    rw [h.ctrl]
    rfl
  have hok : Scoreboard.Ok (tracked.next t i).hw.sb := h.ok.next (ackLegal t.hw i)
  have hregs := h.regs_next hfu hamo hstray
  cases hf : (flushes t.hw i).flushEx with
  | false =>
      exact ⟨hok, hctrl, sound_next h.ok h.sound hf, h.fpr_next, h.rd_lt_next, h.selected_next hf,
        h.waw_next hfu hf, h.served_next hfu hf, h.asked_next hfu, h.zero_next, hregs⟩
  | true =>
      -- nothing is in flight after a flush
      have hnone := not_issued_of_flush hf
      have hcnt : (tracked.next t i).hw.sb.issueCnt = 0 := by
        show (if (sbIn t.hw i).flush then 0 else _) = _
        rw [flush_eq, hf]
        rfl
      refine ⟨hok, hctrl, ?_, h.fpr_next, h.rd_lt_next, ?_, ?_, ?_, h.asked_next hfu, h.zero_next, hregs⟩
      · intro n hn
        simp [hnone] at hn
      · intro n hn
        simp [hnone] at hn
      · intro _ n _ hn
        simp [hnone] at hn
      · rw [flight, hcnt]
        trivial

theorem inv_init : Inv tracked.init where
  ok := Scoreboard.reset_ok
  ctrl := rfl
  sound n hn := by cases hn
  fpr _ := rfl
  rd_lt _ := rfl
  selected n hn := by cases hn
  waw _ n _ hn := by cases hn
  served := trivial
  asked h := by cases h
  zero := rfl
  regs _ := .inl rfl

/-! ## The operands of acknowledged instructions -/

theorem operandsRight_of_reads {e : ScoreboardEntry} {o : Ops} {regs : ReadOperands.Regfile}
    (hsel : Selected e o) (hex : e.ex.valid = false) (hop : e.op ≠ .SFENCE_VMA)
    (h : ∀ p ∈ (item e o).reads, (some ∘ regs) p.1 = some p.2) : OperandsRight e o regs := by
  have hreads : (item e o).reads =
      (if e.useZimm || e.usePc then [] else [(e.rs1.setWidth 5, o.a)]) ++
        (if selectsImm e then [] else [(e.rs2.setWidth 5, o.b)]) := by
    show (if e.ex.valid || e.op == .SFENCE_VMA then _ else _) = _
    rw [hex, beq_eq_false_iff_ne.mpr hop]
    rfl
  rw [hreads] at h
  obtain ⟨hzimm, hpc, himm⟩ := hsel
  constructor
  · unfold expectedA
    cases hz : e.useZimm with
    | true => exact hzimm hz
    | false =>
        cases hp : e.usePc with
        | true => exact hpc hz hp
        | false =>
            have := h (e.rs1.setWidth 5, o.a) (by simp [hz, hp])
            exact (Option.some.inj this).symm
  · unfold expectedB
    cases hs : selectsImm e with
    | true => exact himm hs
    | false =>
        have := h (e.rs2.setWidth 5, o.b) (by simp [hs])
        exact (Option.some.inj this).symm

theorem Inv.clean_of_ack1 (h : Inv t) (hack : ack1 t.hw i = true) :
    poison (port0 t.hw) = false := by
  obtain ⟨hack0, -, -, hcsr, hamo, -⟩ := of_ack1 hack
  obtain ⟨hv, hex⟩ := port0_of_retiring (retiring_of_ack0 hack0)
  have hfence : isFence (port0 t.hw).op = false := by
    by_contra hne
    exact hcsr ((sound_port h.ok h.sound hv rfl).fence (Bool.not_eq_false _ ▸ hne))
  rw [poison, hex, hamo, hfence]
  rfl

theorem Inv.correct (h : Inv t) : Correct t i := by
  constructor
  · intro hack hop
    obtain ⟨hv, hex⟩ := port0_of_retiring (retiring_of_ack0 hack)
    have hserved := h.served
    obtain ⟨k, hk⟩ := Nat.exists_eq_add_of_le' (h.ok.count_pos_of_valid0 hv)
    rw [flight, hk, Ring.window_cons] at hserved
    exact operandsRight_of_reads (e := port0 t.hw) (h.selected _ (h.ok.valid_issued _ hv)) hex hop
      hserved.1
  · intro hack hop
    obtain ⟨hack0, hv, hex, -⟩ := of_ack1 hack
    have hclean := h.clean_of_ack1 hack
    have htwo : 2 ≤ t.hw.sb.issueCnt.toNat := by
      have hle := h.retired_le (i := i)
      rw [retired_eq, hack0, hack] at hle
      exact hle
    obtain ⟨k, hk⟩ := Nat.exists_eq_add_of_le' htwo
    have hserved := h.served
    rw [flight, hk, Ring.window_cons, Ring.window_cons,
      ← h.ok.commitPointer1_of_pos (by omega)] at hserved
    refine operandsRight_of_reads (e := port1 t.hw) (h.selected _ (h.ok.valid_issued _ hv)) hex hop ?_
    intro p hp
    exact (h.retires0 hclean hack0).extends _ _ _ _ ((hserved.2 hclean).1 p hp)

theorem Inv.sourceValue_zero (h : Inv t) : sourceValue t.hw i 0 = 0 := by
  rcases h.regs 0 with heq | ⟨-, -, -, -, hne, -⟩
  · rw [← h.zero, ← heq]
    rfl
  · exact absurd rfl hne

end Step

def Contract (t : Tracked) (i : Input) : Prop := FuContract t.hw.sb i.wb ∧ AmoContract t i

instance (t : Tracked) (i : Input) : Decidable (Contract t i) :=
  inferInstanceAs (Decidable (_ ∧ _))

/-- In every run without a stray write, the instructions that are acknowledged have
the operands of the sequential machine, and register zero reads as zero. -/
theorem operands_correct (ins : List Input) (hc : tracked.Throughout Contract ins)
    (h : tracked.Throughout (fun t i => ¬StrayWrite t.hw i) ins) :
    tracked.Throughout (fun t i => Correct t i ∧ t.record.regs 0 = 0 ∧ sourceValue t.hw i 0 = 0)
      ins := by
  intro pre i post hp
  subst hp
  have hinv : Inv (tracked.run pre) := by
    refine Machine.invariant (E := fun t i => Contract t i ∧ ¬StrayWrite t.hw i) inv_init ?_ pre
      (hc.take.and h.take)
    rintro t i ht ⟨⟨hfu, hamo⟩, hstray⟩
    exact ht.next hfu hamo hstray
  exact ⟨hinv.correct, hinv.zero, hinv.sourceValue_zero⟩

/-- `addi x5, x0, 7` and, with the result forwarded, `add x6, x5, x0`. -/
def forwardRun : List Input :=
  [.offer 0x00700293,
    (Input.offer 0x00028333).written 0 7,
    Input.quiet.written 1 7,
    .quiet,
    .quiet]

theorem operands_correct_forwardRun :
    (tracked.Throughout Contract forwardRun ∧
        tracked.Throughout (fun t i => ¬StrayWrite t.hw i) forwardRun) ∧
      (tracked.Throughout
          (fun t i => Correct t i ∧ t.record.regs 0 = 0 ∧ sourceValue t.hw i 0 = 0) forwardRun ∧
        ack0 (tracked.run (forwardRun.take 3)).hw .quiet = true ∧
        ((tracked.run (forwardRun.take 3)).record.ops 1).a = 7) := by
  have hc : tracked.Throughout Contract forwardRun := by decide +kernel
  have hs : tracked.Throughout (fun t i => ¬StrayWrite t.hw i) forwardRun := by decide +kernel
  exact ⟨⟨hc, hs⟩, operands_correct forwardRun hc hs, by decide +kernel, by decide +kernel⟩

/-! ## A fence behind a violation -/

/-- `addi x5, x0, 7`, `ret`, the marker and `sfence.vma` with destination `x5` are
issued; the fence waits for stores when the violation is noticed. Behind the flush,
`add x6, x5, x0` is issued and executed. -/
def violationThenFence : List Input :=
  [.offer 0x00700293,
    (Input.offer 0x00008067).written 0 7,
    (Input.offer 0x00308013).written 1 0,
    (Input.offer 0x120002f3).written 2 3,
    Input.quiet.written 3 0,
    .quiet,
    .quiet,
    .offer 0x00028333,
    Input.quiet.written 0 0]

/-- The fence is flushed, but it has written `x5`: the addition is acknowledged with
the operand 0 where the sequential machine has 7. -/
theorem flushed_fence_corrupts :
    tracked.Throughout Contract (violationThenFence ++ [.quiet]) ∧
      ¬tracked.Throughout Correct (violationThenFence ++ [.quiet]) := by
  refine ⟨by decide +kernel, ?_⟩
  intro h
  have hcorrect := h violationThenFence .quiet [] rfl
  have hwrong : ¬Correct (tracked.run violationThenFence) .quiet := by decide +kernel
  exact hwrong hcorrect

end Cva6.Core
