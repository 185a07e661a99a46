import Cva6.Core.Sequential
import Cva6.Pipeline.Squash
/-!
# Instructions in flight

An instruction is decoded in the cycle in which it enters the decode register, and its
entry is carried to the commit stage. The tracked pipeline records that cycle beside the
decode register and beside each slot of the scoreboard. A slot then holds what the decoder
answered in the recorded cycle, changed only by the functional units.
-/

namespace Cva6.Pipeline

open Cva6.Sync Cva6.Issue

/-- A cycle in which an instruction was decoded. -/
structure Capture where
  state : State
  input : Input

def Capture.fetch (c : Capture) : Decoder.Input :=
  IdStage.decoderIn c.input.hart (Frontend.Queue.fetchEntry c.state.fe.q.queue)

structure Tracked where
  hw : State
  idSrc : Capture
  src : TransId → Capture

def tracked : Machine Tracked Input where
  init := ⟨pipeline.init, ⟨pipeline.init, default⟩, fun _ => ⟨pipeline.init, default⟩⟩
  next t i :=
    { hw := pipeline.next t.hw i
      idSrc := if IdStage.takes t.hw.id (idIn t.hw i) then ⟨t.hw, i⟩ else t.idSrc
      src := fun n =>
        if issueEn t.hw i && n == t.hw.core.sb.issuePointer then t.idSrc else t.src n }

theorem tracked_hw (ins : List Input) : (tracked.run ins).hw = pipeline.run ins := by
  induction ins using List.reverseRecOn with
  | nil => rfl
  | append_singleton ins i ih =>
      rw [Machine.run_snoc, Machine.run_snoc, ← ih]
      rfl

/-- The entry is what the decoder made of `d`, with a result and possibly an exception of
a functional unit, which satisfies `F`. -/
structure Holds (F : Exception → Prop) (d : Decoder.Input) (e : ScoreboardEntry) : Prop where
  decoded : Scoreboard.decodedFields e =
    Scoreboard.decodedFields (ReadOperands.reName (Decoder.instructionO d))
  ex : e.ex = (Decoder.instructionO d).ex ∨ e.ex.valid = true ∧ F e.ex

/-- The exceptions of the functional units satisfy `F`. -/
def UnitEx (F : Exception → Prop) (i : Input) : Prop :=
  ∀ p ∈ i.core.wb, p.valid = true → p.ex.valid = true → F p.ex

structure Inv (F : Exception → Prop) (t : Tracked) : Prop where
  ok : Scoreboard.Ok t.hw.core.sb
  id : t.hw.id.valid = true → t.hw.id.fetch = t.idSrc.fetch
  slot : ∀ n, (t.hw.core.sb.mem n).issued = true →
    Holds F (t.src n).fetch (t.hw.core.sb.mem n).sbe

/-- The instruction decoded in the cycle `c` has not left the pipeline. -/
def InFlight (t : Tracked) (c : Capture) : Prop :=
  (t.hw.id.valid = true ∧ c = t.idSrc) ∨
    ∃ n, (t.hw.core.sb.mem n).issued = true ∧ c = t.src n

section Entry

variable {F : Exception → Prop} {d : Decoder.Input} {e : ScoreboardEntry}

theorem Holds.entrySound (h : Holds F d e) : Decoder.EntrySound e := by
  let i : Core.Input := { (default : Core.Input) with fetch := d }
  refine Core.EntrySound.of_decodedFields (Core.decodedInstr_sound (i := i)) h.decoded ?_
  intro hex
  rcases h.ex with hsame | ⟨hunit, -⟩
  · rw [hsame]
    exact hex
  · exact hunit

end Entry

section Step

variable {F : Exception → Prop} {t : Tracked} {i : Input}

theorem issued_next {n : TransId}
    (hn : ((tracked.next t i).hw.core.sb.mem n).issued = true) :
    commitFlush t.hw i = false ∧
      ((issueEn t.hw i = true ∧ n = t.hw.core.sb.issuePointer) ∨
        ((t.hw.core.sb.mem n).issued = true ∧
          Scoreboard.ackedSlot t.hw.core.sb (Core.sbIn t.hw.core (coreIn t.hw i)) n = false)) := by
  have hmem : (tracked.next t i).hw.core.sb.mem n =
      Scoreboard.issueFifo t.hw.core.sb (Core.sbIn t.hw.core (coreIn t.hw i)) n := rfl
  rw [hmem] at hn
  have hflush : commitFlush t.hw i = false := by
    by_contra hne
    have hf : (Core.sbIn t.hw.core (coreIn t.hw i)).flush = true := Bool.not_eq_false _ ▸ hne
    rw [(Scoreboard.issueFifo_flush n hf).1] at hn
    cases hn
  refine ⟨hflush, ?_⟩
  rw [Scoreboard.issueFifo_issued n hflush] at hn
  simp only [Bool.and_eq_true, Bool.or_eq_true, Bool.not_eq_true', beq_iff_eq] at hn
  rcases hn with ⟨⟨hen, hp⟩ | hold, hack⟩
  · exact .inl ⟨hen, hp⟩
  · exact .inr ⟨hold, hack⟩

theorem id_valid_of_issueEn {s : State} (h : issueEn s i = true) : s.id.valid = true := by
  have h : (s.id.valid && _ && _) = true := h
  simp only [Bool.and_eq_true] at h
  exact h.1.1

theorem id_next (hv : (tracked.next t i).hw.id.valid = true) :
    commitFlush t.hw i = false ∧
      (IdStage.takes t.hw.id (idIn t.hw i) = true ∨
        (IdStage.takes t.hw.id (idIn t.hw i) = false ∧ t.hw.id.valid = true)) := by
  have hv : (!(flushes t.hw i).flushIf && (IdStage.takes t.hw.id (idIn t.hw i) ||
    (t.hw.id.valid && !issueInstrAck t.hw i))) = true := hv
  simp only [Bool.and_eq_true, Bool.or_eq_true, Bool.not_eq_true'] at hv
  obtain ⟨hf, hkept⟩ := hv
  rw [flushes_eq.2, Bool.or_eq_false_iff] at hf
  refine ⟨hf.2, ?_⟩
  cases ht : IdStage.takes t.hw.id (idIn t.hw i) with
  | true => exact .inl rfl
  | false =>
      rw [ht] at hkept
      exact .inr ⟨rfl, (hkept.resolve_left Bool.false_ne_true).1⟩

theorem Inv.id_fetch_next (h : Inv F t) (hv : (tracked.next t i).hw.id.valid = true) :
    (tracked.next t i).hw.id.fetch = (tracked.next t i).idSrc.fetch := by
  show (if IdStage.takes t.hw.id (idIn t.hw i) then _ else _) =
    Capture.fetch (if IdStage.takes t.hw.id (idIn t.hw i) then _ else _)
  rcases (id_next hv).2 with ht | ⟨ht, hold⟩
  · rw [if_pos ht, if_pos ht]
    rfl
  · rw [if_neg (by simp [ht]), if_neg (by simp [ht])]
    exact h.id hold

theorem Inv.slot_next (h : Inv F t) (hwb : UnitEx F i) {n : TransId}
    (hn : ((tracked.next t i).hw.core.sb.mem n).issued = true) :
    Holds F ((tracked.next t i).src n).fetch ((tracked.next t i).hw.core.sb.mem n).sbe := by
  have hmem : (tracked.next t i).hw.core.sb.mem n =
      Scoreboard.issueFifo t.hw.core.sb (Core.sbIn t.hw.core (coreIn t.hw i)) n := rfl
  obtain ⟨hflush, ⟨hen, rfl⟩ | ⟨hold, hack⟩⟩ := issued_next hn
  · have hsrc : (tracked.next t i).src t.hw.core.sb.issuePointer = t.idSrc := by
      simp [tracked, hen]
    rw [hmem, hsrc, h.ok.issueFifo_new (Core.ackLegal t.hw.core (coreIn t.hw i)) hflush hen,
      ← h.id (id_valid_of_issueEn hen)]
    exact ⟨rfl, .inl rfl⟩
  · have hne : n ≠ t.hw.core.sb.issuePointer := by
      rintro rfl
      simp [h.ok.issuePointer_free] at hold
    have hsrc : (tracked.next t i).src n = t.src n := by simp [tracked, hne]
    have hslot := h.slot n hold
    have hfu := hslot.entrySound.not_fpu
    have hstay := h.ok.issueFifo_staying (i := Core.sbIn t.hw.core (coreIn t.hw i)) hold hflush hack
    have hsame : (if (t.hw.core.sb.mem n).sbe.fu == .NONE then (t.hw.core.sb.mem n).complete
        else t.hw.core.sb.mem n).sbe.ex = (t.hw.core.sb.mem n).sbe.ex := by
      split <;> rfl
    have hports : (Core.sbIn t.hw.core (coreIn t.hw i)).wb = i.core.wb := rfl
    rw [hmem, hsrc, hstay, hports]
    refine ⟨?_, ?_⟩
    · rw [Scoreboard.foldl_writeBack_decodedFields, ← hslot.decoded]
      split <;> rfl
    · rcases Scoreboard.foldl_writeBack_ex_cases hfu i.core.wb _ with hex | ⟨p, hp, hv, hpx, hex⟩
      · rw [hex, hsame]
        exact hslot.ex
      · rw [hex]
        exact .inr ⟨hpx, hwb p hp hv hpx⟩

theorem Inv.next (h : Inv F t) (hwb : UnitEx F i) : Inv F (tracked.next t i) where
  ok := h.ok.next (Core.ackLegal _ _)
  id := h.id_fetch_next
  slot _ hn := h.slot_next hwb hn

theorem inv_run {ins : List Input} (h : tracked.Throughout (fun _ i => UnitEx F i) ins) :
    Inv F (tracked.run ins) := by
  refine tracked.invariant ?_ (fun _ _ hinv hi => Inv.next hinv hi) ins h
  exact ⟨Scoreboard.reset_ok, fun hv => absurd hv Bool.false_ne_true,
    fun _ hn => absurd hn Bool.false_ne_true⟩

/-- Every instruction in flight after a cycle was in flight before it or is decoded in
it, and the commit stage did not flush. -/
theorem Inv.inFlight_next (h : Inv F t) {c : Capture} (hc : InFlight (tracked.next t i) c) :
    commitFlush t.hw i = false ∧
      (InFlight t c ∨ (IdStage.takes t.hw.id (idIn t.hw i) = true ∧ c = ⟨t.hw, i⟩)) := by
  rcases hc with ⟨hv, rfl⟩ | ⟨n, hn, rfl⟩
  · obtain ⟨hflush, hid⟩ := id_next hv
    refine ⟨hflush, ?_⟩
    show InFlight t (if IdStage.takes t.hw.id (idIn t.hw i) then _ else _) ∨
      (_ ∧ (if IdStage.takes t.hw.id (idIn t.hw i) then _ else _) = _)
    rcases hid with ht | ⟨ht, hold⟩
    · rw [if_pos ht]
      exact .inr ⟨ht, rfl⟩
    · rw [if_neg (by simp [ht])]
      exact .inl (.inl ⟨hold, rfl⟩)
  · obtain ⟨hflush, ⟨hen, rfl⟩ | ⟨hold, -⟩⟩ := issued_next hn
    · have hsrc : (tracked.next t i).src t.hw.core.sb.issuePointer = t.idSrc := by
        simp [tracked, hen]
      rw [hsrc]
      exact ⟨hflush, .inl (.inl ⟨id_valid_of_issueEn hen, rfl⟩)⟩
    · have hne : n ≠ t.hw.core.sb.issuePointer := by
        rintro rfl
        simp [h.ok.issuePointer_free] at hold
      have hsrc : (tracked.next t i).src n = t.src n := by simp [tracked, hne]
      rw [hsrc]
      exact ⟨hflush, .inl (.inr ⟨n, hold, rfl⟩)⟩

theorem Inv.of_valid (h : Inv F t) {n : TransId} (hv : (t.hw.core.sb.mem n).sbe.valid = true) :
    InFlight t (t.src n) ∧ Holds F (t.src n).fetch (t.hw.core.sb.mem n).sbe := by
  have hissued := h.ok.valid_issued n hv
  exact ⟨.inr ⟨n, hissued, rfl⟩, h.slot n hissued⟩

end Step

end Cva6.Pipeline
