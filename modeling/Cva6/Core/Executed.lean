import Cva6.Core.Sequential
import Cva6.Ex.FixedLatency
/-!
# Executed instructions

The core with the ALU at its write-back port, together with what the decoder saw of the
instruction in each slot. An ALU instruction is written back in the cycle after its issue, with
the result of its operator and its operands.
-/

namespace Cva6.Core

open Cva6.Sync Cva6.Issue Cva6.Lsu

/-- The write-back port of the fixed-latency units, as far as the ALU uses it. -/
def aluPort (q : ReadOperands.Regs) : Scoreboard.WbPort :=
  ⟨q.transId, Alu.result (Ex.aluData q), default, q.aluValid⟩

def withAlu (s : State) (i : Input) : Input := { i with wb := aluPort s.iro :: i.wb }

structure Executed where
  t : Tracked
  /-- What the decoder saw of the instruction in a slot. -/
  src : TransId → Decoder.Input

def executed : Machine Executed Input where
  init := ⟨tracked.init, fun _ => default⟩
  next x i :=
    { t := tracked.next x.t (withAlu x.t.hw i)
      src := sources x.t (withAlu x.t.hw i) x.src }

/-- The units, the ALU among them, write back what is in flight. -/
def Units (x : Executed) (i : Input) : Prop := FuContract x.t.hw.sb (withAlu x.t.hw i).wb

instance (x : Executed) (i : Input) : Decidable (Units x i) :=
  inferInstanceAs (Decidable (FuContract _ _))

def aluInput (e : ScoreboardEntry) (o : Ops) : BranchUnit.FuData := ⟨e.op, o.a, o.b, o.imm⟩

def ForAlu (e : ScoreboardEntry) : Prop := e.fu = .ALU ∧ e.ex.valid = false

structure Traced (x : Executed) : Prop extends Decodes x.t x.src where
  ok : Scoreboard.Ok x.t.hw.sb
  imm : ∀ n, (x.t.hw.sb.mem n).issued = true →
    (x.t.record.ops n).imm = (Decoder.instructionO (x.src n)).result
  selected : ∀ n, (x.t.hw.sb.mem n).issued = true →
    Selected (x.t.hw.sb.mem n).sbe (x.t.record.ops n)
  /-- What is not written back yet is in the ALU. -/
  pending : ∀ n, (x.t.hw.sb.mem n).issued = true → ForAlu (x.t.hw.sb.mem n).sbe →
    (x.t.hw.sb.mem n).sbe.valid = false →
      x.t.hw.iro.aluValid = true ∧ x.t.hw.iro.transId = n ∧
        Ex.fuData x.t.hw.iro = aluInput (x.t.hw.sb.mem n).sbe (x.t.record.ops n)
  result : ∀ n, (x.t.hw.sb.mem n).issued = true → ForAlu (x.t.hw.sb.mem n).sbe →
    (x.t.hw.sb.mem n).sbe.valid = true →
      (x.t.hw.sb.mem n).sbe.result = Alu.result (aluInput (x.t.hw.sb.mem n).sbe (x.t.record.ops n))

theorem traced_init : Traced executed.init where
  toDecodes := decodes_init _
  ok := Scoreboard.reset_ok
  imm n hn := by cases hn
  selected n hn := by cases hn
  pending n hn := by cases hn
  result n hn := by cases hn

section Step

variable {x : Executed} {i : Input} {n : TransId}

theorem forAlu_staying (hs : Stays x.t (withAlu x.t.hw i) n)
    (halu : ForAlu ((executed.next x i).t.hw.sb.mem n).sbe) :
    ForAlu (x.t.hw.sb.mem n).sbe ∧
      ∀ o, aluInput ((executed.next x i).t.hw.sb.mem n).sbe o = aluInput (x.t.hw.sb.mem n).sbe o := by
  obtain ⟨⟨hfu, hop, -⟩, -⟩ := Scoreboard.decodedFields_eq hs.decoded
  refine ⟨⟨hfu.symm.trans halu.1, ?_⟩, fun o => ?_⟩
  · by_contra hne
    exact Bool.noConfusion (halu.2.symm.trans (hs.ex (Bool.not_eq_false _ ▸ hne)))
  · exact congrArg (fun op => BranchUnit.FuData.mk op o.a o.b o.imm) hop

theorem Traced.written (h : Traced x) (hunits : Units x i)
    (hf : (flushes x.t.hw (withAlu x.t.hw i)).flushEx = false)
    (hs : Stays x.t (withAlu x.t.hw i) n) (halu : ForAlu (x.t.hw.sb.mem n).sbe) :
    ((executed.next x i).t.hw.sb.mem n).sbe.valid = true ∧
      ((executed.next x i).t.hw.sb.mem n).sbe.result =
        Alu.result (aluInput (x.t.hw.sb.mem n).sbe (x.t.record.ops n)) := by
  have hflush : (sbIn x.t.hw (withAlu x.t.hw i)).flush = false := by rw [flush_eq, hf]
  have hslot := slot_staying h.ok hs.issued hflush hs.acked
  have hfu : ((x.t.hw.sb.mem n).sbe.fu == .NONE) = false := by rw [halu.1]; rfl
  rw [hfu] at hslot
  show ((tracked.next x.t (withAlu x.t.hw i)).hw.sb.mem n).sbe.valid = true ∧
    ((tracked.next x.t (withAlu x.t.hw i)).hw.sb.mem n).sbe.result = _
  rw [hslot]
  cases hv : (x.t.hw.sb.mem n).sbe.valid with
  | true =>
      have hnoport : ∀ p ∈ (withAlu x.t.hw i).wb, p.valid = true → p.transId ≠ n := by
        rintro p hp hpv rfl
        rcases hunits.1 p hp hpv with hz | ⟨-, hnv⟩
        · obtain ⟨k, hk, -⟩ := (h.ok.issued_iff _).mp hs.issued
          simp [hz] at hk
        · simp [hv] at hnv
      rw [Scoreboard.foldl_writeBack_of_no_port hnoport]
      exact ⟨hv, h.result n hs.issued halu hv⟩
  | false =>
      obtain ⟨hvalid, hid, hdata⟩ := h.pending n hs.issued halu hv
      have hport := Scoreboard.foldl_writeBack_of_port (i := sbIn x.t.hw (withAlu x.t.hw i))
        hs.issued hunits.2 (p := aluPort x.t.hw.iro) List.mem_cons_self hvalid hid
        (x.t.hw.sb.mem n)
      refine ⟨hport.1, hport.2.trans ?_⟩
      rw [← hdata]
      show Alu.result (Ex.aluData x.t.hw.iro) = _
      rw [Ex.aluData, hvalid]
      rfl

theorem executes_fresh (hs : Fresh x.t (withAlu x.t.hw i) n)
    (halu : ForAlu (decodedInstr (withAlu x.t.hw i))) :
    (executed.next x i).t.hw.iro.aluValid = true ∧ (executed.next x i).t.hw.iro.transId = n ∧
      Ex.fuData (executed.next x i).t.hw.iro =
        aluInput (decodedInstr (withAlu x.t.hw i)) (issuedOps x.t.hw (withAlu x.t.hw i)) := by
  refine ⟨?_, hs.pointer.symm, rfl⟩
  have hen := hs.issueEn
  simp only [Scoreboard.issueEn, Scoreboard.decodedInstrAck, Bool.and_eq_true,
    Bool.not_eq_true'] at hen
  obtain ⟨⟨hvalid, hack, hfull⟩, hflush⟩ := hen
  show (!(decodedInstr (withAlu x.t.hw i)).ex.valid &&
    (i.decodedInstrValid && !Scoreboard.issueFull x.t.hw.sb) &&
    ReadOperands.issueAck x.t.hw.iro (iroIn x.t.hw (withAlu x.t.hw i)) &&
    !(flushes x.t.hw (withAlu x.t.hw i)).flushUnissuedInstr &&
    (decodedInstr (withAlu x.t.hw i)).fu == .ALU) = true
  have hvalid : i.decodedInstrValid = true := hvalid
  have hack : ReadOperands.issueAck x.t.hw.iro (iroIn x.t.hw (withAlu x.t.hw i)) = true := hack
  have hflush : (flushes x.t.hw (withAlu x.t.hw i)).flushUnissuedInstr = false := hflush
  rw [halu.1, halu.2, hvalid, hfull, hack, hflush]
  rfl

theorem Traced.next (h : Traced x) (hunits : Units x i) : Traced (executed.next x i) := by
  have hdec : Decodes (executed.next x i).t (executed.next x i).src := h.toDecodes.next h.ok
  have hok : Scoreboard.Ok (executed.next x i).t.hw.sb := h.ok.next (ackLegal x.t.hw _)
  cases hf : (flushes x.t.hw (withAlu x.t.hw i)).flushEx with
  | true =>
      have hempty (n : TransId) : ((executed.next x i).t.hw.sb.mem n).issued ≠ true := by
        rw [show ((executed.next x i).t.hw.sb.mem n).issued = false from not_issued_of_flush hf n]
        exact Bool.false_ne_true
      exact ⟨hdec, hok, fun n hn => absurd hn (hempty n), fun n hn => absurd hn (hempty n),
        fun n hn => absurd hn (hempty n), fun n hn => absurd hn (hempty n)⟩
  | false =>
      refine ⟨hdec, hok, ?_, ?_, ?_, ?_⟩
      · intro n hn
        rcases slot_next h.ok hf hn with hs | hs
        · have hsrc : (executed.next x i).src n = x.src n := hs.sources h.ok
          rw [hsrc, ← h.imm n hs.issued]
          exact congrArg Ops.imm hs.ops
        · have hsrc : (executed.next x i).src n = i.fetch := hs.sources
          rw [hsrc]
          exact congrArg Ops.imm hs.ops
      · intro n hn
        rcases slot_next h.ok hf hn with hs | hs
        · have hops : (executed.next x i).t.record.ops n = x.t.record.ops n := hs.ops
          rw [hops]
          exact (h.selected n hs.issued).of_decodedFields hs.decoded
        · have hops : (executed.next x i).t.record.ops n = _ := hs.ops
          have hentry : ((executed.next x i).t.hw.sb.mem n).sbe = _ := hs.entry
          rw [hops, hentry]
          exact issuedOps_selected
      · intro n hn halu hv
        rcases slot_next h.ok hf hn with hs | hs
        · have hwritten := (h.written hunits hf hs (forAlu_staying hs halu).1).1
          exact Bool.noConfusion (hv.symm.trans hwritten)
        · have hops : (executed.next x i).t.record.ops n = _ := hs.ops
          have hentry : ((executed.next x i).t.hw.sb.mem n).sbe = _ := hs.entry
          rw [hentry] at halu
          rw [hops, hentry]
          exact executes_fresh hs halu
      · intro n hn halu hv
        rcases slot_next h.ok hf hn with hs | hs
        · obtain ⟨halu', hinput⟩ := forAlu_staying hs halu
          have hops : (executed.next x i).t.record.ops n = x.t.record.ops n := hs.ops
          rw [hinput, hops]
          exact (h.written hunits hf hs halu').2
        · -- what is issued is valid only with an exception
          have hentry : ((executed.next x i).t.hw.sb.mem n).sbe =
            decodedInstr (withAlu x.t.hw i) := hs.entry
          have hex := halu.2
          rw [hentry] at hv hex
          exact Bool.noConfusion (hex.symm.trans hv)

end Step

theorem traced_run {ins : List Input} (h : executed.Throughout Units ins) :
    Traced (executed.run ins) := by
  induction ins using List.reverseRecOn with
  | nil => exact traced_init
  | append_singleton ins i ih =>
      obtain ⟨hins, hi⟩ := Machine.throughout_snoc.mp h
      rw [Machine.run_snoc]
      exact (ih hins).next hi

end Cva6.Core
