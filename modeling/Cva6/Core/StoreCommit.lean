import Cva6.Backend.Flush
import Cva6.Core.Model
/-!
# Stores committed in a flush cycle

`store_buffer` relies on `commit_i` and `flush_i` being exclusive: a flush returns
the write pointer of the speculative queue to where the read pointer was before
the commit. The core keeps this up except when a store reaches port 0 while the
violation flag is up or a single step is to complete.
-/

namespace Cva6.Core

open Cva6.Sync Cva6.Issue Cva6.Lsu

/-- What holds of every decoded instruction, and only depends on the fields that stay as they
were decoded, holds in every slot. -/
theorem sb_decoded {p : ScoreboardEntry → Prop} (hp : ∀ e, p (Scoreboard.decodedFields e) ↔ p e)
    (hreset : p default) (hdecoded : ∀ i, p (decodedInstr i)) (ins : List Input) (n : TransId) :
    p ((core.run ins).sb.mem n).sbe := by
  induction ins using List.reverseRecOn with
  | nil => exact hreset
  | append_singleton ins i ih =>
      rw [Machine.run_snoc]
      show p (Scoreboard.issueFifo (core.run ins).sb (sbIn (core.run ins) i) n).sbe
      rw [← hp, Scoreboard.issueFifo_decodedFields, hp]
      split
      · exact hdecoded i
      · exact ih

theorem sb_fence (ins : List Input) (n : TransId) :
    isFence ((core.run ins).sb.mem n).sbe.op = true →
      ((core.run ins).sb.mem n).sbe.fu = .CSR :=
  sb_decoded (p := fun e => isFence e.op = true → e.fu = .CSR) (fun _ => Iff.rfl)
    (fun h => Bool.noConfusion h) (fun i => (Decoder.instructionO_sound i.fetch).fence) ins n

theorem sb_amo (ins : List Input) (n : TransId) :
    isAmo ((core.run ins).sb.mem n).sbe.op = true →
      ((core.run ins).sb.mem n).sbe.fu = .STORE :=
  sb_decoded (p := fun e => isAmo e.op = true → e.fu = .STORE) (fun _ => Iff.rfl)
    (fun h => Bool.noConfusion h) (fun i => (Decoder.instructionO_sound i.fetch).amo) ins n

/-- The speculative pointers are as far apart as the counter says, modulo the depth. -/
def PointersAgree (q : StoreBuffer.Queue) : Prop :=
  q.writePointer = q.readPointer + q.statusCnt.setWidth 2

theorem PointersAgree.coreIf {q : StoreBuffer.Regs} {i : StoreBuffer.Input}
    (h : PointersAgree q.speculative) (hexcl : ¬(i.commit = true ∧ i.flush = true)) :
    PointersAgree (StoreBuffer.coreIf q i) := by
  unfold PointersAgree at h
  unfold StoreBuffer.coreIf PointersAgree
  cases hf : i.flush with
  | true =>
      have hc : i.commit = false := by simpa [hf] using hexcl
      cases hv : i.valid <;>
        simp [hc, StoreBuffer.Queue.flush, StoreBuffer.Queue.push]
  | false =>
      cases hv : i.valid <;> cases hc : i.commit <;>
        simp only [Bool.false_eq_true, if_false, if_true, StoreBuffer.Queue.push,
          StoreBuffer.Queue.pop, h] <;> bv_omega

theorem cycle_iff (ins : List Input) (i : Input) :
    ((out (core.run ins) i).commitLsu = true ∧ (flushes (core.run ins) i).flushEx = true) ↔
      Backend.StoreMeetsFlush (core.run ins).be (backendIn (core.run ins) i) := by
  refine Backend.commitsInFlush_iff _ _ (sb_fence ins _) ?_
  rw [run_ctrl]
  rfl

/-- In every run, no cycle commits a store and flushes exactly when no store meets
the violation flag or a single step at port 0, and then the speculative pointers
of the store buffer always agree with its counter. -/
theorem store_commit_excludes_flush (ins : List Input) :
    (core.Throughout (fun s i =>
        ¬((out s i).commitLsu = true ∧ (flushes s i).flushEx = true)) ins ↔
      core.Throughout (fun s i => ¬Backend.StoreMeetsFlush s.be (backendIn s i)) ins) ∧
    (core.Throughout (fun s i => ¬Backend.StoreMeetsFlush s.be (backendIn s i)) ins →
      PointersAgree (core.run ins).st.buffer.speculative) := by
  constructor
  · constructor
    · intro h pre i post hp
      rw [← cycle_iff]
      exact h pre i post hp
    · intro h pre i post hp
      rw [cycle_iff]
      exact h pre i post hp
  · refine Machine.run_induction
      (P := fun ins => PointersAgree (core.run ins).st.buffer.speculative) rfl ?_ ins
    intro ins i _ ih hi
    rw [Machine.run_snoc]
    refine ih.coreIf ?_
    rw [← cycle_iff] at hi
    exact hi

/-! ## A store behind a violation -/

/-- `ret`, the marker `addi x0, x1, 3` and `sw x0, 0(x0)` are issued one after the
other; the return and the marker retire while the store is executed. -/
def violationThenStore : List Input :=
  let store : LsuCtrl :=
    { (default : LsuCtrl) with valid := true, be := 0x0f, fu := .STORE, operator := .SW, transId := 2 }
  [.offer 0x00008067,
    (Input.offer 0x00308013).written 0 0,
    (Input.offer 0x00002023).written 1 3,
    { Input.quiet with lsuCtrl := store },
    Input.quiet.written 2 0]

/-- The store is committed in the cycle in which the violation flushes the core, and
the speculative queue is misaligned afterwards. -/
theorem store_committed_in_flush :
    ((out (core.run violationThenStore) .quiet).commitLsu = true ∧
        (flushes (core.run violationThenStore) .quiet).flushEx = true) ∧
      ¬PointersAgree
        (core.run (violationThenStore ++ [.quiet])).st.buffer.speculative := by
  refine ⟨by decide +kernel, ?_⟩
  unfold PointersAgree
  decide +kernel

end Cva6.Core
