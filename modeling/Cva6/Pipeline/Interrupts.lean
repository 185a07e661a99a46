import Cva6.BranchUnit
import Cva6.Lsu.Misaligned
import Cva6.Pipeline.Context
/-!
# The enables of an interrupt that is taken

The decoder attaches a pending interrupt to an instruction when it is enabled, and the
commit stage traps when the instruction reaches it. A write to a status register flushes
the instructions in between; a write to `mie`, `sie` or `mideleg` does not, so an
interrupt can be taken after the instruction that disables it.
-/

namespace Cva6.Pipeline

open Cva6.Sync Cva6.Issue

/-- The number of the interrupt an exception stands for. -/
def irqOf (ex : Exception) : Option Nat :=
  if ex.valid && ex.cause.getLsbD 31 then some (ex.cause.extractLsb' 0 5).toNat else none

theorem irqOf_eq_some {ex : Exception} {n : Nat} :
    irqOf ex = some n ↔ ex.valid = true ∧ ex.cause.getLsbD 31 = true ∧
      (ex.cause.extractLsb' 0 5).toNat = n := by
  unfold irqOf
  rw [Option.ite_none_right_eq_some, Bool.and_eq_true, Option.some.injEq, and_assoc]

/-! ## The decision of the decoder -/

section Decode

variable {d : Decoder.Input}

theorem mie_of_interruptCause (h : (Decoder.interruptCause d).getLsbD 31 = true) :
    d.irqCtrl.mie.getLsbD ((Decoder.interruptCause d).extractLsb' 0 5).toNat = true := by
  have hnum : ∀ n ∈ [Riscv.irqSTimer, Riscv.irqSSoft, Riscv.irqSExt, Riscv.irqMTimer, Riscv.irqMSoft,
      Riscv.irqMExt], ((Riscv.interruptCause n).extractLsb' 0 5).toNat = n := by
    decide
  simp only [List.mem_cons, List.not_mem_nil, or_false, forall_eq_or_imp, forall_eq] at hnum
  unfold Decoder.interruptCause at h ⊢
  simp only [Bool.and_eq_true] at h ⊢
  split_ifs at h ⊢ <;> simp_all

/-- The causes other than interrupts have bit 31 clear. -/
theorem exceptionHandling_irq {dec : Decoder.Decoded} (hex : d.ex.cause.getLsbD 31 = false)
    (hc : (Decoder.exceptionHandling d dec).cause.getLsbD 31 = true) :
    Decoder.interruptTaken d = true ∧
      (Decoder.exceptionHandling d dec).cause = Decoder.interruptCause d := by
  have hillegal : Riscv.illegalInstr.getLsbD 31 = false := by decide
  have hbreak : Riscv.breakpoint.getLsbD 31 = false := by decide
  have hdebug : Riscv.debugRequest.getLsbD 31 = false := by decide
  have hecall : (Decoder.ecallCause d.privLvl d.ex.cause).getLsbD 31 = false := by
    unfold Decoder.ecallCause
    split_ifs <;> first | decide | exact hex
  unfold Decoder.exceptionHandling at hc ⊢
  cases hx : d.ex.valid <;> cases ht : Decoder.interruptTaken d <;>
    cases hg : (d.debugReq && !d.debugMode) <;> simp_all
  all_goals
    split_ifs at hc <;> simp_all

theorem irqEnabled_of_interruptTaken {q : Csr.Regs} (hirq : d.irqCtrl = Csr.irqCtrl q)
    (hpriv : d.privLvl = q.privLvlO) (h : Decoder.interruptTaken d = true) :
    Csr.irqEnabled q ((Decoder.interruptCause d).extractLsb' 0 5).toNat = true := by
  simp only [Decoder.interruptTaken, Bool.and_eq_true] at h
  obtain ⟨⟨hcause, hglobal⟩, hdeleg⟩ := h
  have hmie := mie_of_interruptCause hcause
  rw [hirq] at hmie hglobal
  rw [hirq, hpriv] at hdeleg
  generalize ((Decoder.interruptCause d).extractLsb' 0 5).toNat = n at hmie hdeleg ⊢
  have hmie : q.mie.getLsbD n = true := hmie
  have hdeleg : (if q.mideleg.getLsbD n then
    (q.mstatus.sie && q.privLvlO == Riscv.privLvlS) || q.privLvlO == Riscv.privLvlU else true) = true :=
    hdeleg
  simp only [Csr.irqCtrl, Bool.and_eq_true] at hglobal
  simp only [Csr.irqEnabled, Csr.irqEnabledBy, hmie, Bool.true_and]
  split
  case isTrue hd =>
    rw [if_pos hd] at hdeleg
    exact hdeleg
  case isFalse => exact hglobal.2

end Decode

theorem fetchEntry_cause (q : Frontend.Queue.Regs) :
    (Frontend.Queue.fetchEntry q).ex.cause.getLsbD 31 = false := by
  simp only [Frontend.Queue.fetchEntry]
  split <;> decide

def Capture.irq (c : Capture) : Option Nat := irqOf (Decoder.instructionO c.fetch).ex

theorem Capture.irqEnabled {c : Capture} {n : Nat}
    (hw : c.input.hart = hartOf (csrOf c.state) c.input.core.platform) (h : c.irq = some n) :
    Csr.irqEnabled (csrOf c.state) n = true := by
  obtain ⟨-, hc, rfl⟩ := irqOf_eq_some.mp h
  have hfetch : c.fetch.ex.cause.getLsbD 31 = false := fetchEntry_cause _
  obtain ⟨htaken, hcause⟩ := exceptionHandling_irq hfetch hc
  have hcause : (Decoder.instructionO c.fetch).ex.cause = Decoder.interruptCause c.fetch := hcause
  rw [hcause]
  refine irqEnabled_of_interruptTaken ?_ ?_ htaken
  · show c.input.hart.irqCtrl = _
    rw [hw]
    rfl
  · show c.input.hart.privLvl = _
    rw [hw]
    rfl

/-! ## Writes to the enables -/

/-- The instructions in flight, and the one that is decoded in the cycle. -/
def captures (t : Tracked) (i : Input) : List Capture :=
  (if t.hw.id.valid then [t.idSrc] else []) ++
    (Scoreboard.slots.filter fun n => (t.hw.core.sb.mem n).issued).map t.src ++
    if IdStage.takes t.hw.id (idIn t.hw i) then [⟨t.hw, i⟩] else []

theorem mem_captures {t : Tracked} {i : Input} {c : Capture} (h : InFlight t c) : c ∈ captures t i := by
  rcases h with ⟨hv, rfl⟩ | ⟨n, hn, rfl⟩
  · simp [captures, hv]
  · refine List.mem_append_left _ (List.mem_append_right _ (List.mem_map_of_mem ?_))
    exact List.mem_filter.mpr ⟨Scoreboard.mem_slots n, hn⟩

abbrev accessOf (s : State) (i : Input) : Csr.Access :=
  Backend.csrAccess s.core.be (Core.backendIn s.core (coreIn s i))

/-- A write to `mie`, `sie` or `mideleg` disables an interrupt that is already attached
to an instruction. -/
def disarms (t : Tracked) (i : Input) : Bool :=
  let q := csrOf t.hw
  let a := accessOf t.hw i
  let p := i.core.platform
  Csr.writesEnables q a && (captures t i).any fun c => c.irq.any fun n =>
    !Csr.irqEnabledBy q (Csr.writtenMie q p a) (Csr.writtenMideleg q p a) n

/-- The interrupts attached to the instructions in flight are enabled. -/
def Armed (t : Tracked) : Prop :=
  ∀ c, InFlight t c → ∀ n, c.irq = some n → Csr.irqEnabled (csrOf t.hw) n = true

theorem Armed.next {F : Exception → Prop} {t : Tracked} {i : Input} (h : Armed t) (hinv : Inv F t)
    (hw : i.hart = hartOf (csrOf t.hw) i.core.platform) (hd : disarms t i = false) :
    Armed (tracked.next t i) := by
  intro c hc n hn
  obtain ⟨hflush, hcase⟩ := hinv.inFlight_next hc
  have hnext : Csr.irqEnabled (csrOf (tracked.next t i).hw) n = _ :=
    (unredirected hflush).irqEnabled n
  rw [hnext]
  have hold : Csr.irqEnabled (csrOf t.hw) n = true := by
    rcases hcase with hold | ⟨-, rfl⟩
    · exact h c hold n hn
    · exact Capture.irqEnabled hw hn
  have hmem : c ∈ captures t i := by
    rcases hcase with hold | ⟨ht, rfl⟩
    · exact mem_captures hold
    · simp [captures, ht]
  rw [disarms, Bool.and_eq_false_iff] at hd
  rcases hd with hd | hd
  · obtain ⟨hmie, hdeleg⟩ := Csr.written_of_no_write (csrOf t.hw) i.core.platform _ hd
    rw [hmie, hdeleg]
    exact hold
  · have hc := List.any_eq_false.mp hd c hmem
    simpa [hn] using hc

def NoUnitIrq (i : Input) : Prop := UnitEx (fun ex => ex.cause.getLsbD 31 = false) i

instance (i : Input) : Decidable (NoUnitIrq i) :=
  inferInstanceAs (Decidable (∀ p ∈ i.core.wb, p.valid = true → p.ex.valid = true →
    p.ex.cause.getLsbD 31 = false))

/-- An exception that the branch unit or the load-store unit writes back, in some run of theirs.
The other units have none of their own: they share the port of the branch unit. -/
inductive UnitException : Exception → Prop
  | branch (j : BranchUnit.Input) : UnitException (BranchUnit.branchException j)
  | lsu (ni : Lsu.NonIdempotent) (ins : List Lsu.Input) (j : Lsu.Input) (w : Lsu.WriteBack)
      (hw : w ∈ Lsu.writeBacks ((Lsu.loadStoreUnit ni).run ins) j) : UnitException w.ex

theorem UnitException.not_irq {ex : Exception} (h : UnitException ex) :
    ex.cause.getLsbD 31 = false := by
  cases h with
  | branch j => exact (by decide : Riscv.instrAddrMisaligned.getLsbD 31 = false)
  | lsu ni ins j w hw =>
      rw [Lsu.writeBacks_no_exception ins j w hw]
      rfl

/-- What the functional units write back are no interrupts. -/
theorem noUnitIrq_of_units {i : Input} (h : UnitEx UnitException i) : NoUnitIrq i :=
  fun p hp hv hex => (h p hp hv hex).not_irq

def TakenEnabled (s : State) (i : Input) : Prop :=
  ∀ n, irqOf (Backend.ex s.core.be (Core.backendIn s.core (coreIn s i))) = some n →
    Csr.irqEnabled (csrOf s) n = true

theorem irq_at_port0 {s : State} {i : Input} {n : Nat}
    (h : irqOf (Backend.ex s.core.be (Core.backendIn s.core (coreIn s i))) = some n) :
    (Core.port0 s.core).valid = true ∧ irqOf (Core.port0 s.core).ex = some n := by
  obtain ⟨hv, hc, hn⟩ := irqOf_eq_some.mp h
  have hvalid : (Core.port0 s.core).valid = true ∧ Backend.halt s.core.be = false := by
    rw [Backend.ex, Commit.exceptionHandling_valid] at hv
    simp only [Bool.and_eq_true, Bool.not_eq_true'] at hv
    exact ⟨hv.1.1, hv.2⟩
  cases hex : (Core.port0 s.core).ex.valid with
  | true =>
      have hsame : Backend.ex s.core.be (Core.backendIn s.core (coreIn s i)) = (Core.port0 s.core).ex := by
        have hv0 : (Backend.commitInput s.core.be (Core.backendIn s.core (coreIn s i))).instr0.valid =
          true := hvalid.1
        have hx0 : (Backend.commitInput s.core.be (Core.backendIn s.core (coreIn s i))).instr0.ex.valid =
          true := hex
        have hh : (Backend.commitInput s.core.be (Core.backendIn s.core (coreIn s i))).halt = false :=
          hvalid.2
        simp only [Backend.ex, Commit.exceptionHandling, hv0, hx0, hh, if_true, Bool.false_eq_true,
          if_false]
        rfl
      exact ⟨hvalid.1, hsame ▸ h⟩
  | false =>
      have hret : Backend.retiring s.core.be (Core.backendIn s.core (coreIn s i)) = true := by
        show ((Core.port0 s.core).valid && !(Core.port0 s.core).ex.valid && !Backend.halt s.core.be) = true
        simp [hvalid, hex]
      rw [(Backend.ex_of_retiring _ _ hret).2 hv] at hc
      exact absurd hc (by decide)

def Undisturbed (t : Tracked) (i : Input) : Prop :=
  NoUnitIrq i ∧ disarms t (wire t.hw i) = false

instance (t : Tracked) (i : Input) : Decidable (Undisturbed t i) :=
  inferInstanceAs (Decidable (_ ∧ _))

theorem armed_run {ins : List Input} (h : hart.Throughout Undisturbed ins) :
    Inv (fun ex => ex.cause.getLsbD 31 = false) (hart.run ins) ∧ Armed (hart.run ins) := by
  refine hart.invariant (I := fun t => Inv (fun ex => ex.cause.getLsbD 31 = false) t ∧ Armed t)
    ⟨@inv_run _ [] Machine.throughout_nil, ?_⟩ ?_ ins h
  · rintro c (⟨hv, -⟩ | ⟨n, hn, -⟩)
    · exact absurd hv Bool.false_ne_true
    · exact absurd hn Bool.false_ne_true
  · rintro t i ⟨hinv, harmed⟩ ⟨hwb, hd⟩
    exact ⟨hinv.next hwb, harmed.next hinv rfl hd⟩

/-- While no write to `mie`, `sie` or `mideleg` disables an interrupt that is already
attached to an instruction, every interrupt that is taken is enabled when it is taken. -/
theorem taken_interrupts_enabled (ins : List Input) (h : hart.Throughout Undisturbed ins) (i : Input) :
    TakenEnabled (hart.run ins).hw (wire (hart.run ins).hw i) := by
  intro n hn
  obtain ⟨hinv, harmed⟩ := armed_run h
  obtain ⟨hv, hirq⟩ := irq_at_port0 hn
  obtain ⟨hin, hholds⟩ := hinv.of_valid hv
  refine harmed _ hin n ?_
  rcases hholds.ex with hsame | ⟨-, hunit⟩
  · rw [Capture.irq, ← hsame]
    exact hirq
  · obtain ⟨-, hc, -⟩ := irqOf_eq_some.mp hirq
    exact absurd (hunit.symm.trans hc) Bool.false_ne_true

/-! ## A timer interrupt -/

/-- A cycle of the core that boots at `0x100`, with the address in the CSR buffer and the
timer line. The CSR unit is not ready while it holds an instruction. -/
def timerCycle (ready : Bool) (answer : Option (XLen × BitVec 32)) (fluReady : Bool)
    (wb : List (TransId × XLen)) (csrAddr : BitVec 12) (timeIrq : Bool) : Input :=
  let i := bootCycle ready answer (wb.map fun w => ⟨w.1, w.2, default, true⟩)
  { i with core := { i.core with
    fluReady := fluReady, csrAddr := csrAddr, platform := { i.core.platform with timeIrq := timeIrq } } }

/-- `addi x1, x0, 0x80`, `csrw mie, x1` and `csrsi mstatus, 8` are fetched and retired. -/
def enableTimer : List Input :=
  [timerCycle true none true [] 0 false, timerCycle true (some (0x100, 0x08000093)) true [] 0 false,
    timerCycle true (some (0x104, 0x30409073)) true [] 0 false,
    timerCycle false (some (0x108, 0x30046073)) true [] 0 false,
    timerCycle false none true [] 0 false, timerCycle false none true [(0, 0x80)] 0 false,
    timerCycle false none false [(1, 0x80)] 0 false, timerCycle false none true [] 0x304 false,
    timerCycle false none false [(2, 8)] 0 false, timerCycle false none true [] 0x300 false]

/-- The instruction `w` and a `nop` behind it are fetched. The timer fires between their
decoding, and `w` retires. -/
def timerFires (w : BitVec 32) : List Input :=
  [timerCycle true none true [] 0 false, timerCycle true (some (0x10c, w)) true [] 0 false,
    timerCycle false (some (0x110, 0x00000013)) true [] 0 false, timerCycle false none true [] 0 true,
    timerCycle false none true [] 0 true, timerCycle false none false [(0, 0)] 0 true,
    timerCycle false none true [] 0x304 true]

def timerRun (w : BitVec 32) : List Input := enableTimer ++ timerFires w

/-- Behind a `nop` the timer interrupt is taken, and it is enabled. -/
theorem taken_interrupts_enabled_timer :
    let s := (hart.run (timerRun 0x00000013)).hw
    let i := wire s (timerCycle false none true [] 0x304 true)
    irqOf (Backend.ex s.core.be (Core.backendIn s.core (coreIn s i))) = some 7 ∧ TakenEnabled s i := by
  have h : hart.Throughout Undisturbed (timerRun 0x00000013) := by decide +kernel
  exact ⟨by decide +kernel, taken_interrupts_enabled _ h _⟩

/-- Behind `csrw mie, x0` the timer interrupt is taken as well. -/
theorem interrupt_taken_after_disable :
    hart.Throughout (fun _ i => NoUnitIrq i) (timerRun 0x30401073) ∧
      ¬TakenEnabled (hart.run (timerRun 0x30401073)).hw
        (wire (hart.run (timerRun 0x30401073)).hw (timerCycle false none true [] 0x304 true)) := by
  refine ⟨by decide +kernel, ?_⟩
  intro h
  have htaken : irqOf (Backend.ex (hart.run (timerRun 0x30401073)).hw.core.be
      (Core.backendIn (hart.run (timerRun 0x30401073)).hw.core
        (coreIn (hart.run (timerRun 0x30401073)).hw
          (wire (hart.run (timerRun 0x30401073)).hw (timerCycle false none true [] 0x304 true))))) =
      some 7 := by
    decide +kernel
  exact absurd (h 7 htaken) (by decide +kernel)

end Cva6.Pipeline
