import Cva6.Pipeline.Interrupts
/-!
# The interrupt that the decoder selects

Of the interrupts that are pending and enabled the decoder keeps the one of the
highest priority, and only then asks whether the current level may be interrupted
by it. An interrupt that is delegated, and waits for its level, hides the ones
behind it.
-/

namespace Cva6.Pipeline

open Cva6.Riscv

/-! ## Two ways to select -/

/-- Filtering what was found first is finding the first that passes, exactly when the one found
passes or none does. -/
theorem filter_find?_eq_iff {α : Type*} (l : List α) (p e : α → Bool) :
    (l.find? p).filter e = l.find? (fun a => p a && e a) ↔
      ∀ a, l.find? p = some a → e a = true ∨ ∀ b ∈ l, p b = true → e b = false := by
  cases hfind : l.find? p with
  | none =>
      have hnone : l.find? (fun a => p a && e a) = none := by
        rw [List.find?_eq_none] at hfind ⊢
        intro a ha hpe
        exact hfind a ha (Bool.and_eq_true _ _ ▸ hpe).1
      simp [hnone]
  | some a =>
      obtain ⟨hpa, before, after, hl, hbefore⟩ := List.find?_eq_some_iff_append.mp hfind
      cases hea : e a with
      | true =>
          have hsome : l.find? (fun a => p a && e a) = some a := by
            rw [List.find?_eq_some_iff_append]
            refine ⟨by simp [hpa, hea], before, after, hl, ?_⟩
            intro b hb
            simp [by simpa using hbefore b hb]
          simp [hsome, hea]
      | false =>
          have hfilter : (some a).filter e = none := by simp [hea]
          rw [hfilter, eq_comm, List.find?_eq_none]
          constructor
          · intro h b hb
            cases hb
            exact .inr fun c hc hpc => by simpa [hpc] using h c hc
          · intro h b hb hpe
            rcases h a rfl with ha | hall
            · rw [hea] at ha
              cases ha
            · have hpe : p b = true ∧ e b = true := by simpa using hpe
              rw [hall b hb hpe.1] at hpe
              cases hpe.2

/-! ## The rule -/

/-- The interrupts, the highest priority first. -/
def irqOrder : List Nat := [irqMExt, irqMSoft, irqMTimer, irqSExt, irqSSoft, irqSTimer]

/-- The bit of `mip`, or the line of the external interrupt controller. -/
def irqPending (q : Csr.Regs) (p : Csr.Platform) (n : Nat) : Bool :=
  q.mie.getLsbD n && (q.mip.getLsbD n || n == irqSExt && p.irq1)

/-- The current level may be interrupted: outside debug mode, and not in a single step that
masks interrupts. -/
def irqOpen (q : Csr.Regs) : Bool :=
  !q.debugMode && (!q.dcsr.step || q.dcsr.stepie)

def irqDeliverable (q : Csr.Regs) (n : Nat) : Bool :=
  if q.mideleg.getLsbD n then
    q.privLvlO == privLvlU || (q.privLvlO == privLvlS && q.mstatus.sie)
  else q.privLvlO != privLvlM || q.mstatus.mie

def irqRequired (q : Csr.Regs) (p : Csr.Platform) : Option Nat :=
  if irqOpen q then irqOrder.find? fun n => irqPending q p n && irqDeliverable q n else none

/-- The pending interrupt of the highest priority is deliverable, or none is. -/
def SelectOk (q : Csr.Regs) (p : Csr.Platform) : Prop :=
  irqOpen q = true → ∀ n, irqOrder.find? (irqPending q p) = some n → irqDeliverable q n = true ∨
    ∀ m ∈ irqOrder, irqPending q p m = true → irqDeliverable q m = false

/-! ## The decoder -/

section Decode

variable (q : Csr.Regs) (p : Csr.Platform) (e : Frontend.FetchEntry)

def fetched : Decoder.Input := IdStage.decoderIn (hartOf q p) e

def attached : Option Nat := irqOf (IdStage.decodedInstruction (hartOf q p) e).ex

/-- A chain of assignments of which the last wins is a search from its end. -/
theorem getD_find?_cons {α β : Type*} (pred : α → Bool) (f : α → β) (d : β) (a : α) (l : List α) :
    (((a :: l).find? pred).map f).getD d =
      if pred a then f a else ((l.find? pred).map f).getD d := by
  rw [List.find?_cons]
  cases pred a <;> rfl

theorem interruptCause_eq : Decoder.interruptCause (fetched q p e) =
    ((irqOrder.find? (irqPending q p)).map Riscv.interruptCause).getD 0 := by
  have hirq : (fetched q p e).irq.getLsbD 1 = p.irq1 := by
    show (BitVec.ofBool p.irq1 ++ BitVec.ofBool p.irq0).getLsbD 1 = p.irq1
    cases p.irq1 <;> cases p.irq0 <;> rfl
  have hext : irqPending q p irqSExt =
      (q.mie.getLsbD irqSExt && (q.mip.getLsbD irqSExt || p.irq1)) := rfl
  have hother (n : Nat) (hn : (n == irqSExt) = false) : irqPending q p n =
      (q.mie.getLsbD n && q.mip.getLsbD n) := by
    rw [irqPending, hn, Bool.false_and, Bool.or_false]
  simp only [irqOrder, getD_find?_cons, hext, hother irqMExt rfl, hother irqMSoft rfl,
    hother irqMTimer rfl, hother irqSSoft rfl, hother irqSTimer rfl]
  unfold Decoder.interruptCause
  rw [hirq]
  rfl

theorem interruptCause_number {n : Nat} (h : n ∈ irqOrder) :
    (Riscv.interruptCause n).getLsbD 31 = true ∧
      ((Riscv.interruptCause n).extractLsb' 0 5).toNat = n := by
  revert n
  decide

/-- The decoder interrupts exactly when the interrupt it has selected is deliverable. -/
theorem interruptTaken_eq : Decoder.interruptTaken (fetched q p e) =
    (irqOpen q && (irqOrder.find? (irqPending q p)).any (irqDeliverable q)) := by
  have hglobal : (fetched q p e).irqCtrl.globalEnable = (irqOpen q &&
      ((q.mstatus.mie && q.privLvlO == privLvlM) || q.privLvlO != privLvlM)) := rfl
  unfold Decoder.interruptTaken
  rw [interruptCause_eq, hglobal]
  cases hfind : irqOrder.find? (irqPending q p) with
  | none => simp
  | some n =>
      obtain ⟨hirq, hnumber⟩ := interruptCause_number (List.mem_of_find?_eq_some hfind)
      simp only [Option.map_some, Option.getD_some, Option.any_some, hirq, hnumber]
      show (true && (irqOpen q && _) && if q.mideleg.getLsbD n then
        (q.mstatus.sie && q.privLvlO == privLvlS) || q.privLvlO == privLvlU else true) = _
      unfold irqDeliverable
      -- a delegated interrupt is taken below machine mode only
      by_cases hM : q.privLvlO = privLvlM
      · rw [hM]
        cases q.mideleg.getLsbD n <;> cases q.mstatus.mie <;> cases q.mstatus.sie <;>
          cases irqOpen q <;> rfl
      · have hne : (q.privLvlO == privLvlM) = false := by simpa using hM
        have hbne : (q.privLvlO != privLvlM) = true := by simpa using hM
        rw [hne, hbne]
        cases q.mideleg.getLsbD n <;> cases q.mstatus.mie <;> cases q.mstatus.sie <;>
          cases irqOpen q <;> cases q.privLvlO == privLvlS <;> cases q.privLvlO == privLvlU <;> rfl

theorem irqOf_exceptionHandling {d : Decoder.Input} (dec : Decoder.Decoded)
    (hfetch : d.ex.valid = false) (hdebug : d.debugReq = false) (hlvl : Csr.LegalLvl d.privLvl) :
    irqOf (Decoder.exceptionHandling d dec) =
      if Decoder.interruptTaken d then irqOf ⟨Decoder.interruptCause d, 0, true⟩ else none := by
  have hillegal : illegalInstr.getLsbD 31 = false := by decide
  have hbreak : breakpoint.getLsbD 31 = false := by decide
  have hecall : (Decoder.ecallCause d.privLvl d.ex.cause).getLsbD 31 = false := by
    unfold Decoder.ecallCause
    split_ifs
    · decide
    · decide
    · decide
    · rcases hlvl with h | h | h <;> contradiction
  unfold Decoder.exceptionHandling irqOf
  simp only [hfetch, hdebug, Bool.false_and, Bool.false_eq_true, if_false]
  cases Decoder.interruptTaken d with
  | true => rfl
  | false =>
      simp only [Bool.false_eq_true, if_false]
      split_ifs <;> simp_all

theorem attached_eq (hfetch : e.ex.valid = false) (hdebug : p.debugReq = false)
    (hlvl : Csr.LegalLvl q.privLvlO) : attached q p e =
      if irqOpen q then (irqOrder.find? (irqPending q p)).filter (irqDeliverable q) else none := by
  have hraise : attached q p e = if Decoder.interruptTaken (fetched q p e) then
      irqOf ⟨Decoder.interruptCause (fetched q p e), 0, true⟩ else none :=
    irqOf_exceptionHandling _ hfetch hdebug hlvl
  rw [hraise, interruptTaken_eq, interruptCause_eq]
  cases hfind : irqOrder.find? (irqPending q p) with
  | none => simp
  | some n =>
      obtain ⟨hirq, hnumber⟩ := interruptCause_number (List.mem_of_find?_eq_some hfind)
      have hcause : irqOf ⟨Riscv.interruptCause n, 0, true⟩ = some n :=
        irqOf_eq_some.mpr ⟨rfl, hirq, hnumber⟩
      rw [Option.map_some, Option.getD_some, hcause, Option.any_some, Option.filter_some]
      cases irqOpen q <;> cases irqDeliverable q n <;> rfl

/-- The interrupt attached is the required one exactly when the pending interrupt of the highest
priority does not hide a deliverable one. -/
theorem select_iff (hfetch : e.ex.valid = false) (hdebug : p.debugReq = false)
    (hlvl : Csr.LegalLvl q.privLvlO) : attached q p e = irqRequired q p ↔ SelectOk q p := by
  rw [attached_eq q p e hfetch hdebug hlvl, irqRequired, SelectOk]
  cases irqOpen q with
  | false => simp
  | true =>
      simp only [if_true, true_implies]
      exact filter_find?_eq_iff irqOrder (irqPending q p) (irqDeliverable q)

/-- In machine mode with the enable bit set, the timer interrupt is attached. -/
theorem select_timer :
    let q := { Csr.Regs.reset with
      mie := 0x88, mip := 0x80, mstatus := { Csr.Regs.reset.mstatus with mie := true } }
    attached q default default = some irqMTimer ∧ attached q default default = irqRequired q default := by
  intro q
  have hok : SelectOk q default := by
    intro _ n hn
    have htimer : irqOrder.find? (irqPending q default) = some irqMTimer := by decide
    rw [htimer] at hn
    cases hn
    exact .inl (by decide)
  have h := (select_iff q default default rfl rfl (by decide)).mpr hok
  exact ⟨h.trans (by decide), h⟩

/-- Firmware delegates the external interrupt, enables it and the supervisor timer, makes both
pending and returns to supervisor mode. -/
def hiddenTimer : Csr.Regs :=
  Csr.csrRegfile.run [Csr.csrWriteCycle 0x303 0x200, Csr.csrWriteCycle 0x304 0x220,
    Csr.csrWriteCycle 0x344 0x220, Csr.csrWriteCycle 0x300 0x800, Csr.returnCycle .MRET]

/-- The external interrupt waits for `sie` and hides the timer interrupt, which is due at once. -/
theorem timer_hidden :
    hiddenTimer.privLvlO = privLvlS ∧ attached hiddenTimer default default = none ∧
      irqRequired hiddenTimer default = some irqSTimer := by
  decide +kernel

end Decode

end Cva6.Pipeline
