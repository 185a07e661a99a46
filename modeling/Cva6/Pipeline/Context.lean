import Cva6.Csr.DecodeContext
import Cva6.Pipeline.InFlight
/-!
# The privilege context of an instruction

The decoder checks an instruction in the context that `csr_regfile.sv` outputs when the
instruction is decoded. Whatever changes the context flushes the decode register, the
scoreboard and the instruction that is decoded in the same cycle, so the context is still
the same when the instruction is acknowledged.
-/

namespace Cva6.Pipeline

open Cva6.Sync Cva6.Issue

def hartOf (q : Csr.Regs) (p : Csr.Platform) : IdStage.Hart where
  debugReq := p.debugReq
  irq := BitVec.ofBool p.irq1 ++ BitVec.ofBool p.irq0
  irqCtrl := Csr.irqCtrl q
  privLvl := q.privLvlO
  debugMode := q.debugMode
  tvm := q.mstatus.tvm
  tw := q.mstatus.tw
  tsr := q.mstatus.tsr

abbrev csrOf (s : State) : Csr.Regs := s.core.be.csr

def wire (s : State) (i : Input) : Input :=
  { i with hart := hartOf (csrOf s) i.core.platform }

/-- The tracked pipeline with the register file connected to the decode stage. -/
def hart : Machine Tracked Input where
  init := tracked.init
  next t i := tracked.next t (wire t.hw i)

section Step

variable {s : State} {i : Input}

/-- Without a flush by the commit stage the register file does not redirect. -/
theorem unredirected (h : commitFlush s i = false) :
    Csr.Unredirected (csrOf s) i.core.platform
      (Backend.csrAccess s.core.be (Core.backendIn s.core (coreIn s i)))
      (Backend.retire s.core.be (Core.backendIn s.core (coreIn s i))) := by
  have hex : (flushes s i).flushEx = false := by
    rw [← h]
    exact (Controller.flushCtrl_flushId _).symm
  have hcauses := Controller.flushCtrl_flushEx
    (Backend.ctrlInput s.core.be (Core.backendIn s.core (coreIn s i)))
  rw [show (Controller.flushCtrl _).flushEx = false from hex] at hcauses
  simp only [Bool.false_eq, Bool.or_eq_false_iff] at hcauses
  obtain ⟨⟨⟨⟨⟨-, hflush⟩, -⟩, hex⟩, heret⟩, hdebug⟩ := hcauses
  exact ⟨hex, heret, hdebug, hflush⟩

theorem context_next (h : commitFlush s i = false) :
    Csr.context (csrOf (pipeline.next s i)) = Csr.context (csrOf s) :=
  (unredirected h).context

end Step

/-- Every instruction in flight was decoded with the outputs of the register file, in the
context in force. -/
structure ContextInv (t : Tracked) : Prop where
  wired : ∀ c, InFlight t c → c.input.hart = hartOf (csrOf c.state) c.input.core.platform
  same : ∀ c, InFlight t c → Csr.context (csrOf c.state) = Csr.context (csrOf t.hw)

theorem ContextInv.next {F : Exception → Prop} {t : Tracked} {i : Input} (h : ContextInv t)
    (hinv : Inv F t) (hw : i.hart = hartOf (csrOf t.hw) i.core.platform) :
    ContextInv (tracked.next t i) where
  wired c hc := by
    obtain ⟨-, hold | ⟨-, rfl⟩⟩ := hinv.inFlight_next hc
    · exact h.wired c hold
    · exact hw
  same c hc := by
    obtain ⟨hflush, hcase⟩ := hinv.inFlight_next hc
    have hctx : Csr.context (csrOf (tracked.next t i).hw) = Csr.context (csrOf t.hw) :=
      context_next hflush
    rw [hctx]
    rcases hcase with hold | ⟨-, rfl⟩
    · exact h.same c hold
    · rfl

theorem contextInv_run (ins : List Input) :
    Inv (fun _ => True) (hart.run ins) ∧ ContextInv (hart.run ins) := by
  have hstart : ∀ c, ¬InFlight hart.init c := by
    rintro c (⟨hv, -⟩ | ⟨n, hn, -⟩)
    · exact Bool.false_ne_true hv
    · exact Bool.false_ne_true hn
  induction ins using List.reverseRecOn with
  | nil =>
      exact ⟨@inv_run _ [] Machine.throughout_nil, fun c hc => absurd hc (hstart c),
        fun c hc => absurd hc (hstart c)⟩
  | append_singleton ins i ih =>
      obtain ⟨hinv, hctx⟩ := ih
      rw [Machine.run_snoc]
      exact ⟨hinv.next fun _ _ _ _ => trivial, hctx.next hinv rfl⟩

structure DecodedNow (t : Tracked) (n : TransId) : Prop where
  /-- The slot holds the answer of the decoder. -/
  entry : Holds (fun _ => True) (t.src n).fetch (t.hw.core.sb.mem n).sbe
  privLvl : (t.src n).fetch.privLvl = (csrOf t.hw).privLvlO
  debugMode : (t.src n).fetch.debugMode = (csrOf t.hw).debugMode
  tvm : (t.src n).fetch.tvm = (csrOf t.hw).mstatus.tvm
  tw : (t.src n).fetch.tw = (csrOf t.hw).mstatus.tw
  tsr : (t.src n).fetch.tsr = (csrOf t.hw).mstatus.tsr
  /-- The decoder does not use `fs` in a core without a floating-point unit. It is given
  what the register file outputs. -/
  fs : (csrOf (t.src n).state).mstatus.fs = (csrOf t.hw).mstatus.fs

theorem decodedNow_of_valid {t : Tracked} (hinv : Inv (fun _ => True) t) (h : ContextInv t)
    {n : TransId} (hv : (t.hw.core.sb.mem n).sbe.valid = true) : DecodedNow t n := by
  obtain ⟨hin, hholds⟩ := hinv.of_valid hv
  have hhart := h.wired _ hin
  have hsame := h.same _ hin
  simp only [Csr.context, Csr.Context.mk.injEq] at hsame
  obtain ⟨hpriv, hdebug, htvm, htw, htsr, hfs⟩ := hsame
  have hfetch (f : IdStage.Hart → Prop)
      (hf : f (hartOf (csrOf (t.src n).state) (t.src n).input.core.platform)) :
      f (t.src n).input.hart := hhart ▸ hf
  exact ⟨hholds, hfetch (·.privLvl = _) hpriv, hfetch (·.debugMode = _) hdebug,
    hfetch (·.tvm = _) htvm, hfetch (·.tw = _) htw, hfetch (·.tsr = _) htsr, hfs⟩

/-- An acknowledged instruction was decoded in the context that is in force in the cycle
of its acknowledgement. -/
theorem decoded_in_commit_context (ins : List Input) (i : Input) :
    let t := hart.run ins
    (Core.ack0 t.hw.core (coreIn t.hw (wire t.hw i)) = true →
        DecodedNow t t.hw.core.sb.commitPointer0) ∧
      (Core.ack1 t.hw.core (coreIn t.hw (wire t.hw i)) = true →
        DecodedNow t t.hw.core.sb.commitPointer1) := by
  intro t
  obtain ⟨hinv, hctx⟩ := contextInv_run ins
  refine ⟨?_, ?_⟩
  · intro hack
    exact decodedNow_of_valid hinv hctx (Core.port0_of_retiring (Core.retiring_of_ack0 hack)).1
  · intro hack
    exact decodedNow_of_valid hinv hctx (Core.of_ack1 hack).2.1

end Cva6.Pipeline
