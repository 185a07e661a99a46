import Cva6.Backend.Exceptions
import Cva6.Csr.TrapReturn
/-!
# Traps as the detector sees them

`CFI_Mod` has no trap input: its verdict is a function of the acknowledged
instructions. A cycle that takes a trap acknowledges nothing, so the detector
does not move in it, and the instructions of the handler are judged as if they
were part of the interrupted program.
-/

namespace Cva6.Backend

open Cva6.Sync

def committed (ins : List Input) : List ScoreboardEntry :=
  backend.log (fun s i => acknowledged i.commitInstr (out s i).commitAck) ins

def cfiInputs (ins : List Input) : List Cfi.Input :=
  backend.log (fun s i => [cfiInput s i]) ins

theorem stream_cfiInputs (ins : List Input) : Cfi.stream (cfiInputs ins) = committed ins := by
  induction ins using List.reverseRecOn with
  | nil => rfl
  | append_singleton ins i ih =>
      rw [committed, Machine.log_snoc, ← committed, ← ih, cfiInputs, Machine.log_snoc,
        Cfi.stream_snoc]
      rfl

theorem cfiInputs_legal (ins : List Input) : ∀ j ∈ cfiInputs ins, j.commitAck.Legal := by
  induction ins using List.reverseRecOn with
  | nil => simp [cfiInputs]
  | append_singleton ins i ih =>
      intro j hj
      rw [cfiInputs, Machine.log_snoc, List.mem_append, List.mem_singleton] at hj
      rcases hj with hj | rfl
      · exact ih j hj
      · exact Commit.commit_ack_legal _

theorem run_snoc_stateJalr (ins : List Input) (i : Input) :
    (backend.run (ins ++ [i])).cfi.stateJalr =
      Cfi.nextState (backend.run ins).cfi.stateJalr (cfiInput (backend.run ins) i) := by
  rw [Machine.run_snoc]
  rfl

/-- A cycle that takes a trap before a violation was flagged acknowledges nothing
and leaves the detector where it is. -/
theorem trap_cycle (ins : List Input) (i : Input) (hflag : flag (backend.run ins) = false)
    (hex : (ex (backend.run ins) i).valid = true) :
    committed (ins ++ [i]) = committed ins ∧
      (backend.run (ins ++ [i])).cfi.stateJalr = (backend.run ins).cfi.stateJalr := by
  have hprecise : Precise (backend.run ins) i := by simp [precise_iff, hflag]
  have hack : (out (backend.run ins) i).commitAck = ⟨false, false⟩ := (hprecise hex).1
  constructor
  · simp [committed, acknowledged, hack]
  · rw [run_snoc_stateJalr]
    exact Cfi.nextState_none _ _ hack

/-- Before a violation was flagged, the instruction that traps executes no
return and writes no stacked context. -/
theorem trap_plain (s : State) (i : Input) (hflag : flag s = false) (hex : (ex s i).valid = true) :
    Csr.Plain s.csr ⟨i.platform, csrAccess s i, retire s i⟩ := by
  have heret : (csrUpdate s i).eret = false := by
    by_contra h
    have h : (csrUpdate s i).eret = true := by simpa using h
    have := ((eret_and_ex_iff s i).mp ⟨h, hex⟩).1
    simp [hflag] at this
  refine ⟨?_, ?_⟩
  · rw [csrUpdate, Csr.csrUpdate_eret] at heret
    exact heret
  · by_cases hacc : Csr.isAccess (csrAccess s i).csrOp = true
    · have hret : retiring s i = true := by
        rw [csrAccess, out_csrOp] at hacc
        exact (retiring_of_isAccess s i hacc).1
      rw [(ex_of_retiring s i hret).1, ← csrException_access, hflag] at hex
      exact Csr.writesContext_of_csrException _ _ _ hex
    · have hwe : (Csr.strobes s.csr (csrAccess s i)).csrWe = false := by
        by_contra hwe
        exact hacc (Csr.strobes_csrWe_isAccess _ _ (by simpa using hwe))
      simp only [Csr.writesContext, Csr.writesReg, hwe, Bool.false_and, Bool.or_self]

theorem marker_at_port0 {ports : CommitPorts} {a : CommitAck} {e : ScoreboardEntry}
    {rest : List ScoreboardEntry} (hlegal : a.Legal) (h : acknowledged ports a = e :: rest) :
    a.ack0 = true ∧ ports.instr0 = e := by
  rcases a with ⟨_ | _, _ | _⟩
  · simp [acknowledged] at h
  · simp [CommitAck.Legal] at hlegal
  · obtain ⟨he, -⟩ : ports.instr0 = e ∧ [] = rest := by simpa [acknowledged] using h
    exact ⟨rfl, he⟩
  · obtain ⟨he, -⟩ : ports.instr0 = e ∧ [ports.instr1] = rest := by
      simpa [acknowledged] using h
    exact ⟨rfl, he⟩

theorem xret_not_return {e : ScoreboardEntry} (h : Csr.isXret e.op = true) : Cfi.jalrDet e = false := by
  cases hop : e.op <;> simp_all [Csr.isXret, Cfi.jalrDet]

/-- The detector after a marker, for every run: it depends on what was
acknowledged last. -/
theorem marker_verdict (ins : List Input) (i : Input) (e : ScoreboardEntry)
    (rest : List ScoreboardEntry) (hnop : Cfi.nopPerso e = true)
    (hack : acknowledged i.commitInstr (out (backend.run ins) i).commitAck = e :: rest) :
    (backend.run (ins ++ [i])).cfi.stateJalr = .stateJalr3 ↔
      (backend.run ins).cfi.stateJalr ≠ .stateJalr1 := by
  obtain ⟨hack0, he⟩ := marker_at_port0 (Commit.commit_ack_legal _) hack
  rw [run_snoc_stateJalr]
  refine Cfi.nextState_marker _ _ hack0 ?_
  show Cfi.nopPerso i.commitInstr.instr0 = true
  rw [he, hnop]

theorem stateJalr2_pending (ins : List Input)
    (h : (backend.run ins).cfi.stateJalr = .stateJalr2) :
    Pair.Pending Cfi.jalrDet (committed ins) := by
  rw [← stream_cfiInputs]
  refine Cfi.pending_of_stateJalr2 _ (cfiInputs_legal ins) ?_
  rw [← h, run_cfi]
  rfl

/-- Traps are invisible to the detector. A cycle that takes one changes neither
the committed stream nor the state. With a return pending, the first instruction
a handler commits is judged as its landing instruction, so a marker there is a
violation. A marker committed first after the return from a handler is no new
violation. -/
theorem detector_ignores_traps :
    (∀ ins i, flag (backend.run ins) = false → (ex (backend.run ins) i).valid = true →
      committed (ins ++ [i]) = committed ins ∧
        (backend.run (ins ++ [i])).cfi.stateJalr = (backend.run ins).cfi.stateJalr) ∧
    (∀ ins i e rest, Cfi.nopPerso e = true →
      acknowledged i.commitInstr (out (backend.run ins) i).commitAck = e :: rest →
      (backend.run ins).cfi.stateJalr = .stateJalr2 →
        (backend.run (ins ++ [i])).cfi.stateJalr = .stateJalr3) ∧
    (∀ ins i l x e rest, committed ins = l ++ [x] → Csr.isXret x.op = true →
      Cfi.nopPerso e = true →
      acknowledged i.commitInstr (out (backend.run ins) i).commitAck = e :: rest →
        ((backend.run (ins ++ [i])).cfi.stateJalr = .stateJalr3 ↔
          (backend.run ins).cfi.stateJalr = .stateJalr3)) := by
  refine ⟨trap_cycle, ?_, ?_⟩
  · intro ins i e rest hnop hack hstate
    rw [marker_verdict ins i e rest hnop hack, hstate]
    simp
  · intro ins i l x e rest hlast hx hnop hack
    rw [marker_verdict ins i e rest hnop hack]
    cases hstate : (backend.run ins).cfi.stateJalr with
    | stateJalr1 => simp
    | stateJalr2 =>
        have hpending := stateJalr2_pending ins hstate
        rw [hlast, Pair.pending_snoc, xret_not_return hx] at hpending
        simp at hpending
    | stateJalr3 => simp

/-! ## A timer interrupt between a return and its landing instruction -/

/-- The landing instruction, carrying a machine timer interrupt. -/
def interruptedMarker : ScoreboardEntry :=
  { Cfi.markerInstr with pc := 0x200, ex := ⟨0x80000007, 0, true⟩ }

def landingMarker : ScoreboardEntry := { Cfi.markerInstr with pc := 0x200 }

/-- The interrupt, its handler `mret` back to the interrupted address, and the
marker there: the violation that the run without the interrupt detects is missed.
And a handler that starts with a marker is flagged because of the return before
the interrupt. -/
theorem interrupt_hides_marker :
    (backend.run [.at0 Cfi.returnInstr, .at0 landingMarker]).cfi.stateJalr = .stateJalr3 ∧
      (ex (backend.run [.at0 Cfi.returnInstr]) (.at0 interruptedMarker)).valid = true ∧
      (backend.run [.at0 Cfi.returnInstr, .at0 interruptedMarker]).csr.mepc = 0x200 ∧
      committed [.at0 Cfi.returnInstr, .at0 interruptedMarker, .at0 mretInstr,
        .at0 landingMarker] = [Cfi.returnInstr, mretInstr, landingMarker] ∧
      (backend.run [.at0 Cfi.returnInstr, .at0 interruptedMarker, .at0 mretInstr,
        .at0 landingMarker]).cfi.stateJalr ≠ .stateJalr3 ∧
      (backend.run [.at0 Cfi.returnInstr, .at0 interruptedMarker,
        .at0 Cfi.markerInstr]).cfi.stateJalr = .stateJalr3 := by
  decide +kernel

end Cva6.Backend
