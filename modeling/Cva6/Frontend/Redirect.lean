import Cva6.Frontend.Stream
/-!
# Redirection

After a flush the frontend holds nothing of what it had fetched, and the first entry it
delivers is the one at the address it was flushed to.
-/

namespace Cva6.Frontend

open Cva6.Sync Queue

variable {H : Parcel → BitVec 16 → Prop} {s : State} {i : Input} {t : XLen}

/-- Nothing is fetched, re-aligned or queued. -/
structure Emptied (s : State) : Prop where
  asked : s.asked = none
  icacheValid : s.q.icacheValid = false
  unaligned : s.q.realign.unaligned = false
  queue : fetchEntryValid s.q.queue = false

/-- The next entry to be delivered is the one at `t`. -/
def Fresh (H : Parcel → BitVec 16 → Prop) (t : XLen) (s : State) : Prop :=
  if s.q.queue.resetAddress then
    s.q.npcRstLoad = false ∧ FetchOk H s ∧ Aligned s.q.npc ∧ Holds s.q.queue [] ∧ pos s = t
  else s.q.queue.pc = t

theorem emptied_of_flush (hc : Cached H s i) (hf : i.flush = true) : Emptied (s.next i) := by
  have hk1 : killS1 s.q i = true := by simp [killS1, hf]
  have hk : killS2 s.q i = true := by simp [killS2, hk1]
  obtain ⟨hv, hu, -⟩ := pos_killed hc hk
  have hh : Holds (s.next i).q.queue [] := holds_flush (i := queueIn s.q i) hf
  refine ⟨?_, hv, hu, ?_⟩
  · show askedNext s i = none
    simp [askedNext, hk1]
  · rw [← Bool.not_eq_true, hh.fetchEntryValid_iff]
    simp

theorem fresh_of_flush (hc : Cached H s i) (hf : i.flush = true) (ha : Aligned (npcD s.q i)) :
    Fresh H (npcD s.q i) (s.next i) := by
  have hk : killS2 s.q i = true := by simp [killS2, killS1, hf]
  have hreset : (s.next i).q.queue.resetAddress = true := by
    show (Queue.next s.q.queue (queueIn s.q i)).resetAddress = true
    have hf : (queueIn s.q i).flush = true := hf
    simp [Queue.next, hf]
  obtain ⟨hasked, hv, hu, -⟩ := emptied_of_flush hc hf
  unfold Fresh
  rw [if_pos hreset]
  refine ⟨rfl, ?_, ha, holds_flush (i := queueIn s.q i) hf, ?_⟩
  · exact
      { boot := fun h => absurd h Bool.false_ne_true
        asked := by simp [hasked]
        word := fun h => absurd (hv.symm.trans h) Bool.false_ne_true
        pending := fun h => absurd (hu.symm.trans h) Bool.false_ne_true }
  · rw [(pos_killed hc hk).2.2, fetchPos_flush hf]

theorem Fresh.address (h : Fresh H t s) (hv : fetchEntryValid s.q.queue = true) :
    (fetchEntry s.q.queue).address = t := by
  unfold Fresh at h
  cases hreset : s.q.queue.resetAddress with
  | true =>
      rw [hreset, if_pos rfl] at h
      exact absurd rfl (h.2.2.2.1.fetchEntryValid_iff.mp hv)
  | false =>
      rw [hreset, if_neg Bool.false_ne_true] at h
      exact h

theorem Fresh.next (h : Fresh H t s) (hw : Wired s i) (hc : Cached H s i) (hf : i.flush = false)
    (hd : delivered s.q i = []) : Fresh H t (s.next i) := by
  obtain ⟨hreset', hpc', -⟩ := queue_next (s := s) hf
  have hready : i.fetchEntryReady = false := by
    cases hr : i.fetchEntryReady with
    | false => rfl
    | true => simp [delivered, hr, hw.ready hr] at hd
  have hready' : (queueIn s.q i).fetchEntryReady = false := hready
  have hpop : popAddress s.q.queue (queueIn s.q i) = false := by simp [popAddress, hready']
  unfold Fresh at h ⊢
  cases hreset : s.q.queue.resetAddress with
  | false =>
      rw [hreset, if_neg Bool.false_ne_true] at h
      rw [hreset', hreset, Bool.false_and, if_neg Bool.false_ne_true, hpc']
      simp [pcD, hreset, hpop, hready', h]
  | true =>
      rw [hreset, if_pos rfl] at h
      obtain ⟨hboot, ft, ha, hh, hpos⟩ := h
      rw [hreset', hreset, Bool.true_and]
      cases hv0 : (slot s.q false).valid with
      | true =>
          rw [if_neg (by simp), hpc', ← hpos, ← (slot0_stored ft hv0).1]
          simp [pcD, queueIn, hv0, hreset]
      | false =>
          have hr : replay s.q i = false := replay_of_invalid hh hv0
          have hb := bpValid_of_plain (cfType_invalid hv0) (cfType_invalid (slot1_invalid hv0))
          have haddr : fetchAddress s.q i = s.q.npc := by simp [fetchAddress, npcQ, hb, hboot]
          have hnext := hh.next (i := queueIn s.q i) hf slot_order hw.ready
          rw [List.drop_nil, List.nil_append, pushed_of_invalid hh hv0] at hnext
          rw [if_pos (by simp)]
          refine ⟨rfl, ft.next hh hw hc (haddr ▸ ha), ?_, hnext, ?_⟩
          · show Aligned (npcD s.q i)
            rw [(npcD_of_no_flush hw hf).2, hr, if_neg Bool.false_ne_true, haddr]
            split_ifs
            · exact aligned_nextWord _
            · exact ha
          · rw [pos_of_invalid ft hw hc hf hboot hr hv0, hpos]

end Cva6.Frontend
