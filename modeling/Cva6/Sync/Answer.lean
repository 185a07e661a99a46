import Cva6.Sync.Machine
/-!
# Answers

A machine that works on one request offers its answer after some cycles and holds it until
the answer is taken.
-/

namespace Cva6.Sync.Machine

variable {σ ι ω : Type*} (m : Machine σ ι) (quiet : ι → Prop) (offer : σ → Option ω)
  (ready : σ → ι → Bool)

def taken (s : σ) (i : ι) : List ω := if ready s i then (offer s).toList else []

/-- From `s` on nothing is offered for `n` cycles, and then `v` until it is taken. -/
def Answers (s : σ) (n : Nat) (v : ω) : Prop :=
  ∀ ins, (∀ i ∈ ins, quiet i) → m.logFrom (taken offer ready) s ins = [] →
    offer (m.runFrom s ins) = if n ≤ ins.length then some v else none

variable {m quiet offer ready} {s : σ} {n n' : Nat} {v v' : ω}

theorem Answers.next (h : m.Answers quiet offer ready s (n + 1) v) {i : ι} (hi : quiet i) :
    m.Answers quiet offer ready (m.next s i) n v := by
  intro ins hins hlog
  have hnone : offer s = none := h [] (by simp) rfl
  have hoffer := h (i :: ins) (List.forall_mem_cons.mpr ⟨hi, hins⟩)
    (by simp [logFrom, taken, hnone, hlog])
  simpa [runFrom] using hoffer

theorem Answers.log_nil (h : m.Answers quiet offer ready s n v) {ins : List ι}
    (hquiet : ∀ i ∈ ins, quiet i) (hlen : ins.length ≤ n) :
    m.logFrom (taken offer ready) s ins = [] := by
  induction ins using List.reverseRecOn with
  | nil => rfl
  | append_singleton ins i ih =>
      have hins : ∀ j ∈ ins, quiet j := fun j hj => hquiet j (List.mem_append_left _ hj)
      rw [List.length_append, List.length_singleton] at hlen
      have hlog := ih hins (by omega)
      have hnone := h ins hins hlog
      rw [if_neg (by omega)] at hnone
      simp [logFrom_append, hlog, logFrom, taken, hnone]

theorem Answers.unique (h : m.Answers quiet offer ready s n v)
    (h' : m.Answers quiet offer ready s n' v') {i : ι} (hi : quiet i) : v = v' := by
  have hquiet (k : Nat) : ∀ j ∈ List.replicate k i, quiet j := by
    intro j hj
    rwa [(List.mem_replicate.mp hj).2]
  -- at the earlier of the two cycles both say what is offered
  have hlog := h.log_nil (hquiet (min n n'))
    (by rw [List.length_replicate]; exact Nat.min_le_left _ _)
  have hv := h _ (hquiet _) hlog
  rw [h' _ (hquiet _) hlog, List.length_replicate] at hv
  split_ifs at hv <;> first | exact (Option.some.inj hv).symm | omega

/-- A state with `k` cycles to wait offers nothing and comes closer; a state with none offers
the answer and stays until it is taken. -/
structure Waiting (m : Machine σ ι) (quiet : ι → Prop) (offer : σ → Option ω)
    (ready : σ → ι → Bool) (v : ω) (wait : Nat → σ → Prop) : Prop where
  busy : ∀ k s, wait (k + 1) s → offer s = none
  closer : ∀ k s i, wait (k + 1) s → quiet i → wait k (m.next s i)
  offered : ∀ s, wait 0 s → offer s = some v
  held : ∀ s i, wait 0 s → quiet i → ready s i = false → wait 0 (m.next s i)

theorem Waiting.answers {wait : Nat → σ → Prop} (h : Waiting m quiet offer ready v wait)
    (hs : wait n s) : m.Answers quiet offer ready s n v := by
  intro ins
  induction ins generalizing n s with
  | nil =>
      intro _ _
      cases n with
      | zero => exact h.offered s hs
      | succ k => exact h.busy k s hs
  | cons i ins ih =>
      intro hquiet hlog
      have hi := hquiet i List.mem_cons_self
      have hins : ∀ j ∈ ins, quiet j := fun j hj => hquiet j (List.mem_cons_of_mem _ hj)
      obtain ⟨hnot, hlog⟩ := List.append_eq_nil_iff.mp hlog
      cases n with
      | zero =>
          have hready : ready s i = false := by
            by_contra hr
            simp [taken, hr, h.offered s hs] at hnot
          simpa [runFrom] using ih (h.held s i hs hi hready) hins hlog
      | succ k => simpa [runFrom] using ih (h.closer k s i hs hi) hins hlog

end Cva6.Sync.Machine
