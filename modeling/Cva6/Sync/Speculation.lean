import Mathlib.Data.List.Nodup
import Mathlib.Data.List.Perm.Basic
/-!
# Speculative work

Work items are numbered when they are posted. A pending item is later committed,
in order, or retired without effect, or squashed together with everything that is
pending. `Numbered` is the bookkeeping that keeps the fates apart: no item is
committed twice, and none is both committed and squashed.
-/

namespace Cva6.Sync

variable {α : Type*}

/-- The fates of the items posted so far; each item carries its number. -/
structure Track (α : Type*) where
  posted : Nat
  pending : List (Nat × α)
  committed : List (Nat × α)
  squashed : List (Nat × α)

namespace Track

def empty : Track α := ⟨0, [], [], []⟩

def post (t : Track α) (a : α) : Track α :=
  { t with posted := t.posted + 1, pending := t.pending ++ [(t.posted, a)] }

def commit (t : Track α) : Track α :=
  { t with pending := t.pending.tail, committed := t.committed ++ t.pending.head?.toList }

/-- Retire the oldest pending item without effect. -/
def retire (t : Track α) : Track α :=
  { t with pending := t.pending.tail }

def squash (t : Track α) : Track α :=
  { t with pending := [], squashed := t.squashed ++ t.pending }

/-- All items whose number is still in use. -/
def items (t : Track α) : List (Nat × α) :=
  t.committed ++ t.pending ++ t.squashed

/-- Numbers are used once, only numbers already given out, and committed and
pending items stand in the order in which they were posted. -/
structure Numbered (t : Track α) : Prop where
  nodup : (t.items.map Prod.fst).Nodup
  lt : ∀ e ∈ t.items, e.1 < t.posted
  ordered : ((t.committed ++ t.pending).map Prod.fst).Pairwise (· < ·)

theorem empty_numbered : (empty : Track α).Numbered where
  nodup := by simp [empty, items]
  lt := by simp [empty, items]
  ordered := by simp [empty]

variable {t : Track α}

theorem Numbered.post (h : t.Numbered) (a : α) : (t.post a).Numbered := by
  have hperm : (t.post a).items.Perm ((t.posted, a) :: t.items) := by
    show (t.committed ++ (t.pending ++ [(t.posted, a)]) ++ t.squashed).Perm _
    rw [← List.append_assoc, List.append_assoc _ [(t.posted, a)]]
    exact List.perm_middle
  refine ⟨?_, ?_, ?_⟩
  · rw [(hperm.map Prod.fst).nodup_iff, List.map_cons, List.nodup_cons]
    refine ⟨?_, h.nodup⟩
    intro hmem
    obtain ⟨e, he, hfst⟩ := List.mem_map.mp hmem
    have hlt := h.lt e he
    have hfst : e.1 = t.posted := hfst
    omega
  · intro e he
    show e.1 < t.posted + 1
    rcases List.mem_cons.mp (hperm.mem_iff.mp he) with rfl | he
    · simp
    · have := h.lt e he
      omega
  · show ((t.committed ++ (t.pending ++ [(t.posted, a)])).map Prod.fst).Pairwise (· < ·)
    rw [← List.append_assoc, List.map_append, List.pairwise_append]
    refine ⟨h.ordered, by simp, ?_⟩
    intro n hn m hm
    obtain ⟨e, he, rfl⟩ := List.mem_map.mp hn
    obtain rfl : m = t.posted := by simpa using hm
    exact h.lt e (List.mem_append_left _ he)

theorem Numbered.of_perm {t' : Track α} (h : t.Numbered) (hposted : t'.posted = t.posted)
    (hitems : t'.items.Perm t.items)
    (hsub : (t'.committed ++ t'.pending).Sublist (t.committed ++ t.pending)) : t'.Numbered where
  ordered := h.ordered.sublist (hsub.map Prod.fst)
  nodup := by
    rw [(hitems.map Prod.fst).nodup_iff]
    exact h.nodup
  lt := by
    intro e he
    rw [hposted]
    exact h.lt e (hitems.mem_iff.mp he)

theorem Numbered.commit (h : t.Numbered) : t.commit.Numbered := by
  have hsplit : t.committed ++ t.pending.head?.toList ++ t.pending.tail =
      t.committed ++ t.pending := by
    cases hp : t.pending <;> simp
  refine h.of_perm rfl (List.Perm.of_eq ?_) (by rw [← hsplit]; rfl)
  exact congrArg (· ++ t.squashed) hsplit

theorem Numbered.squash (h : t.Numbered) : t.squash.Numbered := by
  refine h.of_perm rfl ?_ ((List.Sublist.refl _).append (List.nil_sublist _))
  show (t.committed ++ [] ++ (t.squashed ++ t.pending)).Perm (t.committed ++ t.pending ++ t.squashed)
  rw [List.append_nil, List.append_assoc]
  exact List.Perm.append_left _ List.perm_append_comm

theorem Numbered.retire (h : t.Numbered) : t.retire.Numbered := by
  have hsub : t.retire.items.Sublist t.items :=
    ((List.Sublist.refl _).append (List.tail_sublist _)).append (List.Sublist.refl _)
  have hsub' : (t.retire.committed ++ t.retire.pending).Sublist (t.committed ++ t.pending) :=
    (List.Sublist.refl _).append (List.tail_sublist _)
  exact ⟨h.nodup.sublist (hsub.map Prod.fst), fun e he => h.lt e (hsub.subset he),
    h.ordered.sublist (hsub'.map Prod.fst)⟩

theorem Numbered.squashed_not_committed (h : t.Numbered) {e : Nat × α}
    (he : e ∈ t.squashed) : ∀ e' ∈ t.committed, e'.1 ≠ e.1 := by
  have hnodup := h.nodup
  rw [items, List.map_append, List.map_append] at hnodup
  intro e' he' heq
  have hdisj := (List.nodup_append.mp hnodup).2.2
  refine hdisj e'.1 ?_ e.1 (List.mem_map_of_mem he) heq
  exact List.mem_append_left _ (List.mem_map_of_mem he')

theorem Numbered.committed_ordered (h : t.Numbered) :
    (t.committed.map Prod.fst).Pairwise (· < ·) :=
  h.ordered.sublist ((List.sublist_append_left _ _).map Prod.fst)

end Track

end Cva6.Sync
