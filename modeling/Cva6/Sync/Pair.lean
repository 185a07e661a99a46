import Mathlib.Data.List.Infix
import Mathlib.Data.List.Induction
/-!
# Scanning a stream for an adjacent pair

`Followed p q l` says that some element of `l` satisfying `p` is immediately
followed by one satisfying `q`. The three-state scanner `scan` decides it one
element at a time: it is armed exactly when the last element satisfied `p` and
no pair has been seen, and it has fired exactly when the pair has been seen.
-/

namespace Cva6.Sync.Pair

variable {α : Type*} {p q : α → Bool}

/-- Some `p` element of the stream is immediately followed by a `q` element. -/
def Followed (p q : α → Bool) (l : List α) : Prop :=
  ∃ a b, [a, b] <:+: l ∧ p a = true ∧ q b = true

def Pending (p : α → Bool) (l : List α) : Prop :=
  ∃ a, l.getLast? = some a ∧ p a = true

theorem not_followed_nil : ¬Followed p q [] := by
  rintro ⟨a, b, h, -⟩
  simp at h

theorem not_pending_nil : ¬Pending p [] := by
  simp [Pending]

@[simp] theorem pending_snoc (l : List α) (x : α) :
    Pending p (l ++ [x]) ↔ p x = true := by
  simp [Pending]

theorem followed_snoc (l : List α) (x : α) :
    Followed p q (l ++ [x]) ↔ Followed p q l ∨ Pending p l ∧ q x = true := by
  have hsuffix (a b : α) : [a, b] <:+ l ++ [x] ↔ l.getLast? = some a ∧ x = b := by
    rw [List.getLast?_eq_some_iff]
    constructor
    · rintro ⟨t, ht⟩
      have ht' : (t ++ [a]) ++ [b] = l ++ [x] := by simpa using ht
      obtain ⟨hl, hx⟩ := List.append_inj' ht' rfl
      exact ⟨⟨t, hl.symm⟩, by simpa using hx.symm⟩
    · rintro ⟨⟨t, rfl⟩, rfl⟩
      exact ⟨t, by simp⟩
  constructor
  · rintro ⟨a, b, h, ha, hb⟩
    rcases List.infix_concat_iff.mp h with h | h
    · obtain ⟨hl, rfl⟩ := (hsuffix a b).mp h
      exact .inr ⟨⟨a, hl, ha⟩, hb⟩
    · exact .inl ⟨a, b, h, ha, hb⟩
  · rintro (⟨a, b, h, ha, hb⟩ | ⟨⟨a, hl, ha⟩, hx⟩)
    · exact ⟨a, b, h.trans (List.prefix_append l [x]).isInfix, ha, hb⟩
    · exact ⟨a, x, ((hsuffix a x).mpr ⟨hl, rfl⟩).isInfix, ha, hx⟩

/-- What the scanner knows about the stream read so far. -/
inductive Scan where
  | idle
  | armed
  | fired
  deriving DecidableEq, Repr

def Scan.step (p q : α → Bool) (s : Scan) (x : α) : Scan :=
  match s with
  | .idle => if p x then .armed else .idle
  | .armed => if q x then .fired else if p x then .armed else .idle
  | .fired => .fired

def scan (p q : α → Bool) (l : List α) : Scan :=
  l.foldl (Scan.step p q) .idle

theorem scan_append (l l' : List α) :
    scan p q (l ++ l') = l'.foldl (Scan.step p q) (scan p q l) := by
  simp [scan]

private theorem scan_correct (l : List α) :
    (scan p q l = .fired ↔ Followed p q l) ∧
      (scan p q l = .armed ↔ ¬Followed p q l ∧ Pending p l) := by
  induction l using List.reverseRecOn with
  | nil => simp [scan, not_followed_nil, not_pending_nil]
  | append_singleton l x ih =>
      obtain ⟨hfired, harmed⟩ := ih
      rw [followed_snoc, pending_snoc, scan_append, ← hfired]
      cases hs : scan p q l with
      | idle =>
          have hp : ¬Pending p l := by simp_all
          by_cases hx : p x = true <;> simp [Scan.step, hp, hx]
      | armed =>
          have hp : Pending p l := (harmed.mp hs).2
          by_cases hq : q x = true <;> by_cases hx : p x = true <;>
            simp [Scan.step, hp, hq, hx]
      | fired => simp [Scan.step]

theorem scan_fired_iff (l : List α) : scan p q l = .fired ↔ Followed p q l :=
  (scan_correct l).1

end Cva6.Sync.Pair
