import Mathlib.Data.List.Induction
/-!
# Synchronous machines

A clocked design is a reset state and a next-state function. A run from reset
is a list of the inputs sampled at successive clock edges, oldest first, and
`run` is the register state after the last of them. Everything a property says
about the history of a run (what was accepted, what was issued, what was
granted) is a `log` of what each cycle contributes.

Assumptions on the environment, and facts about single cycles, are conditions on the
current state and the input sampled in it; `Throughout` lifts such a condition to every
cycle of a run.
The rules at the end prove a fact about all admitted runs from one step.
-/

namespace Cva6.Sync

/-- A clocked design: the state after reset and the next-state function. -/
structure Machine (σ ι : Type*) where
  init : σ
  next : σ → ι → σ

namespace Machine

variable {σ ι ω : Type*} (m : Machine σ ι)

def runFrom (s : σ) (ins : List ι) : σ :=
  ins.foldl m.next s

/-- The state after the cycles `ins`, started from reset. -/
def run (ins : List ι) : σ :=
  m.runFrom m.init ins

@[simp] theorem run_nil : m.run [] = m.init := rfl

@[simp] theorem run_snoc (ins : List ι) (i : ι) :
    m.run (ins ++ [i]) = m.next (m.run ins) i := by
  simp [run, runFrom]

theorem run_append (ins ins' : List ι) :
    m.run (ins ++ ins') = m.runFrom (m.run ins) ins' := by
  simp [run, runFrom]

/-! ## Logs -/

def logFrom (out : σ → ι → List ω) : σ → List ι → List ω
  | _, [] => []
  | s, i :: ins => out s i ++ logFrom out (m.next s i) ins

/-- The concatenation of what each cycle of a run from reset contributes. -/
def log (out : σ → ι → List ω) (ins : List ι) : List ω :=
  m.logFrom out m.init ins

theorem logFrom_append (out : σ → ι → List ω) (s : σ) (ins ins' : List ι) :
    m.logFrom out s (ins ++ ins') =
      m.logFrom out s ins ++ m.logFrom out (m.runFrom s ins) ins' := by
  induction ins generalizing s with
  | nil => rfl
  | cons i ins ih => simp [logFrom, runFrom, ih]

@[simp] theorem log_nil (out : σ → ι → List ω) : m.log out [] = [] := rfl

@[simp] theorem log_snoc (out : σ → ι → List ω) (ins : List ι) (i : ι) :
    m.log out (ins ++ [i]) = m.log out ins ++ out (m.run ins) i := by
  simp [log, logFrom_append, logFrom, run]

def countFrom (p : σ → ι → Bool) : σ → List ι → Nat
  | _, [] => 0
  | s, i :: ins => (if p s i then 1 else 0) + countFrom p (m.next s i) ins

/-! ## Environments -/

/-- Every cycle of the run satisfies the environment condition `E`. -/
def Throughout (E : σ → ι → Prop) (ins : List ι) : Prop :=
  ∀ pre i post, ins = pre ++ i :: post → E (m.run pre) i

variable {m} {E : σ → ι → Prop}

theorem throughout_nil : m.Throughout E [] := by
  intro pre i post h
  simp at h

theorem cycle_snoc {ins pre post : List ι} {i j : ι} (h : ins ++ [i] = pre ++ j :: post) :
    (pre = ins ∧ j = i) ∨ ∃ post', ins = pre ++ j :: post' := by
  rcases List.eq_nil_or_concat post with rfl | ⟨post', k, rfl⟩
  · obtain ⟨hpre, hj⟩ := List.append_inj' h rfl
    exact .inl ⟨hpre.symm, (List.singleton_inj.mp hj).symm⟩
  · refine .inr ⟨post', ?_⟩
    rw [List.concat_eq_append, ← List.cons_append, ← List.append_assoc] at h
    exact (List.append_inj' h rfl).1

theorem throughout_snoc {ins : List ι} {i : ι} :
    m.Throughout E (ins ++ [i]) ↔ m.Throughout E ins ∧ E (m.run ins) i := by
  constructor
  · intro h
    refine ⟨fun pre j post hp => h pre j (post ++ [i]) ?_, h ins i [] rfl⟩
    simp [hp]
  · rintro ⟨h, hi⟩ pre j post hp
    rcases cycle_snoc hp with ⟨rfl, rfl⟩ | ⟨post', hins⟩
    · exact hi
    · exact h pre j post' hins

theorem Throughout.and {E' : σ → ι → Prop} {ins : List ι} (h : m.Throughout E ins)
    (h' : m.Throughout E' ins) : m.Throughout (fun s i => E s i ∧ E' s i) ins :=
  fun pre i post hp => ⟨h pre i post hp, h' pre i post hp⟩

theorem Throughout.take {pre post : List ι} (h : m.Throughout E (pre ++ post)) :
    m.Throughout E pre := by
  intro p i q hp
  exact h p i (q ++ post) (by simp [hp])

/-- `Throughout` by recursion on the cycles of the run, which makes it
decidable whenever the condition is. -/
def ThroughoutFrom (m : Machine σ ι) (E : σ → ι → Prop) : σ → List ι → Prop
  | _, [] => True
  | s, i :: ins => E s i ∧ m.ThroughoutFrom E (m.next s i) ins

theorem throughoutFrom_iff (s : σ) (ins : List ι) :
    m.ThroughoutFrom E s ins ↔
      ∀ pre i post, ins = pre ++ i :: post → E (m.runFrom s pre) i := by
  induction ins generalizing s with
  | nil => simp [ThroughoutFrom]
  | cons j ins ih =>
      rw [ThroughoutFrom, ih]
      constructor
      · rintro ⟨hj, h⟩ pre i post hp
        cases pre with
        | nil =>
            obtain ⟨rfl, -⟩ : j = i ∧ ins = post := by simpa using hp
            exact hj
        | cons k pre =>
            obtain ⟨rfl, hins⟩ : j = k ∧ ins = pre ++ i :: post := by simpa using hp
            exact h pre i post hins
      · intro h
        exact ⟨h [] j ins rfl, fun pre i post hp => h (j :: pre) i post (by simp [hp])⟩

theorem throughoutFrom_append (s : σ) (ins ins' : List ι) :
    m.ThroughoutFrom E s (ins ++ ins') ↔
      m.ThroughoutFrom E s ins ∧ m.ThroughoutFrom E (m.runFrom s ins) ins' := by
  induction ins generalizing s with
  | nil => exact (Iff.of_eq (true_and _)).symm
  | cons i ins ih => exact (and_congr_right fun _ => ih _).trans and_assoc.symm

theorem throughout_append {ins ins' : List ι} :
    m.Throughout E (ins ++ ins') ↔ m.Throughout E ins ∧ m.ThroughoutFrom E (m.run ins) ins' := by
  have hfrom (l : List ι) : m.Throughout E l ↔ m.ThroughoutFrom E m.init l :=
    (throughoutFrom_iff m.init l).symm
  rw [hfrom, hfrom, throughoutFrom_append]
  rfl

instance decidableThroughoutFrom (E : σ → ι → Prop) [∀ s i, Decidable (E s i)] :
    ∀ (s : σ) (ins : List ι), Decidable (m.ThroughoutFrom E s ins)
  | _, [] => .isTrue trivial
  | s, i :: ins =>
      have := decidableThroughoutFrom E (m.next s i) ins
      inferInstanceAs (Decidable (_ ∧ _))

instance (E : σ → ι → Prop) [∀ s i, Decidable (E s i)] (ins : List ι) :
    Decidable (m.Throughout E ins) :=
  decidable_of_iff _ (throughoutFrom_iff m.init ins)

/-! ## Rules -/

/-- A property of histories that holds at reset and is preserved by every
admitted cycle holds of every admitted run. -/
theorem run_induction {P : List ι → Prop} (nil : P [])
    (snoc : ∀ ins i, m.Throughout E ins → P ins → E (m.run ins) i → P (ins ++ [i])) :
    ∀ ins, m.Throughout E ins → P ins := by
  intro ins
  induction ins using List.reverseRecOn with
  | nil => exact fun _ => nil
  | append_singleton ins i ih =>
      intro h
      obtain ⟨h, hi⟩ := throughout_snoc.mp h
      exact snoc ins i h (ih h) hi

/-- A state predicate that holds at reset and is preserved by every admitted
cycle holds in every state an admitted run reaches. -/
theorem invariant {I : σ → Prop} (init : I m.init)
    (step : ∀ s i, I s → E s i → I (m.next s i)) :
    ∀ ins, m.Throughout E ins → I (m.run ins) := by
  refine run_induction (P := fun ins => I (m.run ins)) init ?_
  intro ins i _ hI hi
  simpa using step _ i hI hi

/-! ## Parts of a machine -/

section Part

variable {σ' ι' ω' : Type*} {m' : Machine σ' ι'} (part : σ → σ') (input : ι → ι')
  (hinit : part m.init = m'.init) (hnext : ∀ s i, part (m.next s i) = m'.next (part s) (input i))
include hinit hnext

/-- A part that depends on itself and on the inputs alone runs as a machine of its own. -/
theorem run_part (ins : List ι) : part (m.run ins) = m'.run (ins.map input) := by
  induction ins using List.reverseRecOn with
  | nil => exact hinit
  | append_singleton ins i ih =>
      rw [run_snoc, hnext, ih, List.map_append, List.map_singleton, run_snoc]

theorem log_part (out : σ' → ι' → List ω') (ins : List ι) :
    m.log (fun s i => out (part s) (input i)) ins = m'.log out (ins.map input) := by
  induction ins using List.reverseRecOn with
  | nil => rfl
  | append_singleton ins i ih =>
      rw [log_snoc, ih, List.map_append, List.map_singleton, log_snoc,
        run_part part input hinit hnext]

end Part

end Machine

end Cva6.Sync
