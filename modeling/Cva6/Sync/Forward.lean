import Mathlib.Data.List.Forall2
import Mathlib.Logic.Function.Basic
/-!
# Operand forwarding

A pipeline issues and retires items in order. An item may write one register and
records what it read. `bypass` is what the items behind it see: the register has
the item's value, which may not be known yet. `Served` says that every item read
what the items in front of it and the register file provide. An item that is a
`barrier` takes everything behind it down with it, so nothing is claimed there.
-/

namespace Cva6.Sync.Forward

variable {ρ ν : Type*} [DecidableEq ρ]

structure Item (ρ ν : Type*) where
  dest : Option ρ
  value : Option ν
  reads : List (ρ × ν)
  barrier : Bool

/-- What is known of each register. -/
abbrev Env (ρ ν : Type*) := ρ → Option ν

def bypass (env : Env ρ ν) (it : Item ρ ν) : Env ρ ν :=
  match it.dest with
  | some r => Function.update env r it.value
  | none => env

/-- Every item up to the first barrier read values its environment knows. -/
def Served (env : Env ρ ν) : List (Item ρ ν) → Prop
  | [] => True
  | it :: l => (∀ p ∈ it.reads, env p.1 = some p.2) ∧ (it.barrier = false → Served (bypass env it) l)

def Extends (env env' : Env ρ ν) : Prop := ∀ r v, env r = some v → env' r = some v

/-- An item may learn its value, become a barrier and withdraw reads. -/
structure Advances (it it' : Item ρ ν) : Prop where
  dest : it'.dest = it.dest
  value : ∀ v, it.value = some v → it'.value = some v
  reads : it'.reads ⊆ it.reads
  barrier : it.barrier = true → it'.barrier = true

theorem Extends.bypass {env env' : Env ρ ν} {it it' : Item ρ ν} (h : Extends env env')
    (ha : Advances it it') : Extends (bypass env it) (bypass env' it') := by
  intro r v hv
  unfold Forward.bypass at hv ⊢
  rw [ha.dest]
  cases hd : it.dest with
  | none =>
      rw [hd] at hv
      exact h r v hv
  | some d =>
      rw [hd] at hv
      by_cases hr : r = d
      · subst hr
        simp only [Function.update_self] at hv ⊢
        exact ha.value v hv
      · simp only [Function.update_of_ne hr] at hv ⊢
        exact h r v hv

omit [DecidableEq ρ] in
theorem Advances.refl (it : Item ρ ν) : Advances it it :=
  ⟨rfl, fun _ h => h, List.Subset.refl _, id⟩

omit [DecidableEq ρ] in
theorem Extends.trans {env env' env'' : Env ρ ν} (h : Extends env env')
    (h' : Extends env' env'') : Extends env env'' :=
  fun r v hv => h' r v (h r v hv)

theorem Extends.foldl_bypass {env env' : Env ρ ν} (h : Extends env env')
    (l : List (Item ρ ν)) : Extends (l.foldl Forward.bypass env) (l.foldl Forward.bypass env') := by
  induction l generalizing env env' with
  | nil => exact h
  | cons it l ih => exact ih (h.bypass (.refl it))

theorem Served.mono {l l' : List (Item ρ ν)} (hl : List.Forall₂ Advances l l') :
    ∀ {env env' : Env ρ ν}, Extends env env' → Served env l → Served env' l' := by
  induction hl with
  | nil => exact fun _ _ => trivial
  | cons ha _ ih =>
      rintro env env' henv ⟨hreads, hrest⟩
      refine ⟨fun p hp => henv _ _ (hreads p (ha.reads hp)), ?_⟩
      intro hb
      refine ih (henv.bypass ha) (hrest ?_)
      by_contra hne
      simp [ha.barrier (by simpa using hne)] at hb

theorem served_append {env : Env ρ ν} {l l' : List (Item ρ ν)} :
    Served env (l ++ l') ↔
      Served env l ∧ ((∀ it ∈ l, it.barrier = false) → Served (l.foldl bypass env) l') := by
  induction l generalizing env with
  | nil => simp [Served]
  | cons it l ih =>
      simp only [List.cons_append, Served, ih, List.foldl_cons, List.forall_mem_cons]
      constructor
      · rintro ⟨hreads, h⟩
        exact ⟨⟨hreads, fun hb => (h hb).1⟩, fun hb => (h hb.1).2 hb.2⟩
      · rintro ⟨⟨hreads, h⟩, h'⟩
        exact ⟨hreads, fun hb => ⟨h hb, fun hl => h' ⟨hb, hl⟩⟩⟩

theorem foldl_bypass_of_forall_ne {env : Env ρ ν} {l : List (Item ρ ν)} {r : ρ}
    (h : ∀ it ∈ l, it.dest ≠ some r) : l.foldl bypass env r = env r := by
  induction l generalizing env with
  | nil => rfl
  | cons it l ih =>
      obtain ⟨hit, hl⟩ := List.forall_mem_cons.mp h
      rw [List.foldl_cons, ih hl, bypass]
      cases hd : it.dest with
      | none => rfl
      | some d =>
          refine Function.update_of_ne ?_ _ _
          rintro rfl
          exact hit hd

theorem foldl_bypass_of_forall_eq {env : Env ρ ν} {l : List (Item ρ ν)} {r : ρ} {v : ν}
    (h : ∀ it ∈ l, it.dest = some r → it.value = some v)
    (henv : env r = some v ∨ ∃ it ∈ l, it.dest = some r) : l.foldl bypass env r = some v := by
  induction l generalizing env with
  | nil =>
      rcases henv with henv | ⟨it, hit, -⟩
      · exact henv
      · cases hit
  | cons it l ih =>
      obtain ⟨hit, hl⟩ := List.forall_mem_cons.mp h
      refine ih hl ?_
      by_cases hd : it.dest = some r
      · left
        simp only [bypass, hd, Function.update_self]
        exact hit hd
      · rcases henv with henv | ⟨it', hit', hd'⟩
        · left
          rw [← henv]
          exact foldl_bypass_of_forall_ne (l := [it]) (by simpa using hd)
        · rcases List.mem_cons.mp hit' with rfl | hmem
          · exact absurd hd' hd
          · exact .inr ⟨it', hmem, hd'⟩

/-! ## Retiring -/

def write (regs : ρ → ν) : Option (ρ × ν) → ρ → ν
  | some (r, v) => Function.update regs r v
  | none => regs

theorem write_of_ne {regs : ρ → ν} {w : Option (ρ × ν)} {r : ρ} (h : ∀ p ∈ w, p.1 ≠ r) :
    write regs w r = regs r := by
  cases w with
  | none => rfl
  | some p => exact Function.update_of_ne (Ne.symm (h p rfl)) _ _

/-- A retired item has written its value, or one that nobody could know before. -/
theorem extends_write {regs : ρ → ν} {it : Item ρ ν} {w : Option (ρ × ν)}
    (hdest : w.map Prod.fst = it.dest)
    (hvalue : ∀ v, it.value = some v → ∀ p ∈ w, p.2 = v) :
    Extends (bypass (some ∘ regs) it) (some ∘ write regs w) := by
  intro r v hv
  unfold bypass at hv
  cases w with
  | none =>
      rw [← hdest] at hv
      exact hv
  | some p =>
      rw [← hdest] at hv
      simp only [Option.map_some] at hv
      by_cases hr : r = p.1
      · subst hr
        rw [Function.update_self] at hv
        have := hvalue v hv p rfl
        simp [write, this]
      · rw [Function.update_of_ne hr] at hv
        simpa [write, Function.update_of_ne hr] using hv

end Cva6.Sync.Forward
