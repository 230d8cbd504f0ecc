import Mathlib.Tactic.Common

namespace Programs
variable {σ α β : Type}

-- A program that reads and changes a state. `none` is a run with no end: it waits
-- for an outside answer that never comes, or dies at a step that has no meaning.
abbrev Program (σ α : Type) := StateT σ Option α

def Ends (program : Program σ α) (before : σ) (value : α) (after : σ) : Prop :=
  program before = some (value,after)

def stuck : Program σ α := fun _ => none

theorem Ends.unique {program : Program σ α} (one : Ends program s a t) (two : Ends program s b u) :
    a = b ∧ t = u := by
  unfold Ends at one two
  rw [one] at two
  simpa using two

-- In the rules below an equation has the value or state left on its right, so that
-- substituting it keeps the names of the state a program was started in.
@[simp] theorem ends_pure : Ends (pure a : Program σ α) s b t ↔ a = b ∧ s = t := by
  change (some (a,s) = some (b,t)) ↔ _
  simp only [Option.some.injEq,Prod.mk.injEq]

@[simp] theorem ends_stuck : ¬ Ends (stuck : Program σ α) s a t := by
  simp [Ends,stuck]

@[simp] theorem ends_bind {program : Program σ α} {rest : α → Program σ β} :
    Ends (program >>= rest) s b t ↔ ∃ a m, Ends program s a m ∧ Ends (rest a) m b t := by
  change Option.bind (program s) (fun p => rest p.1 p.2) = some (b,t) ↔ _
  simp [Option.bind_eq_some_iff,Ends]

-- simp writes a bind that only changes the value as a map.
@[simp] theorem ends_map {program : Program σ α} {f : α → β} :
    Ends (f <$> program) s b t ↔ ∃ a, Ends program s a t ∧ f a = b := by
  rw [← bind_pure_comp,ends_bind]
  simp only [ends_pure]
  exact ⟨fun ⟨a,_,ran,same,rfl⟩ => ⟨a,ran,same⟩,fun ⟨a,ran,same⟩ => ⟨a,t,ran,same,rfl⟩⟩

theorem Ends.rest {program : Program σ α} {rest : α → Program σ β} (first : Ends program s a m) :
    Ends (program >>= rest) s b t ↔ Ends (rest a) m b t := by
  rw [ends_bind]
  constructor
  · rintro ⟨_,_,ran,later⟩
    obtain ⟨rfl,rfl⟩ := first.unique ran
    exact later
  · exact fun later => ⟨a,m,first,later⟩

def Halts (program : Program σ α) (s : σ) : Prop := ∃ value t, Ends program s value t

theorem halts_pure (value : α) (s : σ) : Halts (pure value : Program σ α) s :=
  ⟨value,s,ends_pure.mpr ⟨rfl,rfl⟩⟩

theorem Ends.halts {program : Program σ α} {rest : α → Program σ β} (first : Ends program s a m)
    (later : Halts (rest a) m) : Halts (program >>= rest) s := by
  obtain ⟨value,t,ran⟩ := later
  exact ⟨value,t,first.rest.mpr ran⟩

@[simp] theorem ends_get : Ends (get : Program σ σ) s a t ↔ s = a ∧ s = t := by
  change (some (s,s) = some (a,t)) ↔ _
  simp only [Option.some.injEq,Prod.mk.injEq]

theorem get_ends (s : σ) : Ends (get : Program σ σ) s s s := ends_get.mpr ⟨rfl,rfl⟩

@[simp] theorem ends_modify {f : σ → σ} {u : PUnit} : Ends (modify f : Program σ PUnit) s u t ↔ f s = t := by
  change (some (PUnit.unit,f s) = some (u,t)) ↔ _
  simp

theorem ends_ite {c : Prop} [Decidable c] {yes no : Program σ α} :
    Ends (if c then yes else no) s a t ↔ (c ∧ Ends yes s a t) ∨ (¬ c ∧ Ends no s a t) := by
  by_cases h : c <;> simp [h]

end Programs
