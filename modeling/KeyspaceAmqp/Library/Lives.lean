import Mathlib.Tactic.Common

namespace Lives
variable {ι κ : Type} [DecidableEq ι]

def callsOn (i : ι) (log : List (ι × κ)) : List κ := log.filterMap fun p => if p.1 = i then some p.2 else none

@[simp] theorem callsOn_nil (i : ι) : callsOn i ([] : List (ι × κ)) = [] := rfl

@[simp] theorem callsOn_append (i : ι) (log later : List (ι × κ)) :
    callsOn i (log ++ later) = callsOn i log ++ callsOn i later := List.filterMap_append

theorem callsOn_cons_same (i : ι) (c : κ) (log : List (ι × κ)) : callsOn i ((i,c) :: log) = c :: callsOn i log := by
  simp [callsOn]

theorem callsOn_same (i : ι) (said : List κ) : callsOn i (said.map fun c => (i,c)) = said := by
  induction said with
  | nil => rfl
  | cons c rest ih => rw [List.map_cons,callsOn_cons_same,ih]

theorem callsOn_other {i j : ι} (other : j ≠ i) (said : List κ) : callsOn i (said.map fun c => (j,c)) = [] := by
  simp [callsOn,other]

theorem mem_callsOn {log : List (ι × κ)} : c ∈ callsOn i log ↔ (i,c) ∈ log := by
  simp only [callsOn,List.mem_filterMap,Option.ite_none_right_eq_some,Option.some.injEq]
  constructor
  · rintro ⟨p,member,rfl,rfl⟩
    exact member
  · intro member
    exact ⟨(i,c),member,rfl,rfl⟩

section Life
variable (create destroy : κ)

-- Made by the first call, which was the only one of its kind, and not destroyed since.
structure Alive (said : List κ) : Prop where
  born : ∃ rest, said = create :: rest ∧ create ∉ rest
  kept : destroy ∉ said

inductive Life : List κ → Prop where
  | unseen : Life []
  | alive (alive : Alive create destroy said) : Life said
  | ended (alive : Alive create destroy said) : Life (said ++ [destroy])

end Life

variable {create destroy : κ}

theorem Alive.grow (alive : Alive create destroy said) (once : create ∉ more) (kept : destroy ∉ more) :
    Alive create destroy (said ++ more) := by
  obtain ⟨⟨rest,rfl,first⟩,before⟩ := alive
  exact ⟨⟨rest ++ more,rfl,by simp [first,once]⟩,fun member => (List.mem_append.mp member).elim before kept⟩

theorem Alive.inside (alive : Alive create destroy (before ++ c :: after)) :
    (c = create → before = []) ∧ (c ≠ create → Alive create destroy before) := by
  obtain ⟨⟨rest,parts,once⟩,kept⟩ := alive
  cases before with
  | nil =>
    obtain ⟨rfl,_⟩ := List.cons_eq_cons.mp parts
    exact ⟨fun _ => rfl,fun other => absurd rfl other⟩
  | cons first before =>
    obtain ⟨rfl,rfl⟩ := List.cons_eq_cons.mp parts
    refine ⟨fun same => absurd (by simp [same]) once,fun _ => ⟨⟨before,rfl,fun member => once (by simp [member])⟩,?_⟩⟩
    intro member
    exact kept (List.mem_append_left _ member)

theorem Life.inside (life : Life create destroy (before ++ c :: after)) :
    (c = create → before = []) ∧ (c ≠ create → Alive create destroy before) := by
  generalize parts : before ++ c :: after = said at life
  cases life with
  | unseen => simp at parts
  | alive alive =>
    subst parts
    exact alive.inside
  | @ended said alive =>
    rcases List.eq_nil_or_concat after with rfl | ⟨rest,last,rfl⟩
    · obtain ⟨rfl,same⟩ := List.append_inj' parts rfl
      cases same
      obtain ⟨⟨rest,rfl,_⟩,kept⟩ := id alive
      exact ⟨fun same => absurd (by simp [same]) kept,fun _ => alive⟩
    · rw [List.concat_eq_append,← List.cons_append,← List.append_assoc] at parts
      obtain ⟨rfl,_⟩ := List.append_inj' parts rfl
      exact alive.inside

theorem Life.count_destroy [DecidableEq κ] (life : Life create destroy said) : said.count destroy ≤ 1 := by
  cases life with
  | unseen => exact Nat.zero_le _
  | alive alive => simp [List.count_eq_zero.mpr alive.kept]
  | ended alive => simp [List.count_append,List.count_eq_zero.mpr alive.kept]

end Lives
