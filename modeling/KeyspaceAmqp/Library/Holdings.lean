import KeyspaceAmqp.Library.Lives
import Mathlib.Data.Set.Insert

namespace Holdings
open Lives

inductive Use where
  | obtained
  | used
  | released
  deriving DecidableEq

abbrev Owned (account : List Use) : Prop := Alive .obtained .released account

def Settled (account : List Use) : Prop :=
  ∃ uses, (∀ use ∈ uses, use = .used) ∧ account = .obtained :: uses ++ [.released]

theorem Settled.released (settled : Settled account) : .released ∈ account := by
  obtain ⟨uses,_,rfl⟩ := settled
  simp

theorem settled_of_owned (owned : Owned account) : Settled (account ++ [.released]) := by
  obtain ⟨⟨uses,rfl,once⟩,kept⟩ := owned
  refine ⟨uses,?_,rfl⟩
  intro use member
  cases use with
  | used => rfl
  | obtained => exact absurd member once
  | released => exact absurd (List.mem_cons_of_mem _ member) kept

theorem unborn : ¬ Owned [] := by
  rintro ⟨⟨_,impossible,_⟩,_⟩
  cases impossible

variable {ι : Type} [DecidableEq ι] {number : ι → Nat} {log : List (ι × Use)} {held : Set ι}

-- What a log says of resources numbered from one supply: those in it were obtained above
-- the floor and up to the top, each has lived as it should, and those held are the ones
-- obtained and not yet released.
structure Books (number : ι → Nat) (floor : Nat) (log : List (ι × Use)) (held : Set ι) (top : Nat) : Prop where
  grown : floor ≤ top
  within : ∀ i, callsOn i log ≠ [] → floor < number i ∧ number i ≤ top
  lives : ∀ i, Life .obtained .released (callsOn i log)
  owned : ∀ i, i ∈ held ↔ Owned (callsOn i log)

theorem Books.nothing (number : ι → Nat) (floor : Nat) : Books number floor [] ∅ floor where
  grown := Nat.le_refl _
  within _ said := absurd rfl said
  lives _ := .unseen
  owned i := iff_of_false (Set.notMem_empty i) unborn

theorem Books.later (books : Books number floor log held top) (older : top ≤ top') : Books number floor log held top' :=
  ⟨books.grown.trans older,fun i said => (books.within i said).imp_right (·.trans older),books.lives,books.owned⟩

theorem Books.unseen (books : Books number floor log held top) (new : number i = top+1) : callsOn i log = [] := by
  by_contra seen
  have known := (books.within i seen).2
  omega

theorem Books.seen (books : Books number floor log held top) (member : i ∈ held) : callsOn i log ≠ [] := by
  intro unseen
  have owned := (books.owned i).mp member
  rw [unseen] at owned
  exact unborn owned

theorem Books.fresh (books : Books number floor log held top) (new : number i = top+1) : i ∉ held :=
  fun member => books.seen member (books.unseen new)

theorem Books.enter (books : Books number floor log held top) (older : top ≤ top')
    (inside : floor < number i ∧ number i ≤ top') (life : Life .obtained .released (callsOn i log ++ [use]))
    (mine : i ∈ held' ↔ Owned (callsOn i log ++ [use])) (theirs : ∀ j, j ≠ i → (j ∈ held' ↔ j ∈ held)) :
    Books number floor (log ++ [(i,use)]) held' top' := by
  have here : callsOn i (log ++ [(i,use)]) = callsOn i log ++ [use] := by
    rw [callsOn_append,callsOn_cons_same,callsOn_nil]
  have there (j : ι) (other : j ≠ i) : callsOn j (log ++ [(i,use)]) = callsOn j log := by
    have silent : callsOn j [(i,use)] = [] := callsOn_other other.symm [use]
    rw [callsOn_append,silent,List.append_nil]
  refine ⟨books.grown.trans older,?_,?_,?_⟩ <;> intro j <;> by_cases other : j = i
  · exact fun _ => other ▸ inside
  · rw [there j other]
    exact fun said => (books.within j said).imp_right (·.trans older)
  · rw [other,here]
    exact life
  · rw [there j other]
    exact books.lives j
  · rw [other,here]
    exact mine
  · rw [there j other,theirs j other]
    exact books.owned j

theorem Books.obtain (books : Books number floor log held top) (new : number i = top+1) :
    Books number floor (log ++ [(i,.obtained)]) (insert i held) (top+1) := by
  have owned : Owned (callsOn i log ++ [.obtained]) := by
    rw [books.unseen new]
    exact ⟨⟨[],rfl,by simp⟩,by simp⟩
  have grown := books.grown
  refine books.enter (Nat.le_succ _) ⟨by omega,by omega⟩ (.alive owned)
    (iff_of_true (Set.mem_insert i held) owned) ?_
  intro j other
  simp [other]

theorem Books.use (books : Books number floor log held top) (member : i ∈ held) :
    Books number floor (log ++ [(i,.used)]) held top := by
  have owned : Owned (callsOn i log ++ [.used]) := ((books.owned i).mp member).grow (by simp) (by simp)
  exact books.enter (Nat.le_refl _) (books.within i (books.seen member)) (.alive owned) (iff_of_true member owned) fun _ _ => Iff.rfl

theorem Books.release (books : Books number floor log held top) (member : i ∈ held) :
    Books number floor (log ++ [(i,.released)]) (held \ {i}) top := by
  refine books.enter (Nat.le_refl _) (books.within i (books.seen member)) (.ended ((books.owned i).mp member)) ?_ ?_
  · exact iff_of_false (by simp) fun owned => owned.kept (by simp)
  · intro j other
    simp [other]

theorem Books.settled (books : Books number floor log held top) :
    (∀ i, .obtained ∈ callsOn i log → Settled (callsOn i log)) ↔ held = ∅ := by
  constructor
  · intro settled
    refine Set.eq_empty_iff_forall_notMem.mpr fun i member => ?_
    have owned := (books.owned i).mp member
    obtain ⟨rest,born,_⟩ := owned.born
    exact owned.kept (settled i (by rw [born]; exact List.mem_cons_self)).released
  · rintro rfl i obtained
    have mine := books.owned i
    have life := books.lives i
    generalize callsOn i log = account at *
    cases life with
    | unseen => cases obtained
    | alive alive => exact absurd (mine.mpr alive) (Set.notMem_empty i)
    | ended alive => exact settled_of_owned alive

theorem Books.append (books : Books number floor log held top) (next : Books number top more held' top') :
    Books number floor (log ++ more) (held ∪ held') top' := by
  have alone (i : ι) : (callsOn i (log ++ more) = callsOn i log ∧ i ∉ held') ∨
      (callsOn i (log ++ more) = callsOn i more ∧ i ∉ held) := by
    rw [callsOn_append]
    by_cases late : callsOn i more = []
    · exact .inl ⟨by rw [late,List.append_nil],fun member => next.seen member late⟩
    · have early : callsOn i log = [] := by
        by_contra early
        have below := (books.within i early).2
        have above := (next.within i late).1
        omega
      exact .inr ⟨by rw [early,List.nil_append],fun member => books.seen member early⟩
  refine ⟨books.grown.trans next.grown,?_,?_,?_⟩ <;> intro i <;> rcases alone i with ⟨same,other⟩ | ⟨same,other⟩ <;> rw [same]
  · exact fun said => (books.within i said).imp_right (·.trans next.grown)
  · exact fun said => (next.within i said).imp_left (Nat.lt_of_le_of_lt books.grown)
  · exact books.lives i
  · exact next.lives i
  · simp [other,books.owned i]
  · simp [other,next.owned i]

end Holdings
