import Mathlib.Data.Finmap

namespace Heaps
variable {σ β κ : Type}

structure Heap (σ β : Type) where
  blocks : Finmap fun _ : Nat => β
  past : σ

def Heap.lookup (heap : Heap σ β) (p : Nat) : Option β := heap.blocks.lookup p

-- Where the next block goes: somewhere no block is, by anything that has come to pass. An
-- address given back may come again.
structure Allocator (σ β : Type) where
  take : σ → Finset Nat → β → Nat × σ
  give : σ → Nat → σ
  fresh : ∀ past live b, (take past live b).1 ∉ live

def Allocator.alloc (allocator : Allocator σ β) (heap : Heap σ β) (b : β) : Nat × Heap σ β :=
  let (p,past) := allocator.take heap.past heap.blocks.keys b
  (p,⟨heap.blocks.insert p b,past⟩)

-- What is not allocated cannot be given back: that has no outcome.
def Allocator.free (allocator : Allocator σ β) (heap : Heap σ β) (p : Nat) : Option (Heap σ β) :=
  if p ∈ heap.blocks then some ⟨heap.blocks.erase p,allocator.give heap.past p⟩ else none

def store (heap : Heap σ β) (p : Nat) (write : β → Option β) : Option (Heap σ β) := do
  let b ← heap.lookup p
  let written ← write b
  return {heap with blocks := heap.blocks.insert p written}

-- What an owner of the old addresses did to the heap to be the owner of the new ones: all
-- other blocks are as they were, what is given up is free, and what is new was free.
structure Exchanged (old new : Set Nat) (heap heap' : Heap σ β) : Prop where
  kept : ∀ p, p ∉ old → p ∉ new → heap'.lookup p = heap.lookup p
  freed : ∀ p ∈ old, p ∉ new → heap'.lookup p = none
  fresh : ∀ p ∈ new, p ∉ old → heap.lookup p = none

theorem Exchanged.refl (owned : Set Nat) (heap : Heap σ β) : Exchanged owned owned heap heap :=
  ⟨fun _ _ _ => rfl,fun _ here gone => absurd here gone,fun _ here away => absurd here away⟩

theorem Exchanged.trans {heap m heap' : Heap σ β} (one : Exchanged old mid heap m) (two : Exchanged mid new m heap') :
    Exchanged old new heap heap' := by
  refine ⟨?_,?_,?_⟩
  · intro p away gone
    by_cases between : p ∈ mid
    · exact (two.freed p between gone).trans (one.fresh p between away).symm
    · exact (two.kept p between gone).trans (one.kept p away between)
  · intro p here gone
    by_cases between : p ∈ mid
    · exact two.freed p between gone
    · exact (two.kept p between gone).trans (one.freed p here between)
  · intro p here away
    by_cases between : p ∈ mid
    · exact one.fresh p between away
    · exact (one.kept p away between).symm.trans (two.fresh p here between)

structure Owns (place : κ → Option Nat) (holds : κ → β → Prop) (heap : Heap σ β) : Prop where
  apart : ∀ k l p, place k = some p → place l = some p → k = l
  held : ∀ k p, place k = some p → ∃ b, heap.lookup p = some b ∧ holds k b

def places (place : κ → Option Nat) : Set Nat := fun p => ∃ k, place k = some p

theorem owns_none (holds : κ → β → Prop) (heap : Heap σ β) : Owns (fun _ => none) holds heap :=
  ⟨fun _ _ _ here => (by cases here),fun _ _ here => (by cases here)⟩

theorem Owns.beside {heap heap' : Heap σ β} (owns : Owns place holds heap)
    (same : ∀ p ∈ places place, heap'.lookup p = heap.lookup p) : Owns place holds heap' := by
  refine ⟨owns.apart,fun k p here => ?_⟩
  rw [same p ⟨k,here⟩]
  exact owns.held k p here

section Operations
variable [DecidableEq κ] {place : κ → Option Nat} {holds : κ → β → Prop} {heap : Heap σ β}

theorem Owns.free (owns : Owns place holds heap) (here : place k = some p) (allocator : Allocator σ β) :
    ∃ heap', allocator.free heap p = some heap' ∧ Owns (Function.update place k none) holds heap' ∧
      Exchanged (places place) (places (Function.update place k none)) heap heap' := by
  obtain ⟨b,found,_⟩ := owns.held k p here
  have elsewhere : ∀ l q, Function.update place k none l = some q → l ≠ k ∧ place l = some q := by
    intro l q there
    rw [Function.update_apply] at there
    split at there
    · cases there
    · exact ⟨‹_›,there⟩
  have gone : ∀ q, q ∈ places place → q ∉ places (Function.update place k none) → q = p := by
    rintro q ⟨l,there⟩ away
    by_contra other
    have kept : l ≠ k := by
      intro same
      rw [same,here] at there
      exact other (Option.some.inj there).symm
    exact away ⟨l,(Function.update_of_ne kept _ _).trans there⟩
  have others : ∀ q ≠ p, (heap.blocks.erase p).lookup q = heap.lookup q := fun q other => Finmap.lookup_erase_ne other
  refine ⟨_,if_pos (Finmap.mem_of_lookup_eq_some found),⟨?_,?_⟩,⟨?_,?_,?_⟩⟩
  · intro l m q one two
    exact owns.apart l m q (elsewhere l q one).2 (elsewhere m q two).2
  · intro l q there
    obtain ⟨other,there⟩ := elsewhere l q there
    have apart : q ≠ p := fun same => other (owns.apart l k p (same ▸ there) here)
    obtain ⟨b,found,holds⟩ := owns.held l q there
    exact ⟨b,(others q apart).trans found,holds⟩
  · intro q away _
    exact others q fun same => away ⟨k,same ▸ here⟩
  · intro q owned away
    rw [gone q owned away]
    exact Finmap.lookup_erase p heap.blocks
  · rintro q ⟨l,there⟩ away
    exact absurd ⟨l,(elsewhere l q there).2⟩ away

theorem Owns.alloc (owns : Owns place holds heap) (none : place k = none) (allocator : Allocator σ β)
    {write : β → Option β} (wrote : write b = some written) {good : β → Prop} (fine : good written) :
    ∃ heap', store (allocator.alloc heap b).2 (allocator.alloc heap b).1 write = some heap' ∧
      Owns (Function.update place k (some (allocator.alloc heap b).1)) (Function.update holds k good) heap' ∧
      Exchanged (places place) (places (Function.update place k (some (allocator.alloc heap b).1))) heap heap' := by
  let p := (allocator.take heap.past heap.blocks.keys b).1
  have free : heap.lookup p = .none := by
    rw [Heap.lookup,Finmap.lookup_eq_none,← Finmap.mem_keys]
    exact allocator.fresh _ _ _
  have taken : ∀ l q, place l = some q → q ≠ p := by
    intro l q there same
    obtain ⟨_,found,_⟩ := owns.held l q there
    rw [same,free] at found
    cases found
  have cases_of : ∀ l q, Function.update place k (some p) l = some q → (l = k ∧ q = p) ∨ (l ≠ k ∧ place l = some q) := by
    intro l q there
    rw [Function.update_apply] at there
    split at there
    · exact .inl ⟨‹_›,(Option.some.inj there).symm⟩
    · exact .inr ⟨‹_›,there⟩
  let heap' : Heap σ β := {(allocator.alloc heap b).2 with blocks := (heap.blocks.insert p b).insert p written}
  have others : ∀ q ≠ p, heap'.lookup q = heap.lookup q := by
    intro q other
    rw [Heap.lookup,Finmap.lookup_insert_of_ne _ other,Finmap.lookup_insert_of_ne _ other,Heap.lookup]
  refine ⟨heap',?_,⟨?_,?_⟩,⟨?_,?_,?_⟩⟩
  · simp [store,Allocator.alloc,Heap.lookup,Finmap.lookup_insert,wrote,p,heap']
  · intro l m q one two
    rcases cases_of l q one with ⟨rfl,rfl⟩ | ⟨_,one⟩
    · rcases cases_of m p two with ⟨rfl,_⟩ | ⟨_,two⟩
      · rfl
      · exact absurd rfl (taken m p two)
    · rcases cases_of m q two with ⟨_,rfl⟩ | ⟨_,two⟩
      · exact absurd rfl (taken l p one)
      · exact owns.apart l m q one two
  · intro l q there
    rcases cases_of l q there with ⟨rfl,rfl⟩ | ⟨other,there⟩
    · exact ⟨written,Finmap.lookup_insert _,by rwa [Function.update_self]⟩
    · rw [others q (taken l q there),Function.update_of_ne other]
      exact owns.held l q there
  · intro q _ away
    exact others q fun same => away ⟨k,by rw [Function.update_self,same]; rfl⟩
  · rintro q ⟨l,there⟩ away
    refine absurd ⟨l,?_⟩ away
    have other : l ≠ k := by
      rintro rfl
      cases none.symm.trans there
    rw [Function.update_of_ne other,there]
  · rintro q ⟨l,there⟩ away
    rcases cases_of l q there with ⟨_,rfl⟩ | ⟨_,there⟩
    · exact free
    · exact absurd ⟨l,there⟩ away

end Operations

end Heaps
