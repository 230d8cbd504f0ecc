import Mathlib.Computability.Language

namespace Patterns
open Computability
variable {α : Type}

-- A token fits one letter, or with `many` any number of them.
structure Token (α : Type) where
  fits : α → Bool
  many : Bool

def letters (fits : α → Bool) : Language α := {word | ∃ a, word = [a] ∧ fits a = true}

def Token.language (token : Token α) : Language α :=
  if token.many then (letters token.fits)∗ else letters token.fits

def words (tokens : List (Token α)) : Language α := (tokens.map Token.language).prod

def Begins (language : Language α) (closed : Bool) (text : List α) : Prop :=
  ∃ found after, text = found ++ after ∧ found ∈ language ∧ (closed = true → after = [])

theorem begins_one {text : List α} : Begins 1 closed text ↔ (closed = true → text = []) := by
  constructor
  · rintro ⟨found,after,rfl,rfl,fully⟩
    exact fully
  · intro fully
    exact ⟨[],text,rfl,Language.nil_mem_one,fully⟩

theorem begins_add {one two : Language α} {text : List α} :
    Begins (one + two) closed text ↔ Begins one closed text ∨ Begins two closed text := by
  constructor
  · rintro ⟨found,after,rfl,member | member,fully⟩
    · exact .inl ⟨found,after,rfl,member,fully⟩
    · exact .inr ⟨found,after,rfl,member,fully⟩
  · rintro (⟨found,after,rfl,member,fully⟩ | ⟨found,after,rfl,member,fully⟩)
    · exact ⟨found,after,rfl,.inl member,fully⟩
    · exact ⟨found,after,rfl,.inr member,fully⟩

theorem begins_letter {rest : Language α} {text : List α} : Begins (letters fits * rest) closed text ↔
    ∃ a tail, text = a :: tail ∧ fits a = true ∧ Begins rest closed tail := by
  constructor
  · rintro ⟨found,after,rfl,member,fully⟩
    obtain ⟨_,⟨a,rfl,fit⟩,later,within,rfl⟩ := Language.mem_mul.mp member
    exact ⟨a,later ++ after,rfl,fit,later,after,rfl,within,fully⟩
  · rintro ⟨a,_,rfl,fit,later,after,rfl,within,fully⟩
    exact ⟨a :: later,after,rfl,Language.mem_mul.mpr ⟨[a],⟨a,rfl,fit⟩,later,within,rfl⟩,fully⟩

-- Either the star has ended or one more letter of it is read.
theorem begins_star {rest : Language α} {text : List α} : Begins ((letters fits)∗ * rest) closed text ↔
    Begins rest closed text ∨
      ∃ a tail, text = a :: tail ∧ fits a = true ∧ Begins ((letters fits)∗ * rest) closed tail := by
  have unfolded : (letters fits)∗ * rest = rest + letters fits * ((letters fits)∗ * rest) := by
    conv_lhs => rw [← Language.one_add_self_mul_kstar_eq_kstar]
    rw [add_mul,one_mul,mul_assoc]
  conv_lhs => rw [unfolded]
  rw [begins_add,begins_letter]

def Occurs (language : Language α) (closed : Bool) (text : List α) : Prop :=
  ∃ before rest, text = before ++ rest ∧ Begins language closed rest

theorem occurs_nil {language : Language α} : Occurs language closed [] ↔ Begins language closed [] := by
  constructor
  · rintro ⟨before,rest,split,begins⟩
    obtain ⟨rfl,rfl⟩ := List.append_eq_nil_iff.mp split.symm
    exact begins
  · intro begins
    exact ⟨[],[],rfl,begins⟩

theorem occurs_cons {language : Language α} {text : List α} : Occurs language closed (a :: text) ↔
    Begins language closed (a :: text) ∨ Occurs language closed text := by
  constructor
  · rintro ⟨_ | ⟨b,before⟩,rest,split,begins⟩
    · exact .inl (by rwa [split])
    · obtain ⟨rfl,rfl⟩ := List.cons.inj split
      exact .inr ⟨before,rest,rfl,begins⟩
  · rintro (begins | ⟨before,rest,rfl,begins⟩)
    · exact ⟨[],a :: text,rfl,begins⟩
    · exact ⟨a :: before,rest,rfl,begins⟩

end Patterns
