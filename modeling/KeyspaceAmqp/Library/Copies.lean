import Mathlib.Logic.Function.Basic

namespace Copies

inductive Side where
  | left
  | right
  deriving DecidableEq

def Side.other : Side → Side
  | .left => .right
  | .right => .left

theorem Side.eq_or_other (a b : Side) : a = b ∨ a = b.other := by
  cases a <;> cases b <;> simp [Side.other]

theorem Side.other_ne (side : Side) : side.other ≠ side := by
  cases side <;> decide

-- What two copies of a queue have to do with each other: nothing, since one was copied
-- to the other; one sent of what they share; or each holds what was sent already.
inductive Share where
  | apart
  | shared
  | sent (sender : Side)
  | stale
  deriving DecidableEq

def Share.Fresh (side : Side) : Share → Prop
  | .apart | .shared => True
  | .sent sender => sender = side
  | .stale => False

instance (side : Side) (share : Share) : Decidable (share.Fresh side) := by
  cases share <;> unfold Share.Fresh <;> infer_instance

def Share.sends (side : Side) : Share → Share
  | .shared => .sent side
  | share => share

def Share.copied (source : Side) (empty : Bool) (share : Share) : Share :=
  if empty then .apart else if share.Fresh source then .shared else .stale

-- With so many of one body at either side, at most `bound` may yet go out.
def Share.Covers (many : Side → Nat) (bound : Nat) : Share → Prop
  | .apart => many .left + many .right ≤ bound
  | .shared => ∀ side, many side ≤ bound
  | .sent sender => many sender ≤ bound
  | .stale => True

variable {share : Share} {many : Side → Nat} {side : Side}

theorem sum_sides (many : Side → Nat) (side : Side) : many .left + many .right = many side + many side.other := by
  cases side
  · rfl
  · exact Nat.add_comm _ _

theorem sum_updated (many : Side → Nat) (side : Side) (n : Nat) :
    Function.update many side n .left + Function.update many side n .right = n + many side.other := by
  rw [sum_sides _ side,Function.update_self,Function.update_of_ne side.other_ne]

theorem covers_keeps (covers : share.Covers many bound) (kept : n ≤ many side + more) :
    share.Covers (Function.update many side n) (bound + more) := by
  have one (either : Side) (fits : many either ≤ bound) : Function.update many side n either ≤ bound + more := by
    by_cases same : either = side
    · subst same
      rw [Function.update_self]
      omega
    · rw [Function.update_of_ne same]
      omega
  cases share with
  | apart =>
    have before := sum_sides many side
    simp only [Share.Covers,sum_updated] at covers ⊢
    omega
  | shared => exact fun either => one either (covers either)
  | sent sender => exact one sender covers
  | stale => trivial

theorem covers_sends (covers : share.Covers many bound) (fresh : share.Fresh side) (sent : n + out ≤ many side + more) :
    ∃ rest, (share.sends side).Covers (Function.update many side n) rest ∧ rest + out ≤ bound + more := by
  cases share with
  | apart =>
    have before := sum_sides many side
    refine ⟨n + many side.other,Nat.le_of_eq (sum_updated many side n),?_⟩
    simp only [Share.Covers] at covers
    omega
  | shared =>
    have fits := covers side
    exact ⟨n,by simp [Share.sends,Share.Covers],by omega⟩
  | sent sender =>
    cases fresh
    have fits : many side ≤ bound := covers
    exact ⟨n,by simp [Share.sends,Share.Covers],by omega⟩
  | stale => exact fresh.elim

theorem covers_copied (covers : share.Covers many bound) (source : Side) (none : empty = true → many source = 0) :
    (share.copied source empty).Covers (fun _ => many source) bound := by
  cases empty with
  | true => simp [Share.copied,Share.Covers,none rfl]
  | false =>
    by_cases fresh : share.Fresh source
    · have fits : many source ≤ bound := by
        cases share with
        | apart =>
          have both := sum_sides many source
          simp only [Share.Covers] at covers
          omega
        | shared => exact covers source
        | sent sender => cases fresh; exact covers
        | stale => exact fresh.elim
      simp only [Share.copied,fresh,Bool.false_eq_true,↓reduceIte]
      exact fun _ => fits
    · simp [Share.copied,fresh,Share.Covers]

end Copies
