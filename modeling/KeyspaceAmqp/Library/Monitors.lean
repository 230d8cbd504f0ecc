import Mathlib.Tactic.Common

namespace Monitors
variable {φ κ : Type}

-- The phase a conversation is in after what was said, if the protocol allows each word of it.
def track (next : φ → κ → Option φ) (phase : φ) (said : List κ) : Option φ := said.foldlM next phase

variable {next : φ → κ → Option φ} {phase here there last : φ} {c : κ} {said before after : List κ}

@[simp] theorem track_nil : track next phase [] = some phase := rfl

@[simp] theorem track_cons : track next phase (c :: said) = (next phase c).bind fun there => track next there said := rfl

@[simp] theorem track_append : track next phase (before ++ after) =
    (track next phase before).bind fun here => track next here after := List.foldlM_append

theorem track_two (one : track next phase before = some here) (two : track next here after = some last) :
    track next phase (before ++ after) = some last := by
  rw [track_append,one]
  exact two

theorem track_split (tracked : track next phase (before ++ after) = some last) :
    ∃ here, track next phase before = some here ∧ track next here after = some last := by
  rw [track_append,Option.bind_eq_some_iff] at tracked
  exact tracked

theorem track_parts (tracked : track next phase (before ++ c :: after) = some last) : ∃ here there,
    track next phase before = some here ∧ next here c = some there ∧ track next there after = some last := by
  obtain ⟨here,begun,rest⟩ := track_split tracked
  rw [track_cons,Option.bind_eq_some_iff] at rest
  obtain ⟨there,taken,ended⟩ := rest
  exact ⟨here,there,begun,taken,ended⟩

-- A word that is allowed only where another kind of word leads comes right after one of
-- that kind.
theorem preceded (leads : κ → Prop) (tracked : track next phase (before ++ c :: after) = some last)
    (barred : next phase c = none) (only : ∀ p d q, next p d = some q → (next q c).isSome → leads d) :
    ∃ rest d, before = rest ++ [d] ∧ leads d := by
  obtain ⟨here,there,begun,taken,_⟩ := track_parts tracked
  rcases List.eq_nil_or_concat before with rfl | ⟨rest,d,rfl⟩
  · cases begun
    cases barred.symm.trans taken
  · rw [List.concat_eq_append] at begun ⊢
    obtain ⟨p,q,_,entered,ended⟩ := track_parts begun
    cases ended
    exact ⟨rest,d,rfl,only p d here entered (by rw [taken]; rfl)⟩

-- Where only one word is allowed, a conversation that does not stay there goes on with it.
theorem forced (only : ∀ d q, next phase d = some q → d = c ∧ q = there) (tracked : track next phase said = some last)
    (left : last ≠ phase) : ∃ rest, said = c :: rest ∧ track next there rest = some last := by
  cases said with
  | nil =>
    cases tracked
    exact absurd rfl left
  | cons d rest =>
    obtain ⟨q,taken,ended⟩ := Option.bind_eq_some_iff.mp tracked
    obtain ⟨rfl,rfl⟩ := only d q taken
    exact ⟨rest,rfl,ended⟩

theorem finished (none : ∀ d, next phase d = none) (tracked : track next phase said = some last) :
    said = [] ∧ last = phase := by
  cases said with
  | nil =>
    cases tracked
    exact ⟨rfl,rfl⟩
  | cons d rest =>
    rw [track_cons,none d] at tracked
    cases tracked

end Monitors
