import KeyspaceAmqp.Library.Programs
import Mathlib.Order.Defs.Unbundled

namespace Programs
variable {σ α β : Type} {R : σ → σ → Prop}

-- Every run of the program relates the state it started in to the one it leaves.
class Keeps (R : σ → σ → Prop) (program : Program σ α) : Prop where
  keeps : Ends program s a t → R s t

theorem keeps_modify {f : σ → σ} (related : ∀ s, R s (f s)) : Keeps R (modify f : Program σ PUnit) where
  keeps ran := ends_modify.mp ran ▸ related _

instance keeps_stuck : Keeps R (stuck : Program σ α) := ⟨fun ran => (ends_stuck ran).elim⟩

instance keeps_ite {c : Prop} [Decidable c] {yes no : Program σ α} [one : Keeps R yes] [two : Keeps R no] :
    Keeps R (if c then yes else no) where
  keeps ran := by
    rcases ends_ite.mp ran with ⟨_,ran⟩ | ⟨_,ran⟩
    · exact one.keeps ran
    · exact two.keeps ran

variable [IsPreorder σ R]

instance keeps_pure {value : α} : Keeps R (pure value : Program σ α) where
  keeps ran := by
    obtain ⟨_,rfl⟩ := ends_pure.mp ran
    exact Std.Refl.refl _

instance keeps_get : Keeps R (get : Program σ σ) where
  keeps ran := by
    obtain ⟨_,rfl⟩ := ends_get.mp ran
    exact Std.Refl.refl _

instance keeps_bind {program : Program σ α} {rest : α → Program σ β} [one : Keeps R program]
    [two : ∀ a, Keeps R (rest a)] : Keeps R (program >>= rest) where
  keeps ran := by
    obtain ⟨a,m,first,later⟩ := ends_bind.mp ran
    exact IsTrans.trans _ _ _ (one.keeps first) ((two a).keeps later)

end Programs
