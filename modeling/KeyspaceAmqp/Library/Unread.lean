import KeyspaceAmqp.Library.Programs

namespace Programs
variable {σ α β : Type} {f : σ → σ}

-- The program neither reads nor writes what `f` changes: it runs on as if nothing were.
class Ignores (f : σ → σ) (program : Program σ α) : Prop where
  ignores : Ends program s a t → Ends program (f s) a (f t)

class Alike (a b : α) : Prop where
  same : a = b

instance (a : α) : Alike a a := ⟨rfl⟩

instance ignores_pure {value : α} : Ignores f (pure value : Program σ α) where
  ignores ran := by
    obtain ⟨rfl,rfl⟩ := ends_pure.mp ran
    exact ends_pure.mpr ⟨rfl,rfl⟩

instance ignores_stuck : Ignores f (stuck : Program σ α) := ⟨fun ran => (ends_stuck ran).elim⟩

instance ignores_bind {program : Program σ α} {rest : α → Program σ β} [one : Ignores f program]
    [two : ∀ a, Ignores f (rest a)] : Ignores f (program >>= rest) where
  ignores ran := by
    obtain ⟨a,m,first,later⟩ := ends_bind.mp ran
    exact ends_bind.mpr ⟨a,f m,one.ignores first,(two a).ignores later⟩

instance ignores_ite {c : Prop} [Decidable c] {yes no : Program σ α} [one : Ignores f yes] [two : Ignores f no] :
    Ignores f (if c then yes else no) where
  ignores ran := by
    rcases ends_ite.mp ran with ⟨holds,ran⟩ | ⟨fails,ran⟩
    · exact ends_ite.mpr (.inl ⟨holds,one.ignores ran⟩)
    · exact ends_ite.mpr (.inr ⟨fails,two.ignores ran⟩)

instance ignores_modify {g : σ → σ} [alike : ∀ s, Alike (g (f s)) (f (g s))] :
    Ignores f (modify g : Program σ PUnit) where
  ignores {s _ _} ran := ends_modify.mpr ((alike s).same.trans (congrArg f (ends_modify.mp ran)))

-- A state is read to go on in a way that is the same for both.
instance ignores_get {rest : σ → Program σ β} [alike : ∀ s, Alike (rest (f s)) (rest s)]
    [later : ∀ s, Ignores f (rest s)] : Ignores f ((get : Program σ σ) >>= rest) where
  ignores {s _ _} ran := by
    have ran := (get_ends s).rest.mp ran
    refine (get_ends (f s)).rest.mpr ?_
    rw [(alike s).same]
    exact (later s).ignores ran

end Programs
