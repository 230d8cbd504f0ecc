import KeyspaceAmqp.Library.Unread

namespace Programs
variable {σ ι S α β : Type}

-- Where a program's answers come from: how they are laid before it in its state, and
-- which of them a source can give next and what it is afterwards.
structure Supply (σ ι S : Type) where
  load : List ι → σ → σ
  Gives : S → List ι → S → Prop
  nothing : Gives source [] source
  append : Gives source first middle → Gives middle second last → Gives source (first ++ second) last

variable {supply : Supply σ ι S}

-- Started here, with this source, the program ends, on answers of the source and no more.
def Served (supply : Supply σ ι S) (program : Program σ α) (s : σ) (source : S) : Prop :=
  ∃ answers left value t, supply.Gives source answers left ∧
    ∀ rest, Ends program (supply.load (answers ++ rest) s) value (supply.load rest t)

theorem served_pure (value : α) (s : σ) (source : S) : Served supply (pure value) s source :=
  ⟨[],source,value,s,supply.nothing,fun _ => ends_pure.mpr ⟨rfl,rfl⟩⟩

theorem Served.bind {program : Program σ α} {rest : α → Program σ β} (first : Served supply program s source)
    (later : ∀ answers value t left, supply.Gives source answers left →
      (∀ more, Ends program (supply.load (answers ++ more) s) value (supply.load more t)) →
      Served supply (rest value) t left) : Served supply (program >>= rest) s source := by
  obtain ⟨answers,middle,a,m,given,ran⟩ := first
  obtain ⟨more,left,b,t,given',ran'⟩ := later answers a m middle given ran
  refine ⟨answers ++ more,left,b,t,supply.append given given',fun final => ?_⟩
  rw [List.append_assoc]
  exact ends_bind.mpr ⟨a,_,ran _,ran' final⟩

theorem served_aside {program : Program σ α} {rest : α → Program σ β}
    (aside : ∀ answers, Ends program (supply.load answers s) value (supply.load answers t))
    (later : Served supply (rest value) t source) : Served supply (program >>= rest) s source := by
  obtain ⟨answers,left,b,u,given,ran⟩ := later
  exact ⟨answers,left,b,u,given,fun more => ends_bind.mpr ⟨value,_,aside _,ran more⟩⟩

class Feeds (supply : Supply σ ι S) (program : Program σ α) : Prop where
  served (s : σ) (source : S) : Served supply program s source

instance feeds_pure {value : α} : Feeds supply (pure value : Program σ α) := ⟨served_pure value⟩

instance feeds_bind {program : Program σ α} {rest : α → Program σ β} [one : Feeds supply program]
    [two : ∀ a, Feeds supply (rest a)] : Feeds supply (program >>= rest) where
  served s source := (one.served s source).bind fun _ value t left _ _ => (two value).served t left

instance feeds_ite {c : Prop} [Decidable c] {yes no : Program σ α} [one : Feeds supply yes] [two : Feeds supply no] :
    Feeds supply (if c then yes else no) where
  served s source := by
    split
    · exact one.served s source
    · exact two.served s source

instance feeds_modify {g : σ → σ} [alike : ∀ answers s, Alike (g (supply.load answers s)) (supply.load answers (g s))] :
    Feeds supply (modify g : Program σ PUnit) where
  served s source := ⟨[],source,(),g s,supply.nothing,fun rest => ends_modify.mpr (alike rest s).same⟩

theorem served_get {rest : σ → Program σ β} (same : ∀ answers, rest (supply.load answers s) = rest s)
    (later : Served supply (rest s) s source) : Served supply ((get : Program σ σ) >>= rest) s source := by
  obtain ⟨answers,left,value,t,given,ran⟩ := later
  refine ⟨answers,left,value,t,given,fun more => (get_ends _).rest.mpr ?_⟩
  rw [same]
  exact ran more

instance feeds_get {rest : σ → Program σ β} [alike : ∀ answers s, Alike (rest (supply.load answers s)) (rest s)]
    [later : ∀ s, Feeds supply (rest s)] : Feeds supply ((get : Program σ σ) >>= rest) where
  served s source := served_get (fun answers => (alike answers s).same) ((later s).served s source)

end Programs
