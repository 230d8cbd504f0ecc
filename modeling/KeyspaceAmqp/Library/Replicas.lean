import KeyspaceAmqp.Library.Interleavings
import KeyspaceAmqp.Library.Links

namespace Links
open Paths Interleavings
variable {ι σ ℓ μ δ ω : Type} [DecidableEq ι]

-- What a node comes to hear at a happening, and of whom: what it says itself, and what
-- comes to it.
def Kind.hears (kind : Kind σ ℓ μ δ) (j : ι) (h : Happening ι σ ℓ μ δ) : List (ι × μ) := match h.label with
  | .acts i _ => if i = j then (kind.sends (h.after.node j)).map fun message => (j,message) else []
  | .arrives i k _ => if k = j then (h.before.link i j).head?.toList.map fun message => (i,message) else []
  | .drops _ _ => []

def Kind.heard (kind : Kind σ ℓ μ δ) (j : ι) (hs : List (Happening ι σ ℓ μ δ)) : List (ι × μ) := hs.flatMap (kind.hears j)

structure Replicates (kind : Kind σ ℓ μ δ) (view : σ → ω) (apply : ω → μ → ω) (h : Happening ι σ ℓ μ δ) : Prop where
  acts : ∀ i label, h.label = .acts i label →
    view (h.after.node i) = (kind.sends (h.after.node i)).foldl apply (view (h.before.node i))
  arrives : ∀ i j around message rest, h.label = .arrives i j around → h.before.link i j = message :: rest →
    view (h.after.node j) = apply (view (h.before.node j)) message ∧ kind.sends (h.after.node j) = []

variable {kind : Kind σ ℓ μ δ} {view : σ → ω} {apply : ω → μ → ω} {h : Happening ι σ ℓ μ δ} {hs : List (Happening ι σ ℓ μ δ)}

omit [DecidableEq ι] in
theorem Led.replicates (led : Led kind view apply a h) : Replicates kind view apply h :=
  ⟨fun i label same => (led.acts i label same).1,led.arrives⟩

theorem heard_snoc (kind : Kind σ ℓ μ δ) (j : ι) (hs : List (Happening ι σ ℓ μ δ)) (h : Happening ι σ ℓ μ δ) :
    kind.heard j (hs ++ [h]) = kind.heard j hs ++ kind.hears j h := by
  simp [Kind.heard]

theorem view_step (went : kind.step h.before h.label = some h.after) (replicates : Replicates kind view apply h) (j : ι) :
    view (h.after.node j) = outcome apply (view (h.before.node j)) (kind.hears j h) := by
  rcases step_cases went with ⟨i,label,s,same,_,_,after⟩ | ⟨i,k,around,message,rest,s,same,waiting,_,after⟩ |
    ⟨i,k,message,rest,same,waiting,after⟩
  · by_cases here : i = j
    · subst here
      rw [replicates.acts i label same]
      simp [outcome,Kind.hears,same,Function.comp_def]
    · simp [outcome,Kind.hears,same,after,here,Ne.symm here]
  · by_cases here : k = j
    · subst here
      rw [(replicates.arrives i k around message rest same waiting).1]
      simp [outcome,Kind.hears,same,waiting]
    · simp [outcome,Kind.hears,same,after,here,Ne.symm here]
  · simp [outcome,Kind.hears,same,after]

-- A node's view is what all it has heard comes to, in the order it heard it.
theorem view_path (path : Path kind.step start hs last) (replicates : ∀ h ∈ hs, Replicates kind view apply h) (j : ι) :
    view (last.node j) = outcome apply (view (start.node j)) (kind.heard j hs) := by
  refine path.carry (fun done net => view (net.node j) = outcome apply (view (start.node j)) (kind.heard j done))
    (Replicates kind view apply) rfl ?_ replicates
  intro done h _ went fine old
  rw [view_step went fine j,old,heard_snoc,outcome_append]

theorem share_arrived (hs : List (Happening ι σ ℓ μ δ)) {i j : ι} (other : i ≠ j) :
    share i (kind.heard j hs) = arrived i j hs := by
  induction hs using List.reverseRecOn with
  | nil => rfl
  | append_singleton hs h ih =>
    rw [heard_snoc,share_append,ih,arrived,arrived,oldest_snoc]
    congr 1
    cases label : h.label with
    | acts k _ =>
      by_cases here : k = j <;> simp [Kind.hears,label,Occurrence.delivers,here,other.symm]
    | arrives k l around =>
      by_cases there : l = j
      · by_cases whom : k = i
        · subst whom
          simp [Kind.hears,label,Occurrence.delivers,there]
        · simp [Kind.hears,label,Occurrence.delivers,there,whom]
      · simp [Kind.hears,label,Occurrence.delivers,there]
    | drops k l => simp [Kind.hears,label,Occurrence.delivers]

theorem own_link (went : kind.step h.before h.label = some h.after) (empty : h.before.link j j = []) :
    h.after.link j j = [] := by
  rcases step_cases went with ⟨i,label,s,same,_,_,after⟩ | ⟨i,k,around,message,rest,s,same,waiting,_,after⟩ |
    ⟨i,k,message,rest,same,waiting,after⟩
  · simp [after,left_link,empty]
  · have elsewhere : ¬ (j = i ∧ j = k) := by
      rintro ⟨rfl,rfl⟩
      cases empty.symm.trans waiting
    simp [after,left_link,shortened_link,elsewhere,empty]
  · have elsewhere : ¬ (j = i ∧ j = k) := by
      rintro ⟨rfl,rfl⟩
      cases empty.symm.trans waiting
    simp [after,shortened_link,elsewhere,empty]

theorem share_said (path : Path kind.step start hs last) (replicates : ∀ h ∈ hs, Replicates kind view apply h)
    (empty : start.link j j = []) : share j (kind.heard j hs) = kind.said j hs := by
  refine (path.carry (fun done net => net.link j j = [] ∧ share j (kind.heard j done) = kind.said j done)
    (Replicates kind view apply) ⟨empty,rfl⟩ ?_ replicates).2
  rintro done h _ went fine ⟨clear,old⟩
  refine ⟨own_link went clear,?_⟩
  rw [heard_snoc,share_append,old,said_snoc]
  congr 1
  rcases step_cases went with ⟨i,label,s,same,_,_,after⟩ | ⟨i,k,around,message,rest,s,same,waiting,_,after⟩ |
    ⟨i,k,message,rest,same,waiting,after⟩
  · by_cases here : i = j <;> simp [Kind.hears,Kind.taken,same,here]
  · have silent := (fine.arrives i k around message rest same waiting).2
    by_cases here : k = j
    · subst here
      have far : i ≠ k := by
        rintro rfl
        cases clear.symm.trans waiting
      simp [Kind.hears,Kind.taken,same,waiting,silent,far]
    · simp [Kind.hears,Kind.taken,same,here]
  · simp [Kind.hears,Kind.taken,same]

theorem share_complete (path : Path kind.step start hs last) (replicates : ∀ h ∈ hs, Replicates kind view apply h)
    (empty : ∀ i, start.link i j = []) (kept : ∀ i, i ≠ j → ∀ h ∈ hs, h.label.ends i j = h.label.delivers i j)
    (clear : ∀ i, i ≠ j → last.link i j = []) (i : ι) : share i (kind.heard j hs) = kind.said i hs := by
  by_cases here : i = j
  · subst here
    exact share_said path replicates (empty i)
  · have parts := link_path path here
    rw [empty i,clear i here,List.nil_append,List.append_nil] at parts
    rw [share_arrived hs here,arrived_gone (kept i here),parts]

theorem said_append (kind : Kind σ ℓ μ δ) (i : ι) (one two : List (Happening ι σ ℓ μ δ)) :
    kind.said i (one ++ two) = kind.said i one ++ kind.said i two := by
  simp [Kind.said,Kind.steps]

theorem said_arrivals (path : Path kind.step start hs last) (replicates : ∀ h ∈ hs, Replicates kind view apply h)
    (arrivals : ∀ h ∈ hs, ∃ i j around, h.label = .arrives i j around) (i : ι) : kind.said i hs = [] := by
  refine path.carry (fun done _ => kind.said i done = [])
    (fun h => Replicates kind view apply h ∧ ∃ i j around, h.label = .arrives i j around) rfl ?_
    fun h member => ⟨replicates h member,arrivals h member⟩
  rintro done h _ went ⟨fine,k,j,around,label⟩ old
  rw [said_snoc,old,List.nil_append]
  rcases step_cases went with ⟨_,_,_,same,_⟩ | ⟨_,_,_,message,rest,_,same,waiting,_,_⟩ | ⟨_,_,_,_,same,_⟩
  case inl | inr.inr => cases label.symm.trans same
  cases label.symm.trans same
  have silent := (fine.arrives k j around message rest label waiting).2
  by_cases here : j = i
  · subst here
    simp [Kind.taken,label,waiting,silent]
  · simp [Kind.taken,label,here]

def Commuting (kind : Kind σ ℓ μ δ) (apply : ω → μ → ω) (hs : List (Happening ι σ ℓ μ δ)) : Prop :=
  ∀ i k, i ≠ k → ∀ x ∈ kind.said i hs, ∀ y ∈ kind.said k hs, ∀ s, apply (apply s x) y = apply (apply s y) x

theorem views_agree (path : Path kind.step start hs last) (replicates : ∀ h ∈ hs, Replicates kind view apply h)
    (empty : ∀ i j, start.link i j = []) (kept : ∀ i j, i ≠ j → ∀ h ∈ hs, h.label.ends i j = h.label.delivers i j)
    (clear : ∀ i j, i ≠ j → last.link i j = []) (commuting : Commuting kind apply hs)
    (same : ∀ j, view (start.node j) = view (start.node k)) (j : ι) : view (last.node j) = view (last.node k) := by
  have complete : ∀ j i, share i (kind.heard j hs) = kind.said i hs := fun j =>
    share_complete path replicates (fun i => empty i j) (fun i => kept i j) fun i => clear i j
  have independent : Independent apply (kind.heard j hs) := by
    intro p one q two apart
    refine commuting p.1 q.1 apart p.2 ?_ q.2 ?_
    · rw [← complete j]
      exact mem_share.mpr one
    · rw [← complete j]
      exact mem_share.mpr two
  rw [view_path path replicates j,view_path path replicates k,same j]
  exact outcome_shares independent (fun i => (complete j i).trans (complete k i).symm) _

end Links
