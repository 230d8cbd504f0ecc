import Mathlib.Data.List.Basic

namespace Interleavings
variable {ι μ ω : Type} [DecidableEq ι] {apply : ω → μ → ω}

def share (i : ι) (mixed : List (ι × μ)) : List μ := (mixed.filter fun p => p.1 = i).map Prod.snd

@[simp] theorem share_nil (i : ι) : share i ([] : List (ι × μ)) = [] := rfl

@[simp] theorem share_cons (i : ι) (p : ι × μ) (mixed : List (ι × μ)) :
    share i (p :: mixed) = if p.1 = i then p.2 :: share i mixed else share i mixed := by
  by_cases own : p.1 = i <;> simp [share,own]

@[simp] theorem share_append (i : ι) (one two : List (ι × μ)) : share i (one ++ two) = share i one ++ share i two := by
  simp [share]

@[simp] theorem share_tagged (i j : ι) (messages : List μ) :
    share i (messages.map fun message => (j,message)) = if j = i then messages else [] := by
  by_cases same : j = i <;> simp [share,List.filter_map,Function.comp_def,same]

theorem mem_share {i : ι} {x : μ} {mixed : List (ι × μ)} : x ∈ share i mixed ↔ (i,x) ∈ mixed := by
  simp [share]

theorem share_split {i : ι} {x : μ} {mixed : List (ι × μ)} (begins : share i mixed = x :: rest) :
    ∃ front back, mixed = front ++ (i,x) :: back ∧ (∀ p ∈ front, p.1 ≠ i) ∧ share i back = rest := by
  obtain ⟨⟨j,y⟩,kept,filtered,rfl,rfl⟩ := List.map_eq_cons_iff.mp begins
  obtain ⟨front,back,rfl,before,own,rfl⟩ := List.filter_eq_cons_iff.mp filtered
  cases of_decide_eq_true own
  exact ⟨front,back,rfl,fun p member => by simpa using before p member,rfl⟩

theorem share_none {i : ι} {mixed : List (ι × μ)} (others : ∀ p ∈ mixed, p.1 ≠ i) : share i mixed = [] := by
  rw [share,List.filter_eq_nil_iff.mpr fun p member => by simpa using others p member]
  rfl

-- What comes of different sources has one outcome in either order.
def Independent (apply : ω → μ → ω) (mixed : List (ι × μ)) : Prop :=
  ∀ p ∈ mixed, ∀ q ∈ mixed, p.1 ≠ q.1 → ∀ s, apply (apply s p.2) q.2 = apply (apply s q.2) p.2

def outcome (apply : ω → μ → ω) (s : ω) (mixed : List (ι × μ)) : ω := (mixed.map Prod.snd).foldl apply s

omit [DecidableEq ι] in
theorem outcome_append (s : ω) (one two : List (ι × μ)) :
    outcome apply s (one ++ two) = outcome apply (outcome apply s one) two := by
  rw [outcome,List.map_append,List.foldl_append]
  rfl

omit [DecidableEq ι] in
theorem outcome_passed (x : μ) (mixed : List (ι × μ))
    (passes : ∀ p ∈ mixed, ∀ s, apply (apply s p.2) x = apply (apply s x) p.2) (s : ω) :
    apply (outcome apply s mixed) x = outcome apply (apply s x) mixed := by
  induction mixed generalizing s with
  | nil => rfl
  | cons p rest ih =>
    calc apply (outcome apply s (p :: rest)) x
        = outcome apply (apply (apply s p.2) x) rest := ih (fun q member => passes q (List.mem_cons_of_mem p member)) _
      _ = outcome apply (apply s x) (p :: rest) := by rw [passes p List.mem_cons_self]; rfl

theorem outcome_shares {one two : List (ι × μ)} (independent : Independent apply one)
    (same : ∀ i, share i one = share i two) (s : ω) : outcome apply s one = outcome apply s two := by
  induction one generalizing two s with
  | nil =>
    cases two with
    | nil => rfl
    | cons p rest =>
      have member : p.2 ∈ share p.1 (p :: rest) := mem_share.mpr List.mem_cons_self
      rw [← same p.1] at member
      cases member
  | cons p rest ih =>
    obtain ⟨i,x⟩ := p
    have begins : share i two = x :: share i rest := by rw [← same i]; simp
    obtain ⟨front,back,rfl,others,_⟩ := share_split begins
    have inside : ∀ q ∈ front, q ∈ (i,x) :: rest := by
      intro q member
      refine mem_share.mp ?_
      rw [same q.1]
      exact mem_share.mpr (List.mem_append_left _ member)
    have passes : ∀ q ∈ front, ∀ s, apply (apply s q.2) x = apply (apply s x) q.2 :=
      fun q member => independent q (inside q member) (i,x) List.mem_cons_self (others q member)
    have remain : ∀ j, share j rest = share j (front ++ back) := by
      intro j
      have both := same j
      by_cases here : i = j
      · subst here
        simpa [share_none others] using both
      · simpa [here] using both
    have smaller : Independent apply rest :=
      fun p one q two => independent p (List.mem_cons_of_mem _ one) q (List.mem_cons_of_mem _ two)
    calc outcome apply s ((i,x) :: rest)
        = outcome apply (apply s x) (front ++ back) := ih smaller remain _
      _ = outcome apply (apply (outcome apply s front) x) back := by rw [outcome_append,outcome_passed x front passes]
      _ = outcome apply s (front ++ (i,x) :: back) := (outcome_append s front ((i,x) :: back)).symm

end Interleavings
