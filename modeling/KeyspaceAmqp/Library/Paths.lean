import Mathlib.Tactic.Common

namespace Paths
variable {σ ℓ : Type}

structure Edge (σ ℓ : Type) where
  before : σ
  label : ℓ
  after : σ

inductive Path (next : σ → ℓ → Option σ) (start : σ) : List (Edge σ ℓ) → σ → Prop where
  | nil : Path next start [] start
  | snoc : Path next start edges middle → next middle label = some after →
      Path next start (edges ++ [⟨middle,label,after⟩]) after

variable {next : σ → ℓ → Option σ}

theorem Path.edge_taken (path : Path next start edges last) (member : edge ∈ edges) :
    next edge.before edge.label = some edge.after := by
  induction path with
  | nil => cases member
  | snoc _ taken ih =>
    rcases List.mem_append.mp member with old | new
    · exact ih old
    · cases List.mem_singleton.mp new; exact taken

theorem Path.append (one : Path next start first middle) (two : Path next middle second last) :
    Path next start (first ++ second) last := by
  induction two with
  | nil => simpa using one
  | snoc _ taken ih => simpa only [List.append_assoc] using Path.snoc ih taken

theorem Path.single (taken : next start label = some after) :
    Path next start [⟨start,label,after⟩] after := .snoc .nil taken

theorem Path.cons (taken : next start label = some middle) (rest : Path next middle edges last) :
    Path next start (⟨start,label,middle⟩ :: edges) last := (Path.single taken).append rest

-- The induction over runs, once: a fact about the steps taken so far and the state
-- they lead to holds at the end when it holds at the start and every step carries it.
-- What is asked of a step may speak of those before it.
theorem Path.carry_along (invariant : List (Edge σ ℓ) → σ → Prop) (allowed : List (Edge σ ℓ) → Edge σ ℓ → Prop)
    (path : Path next start edges last) (initial : invariant [] start)
    (step : ∀ done edge, Path next start done edge.before →
      next edge.before edge.label = some edge.after → allowed done edge →
      invariant done edge.before → invariant (done ++ [edge]) edge.after)
    (all : ∀ first edge rest, edges = first ++ edge :: rest → allowed first edge) : invariant edges last := by
  induction path with
  | nil => exact initial
  | @snoc edges middle label after prior taken ih =>
    have earlier := ih fun first edge rest parts => all first edge (rest ++ [⟨middle,label,after⟩]) (by simp [parts])
    exact step _ ⟨middle,label,after⟩ prior taken (all edges _ [] rfl) earlier

theorem Path.carry (invariant : List (Edge σ ℓ) → σ → Prop) (allowed : Edge σ ℓ → Prop)
    (path : Path next start edges last) (initial : invariant [] start)
    (step : ∀ done edge, Path next start done edge.before →
      next edge.before edge.label = some edge.after → allowed edge →
      invariant done edge.before → invariant (done ++ [edge]) edge.after)
    (all : ∀ edge ∈ edges, allowed edge) : invariant edges last :=
  path.carry_along invariant (fun _ => allowed) initial step fun _ edge _ parts => all edge (by simp [parts])

theorem all_along (allowed : List (Edge σ ℓ) → Edge σ ℓ → Prop)
    (each : ∀ i : Fin edges.length, allowed (edges.take i) (edges.get i)) :
    ∀ first edge rest, edges = first ++ edge :: rest → allowed first edge := by
  rintro first edge rest rfl
  have here := each ⟨first.length,by simp⟩
  simpa using here

theorem Path.throughout (holds : σ → Prop) (allowed : Edge σ ℓ → Prop)
    (path : Path next start edges last) (initial : holds start)
    (step : ∀ edge, next edge.before edge.label = some edge.after → allowed edge →
      holds edge.before → holds edge.after)
    (all : ∀ edge ∈ edges, allowed edge) :
    holds last ∧ ∀ edge ∈ edges, holds edge.before ∧ holds edge.after := by
  refine path.carry (fun done s => holds s ∧ ∀ edge ∈ done, holds edge.before ∧ holds edge.after) allowed
    ⟨initial,by simp⟩ ?_ all
  rintro done edge _ taken ok ⟨old,earlier⟩
  have new := step edge taken ok old
  refine ⟨new,?_⟩
  intro e member
  rcases List.mem_append.mp member with early | late
  · exact earlier e early
  · cases List.mem_singleton.mp late; exact ⟨old,new⟩

theorem Path.cut (path : Path next start edges last) (parts : edges = first ++ second) :
    ∃ middle, Path next start first middle ∧ Path next middle second last := by
  induction path generalizing second with
  | nil =>
    obtain ⟨rfl,rfl⟩ := List.append_eq_nil_iff.mp parts.symm
    exact ⟨start,.nil,.nil⟩
  | @snoc edges middle label after prior taken ih =>
    rcases List.eq_nil_or_concat second with rfl | ⟨rest,final,rfl⟩
    · rw [List.append_nil] at parts
      exact ⟨after,parts ▸ .snoc prior taken,.nil⟩
    · rw [List.concat_eq_append] at parts ⊢
      rw [← List.append_assoc] at parts
      obtain ⟨prefixes,lasts⟩ := List.append_inj' parts rfl
      cases List.singleton_inj.mp lasts
      obtain ⟨cut,front,back⟩ := ih prefixes
      exact ⟨cut,front,.snoc back taken⟩

theorem Path.ends (path : Path next start edges last) :
    (edges = [] ∧ last = start) ∨ ∃ prior edge, edges = prior ++ [edge] ∧ edge.after = last ∧
      Path next start prior edge.before := by
  cases path with
  | nil => exact .inl ⟨rfl,rfl⟩
  | snoc prior taken => exact .inr ⟨_,_,rfl,rfl,prior⟩

theorem Path.around (path : Path next start edges last) (parts : edges = first ++ edge :: second) :
    Path next start first edge.before ∧ Path next edge.after second last := by
  obtain ⟨middle,front,back⟩ := path.cut (parts.trans (List.append_cons first edge second))
  rcases front.ends with ⟨none,_⟩ | ⟨prior,final,same,rfl,earlier⟩
  · simp at none
  · obtain ⟨prefixes,lasts⟩ := List.append_inj' same rfl
    cases List.singleton_inj.mp lasts
    exact ⟨prefixes ▸ earlier,back⟩

theorem Path.uncons (path : Path next start (edge :: rest) last) :
    edge.before = start ∧ next start edge.label = some edge.after ∧ Path next edge.after rest last := by
  have taken := path.edge_taken List.mem_cons_self
  obtain ⟨front,back⟩ := path.around (List.nil_append _).symm
  rcases front.ends with ⟨_,same⟩ | ⟨_,_,impossible,_⟩
  · exact ⟨same,same ▸ taken,back⟩
  · simp at impossible

theorem Path.before (holds : σ → Prop) (path : Path next start edges last) (initial : holds start)
    (after : ∀ edge ∈ edges, holds edge.after) : ∀ edge ∈ edges, holds edge.before := by
  intro edge member
  obtain ⟨first,second,parts⟩ := List.append_of_mem member
  rcases (path.around parts).1.ends with ⟨_,same⟩ | ⟨prior,final,rfl,same,_⟩
  · exact same ▸ initial
  · exact same ▸ after final (by simp [parts])

-- Running a list of labels, for use on concrete inputs.
def replay (next : σ → ℓ → Option σ) : σ → List ℓ → Option (List (Edge σ ℓ) × σ)
  | s,[] => some ([],s)
  | s,label :: rest => do
    let middle ← next s label
    let (edges,last) ← replay next middle rest
    return (⟨s,label,middle⟩ :: edges,last)

theorem replay_path (ran : replay next start labels = some (edges,last)) : Path next start edges last := by
  induction labels generalizing start edges with
  | nil => simp only [replay,Option.some.injEq,Prod.mk.injEq] at ran; obtain ⟨rfl,rfl⟩ := ran; exact .nil
  | cons label rest ih =>
    simp only [replay,Option.bind_eq_bind,Option.bind_eq_some_iff] at ran
    obtain ⟨middle,taken,⟨tail,final⟩,went,done⟩ := ran
    cases done
    exact .cons taken (ih went)

theorem replay_labels (ran : replay next start labels = some (edges,last)) : edges.map Edge.label = labels := by
  induction labels generalizing start edges with
  | nil => simp only [replay,Option.some.injEq,Prod.mk.injEq] at ran; obtain ⟨rfl,rfl⟩ := ran; rfl
  | cons label rest ih =>
    simp only [replay,Option.bind_eq_bind,Option.bind_eq_some_iff] at ran
    obtain ⟨middle,taken,⟨tail,final⟩,went,done⟩ := ran
    cases done
    exact congrArg (label :: ·) (ih went)

end Paths
