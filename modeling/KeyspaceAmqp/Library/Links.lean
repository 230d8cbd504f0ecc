import KeyspaceAmqp.Library.Paths
import Mathlib.Data.List.Basic
import Mathlib.Data.List.Induction
import Mathlib.Logic.Function.Basic

namespace Links
open Paths
variable {ι σ ℓ μ δ : Type} [DecidableEq ι]

-- A kind of node: the steps it takes of its own and those an arriving message makes it
-- take, and what it has to say to all others in the state a step left.
structure Kind (σ ℓ μ δ : Type) where
  next : σ → ℓ → Option σ
  own : ℓ → Bool
  sends : σ → List μ
  arrival : μ → δ → ℓ

structure Net (ι σ μ : Type) where
  node : ι → σ
  link : ι → ι → List μ

inductive Occurrence (ι ℓ δ : Type) where
  | acts (i : ι) (label : ℓ)
  | arrives (i j : ι) (around : δ)
  | drops (i j : ι)

def Net.left (net : Net ι σ μ) (i : ι) (s : σ) (said : List μ) : Net ι σ μ where
  node := Function.update net.node i s
  link := fun j k => if j = i ∧ k ≠ i then net.link j k ++ said else net.link j k

def Net.shortened (net : Net ι σ μ) (i j : ι) (rest : List μ) : Net ι σ μ where
  node := net.node
  link := fun k l => if k = i ∧ l = j then rest else net.link k l

def Kind.step (kind : Kind σ ℓ μ δ) (net : Net ι σ μ) : Occurrence ι ℓ δ → Option (Net ι σ μ)
  | .acts i label =>
    if kind.own label then (kind.next (net.node i) label).map fun s => net.left i s (kind.sends s) else none
  | .arrives i j around => match net.link i j with
    | [] => none
    | message :: rest => (kind.next (net.node j) (kind.arrival message around)).map fun s =>
      (net.shortened i j rest).left j s (kind.sends s)
  | .drops i j => match net.link i j with
    | [] => none
    | _ :: rest => some (net.shortened i j rest)

abbrev Happening (ι σ ℓ μ δ : Type) := Edge (Net ι σ μ) (Occurrence ι ℓ δ)

def Kind.taken (kind : Kind σ ℓ μ δ) (i : ι) (h : Happening ι σ ℓ μ δ) : Option (Edge σ ℓ) := match h.label with
  | .acts j label => if j = i then some ⟨h.before.node i,label,h.after.node i⟩ else none
  | .arrives j k around =>
    if k = i then (h.before.link j k).head?.map fun message => ⟨h.before.node i,kind.arrival message around,h.after.node i⟩
    else none
  | .drops _ _ => none

def Kind.steps (kind : Kind σ ℓ μ δ) (i : ι) (hs : List (Happening ι σ ℓ μ δ)) : List (Edge σ ℓ) :=
  hs.filterMap (kind.taken i)

def Kind.said (kind : Kind σ ℓ μ δ) (i : ι) (hs : List (Happening ι σ ℓ μ δ)) : List μ :=
  (kind.steps i hs).flatMap fun s => kind.sends s.after

def Occurrence.ends (i j : ι) : Occurrence ι ℓ δ → Bool
  | .arrives k l _ | .drops k l => k = i ∧ l = j
  | .acts _ _ => false

def Occurrence.delivers (i j : ι) : Occurrence ι ℓ δ → Bool
  | .arrives k l _ => k = i ∧ l = j
  | _ => false

def oldest (i j : ι) (when : Occurrence ι ℓ δ → Bool) (hs : List (Happening ι σ ℓ μ δ)) : List μ :=
  (hs.filter fun h => when h.label).filterMap fun h => (h.before.link i j).head?

abbrev gone (i j : ι) (hs : List (Happening ι σ ℓ μ δ)) : List μ := oldest i j (Occurrence.ends i j) hs
abbrev arrived (i j : ι) (hs : List (Happening ι σ ℓ μ δ)) : List μ := oldest i j (Occurrence.delivers i j) hs

variable {kind : Kind σ ℓ μ δ} {net : Net ι σ μ} {h : Happening ι σ ℓ μ δ} {hs : List (Happening ι σ ℓ μ δ)}

@[simp] theorem left_node (net : Net ι σ μ) (i : ι) (s : σ) (said : List μ) (j : ι) :
    (net.left i s said).node j = if j = i then s else net.node j := by
  by_cases same : j = i
  · subst same
    simp [Net.left]
  · simp [Net.left,same]

@[simp] theorem shortened_node (net : Net ι σ μ) (i j : ι) (rest : List μ) : (net.shortened i j rest).node = net.node := rfl

theorem left_link (net : Net ι σ μ) (i : ι) (s : σ) (said : List μ) (j k : ι) :
    (net.left i s said).link j k = if j = i ∧ k ≠ i then net.link j k ++ said else net.link j k := rfl

theorem shortened_link (net : Net ι σ μ) (i j : ι) (rest : List μ) (k l : ι) :
    (net.shortened i j rest).link k l = if k = i ∧ l = j then rest else net.link k l := rfl

theorem step_cases (went : kind.step h.before h.label = some h.after) :
    (∃ i label s, h.label = .acts i label ∧ kind.own label = true ∧ kind.next (h.before.node i) label = some s ∧
      h.after = h.before.left i s (kind.sends s)) ∨
    (∃ i j around message rest s, h.label = .arrives i j around ∧ h.before.link i j = message :: rest ∧
      kind.next (h.before.node j) (kind.arrival message around) = some s ∧
      h.after = (h.before.shortened i j rest).left j s (kind.sends s)) ∨
    (∃ i j message rest, h.label = .drops i j ∧ h.before.link i j = message :: rest ∧ h.after = h.before.shortened i j rest) := by
  obtain ⟨before,label,after⟩ := h
  cases label with
  | acts i label =>
    simp only [Kind.step,Option.ite_none_right_eq_some,Option.map_eq_some_iff] at went
    obtain ⟨own,s,taken,rfl⟩ := went
    exact .inl ⟨i,label,s,rfl,own,taken,rfl⟩
  | arrives i j around =>
    simp only [Kind.step] at went
    cases waiting : before.link i j with
    | nil => simp [waiting] at went
    | cons message rest =>
      simp only [waiting,Option.map_eq_some_iff] at went
      obtain ⟨s,taken,rfl⟩ := went
      exact .inr (.inl ⟨i,j,around,message,rest,s,rfl,waiting,taken,rfl⟩)
  | drops i j =>
    simp only [Kind.step] at went
    cases waiting : before.link i j with
    | nil => simp [waiting] at went
    | cons message rest =>
      simp only [waiting,Option.some.injEq] at went
      exact .inr (.inr ⟨i,j,message,rest,rfl,waiting,went.symm⟩)

theorem taken_cases (went : kind.step h.before h.label = some h.after) (i : ι) :
    (∃ s, kind.taken i h = some s ∧ s.before = h.before.node i ∧ s.after = h.after.node i ∧
      kind.next s.before s.label = some s.after) ∨
    (kind.taken i h = none ∧ h.after.node i = h.before.node i) := by
  rcases step_cases went with ⟨j,label,s,same,_,taken,after⟩ | ⟨j,k,around,message,rest,s,same,waiting,taken,after⟩ |
    ⟨j,k,message,rest,same,waiting,after⟩
  · by_cases here : j = i
    · subst here
      refine .inl ⟨⟨h.before.node j,label,h.after.node j⟩,by simp only [Kind.taken,same,if_true],rfl,rfl,?_⟩
      simpa [after] using taken
    · exact .inr ⟨by simp only [Kind.taken,same,if_neg here],by simp [after,Ne.symm here]⟩
  · by_cases here : k = i
    · subst here
      refine .inl ⟨⟨h.before.node k,kind.arrival message around,h.after.node k⟩,?_,rfl,rfl,by simpa [after] using taken⟩
      simp only [Kind.taken,same,if_true,waiting,List.head?_cons,Option.map_some]
    · exact .inr ⟨by simp only [Kind.taken,same,if_neg here],by simp [after,Ne.symm here]⟩
  · exact .inr ⟨by simp only [Kind.taken,same],by simp [after]⟩

theorem steps_snoc (kind : Kind σ ℓ μ δ) (i : ι) (hs : List (Happening ι σ ℓ μ δ)) (h : Happening ι σ ℓ μ δ) :
    kind.steps i (hs ++ [h]) = kind.steps i hs ++ (kind.taken i h).toList := by
  rw [Kind.steps,List.filterMap_append]
  cases taken : kind.taken i h <;> simp [Kind.steps,taken]

theorem said_snoc (kind : Kind σ ℓ μ δ) (i : ι) (hs : List (Happening ι σ ℓ μ δ)) (h : Happening ι σ ℓ μ δ) :
    kind.said i (hs ++ [h]) = kind.said i hs ++ ((kind.taken i h).map fun s => kind.sends s.after).getD [] := by
  rw [Kind.said,steps_snoc,List.flatMap_append]
  cases kind.taken i h <;> simp [Kind.said]

omit [DecidableEq ι] in
theorem oldest_snoc (i j : ι) (when : Occurrence ι ℓ δ → Bool) (hs : List (Happening ι σ ℓ μ δ)) (h : Happening ι σ ℓ μ δ) :
    oldest i j when (hs ++ [h]) = oldest i j when hs ++ if when h.label then (h.before.link i j).head?.toList else [] := by
  simp only [oldest,List.filter_append,List.filterMap_append]
  congr 1
  by_cases now : when h.label = true
  · cases first : (h.before.link i j).head? <;> simp [now,first]
  · simp [now]

theorem delivers_ends (i j : ι) (event : Occurrence ι ℓ δ) (delivers : event.delivers i j = true) :
    event.ends i j = true := by
  cases event with
  | arrives k l around => exact delivers
  | acts | drops => cases delivers

theorem arrived_sublist (i j : ι) (hs : List (Happening ι σ ℓ μ δ)) : List.Sublist (arrived i j hs) (gone i j hs) :=
  (List.monotone_filter_right hs fun h => delivers_ends i j h.label).filterMap _

theorem arrived_gone {i j : ι} (kept : ∀ h ∈ hs, h.label.ends i j = h.label.delivers i j) :
    arrived i j hs = gone i j hs := by
  have same := List.filter_congr kept
  rw [arrived,gone,oldest,oldest,same]

theorem node_path (path : Path kind.step start hs last) (i : ι) :
    Path kind.next (start.node i) (kind.steps i hs) (last.node i) := by
  refine path.carry (fun done net => Path kind.next (start.node i) (kind.steps i done) (net.node i)) (fun _ => True)
    .nil ?_ fun _ _ => trivial
  intro done h _ went _ old
  rw [steps_snoc]
  rcases taken_cases went i with ⟨⟨before,label,after⟩,taken,rfl,rfl,ran⟩ | ⟨idle,same⟩
  · rw [taken]
    exact old.snoc ran
  · rw [idle,same]
    simpa using old

theorem link_step (went : kind.step h.before h.label = some h.after) {i j : ι} (other : i ≠ j) :
    h.before.link i j ++ ((kind.taken i h).map fun s => kind.sends s.after).getD [] =
      (if h.label.ends i j then (h.before.link i j).head?.toList else []) ++ h.after.link i j := by
  rcases step_cases went with ⟨k,label,s,same,_,_,after⟩ | ⟨k,l,around,message,rest,s,same,waiting,_,after⟩ |
    ⟨k,l,message,rest,same,waiting,after⟩
  · by_cases here : k = i
    · subst here
      simp [Kind.taken,same,after,Occurrence.ends,left_link,other.symm]
    · simp [Kind.taken,same,after,Occurrence.ends,left_link,here,Ne.symm here]
  · by_cases here : l = i
    · subst here
      have elsewhere : ¬ (k = l ∧ l = j) := fun both => other both.2
      simp [Kind.taken,same,after,Occurrence.ends,left_link,shortened_link,other,other.symm,waiting]
    · by_cases ends : k = i ∧ l = j
      · obtain ⟨rfl,rfl⟩ := ends
        simp [Kind.taken,same,after,Occurrence.ends,left_link,shortened_link,here,Ne.symm here,waiting]
      · have ends' : ¬ (i = k ∧ j = l) := fun both => ends ⟨both.1.symm,both.2.symm⟩
        simp [Kind.taken,same,after,Occurrence.ends,left_link,shortened_link,here,Ne.symm here,ends,ends']
  · by_cases ends : k = i ∧ l = j
    · obtain ⟨rfl,rfl⟩ := ends
      simp [Kind.taken,same,after,Occurrence.ends,shortened_link,waiting]
    · have ends' : ¬ (i = k ∧ j = l) := fun both => ends ⟨both.1.symm,both.2.symm⟩
      simp [Kind.taken,same,after,Occurrence.ends,shortened_link,ends,ends']

-- A link is a queue over whole runs: what was on it and what its sender said is what has
-- gone and what is still on the way, in one order.
theorem link_path (path : Path kind.step start hs last) {i j : ι} (other : i ≠ j) :
    start.link i j ++ kind.said i hs = gone i j hs ++ last.link i j := by
  refine path.carry (fun done net => start.link i j ++ kind.said i done = gone i j done ++ net.link i j)
    (fun _ => True) (by simp [Kind.said,Kind.steps,gone,oldest]) ?_ fun _ _ => trivial
  intro done h _ went _ old
  rw [said_snoc,gone,oldest_snoc,← List.append_assoc,old,List.append_assoc,List.append_assoc,link_step went other]

theorem arrives_kept (i j k l : ι) (around : δ) : (Occurrence.arrives k l around : Occurrence ι ℓ δ).ends i j =
    (Occurrence.arrives k l around : Occurrence ι ℓ δ).delivers i j := rfl

-- A link can be emptied where its end can take whatever comes and says nothing to it:
-- nothing else happens then.
theorem link_settles {good : δ → Prop} (takes : ∀ s message, ∃ around s', good around ∧
      kind.next s (kind.arrival message around) = some s' ∧ kind.sends s' = []) (net : Net ι σ μ) (i j : ι) :
    ∃ hs last, Path kind.step net hs last ∧ (∀ h ∈ hs, ∃ around, good around ∧ h.label = .arrives i j around) ∧
      (∀ k, k ≠ j → last.node k = net.node k) ∧ ∀ k l, last.link k l = if k = i ∧ l = j then [] else net.link k l := by
  induction waiting : net.link i j generalizing net with
  | nil =>
    refine ⟨[],net,.nil,fun _ member => (by cases member),fun _ _ => rfl,fun k l => ?_⟩
    split
    · rename_i here
      rw [here.1,here.2,waiting]
    · rfl
  | cons message rest ih =>
    obtain ⟨around,s,fine,taken,silent⟩ := takes (net.node j) message
    let next := (net.shortened i j rest).left j s (kind.sends s)
    have went : kind.step net (.arrives i j around) = some next := by
      simp only [Kind.step,waiting,taken,Option.map_some]
      rfl
    have links : ∀ k l, next.link k l = if k = i ∧ l = j then rest else net.link k l := by
      intro k l
      rw [left_link,silent,List.append_nil,ite_self,shortened_link]
    obtain ⟨hs,last,path,labels,nodes,emptied⟩ := ih next (by simp [links])
    refine ⟨_,last,path.cons went,?_,?_,?_⟩
    · intro h member
      rcases List.mem_cons.mp member with rfl | later
      · exact ⟨around,fine,rfl⟩
      · exact labels h later
    · intro k apart
      rw [nodes k apart,left_node,if_neg apart,shortened_node]
    · intro k l
      rw [emptied,links]
      split <;> rfl

theorem links_settle {good : δ → Prop} (takes : ∀ s message, ∃ around s', good around ∧
      kind.next s (kind.arrival message around) = some s' ∧ kind.sends s' = []) (net : Net ι σ μ) (pairs : List (ι × ι)) :
    ∃ hs last, Path kind.step net hs last ∧
      (∀ h ∈ hs, ∃ i j around, (i,j) ∈ pairs ∧ good around ∧ h.label = .arrives i j around) ∧
      (∀ k, (∀ i, (i,k) ∉ pairs) → last.node k = net.node k) ∧
      ∀ k l, last.link k l = if (k,l) ∈ pairs then [] else net.link k l := by
  induction pairs generalizing net with
  | nil => exact ⟨[],net,.nil,fun _ member => (by cases member),fun _ _ => rfl,fun _ _ => by simp⟩
  | cons pair pairs ih =>
    obtain ⟨i,j⟩ := pair
    obtain ⟨first,middle,front,arrive,nodes,links⟩ := link_settles takes net i j
    obtain ⟨second,last,back,labels,same,emptied⟩ := ih middle
    refine ⟨first ++ second,last,front.append back,?_,?_,?_⟩
    · intro h member
      rcases List.mem_append.mp member with early | late
      · obtain ⟨around,fine,label⟩ := arrive h early
        exact ⟨i,j,around,List.mem_cons_self,fine,label⟩
      · obtain ⟨k,l,around,inside,fine,label⟩ := labels h late
        exact ⟨k,l,around,List.mem_cons_of_mem _ inside,fine,label⟩
    · intro k apart
      have elsewhere : k ≠ j := fun here => apart i (here ▸ List.mem_cons_self)
      rw [same k fun l inside => apart l (List.mem_cons_of_mem _ inside),nodes k elsewhere]
    · intro k l
      rw [emptied,links]
      by_cases now : k = i ∧ l = j
      · obtain ⟨rfl,rfl⟩ := now
        simp
      · have other : (k,l) ≠ (i,j) := fun same => now (Prod.mk.inj same)
        simp [now,other]

-- A run in which each step says one thing at most can be cut where a part of it has been said.
theorem said_cut (kind : Kind σ ℓ μ δ) (i : ι) (brief : ∀ s ∈ kind.steps i hs, (kind.sends s.after).length ≤ 1)
    (parts : kind.said i hs = early ++ late) :
    ∃ first second, hs = first ++ second ∧ kind.said i first = early ∧ kind.said i second = late := by
  induction hs using List.reverseRecOn generalizing late with
  | nil =>
    obtain ⟨rfl,rfl⟩ := List.append_eq_nil_iff.mp parts.symm
    exact ⟨[],[],rfl,rfl,rfl⟩
  | append_singleton hs h ih =>
    have shorter : ∀ s ∈ kind.steps i hs, (kind.sends s.after).length ≤ 1 := by
      intro s member
      exact brief s (by rw [steps_snoc]; exact List.mem_append_left _ member)
    rcases List.eq_nil_or_concat late with rfl | ⟨init,final,rfl⟩
    · rw [List.append_nil] at parts
      exact ⟨hs ++ [h],[],by simp,parts,rfl⟩
    rw [List.concat_eq_append,← List.append_assoc,said_snoc] at parts
    cases taken : kind.taken i h with
    | none =>
      rw [taken] at parts
      obtain ⟨first,second,rfl,before,after⟩ := @ih (init ++ [final]) shorter (by simpa using parts)
      exact ⟨first,second ++ [h],by simp,before,by rw [said_snoc,after,taken]; simp⟩
    | some s =>
      have once : (kind.sends s.after).length ≤ 1 := brief s (by rw [steps_snoc,taken]; simp)
      rw [taken,Option.map_some,Option.getD_some] at parts
      match said : kind.sends s.after with
      | [] =>
        rw [said] at parts
        obtain ⟨first,second,rfl,before,after⟩ := @ih (init ++ [final]) shorter (by simpa using parts)
        exact ⟨first,second ++ [h],by simp,before,by rw [said_snoc,after,taken,Option.map_some,said]; simp⟩
      | [message] =>
        rw [said] at parts
        obtain ⟨fronts,lasts⟩ := List.append_inj' parts rfl
        obtain ⟨first,second,rfl,before,after⟩ := ih shorter fronts
        exact ⟨first,second ++ [h],by simp,before,by rw [said_snoc,after,taken,Option.map_some,said,lasts]; simp⟩
      | _ :: _ :: _ => simp [said] at once

-- One node leads: it alone says anything, and what it says is what others must do to come
-- to have its view of things.
section Leading
variable {ω : Type} (kind) (view : σ → ω) (apply : ω → μ → ω) (a : ι)

structure Led (h : Happening ι σ ℓ μ δ) : Prop where
  acts : ∀ i label, h.label = .acts i label →
    view (h.after.node i) = (kind.sends (h.after.node i)).foldl apply (view (h.before.node i)) ∧
      (i ≠ a → kind.sends (h.after.node i) = [])
  arrives : ∀ i j around message rest, h.label = .arrives i j around → h.before.link i j = message :: rest →
    view (h.after.node j) = apply (view (h.before.node j)) message ∧ kind.sends (h.after.node j) = []

def Outward (net : Net ι σ μ) : Prop := ∀ i k, i ≠ a ∨ k = a → net.link i k = []

variable {kind} {view} {apply} {a}

omit [DecidableEq ι] in
theorem Outward.leads {net : Net ι σ μ} (outward : Outward a net) (waiting : net.link i k = message :: rest) : i = a ∧ k ≠ a := by
  have inside : ¬ (i ≠ a ∨ k = a) := fun outside => by simp [outward i k outside] at waiting
  simpa only [not_or,not_not] using inside

theorem led_outward (went : kind.step h.before h.label = some h.after) (led : Led kind view apply a h)
    (outward : Outward a h.before) : Outward a h.after := by
  intro l m outside
  rcases step_cases went with ⟨i,label,s,same,_,_,after⟩ | ⟨i,k,around,message,rest,s,same,waiting,_,after⟩ |
    ⟨i,k,message,rest,same,waiting,after⟩
  · have silent := (led.acts i label same).2
    rw [after,left_node,if_pos rfl] at silent
    rw [after,left_link]
    split
    · rename_i sender
      obtain ⟨rfl,far⟩ := sender
      rcases outside with other | back
      · rw [silent other,List.append_nil]
        exact outward l m (.inl other)
      · by_cases leads : l = a
        · exact absurd (back.trans leads.symm) far
        · rw [silent leads,List.append_nil]
          exact outward l m (.inl leads)
    · exact outward l m outside
  · have nothing := (led.arrives i k around message rest same waiting).2
    rw [after,left_node,if_pos rfl] at nothing
    obtain ⟨rfl,far⟩ := outward.leads waiting
    have elsewhere : ¬ (l = i ∧ m = k) := fun both => outside.elim (fun off => off both.1) fun back => far (both.2 ▸ back)
    rw [after,nothing,left_link,shortened_link,if_neg elsewhere,List.append_nil,ite_self]
    exact outward l m outside
  · obtain ⟨rfl,far⟩ := outward.leads waiting
    have elsewhere : ¬ (l = i ∧ m = k) := fun both => outside.elim (fun off => off both.1) fun back => far (both.2 ▸ back)
    rw [after,shortened_link,if_neg elsewhere]
    exact outward l m outside

theorem led_views (went : kind.step h.before h.label = some h.after) (led : Led kind view apply a h)
    (outward : Outward a h.before) :
    view (h.after.node a) = (((kind.taken a h).map fun s => kind.sends s.after).getD []).foldl apply (view (h.before.node a)) ∧
    ∀ j, j ≠ a → view (h.after.node j) =
      (if h.label.delivers a j then (h.before.link a j).head?.toList else []).foldl apply (view (h.before.node j)) := by
  rcases step_cases went with ⟨i,label,s,same,_,_,after⟩ | ⟨i,k,around,message,rest,s,same,waiting,_,after⟩ |
    ⟨i,k,message,rest,same,waiting,after⟩
  · obtain ⟨moved,silent⟩ := led.acts i label same
    refine ⟨?_,?_⟩
    · by_cases leads : i = a
      · subst leads
        simpa [Kind.taken,same] using moved
      · simp [Kind.taken,same,after,leads,Ne.symm leads]
    · intro j other
      rw [same]
      by_cases here : j = i
      · subst here
        rw [silent other] at moved
        exact moved
      · simp [Occurrence.delivers,after,here]
  · obtain ⟨moved,nothing⟩ := led.arrives i k around message rest same waiting
    obtain ⟨rfl,far⟩ := outward.leads waiting
    refine ⟨by simp [Kind.taken,same,after,far,Ne.symm far],?_⟩
    intro j other
    rw [same]
    by_cases here : j = k
    · subst here
      simpa [Occurrence.delivers,waiting] using moved
    · simp [Occurrence.delivers,after,here,Ne.symm here]
  · refine ⟨by simp [Kind.taken,same,after],?_⟩
    intro j other
    simp [Occurrence.delivers,same,after]

theorem led_path (path : Path kind.step start hs last) (led : ∀ h ∈ hs, Led kind view apply a h) (outward : Outward a start) :
    view (last.node a) = (kind.said a hs).foldl apply (view (start.node a)) ∧
    ∀ j, j ≠ a → view (last.node j) = (arrived a j hs).foldl apply (view (start.node j)) := by
  refine (path.carry (fun done net => Outward a net ∧
    view (net.node a) = (kind.said a done).foldl apply (view (start.node a)) ∧
    ∀ j, j ≠ a → view (net.node j) = (arrived a j done).foldl apply (view (start.node j)))
    (Led kind view apply a) ⟨outward,rfl,fun _ _ => rfl⟩ ?_ led).2
  rintro done h _ went led ⟨outward,leader,others⟩
  obtain ⟨mine,theirs⟩ := led_views went led outward
  refine ⟨led_outward went led outward,?_,?_⟩
  · rw [mine,leader,said_snoc,List.foldl_append]
  · intro j other
    rw [theirs j other,others j other,arrived,arrived,oldest_snoc,List.foldl_append]

-- Where nothing is lost to a node, its view is one that the leader has had, and what is
-- still on the way to it is what it lacks of the leader's.
theorem led_behind (path : Path kind.step start hs last) (led : ∀ h ∈ hs, Led kind view apply a h)
    (brief : ∀ s ∈ kind.steps a hs, (kind.sends s.after).length ≤ 1) (outward : Outward a start) {j : ι} (other : j ≠ a)
    (empty : start.link a j = []) (same : view (start.node j) = view (start.node a))
    (kept : ∀ h ∈ hs, h.label.ends a j = h.label.delivers a j) :
    view (last.node a) = (last.link a j).foldl apply (view (last.node j)) ∧
    ∃ first second middle, hs = first ++ second ∧ Path kind.step start first middle ∧
      view (last.node j) = view (middle.node a) := by
  obtain ⟨leader,others⟩ := led_path path led outward
  have follower := others j other
  rw [arrived_gone kept] at follower
  have parts := link_path path other.symm
  rw [empty,List.nil_append] at parts
  obtain ⟨first,second,rfl,before,_⟩ := said_cut kind a brief parts
  obtain ⟨middle,front,_⟩ := path.cut rfl
  have earlier := (led_path front (fun h member => led h (List.mem_append_left _ member)) outward).1
  refine ⟨?_,first,second,middle,rfl,front,?_⟩
  · rw [leader,follower,parts,List.foldl_append,same]
  · rw [follower,earlier,before,same]

end Leading

end Links
