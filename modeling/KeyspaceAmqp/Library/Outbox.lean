import Mathlib.Algebra.BigOperators.Group.Finset.Piecewise
import Mathlib.Algebra.Order.Group.Multiset
import Mathlib.Tactic.Abel

namespace Outbox
variable {ι β : Type} [DecidableEq ι]

-- What passes through a store-and-forward sender, as an onlooker sees it. A body
-- that goes out is the one last taken from a queue, else the one last handed over.
inductive Mail (ι β : Type) where
  | handed (queue : ι) (body : β)
  | sent (body : β)
  | taken (queue : ι)
  | returned (queue : ι)
  | appended (queue : ι) (body : β)
  deriving DecidableEq

abbrev Queues (ι β : Type) := ι → List β

-- The transactions a sender is built from: a new body goes out at once, or is kept
-- (its queue's oldest thrown away first, where `evict` holds); the `count` oldest of
-- a queue go out, after which one more may be tried, refused and put back.
inductive Deal (ι β : Type) where
  | post (queue : ι) (body : β)
  | keep (queue : ι) (body : β) (evict : Bool)
  | drain (queue : ι) (count : Nat) (failed : Bool)

def Deal.apply (s : Queues ι β) : Deal ι β → Queues ι β
  | .post _ _ => s
  | .keep q body evict => Function.update s q ((if evict then (s q).tail else s q) ++ [body])
  | .drain q count _ => Function.update s q ((s q).drop count)

def Deal.mail (s : Queues ι β) : Deal ι β → List (Mail ι β)
  | .post q body => [.handed q body,.sent body]
  | .keep q body evict => [.handed q body] ++ (if evict ∧ s q ≠ [] then [.taken q] else []) ++ [.appended q body]
  | .drain q count failed => ((s q).take count).flatMap (fun body => [.taken q,.sent body]) ++
      if failed then [.taken q,.returned q] else []

-- A drain stops early only at a body it could not send.
def Deal.Fits (s : Queues ι β) : Deal ι β → Prop
  | .drain q count failed => if failed then count < (s q).length else count = (s q).length
  | _ => True

def Deal.lost (s : Queues ι β) : Deal ι β → List β
  | .keep q _ true => (s q).take 1
  | _ => []

def handed (mails : List (Mail ι β)) : List (ι × β) :=
  mails.filterMap fun | .handed q body => some (q,body) | _ => none
def handedTo (q : ι) (mails : List (Mail ι β)) : List β :=
  mails.filterMap fun | .handed p body => if p = q then some body else none | _ => none
def sent (mails : List (Mail ι β)) : List β :=
  mails.filterMap fun | .sent body => some body | _ => none

def drained : List (Mail ι β) → Nat
  | .taken _ :: .sent _ :: rest => drained rest+1
  | _ :: rest => drained rest
  | [] => 0

omit [DecidableEq ι] in
@[simp] theorem handed_append (a b : List (Mail ι β)) : handed (a ++ b) = handed a ++ handed b := List.filterMap_append
@[simp] theorem handedTo_append (q : ι) (a b : List (Mail ι β)) :
    handedTo q (a ++ b) = handedTo q a ++ handedTo q b := List.filterMap_append
omit [DecidableEq ι] in
@[simp] theorem sent_append (a b : List (Mail ι β)) : sent (a ++ b) = sent a ++ sent b := List.filterMap_append

theorem handedTo_eq (q : ι) (mails : List (Mail ι β)) :
    handedTo q mails = ((handed mails).filter fun given => given.1 = q).map Prod.snd := by
  induction mails with
  | nil => rfl
  | cons m rest ih =>
    unfold handedTo handed at ih ⊢
    cases m with
    | handed p body => by_cases same : p = q <;> simp [same,ih]
    | _ => simpa using ih

omit [DecidableEq ι] in
theorem sent_drained (q : ι) (bodies : List β) :
    sent (bodies.flatMap fun body => [Mail.taken q,.sent body]) = bodies := by
  induction bodies with
  | nil => rfl
  | cons body rest ih => simpa [sent] using ih

omit [DecidableEq ι] in
theorem handed_drained (q : ι) (bodies : List β) :
    handed (bodies.flatMap fun body => [Mail.taken q,.sent body]) = [] := by
  induction bodies with
  | nil => rfl
  | cons body rest ih => simpa [handed] using ih

theorem handedTo_drained (q p : ι) (bodies : List β) :
    handedTo p (bodies.flatMap fun body => [Mail.taken q,.sent body]) = [] := by
  induction bodies with
  | nil => rfl
  | cons body rest ih => simpa [handedTo] using ih

omit [DecidableEq ι] in
theorem post_mail (s : Queues ι β) (q : ι) (body : β) :
    handed (Deal.mail s (.post q body)) = [(q,body)] ∧ sent (Deal.mail s (.post q body)) = [body] := ⟨rfl,rfl⟩

omit [DecidableEq ι] in
theorem keep_mail (s : Queues ι β) (q : ι) (body : β) (evict : Bool) :
    handed (Deal.mail s (.keep q body evict)) = [(q,body)] ∧ sent (Deal.mail s (.keep q body evict)) = [] := by
  simp only [Deal.mail]
  split <;> exact ⟨rfl,rfl⟩

omit [DecidableEq ι] in
theorem drain_mail (s : Queues ι β) (q : ι) (count : Nat) (failed : Bool) :
    handed (Deal.mail s (.drain q count failed)) = [] ∧
      sent (Deal.mail s (.drain q count failed)) = (s q).take count := by
  simp only [Deal.mail]
  constructor
  · rw [handed_append,handed_drained]; cases failed <;> rfl
  · rw [sent_append,sent_drained]; cases failed <;> simp [sent]

omit [DecidableEq ι] in
theorem drained_later (earlier later : List (Mail ι β)) : drained later ≤ drained (earlier ++ later) := by
  have one (m : Mail ι β) (rest : List (Mail ι β)) : drained rest ≤ drained (m :: rest) := by
    cases m with
    | taken q =>
      cases rest with
      | nil => exact Nat.le_refl _
      | cons next rest => cases next <;> simp [drained]
    | _ => simp [drained]
  induction earlier with
  | nil => exact Nat.le_refl _
  | cons m rest ih => exact ih.trans (one m _)

omit [DecidableEq ι] in
theorem drained_drain (s : Queues ι β) (q : ι) (count : Nat) (failed : Bool) (enough : count ≤ (s q).length) :
    drained (Deal.mail s (.drain q count failed)) = count := by
  have counts (list : List β) : drained ((list.flatMap fun body => [Mail.taken q,.sent body]) ++
      if failed then [Mail.taken q,.returned q] else []) = list.length := by
    induction list with
    | nil => cases failed <;> rfl
    | cons body rest ih => simpa [drained] using ih
  rw [Deal.mail,counts,List.length_take,Nat.min_eq_left enough]

omit [DecidableEq ι] in
theorem appended_deal {s : Queues ι β} {d : Deal ι β} (member : .appended q body ∈ d.mail s) :
    ∃ evict, d = .keep q body evict := by
  cases d with
  | post p given => simp [Deal.mail] at member
  | keep p given evict =>
    simp only [Deal.mail] at member
    split at member <;> simp at member <;> exact ⟨evict,by rw [member.1,member.2]⟩
  | drain p count failed => cases failed <;> simp [Deal.mail] at member

theorem handedTo_deal (s : Queues ι β) (d : Deal ι β) (q : ι) :
    handedTo q (d.mail s) = match d with
      | .post p body | .keep p body _ => if p = q then [body] else []
      | .drain _ _ _ => [] := by
  cases d with
  | post p body => by_cases same : p = q <;> simp [Deal.mail,handedTo,same]
  | keep p body evict => simp only [Deal.mail]; split <;> by_cases same : p = q <;> simp [handedTo,same]
  | drain p count failed => simp only [Deal.mail]; rw [handedTo_append,handedTo_drained]; cases failed <;> rfl

section Conservation
variable [Fintype ι]

def total (s : Queues ι β) : Multiset β := ∑ q, (s q : Multiset β)

theorem sum_update {M : Type} [AddCommMonoid M] (f : ι → M) (q : ι) (m : M) :
    (∑ p, Function.update f q m p) + f q = (∑ p, f p) + m := by
  have after : ∑ p, Function.update f q m p = m + ∑ p ∈ Finset.univ \ {q}, f p :=
    Finset.sum_update_of_mem (Finset.mem_univ q) f m
  have before : ∑ p, f p = f q + ∑ p ∈ Finset.univ \ {q}, f p := by
    have h := Finset.sum_update_of_mem (Finset.mem_univ q) f (f q)
    rwa [Function.update_eq_self q f] at h
  rw [after,before]
  abel

theorem total_update (s : Queues ι β) (q : ι) (list : List β) :
    total (Function.update s q list) + (s q : Multiset β) = total s + (list : Multiset β) := by
  have moved : (fun p => ((Function.update s q list p : List β) : Multiset β)) =
      Function.update (fun p => (s p : Multiset β)) q (list : Multiset β) := by
    funext p
    by_cases same : p = q
    · subst same; simp
    · simp [same]
  rw [total,moved]
  exact sum_update (fun p => (s p : Multiset β)) q list

theorem conserved (s : Queues ι β) (d : Deal ι β) :
    (((handed (d.mail s)).map Prod.snd : List β) : Multiset β) + total s =
      (sent (d.mail s) : Multiset β) + (d.lost s : Multiset β) + total (d.apply s) := by
  cases d with
  | post q body => simp [post_mail,Deal.lost,Deal.apply]
  | keep q body evict =>
    have moved := total_update s q ((if evict then (s q).tail else s q) ++ [body])
    rw [(keep_mail s q body evict).1,(keep_mail s q body evict).2]
    refine add_right_cancel (b := (s q : Multiset β)) ?_
    cases evict with
    | false =>
      simp only [Bool.false_eq_true,↓reduceIte] at moved
      simp only [Deal.lost,Deal.apply,Bool.false_eq_true,↓reduceIte,add_assoc]
      rw [moved]
      simp only [List.map_cons,List.map_nil,Multiset.coe_nil,zero_add,← Multiset.coe_add]
      abel
    | true =>
      have parts : ((s q : List β) : Multiset β) = ((s q).take 1 : Multiset β) + ((s q).tail : Multiset β) := by
        cases s q <;> simp
      simp only [↓reduceIte] at moved
      simp only [Deal.lost,Deal.apply,↓reduceIte,add_assoc]
      rw [moved]
      simp only [List.map_cons,List.map_nil,Multiset.coe_nil,zero_add,← Multiset.coe_add]
      nth_rewrite 1 [parts]
      abel
  | drain q count failed =>
    have moved := total_update s q ((s q).drop count)
    have parts : ((s q : List β) : Multiset β) = ((s q).take count : Multiset β) + ((s q).drop count : Multiset β) := by
      rw [Multiset.coe_add,List.take_append_drop]
    rw [(drain_mail s q count failed).1,(drain_mail s q count failed).2]
    refine add_right_cancel (b := (s q : Multiset β)) ?_
    simp only [Deal.lost,Deal.apply,List.map_nil,Multiset.coe_nil,zero_add,add_zero,add_assoc]
    rw [moved]
    nth_rewrite 1 [parts]
    abel

end Conservation

theorem in_order (s : Queues ι β) (d : Deal ι β) (q : ι) (earlier : List β) (ordered : (s q).Sublist earlier) :
    ((d.apply s) q).Sublist (earlier ++ handedTo q (d.mail s)) := by
  rw [handedTo_deal]
  cases d with
  | post p body => exact ordered.trans (List.sublist_append_left _ _)
  | keep p body evict =>
    by_cases same : q = p
    · subst same
      simp only [Deal.apply,Function.update_self,if_true]
      refine List.Sublist.append ?_ (List.Sublist.refl _)
      split
      · exact (List.tail_sublist _).trans ordered
      · exact ordered
    · simp only [Deal.apply,Function.update_of_ne same]
      exact ordered.trans (List.sublist_append_left _ _)
  | drain p count failed =>
    simp only [Deal.apply,List.append_nil]
    by_cases same : q = p
    · subst same; rw [Function.update_self]; exact (List.drop_sublist _ _).trans ordered
    · rwa [Function.update_of_ne same]

end Outbox
