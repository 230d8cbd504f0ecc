import KeyspaceAmqp.Library.Outbox

namespace Outbox
variable {ι β : Type} [DecidableEq ι]

-- An onlooker's books. Equal bodies are told apart by a ticket, their number in the
-- order of hand-over; a delivery is noted with `true` when the body went out straight
-- on being handed over and with `false` when it came out of a queue.
structure Ledger (ι : Type) where
  issued : Nat
  queue : ι → List Nat
  hand : Option Nat
  sent : List (Nat × Bool)

def Ledger.opening (q : ι) (waiting : Nat) : Ledger ι :=
  ⟨waiting,fun p => if p = q then List.range waiting else [],none,[]⟩

def Ledger.read (L : Ledger ι) : Mail ι β → Ledger ι
  | .handed _ _ => {L with issued := L.issued+1}
  | .sent _ => match L.hand with
    | some ticket => {L with hand := none,sent := L.sent ++ [(ticket,false)]}
    | none => {L with sent := L.sent ++ [(L.issued-1,true)]}
  | .taken q => match L.queue q with
    | [] => L
    | ticket :: rest => {L with queue := Function.update L.queue q rest,hand := some ticket}
  | .returned q => match L.hand with
    | some ticket => {L with queue := Function.update L.queue q (ticket :: L.queue q),hand := none}
    | none => L
  | .appended q _ => {L with queue := Function.update L.queue q (L.queue q ++ [L.issued-1]),hand := none}

def Ledger.reads (L : Ledger ι) (mails : List (Mail ι β)) : Ledger ι := mails.foldl Ledger.read L

@[simp] theorem reads_append (L : Ledger ι) (a b : List (Mail ι β)) : L.reads (a ++ b) = (L.reads a).reads b :=
  List.foldl_append

def Ledger.apply (L : Ledger ι) : Deal ι β → Ledger ι
  | .post _ _ => {L with issued := L.issued+1,sent := L.sent ++ [(L.issued,true)]}
  | .keep q _ evict => {L with
    issued := L.issued+1
    queue := Function.update L.queue q ((if evict then (L.queue q).tail else L.queue q) ++ [L.issued])}
  | .drain q count _ => {L with
    queue := Function.update L.queue q ((L.queue q).drop count)
    sent := L.sent ++ ((L.queue q).take count).map fun ticket => (ticket,false)}

theorem reads_sent (L : Ledger ι) (q : ι) (bodies : List β) (idle : L.hand = none)
    (enough : bodies.length ≤ (L.queue q).length) :
    L.reads (bodies.flatMap fun body => [Mail.taken q,.sent body]) = {L with
      queue := Function.update L.queue q ((L.queue q).drop bodies.length)
      sent := L.sent ++ ((L.queue q).take bodies.length).map fun ticket => (ticket,false)} := by
  induction bodies generalizing L with
  | nil => simp [Ledger.reads]
  | cons body rest ih =>
    cases tickets : L.queue q with
    | nil => simp [tickets] at enough
    | cons ticket later =>
      have once : L.reads ([Mail.taken q,.sent body] : List (Mail ι β)) =
          ⟨L.issued,Function.update L.queue q later,none,L.sent ++ [(ticket,false)]⟩ := by
        simp [Ledger.reads,Ledger.read,tickets]
      rw [List.flatMap_cons,reads_append,once,ih _ rfl (by simpa [tickets] using enough)]
      simp [idle]

theorem reads_refused (L : Ledger ι) (q : ι) (idle : L.hand = none) :
    L.reads ([.taken q,.returned q] : List (Mail ι β)) = L := by
  obtain ⟨issued,queue,hand,sent⟩ := L
  cases idle
  cases tickets : queue q with
  | nil => simp [Ledger.reads,Ledger.read,tickets]
  | cons ticket later =>
    simp only [Ledger.reads,Ledger.read,tickets,List.foldl_cons,List.foldl_nil,Function.update_self,
      Function.update_idem]
    rw [← tickets,Function.update_eq_self]

-- The books against what was handed over and sent, and what waits in one queue: the
-- number of a ticket is its body's place in the order of hand-over.
structure Ledger.Tracks (L : Ledger ι) (q : ι) (s : Queues ι β) (given gone : List β) : Prop where
  issued : L.issued = given.length
  idle : L.hand = none
  queue : (L.queue q).map (fun ticket => given[ticket]?) = (s q).map some
  sent : L.sent.map (fun d => given[d.1]?) = gone.map some

omit [DecidableEq ι] in
theorem Ledger.Tracks.length_eq {L : Ledger ι} {s : Queues ι β} (tracks : L.Tracks q s given gone) :
    (L.queue q).length = (s q).length := by
  simpa using congrArg List.length tracks.queue

theorem opening_tracks (q : ι) (s : Queues ι β) : (Ledger.opening q (s q).length).Tracks q s (s q) [] := by
  refine ⟨rfl,rfl,?_,rfl⟩
  refine List.ext_getElem (by simp [Ledger.opening]) ?_
  intro i _ inside
  simp only [List.length_map] at inside
  simp [Ledger.opening,inside]

def Deal.queue : Deal ι β → ι
  | .post q _ | .keep q _ _ | .drain q _ _ => q

theorem reads_deal {L : Ledger ι} {s : Queues ι β} (d : Deal ι β) (tracks : L.Tracks d.queue s given gone)
    (fits : d.Fits s) : L.reads (d.mail s) = L.apply d := by
  cases d with
  | post q body => simp [Deal.mail,Ledger.reads,Ledger.read,Ledger.apply,tracks.idle]
  | keep q body evict =>
    have same : (L.queue q).length = (s q).length := tracks.length_eq
    have idle := tracks.idle
    cases tickets : L.queue q with
    | nil =>
      have empty : s q = [] := by simpa [tickets] using same.symm
      simp [Deal.mail,Ledger.reads,Ledger.read,Ledger.apply,empty,tickets,idle]
    | cons ticket later =>
      have full : s q ≠ [] := by intro none; simp [tickets,none] at same
      cases evict <;> simp [Deal.mail,Ledger.reads,Ledger.read,Ledger.apply,full,tickets,idle]
  | drain q count failed =>
    have same : (L.queue q).length = (s q).length := tracks.length_eq
    have short : ((s q).take count).length = count := by
      cases failed <;> simp only [Deal.Fits,Bool.false_eq_true,↓reduceIte] at fits <;>
        simp only [List.length_take] <;> omega
    have sends := reads_sent L q ((s q).take count) tracks.idle (by rw [short]; simp at short; omega)
    rw [short] at sends
    simp only [Deal.mail,reads_append,sends,Ledger.apply]
    cases failed
    · rfl
    · exact reads_refused _ q tracks.idle

omit [DecidableEq ι] in
theorem lookup_later {α : Type} {given more bodies : List β} {items : List α} {ticket : α → Nat}
    (found : items.map (fun x => given[ticket x]?) = bodies.map some) :
    items.map (fun x => (given ++ more)[ticket x]?) = bodies.map some := by
  rw [← found]
  refine List.map_congr_left ?_
  intro x member
  have known : given[ticket x]? ∈ bodies.map some := found ▸ List.mem_map.mpr ⟨x,member,rfl⟩
  obtain ⟨body,_,same⟩ := List.mem_map.mp known
  exact List.getElem?_append_left (List.getElem?_eq_some_iff.mp same.symm).1

theorem tracks_deal {L : Ledger ι} {s : Queues ι β} (d : Deal ι β) (tracks : L.Tracks d.queue s given gone)
    (fits : d.Fits s) : (L.reads (d.mail s)).Tracks d.queue (d.apply s)
      (given ++ (handed (d.mail s)).map Prod.snd) (gone ++ sent (d.mail s)) := by
  rw [reads_deal d tracks fits]
  cases d with
  | post q body =>
    rw [(post_mail s q body).1,(post_mail s q body).2]
    refine ⟨by simp [Ledger.apply,tracks.issued],tracks.idle,lookup_later tracks.queue,?_⟩
    simp only [Ledger.apply,List.map_append,lookup_later tracks.sent]
    simp [tracks.issued]
  | keep q body evict =>
    rw [(keep_mail s q body evict).1,(keep_mail s q body evict).2]
    refine ⟨by simp [Ledger.apply,tracks.issued],tracks.idle,?_,by simpa [Ledger.apply] using lookup_later tracks.sent⟩
    have old : (L.queue q).map (fun ticket => (given ++ [body])[ticket]?) = (s q).map some := lookup_later tracks.queue
    have newest : (given ++ [body])[L.issued]? = some body := by simp [tracks.issued]
    simp only [Deal.queue,Ledger.apply,Deal.apply,Function.update_self,List.map_append,List.map_cons,List.map_nil,newest]
    cases evict with
    | false => simp only [Bool.false_eq_true,↓reduceIte,old]
    | true => simp only [↓reduceIte,List.map_tail,old]
  | drain q count failed =>
    rw [(drain_mail s q count failed).1,(drain_mail s q count failed).2,List.map_nil,List.append_nil]
    have queue : (L.queue q).map (fun ticket => given[ticket]?) = (s q).map some := tracks.queue
    refine ⟨tracks.issued,tracks.idle,?_,?_⟩
    · simp only [Deal.queue,Ledger.apply,Deal.apply,Function.update_self,List.map_drop,queue]
    · have taken : ((L.queue q).take count).map (fun ticket => given[ticket]?) = ((s q).take count).map some := by
        rw [List.map_take,queue,List.map_take]
      simp only [Ledger.apply,List.map_append,tracks.sent,List.map_map,← taken]
      rfl

-- One queue: deliveries out of it keep the order of hand-over, so do straight ones, and
-- a straight delivery never comes after that of a later ticket. The only way a later
-- event gets ahead is to go out straight while the earlier one waits.
structure Ledger.Ordered (L : Ledger ι) (q : ι) : Prop where
  sentKnown : ∀ d ∈ L.sent, d.1 < L.issued
  queueKnown : ∀ ticket ∈ L.queue q, ticket < L.issued
  queue : (L.queue q).Pairwise (· < ·)
  sent : L.sent.Pairwise fun a b => a.1 < b.1 ∨ (a.2 = true ∧ b.2 = false)
  across : ∀ d ∈ L.sent, ∀ ticket ∈ L.queue q, d.1 < ticket ∨ d.2 = true
  once : (L.sent.map Prod.fst ++ L.queue q).Nodup

theorem opening_ordered (q : ι) (waiting : Nat) : (Ledger.opening q waiting).Ordered q := by
  constructor <;> simp [Ledger.opening,List.nodup_range,List.pairwise_lt_range]

omit [DecidableEq ι] in
theorem Ledger.Ordered.unseen {L : Ledger ι} (ordered : L.Ordered q) {waiting : List Nat}
    (part : waiting.Sublist (L.queue q)) : (L.issued :: (L.sent.map Prod.fst ++ waiting)).Nodup := by
  refine List.nodup_cons.mpr ⟨?_,ordered.once.sublist ((List.Sublist.refl _).append part)⟩
  intro member
  rcases List.mem_append.mp member with gone | waits
  · obtain ⟨d,inside,eq⟩ := List.mem_map.mp gone
    exact absurd (ordered.sentKnown d inside) (by omega)
  · exact absurd (ordered.queueKnown _ (part.subset waits)) (by omega)

theorem ordered_post {L : Ledger ι} (ordered : L.Ordered q) (body : β) : (L.apply (.post q body)).Ordered q := by
  refine ⟨?_,fun ticket member => Nat.lt_succ_of_lt (ordered.queueKnown ticket member),ordered.queue,?_,?_,?_⟩
  · intro d member
    rcases List.mem_append.mp member with old | new
    · exact Nat.lt_succ_of_lt (ordered.sentKnown d old)
    · cases List.mem_singleton.mp new; exact Nat.lt_succ_self _
  · refine List.pairwise_append.mpr ⟨ordered.sent,List.pairwise_singleton _ _,?_⟩
    intro d old new member
    cases List.mem_singleton.mp member
    exact .inl (ordered.sentKnown d old)
  · intro d member ticket waits
    rcases List.mem_append.mp member with old | new
    · exact ordered.across d old ticket waits
    · cases List.mem_singleton.mp new; exact .inr rfl
  · have moved : ((L.sent ++ [(L.issued,true)]).map Prod.fst ++ L.queue q).Perm
        (L.issued :: (L.sent.map Prod.fst ++ L.queue q)) := by simp
    exact moved.nodup_iff.mpr (ordered.unseen (List.Sublist.refl _))

theorem ordered_keep {L : Ledger ι} (ordered : L.Ordered q) (body : β) (evict : Bool) :
    (L.apply (.keep q body evict)).Ordered q := by
  have part : (if evict then (L.queue q).tail else L.queue q).Sublist (L.queue q) := by
    split
    · exact List.tail_sublist _
    · exact List.Sublist.refl _
  generalize remaining : (if evict then (L.queue q).tail else L.queue q) = waiting at part
  have after : (L.apply (.keep q body evict)).queue q = waiting ++ [L.issued] := by
    simp [Ledger.apply,remaining]
  refine ⟨fun d member => Nat.lt_succ_of_lt (ordered.sentKnown d member),?_,?_,ordered.sent,?_,?_⟩ <;> rw [after]
  · intro ticket member
    rcases List.mem_append.mp member with old | new
    · exact Nat.lt_succ_of_lt (ordered.queueKnown ticket (part.subset old))
    · cases List.mem_singleton.mp new; exact Nat.lt_succ_self _
  · refine List.pairwise_append.mpr ⟨ordered.queue.sublist part,List.pairwise_singleton _ _,?_⟩
    intro ticket old new member
    cases List.mem_singleton.mp member
    exact ordered.queueKnown ticket (part.subset old)
  · intro d gone ticket member
    rcases List.mem_append.mp member with old | new
    · exact ordered.across d gone ticket (part.subset old)
    · cases List.mem_singleton.mp new; exact .inl (ordered.sentKnown d gone)
  · rw [← List.append_assoc]
    exact (List.perm_append_singleton _ _).nodup_iff.mpr (ordered.unseen part)

theorem ordered_drain {L : Ledger ι} (ordered : L.Ordered q) (count : Nat) (failed : Bool) :
    (L.apply (.drain q count failed : Deal ι β)).Ordered q := by
  have after : (L.apply (.drain q count failed : Deal ι β)).queue q = (L.queue q).drop count := by
    simp [Ledger.apply]
  have sorted := List.pairwise_append.mp ((List.take_append_drop count (L.queue q)).symm ▸ ordered.queue)
  have taken : ∀ d ∈ ((L.queue q).take count).map (fun ticket => (ticket,false)),
      d.1 ∈ (L.queue q).take count ∧ d.2 = false := by
    intro d member
    obtain ⟨ticket,inside,rfl⟩ := List.mem_map.mp member
    exact ⟨inside,rfl⟩
  refine ⟨?_,?_,?_,?_,?_,?_⟩
  · intro d member
    rcases List.mem_append.mp member with old | new
    · exact ordered.sentKnown d old
    · exact ordered.queueKnown _ (List.mem_of_mem_take (taken d new).1)
  · rw [after]; exact fun ticket member => ordered.queueKnown ticket (List.mem_of_mem_drop member)
  · rw [after]; exact sorted.2.1
  · refine List.pairwise_append.mpr ⟨ordered.sent,List.pairwise_map.mpr (sorted.1.imp fun less => .inl less),?_⟩
    intro d old e new
    rcases ordered.across d old e.1 (List.mem_of_mem_take (taken e new).1) with less | straight
    · exact .inl less
    · exact .inr ⟨straight,(taken e new).2⟩
  · rw [after]
    intro d member ticket waits
    rcases List.mem_append.mp member with old | new
    · exact ordered.across d old ticket (List.mem_of_mem_drop waits)
    · exact .inl (sorted.2.2 _ (taken d new).1 _ waits)
  · have same : (L.apply (.drain q count failed : Deal ι β)).sent.map Prod.fst ++
        (L.apply (.drain q count failed : Deal ι β)).queue q = L.sent.map Prod.fst ++ L.queue q := by
      simp [Ledger.apply,Function.comp_def]
    rw [same]
    exact ordered.once

theorem ordered_deal {L : Ledger ι} (d : Deal ι β) (ordered : L.Ordered d.queue) : (L.apply d).Ordered d.queue := by
  cases d with
  | post q body => exact ordered_post ordered body
  | keep q body evict => exact ordered_keep ordered body evict
  | drain q count failed => exact ordered_drain ordered count failed

end Outbox
