import KeyspaceAmqp.Changes

namespace KeyspaceAmqp
open Programs Paths Outbox

theorem Store.Full.pos {s : Store} (full : s.Full) : 0 < s.limit.toNat ∧ s.limit.toNat ≤ s.len.toNat :=
  ⟨UInt64.lt_iff_toNat_lt.mp full.1,UInt64.le_iff_toNat_le.mp full.2⟩

def Store.Exact (s : Store) (db : Int32) : Prop := s.len.toNat = (s.storage db).length

-- From an exact counter a step leaves an exact one unless it adds an event to the list
-- without evicting another.
theorem exact_change (change : Change db s s' count kept) (exact : s.Exact db) :
    count ≤ s.len.toNat ∧ (s'.Exact db ↔ (kept = true → s.Full)) := by
  have exact : s.len.toNat = (s.storage db).length := exact
  cases change with
  | sends count some =>
    have small : count < 2^64 := by have := s.len.toNat_lt; omega
    have less : UInt64.ofNat count ≤ s.len := by
      rw [UInt64.le_iff_toNat_le,UInt64.toNat_ofNat_of_lt' small]; omega
    refine ⟨by omega,?_⟩
    simp only [Store.Exact,Function.update_self,List.length_drop,UInt64.toNat_sub_of_le _ _ less,
      UInt64.toNat_ofNat_of_lt' small,Bool.false_eq_true,false_imp_iff,iff_true]
    omega
  | keeps body =>
    refine ⟨Nat.zero_le _,?_⟩
    simp only [Store.Exact,Function.update_self,Store.evicted,exact,forall_const]
    by_cases full : s.Full
    · have pos := full.pos
      simp only [full,if_true,List.length_append,List.length_tail,List.length_singleton,iff_true]
      omega
    · simp [full]
  | configures limit =>
    refine ⟨Nat.zero_le _,?_⟩
    have small : (s.storage db).length < 2^64 := by have := s.len.toNat_lt; omega
    simp [Store.Exact,UInt64.toNat_ofNat_of_lt' small]

-- fallbackStorageLen is right in every state, and its decrement never passes zero,
-- exactly in the runs that never store an event without evicting one.
theorem counter_exact_iff (loaded : Loaded ctx argv storage start) (clean : Clean storage)
    (size : (storage ctx.db).length < 2^64) (run : Run start steps last)
    (one : ∀ s ∈ steps, s.label.callback.ctx.db = ctx.db) :
    (start.store.Exact ctx.db ∧ ∀ s ∈ steps, s.after.store.Exact ctx.db ∧
      drained (mail s.after.trace) ≤ s.before.fallbackStorageLen.toNat) ↔
    ∀ s ∈ steps, Stores s → s.before.store.Full := by
  obtain ⟨listed,counted⟩ := loaded_store loaded
  have begun : start.store.Exact ctx.db := by
    simp [Store.Exact,listed,counted,UInt64.toNat_ofNat_of_lt' size]
  have clean : Clean start.storage := listed ▸ clean
  constructor
  · rintro ⟨_,after⟩ s member stored
    have before := run.before (fun w => w.store.Exact ctx.db) begun (fun t inside => (after t inside).1) s member
    obtain ⟨kept,change,flag⟩ := run_change run clean one member
    exact (exact_change change before).2.mp (after s member).1 (flag.mp stored)
  · intro evicts
    have exact : ∀ s ∈ steps, s.before.store.Exact ctx.db ∧ s.after.store.Exact ctx.db := by
      refine (run.throughout (fun w => w.store.Exact ctx.db) (· ∈ steps) begun ?_ fun _ member => member).2
      intro s _ member before
      obtain ⟨kept,change,flag⟩ := run_change run clean one member
      exact (exact_change change before).2.mpr fun stored => evicts s member (flag.mpr stored)
    refine ⟨begun,fun s member => ⟨(exact s member).2,?_⟩⟩
    obtain ⟨kept,change,_⟩ := run_change run clean one member
    exact (exact_change change (exact s member).1).1

theorem counter_wraps : ∃ start steps last, Loaded (master 0) (allKeys "10") (fun _ => []) start ∧
    Run start steps last ∧ (∀ s ∈ steps, s.label.callback.ctx.db = 0) ∧
    last.storage 0 = [] ∧ last.fallbackStorageLen = 18446744073709551615 := by
  obtain ⟨start,steps,last,loaded,run,seen⟩ := played_run (master 0) (allKeys "10") (fun _ => [])
    [expired 0 "a" (connects ++ refuses),expired 0 "b" (accepts ++ accepts)]
    (fun _ steps last => decide ((∀ s ∈ steps, s.label.callback.ctx.db = 0) ∧
      last.storage 0 = [] ∧ last.fallbackStorageLen = 18446744073709551615)) (by decide +kernel)
  exact ⟨start,steps,last,loaded,run,of_decide_eq_true seen⟩

theorem counter_exact_iff_full : ∃ start steps last, Run start steps last ∧ (∃ s ∈ steps, Stores s) ∧
    ((start.store.Exact 0 ∧ ∀ s ∈ steps, s.after.store.Exact 0 ∧
      drained (mail s.after.trace) ≤ s.before.fallbackStorageLen.toNat) ↔
    ∀ s ∈ steps, Stores s → s.before.store.Full) := by
  obtain ⟨start,steps,last,loaded,run,seen⟩ := played_run (master 0) (allKeys "1")
    (fun db => if db = 0 then [ascii "0\nexpired\nold"] else [])
    [expired 0 "a" (connects ++ refuses),expired 0 "b" (accepts ++ accepts)]
    (fun _ steps _ => decide ((∀ s ∈ steps, s.label.callback.ctx.db = 0) ∧ ∃ s ∈ steps, Stores s)) (by decide +kernel)
  obtain ⟨one,stored⟩ := of_decide_eq_true seen
  refine ⟨start,steps,last,run,stored,counter_exact_iff loaded ?_ (by decide) run one⟩
  intro db
  dsimp only
  split <;> decide

def EvictsOnlyWhenFull (db : Int32) (s : Step) : Prop := Stores s → ∃ body,
  s.after.storage db = s.before.storage db ++ [body] ∨
  (0 < s.before.settings.fallbackStorageMaxSize ∧
    s.before.settings.fallbackStorageMaxSize.toNat ≤ (s.before.storage db).length ∧
    s.after.storage db = (s.before.storage db).tail ++ [body])

def Store.Covered (s : Store) (db : Int32) : Prop := s.len.toNat ≤ (s.storage db).length

theorem covered_change (change : Change db s s' count kept) (covered : s.Covered db)
    (counted : count ≤ s.len.toNat) : s'.Covered db := by
  have covered : s.len.toNat ≤ (s.storage db).length := covered
  cases change with
  | sends count some =>
    have small : count < 2^64 := by have := s.len.toNat_lt; omega
    have less : UInt64.ofNat count ≤ s.len := by
      rw [UInt64.le_iff_toNat_le,UInt64.toNat_ofNat_of_lt' small]; omega
    simp only [Store.Covered,Function.update_self,List.length_drop,UInt64.toNat_sub_of_le _ _ less,
      UInt64.toNat_ofNat_of_lt' small]
    omega
  | keeps body =>
    simp only [Store.Covered,Function.update_self,Store.evicted,List.length_append,List.length_singleton]
    split
    · rw [List.length_tail]; omega
    · omega
  | configures limit =>
    simp only [Store.Covered,UInt64.toNat_ofNat']
    exact Nat.mod_le _ _

theorem covered_evicts (change : Change db s s' count true) (covered : s.Covered db) : ∃ body,
    s'.storage db = s.storage db ++ [body] ∨
    (0 < s.limit ∧ s.limit.toNat ≤ (s.storage db).length ∧ s'.storage db = (s.storage db).tail ++ [body]) := by
  cases change with
  | keeps body =>
    refine ⟨body.bytes,?_⟩
    simp only [Function.update_self,Store.evicted]
    by_cases full : s.Full
    · rw [if_pos full]
      exact .inr ⟨full.1,full.pos.2.trans covered,rfl⟩
    · rw [if_neg full]
      exact .inl rfl

-- As long as no step drains more stored events than the counter stands at, nothing is
-- evicted early.
theorem evicts_only_when_full (loaded : Loaded ctx argv storage start) (clean : Clean storage)
    (run : Run start steps last) (one : ∀ s ∈ steps, s.label.callback.ctx.db = ctx.db)
    (counted : ∀ s ∈ steps, drained (mail s.after.trace) ≤ s.before.fallbackStorageLen.toNat) :
    ∀ s ∈ steps, EvictsOnlyWhenFull ctx.db s := by
  obtain ⟨listed,counter⟩ := loaded_store loaded
  have begun : start.store.Covered ctx.db := by
    simp only [Store.Covered,store_len,store_storage,listed,counter,UInt64.toNat_ofNat']
    exact Nat.mod_le _ _
  have clean : Clean start.storage := listed ▸ clean
  have covered : ∀ s ∈ steps, s.before.store.Covered ctx.db ∧ s.after.store.Covered ctx.db := by
    refine (run.throughout (fun w => w.store.Covered ctx.db) (· ∈ steps) begun ?_ fun _ member => member).2
    intro s _ member before
    obtain ⟨kept,change,_⟩ := run_change run clean one member
    exact covered_change change before (counted s member)
  intro s member stored
  obtain ⟨kept,change,flag⟩ := run_change run clean one member
  cases flag.mp stored
  exact covered_evicts change (covered s member).1

theorem evicts_only_when_full_outage : ∃ start steps last, Run start steps last ∧ last.storage 0 = [ascii "0\nexpired\nb"] ∧
    ∀ s ∈ steps, EvictsOnlyWhenFull 0 s := by
  obtain ⟨start,steps,last,loaded,run,seen⟩ := played_run (master 0) (allKeys "1")
    (fun db => if db = 0 then [ascii "0\nexpired\nold"] else [])
    [expired 0 "a" (connects ++ refuses),expired 0 "b" refuses]
    (fun _ steps last => decide ((∀ s ∈ steps, s.label.callback.ctx.db = 0) ∧
      (∀ s ∈ steps, drained (mail s.after.trace) ≤ s.before.fallbackStorageLen.toNat) ∧
      last.storage 0 = [ascii "0\nexpired\nb"])) (by decide +kernel)
  obtain ⟨one,counted,list⟩ := of_decide_eq_true seen
  refine ⟨start,steps,last,run,list,evicts_only_when_full loaded ?_ run one counted⟩
  intro db
  dsimp only
  split <;> decide

-- Size 2. An outage and a full drain, then a second outage in which the list, one event
-- long, loses it to the next.
theorem second_outage_evicts_early : ∃ start steps last, Loaded (master 0) (allKeys "2") (fun _ => []) start ∧
    Run start steps last ∧ (∀ s ∈ steps, s.label.callback.ctx.db = 0 ∧ s.before.settings.fallbackStorageMaxSize = 2) ∧
    (handedOver (calls steps)).map Prod.snd = ["a","b","c","d"].map (fun key => ascii ("0\nexpired\n" ++ key)) ∧
    delivered (calls steps) = ["b","a"].map (fun key => ascii ("0\nexpired\n" ++ key)) ∧
    (∀ s ∈ steps, (s.before.storage 0).length ≤ 1) ∧ last.storage 0 = [ascii "0\nexpired\nd"] := by
  obtain ⟨start,steps,last,loaded,run,seen⟩ := played_run (master 0) (allKeys "2") (fun _ => [])
    [expired 0 "a" (connects ++ refuses),expired 0 "b" (accepts ++ accepts),expired 0 "c" refuses,expired 0 "d" refuses]
    (fun _ steps last => decide ((∀ s ∈ steps, s.label.callback.ctx.db = 0 ∧ s.before.settings.fallbackStorageMaxSize = 2) ∧
      (handedOver (calls steps)).map Prod.snd = ["a","b","c","d"].map (fun key => ascii ("0\nexpired\n" ++ key)) ∧
      delivered (calls steps) = ["b","a"].map (fun key => ascii ("0\nexpired\n" ++ key)) ∧
      (∀ s ∈ steps, (s.before.storage 0).length ≤ 1) ∧ last.storage 0 = [ascii "0\nexpired\nd"])) (by decide +kernel)
  exact ⟨start,steps,last,loaded,run,of_decide_eq_true seen⟩

def Bounded (db : Int32) (steps : List Step) : Prop := ∀ first s rest more,
  steps = first ++ (s :: rest) ++ more → Stores s → 0 < s.before.settings.fallbackStorageMaxSize →
  (∀ t ∈ rest, t.after.settings.fallbackStorageMaxSize = s.before.settings.fallbackStorageMaxSize) →
  ∀ t ∈ s :: rest, (t.after.storage db).length ≤ s.before.settings.fallbackStorageMaxSize.toNat

def Store.Room (s : Store) (db : Int32) : Prop := (s.storage db).length < s.limit.toNat ∨
  ((s.storage db).length = s.limit.toNat ∧ s.limit ≤ s.len)

theorem room_exact (change : Change db s s' count true) (sized : 0 < s.limit) :
    s'.limit = s.limit ∧ ((s'.storage db).length ≤ s.limit.toNat ↔ s.Room db) := by
  have positive : 0 < s.limit.toNat := UInt64.lt_iff_toNat_lt.mp sized
  cases change with
  | keeps body =>
    refine ⟨rfl,?_⟩
    simp only [Store.Room,Function.update_self,Store.evicted,List.length_append,List.length_singleton]
    by_cases full : s.Full
    · simp only [if_pos full,full.2,and_true,List.length_tail]
      omega
    · have short : ¬ s.limit ≤ s.len := fun enough => full ⟨sized,enough⟩
      simp only [if_neg full,short,and_false,or_false]
      omega

theorem change_shrinks (change : Change db s s' count false) : (s'.storage db).length ≤ (s.storage db).length := by
  cases change with
  | sends count some => simp
  | configures limit => exact Nat.le_refl _

-- The list keeps within its size exactly when every event stored under a size finds room.
theorem bounded_iff (run : Run start steps last) (clean : Clean start.storage)
    (one : ∀ s ∈ steps, s.label.callback.ctx.db = db) : Bounded db steps ↔
      ∀ s ∈ steps, Stores s → 0 < s.before.settings.fallbackStorageMaxSize → s.before.store.Room db := by
  constructor
  · intro bounded s member stored sized
    obtain ⟨first,more,parts⟩ := List.append_of_mem member
    obtain ⟨kept,change,flag⟩ := run_change run clean one member
    cases flag.mp stored
    refine (room_exact change sized).2.mp ?_
    exact bounded first s [] more (by simpa using parts) stored sized (by simp) s List.mem_cons_self
  · intro room first s rest more parts stored sized steady
    have inside : ∀ t ∈ s :: rest, t ∈ steps := fun t member =>
      parts ▸ List.mem_append_left _ (List.mem_append_right _ member)
    obtain ⟨middle,front,_⟩ := run.cut parts
    obtain ⟨_,later⟩ := front.around rfl
    obtain ⟨kept,change,flag⟩ := run_change run clean one (inside s List.mem_cons_self)
    cases flag.mp stored
    obtain ⟨same,exact⟩ := room_exact change sized
    have stays := (later.throughout (fun w => w.settings.fallbackStorageMaxSize = s.before.settings.fallbackStorageMaxSize ∧
      (w.storage db).length ≤ s.before.settings.fallbackStorageMaxSize.toNat) (· ∈ rest)
      ⟨same,exact.mpr (room s (inside s List.mem_cons_self) stored sized)⟩ ?_ fun _ member => member).2
    · intro t member
      rcases List.mem_cons.mp member with rfl | tail
      · exact exact.mpr (room t (inside t member) stored sized)
      · exact (stays t tail).2.2
    · rintro t _ member ⟨limit,short⟩
      have known := inside t (List.mem_cons_of_mem _ member)
      refine ⟨steady t member,?_⟩
      obtain ⟨again,change,flag⟩ := run_change run clean one known
      cases again with
      | false => exact (change_shrinks change).trans short
      | true =>
        have sized : 0 < t.before.settings.fallbackStorageMaxSize := limit.symm ▸ sized
        have fits := (room_exact change sized).2.mpr (room t known (flag.mpr rfl) sized)
        exact limit ▸ fits

theorem bounded_iff_outage : ∃ start steps last, Run start steps last ∧ (∃ s ∈ steps, Stores s) ∧
    (Bounded 0 steps ↔
      ∀ s ∈ steps, Stores s → 0 < s.before.settings.fallbackStorageMaxSize → s.before.store.Room 0) := by
  obtain ⟨start,steps,last,loaded,run,seen⟩ := played_run (master 0) (allKeys "1") (fun _ => [])
    [expired 0 "a" (connects ++ refuses)]
    (fun _ steps _ => decide ((∀ s ∈ steps, s.label.callback.ctx.db = 0) ∧ ∃ s ∈ steps, Stores s)) (by decide +kernel)
  obtain ⟨one,stored⟩ := of_decide_eq_true seen
  refine ⟨start,steps,last,run,stored,bounded_iff run ?_ one⟩
  rw [(loaded_store loaded).1]
  intro db bytes member
  cases member

theorem outage_outgrows_size : ∃ start steps last, Loaded (master 0) (allKeys "1") (fun _ => []) start ∧
    Run start steps last ∧ (∀ s ∈ steps, s.label.callback.ctx.db = 0 ∧ Stores s ∧
      s.after.settings.fallbackStorageMaxSize = 1) ∧ (last.storage 0).length = 3 := by
  obtain ⟨start,steps,last,loaded,run,seen⟩ := played_run (master 0) (allKeys "1") (fun _ => [])
    [expired 0 "a" (connects ++ refuses),expired 0 "b" refuses,expired 0 "c" refuses]
    (fun _ steps last => decide ((∀ s ∈ steps, s.label.callback.ctx.db = 0 ∧ Stores s ∧
      s.after.settings.fallbackStorageMaxSize = 1) ∧ (last.storage 0).length = 3)) (by decide +kernel)
  exact ⟨start,steps,last,loaded,run,of_decide_eq_true seen⟩

end KeyspaceAmqp
