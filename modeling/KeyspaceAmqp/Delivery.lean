import KeyspaceAmqp.Turns
import Mathlib.Data.FinEnum

namespace KeyspaceAmqp
open Programs Paths Outbox

def Store.loss (s : Store) (m : Move) : List Bytes := match s.deal m with
  | some d => d.lost s.storage
  | none => []

def Store.losses : Store → List Move → List Bytes
  | _,[] => []
  | s,m :: rest => s.loss m ++ (s.move m).losses rest

theorem conserved_move (s : Store) (m : Move) :
    (((handed (s.mail m)).map Prod.snd : List Bytes) : Multiset Bytes) + total s.storage =
      (sent (s.mail m) : Multiset Bytes) + (s.loss m : Multiset Bytes) + total (s.move m).storage := by
  simp only [Store.mail,Store.loss,Store.move]
  cases s.deal m with
  | some d => exact conserved s.storage d
  | none => simp [handed,sent]

theorem conserved_moves (s : Store) (ms : List Move) :
    (((handed (s.mails ms)).map Prod.snd : List Bytes) : Multiset Bytes) + total s.storage =
      (sent (s.mails ms) : Multiset Bytes) + (s.losses ms : Multiset Bytes) + total (s.moves ms).storage := by
  induction ms generalizing s with
  | nil => simp [Store.mails,Store.losses,Store.moves,handed,sent]
  | cons m rest ih =>
    have first := conserved_move s m
    have later := ih (s.move m)
    simp only [Store.mails,Store.losses,handed_append,sent_append,List.map_append,← Multiset.coe_add]
    rw [moves_cons]
    calc _ = ((handed ((s.move m).mails rest)).map Prod.snd : Multiset Bytes) +
          (((handed (s.mail m)).map Prod.snd : Multiset Bytes) + total s.storage) := by abel
      _ = ((handed ((s.move m).mails rest)).map Prod.snd : Multiset Bytes) + total (s.move m).storage +
          ((sent (s.mail m) : Multiset Bytes) + (s.loss m : Multiset Bytes)) := by rw [first]; abel
      _ = _ := by rw [later]; abel

theorem ordered_moves (s : Store) (ms : List Move) (q : Int32) (earlier : List Bytes)
    (ordered : (s.storage q).Sublist earlier) :
    ((s.moves ms).storage q).Sublist (earlier ++ handedTo q (s.mails ms)) := by
  induction ms generalizing s earlier with
  | nil => simpa [Store.moves,Store.mails,handedTo] using ordered
  | cons m rest ih =>
    have first : ((s.move m).storage q).Sublist (earlier ++ handedTo q (s.mail m)) := by
      simp only [Store.mail,Store.move]
      cases s.deal m with
      | some d => exact in_order s.storage d q earlier ordered
      | none => simpa [handedTo] using ordered
    have later := ih _ _ first
    rw [List.append_assoc,← handedTo_append] at later
    exact later

theorem unlimited_lossless (shape : Shape db ms) (s : Store) (unlimited : s.limit = 0) : s.losses ms = [] := by
  have room : ¬ s.Full := fun full => absurd full.1 (by simp [unlimited])
  cases shape <;> simp [Store.losses,Store.loss,Store.deal,Deal.lost,room]

-- A step sends the oldest stored events of its database in their order and leaves the
-- rest in place; an event handed over goes out before them or joins the list behind.
def DrainsInOrder (s : Step) : Prop :=
  ∃ direct count kept, count ≤ (s.before.storage s.label.callback.ctx.db).length ∧
    delivered s.after.trace = direct ++ (s.before.storage s.label.callback.ctx.db).take count ∧
    s.after.storage = Function.update s.before.storage s.label.callback.ctx.db
      ((s.before.storage s.label.callback.ctx.db).drop count ++ kept) ∧
    handedOver s.after.trace = (direct ++ kept).map fun body => (s.label.callback.ctx.db,body)

theorem shape_parts (shape : Shape db ms) (s : Store) (fit : s.AllFit ms) :
    ∃ direct count kept, count ≤ (s.storage db).length ∧ (kept = [] ∨ count = 0) ∧
      sent (s.mails ms) = direct ++ (s.storage db).take count ∧
      (s.moves ms).storage = Function.update s.storage db
        ((if kept = [] then s.storage db else s.evicted db).drop count ++ kept) ∧
      handed (s.mails ms) = (direct ++ kept).map fun body => (db,body) := by
  cases shape with
  | idle => exact ⟨[],0,[],by simp,.inl rfl,rfl,by simp [Store.moves],rfl⟩
  | configured limit => exact ⟨[],0,[],by simp,.inl rfl,rfl,by simp [Store.moves,Store.move,Store.deal],rfl⟩
  | posted body count failed =>
    refine ⟨[body.bytes],count,[],drain_count fit.2.1,.inl rfl,?_,by rw [List.append_nil]; rfl,?_⟩
    · simp only [Store.mails,List.append_nil,sent_append]
      exact congrArg _ (drain_mail s.storage db count failed).2
    · simp only [Store.mails,List.append_nil,handed_append]
      exact congrArg _ (drain_mail s.storage db count failed).1
  | kept body =>
    refine ⟨[],0,[body.bytes],by simp,.inr rfl,?_,?_,?_⟩
    · simp only [Store.mails,List.append_nil]
      exact (keep_mail s.storage db body.bytes _).2
    · simp [Store.moves,move_keep]
    · simp only [Store.mails,List.append_nil]
      exact (keep_mail s.storage db body.bytes _).1
  | drained count failed =>
    refine ⟨[],count,[],drain_count fit.1,.inl rfl,?_,by rw [List.append_nil]; rfl,?_⟩
    · simp only [Store.mails,List.append_nil]
      exact (drain_mail s.storage db count failed).2
    · simp only [Store.mails,List.append_nil]
      exact (drain_mail s.storage db count failed).1

theorem unlimited_shape (shape : Shape db ms) (s : Store) (unlimited : s.limit = 0) (fit : s.AllFit ms) :
    ∃ direct count kept, count ≤ (s.storage db).length ∧
      sent (s.mails ms) = direct ++ (s.storage db).take count ∧
      (s.moves ms).storage = Function.update s.storage db ((s.storage db).drop count ++ kept) ∧
      handed (s.mails ms) = (direct ++ kept).map fun body => (db,body) := by
  have room : ¬ s.Full := fun full => absurd full.1 (by simp [unlimited])
  obtain ⟨direct,count,kept,some,_,sends,moved,hands⟩ := shape_parts shape s fit
  rw [Store.evicted,if_neg room,ite_self] at moved
  exact ⟨direct,count,kept,some,sends,moved,hands⟩

structure Conserved (steps : List Step) (w : World) : Prop where
  clean : Clean w.storage
  balance : (((handedOver (calls steps)).map Prod.snd : List Bytes) : Multiset Bytes) =
    (delivered (calls steps) : Multiset Bytes) + ∑ db, (w.storage db : Multiset Bytes)
  ordered : ∀ db, (w.storage db).Sublist (((handedOver (calls steps)).filter fun given => given.1 = db).map Prod.snd)
  drains : ∀ s ∈ steps, DrainsInOrder s

theorem conserved_step (s : Step) (taken : step s.before s.label = some s.after)
    (unlimited : s.before.settings.fallbackStorageMaxSize = 0) (old : Conserved done s.before) :
    Conserved (done ++ [s]) s.after := by
  obtain ⟨ms,shape,store,fit,mailed,_⟩ := step_effect taken
  have mailed := mailed old.clean
  have listed : s.after.storage = (s.before.store.moves ms).storage := congrArg Store.storage store
  have given : handedOver s.after.trace = handed (s.before.store.mails ms) := by rw [← handed_mail,mailed]
  have gone : delivered s.after.trace = sent (s.before.store.mails ms) := by rw [← sent_mail,mailed]
  refine ⟨listed ▸ clean_moves _ old.clean ms,?_,?_,?_⟩
  · have moved := conserved_moves s.before.store ms
    rw [unlimited_lossless shape s.before.store unlimited,← given,← gone,← store] at moved
    have moved : (((handedOver s.after.trace).map Prod.snd : List Bytes) : Multiset Bytes) +
        ∑ db, (s.before.storage db : Multiset Bytes) =
        (delivered s.after.trace : Multiset Bytes) + ∑ db, (s.after.storage db : Multiset Bytes) := by
      simpa [total] using moved
    rw [calls_snoc,handedOver_append,delivered_append,List.map_append,← Multiset.coe_add,← Multiset.coe_add,
      old.balance,add_assoc,add_assoc,← moved]
    abel
  · intro db
    have moved := ordered_moves s.before.store ms db _ (old.ordered db)
    rw [← store,handedTo_eq,← given,← List.map_append,← List.filter_append,← handedOver_append,← calls_snoc] at moved
    exact moved
  · intro t member
    rcases List.mem_append.mp member with earlier | new
    · exact old.drains t earlier
    · cases List.mem_singleton.mp new
      rw [DrainsInOrder,given,gone,listed]
      exact unlimited_shape shape s.before.store unlimited fit

theorem conserved_run (run : Run start steps last) (empty : ∀ db, start.storage db = [])
    (unlimited : ∀ s ∈ steps, s.before.settings.fallbackStorageMaxSize = 0) : Conserved steps last := by
  refine run.carry Conserved (fun s => s.before.settings.fallbackStorageMaxSize = 0) ?_ ?_ unlimited
  · refine ⟨?_,?_,?_,by simp⟩
    · intro db bytes member
      rw [empty db] at member
      cases member
    · simp [calls,handedOver,delivered,empty]
    · intro db
      simp [empty]
  · exact fun done s _ taken zero old => conserved_step s taken zero old

-- Whatever the interleaving and the answers, every event handed over is delivered or
-- waits, once, and the lists are queues.
theorem unlimited_storage_exact (run : Run start steps last) (empty : ∀ db, start.storage db = [])
    (unlimited : ∀ s ∈ steps, s.before.settings.fallbackStorageMaxSize = 0) :
    (((handedOver (calls steps)).map Prod.snd : List Bytes) : Multiset Bytes) =
      (delivered (calls steps) : Multiset Bytes) + ∑ db, (last.storage db : Multiset Bytes) ∧
    (∀ db, (last.storage db).Sublist (((handedOver (calls steps)).filter fun given => given.1 = db).map Prod.snd)) ∧
    ∀ s ∈ steps, DrainsInOrder s := by
  obtain ⟨_,balance,ordered,drains⟩ := conserved_run run empty unlimited
  exact ⟨balance,ordered,drains⟩

theorem unlimited_storage_exact_two_databases : ∃ start steps last, Run start steps last ∧
    (last.storage 0 = [] ∧ last.storage 1 ≠ [] ∧ (delivered (calls steps)).length = 2) ∧
    (((handedOver (calls steps)).map Prod.snd : List Bytes) : Multiset Bytes) =
      (delivered (calls steps) : Multiset Bytes) + ∑ db, (last.storage db : Multiset Bytes) := by
  obtain ⟨start,steps,last,loaded,run,seen⟩ := played_run (master 0) (allKeys "0") (fun _ => [])
    [expired 0 "a" (connects ++ refuses),expired 1 "b" refuses,expired 0 "c" (accepts ++ accepts)]
    (fun _ steps last => decide ((∀ s ∈ steps, s.before.settings.fallbackStorageMaxSize = 0) ∧
      last.storage 0 = [] ∧ last.storage 1 ≠ [] ∧ (delivered (calls steps)).length = 2)) (by decide +kernel)
  obtain ⟨unlimited,seen⟩ := of_decide_eq_true seen
  have empty : ∀ db, start.storage db = [] := congrFun (loaded_store loaded).1
  exact ⟨start,steps,last,run,seen,(unlimited_storage_exact run empty unlimited).1⟩

end KeyspaceAmqp
