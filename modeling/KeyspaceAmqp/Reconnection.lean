import KeyspaceAmqp.Turns

namespace KeyspaceAmqp
open Programs Paths Outbox

def Resumes (w : World) : Callback → Prop
  | .timer _ _ => True
  | .keyspaceEvent ctx _ _ key => Takes w ctx key
  | _ => False

def Resumed (db : Int32) (w w' : World) : Prop :=
  w'.storage db = [] ∧ delivered w'.trace = (handedOver w'.trace).map Prod.snd ++ w.storage db

theorem resumed_sweep (shape : ms = [.drain db count false] ∨ ms = [.post db body,.drain db count false])
    (store : w'.store = w.store.moves ms) (fit : w.store.AllFit ms) (mailed : mail w'.trace = w.store.mails ms) :
    Resumed db w w' := by
  have listed : w'.storage = (w.store.moves ms).storage := congrArg Store.storage store
  rw [Resumed,← sent_mail,← handed_mail,mailed,listed]
  rcases shape with rfl | rfl
  · obtain ⟨empty,sends,hands⟩ := drain_complete fit.1
    refine ⟨empty,?_⟩
    simp only [Store.mails,List.append_nil,sends,hands,List.map_nil,List.nil_append,store_storage]
  · obtain ⟨empty,sends,hands⟩ := drain_complete fit.2.1
    refine ⟨empty,?_⟩
    simp only [Store.mails,List.append_nil,sent_append,handed_append,sends,hands]
    rfl

theorem resumed_idle (idle : ms = [] ∨ Configures db ms) (store : w'.store = w.store.moves ms)
    (mailed : mail w'.trace = w.store.mails ms) : Resumed db w w' ↔ w.storage db = [] := by
  have listed : w'.storage = (w.store.moves ms).storage := congrArg Store.storage store
  rw [Resumed,← sent_mail,← handed_mail,mailed,listed]
  rcases idle with rfl | ⟨limit,rfl⟩
  · exact ⟨And.left,fun empty => ⟨empty,empty.symm⟩⟩
  · exact ⟨And.left,fun empty => ⟨empty,empty.symm⟩⟩

theorem reconnection_moves (taken : step w turn = some w') (closed : w.conn = none) (opened : w'.conn ≠ none)
    (served : ¬ Refused w'.trace) :
    ∃ ms, Effect turn.callback.ctx.db {w with script := turn.script,trace := []} w' ms ∧
      ((Resumes w turn.callback ∧ ∃ count body, ms = [.drain turn.callback.ctx.db count false] ∨
        ms = [.post turn.callback.ctx.db body,.drain turn.callback.ctx.db count false]) ∨
      (¬ Resumes w turn.callback ∧ (ms = [] ∨ Configures turn.callback.ctx.db ms))) := by
  have ran := step_ends.mp taken
  have whole {failed : Bool} (reason : failed = true → w'.conn = none ∨ Refused w'.trace) : failed = false := by
    cases failed with
    | false => rfl
    | true => exact ((reason rfl).elim opened served).elim
  obtain ⟨callback,script⟩ := turn
  cases callback with
  | keyspaceEvent ctx type event key =>
    simp only [Callback.run,ends_bind,ends_pure] at ran
    obtain ⟨_,_,ran,_,rfl⟩ := ran
    obtain ⟨ms,effect,⟨none,rfl⟩ | ⟨takes,⟨count,failed,rfl,reason⟩ | ⟨_,reason⟩⟩⟩ := onKeyspaceEvent_effect ran
    · exact ⟨_,effect,.inr ⟨none,.inl rfl⟩⟩
    · cases whole reason
      exact ⟨_,effect,.inl ⟨takes,count,_,.inr rfl⟩⟩
    · exact (reason.elim opened served).elim
  | timer fired flags =>
    obtain ⟨ms,effect,⟨_,stays⟩ | ⟨count,failed,rfl,reason⟩⟩ := fireTimer_effect ran
    · exact absurd (stays closed) opened
    · cases whole reason
      exact ⟨_,effect,.inl ⟨trivial,count,cstr [],.inl rfl⟩⟩
  | command ctx name args =>
    simp only [Callback.run] at ran
    cases found : lookupCommand name with
    | none => simp [found] at ran
    | some command =>
      simp only [found,ends_bind,ends_pure] at ran
      obtain ⟨_,_,ran,_,rfl⟩ := ran
      obtain ⟨ms,effect,outcome⟩ := handler_commands command ran
      exact ⟨ms,effect,.inr ⟨id,outcome⟩⟩
  | clusterMessage ctx type payload beyond =>
    obtain ⟨ms,effect,outcome⟩ := clusterMessageReceiver_commands ran
    exact ⟨ms,effect,.inr ⟨id,outcome⟩⟩

-- Of the steps that turn no connection into one and see no publish refused, those that
-- send the backlog on are the timer's and a taken event's, and any step when there is none.
theorem reconnection_resumes_iff (loaded : Loaded ctx argv storage start) (clean : Clean storage)
    (run : Run start steps w) (taken : step w turn = some w') (closed : w.conn = none)
    (opened : w'.conn ≠ none) (served : ¬ Refused w'.trace) :
    Resumed turn.callback.ctx.db w w' ↔ w.storage turn.callback.ctx.db = [] ∨ Resumes w turn.callback := by
  have clean : Clean w.storage := by
    have begun : Clean start.storage := (loaded_store loaded).1 ▸ clean
    exact (run.throughout (fun w => Clean w.storage) (fun _ => True) begun
      (fun _ taken _ old => clean_step taken old) fun _ _ => trivial).1
  obtain ⟨ms,⟨store,fit,calls,added,mailed,_⟩,outcome⟩ := reconnection_moves taken closed opened served
  rw [List.nil_append] at added
  replace mailed : mail w'.trace = w.store.mails ms := added ▸ mailed clean
  rcases outcome with ⟨resumes,count,body,shape⟩ | ⟨silent,idle⟩
  · exact iff_of_true (resumed_sweep shape store fit mailed) (.inr resumes)
  · exact (resumed_idle (w := w) idle store mailed).trans (or_iff_left silent).symm

theorem reconnection_resumes_iff_timer : ∃ w turn w', step w turn = some w' ∧ w.storage 0 ≠ [] ∧
    Resumes w turn.callback ∧ (Resumed turn.callback.ctx.db w w' ↔
      w.storage turn.callback.ctx.db = [] ∨ Resumes w turn.callback) := by
  let fired : Turn := ⟨.timer ⟨3,0⟩ REDISMODULE_CTX_FLAGS_MASTER,connects ++ accepts⟩
  have ran := played_run (master 0) (allKeys "0") (fun _ => [])
    [expired 0 "a" [.socket false,.status 1]]
    (fun _ _ last => decide (last.conn = none ∧ last.storage 0 ≠ []) &&
      (step last fired).any fun after => decide (after.conn ≠ none ∧ ¬ Refused after.trace)) (by decide +kernel)
  obtain ⟨start,steps,last,loaded,run,seen⟩ := ran
  obtain ⟨before,after⟩ := (Bool.and_eq_true _ _).mp seen
  obtain ⟨closed,waiting⟩ := of_decide_eq_true before
  obtain ⟨w',taken,after⟩ := (Option.any_eq_true _ _).mp after
  obtain ⟨opened,served⟩ := of_decide_eq_true after
  refine ⟨last,fired,w',taken,waiting,trivial,reconnection_resumes_iff loaded ?_ run taken closed opened served⟩
  intro db bytes member
  cases member

theorem connect_leaves_backlog : ∃ start steps last, Loaded (master 0) (allKeys "0") (fun _ => []) start ∧
    Run start steps last ∧ (∃ s ∈ steps, s.before.conn = none ∧ s.after.conn ≠ none ∧ ¬ Refused s.after.trace) ∧
    last.conn ≠ none ∧ last.storage 0 = [ascii "0\nexpired\na"] ∧ delivered (calls steps) = [] := by
  obtain ⟨start,steps,last,loaded,run,seen⟩ := played_run (master 0) (allKeys "0") (fun _ => [])
    [expired 0 "a" [.socket false,.status 1],⟨.command (master 0) Command.connect.name [],connects⟩]
    (fun _ steps last => decide ((∃ s ∈ steps, s.before.conn = none ∧ s.after.conn ≠ none ∧ ¬ Refused s.after.trace) ∧
      last.conn ≠ none ∧ last.storage 0 = [ascii "0\nexpired\na"] ∧ delivered (calls steps) = [])) (by decide +kernel)
  exact ⟨start,steps,last,loaded,run,of_decide_eq_true seen⟩

end KeyspaceAmqp
