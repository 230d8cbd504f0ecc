import KeyspaceAmqp.Ending
import KeyspaceAmqp.Receiver

namespace KeyspaceAmqp
open Programs

@[reducible] def World.masked (masks : List CString) (w : World) : World :=
  {w with settings := {w.settings with keyMaskArr := masks}}

-- The functions an event may come to that are not told the masks, and do not ask.
section Ignoring
set_option synthInstance.maxSize 100000
variable {masks : List CString}

instance : Ignores (World.masked masks) (emit c) := by unfold emit; infer_instance
instance : Ignores (World.masked masks) (callAmqp c) := by unfold callAmqp; infer_instance
instance : Ignores (World.masked masks) newHandle where
  ignores ran := by
    obtain ⟨rfl,rfl⟩ := ends_newHandle.mp ran
    exact ends_newHandle.mpr ⟨rfl,rfl⟩
instance {pick : Answer → Option α} : Ignores (World.masked masks) (answer pick) where
  ignores ran := by
    obtain ⟨a,rest,script,picked,rfl⟩ := ends_answer.mp ran
    exact ends_answer.mpr ⟨a,rest,script,picked,rfl⟩
instance {pick : Answer → Option α} {call : α → AmqpCall} : Ignores (World.masked masks) (askAmqp pick call) := by
  unfold askAmqp; infer_instance
instance : Ignores (World.masked masks) amqpDisconnect := by unfold amqpDisconnect; infer_instance
instance : Ignores (World.masked masks) amqpWaitFrame where
  ignores ran := by
    obtain ⟨frame,script,left,made,asked,looped,rfl⟩ := amqpWaitFrame_parts.mp ran
    exact amqpWaitFrame_parts.mpr ⟨frame,script,left,made,asked,looped,rfl⟩
instance : Ignores (World.masked masks) amqpConnect := by
  unfold amqpConnect amqpTcpSocketNew amqpSocketOpen amqpLogin amqpGetRpcReply
  dsimp only
  infer_instance
instance : Ignores (World.masked masks) (amqpPublish body) := by
  unfold amqpPublish amqpBasicPublish
  dsimp only
  infer_instance
instance : Ignores (World.masked masks) (openKey ctx mode) := by
  unfold openKey
  infer_instance
instance : Ignores (World.masked masks) (closeKey key) := by cases key <;> (unfold closeKey; infer_instance)
instance : Ignores (World.masked masks) (deleteKey key) := by cases key <;> (unfold deleteKey; infer_instance)
instance : Ignores (World.masked masks) (listPush place string key) := by
  cases key <;> (unfold listPush; infer_instance)
instance : Ignores (World.masked masks) (listPopHead key) := by
  cases key with
  | none => unfold listPopHead; infer_instance
  | some key =>
    have (w : World) : Ignores (World.masked masks) (match key.mode,w.storage key.db with
      | .readWrite,bytes :: rest => (do
        let id ← newHandle
        emit (.listPop key (some ⟨id,bytes⟩))
        modify fun w => {w with storage := Function.update w.storage key.db rest}
        pure (some ⟨id,bytes⟩) : Act (Option RedisString))
      | _,_ => do
        emit (.listPop key none)
        pure none) := by
      split <;> infer_instance
    unfold listPopHead
    infer_instance
instance : Ignores (World.masked masks) (createString bytes) := by unfold createString; infer_instance
instance : Ignores (World.masked masks) (stringPtrLen string) := by unfold stringPtrLen; infer_instance
instance : Ignores (World.masked masks) (freeString string) := by unfold freeString; infer_instance
instance : Ignores (World.masked masks) (createTimer ctx) := by unfold createTimer; infer_instance
instance : Ignores (World.masked masks) (publishStoredLoop key rounds message) := by
  induction rounds generalizing message with
  | zero => cases message <;> (unfold publishStoredLoop; infer_instance)
  | succ rounds ih => cases message <;> (unfold publishStoredLoop; infer_instance)
instance : Ignores (World.masked masks) (publishStoredEvents ctx) := by unfold publishStoredEvents; infer_instance
instance : Ignores (World.masked masks) (evictOldest key) := by unfold evictOldest; infer_instance
instance : Ignores (World.masked masks) (pushEventToStorage ctx message) := by
  unfold pushEventToStorage
  infer_instance
instance : Ignores (World.masked masks) (publishEvent ctx event keyname) := by
  unfold publishEvent
  dsimp only
  infer_instance
instance : Ignores (World.masked masks) (firstEvent ctx) := by unfold firstEvent; infer_instance

end Ignoring

theorem onKeyspaceEvent_masked (ran : Ends (onKeyspaceEvent ctx type event key) w res w')
    (same : Matches masks (cstr key) ↔ Matches w.settings.keyMaskArr (cstr key)) :
    Ends (onKeyspaceEvent ctx type event key) (w.masked masks) res (w'.masked masks) := by
  simp only [onKeyspaceEvent,ends_bind,ends_get,ends_ite,ends_pure] at ran ⊢
  obtain ⟨_,_,⟨rfl,rfl⟩,⟨on,_,m,first,_,_,⟨rfl,rfl⟩,looped⟩ | ⟨off,rfl,rfl⟩⟩ := ran
  · have begun : Touches [.session,.heartbeat] w m := Keeps.keeps first
    have settings : m.settings = w.settings := begun.settings.resolve_left (by decide)
    refine ⟨_,_,⟨rfl,rfl⟩,.inl ⟨on,(),_,Ignores.ignores first,_,_,⟨rfl,rfl⟩,?_⟩⟩
    rw [forwardLoop_once] at looped ⊢
    rw [settings] at looped
    by_cases hit : Matches masks (cstr key)
    · rw [if_pos hit]
      rw [if_pos (same.mp hit)] at looped
      exact Ignores.ignores looped
    · rw [if_neg hit]
      rw [if_neg fun other => hit (same.mpr other)] at looped
      exact Ignores.ignores looped
  · exact ⟨_,_,⟨rfl,rfl⟩,.inr ⟨off,rfl,rfl⟩⟩

inductive TakenOnce (db : Int32) (body : Bytes) (w w' : World) : Prop where
  | published (count : Nat) (inside : count ≤ (w.storage db).length)
      (out : delivered w'.trace = body :: ((w.storage db).take count).map resent)
      (left : w'.storage = Function.update w.storage db ((w.storage db).drop count)) : TakenOnce db body w w'
  | stored (out : delivered w'.trace = [])
      (left : w'.storage = Function.update w.storage db (w.store.evicted db ++ [body])) : TakenOnce db body w w'

theorem tried_trace {w : World} (tried : Tried (w.given script) w' all) : tries w'.trace = all := by
  obtain ⟨more,added,rfl⟩ := tried
  exact congrArg tries added

theorem disposed_once {w : World} (disposed : Disposed ctx body (w.given script) w') : TakenOnce ctx.db body w w' := by
  cases disposed with
  | @published m count first same swept =>
    have same : m.storage = w.storage := same
    obtain ⟨inside,left,refused,tried,why⟩ := swept
    rw [same] at inside left tried why
    have all := tried_trace (first.trans tried)
    refine .published count inside ?_ left
    have none : refused.filter (fun tried => tried.2 = AMQP_STATUS_OK) = [] := by
      rcases why with rfl | ⟨_,_,_,bad,rfl⟩
      · rfl
      · simp [bad]
    rw [delivered_tries,all]
    simp [none,List.filter_map,Function.comp_def,-List.map_take]
  | kept left tried =>
    refine .stored ?_ left
    rw [delivered_tries]
    rcases tried with none | ⟨status,bad,one⟩
    · rw [tried_trace none]
      rfl
    · rw [tried_trace one]
      simp [bad]

theorem event_masked (taken : step w ⟨.keyspaceEvent ctx type event key,script⟩ = some w')
    (same : Matches masks (cstr key) ↔ Matches w.settings.keyMaskArr (cstr key)) :
    step (w.masked masks) ⟨.keyspaceEvent ctx type event key,script⟩ = some (w'.masked masks) := by
  have ran := step_ends.mp taken
  simp only [Callback.run,ends_bind,ends_pure] at ran
  obtain ⟨_,_,ran,_,rfl⟩ := ran
  refine step_ends.mpr ?_
  simp only [Callback.run,ends_bind,ends_pure]
  exact ⟨_,_,onKeyspaceEvent_masked ran same,trivial,rfl⟩

theorem matches_more (more : masks ⊆ others) (hit : Matches masks keyname) : Matches others keyname := by
  obtain ⟨mask,member,fits⟩ := hit
  exact ⟨mask,more member,fits⟩

def Done (w : World) (ctx : Ctx) (event : CString) (key : Bytes) (w' : World) : Prop :=
  (Takes w ctx key → TakenOnce ctx.db (messageString ctx.db event (cstr key)).bytes w w') ∧
  (¬ Takes w ctx key → tries w'.trace = [] ∧ w'.storage = w.storage)

theorem onKeyspaceEvent_done (ran : Ends (onKeyspaceEvent ctx type event key) (w.given script) res w') :
    Done w ctx event key w' := by
  rcases onKeyspaceEvent_disposed ran with ⟨takes,disposed⟩ | ⟨ignores,same,untried⟩
  · exact ⟨fun _ => disposed_once disposed,fun ignores => absurd takes ignores⟩
  · exact ⟨fun takes => absurd takes ignores,fun _ => ⟨tried_trace untried,same⟩⟩

theorem step_done (taken : step w ⟨.keyspaceEvent ctx type event key,script⟩ = some w') : Done w ctx event key w' := by
  have ran := step_ends.mp taken
  simp only [Callback.run,ends_bind,ends_pure] at ran
  obtain ⟨_,_,ran,_,rfl⟩ := ran
  exact onKeyspaceEvent_done ran

-- An event comes to an end with one of its two outcomes just where its frame waits come to
-- theirs, and whenever it ends it is with one of them. Other masks make no difference to it
-- when they are the same ones in some order and number, nor do further ones once it is taken.
theorem event_taken_once_iff (w : World) (ctx : Ctx) (type : Int32) (event : CString) (key : Bytes) :
    (∀ broker : Broker, (∃ script left w', broker.Gives script left ∧
      step w ⟨.keyspaceEvent ctx type event key,script⟩ = some w' ∧ Done w ctx event key w') ↔ WaitsEnd w ctx key broker) ∧
    ∀ script w', step w ⟨.keyspaceEvent ctx type event key,script⟩ = some w' → Done w ctx event key w' ∧
      (∀ masks, masks ⊆ w.settings.keyMaskArr → w.settings.keyMaskArr ⊆ masks →
        step (w.masked masks) ⟨.keyspaceEvent ctx type event key,script⟩ = some (w'.masked masks)) ∧
      ∀ masks, w.settings.keyMaskArr ⊆ masks → Takes w ctx key → Takes (w.masked masks) ctx key ∧
        step (w.masked masks) ⟨.keyspaceEvent ctx type event key,script⟩ = some (w'.masked masks) := by
  refine ⟨fun broker => ?_,fun script w' taken => ⟨step_done taken,fun masks fewer more => ?_,fun masks more takes => ?_⟩⟩
  · rw [← event_ends_iff w ctx type event key broker]
    constructor
    · rintro ⟨script,left,w',given,taken,_⟩
      exact ⟨script,left,w',given,taken⟩
    · rintro ⟨script,left,w',given,taken⟩
      exact ⟨script,left,w',given,taken,step_done taken⟩
  · exact event_masked taken ⟨matches_more fewer,matches_more more⟩
  · have hit := matches_more more takes.2.2
    exact ⟨⟨takes.1,takes.2.1,hit⟩,event_masked taken ⟨fun _ => takes.2.2,fun _ => hit⟩⟩

theorem event_taken_once_iff_drain : ∃ w w' : World, step w (expired 0 "b" (accepts ++ accepts ++ refuses)) = some w' ∧
    (Takes w (master 0) (ascii "b") ∧ (w.storage 0).length = 2 ∧ (w'.storage 0).length = 1) ∧
    TakenOnce 0 (messageString 0 (cstr (ascii "expired")) (cstr (ascii "b"))).bytes w w' := by
  obtain ⟨_,_,w,_,_,seen⟩ := played_run (master 0) (allKeys "0") (fun _ => [])
    [expired 0 "a" (connects ++ refuses),expired 0 "a" refuses]
    (fun _ _ w => (step w (expired 0 "b" (accepts ++ accepts ++ refuses))).any fun w' : World =>
      decide (Takes w (master 0) (ascii "b") ∧ (w.storage 0).length = 2 ∧ (w'.storage 0).length = 1)) (by decide +kernel)
  obtain ⟨w',taken,good⟩ := (Option.any_eq_true _ _).mp seen
  have good := of_decide_eq_true good
  exact ⟨w,w',taken,good,((event_taken_once_iff w _ _ _ _).2 _ _ taken).1.1 good.1⟩

-- The broker announces that it blocks the connection, and then the socket is dead: every
-- further call fails with -9 and writes no frame.
def blockedWait : Wait where
  frame := ⟨0,0,0⟩
  results := .cons (AMQP_STATUS_OK,some ⟨AMQP_FRAME_METHOD,0,0x000A003C⟩) (.ofStream (Stream'.const (-9,none)))
def blockedBroker : Broker := {calm with waits := fun _ => blockedWait}

theorem waitLoop_dead (n : Nat) (said : List Call) :
    waitLoop none (List.replicate n (.waited (-9) none)) ⟨AMQP_FRAME_METHOD,0,0x000A003C⟩ said = none := by
  induction n generalizing said with
  | zero => rfl
  | succ n ih =>
    have on : GoesOn (-9) ((none : Option Frame).getD ⟨AMQP_FRAME_METHOD,0,0x000A003C⟩) := ⟨by decide,by decide,by decide⟩
    rw [List.replicate_succ,waitLoop_on on]
    exact ih _

theorem blockedWait_goes_on : ¬ blockedWait.Ends := by
  rintro ⟨res,n,made,looped⟩
  cases n with
  | zero => cases looped
  | succ n =>
    have dead : ((Stream'.Seq.ofStream (Stream'.const ((-9 : Int32),(none : Option Frame)))).take n).map
        (fun result => Answer.waited result.1 result.2) = List.replicate n (.waited (-9) none) := by
      clear looped
      induction n with
      | zero => rfl
      | succ n ih => rw [Stream'.const_eq,Stream'.Seq.ofStream_cons,Stream'.Seq.take_succ_cons,List.map_cons,ih]; rfl
    have on : GoesOn AMQP_STATUS_OK ((some ⟨AMQP_FRAME_METHOD,0,0x000A003C⟩ : Option Frame).getD ⟨0,0,0⟩) :=
      ⟨by decide,by decide,by decide⟩
    rw [Wait.answers,blockedWait,Stream'.Seq.take_succ_cons,List.map_cons,waitLoop_on on,dead] at looped
    cases looped.symm.trans (waitLoop_dead n _)

theorem event_never_ends : ∃ start steps w, Loaded (master 0) (allKeys "0") (fun _ => []) start ∧ Run start steps w ∧
    (Takes w (master 0) (ascii "b") ∧ w.conn ≠ none) ∧
    ¬ ∃ script left w', blockedBroker.Gives script left ∧
      step w ⟨.keyspaceEvent (master 0) 0x100 (cstr (ascii "expired")) (ascii "b"),script⟩ = some w' := by
  obtain ⟨start,steps,w,loaded,run,seen⟩ := played_run (master 0) (allKeys "0") (fun _ => [])
    [expired 0 "a" (connects ++ accepts)] (fun _ _ w => decide (Takes w (master 0) (ascii "b") ∧ w.conn ≠ none)) (by decide +kernel)
  have up := of_decide_eq_true seen
  refine ⟨start,steps,w,loaded,run,up,fun ends => ?_⟩
  have lasts := ((event_ends_iff w _ _ _ _ blockedBroker).mp ends up.1).1 up.2
  exact blockedWait_goes_on lasts.1

end KeyspaceAmqp
