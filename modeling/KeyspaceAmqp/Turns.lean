import KeyspaceAmqp.Queueing
import KeyspaceAmqp.Handlers
import KeyspaceAmqp.Footprint

namespace KeyspaceAmqp
open Programs Outbox

inductive Shape (db : Int32) : List Move → Prop where
  | idle : Shape db []
  | posted (body : CString) (count : Nat) (failed : Bool) : Shape db [.post db body,.drain db count failed]
  | kept (body : CString) : Shape db [.keep db body]
  | drained (count : Nat) (failed : Bool) : Shape db [.drain db count failed]
  | configured (limit : UInt64) : Shape db [.resize limit,.resync db]

def Sweeps (db : Int32) (ms : List Move) (w' : World) : Prop :=
  ∃ count failed, ms = [.drain db count failed] ∧ (failed = true → w'.conn = none ∨ Refused w'.trace)

theorem Sweeps.later (sweeps : Sweeps db ms m) (effect : Effect q m w' ns) (same : w'.conn = m.conn) :
    Sweeps db ms w' := by
  obtain ⟨count,failed,rfl,reason⟩ := sweeps
  obtain ⟨calls,added,_⟩ := effect.calls
  refine ⟨count,failed,rfl,fun cut => ?_⟩
  exact (reason cut).imp same.trans fun refused => refused.later added

abbrev beside : List Part := [.enabled,.session,.heartbeat,.strings,.broadcasts,.replies,.load]

theorem beside_silent {c : Call} (inside : c.part ∈ beside) :
    c.mail = none ∧ c.database = none ∧ ∀ key, c ≠ .deleteKey key := by
  cases c with
  | amqp conn call => cases call <;> first | exact ⟨rfl,rfl,by simp⟩ | simp [Call.part] at inside
  | _ => first | exact ⟨rfl,rfl,by simp⟩ | simp [Call.part] at inside

theorem Touches.effect (touches : Touches beside w w') (db : Int32) : Effect db w w' [] := by
  obtain ⟨more,added,inside⟩ := touches.calls
  have store : w'.store = w.store := by
    simp only [World.store,touches.lists.resolve_left (by decide),touches.count.resolve_left (by decide),
      touches.settings.resolve_left (by decide)]
  refine .quiet store ⟨more,added,?_,?_,?_⟩
  · exact List.filterMap_eq_nil_iff.mpr fun c member => (beside_silent (inside c member)).1
  · intro c member p worked
    rw [(beside_silent (inside c member)).2.1] at worked
    cases worked
  · intro key member
    exact (beside_silent (inside _ member)).2.2 key rfl

theorem beside_effect {program : Act α} [Keeps (Touches beside) program] (ran : Ends program w a w') (db : Int32) :
    Effect db w w' [] := Touches.effect (Keeps.keeps ran) db

theorem reconnect_effect (ran : Ends (reconnect ctx) w u w') :
    ∃ ms, Effect ctx.db w w' ms ∧ ((ms = [] ∧ w'.conn = none) ∨
      Sweeps ctx.db ms w') := by
  simp only [reconnect,ends_bind,ends_ite,ends_pure] at ran
  obtain ⟨res,m,connected,⟨_,_,_,drained,_,rfl⟩ | ⟨_,_,_,closed,_,rfl⟩⟩ := ran
  · obtain ⟨count,failed,effect,_,reason⟩ := publishStoredEvents_effect drained
    exact ⟨_,((amqpConnect_wire connected).effect ctx.db).trans effect,.inr ⟨count,failed,rfl,reason⟩⟩
  · obtain ⟨wire,none⟩ := amqpDisconnect_wire closed
    exact ⟨_,((amqpConnect_wire connected).trans wire).effect ctx.db,.inl ⟨rfl,none⟩⟩

theorem checkConnection_effect (ran : Ends (checkConnection ctx) w u w') :
    ∃ ms, Effect ctx.db w w' ms ∧ ((ms = [] ∧ (w.conn = none → w'.conn = none)) ∨
      Sweeps ctx.db ms w') := by
  simp only [checkConnection,ends_bind,ends_get,ends_ite,ends_pure] at ran
  obtain ⟨_,_,⟨rfl,rfl⟩,⟨live,status,m,waited,ran⟩ | ⟨_,ran⟩⟩ := ran
  · have waited := (amqpWaitFrame_wire waited).1
    rcases ran with ⟨_,_,n,closed,ran⟩ | ⟨_,_,rfl⟩
    · obtain ⟨ms,effect,cases⟩ := reconnect_effect ran
      have closed := waited.trans (amqpDisconnect_wire closed).1
      exact ⟨_,(closed.effect ctx.db).trans effect,cases.imp (fun idle => ⟨idle.1,fun _ => idle.2⟩) id⟩
    · exact ⟨[],waited.effect ctx.db,.inl ⟨rfl,fun closed => absurd closed live⟩⟩
  · obtain ⟨ms,effect,cases⟩ := reconnect_effect ran
    exact ⟨ms,effect,cases.imp (fun idle => ⟨idle.1,fun _ => idle.2⟩) id⟩

theorem checkFramesAndHeartbeat_effect (ran : Ends (checkFramesAndHeartbeat ctx) w u w') :
    ∃ ms, Effect ctx.db w w' ms ∧ ((ms = [] ∧ (w.conn = none → w'.conn = none)) ∨ Sweeps ctx.db ms w') := by
  simp only [checkFramesAndHeartbeat,ends_bind,ends_modify,ends_get,ends_ite,ends_pure] at ran
  obtain ⟨_,_,rfl,_,_,⟨rfl,rfl⟩,⟨_,_,rfl⟩ | ⟨_,_,m,checked,made,n,timed,rfl⟩⟩ := ran
  · exact ⟨[],.quiet rfl (.nothing _ rfl),.inl ⟨rfl,id⟩⟩
  have begun : Effect ctx.db w {w with heardBeatTimerId := 0} [] := .quiet rfl (.nothing _ rfl)
  obtain ⟨ms,effect,cases⟩ := checkConnection_effect checked
  have touched : Touches [.heartbeat] m n := Keeps.keeps timed
  have same : n.conn = m.conn := touched.conn.resolve_left (by decide)
  have ended : Effect ctx.db m {n with heardBeatTimerId := made} [] :=
    (beside_effect timed ctx.db).trans (.quiet rfl (.nothing _ rfl))
  refine ⟨ms,by simpa using (begun.trans effect).trans ended,cases.imp ?_ fun sweeps => sweeps.later ended same⟩
  exact fun idle => ⟨idle.1,fun closed => same.trans (idle.2 closed)⟩

theorem fireTimer_effect (ran : Ends (fireTimer timer flags) w u w') :
    ∃ ms, Effect timer.db w w' ms ∧ ((ms = [] ∧ (w.conn = none → w'.conn = none)) ∨ Sweeps timer.db ms w') := by
  simp only [fireTimer,ends_bind,ends_get,ends_ite,ends_modify,ends_stuck] at ran
  obtain ⟨_,_,⟨rfl,rfl⟩,⟨_,_,_,rfl,ran⟩ | ⟨_,impossible⟩⟩ := ran
  · have fired : Effect timer.db w {w with timers := w.timers.erase timer} [] := .quiet rfl (.nothing _ rfl)
    obtain ⟨ms,effect,cases⟩ := checkFramesAndHeartbeat_effect ran
    exact ⟨ms,fired.trans effect,cases⟩
  · exact impossible.elim

def Matches (masks : List CString) (keyname : CString) : Prop :=
  ∃ mask ∈ masks, mask = KEY_MASK_ALL ∨ matchRegexp mask keyname = true

instance (masks : List CString) (keyname : CString) : Decidable (Matches masks keyname) :=
  inferInstanceAs (Decidable (∃ mask ∈ masks, mask = KEY_MASK_ALL ∨ matchRegexp mask keyname = true))

def Forwards (db : Int32) (body : CString) (ms : List Move) (w' : World) : Prop :=
  (∃ count failed, ms = [.post db body,.drain db count failed] ∧
    (failed = true → w'.conn = none ∨ Refused w'.trace)) ∨
  (ms = [.keep db body] ∧ (w'.conn = none ∨ Refused w'.trace))

-- However many masks match, and wherever they stand, the event is handed over once.
theorem forwardLoop_once (ctx : Ctx) (event keyname : CString) (masks : List CString) :
    forwardLoop ctx event keyname masks = if Matches masks keyname then (do
      publishEvent ctx event keyname
      pure REDISMODULE_OK) else pure REDISMODULE_OK := by
  induction masks with
  | nil => simp [forwardLoop,Matches]
  | cons mask rest ih =>
    have matches_cons : Matches (mask :: rest) keyname ↔
        mask = KEY_MASK_ALL ∨ matchRegexp mask keyname = true ∨ Matches rest keyname := by
      simp [Matches,or_assoc]
    by_cases all : mask = KEY_MASK_ALL
    · rw [forwardLoop,if_pos all,if_pos (matches_cons.mpr (.inl all))]
    by_cases hit : matchRegexp mask keyname = true
    · rw [forwardLoop,if_neg all,if_pos hit,if_pos (matches_cons.mpr (.inr (.inl hit)))]
    · rw [forwardLoop,if_neg all,if_neg hit,ih]
      simp [matches_cons,all,hit]

theorem forwardLoop_parts (ran : Ends (forwardLoop ctx event keyname masks) w res w') :
    (Matches masks keyname ∧ Ends (publishEvent ctx event keyname) w () w') ∨ (¬ Matches masks keyname ∧ w' = w) := by
  rw [forwardLoop_once] at ran
  rcases ends_ite.mp ran with ⟨hit,ran⟩ | ⟨miss,ran⟩
  · simp only [ends_bind,ends_pure] at ran
    obtain ⟨_,_,published,_,rfl⟩ := ran
    exact .inl ⟨hit,published⟩
  · obtain ⟨_,rfl⟩ := ends_pure.mp ran
    exact .inr ⟨miss,rfl⟩

theorem forwardLoop_effect (ran : Ends (forwardLoop ctx event keyname masks) w res w') :
    (Matches masks keyname ∧ ∃ ms, Effect ctx.db w w' ms ∧ Untouched w w' ∧
      Forwards ctx.db (messageString ctx.db event keyname) ms w') ∨ (¬ Matches masks keyname ∧ w' = w) :=
  (forwardLoop_parts ran).imp_left fun hit => ⟨hit.1,publishEvent_effect hit.2⟩

def Takes (w : World) (ctx : Ctx) (key : Bytes) : Prop :=
  isRedisMaster ctx = true ∧ w.amqpConnectionEnabled = true ∧ Matches w.settings.keyMaskArr (cstr key)

instance (w : World) (ctx : Ctx) (key : Bytes) : Decidable (Takes w ctx key) := inferInstanceAs (Decidable (_ ∧ _ ∧ _))

theorem onKeyspaceEvent_effect (ran : Ends (onKeyspaceEvent ctx type event key) w res w') :
    ∃ ms, Effect ctx.db w w' ms ∧ ((¬ Takes w ctx key ∧ ms = []) ∨
      (Takes w ctx key ∧ Forwards ctx.db (messageString ctx.db event (cstr key)) ms w')) := by
  simp only [onKeyspaceEvent,ends_bind,ends_get,ends_ite,ends_pure] at ran
  obtain ⟨_,_,⟨rfl,rfl⟩,⟨⟨master,enabled⟩,_,m,first,_,_,⟨rfl,rfl⟩,looped⟩ | ⟨off,_,rfl⟩⟩ := ran
  · have begun := beside_effect first ctx.db
    have touched : Touches [.session,.heartbeat] w m := Keeps.keeps first
    have settings : m.settings = w.settings := touched.settings.resolve_left (by decide)
    rcases forwardLoop_effect looped with ⟨hit,ms,effect,_,forwarded⟩ | ⟨none,rfl⟩
    · exact ⟨ms,begun.trans effect,.inr ⟨⟨master,enabled,settings ▸ hit⟩,forwarded⟩⟩
    · exact ⟨[],begun,.inl ⟨fun takes => none (settings ▸ takes.2.2),rfl⟩⟩
  · exact ⟨[],.refl _ _,.inl ⟨fun takes => off ⟨takes.1,takes.2.1⟩,rfl⟩⟩

theorem setupConfigLoop_masks (args : List CString) (s : Settings) (i : Nat) :
    (setupConfigLoop (i+9) args s).1 = REDISMODULE_OK ∧
      (setupConfigLoop (i+9) args s).2.fallbackStorageMaxSize = s.fallbackStorageMaxSize := by
  induction args generalizing i s with
  | nil => exact ⟨rfl,rfl⟩
  | cons arg rest ih =>
    simp only [setupConfigLoop]
    split
    · exact ⟨rfl,rfl⟩
    · exact ih _ (i+1)

-- Only the delivery mode is ever refused, and it comes before the size.
theorem setupConfigLoop_refused (i : Nat) (inside : i ≤ 9) (args : List CString) (s : Settings)
    (refused : (setupConfigLoop i args s).1 ≠ REDISMODULE_OK) :
    (setupConfigLoop i args s).2.fallbackStorageMaxSize = s.fallbackStorageMaxSize := by
  induction args generalizing i s with
  | nil => simp [setupConfigLoop]
  | cons arg rest ih =>
    match i with
    | 0 | 1 | 2 | 3 | 4 | 5 | 6 => exact ih _ (by omega) _ refused
    | 7 =>
      simp only [setupConfigLoop] at refused ⊢
      split
      · rfl
      · rename_i fits
        rw [if_neg fits] at refused
        exact ih _ (by omega) _ refused
    | 8 => exact absurd (setupConfigLoop_masks rest _ 0).1 refused
    | 9 => exact absurd (setupConfigLoop_masks (arg :: rest) s 0).1 refused

theorem configure_refused (s : Settings) (args : List CString) (refused : (configure s args).1 ≠ REDISMODULE_OK) :
    (configure s args).2.fallbackStorageMaxSize = s.fallbackStorageMaxSize := by
  refine (setupConfigLoop_refused 0 (by omega) args _ refused).trans ?_
  split <;> rfl

theorem resize_effect (db : Int32) (w : World) (s : Settings) :
    Effect db w {w with settings := s} [.resize s.fallbackStorageMaxSize] :=
  .told rfl ⟨trivial,trivial⟩ (.nothing _ rfl) fun _ => rfl

-- An accepted configuration sets the size, if only to what it was, and counts the list anew.
def Configures (db : Int32) (ms : List Move) : Prop := ∃ limit, ms = [.resize limit,.resync db]

theorem configured_effect (s : Settings) (ran : Ends (setupFallbackStorage ctx) {w with settings := s} u w') :
    ∃ ms, Effect ctx.db w w' ms ∧ Configures ctx.db ms :=
  ⟨_,(resize_effect ctx.db w s).trans (setupFallbackStorage_effect ran).1,_,rfl⟩

theorem setupConfig_effect (ran : Ends (setupConfig ctx argv argOffset) w res w') :
    ∃ ms, Effect ctx.db w w' ms ∧ ((res ≠ REDISMODULE_OK ∧ ms = []) ∨
      (res = REDISMODULE_OK ∧ Configures ctx.db ms)) := by
  simp only [setupConfig,ends_bind,ends_get,ends_ite,ends_modify,ends_pure] at ran
  obtain ⟨_,_,⟨rfl,rfl⟩,⟨_,_,_,rfl,⟨bad,rfl,rfl⟩ | ⟨_,_,m,synced,rfl,rfl⟩⟩ | ⟨_,_,m,synced,rfl,rfl⟩⟩ := ran
  · refine ⟨[],.quiet ?_ (.nothing _ rfl),.inl ⟨by decide,rfl⟩⟩
    simp only [World.store,configure_refused _ _ bad]
  · obtain ⟨ms,effect,configures⟩ := configured_effect _ synced
    exact ⟨ms,effect,.inr ⟨rfl,configures⟩⟩
  · obtain ⟨ms,effect,configures⟩ := configured_effect w.settings synced
    exact ⟨ms,effect,.inr ⟨rfl,configures⟩⟩

def Commands (db : Int32) (w w' : World) : Prop :=
  ∃ ms, Effect db w w' ms ∧ (ms = [] ∨ Configures db ms)

theorem Effect.commands (effect : Effect db w w' []) : Commands db w w' := ⟨[],effect,.inl rfl⟩

theorem Commands.before (commands : Commands db m w') (effect : Effect db w m []) : Commands db w w' := by
  obtain ⟨ms,later,outcome⟩ := commands
  exact ⟨ms,effect.trans later,outcome⟩

theorem Commands.after (commands : Commands db w m) (effect : Effect db m w' []) : Commands db w w' := by
  obtain ⟨ms,earlier,outcome⟩ := commands
  exact ⟨ms,by simpa using earlier.trans effect,outcome⟩

theorem setupConfig_commands (ran : Ends (setupConfig ctx argv argOffset) w res w') : Commands ctx.db w w' := by
  obtain ⟨ms,effect,outcome⟩ := setupConfig_effect ran
  exact ⟨ms,effect,outcome.imp (·.2) (·.2)⟩

theorem connectAmqpCommand_commands (ran : Ends (connectAmqpCommand ctx argv) w res w') : Commands ctx.db w w' := by
  simp only [connectAmqpCommand,ends_bind] at ran
  obtain ⟨_,m,configured,ran⟩ := ran
  exact (setupConfig_commands configured).after (beside_effect ran ctx.db)

theorem setupFallbackStorageSizeCommand_commands (ran : Ends (setupFallbackStorageSizeCommand ctx argv) w res w') :
    Commands ctx.db w w' := by
  match argv with
  | [_,_] =>
    simp only [setupFallbackStorageSizeCommand,ends_bind,ends_modify,ends_pure] at ran
    obtain ⟨_,_,rfl,_,m,synced,_,rfl⟩ := ran
    obtain ⟨ms,effect,configures⟩ := configured_effect _ synced
    exact ⟨ms,effect,.inr configures⟩
  | [] | [_] | _ :: _ :: _ :: _ =>
    obtain ⟨_,rfl⟩ := ends_pure.mp ran
    exact (Effect.refl _ _).commands

theorem masks_effect (db : Int32) (w : World) (masks : List CString) :
    Effect db w {w with settings := {w.settings with keyMaskArr := masks}} [] := .quiet rfl (.nothing _ rfl)

theorem keymaskCleanCommand_effect (ran : Ends keymaskCleanCommand w res w') (db : Int32) : Effect db w w' [] := by
  simp only [keymaskCleanCommand,ends_bind,ends_modify,ends_pure] at ran
  obtain ⟨_,_,rfl,_,rfl⟩ := ran
  exact masks_effect db w _

theorem keymaskAddCommand_effect (ran : Ends (keymaskAddCommand argv) w res w') (db : Int32) : Effect db w w' [] := by
  simp only [keymaskAddCommand,ends_bind,ends_modify,ends_pure] at ran
  obtain ⟨_,_,rfl,_,rfl⟩ := ran
  exact masks_effect db w _

theorem body_commands (command : Command) (ran : Ends (command.body ctx argv) w res w') : Commands ctx.db w w' := by
  cases command with
  | connect => exact connectAmqpCommand_commands ran
  | disconnect =>
    have ran : Ends (disconnectAmqpCommand argv) w res w' := ran
    exact (beside_effect ran _).commands
  | configSet => exact setupConfig_commands ran
  | fallbackStorageSizeSet => exact setupFallbackStorageSizeCommand_commands ran
  | keymaskClean => exact (keymaskCleanCommand_effect ran _).commands
  | keymaskAdd => exact (keymaskAddCommand_effect ran _).commands
  | keymaskSet =>
    simp only [Command.body,ends_bind,ends_pure] at ran
    obtain ⟨_,_,cleaned,_,_,added,_,rfl⟩ := ran
    exact ((keymaskCleanCommand_effect cleaned _).trans (keymaskAddCommand_effect added _)).commands

theorem handler_commands (command : Command) (ran : Ends (command.handler ctx argv) w res w') :
    Commands ctx.db w w' := by
  rw [handler_body] at ran
  simp only [ends_bind] at ran
  obtain ⟨_,m,arity,_,n,sent,ran⟩ := ran
  have begun := (beside_effect arity ctx.db).trans (beside_effect sent _)
  exact (body_commands command ran).before begun

theorem dispatch_commands (ran : Ends (dispatch ctx command argv) w u w') : Commands ctx.db w w' := by
  rcases dispatch_body ran with ⟨found,res,_,ran⟩ | ⟨_,rfl⟩
  · exact body_commands found ran
  · exact (Effect.refl _ _).commands

theorem clusterMessageReceiver_commands (ran : Ends (clusterMessageReceiver ctx type payload beyond) w u w') :
    Commands ctx.db w w' := by
  simp only [clusterMessageReceiver,ends_ite,ends_pure,ends_bind] at ran
  rcases ran with ⟨_,_,rfl⟩ | ⟨_,argv,m,created,ran⟩
  · exact (Effect.refl _ _).commands
  replace created := beside_effect created ctx.db
  cases argv with
  | nil => obtain ⟨_,rfl⟩ := ends_pure.mp ran; exact created.commands
  | cons first rest =>
    simp only [stringPtrLen,ends_bind,ends_pure] at ran
    obtain ⟨_,_,⟨_,_,read,rfl,rfl⟩,_,_,ran,freed⟩ := ran
    exact ((dispatch_commands ran).before (created.trans (beside_effect read _))).after
      (beside_effect freed _)

theorem Commands.shape (commands : Commands db w w') : ∃ ms, Effect db w w' ms ∧ Shape db ms := by
  obtain ⟨ms,effect,rfl | ⟨limit,rfl⟩⟩ := commands
  · exact ⟨_,effect,.idle⟩
  · exact ⟨_,effect,.configured limit⟩

theorem callback_effect (callback : Callback) (ran : Ends callback.run w u w') :
    ∃ ms, Effect callback.ctx.db w w' ms ∧ Shape callback.ctx.db ms := by
  cases callback with
  | keyspaceEvent ctx type event key =>
    simp only [Callback.run,ends_bind,ends_pure] at ran
    obtain ⟨_,_,ran,_,rfl⟩ := ran
    obtain ⟨ms,effect,⟨_,rfl⟩ | ⟨_,⟨count,failed,rfl,_⟩ | ⟨rfl,_⟩⟩⟩ := onKeyspaceEvent_effect ran
    · exact ⟨_,effect,.idle⟩
    · exact ⟨_,effect,.posted _ count failed⟩
    · exact ⟨_,effect,.kept _⟩
  | timer fired flags =>
    obtain ⟨ms,effect,⟨rfl,_⟩ | ⟨count,failed,rfl,_⟩⟩ := fireTimer_effect ran
    · exact ⟨_,effect,.idle⟩
    · exact ⟨_,effect,.drained count failed⟩
  | command ctx name args =>
    simp only [Callback.run] at ran
    cases found : lookupCommand name with
    | none => simp [found] at ran
    | some command =>
      simp only [found,ends_bind,ends_pure] at ran
      obtain ⟨_,_,ran,_,rfl⟩ := ran
      exact (handler_commands command ran).shape
  | clusterMessage ctx type payload beyond => exact (clusterMessageReceiver_commands ran).shape

-- A step starts with an empty trace, so that its calls are those of the callback.
theorem step_effect (taken : step w turn = some w') :
    ∃ ms, Shape turn.callback.ctx.db ms ∧ w'.store = w.store.moves ms ∧ w.store.AllFit ms ∧
      (Clean w.storage → mail w'.trace = w.store.mails ms) ∧
      (∀ c ∈ w'.trace, ∀ p, c.database = some p → p = turn.callback.ctx.db) ∧
      ∀ key, .deleteKey key ∈ w'.trace → ∃ count, .drain turn.callback.ctx.db count false ∈ ms := by
  obtain ⟨ms,⟨store,fit,calls,added,mailed,within,swept⟩,shape⟩ := callback_effect turn.callback (step_ends.mp taken)
  rw [List.nil_append] at added
  exact ⟨ms,shape,store,fit,added ▸ mailed,added ▸ within,added ▸ swept⟩

theorem configures_store {w w' : World} (store : w'.store = w.store.moves ms) (configures : Configures db ms) :
    w'.storage = w.storage ∧ w'.fallbackStorageLen = UInt64.ofNat (w.storage db).length := by
  obtain ⟨limit,rfl⟩ := configures
  exact ⟨congrArg Store.storage store,congrArg Store.len store⟩

theorem init_store (ran : Ends (init ctx argv) w REDISMODULE_OK w') :
    w'.storage = w.storage ∧ w'.fallbackStorageLen = UInt64.ofNat (w.storage ctx.db).length := by
  simp only [init,setupDefaultConfig,ends_bind,ends_modify,ends_pure] at ran
  obtain ⟨_,_,rfl,_,_,⟨_,_,rfl,_,m,named,_,rfl⟩,ran⟩ := ran
  have same : m.storage = w.storage := congrArg Store.storage (beside_effect named ctx.db).store
  obtain ⟨ms,effect,⟨bad,_⟩ | ⟨_,configures⟩⟩ := setupConfig_effect ran
  · exact absurd rfl bad
  · exact same ▸ configures_store effect.store configures

theorem loaded_store (loaded : Loaded ctx argv storage w) :
    w.storage = storage ∧ w.fallbackStorageLen = UInt64.ofNat (storage ctx.db).length := by
  obtain ⟨script,m,n,mode,created,started,subscribed⟩ := loaded_parts loaded
  have before : m.storage = storage := congrArg Store.storage (beside_effect created ctx.db).store
  have after := (beside_effect subscribed ctx.db).store
  obtain ⟨listed,len⟩ := init_store started
  rw [before] at listed len
  exact ⟨(congrArg Store.storage after).trans listed,(congrArg Store.len after).trans len⟩

theorem clean_step (taken : step w turn = some w') (clean : Clean w.storage) : Clean w'.storage := by
  obtain ⟨ms,_,store,_⟩ := step_effect taken
  have listed : w'.storage = (w.store.moves ms).storage := congrArg Store.storage store
  exact listed ▸ clean_moves _ clean ms

theorem clean_run (run : Run start steps last) (clean : Clean start.storage) :
    ∀ s ∈ steps, Clean s.before.storage ∧ Clean s.after.storage :=
  (run.throughout (fun w => Clean w.storage) (fun _ => True) clean
    (fun _ taken _ old => clean_step taken old) fun _ _ => trivial).2

end KeyspaceAmqp
