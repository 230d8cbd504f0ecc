import KeyspaceAmqp.Changes
import KeyspaceAmqp.Configuration

namespace KeyspaceAmqp
open Programs Paths Outbox

-- What a run can always go on with: calls that are known to return, up to an event
-- that is stored and one that takes a stored event along.

theorem command_step (command : Command) (ran : Ends (command.handler ctx (command.name :: args))
    {w with script := script,trace := []} res w') :
    step w ⟨.command ctx command.name args,script⟩ = some w' := by
  refine step_ends.mpr ?_
  simp only [Callback.run,lookup_name,ends_bind,ends_pure]
  exact ⟨res,w',ran,trivial,rfl⟩

theorem isRedisCluster_master (db : Int32) : isRedisCluster (master db) = false := by
  have flags : REDISMODULE_CTX_FLAGS_MASTER &&& REDISMODULE_CTX_FLAGS_CLUSTER = 0 := by decide
  simp [isRedisCluster,master,flags]

theorem isRedisMaster_master (db : Int32) : isRedisMaster (master db) = true := by
  have flag : REDISMODULE_CTX_FLAGS_MASTER ≠ 0 := by decide
  simp [isRedisMaster,master,flag]

theorem disconnect_closes (w : World) (db : Int32) :
    ∃ w', step w ⟨.command (master db) Command.disconnect.name [],[]⟩ = some w' ∧ w'.conn = none := by
  have ran : ∃ res w', Ends (Command.disconnect.handler (master db) [Command.disconnect.name])
      {w with script := [],trace := []} res w' ∧ w'.conn = none := by
    have lost : REDIS_AMQP_ERR ≠ REDIS_AMQP_OK := by decide
    simp only [Command.handler,amqpDisconnectRedisCommand,broadcastRedisCommand,isRedisCluster_master,
      disconnectAmqpCommand,wrongArityWhen,stopHeartbeat,stopTimer,amqpDisconnect]
    by_cases timer : w.heardBeatTimerId = 0 <;> by_cases closed : w.conn = none <;>
      simp [ends_ite,timer,closed,lost]
  obtain ⟨res,w',ran,closed⟩ := ran
  exact ⟨w',command_step .disconnect ran,closed⟩

theorem keymask_add_all (w : World) (db : Int32) :
    step w ⟨.command (master db) Command.keymaskAdd.name [ascii "ALL"],[]⟩ =
      some {w with settings := {w.settings with keyMaskArr := [KEY_MASK_ALL]},script := [],trace := []} := by
  have named : cstr Command.keymaskAdd.name ≠ KEY_MASK_ALL := by decide
  have all : cstr (ascii "ALL") = KEY_MASK_ALL := rfl
  have ran : Ends (Command.keymaskAdd.handler (master db) [Command.keymaskAdd.name,ascii "ALL"])
      {w with script := [],trace := []} REDISMODULE_OK
      {w with settings := {w.settings with keyMaskArr := [KEY_MASK_ALL]},script := [],trace := []} := by
    simp [Command.handler,keymaskAddRedisCommand,wrongArityWhen,broadcastRedisCommand,isRedisCluster_master,
      keymaskAddCommand,keymaskAddLoop,named,all]
  exact command_step .keymaskAdd ran

theorem setupFallbackStorage_returns (ctx : Ctx) (w : World) : ∃ w', Ends (setupFallbackStorage ctx) w () w' := by
  by_cases empty : w.storage ctx.db = [] <;>
    simp [setupFallbackStorage,syncFallbackStorageLen,openKey,valueLength,closeKey,ends_ite,empty]

theorem amqpConnect_connects (closed : w.conn = none) (script : w.script = connects) :
    ∃ w', Ends amqpConnect w REDIS_AMQP_OK w' ∧ w'.conn ≠ none := by
  obtain ⟨res,w',ran⟩ := amqpConnect_halts script
  have outcome := amqpConnect_outcome ran
  rw [closed,script] at outcome
  cases Option.some.inj outcome
  rcases amqpConnect_parts ran with ⟨live,_⟩ | ⟨_,answers,said,rest,_,_,left⟩
  · exact absurd closed live
  · rw [if_pos (.inl rfl)] at left
    exact ⟨w',ran,by simp [left,World.made]⟩

theorem connectAmqpCommand_connects (configured : Ends (setupConfig ctx argv 1) w REDISMODULE_OK m)
    (connected : Ends amqpConnect m REDIS_AMQP_OK n) :
    ∃ w', Ends (connectAmqpCommand ctx argv) w REDISMODULE_OK w' ∧ w'.conn = n.conn ∧ w'.heardBeatTimerId ≠ 0 ∧
      w'.amqpConnectionEnabled = true ∧ w'.settings = n.settings := by
  simp [connectAmqpCommand,configured.rest,connected.rest,createTimer]

theorem connect_opens (w : World) (db : Int32) (closed : w.conn = none) :
    ∃ w', step w ⟨.command (master db) Command.connect.name [],connects⟩ = some w' ∧ w'.conn ≠ none ∧
      w'.heardBeatTimerId ≠ 0 ∧ w'.amqpConnectionEnabled = true ∧ w'.settings = w.settings := by
  obtain ⟨m,synced⟩ := setupFallbackStorage_returns (master db) {w with script := connects,trace := []}
  obtain ⟨config,conn,script⟩ := setupFallbackStorage_same synced
  obtain ⟨n,connected,live⟩ := amqpConnect_connects (conn.trans closed) script
  have configured : Ends (setupConfig (master db) [Command.connect.name] 1) {w with script := connects,trace := []}
      REDISMODULE_OK m := by
    simpa [setupConfig,ends_ite] using ⟨_,synced⟩
  obtain ⟨w',ran,same,timer,enabled,settings⟩ := connectAmqpCommand_connects configured connected
  have kept : n.settings = w.settings := congrArg Config.settings ((amqpConnect_wire connected).config.trans config)
  have handled : Ends (Command.connect.handler (master db) [Command.connect.name])
      {w with script := connects,trace := []} REDISMODULE_OK w' := by
    simpa [Command.handler,amqpConnectRedisCommand,broadcastRedisCommand,isRedisCluster_master] using ran
  exact ⟨w',command_step .connect handled,same ▸ live,timer,enabled,settings.trans kept⟩

theorem amqpPublish_answered (body : CString) (rest : List Answer) (live : w.conn ≠ none) (script : w.script = publishes status ++ rest) :
    ∃ w' more, Ends (amqpPublish body) w status w' ∧ w'.conn = w.conn ∧ w'.script = rest ∧ w'.storage = w.storage ∧
      w'.trace = w.trace ++ more ∧ mail more = if status = AMQP_STATUS_OK then [.sent body.bytes] else [] := by
  have script : w.script = .garbage ⟨0,0,0⟩ :: .waited AMQP_STATUS_TIMEOUT none :: .status status :: rest := script
  have asked : Ends (answer Answer.garbage?) w ⟨0,0,0⟩ {w with
      script := .waited AMQP_STATUS_TIMEOUT none :: .status status :: rest} :=
    ends_answer.mpr ⟨_,_,script,rfl,rfl⟩
  have waited : Ends amqpWaitFrame w AMQP_STATUS_OK {w with
      script := .status status :: rest
      trace := w.trace ++ [.amqp w.conn (.simpleWaitFrameNoblock AMQP_STATUS_TIMEOUT)]} := by
    rw [amqpWaitFrame,asked.rest]
    rfl
  simp only [amqpPublish,(get_ends w).rest,if_pos live,waited.rest,if_neg (not_not.mpr rfl),amqpBasicPublish]
  refine ⟨_,_,ends_askAmqp.mpr ⟨_,_,rfl,rfl,rfl⟩,rfl,rfl,rfl,List.append_assoc _ _ _,?_⟩
  by_cases ok : status = AMQP_STATUS_OK
  · rw [if_pos ok,ok]; rfl
  · rw [if_neg ok]; simp [mail,Call.mail,ok]

theorem listPopHead_returns (key : Key) (w : World) : ∃ popped w', Ends (listPopHead (some key)) w popped w' ∧
    (popped ≠ none → w.storage key.db ≠ []) ∧ w'.conn = w.conn ∧ w'.script = w.script ∧
    ∃ more, w'.trace = w.trace ++ more := by
  cases mode : key.mode <;> cases listed : w.storage key.db <;> simp [listPopHead,mode,listed]

theorem evictOldest_returns (key : Key) (w : World) : ∃ w', Ends (evictOldest (some key)) w () w' ∧ w'.conn = w.conn := by
  simp only [evictOldest,(get_ends w).rest]
  split
  · obtain ⟨popped,w',ran,_,conn,_⟩ := listPopHead_returns key w
    simp only [ran.rest]
    exact ⟨w',ends_pure.mpr ⟨rfl,rfl⟩,conn⟩
  · exact ⟨w,ends_pure.mpr ⟨rfl,rfl⟩,rfl⟩

theorem pushEventToStorage_stores (ctx : Ctx) (body : CString) (w : World) :
    ∃ w', Ends (pushEventToStorage ctx body) w () w' ∧ w'.conn = w.conn ∧ w'.storage ctx.db ≠ [] ∧
      .appended ctx.db body.bytes ∈ mail w'.trace := by
  let key : Key := ⟨w.handles+1,ctx.db,.readWrite⟩
  obtain ⟨m,evicted,conn⟩ := evictOldest_returns key {w with
    handles := w.handles+1
    trace := w.trace ++ [.openKey ctx.db .readWrite (some key)]}
  have opened : Ends (openKey ctx .readWrite) w (some key) {w with
    handles := w.handles+1
    trace := w.trace ++ [.openKey ctx.db .readWrite (some key)]} := by
    simp [openKey,key]
  have pushed : ∃ w', Ends (pushEventToStorage ctx body) w () w' ∧ w'.conn = m.conn ∧ w'.storage ctx.db ≠ [] ∧
      .listPush key .tail ⟨m.handles+1,body.bytes⟩ ∈ w'.trace := by
    simp only [pushEventToStorage,(get_ends w).rest,UInt64.not_lt_zero,if_false,opened.rest,evicted.rest]
    simp [createString,listPush,closeKey,key,ListEnd.push]
  obtain ⟨w',ran,same,kept,member⟩ := pushed
  exact ⟨w',ran,same.trans conn,kept,List.mem_filterMap.mpr ⟨_,member,rfl⟩⟩

theorem publishEvent_refused (ctx : Ctx) (event keyname : CString) (live : w.conn ≠ none) (script : w.script = refuses) :
    ∃ w', Ends (publishEvent ctx event keyname) w () w' ∧ w'.conn = w.conn ∧ w'.storage ctx.db ≠ [] ∧
      .appended ctx.db (messageString ctx.db event keyname).bytes ∈ mail w'.trace := by
  unfold publishEvent
  generalize messageString ctx.db event keyname = body
  let v : World := {w with trace := w.trace ++ [.publishEvent ctx.db body]}
  have entered : Ends (emit (.publishEvent ctx.db body)) w () v := ends_emit.mpr rfl
  obtain ⟨m,_,answered,conn,_⟩ := amqpPublish_answered (w := v) body [] live script
  obtain ⟨w',stored,same,kept⟩ := pushEventToStorage_stores ctx body m
  have bad : (-9 : Int32) ≠ AMQP_STATUS_OK := by decide
  refine ⟨w',?_,same.trans conn,kept⟩
  rw [entered.rest,(get_ends v).rest,if_pos live,answered.rest,if_pos bad]
  exact stored

theorem publishStoredLoop_refused (key : Key) (string : RedisString) (rounds : Nat) (live : w.conn ≠ none)
    (script : w.script = refuses) :
    ∃ res w' more, Ends (publishStoredLoop (some key) (rounds+1) (some string)) w res w' ∧ w'.trace = w.trace ++ more := by
  let v : World := {w with trace := w.trace ++ [.stringPtrLen string]}
  have read : Ends (stringPtrLen string) w (cstr string.bytes) v := by simp [stringPtrLen,v]
  obtain ⟨m,more,answered,_,_,_,added,_⟩ := amqpPublish_answered (w := v) (cstr string.bytes) [] live script
  have bad : (-9 : Int32) ≠ AMQP_STATUS_OK := by decide
  have added : m.trace = w.trace ++ ([.stringPtrLen string] ++ more) := by rw [added,List.append_assoc]
  simp only [publishStoredLoop,read.rest,answered.rest,if_pos bad]
  cases mode : key.mode <;> simp [listPush,freeString,mode,added]

theorem publishStoredLoop_ends (key : Key) (rounds : Nat) (next : Option RedisString) (room : next ≠ none → rounds ≠ 0)
    (live : w.conn ≠ none) (script : w.script = refuses) :
    ∃ res w' more, Ends (publishStoredLoop (some key) rounds next) w res w' ∧ w'.trace = w.trace ++ more := by
  cases next with
  | none => exact ⟨REDISMODULE_OK,w,[],by simp [publishStoredLoop],(List.append_nil _).symm⟩
  | some string =>
    obtain ⟨rounds,rfl⟩ := Nat.exists_eq_succ_of_ne_zero (room (by simp))
    exact publishStoredLoop_refused key string rounds live script

theorem publishStoredLoop_sends (key : Key) (string : RedisString) (rounds : Nat) (live : w.conn ≠ none)
    (script : w.script = accepts ++ refuses) (room : w.storage key.db ≠ [] → rounds ≠ 0) :
    ∃ res w' more, Ends (publishStoredLoop (some key) (rounds+1) (some string)) w res w' ∧
      mail w'.trace = mail w.trace ++ [.sent (cstr string.bytes).bytes] ++ more := by
  let v : World := {w with trace := w.trace ++ [.stringPtrLen string]}
  have read : Ends (stringPtrLen string) w (cstr string.bytes) v := by simp [stringPtrLen,v]
  obtain ⟨m,calls,answered,conn,script,storage,added,meaning⟩ :=
    amqpPublish_answered (w := v) (cstr string.bytes) refuses live script
  let n : World := {m with fallbackStorageLen := m.fallbackStorageLen-1}
  have counted : Ends (modify fun w : World => {w with fallbackStorageLen := w.fallbackStorageLen-1}) m () n :=
    ends_modify.mpr rfl
  have freed : Ends (freeString string) n () {n with trace := n.trace ++ [.freeString string]} := ends_emit.mpr rfl
  obtain ⟨next,o,popped,some,conn',script',more,added'⟩ := listPopHead_returns key {n with trace := n.trace ++ [.freeString string]}
  obtain ⟨res,w',rest,looped,added''⟩ := publishStoredLoop_ends key rounds next
    (fun found => room (storage ▸ some found)) (by rw [conn']; exact conn ▸ live) (script'.trans script)
  refine ⟨res,w',mail more ++ mail rest,?_,?_⟩
  · simp only [publishStoredLoop,read.rest,answered.rest,if_neg (not_not.mpr rfl),counted.rest,freed.rest,popped.rest]
    exact looped
  · have silent : mail [.stringPtrLen string] = [] ∧ mail [.freeString string] = [] := ⟨rfl,rfl⟩
    simp only [added'',added',n,added,v,mail_append,silent,meaning,if_true,List.nil_append,List.append_assoc]

theorem publishStoredEvents_sends (ctx : Ctx) (live : w.conn ≠ none) (script : w.script = accepts ++ refuses)
    (listed : w.storage ctx.db = bytes :: rest) :
    ∃ res w' more, Ends (publishStoredEvents ctx) w res w' ∧
      mail w'.trace = mail w.trace ++ [.taken ctx.db,.sent (cstr bytes).bytes] ++ more := by
  let key : Key := ⟨w.handles+1,ctx.db,.readWrite⟩
  let string : RedisString := ⟨w.handles+1+1,bytes⟩
  let v : World := {w with handles := w.handles+1,trace := w.trace ++ [.openKey ctx.db .readWrite (some key)]}
  have opened : Ends (openKey ctx .readWrite) w (some key) v := by simp [openKey,key,v]
  let m : World := {v with
    storage := Function.update w.storage ctx.db rest
    handles := w.handles+1+1
    trace := v.trace ++ [.listPop key (some string)]}
  have popped : Ends (listPopHead (some key)) v (some string) m := by simp [listPopHead,key,v,listed,m,string]
  have left : m.storage key.db = rest := Function.update_self _ _ _
  obtain ⟨res,n,more,looped,told⟩ := publishStoredLoop_sends (w := m) key string rest.length live script fun some none =>
    some (left.trans (List.length_eq_zero_iff.mp none))
  have begun : mail m.trace = mail w.trace ++ [.taken ctx.db] := by simp [m,v]; rfl
  simp only [publishStoredEvents,(get_ends w).rest,UInt64.not_lt_zero,if_false,opened.rest,popped.rest,listed,List.length_cons,
    looped.rest]
  split
  · exact ⟨res,n,more,ends_pure.mpr ⟨rfl,rfl⟩,by simp [told,begun,string]⟩
  · have cleared : ∃ o, Ends (do
        deleteKey (some key)
        closeKey (some key)
        pure REDISMODULE_OK) n REDISMODULE_OK o ∧ o.trace = n.trace ++ [.deleteKey key,.closeKey key] := by
      simp [deleteKey,closeKey,key]
    obtain ⟨o,ran,trace⟩ := cleared
    have silent : mail [.deleteKey key,.closeKey key] = [] := rfl
    exact ⟨_,o,more,ran,by simp only [trace,mail_append,silent,told,begun,string,List.append_assoc,List.append_nil]; rfl⟩

theorem publishEvent_accepted (ctx : Ctx) (event keyname : CString) (live : w.conn ≠ none)
    (script : w.script = accepts ++ (accepts ++ refuses)) (waiting : w.storage ctx.db ≠ []) :
    ∃ w' before after body, Ends (publishEvent ctx event keyname) w () w' ∧
      mail w'.trace = before ++ [.taken ctx.db,.sent body] ++ after := by
  obtain ⟨bytes,rest,listed⟩ := List.exists_cons_of_ne_nil waiting
  unfold publishEvent
  generalize messageString ctx.db event keyname = body
  let v : World := {w with trace := w.trace ++ [.publishEvent ctx.db body]}
  have entered : Ends (emit (.publishEvent ctx.db body)) w () v := ends_emit.mpr rfl
  obtain ⟨m,_,answered,conn,script,storage,_⟩ := amqpPublish_answered (w := v) body (accepts ++ refuses) live script
  obtain ⟨res,w',more,drained,told⟩ := publishStoredEvents_sends (w := m) ctx (conn ▸ live) script ((congrFun storage _).trans listed)
  refine ⟨w',_,_,_,?_,told⟩
  rw [entered.rest,(get_ends v).rest,if_pos live,answered.rest,if_neg (not_not.mpr rfl),drained.rest]
  exact ends_pure.mpr ⟨rfl,rfl⟩

structure Ready (w : World) : Prop where
  live : w.conn ≠ none
  timer : w.heardBeatTimerId ≠ 0
  enabled : w.amqpConnectionEnabled = true
  masks : w.settings.keyMaskArr = [KEY_MASK_ALL]

theorem Ready.forwards (ready : Ready w) (db : Int32)
    (published : Ends (publishEvent (master db) event (cstr key)) w () w') :
    Ends (onKeyspaceEvent (master db) type event key) w REDISMODULE_OK w' := by
  have first : Ends (firstEvent (master db)) w () w := by simp [firstEvent,ends_ite,ready.timer]
  simp only [onKeyspaceEvent,(get_ends w).rest,isRedisMaster_master,ready.enabled,first.rest,ready.masks,forwardLoop,
    published.rest,and_self,if_true]
  exact ends_pure.mpr ⟨rfl,rfl⟩

theorem Ready.expires (ready : Ready w) (db : Int32)
    (published : Ends (publishEvent (master db) (cstr (ascii "expired")) (cstr (ascii key)))
      {w with script := script,trace := []} () w') :
    step w (expired db key script) = some w' := by
  have ready : Ready {w with script := script,trace := []} := ⟨ready.live,ready.timer,ready.enabled,ready.masks⟩
  refine step_ends.mpr ?_
  simp only [Callback.run,expired,(ready.forwards db published).rest]
  exact ends_pure.mpr ⟨rfl,rfl⟩

def readying (db : Int32) : List Callback :=
  [.command (master db) Command.disconnect.name [],.command (master db) Command.keymaskAdd.name [ascii "ALL"],
    .command (master db) Command.connect.name []]

theorem made_ready (w : World) (db : Int32) : ∃ steps last, Run w steps last ∧ Ready last ∧
    steps.map (fun s => s.label.callback) = readying db := by
  obtain ⟨m,first,closed⟩ := disconnect_closes w db
  have second := keymask_add_all m db
  obtain ⟨w',third,live,timer,enabled,settings⟩ := connect_opens {m with
    settings := {m.settings with keyMaskArr := [KEY_MASK_ALL]}
    script := []
    trace := []} db closed
  exact ⟨_,w',.cons first (.cons second (.single third)),
    ⟨live,timer,enabled,congrArg Settings.keyMaskArr settings⟩,rfl⟩

theorem stores_and_sends (w : World) (db : Int32) : ∃ steps last, Run w steps last ∧
    (∃ s ∈ steps, Stores s) ∧ (∃ s ∈ steps, 0 < drained (mail s.after.trace)) ∧
    steps.map (fun s => s.label.callback) =
      readying db ++ [(expired db "a" refuses).callback,(expired db "b" (accepts ++ (accepts ++ refuses))).callback] := by
  obtain ⟨steps,m,run,ready,labels⟩ := made_ready w db
  obtain ⟨n,stored,conn,kept,appended⟩ := publishEvent_refused (w := {m with script := refuses,trace := []}) (master db)
    (cstr (ascii "expired")) (cstr (ascii "a")) ready.live rfl
  obtain ⟨_,_,⟨settings,enabled,timer,_⟩,_⟩ := publishEvent_effect stored
  have ready' : Ready n := ⟨conn ▸ ready.live,timer ▸ ready.timer,enabled ▸ ready.enabled,settings ▸ ready.masks⟩
  obtain ⟨last,before,after,body,sent,told⟩ := publishEvent_accepted
    (w := {n with script := accepts ++ (accepts ++ refuses),trace := []}) (master db) (cstr (ascii "expired"))
    (cstr (ascii "b")) ready'.live rfl kept
  have first := ready.expires db stored
  have second := ready'.expires db sent
  have one : Stores ⟨m,expired db "a" refuses,n⟩ := (stores_mail _).mpr ⟨_,_,appended⟩
  have another : 0 < drained (mail last.trace) := by
    have taken : 0 < drained ([Mail.taken db,.sent body] ++ after) := Nat.succ_pos _
    rw [told,List.append_assoc]
    exact taken.trans_le (drained_later before _)
  exact ⟨_,last,run.append (.cons first (.single second)),⟨_,List.mem_append_right _ List.mem_cons_self,one⟩,
    ⟨_,List.mem_append_right _ (List.mem_cons_of_mem _ List.mem_cons_self),another⟩,by rw [List.map_append,labels]; rfl⟩

end KeyspaceAmqp
