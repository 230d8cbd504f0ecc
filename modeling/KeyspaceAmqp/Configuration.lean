import KeyspaceAmqp.Turns

namespace KeyspaceAmqp
open Programs

structure Config where
  settings : Settings
  enabled : Bool
  deriving DecidableEq

def World.config (w : World) : Config := ⟨w.settings,w.amqpConnectionEnabled⟩

-- What amqpConnect returns, from the connection it finds and the answers to come.
def connectOutcome : Option Nat → List Answer → Option Int32
  | some _,_ => some REDIS_AMQP_ALREADY_CONNECTED
  | none,.socket true :: _ => some REDIS_AMQP_SOCKET_ERR
  | none,.socket false :: .status opened :: rest =>
    if opened ≠ 0 then some REDIS_AMQP_CONNECTION_ERR
    else match rest with
      | .rpc login :: rest =>
        if login ≠ AMQP_RESPONSE_NORMAL then some REDIS_AMQP_AUTH_ERR
        else match rest with
          | .rpc channel :: _ =>
            if channel ≠ AMQP_RESPONSE_NORMAL then some REDIS_AMQP_CHANNEL_ERR else some REDIS_AMQP_OK
          | _ => none
      | _ => none
  | none,_ => none

theorem amqpConnect_outcome (ran : Ends amqpConnect w res w') : connectOutcome w.conn w.script = some res := by
  rcases amqpConnect_parts ran with ⟨live,rfl,_⟩ | ⟨closed,answers,said,rest,attempt,script,_⟩
  · obtain ⟨h,live⟩ := Option.ne_none_iff_exists'.mp live
    rw [live]; rfl
  rw [closed,script]
  cases attempt with
  | socket => rfl
  | connection failed => simp [connectOutcome,failed]
  | auth failed => simp [connectOutcome,failed]
  | channel failed => simp [connectOutcome,failed]
  | opened => rfl

def Command.configure (outcome : Option Int32) (argv : List Bytes) (c : Config) : Command → Config
  | .connect => {
    settings := (KeyspaceAmqp.configure c.settings ((argv.drop 1).map cstr)).2
    enabled := if (KeyspaceAmqp.configure c.settings ((argv.drop 1).map cstr)).1 = REDISMODULE_OK ∧
      outcome = some REDIS_AMQP_OK then true else c.enabled }
  | .disconnect => {c with enabled := false}
  | .configSet => {c with settings := (KeyspaceAmqp.configure c.settings ((argv.drop 1).map cstr)).2}
  | .fallbackStorageSizeSet => match argv with
    | [_,size] => {c with settings := {c.settings with fallbackStorageMaxSize := UInt64.ofInt (strtol (cstr size))}}
    | _ => c
  | .keymaskClean => {c with settings := {c.settings with keyMaskArr := []}}
  | .keymaskAdd => {c with settings := {c.settings with
    keyMaskArr := keymaskAddLoop c.settings.keyMaskArr (argv.map cstr)}}
  | .keymaskSet => {c with settings := {c.settings with keyMaskArr := keymaskAddLoop [] (argv.map cstr)}}

structure Same (w w' : World) : Prop where
  config : w'.config = w.config
  conn : w'.conn = w.conn
  script : w'.script = w.script

theorem Same.refl (w : World) : Same w w := ⟨rfl,rfl,rfl⟩

theorem Same.trans (one : Same w m) (two : Same m w') : Same w w' :=
  ⟨two.config.trans one.config,two.conn.trans one.conn,two.script.trans one.script⟩

theorem Same.settings (same : Same w w') : w'.settings = w.settings := congrArg Config.settings same.config

theorem emit_same (ran : Ends (emit c) w u w') : Same w w' := by
  cases ends_emit.mp ran; exact ⟨rfl,rfl,rfl⟩

theorem wrongArityWhen_same (ran : Ends (wrongArityWhen wrong) w u w') : Same w w' := by
  rcases ends_ite.mp ran with ⟨_,replied⟩ | ⟨_,ran⟩
  · exact emit_same replied
  · obtain ⟨_,rfl⟩ := ends_pure.mp ran; exact .refl _

theorem broadcastRedisCommand_same (ran : Ends (broadcastRedisCommand ctx argv) w u w') : Same w w' := by
  rcases ends_ite.mp ran with ⟨_,sent⟩ | ⟨_,ran⟩
  · exact emit_same sent
  · obtain ⟨_,rfl⟩ := ends_pure.mp ran; exact .refl _

theorem setupFallbackStorage_same (ran : Ends (setupFallbackStorage ctx) w u w') : Same w w' := by
  simp only [setupFallbackStorage,syncFallbackStorageLen,openKey,ends_bind,ends_get,ends_ite,ends_emit,
    ends_newHandle,ends_pure,ends_modify] at ran
  obtain ⟨_,_,⟨rfl,rfl⟩,⟨_,_,_,⟨_,_,⟨rfl,rfl⟩,opened⟩,_,_,counted,_,_,rfl,closed⟩ | ⟨negative,_⟩⟩ := ran
  · rcases opened with ⟨_,_,_,rfl,rfl,rfl⟩ | ⟨_,_,_,⟨rfl,rfl⟩,_,_,rfl,rfl,rfl⟩
    · simp only [valueLength,closeKey,ends_pure] at counted closed
      obtain ⟨rfl,rfl⟩ := counted
      obtain ⟨-,rfl⟩ := closed
      exact ⟨rfl,rfl,rfl⟩
    · simp only [valueLength,closeKey,ends_bind,ends_emit,ends_get,ends_pure] at counted closed
      obtain ⟨_,_,rfl,_,_,⟨rfl,rfl⟩,rfl,rfl⟩ := counted
      subst closed
      exact ⟨rfl,rfl,rfl⟩
  · exact absurd (by simp) negative

theorem setupConfig_same (ran : Ends (setupConfig ctx argv argOffset) w res w') :
    Same {w with settings := (configure w.settings ((argv.drop argOffset).map cstr)).2} w' ∧
      (res = REDISMODULE_OK ↔ (configure w.settings ((argv.drop argOffset).map cstr)).1 = REDISMODULE_OK) := by
  simp only [setupConfig,ends_bind,ends_get,ends_ite,ends_modify,ends_pure] at ran
  obtain ⟨_,_,⟨rfl,rfl⟩,⟨_,_,_,rfl,⟨bad,rfl,rfl⟩ | ⟨ok,_,m,synced,rfl,rfl⟩⟩ | ⟨none,_,m,synced,rfl,rfl⟩⟩ := ran
  · exact ⟨.refl _,iff_of_false (by decide) bad⟩
  · exact ⟨setupFallbackStorage_same synced,iff_of_true rfl (not_not.mp ok)⟩
  · have empty : (argv.drop argOffset).map cstr = [] := List.eq_nil_of_length_eq_zero (Nat.eq_zero_of_not_pos none)
    rw [empty]
    exact ⟨setupFallbackStorage_same synced,iff_of_true rfl rfl⟩

theorem Wire.config (wire : Wire w w') : w'.config = w.config := by
  obtain ⟨_,_,_,_,rfl,_⟩ := wire; rfl

theorem createTimer_config (ran : Ends (createTimer ctx) w made w') : w'.config = w.config := by
  simp only [createTimer,ends_bind,ends_newHandle,ends_emit,ends_modify,ends_pure] at ran
  obtain ⟨_,_,⟨rfl,rfl⟩,_,_,rfl,_,_,rfl,rfl,rfl⟩ := ran
  rfl

theorem connectAmqpCommand_config (ran : Ends (connectAmqpCommand ctx argv) w res w') :
    w'.config = Command.connect.configure (connectOutcome w.conn w.script) argv w.config := by
  simp only [connectAmqpCommand,ends_bind,ends_ite,ends_pure,ends_modify] at ran
  obtain ⟨status,m,configured,ran⟩ := ran
  obtain ⟨⟨config,conn,script⟩,result⟩ := setupConfig_same configured
  have conn : m.conn = w.conn := conn
  have script : m.script = w.script := script
  rcases ran with ⟨bad,_,_,replied,_,rfl⟩ | ⟨ok,response,n,connected,ran⟩
  · have refused := fun fine => bad (result.mpr fine)
    rw [(emit_same replied).config,config,Command.configure,if_neg fun both => refused both.1]
    rfl
  have accepted := result.mp (not_not.mp ok)
  have outcome := amqpConnect_outcome connected
  have wired := (amqpConnect_wire connected).config
  rw [conn,script] at outcome
  rcases ran with ⟨failed,_,_,replied,_,rfl⟩ | ⟨done,made,o,timed,_,_,rfl,_,_,replied,_,rfl⟩
  · rw [(emit_same replied).config,wired,config,Command.configure,outcome,
      if_neg fun both => failed (Option.some.inj both.2)]
    rfl
  · have timed := createTimer_config timed
    rw [(emit_same replied).config,Command.configure,outcome,not_not.mp done,if_pos ⟨accepted,rfl⟩]
    have settings : o.settings = _ := congrArg Config.settings (timed.trans (wired.trans config))
    simp only [World.config,settings]

theorem disconnectAmqpCommand_config (outcome : Option Int32) (ran : Ends (disconnectAmqpCommand argv) w res w') :
    w'.config = Command.disconnect.configure outcome argv w.config := by
  simp only [disconnectAmqpCommand,stopHeartbeat,stopTimer,ends_bind,ends_ite,ends_pure,ends_modify,ends_get,
    ends_emit] at ran
  obtain ⟨_,m,arity,_,_,rfl,_,n,⟨_,_,⟨rfl,rfl⟩,stopped⟩,_,o,closed,ran⟩ := ran
  have arity := (wrongArityWhen_same arity).config
  have stopped : n.config = {m.config with enabled := false} := by
    rcases stopped with ⟨_,_,_,⟨_,_,rfl,rfl⟩,rfl⟩ | ⟨_,_,rfl⟩ <;> rfl
  have closed := (amqpDisconnect_wire closed).1.config
  rcases ran with ⟨_,_,_,rfl,_,rfl⟩ | ⟨_,_,_,rfl,_,rfl⟩
  · exact closed.trans (stopped.trans (arity ▸ rfl))
  · exact closed.trans (stopped.trans (arity ▸ rfl))

theorem setupFallbackStorageSizeCommand_config (outcome : Option Int32)
    (ran : Ends (setupFallbackStorageSizeCommand ctx argv) w res w') :
    w'.config = Command.fallbackStorageSizeSet.configure outcome argv w.config := by
  match argv with
  | [_,_] =>
    simp only [setupFallbackStorageSizeCommand,ends_bind,ends_modify,ends_pure] at ran
    obtain ⟨_,_,rfl,_,m,synced,_,rfl⟩ := ran
    exact (setupFallbackStorage_same synced).config
  | [] | [_] | _ :: _ :: _ :: _ =>
    obtain ⟨_,rfl⟩ := ends_pure.mp ran
    rfl

theorem setupConfig_config (outcome : Option Int32) (ran : Ends (setupConfig ctx argv 1) w res w') :
    w'.config = Command.configSet.configure outcome argv w.config := (setupConfig_same ran).1.config

theorem keymaskCleanCommand_config (outcome : Option Int32) (argv : List Bytes)
    (ran : Ends keymaskCleanCommand w res w') : w'.config = Command.keymaskClean.configure outcome argv w.config := by
  simp only [keymaskCleanCommand,ends_bind,ends_modify,ends_pure] at ran
  obtain ⟨_,_,rfl,_,rfl⟩ := ran
  rfl

theorem keymaskAddCommand_config (outcome : Option Int32) (ran : Ends (keymaskAddCommand argv) w res w') :
    w'.config = Command.keymaskAdd.configure outcome argv w.config := by
  simp only [keymaskAddCommand,ends_bind,ends_modify,ends_pure] at ran
  obtain ⟨_,_,rfl,_,rfl⟩ := ran
  rfl

theorem keymaskSet_config (outcome : Option Int32) (cleaned : Ends keymaskCleanCommand w res m)
    (added : Ends (keymaskAddCommand argv) m done w') :
    w'.config = Command.keymaskSet.configure outcome argv w.config := by
  rw [keymaskAddCommand_config outcome added,keymaskCleanCommand_config outcome argv cleaned]
  rfl

theorem body_config (command : Command) (ran : Ends (command.body ctx argv) w res w') :
    w'.config = command.configure (connectOutcome w.conn w.script) argv w.config := by
  cases command with
  | connect => exact connectAmqpCommand_config ran
  | disconnect => exact disconnectAmqpCommand_config _ ran
  | configSet => exact setupConfig_config _ ran
  | fallbackStorageSizeSet => exact setupFallbackStorageSizeCommand_config _ ran
  | keymaskClean => exact keymaskCleanCommand_config _ argv ran
  | keymaskAdd => exact keymaskAddCommand_config _ ran
  | keymaskSet =>
    simp only [Command.body,ends_bind,ends_pure] at ran
    obtain ⟨_,_,cleaned,_,_,added,_,rfl⟩ := ran
    exact keymaskSet_config _ cleaned added

theorem handler_config (command : Command) (ran : Ends (command.handler ctx argv) w res w') :
    w'.config = command.configure (connectOutcome w.conn w.script) argv w.config := by
  rw [handler_body] at ran
  simp only [ends_bind] at ran
  obtain ⟨_,m,arity,_,n,sent,ran⟩ := ran
  have begun := (wrongArityWhen_same arity).trans (broadcastRedisCommand_same sent)
  rw [body_config command ran,begun.config,begun.conn,begun.script]

theorem command_config (taken : step w ⟨.command ctx name args,script⟩ = some w') :
    ∃ command, lookupCommand name = some command ∧
      w'.config = command.configure (connectOutcome w.conn script) (name :: args) w.config := by
  have ran := step_ends.mp taken
  simp only [Callback.run] at ran
  cases found : lookupCommand name with
  | none => simp [found] at ran
  | some command =>
    simp only [found,ends_bind,ends_pure] at ran
    obtain ⟨_,_,ran,_,rfl⟩ := ran
    exact ⟨command,rfl,handler_config command ran⟩

theorem dispatch_config (ran : Ends (dispatch ctx command argv) w u w') :
    w'.config = match received command.bytes with
      | some found => found.configure (connectOutcome w.conn w.script) argv w.config
      | none => w.config := by
  rcases dispatch_body ran with ⟨found,res,known,ran⟩ | ⟨unknown,rfl⟩
  · rw [known,body_config found ran]
  · rw [unknown]

theorem createStrings_same (ran : Ends (createStrings argv) w strings w') :
    Same w w' ∧ strings.map RedisString.bytes = argv := by
  induction argv generalizing w strings w' with
  | nil => obtain ⟨rfl,rfl⟩ := ends_pure.mp ran; exact ⟨.refl _,rfl⟩
  | cons bytes rest ih =>
    simp only [createStrings,createString,ends_bind,ends_newHandle,ends_emit,ends_pure] at ran
    obtain ⟨_,_,⟨_,_,⟨rfl,rfl⟩,_,_,rfl,rfl,rfl⟩,later,_,made,rfl,rfl⟩ := ran
    obtain ⟨⟨config,conn,script⟩,bytes⟩ := ih made
    exact ⟨⟨config,conn,script⟩,congrArg _ bytes⟩

theorem freeStrings_same (ran : Ends (freeStrings strings) w u w') : Same w w' := by
  induction strings generalizing w with
  | nil => obtain ⟨_,rfl⟩ := ends_pure.mp ran; exact .refl _
  | cons string rest ih =>
    simp only [freeStrings,freeString,ends_bind] at ran
    obtain ⟨_,_,freed,later⟩ := ran
    exact (emit_same freed).trans (ih later)

theorem clusterMessageReceiver_config (decoded : serializedStringToRedisArgs (cstr (payload ++ beyond)) = first :: rest)
    (ran : Ends (clusterMessageReceiver ctx CLUSTER_MESSAGE_TYPE_CMD payload beyond) w u w') :
    w'.config = match received (cstr first).bytes with
      | some found => found.configure (connectOutcome w.conn w.script) (first :: rest) w.config
      | none => w.config := by
  simp only [clusterMessageReceiver,ends_ite,ends_pure,ends_bind] at ran
  rcases ran with ⟨other,_⟩ | ⟨_,argv,m,created,ran⟩
  · exact absurd rfl other
  obtain ⟨made,bytes⟩ := createStrings_same created
  rw [decoded] at bytes
  cases argv with
  | nil => cases bytes
  | cons string strings =>
    have head : string.bytes = first := (List.cons.inj bytes).1
    simp only [stringPtrLen,ends_bind,ends_pure,bytes,head] at ran
    obtain ⟨_,_,⟨_,_,read,rfl,rfl⟩,_,_,ran,freed⟩ := ran
    have begun := made.trans (emit_same read)
    rw [(freeStrings_same freed).config,dispatch_config ran,begun.config,begun.conn,begun.script]

end KeyspaceAmqp
