import KeyspaceAmqp.Steps

namespace KeyspaceAmqp
open Programs Paths

def replies (trace : List Call) : Nat := trace.countP fun c => c.part = .replies

@[simp] theorem replies_append (one two : List Call) : replies (one ++ two) = replies one + replies two :=
  List.countP_append

@[simp] theorem replies_nil : replies [] = 0 := rfl

@[simp] theorem replies_cons (c : Call) (rest : List Call) :
    replies (c :: rest) = replies rest + if c.part = .replies then 1 else 0 := by
  simp [replies,List.countP_cons]

theorem Touches.replies (touches : Touches parts w w') (silent : .replies ∉ parts) :
    replies w'.trace = KeyspaceAmqp.replies w.trace := by
  obtain ⟨more,added,inside⟩ := touches.calls
  have none : KeyspaceAmqp.replies more = 0 := by
    refine List.countP_eq_zero.mpr ?_
    intro c member reply
    exact silent (of_decide_eq_true reply ▸ inside c member)
  rw [added,replies_append,none,Nat.add_zero]

theorem wrongArityWhen_replies (ran : Ends (wrongArityWhen wrong) w u w') :
    replies w'.trace = replies w.trace + wrong.toNat := by
  rcases ends_ite.mp ran with ⟨rfl,replied⟩ | ⟨fine,ran⟩
  · cases ends_emit.mp replied
    simp
  · obtain ⟨_,rfl⟩ := ends_pure.mp ran
    cases Bool.eq_false_of_not_eq_true fine
    rfl

def Command.replies : Command → List Bytes → Nat
  | .connect,_ => 1
  | .disconnect,argv => (decide (argv.length > 1)).toNat+1
  | command,argv => (command.wrong argv).toNat

theorem connect_replies (ran : Ends (connectAmqpCommand ctx argv) w res w') :
    replies w'.trace = replies w.trace + 1 := by
  obtain ⟨m,configured,_,⟨_,rfl⟩ | ⟨_,response,n,connected,⟨_,_,rfl⟩ | ⟨_,_,rfl⟩⟩⟩ := connectAmqpCommand_parts ran
  all_goals have configured := configured.replies (by decide)
  · simp [configured]
  all_goals
    have connected : Touches [.session] m n := Keeps.keeps connected
    have connected := connected.replies (by decide)
  · simp [connected,configured]
  · simp [World.armed,connected,configured]

theorem disconnect_replies (ran : Ends (disconnectAmqpCommand argv) w res w') :
    replies w'.trace = replies w.trace + ((decide (argv.length > 1)).toNat+1) := by
  obtain ⟨m,response,n,final,arity,closed,rfl⟩ := disconnectAmqpCommand_parts ran
  have closed : Touches [.session] _ n := Keeps.keeps closed
  have closed := closed.replies (by decide)
  have stopped : replies {m with amqpConnectionEnabled := false}.stopped.trace = replies m.trace := by
    unfold World.stopped
    by_cases zero : m.heardBeatTimerId = 0 <;> simp [zero]
  rw [replies_append,closed,stopped,wrongArityWhen_replies arity]
  exact Nat.add_assoc _ _ _

theorem handler_replies (command : Command) (ran : Ends (command.handler ctx argv) w res w') :
    replies w'.trace = replies w.trace + command.replies argv := by
  rw [handler_body] at ran
  simp only [ends_bind] at ran
  obtain ⟨_,m,arity,_,n,sent,ran⟩ := ran
  have sent : Touches [.broadcasts] m n := Keeps.keeps sent
  have begun := (sent.replies (by decide)).trans (wrongArityWhen_replies arity)
  rcases body_parts command ran with ⟨rfl,ran⟩ | ⟨rfl,ran⟩ | ⟨connecting,disconnecting,touched⟩
  · rw [connect_replies ran,begun]
    rfl
  · rw [disconnect_replies ran,begun]
    rfl
  · rw [touched.replies (by decide),begun]
    cases command <;> first | rfl | exact absurd rfl connecting | exact absurd rfl disconnecting

-- A connect always answers and so does a disconnect without arguments; the others answer
-- only those who got the number of arguments wrong.
def Command.Answers (argv : List Bytes) : Command → Prop
  | .connect => True
  | .disconnect => argv.length ≤ 1
  | command => command.wrong argv = true

theorem answers_replies (command : Command) (argv : List Bytes) : command.replies argv = 1 ↔ command.Answers argv := by
  cases command <;> simp [Command.replies,Command.Answers]

theorem one_reply_iff (taken : step w ⟨.command ctx name args,script⟩ = some w')
    (found : lookupCommand name = some command) : replies w'.trace = 1 ↔ command.Answers (name :: args) := by
  have ran := step_ends.mp taken
  simp only [Callback.run,found,ends_bind,ends_pure] at ran
  obtain ⟨_,_,ran,_,rfl⟩ := ran
  have counted := handler_replies command ran
  rw [← answers_replies,counted]
  simp

theorem one_reply_iff_failed_connect : ∃ w w', step w (told .connect [] [.socket true]) = some w' ∧
    w'.heardBeatTimerId = 0 ∧ replies w'.trace = 1 := by
  obtain ⟨w,w',_,taken,failed⟩ := played_step (master 0) (allKeys "0") (fun _ => [])
    (told .connect [] [.socket true]) (fun _ w' => w'.heardBeatTimerId == 0) (by decide +kernel)
  exact ⟨w,w',taken,eq_of_beq failed,(one_reply_iff taken (lookup_name .connect)).mpr trivial⟩

-- A client who cleans the masks waits in vain; one who disconnects with an argument too
-- many hears twice.
theorem replies_none_and_two : ∃ start steps last, Loaded (master 0) (allKeys "0") (fun _ => []) start ∧
    Run start steps last ∧ steps.map (fun s => s.label.callback) =
      [(told .keymaskClean [] []).callback,(told .disconnect ["now"] []).callback] ∧
    steps.map (fun s => replies s.after.trace) = [0,2] := by
  obtain ⟨start,w,loaded,cleaned,seen⟩ := played_step (master 0) (allKeys "0") (fun _ => [])
    (told .keymaskClean [] []) (fun _ w => (step w (told .disconnect ["now"] [])).any fun v =>
      [w,v].map (fun w => replies w.trace) == [0,2]) (by decide +kernel)
  obtain ⟨v,stopped,counted⟩ := (Option.any_eq_true _ _).mp seen
  exact ⟨start,_,v,loaded,.cons cleaned (.single stopped),rfl,eq_of_beq counted⟩

structure Unmoved (w w' : World) : Prop where
  settings : w'.settings = w.settings
  conn : w'.conn = w.conn
  heartbeat : w'.heardBeatTimerId = w.heardBeatTimerId
  enabled : w'.amqpConnectionEnabled = w.amqpConnectionEnabled
  count : w'.fallbackStorageLen = w.fallbackStorageLen
  lists : w'.storage = w.storage
  timers : w'.timers = w.timers

theorem Unmoved.trans (one : Unmoved w m) (two : Unmoved m w') : Unmoved w w' :=
  ⟨two.settings.trans one.settings,two.conn.trans one.conn,two.heartbeat.trans one.heartbeat,
    two.enabled.trans one.enabled,two.count.trans one.count,two.lists.trans one.lists,two.timers.trans one.timers⟩

theorem Unmoved.symm (unmoved : Unmoved w w') : Unmoved w' w :=
  ⟨unmoved.settings.symm,unmoved.conn.symm,unmoved.heartbeat.symm,unmoved.enabled.symm,unmoved.count.symm,
    unmoved.lists.symm,unmoved.timers.symm⟩

theorem Aside.unmoved (aside : Aside w w') : Unmoved w w' where
  settings := aside.touches.settings.resolve_left (by decide)
  conn := aside.touches.conn.resolve_left (by decide)
  heartbeat := aside.touches.heartbeat.resolve_left (by decide)
  enabled := aside.touches.enabled.resolve_left (by decide)
  count := aside.touches.count.resolve_left (by decide)
  lists := aside.touches.lists.resolve_left (by decide)
  timers := aside.touches.timers.resolve_left (by decide)

def Command.misused : Command → List Bytes → Bool
  | .disconnect,argv => argv.length > 1
  | command,argv => command.wrong argv

-- States in which the misused command changes nothing, as there is nothing left to change.
def Command.Settled (w : World) (ctx : Ctx) (argv : List Bytes) : Command → Prop
  | .connect | .fallbackStorageSizeSet => True
  | .disconnect => w.amqpConnectionEnabled = false ∧ w.heardBeatTimerId = 0 ∧ w.conn = none
  | .configSet => w.fallbackStorageLen = UInt64.ofNat (w.storage ctx.db).length
  | .keymaskClean => w.settings.keyMaskArr = []
  | .keymaskAdd => False
  | .keymaskSet => w.settings.keyMaskArr = argv.map cstr

theorem settled_congr (unmoved : Unmoved w w') (command : Command) :
    command.Settled w ctx argv ↔ command.Settled w' ctx argv := by
  cases command <;> simp only [Command.Settled,unmoved.settings,unmoved.conn,unmoved.heartbeat,unmoved.enabled,
    unmoved.count,unmoved.lists]

theorem disconnect_unmoved (ran : Ends (disconnectAmqpCommand argv) w res w') :
    Unmoved w w' ↔ w.amqpConnectionEnabled = false ∧ w.heardBeatTimerId = 0 ∧ w.conn = none := by
  obtain ⟨m,response,n,final,arity,closed,rfl⟩ := disconnectAmqpCommand_parts ran
  have aside : Aside w m := ⟨wrongArityWhen_same arity,Keeps.keeps arity⟩
  have begun := aside.unmoved
  have touched : Touches [.session] _ n := Keeps.keeps closed
  have enabled : n.amqpConnectionEnabled = false := touched.enabled.resolve_left (by decide)
  have heartbeat : n.heardBeatTimerId = 0 := touched.heartbeat.resolve_left (by decide)
  have conn : n.conn = none := (amqpDisconnect_wire closed).2
  constructor
  · intro unmoved
    exact ⟨unmoved.enabled.symm.trans enabled,unmoved.heartbeat.symm.trans heartbeat,unmoved.conn.symm.trans conn⟩
  · rintro ⟨off,zero,none⟩
    have timers : n.timers = w.timers := by
      have same : n.timers = {m with amqpConnectionEnabled := false}.stopped.timers := touched.timers.resolve_left (by decide)
      rw [same,← begun.timers]
      simp [World.stopped,begun.heartbeat,zero]
    exact ⟨(touched.settings.resolve_left (by decide)).trans begun.settings,conn.trans none.symm,heartbeat.trans zero.symm,
      enabled.trans off.symm,(touched.count.resolve_left (by decide)).trans begun.count,
      (touched.lists.resolve_left (by decide)).trans begun.lists,timers⟩

theorem setupConfig_unmoved (ran : Ends (setupConfig ctx [name] 1) w res w') :
    Unmoved w w' ↔ w.fallbackStorageLen = UInt64.ofNat (w.storage ctx.db).length := by
  have synced : Ends (setupFallbackStorage ctx) w () w' := by
    simp only [setupConfig,ends_bind,ends_get,List.drop_succ_cons,List.drop_zero,List.map_nil,List.length_nil,
      gt_iff_lt,Nat.lt_irrefl,if_false,ends_pure] at ran
    obtain ⟨_,_,⟨rfl,rfl⟩,_,_,synced,_,rfl⟩ := ran
    exact synced
  have counted : w'.fallbackStorageLen = UInt64.ofNat (w.storage ctx.db).length :=
    congrArg Store.len (setupFallbackStorage_effect synced).1.store
  have touched : Touches [.keys,.count] w w' := Keeps.keeps synced
  constructor
  · intro unmoved
    exact unmoved.count.symm.trans counted
  · intro fresh
    exact ⟨touched.settings.resolve_left (by decide),touched.conn.resolve_left (by decide),
      touched.heartbeat.resolve_left (by decide),touched.enabled.resolve_left (by decide),counted.trans fresh.symm,
      touched.lists.resolve_left (by decide),touched.timers.resolve_left (by decide)⟩

theorem masks_unmoved (masks : List CString) (w : World) :
    Unmoved w {w with settings := {w.settings with keyMaskArr := masks}} ↔ w.settings.keyMaskArr = masks := by
  constructor
  · intro unmoved
    exact (congrArg Settings.keyMaskArr unmoved.settings).symm
  · rintro rfl
    exact ⟨rfl,rfl,rfl,rfl,rfl,rfl,rfl⟩

theorem body_unmoved (found : lookupCommand name = some command) (misused : command.misused (name :: args) = true)
    (ran : Ends (command.body ctx (name :: args)) w res w') :
    Unmoved w w' ↔ command.Settled w ctx (name :: args) := by
  have other := name_not_all found
  have alone (short : (name :: args).length < 2) : args = [] :=
    List.eq_nil_of_length_eq_zero (by simp only [List.length_cons] at short; omega)
  cases command with
  | connect => cases misused
  | disconnect => exact disconnect_unmoved ran
  | configSet =>
    cases alone (of_decide_eq_true misused)
    exact setupConfig_unmoved ran
  | fallbackStorageSizeSet =>
    refine iff_of_true ?_ trivial
    have wrong : (name :: args).length ≠ 2 := of_decide_eq_true misused
    match args with
    | [] | _ :: _ :: _ =>
      obtain ⟨_,rfl⟩ := ends_pure.mp ran
      exact (Aside.refl w).unmoved
    | [_] => exact absurd rfl wrong
  | keymaskClean =>
    simp only [Command.body,keymaskCleanCommand,ends_bind,ends_modify,ends_pure] at ran
    obtain ⟨_,_,rfl,_,rfl⟩ := ran
    exact masks_unmoved [] w
  | keymaskAdd =>
    cases alone (of_decide_eq_true misused)
    simp only [Command.body,keymaskAddCommand,ends_bind,ends_modify,ends_pure,List.map_cons,List.map_nil,keymaskAddLoop,
      if_neg other] at ran
    obtain ⟨_,_,rfl,_,rfl⟩ := ran
    exact (masks_unmoved _ w).trans (by simp [Command.Settled])
  | keymaskSet =>
    cases alone (of_decide_eq_true misused)
    simp only [Command.body,keymaskCleanCommand,keymaskAddCommand,ends_bind,ends_modify,ends_pure,List.map_cons,
      List.map_nil,keymaskAddLoop,if_neg other] at ran
    obtain ⟨_,_,⟨_,_,rfl,_,rfl⟩,_,_,⟨_,_,rfl,_,rfl⟩,_,rfl⟩ := ran
    exact masks_unmoved [cstr name] w

def Broadcasts (trace : List Call) : Prop := ∃ type payload, .sendClusterMessage type payload ∈ trace

theorem broadcasts_part (trace : List Call) : Broadcasts trace ↔ ∃ c ∈ trace, c.part = .broadcasts := by
  constructor
  · rintro ⟨type,payload,member⟩
    exact ⟨_,member,rfl⟩
  · rintro ⟨c,member,sent⟩
    cases c with
    | sendClusterMessage type payload => exact ⟨type,payload,member⟩
    | amqp conn call => cases call <;> cases sent
    | _ => cases sent

theorem broadcastRedisCommand_sends (ran : Ends (broadcastRedisCommand ctx argv) w u w') :
    (∃ c ∈ w'.trace, c.part = .broadcasts) ↔ isRedisCluster ctx = true ∨ ∃ c ∈ w.trace, c.part = .broadcasts := by
  rcases ends_ite.mp ran with ⟨cluster,sent⟩ | ⟨alone,ran⟩
  · cases ends_emit.mp sent
    exact iff_of_true ⟨_,List.mem_append_right _ (List.mem_singleton_self _),rfl⟩ (.inl cluster)
  · obtain ⟨_,rfl⟩ := ends_pure.mp ran
    exact (or_iff_right alone).symm

-- The wrong number of arguments is reported, and then the command goes on: it is passed on
-- to every other node, and carried out.
theorem misuse_rejected_iff (taken : step w ⟨.command ctx name args,script⟩ = some w')
    (found : lookupCommand name = some command) (misused : command.misused (name :: args) = true) :
    (Unmoved w w' ∧ ¬ Broadcasts w'.trace) ↔ isRedisCluster ctx = false ∧ command.Settled w ctx (name :: args) := by
  have ran := step_ends.mp taken
  simp only [Callback.run,found,ends_bind,ends_pure,handler_body] at ran
  obtain ⟨_,w',⟨_,m,arity,_,n,sent,ran⟩,_,rfl⟩ := ran
  have before : Aside (w.given script) n := ⟨(wrongArityWhen_same arity).trans (broadcastRedisCommand_same sent),
    Touches.trans (Keeps.keeps arity) (Keeps.keeps sent)⟩
  have given : Unmoved w (w.given script) := ⟨rfl,rfl,rfl,rfl,rfl,rfl,rfl⟩
  have same := given.trans before.unmoved
  have silent : (∃ c ∈ w'.trace, c.part = .broadcasts) ↔ isRedisCluster ctx = true := by
    have arity : Touches [.replies] (w.given script) m := Keeps.keeps arity
    rw [(body_within command ran).made (by decide),broadcastRedisCommand_sends sent,arity.made (by decide)]
    simp [World.given]
  rw [broadcasts_part,silent,Bool.not_eq_true,settled_congr same,← body_unmoved found misused ran]
  constructor
  · rintro ⟨unmoved,alone⟩
    exact ⟨alone,same.symm.trans unmoved⟩
  · rintro ⟨alone,unmoved⟩
    exact ⟨same.trans unmoved,alone⟩

theorem misuse_rejected_iff_size : ∃ w w', step w (told .fallbackStorageSizeSet [] []) = some w' ∧
    Unmoved w w' ∧ ¬ Broadcasts w'.trace := by
  obtain ⟨w,w',_,taken,_⟩ := played_step (master 0) (allKeys "0") (fun _ => [])
    (told .fallbackStorageSizeSet [] []) (fun _ _ => true) (by decide +kernel)
  exact ⟨w,w',taken,(misuse_rejected_iff taken (lookup_name _) rfl).mpr ⟨by decide,trivial⟩⟩

theorem misuse_carried_out : ∃ w w' ctx, Loaded ctx (allKeys "0") (fun _ => []) w ∧
    step w ⟨.command ctx Command.keymaskClean.name [ascii "user:"],[]⟩ = some w' ∧
    w.settings.keyMaskArr = [KEY_MASK_ALL] ∧ w'.settings.keyMaskArr = [] ∧ Broadcasts w'.trace ∧
    .reply .wrongArity ∈ w'.trace := by
  let ctx : Ctx := ⟨0,REDISMODULE_CTX_FLAGS_MASTER ||| REDISMODULE_CTX_FLAGS_CLUSTER⟩
  obtain ⟨w,w',loaded,taken,seen⟩ := played_step ctx (allKeys "0") (fun _ => [])
    ⟨.command ctx Command.keymaskClean.name [ascii "user:"],[]⟩ (fun w w' => decide (
      w.settings.keyMaskArr = [KEY_MASK_ALL] ∧ w'.settings.keyMaskArr = [] ∧ .reply .wrongArity ∈ w'.trace ∧
      ∃ c ∈ w'.trace, c.part = .broadcasts)) (by decide +kernel)
  obtain ⟨all,none,wrong,sent⟩ := of_decide_eq_true seen
  exact ⟨w,w',ctx,loaded,taken,all,none,(broadcasts_part _).mpr sent,wrong⟩

end KeyspaceAmqp
