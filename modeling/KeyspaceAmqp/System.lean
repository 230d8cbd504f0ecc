import KeyspaceAmqp.Callbacks
import KeyspaceAmqp.Library.Paths

namespace KeyspaceAmqp
open Programs Paths

def DEFAULT_FALLBACK_STORAGE_KEY : Bytes := ascii "REDIS_MODULE-key_evt_amqp-fallback_storage"

-- The static initialisers of the globals, over the fallback lists Redis already holds.
def boot (storage : Int32 → List Bytes) : World where
  settings := {
    hostname := cstr []
    port := DEFAULT_AMQP_PORT
    username := cstr []
    password := cstr []
    heartbeat := DEFAULT_AMQP_HEARTBEAT
    exchange := cstr []
    routingKey := cstr []
    deliveryMode := 0
    fallbackStorageMaxSize := DEFAULT_FALLBACK_STORAGE_SIZE
    keyMaskArr := [] }
  conn := none
  heardBeatTimerId := 0
  amqpConnectionEnabled := false
  fallbackStorageLen := 0
  storage := storage
  timers := []
  handles := 0
  script := []
  trace := []

def setupDefaultConfig : Act Unit := do
  modify fun w => {w with settings := {w.settings with
    hostname := DEFAULT_AMQP_HOST
    username := DEFAULT_AMQP_USER
    password := DEFAULT_AMQP_PASS
    exchange := DEFAULT_AMQP_EXCHANGE
    routingKey := DEFAULT_AMQP_ROUTINGKEY}}
  let _ ← createString DEFAULT_FALLBACK_STORAGE_KEY
  pure ()

def init (ctx : Ctx) (argv : List Bytes) : Act Int32 := do
  modify fun w => {w with settings := {w.settings with
    deliveryMode := DEFAULT_AMQP_DELIVERY_MODE
    keyMaskArr := []}}
  setupDefaultConfig
  setupConfig ctx argv 1

-- RedisModule_CreateCommand for each command, up to the first that is refused.
def createCommands : List Command → Act Int32
  | [] => pure REDISMODULE_OK
  | command :: rest => do
    let status ← answer Answer.status?
    emit (.createCommand command.name)
    if status ≠ REDISMODULE_OK then pure REDISMODULE_ERR else createCommands rest

def notifyFlag (c : UInt8) : Option UInt32 :=
  if c = byte 'g' then some 0x004
  else if c = byte '$' then some 0x008
  else if c = byte 'l' then some 0x010
  else if c = byte 's' then some 0x020
  else if c = byte 'h' then some 0x040
  else if c = byte 'z' then some 0x080
  else if c = byte 'x' then some 0x100
  else if c = byte 'e' then some 0x200
  else if c = byte 'A' then some 0x7FC
  else none

def subscriptionMode : UInt32 → Bytes → Option UInt32
  | mode,[] => some mode
  | mode,c :: rest => match notifyFlag c with
    | none => none
    | some flag => subscriptionMode (mode ||| flag) rest

def keySpaceSubscriptionMode : List Bytes → Option UInt32
  | [] => some 0x300
  | eventsMask :: _ => subscriptionMode 0 (cstr eventsMask).bytes

def enableAndSubscribe (ctx : Ctx) (mode : UInt32) : Act Unit := do
  modify fun w => {w with
    amqpConnectionEnabled := if w.settings.keyMaskArr.length > 0 then true else w.amqpConnectionEnabled}
  emit (.subscribeToKeyspaceEvents mode)
  if isRedisCluster ctx then emit (.registerClusterMessageReceiver CLUSTER_MESSAGE_TYPE_CMD) else pure ()

-- RedisModule_OnLoad. Its first answer is RedisModule_Init's.
def onLoad (ctx : Ctx) (argv : List Bytes) : Act Int32 := do
  let status ← answer Answer.status?
  if status ≠ REDISMODULE_OK then pure REDISMODULE_ERR
  else do
    let res ← createCommands Command.all
    if res ≠ REDISMODULE_OK then pure REDISMODULE_ERR
    else do
      let res ← init ctx argv
      if res ≠ REDISMODULE_OK then pure REDISMODULE_ERR
      else match keySpaceSubscriptionMode argv with
        | none => pure REDISMODULE_ERR
        | some mode => do
          enableAndSubscribe ctx mode
          pure REDISMODULE_OK

def Loaded (ctx : Ctx) (argv : List Bytes) (storage : Int32 → List Bytes) (w : World) : Prop :=
  ∃ script, Ends (onLoad ctx argv) {boot storage with script := script} REDISMODULE_OK w

theorem loaded_parts (loaded : Loaded ctx argv storage w) : ∃ script m n mode,
    Ends (createCommands Command.all) {boot storage with script := script} REDISMODULE_OK m ∧
    Ends (init ctx argv) m REDISMODULE_OK n ∧ Ends (enableAndSubscribe ctx mode) n () w := by
  obtain ⟨script,ran⟩ := loaded
  simp only [onLoad,ends_bind,ends_answer,ends_ite,ends_pure] at ran
  obtain ⟨_,_,⟨_,rest,_,_,rfl⟩,⟨_,impossible,_⟩ | ⟨_,_,m,created,⟨_,impossible,_⟩ | ⟨ok,_,n,started,⟨_,impossible,_⟩ | ⟨ok',ran⟩⟩⟩⟩ := ran
  · cases impossible
  · cases impossible
  · cases impossible
  cases not_not.mp ok
  cases not_not.mp ok'
  cases parsed : keySpaceSubscriptionMode argv with
  | none =>
    rw [parsed] at ran
    obtain ⟨impossible,_⟩ := ends_pure.mp ran
    cases impossible
  | some mode =>
    simp only [parsed,ends_bind,ends_pure] at ran
    obtain ⟨_,_,subscribed,_,rfl⟩ := ran
    exact ⟨rest,m,n,mode,created,started,subscribed⟩

-- Redis finds a command whatever the case its name is typed in.
def lower (c : UInt8) : UInt8 := if 65 ≤ c ∧ c ≤ 90 then c+32 else c
def lookupCommand (name : Bytes) : Option Command := Command.all.find? fun command => command.name == name.map lower

theorem lookup_name (command : Command) : lookupCommand command.name = some command := by
  cases command <;> rfl

-- Everything Redis calls the module for. A timer fires in the database selected when
-- it was made; flags are those of the moment, so the node's role may change in between.
inductive Callback where
  | keyspaceEvent (ctx : Ctx) (type : Int32) (event : CString) (key : Bytes)
  | timer (fired : Timer) (flags : UInt32)
  | command (ctx : Ctx) (name : Bytes) (args : List Bytes)
  | clusterMessage (ctx : Ctx) (type : UInt8) (payload beyond : Bytes)

def Callback.ctx : Callback → Ctx
  | .keyspaceEvent ctx _ _ _ => ctx
  | .timer fired flags => ⟨fired.db,flags⟩
  | .command ctx _ _ => ctx
  | .clusterMessage ctx _ _ _ => ctx

def fireTimer (timer : Timer) (flags : UInt32) : Act Unit := do
  let w ← get
  if timer ∈ w.timers then do
    modify fun w => {w with timers := w.timers.erase timer}
    checkFramesAndHeartbeat ⟨timer.db,flags⟩
  else stuck

def Callback.run : Callback → Act Unit
  | .keyspaceEvent ctx type event key => do
    let _ ← onKeyspaceEvent ctx type event key
    pure ()
  | .timer fired flags => fireTimer fired flags
  | .command ctx name args => match lookupCommand name with
    | none => stuck
    | some found => do
      let _ ← found.handler ctx (name :: args)
      pure ()
  | .clusterMessage ctx type payload beyond => clusterMessageReceiver ctx type payload beyond

structure Turn where
  callback : Callback
  script : List Answer

def step (w : World) (turn : Turn) : Option World :=
  (turn.callback.run {w with script := turn.script,trace := []}).map Prod.snd

abbrev Step := Edge World Turn

abbrev Run (start : World) (steps : List Step) (last : World) : Prop := Path step start steps last

def calls (steps : List Step) : List Call := steps.flatMap fun s => s.after.trace

theorem calls_snoc (steps : List Step) (s : Step) : calls (steps ++ [s]) = calls steps ++ s.after.trace := by
  simp [calls]

theorem step_ends : step w turn = some w' ↔
    Ends turn.callback.run {w with script := turn.script,trace := []} () w' := by
  simp only [step,Ends,Option.map_eq_some_iff,Prod.exists,exists_eq_right]
  constructor
  · rintro ⟨_,ran⟩
    exact ran
  · intro ran
    exact ⟨(),ran⟩

def played (ctx : Ctx) (argv : List Bytes) (storage : Int32 → List Bytes) (turns : List Turn) :
    Option (Int32 × World × List Step × World) := do
  let (res,start) ← onLoad ctx argv {boot storage with script := List.replicate 8 (.status 0)}
  let (steps,last) ← replay step start turns
  return (res,start,steps,last)

theorem played_run (ctx : Ctx) (argv : List Bytes) (storage : Int32 → List Bytes) (turns : List Turn)
    (holds : World → List Step → World → Bool)
    (ran : (played ctx argv storage turns).any fun r => r.1 == REDISMODULE_OK && holds r.2.1 r.2.2.1 r.2.2.2) :
    ∃ start steps last, Loaded ctx argv storage start ∧ Run start steps last ∧ holds start steps last = true := by
  obtain ⟨⟨res,start,steps,last⟩,happened,good⟩ := (Option.any_eq_true _ _).mp ran
  obtain ⟨ok,good⟩ := (Bool.and_eq_true _ _).mp good
  simp only [played,Option.bind_eq_bind,Option.bind_eq_some_iff] at happened
  obtain ⟨⟨status,w⟩,loaded,⟨edges,final⟩,went,done⟩ := happened
  cases done
  cases eq_of_beq ok
  exact ⟨w,edges,final,⟨_,loaded⟩,replay_path went,good⟩

theorem played_step (ctx : Ctx) (argv : List Bytes) (storage : Int32 → List Bytes) (turn : Turn) (holds : World → World → Bool)
    (ran : (played ctx argv storage []).any fun r => r.1 == REDISMODULE_OK && (step r.2.1 turn).any (holds r.2.1)) :
    ∃ w w', Loaded ctx argv storage w ∧ step w turn = some w' ∧ holds w w' = true := by
  obtain ⟨w,_,_,loaded,_,seen⟩ := played_run ctx argv storage [] (fun w _ _ => (step w turn).any (holds w)) ran
  obtain ⟨w',taken,good⟩ := (Option.any_eq_true _ _).mp seen
  exact ⟨w,w',loaded,taken,good⟩

-- Parts of concrete runs: a load for all keys with a given storage size, events, and the
-- answers of a broker that lets the module connect, takes a body or refuses one, has
-- nothing to say or closes the connection.
def master (db : Int32) : Ctx := ⟨db,REDISMODULE_CTX_FLAGS_MASTER⟩
def allKeys (size : String) : List Bytes :=
  ["xe","broker","5672","user","pass","30","exchange","key","1",size,"ALL"].map ascii
def connects : List Answer := [.socket false,.status 0,.rpc AMQP_RESPONSE_NORMAL,.rpc AMQP_RESPONSE_NORMAL]
def publishes (status : Int32) : List Answer := [.garbage ⟨0,0,0⟩,.waited AMQP_STATUS_TIMEOUT none,.status status]
def accepts : List Answer := publishes AMQP_STATUS_OK
def refuses : List Answer := publishes (-9)
def idles : List Answer := [.garbage ⟨0,0,0⟩,.waited AMQP_STATUS_TIMEOUT none]
def loses : List Answer := [.garbage ⟨0,0,0⟩,.waited AMQP_STATUS_CONNECTION_CLOSED none]
def told (command : Command) (args : List String) (script : List Answer) : Turn :=
  ⟨.command (master 0) command.name (args.map ascii),script⟩
def expired (db : Int32) (key : String) (script : List Answer) : Turn :=
  ⟨.keyspaceEvent (master db) 0x100 (cstr (ascii "expired")) (ascii key),script⟩

end KeyspaceAmqp
