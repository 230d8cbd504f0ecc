import KeyspaceAmqp.Storage

namespace KeyspaceAmqp
open Programs

-- The code that follows a found loss of the connection in checkFramesAndHeartbeat,
-- written there once for each of its two branches.
def reconnect (ctx : Ctx) : Act Unit := do
  let res ← amqpConnect
  if res = REDIS_AMQP_OK then do
    let _ ← publishStoredEvents ctx
    pure ()
  else do
    let _ ← amqpDisconnect
    pure ()

def checkConnection (ctx : Ctx) : Act Unit := do
  let w ← get
  if w.conn ≠ none then do
    let status ← amqpWaitFrame
    if status ≠ AMQP_STATUS_OK then do
      let _ ← amqpDisconnect
      reconnect ctx
    else pure ()
  else reconnect ctx

def checkFramesAndHeartbeat (ctx : Ctx) : Act Unit := do
  modify fun w => {w with heardBeatTimerId := 0}
  let w ← get
  if w.amqpConnectionEnabled = false then pure ()
  else do
    checkConnection ctx
    let id ← createTimer ctx
    modify fun w => {w with heardBeatTimerId := id}

def isRedisCluster (ctx : Ctx) : Bool := ctx.flags &&& REDISMODULE_CTX_FLAGS_CLUSTER ≠ 0
def isRedisMaster (ctx : Ctx) : Bool := ctx.flags &&& REDISMODULE_CTX_FLAGS_MASTER ≠ 0

-- The first event connects and starts the timer; what the connect returned is ignored.
def firstEvent (ctx : Ctx) : Act Unit := do
  let w ← get
  if w.heardBeatTimerId = 0 then do
    let _ ← amqpConnect
    let id ← createTimer ctx
    modify fun w => {w with heardBeatTimerId := id}
  else pure ()

def forwardLoop (ctx : Ctx) (event keyname : CString) : List CString → Act Int32
  | [] => pure REDISMODULE_OK
  | mask :: rest =>
    if mask = KEY_MASK_ALL then do
      publishEvent ctx event keyname
      pure REDISMODULE_OK
    else if matchRegexp mask keyname then do
      publishEvent ctx event keyname
      pure REDISMODULE_OK
    else forwardLoop ctx event keyname rest

-- The event's type is only logged.
def onKeyspaceEvent (ctx : Ctx) (_type : Int32) (event : CString) (key : Bytes) : Act Int32 := do
  let w ← get
  if isRedisMaster ctx ∧ w.amqpConnectionEnabled then do
    firstEvent ctx
    let w ← get
    forwardLoop ctx event (cstr key) w.settings.keyMaskArr
  else pure REDISMODULE_OK

def setupConfigLoop : Nat → List CString → Settings → Int32 × Settings
  | _,[],s => (REDISMODULE_OK,s)
  | i,arg :: rest,s => match i with
    | 0 => setupConfigLoop 1 rest {s with hostname := arg}
    | 1 => setupConfigLoop 2 rest {s with port := UInt16.ofInt (strtol arg)}
    | 2 => setupConfigLoop 3 rest {s with username := arg}
    | 3 => setupConfigLoop 4 rest {s with password := arg}
    | 4 => setupConfigLoop 5 rest {s with heartbeat := UInt32.ofInt (strtol arg)}
    | 5 => setupConfigLoop 6 rest {s with exchange := arg}
    | 6 => setupConfigLoop 7 rest {s with routingKey := arg}
    | 7 =>
      let deliveryMode := UInt8.ofInt (strtol arg)
      if deliveryMode > 2 then (REDISMODULE_ERR,s)
      else setupConfigLoop 8 rest {s with deliveryMode := deliveryMode}
    | 8 => setupConfigLoop 9 rest {s with fallbackStorageMaxSize := UInt64.ofInt (strtol arg)}
    | i+9 =>
      if arg = KEY_MASK_ALL then (REDISMODULE_OK,{s with keyMaskArr := [KEY_MASK_ALL]})
      else setupConfigLoop (i+10) rest {s with keyMaskArr := s.keyMaskArr ++ [arg]}

def configure (s : Settings) (args : List CString) : Int32 × Settings :=
  setupConfigLoop 0 args (if args.length > 9 then {s with keyMaskArr := []} else s)

def setupConfig (ctx : Ctx) (argv : List Bytes) (argOffset : Nat) : Act Int32 := do
  let w ← get
  let args := (argv.drop argOffset).map cstr
  if args.length > 0 then do
    modify fun w => {w with settings := (configure w.settings args).2}
    if (configure w.settings args).1 ≠ REDISMODULE_OK then pure REDISMODULE_ERR
    else do
      setupFallbackStorage ctx
      pure REDISMODULE_OK
  else do
    setupFallbackStorage ctx
    pure REDISMODULE_OK

def broadcastRedisCommand (ctx : Ctx) (argv : List Bytes) : Act Unit :=
  if isRedisCluster ctx then
    emit (.sendClusterMessage CLUSTER_MESSAGE_TYPE_CMD (redisArgsToSerializedString argv).bytes)
  else pure ()

def connectAmqpCommand (ctx : Ctx) (argv : List Bytes) : Act Int32 := do
  let res ← setupConfig ctx argv 1
  if res ≠ REDISMODULE_OK then do
    emit (.reply .wrongArity)
    pure REDISMODULE_ERR
  else do
    let response ← amqpConnect
    if response ≠ REDIS_AMQP_OK then do
      emit (.reply (.error (cstr (ascii "AMQP CONNECT ERROR: ") ++ decimal response.toInt)))
      pure REDISMODULE_ERR
    else do
      let id ← createTimer ctx
      modify fun w => {w with heardBeatTimerId := id,amqpConnectionEnabled := true}
      emit (.reply (.simpleString (cstr (ascii "AMQP CONNECT OK"))))
      pure REDISMODULE_OK

-- RedisModule_WrongArity only sends the reply: the handlers go on after it.
def wrongArityWhen (wrong : Bool) : Act Unit := if wrong then emit (.reply .wrongArity) else pure ()

def stopHeartbeat : Act Unit := do
  let w ← get
  if w.heardBeatTimerId ≠ 0 then do
    stopTimer w.heardBeatTimerId
    modify fun w => {w with heardBeatTimerId := 0}
  else pure ()

def disconnectAmqpCommand (argv : List Bytes) : Act Int32 := do
  wrongArityWhen (argv.length > 1)
  modify fun w => {w with amqpConnectionEnabled := false}
  stopHeartbeat
  let response ← amqpDisconnect
  if response ≠ REDIS_AMQP_OK then do
    emit (.reply (.error (cstr (ascii "AMQP DISCONNECT ERROR: ") ++ decimal response.toInt)))
    pure REDISMODULE_ERR
  else do
    emit (.reply (.simpleString (cstr (ascii "AMQP DISCONNECT OK"))))
    pure REDISMODULE_OK

def setupFallbackStorageSizeCommand (ctx : Ctx) : List Bytes → Act Int32
  | [_,size] => do
    modify fun w => {w with settings := {w.settings with
      fallbackStorageMaxSize := UInt64.ofInt (strtol (cstr size))}}
    setupFallbackStorage ctx
    pure REDISMODULE_OK
  | _ => pure REDISMODULE_ERR

def keymaskCleanCommand : Act Int32 := do
  modify fun w => {w with settings := {w.settings with keyMaskArr := []}}
  pure REDISMODULE_OK

-- The loop starts at argument 0, the name of the command itself.
def keymaskAddLoop : List CString → List CString → List CString
  | masks,[] => masks
  | masks,arg :: rest => if arg = KEY_MASK_ALL then [KEY_MASK_ALL] else keymaskAddLoop (masks ++ [arg]) rest

def keymaskAddCommand (argv : List Bytes) : Act Int32 := do
  modify fun w => {w with settings := {w.settings with
    keyMaskArr := keymaskAddLoop w.settings.keyMaskArr (argv.map cstr)}}
  pure REDISMODULE_OK

inductive Command where
  | connect
  | disconnect
  | configSet
  | fallbackStorageSizeSet
  | keymaskClean
  | keymaskAdd
  | keymaskSet
  deriving DecidableEq

def Command.name : Command → Bytes
  | .connect => ascii "key_evt_amqp.connect"
  | .disconnect => ascii "key_evt_amqp.disconnect"
  | .configSet => ascii "key_evt_amqp.config_set"
  | .fallbackStorageSizeSet => ascii "key_evt_amqp.fallback_storage_size_set"
  | .keymaskClean => ascii "key_evt_amqp.keymask_clean"
  | .keymaskAdd => ascii "key_evt_amqp.keymask_add"
  | .keymaskSet => ascii "key_evt_amqp.keymask_set"

-- The commands in the order RedisModule_OnLoad registers them.
def Command.all : List Command :=
  [.connect,.disconnect,.configSet,.fallbackStorageSizeSet,.keymaskClean,.keymaskAdd,.keymaskSet]

def amqpConnectRedisCommand (ctx : Ctx) (argv : List Bytes) : Act Int32 := do
  broadcastRedisCommand ctx argv
  connectAmqpCommand ctx argv

def amqpDisconnectRedisCommand (ctx : Ctx) (argv : List Bytes) : Act Int32 := do
  broadcastRedisCommand ctx argv
  disconnectAmqpCommand argv

def setupConfigRedisCommand (ctx : Ctx) (argv : List Bytes) : Act Int32 := do
  wrongArityWhen (argv.length < 2)
  broadcastRedisCommand ctx argv
  setupConfig ctx argv 1

def setupFallbackStorageSizeRedisCommand (ctx : Ctx) (argv : List Bytes) : Act Int32 := do
  wrongArityWhen (argv.length ≠ 2)
  broadcastRedisCommand ctx argv
  setupFallbackStorageSizeCommand ctx argv

def keymaskCleanRedisCommand (ctx : Ctx) (argv : List Bytes) : Act Int32 := do
  wrongArityWhen (argv.length > 1)
  broadcastRedisCommand ctx argv
  keymaskCleanCommand

def keymaskAddRedisCommand (ctx : Ctx) (argv : List Bytes) : Act Int32 := do
  wrongArityWhen (argv.length < 2)
  broadcastRedisCommand ctx argv
  keymaskAddCommand argv

def keymaskSetRedisCommand (ctx : Ctx) (argv : List Bytes) : Act Int32 := do
  wrongArityWhen (argv.length < 2)
  broadcastRedisCommand ctx argv
  let _ ← keymaskCleanCommand
  let _ ← keymaskAddCommand argv
  pure REDISMODULE_OK

def Command.handler : Command → Ctx → List Bytes → Act Int32
  | .connect => amqpConnectRedisCommand
  | .disconnect => amqpDisconnectRedisCommand
  | .configSet => setupConfigRedisCommand
  | .fallbackStorageSizeSet => setupFallbackStorageSizeRedisCommand
  | .keymaskClean => keymaskCleanRedisCommand
  | .keymaskAdd => keymaskAddRedisCommand
  | .keymaskSet => keymaskSetRedisCommand

-- The strcmp chain of clusterMessageReceiver on the decoded arguments. Its last
-- branch tests for keymask_add again, so keymask_set falls through.
def dispatch (ctx : Ctx) (command : CString) (argv : List Bytes) : Act Unit := do
  if command.bytes = Command.connect.name then do
    let _ ← connectAmqpCommand ctx argv
    pure ()
  else if command.bytes = Command.disconnect.name then do
    let _ ← disconnectAmqpCommand argv
    pure ()
  else if command.bytes = Command.configSet.name then do
    let _ ← setupConfig ctx argv 1
    pure ()
  else if command.bytes = Command.fallbackStorageSizeSet.name then do
    let _ ← setupFallbackStorageSizeCommand ctx argv
    pure ()
  else if command.bytes = Command.keymaskClean.name then do
    let _ ← keymaskCleanCommand
    pure ()
  else if command.bytes = Command.keymaskAdd.name then do
    let _ ← keymaskAddCommand argv
    pure ()
  else if command.bytes = Command.keymaskAdd.name then do
    let _ ← keymaskCleanCommand
    let _ ← keymaskAddCommand argv
    pure ()
  else pure ()

def createStrings : List Bytes → Act (List RedisString)
  | [] => pure []
  | bytes :: rest => do
    let string ← createString bytes
    let strings ← createStrings rest
    pure (string :: strings)

def freeStrings : List RedisString → Act Unit
  | [] => pure ()
  | string :: rest => do
    freeString string
    freeStrings rest

-- The decoder looks for a terminator from the payload on: `beyond` is the memory
-- after the payload's last byte.
def clusterMessageReceiver (ctx : Ctx) (type : UInt8) (payload beyond : Bytes) : Act Unit :=
  if type ≠ CLUSTER_MESSAGE_TYPE_CMD then pure ()
  else do
    let argv ← createStrings (serializedStringToRedisArgs (cstr (payload ++ beyond)))
    match argv with
    | [] => pure ()
    | first :: _ => do
      let command ← stringPtrLen first
      dispatch ctx command (argv.map RedisString.bytes)
      freeStrings argv

end KeyspaceAmqp
