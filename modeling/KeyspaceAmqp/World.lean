import KeyspaceAmqp.Bytes
import KeyspaceAmqp.Library.Programs
import Mathlib.Logic.Function.Basic

namespace KeyspaceAmqp
open Programs

-- redismodule.h
def REDISMODULE_OK : Int32 := 0
def REDISMODULE_ERR : Int32 := 1
def REDISMODULE_CTX_FLAGS_MASTER : UInt32 := (1 : UInt32) <<< 2
def REDISMODULE_CTX_FLAGS_CLUSTER : UInt32 := (1 : UInt32) <<< 5

-- amqp_connection.h
def REDIS_AMQP_OK : Int32 := 0
def REDIS_AMQP_ERR : Int32 := 1
def REDIS_AMQP_SOCKET_ERR : Int32 := 2
def REDIS_AMQP_CONNECTION_ERR : Int32 := 3
def REDIS_AMQP_AUTH_ERR : Int32 := 4
def REDIS_AMQP_CHANNEL_ERR : Int32 := 5
def REDIS_AMQP_ALREADY_CONNECTED : Int32 := 6

-- amqp.h and amqp_framing.h of the client library
def AMQP_STATUS_OK : Int32 := 0
def AMQP_STATUS_CONNECTION_CLOSED : Int32 := -7
def AMQP_STATUS_TIMEOUT : Int32 := -13
def AMQP_RESPONSE_NORMAL : Int32 := 1
def AMQP_FRAME_METHOD : UInt8 := 1
def AMQP_FRAME_HEARTBEAT : UInt8 := 8
def AMQP_CONNECTION_CLOSE_METHOD : UInt32 := 0x000A0032
def AMQP_CONNECTION_CLOSE_OK_METHOD : UInt32 := 0x000A0033
def AMQP_CHANNEL_CLOSE_METHOD : UInt32 := 0x00140028
def AMQP_CHANNEL_CLOSE_OK_METHOD : UInt32 := 0x00140029

-- library.h
def DEFAULT_FALLBACK_STORAGE_SIZE : UInt64 := 10000000
def DEFAULT_AMQP_HOST : CString := cstr (ascii "127.0.0.1")
def DEFAULT_AMQP_PORT : UInt16 := 5627
def DEFAULT_AMQP_USER : CString := cstr (ascii "guest")
def DEFAULT_AMQP_PASS : CString := cstr (ascii "guest")
def DEFAULT_AMQP_HEARTBEAT : UInt32 := 30
def DEFAULT_AMQP_EXCHANGE : CString := cstr (ascii "amq.direct")
def DEFAULT_AMQP_ROUTINGKEY : CString := cstr (ascii "redis_keyspace_events")
def DEFAULT_AMQP_DELIVERY_MODE : UInt8 := 1
def KEY_MASK_ALL : CString := cstr (ascii "ALL")
def CLUSTER_MESSAGE_TYPE_CMD : UInt8 := 191

-- The database selected in a callback's context, and its RedisModule_GetContextFlags.
structure Ctx where
  db : Int32
  flags : UInt32
  deriving DecidableEq

structure Frame where
  frameType : UInt8
  channel : UInt16
  methodId : UInt32
  deriving DecidableEq

-- What the surroundings decide while a callback runs, in the order it is asked for.
inductive Answer where
  | garbage (frame : Frame)                            -- an uninitialised local's contents
  | waited (status : Int32) (written : Option Frame)   -- amqp_simple_wait_frame_noblock
  | socket (null : Bool)                               -- amqp_tcp_socket_new
  | status (code : Int32)                              -- any other call returning an int
  | rpc (replyType : Int32)                            -- amqp_login, amqp_get_rpc_reply
  deriving DecidableEq

inductive AmqpCall where
  | newConnection
  | tcpSocketNew (null : Bool)
  | socketOpen (hostname : CString) (port : UInt16) (status : Int32)
  | login (heartbeat : UInt32) (username password : CString) (replyType : Int32)
  | channelOpen (channel : UInt16)
  | getRpcReply (replyType : Int32)
  | channelClose (channel : UInt16)
  | connectionClose
  | destroyConnection
  | simpleWaitFrameNoblock (status : Int32)
  | sendMethod (channel : UInt16) (method : UInt32)
  | basicPublish (exchange routingKey : CString) (deliveryMode : UInt8) (body : Bytes) (status : Int32)
  deriving DecidableEq

inductive KeyMode where
  | read
  | readWrite
  deriving DecidableEq

structure Key where
  id : Nat
  db : Int32
  mode : KeyMode
  deriving DecidableEq

structure RedisString where
  id : Nat
  bytes : Bytes
  deriving DecidableEq

inductive ListEnd where
  | head
  | tail
  deriving DecidableEq

structure Timer where
  id : Nat
  db : Int32
  deriving DecidableEq

inductive Reply where
  | wrongArity
  | error (text : CString)
  | simpleString (text : CString)
  deriving DecidableEq

-- Log lines are left out. `publishEvent` marks that function's entry.
inductive Call where
  | publishEvent (db : Int32) (body : CString)
  | amqp (conn : Option Nat) (call : AmqpCall)
  | openKey (db : Int32) (mode : KeyMode) (opened : Option Key)
  | closeKey (key : Key)
  | deleteKey (key : Key)
  | valueLength (key : Key)
  | listPop (key : Key) (popped : Option RedisString)
  | listPush (key : Key) (place : ListEnd) (pushed : RedisString)
  | createString (string : RedisString)
  | stringPtrLen (string : RedisString)
  | freeString (string : RedisString)
  | createTimer (timer : Timer)
  | stopTimer (id : Nat)
  | sendClusterMessage (type : UInt8) (payload : Bytes)
  | reply (reply : Reply)
  | createCommand (name : Bytes)
  | subscribeToKeyspaceEvents (types : UInt32)
  | registerClusterMessageReceiver (type : UInt8)
  deriving DecidableEq

-- `keyMaskArr` is the string array by its elements.
structure Settings where
  hostname : CString
  port : UInt16
  username : CString
  password : CString
  heartbeat : UInt32
  exchange : CString
  routingKey : CString
  deliveryMode : UInt8
  fallbackStorageMaxSize : UInt64
  keyMaskArr : List CString
  deriving DecidableEq

-- An absent fallback key is an empty list. `handles` counts the handles given out,
-- `script` has the answers to come and `trace` the current callback's calls.
structure World where
  settings : Settings
  conn : Option Nat
  heardBeatTimerId : Nat
  amqpConnectionEnabled : Bool
  fallbackStorageLen : UInt64
  storage : Int32 → List Bytes
  timers : List Timer
  handles : Nat
  script : List Answer
  trace : List Call

abbrev Act (α : Type) := Program World α

def emit (call : Call) : Act Unit := modify fun w => {w with trace := w.trace ++ [call]}

@[simp] theorem ends_emit : Ends (emit call) w u w' ↔ {w with trace := w.trace ++ [call]} = w' := ends_modify

-- Connections, key handles, strings and timers are numbered from one supply, so
-- a new one differs from every other and from 0.
def newHandle : Act Nat := fun w => some (w.handles+1,{w with handles := w.handles+1})

@[simp] theorem ends_newHandle : Ends newHandle w n w' ↔ w.handles+1 = n ∧ {w with handles := w.handles+1} = w' := by
  simp only [newHandle,Ends,Option.some.injEq,Prod.mk.injEq]

-- The next answer, when it is one the call can have: a script that answers another
-- call than the one the code makes is not a behaviour of the surroundings.
def answer (pick : Answer → Option α) : Act α := fun w => match w.script with
  | [] => none
  | a :: rest => (pick a).map fun value => (value,{w with script := rest})

@[simp] theorem ends_answer {pick : Answer → Option α} : Ends (answer pick) w value w' ↔
    ∃ a rest, w.script = a :: rest ∧ pick a = some value ∧ {w with script := rest} = w' := by
  unfold Ends answer
  cases w.script with
  | nil => simp
  | cons a rest => cases picked : pick a <;> simp [picked]

def Answer.garbage? : Answer → Option Frame | .garbage frame => some frame | _ => none
def Answer.socket? : Answer → Option Bool | .socket null => some null | _ => none
def Answer.status? : Answer → Option Int32 | .status code => some code | _ => none
def Answer.rpc? : Answer → Option Int32 | .rpc replyType => some replyType | _ => none

end KeyspaceAmqp
