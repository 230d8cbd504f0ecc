import KeyspaceAmqp.World

namespace KeyspaceAmqp
open Programs

def callAmqp (call : AmqpCall) : Act Unit := modify fun w => {w with trace := w.trace ++ [.amqp w.conn call]}

@[simp] theorem ends_callAmqp :
    Ends (callAmqp call) w u w' ↔ {w with trace := w.trace ++ [.amqp w.conn call]} = w' := ends_modify

def askAmqp (pick : Answer → Option α) (call : α → AmqpCall) : Act α := do
  let result ← answer pick
  callAmqp (call result)
  pure result

def amqpTcpSocketNew : Act Bool := askAmqp Answer.socket? .tcpSocketNew

def amqpSocketOpen (hostname : CString) (port : UInt16) : Act Int32 :=
  askAmqp Answer.status? (.socketOpen hostname port)

def amqpLogin (heartbeat : UInt32) (username password : CString) : Act Int32 :=
  askAmqp Answer.rpc? (.login heartbeat username password)

def amqpGetRpcReply : Act Int32 := askAmqp Answer.rpc? .getRpcReply

def amqpBasicPublish (exchange routingKey : CString) (deliveryMode : UInt8) (body : CString) : Act Int32 :=
  askAmqp Answer.status? (.basicPublish exchange routingKey deliveryMode body.bytes)

@[simp] theorem ends_askAmqp {pick : Answer → Option α} : Ends (askAmqp pick call) w result w' ↔
    ∃ a rest, w.script = a :: rest ∧ pick a = some result ∧
      {w with script := rest,trace := w.trace ++ [.amqp w.conn (call result)]} = w' := by
  simp only [askAmqp,ends_bind,ends_answer,ends_callAmqp,ends_pure]
  constructor
  · rintro ⟨_,_,⟨a,rest,eq,picked,rfl⟩,_,_,rfl,rfl,rfl⟩; exact ⟨a,rest,eq,picked,rfl⟩
  · rintro ⟨a,rest,eq,picked,rfl⟩; exact ⟨_,_,⟨a,rest,eq,picked,rfl⟩,(),_,rfl,rfl,rfl⟩

def isMethod (frame : Frame) (method : UInt32) : Bool :=
  AMQP_FRAME_METHOD == frame.frameType && frame.methodId == method

-- The do-while loop of amqpWaitFrame over the answers to come: what it returns,
-- the answers it left, and its calls. Without answers it is still waiting.
def waitLoop (conn : Option Nat) : List Answer → Frame → List Call → Option (Int32 × List Answer × List Call)
  | .waited res written :: rest,frame,calls =>
    let frame := written.getD frame
    let calls := calls ++ [.amqp conn (.simpleWaitFrameNoblock res)]
    if isMethod frame AMQP_CONNECTION_CLOSE_METHOD then
      some (AMQP_STATUS_CONNECTION_CLOSED,rest,
        calls ++ [.amqp conn (.sendMethod frame.channel AMQP_CONNECTION_CLOSE_OK_METHOD)])
    else if isMethod frame AMQP_CHANNEL_CLOSE_METHOD then
      some (AMQP_STATUS_CONNECTION_CLOSED,rest,
        calls ++ [.amqp conn (.sendMethod frame.channel AMQP_CHANNEL_CLOSE_OK_METHOD)])
    else if res ≠ AMQP_STATUS_CONNECTION_CLOSED ∧ res ≠ AMQP_STATUS_TIMEOUT ∧
        frame.frameType ≠ 0 ∧ frame.frameType ≠ AMQP_FRAME_HEARTBEAT then
      waitLoop conn rest frame calls
    else some (if res ≠ AMQP_STATUS_TIMEOUT then res else AMQP_STATUS_OK,rest,calls)
  | _,_,_ => none

def amqpWaitFrame : Act Int32 := do
  let frame ← answer Answer.garbage?
  fun w => (waitLoop w.conn w.script frame []).map fun (res,rest,calls) =>
    (res,{w with script := rest,trace := w.trace ++ calls})

def amqpDisconnect : Act Int32 := do
  let w ← get
  if w.conn = none then pure REDIS_AMQP_ERR
  else do
    callAmqp (.channelClose 1)
    callAmqp .connectionClose
    callAmqp .destroyConnection
    modify fun w => {w with conn := none}
    pure REDIS_AMQP_OK

-- A failing amqp_tcp_socket_new returns with the new connection left in place; the
-- three later failures take it down.
def amqpConnect : Act Int32 := do
  let w ← get
  let s := w.settings
  if w.conn ≠ none then pure REDIS_AMQP_ALREADY_CONNECTED
  else do
    let conn ← newHandle
    modify fun w => {w with conn := some conn}
    callAmqp .newConnection
    let null ← amqpTcpSocketNew
    if null then pure REDIS_AMQP_SOCKET_ERR
    else do
      let amqpStatus ← amqpSocketOpen s.hostname s.port
      if amqpStatus ≠ 0 then do
        let _ ← amqpDisconnect
        pure REDIS_AMQP_CONNECTION_ERR
      else do
        let amqpReply ← amqpLogin s.heartbeat s.username s.password
        if amqpReply ≠ AMQP_RESPONSE_NORMAL then do
          let _ ← amqpDisconnect
          pure REDIS_AMQP_AUTH_ERR
        else do
          callAmqp (.channelOpen 1)
          let amqpReply ← amqpGetRpcReply
          if amqpReply ≠ AMQP_RESPONSE_NORMAL then do
            let _ ← amqpDisconnect
            pure REDIS_AMQP_CHANNEL_ERR
          else pure REDIS_AMQP_OK

def amqpPublish (body : CString) : Act Int32 := do
  let w ← get
  let s := w.settings
  if w.conn ≠ none then do
    let res ← amqpWaitFrame
    if res ≠ AMQP_STATUS_OK then do
      let _ ← amqpDisconnect
      pure AMQP_STATUS_CONNECTION_CLOSED
    else amqpBasicPublish s.exchange s.routingKey s.deliveryMode body
  else pure AMQP_STATUS_CONNECTION_CLOSED

end KeyspaceAmqp
