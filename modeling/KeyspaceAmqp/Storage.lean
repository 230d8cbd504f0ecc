import KeyspaceAmqp.RedisApi
import KeyspaceAmqp.AmqpConnection
import KeyspaceAmqp.Utils

namespace KeyspaceAmqp
open Programs

-- The while loop of publishStoredEvents. The list is at most as long as it was at
-- the start, so that length bounds the rounds.
def publishStoredLoop (storageList : Option Key) : Nat → Option RedisString → Act Int32
  | _,none => pure REDISMODULE_OK
  | 0,some _ => stuck
  | rounds+1,some messageRedis => do
    let messageTemp ← stringPtrLen messageRedis
    let res ← amqpPublish messageTemp
    if res ≠ AMQP_STATUS_OK then do
      listPush .head messageRedis storageList
      freeString messageRedis
      pure REDISMODULE_ERR
    else do
      modify fun w => {w with fallbackStorageLen := w.fallbackStorageLen-1}
      freeString messageRedis
      let next ← listPopHead storageList
      publishStoredLoop storageList rounds next

-- The size is a size_t, so its tests against 0 below never hold.
def publishStoredEvents (ctx : Ctx) : Act Int32 := do
  let w ← get
  if w.settings.fallbackStorageMaxSize < 0 then pure REDISMODULE_OK
  else do
    let storageList ← openKey ctx .readWrite
    let messageRedis ← listPopHead storageList
    let res ← publishStoredLoop storageList (w.storage ctx.db).length messageRedis
    if res ≠ REDISMODULE_OK then pure res
    else do
      deleteKey storageList
      closeKey storageList
      pure REDISMODULE_OK

def syncFallbackStorageLen (ctx : Ctx) : Act Unit := do
  let storageList ← openKey ctx .read
  let len ← valueLength storageList
  modify fun w => {w with fallbackStorageLen := len}
  closeKey storageList

-- The eviction test of pushEventToStorage. The popped string is dropped.
def evictOldest (storageList : Option Key) : Act Unit := do
  let w ← get
  if w.settings.fallbackStorageMaxSize > 0 ∧ w.fallbackStorageLen ≥ w.settings.fallbackStorageMaxSize then do
    let _ ← listPopHead storageList
    pure ()
  else pure ()

def pushEventToStorage (ctx : Ctx) (messageString : CString) : Act Unit := do
  let w ← get
  if w.settings.fallbackStorageMaxSize < 0 then pure ()
  else do
    let storageList ← openKey ctx .readWrite
    evictOldest storageList
    let string ← createString messageString.bytes
    listPush .tail string storageList
    closeKey storageList

def setupFallbackStorage (ctx : Ctx) : Act Unit := do
  let w ← get
  if w.settings.fallbackStorageMaxSize ≥ 0 then syncFallbackStorageLen ctx
  else do
    let storageList ← openKey ctx .read
    deleteKey storageList
    closeKey storageList

-- sprintf(messageString, "%d\n%s\n%s", RedisModule_GetSelectedDb(ctx), event, keyname)
def messageString (db : Int32) (event keyname : CString) : CString :=
  decimal db.toInt ++ newline ++ event ++ newline ++ keyname

def publishEvent (ctx : Ctx) (event keyname : CString) : Act Unit := do
  let message := messageString ctx.db event keyname
  emit (.publishEvent ctx.db message)
  let w ← get
  if w.conn ≠ none then do
    let res ← amqpPublish message
    if res ≠ AMQP_STATUS_OK then pushEventToStorage ctx message
    else do
      let _ ← publishStoredEvents ctx
      pure ()
  else pushEventToStorage ctx message

end KeyspaceAmqp
