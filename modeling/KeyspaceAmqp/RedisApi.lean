import KeyspaceAmqp.World

namespace KeyspaceAmqp
open Programs

-- The fallback key of the selected database. Opened for reading only, an absent
-- key gives NULL, as an empty list never exists.
def openKey (ctx : Ctx) (mode : KeyMode) : Act (Option Key) := do
  let w ← get
  if mode = .read ∧ w.storage ctx.db = [] then do
    emit (.openKey ctx.db mode none)
    pure none
  else do
    let id ← newHandle
    emit (.openKey ctx.db mode (some ⟨id,ctx.db,mode⟩))
    pure (some ⟨id,ctx.db,mode⟩)

def closeKey : Option Key → Act Unit
  | none => pure ()
  | some key => emit (.closeKey key)

def valueLength : Option Key → Act UInt64
  | none => pure 0
  | some key => do
    emit (.valueLength key)
    let w ← get
    pure (UInt64.ofNat (w.storage key.db).length)

-- The calls below read through the handle they are given: NULL crashes them, and
-- one not open for writing makes them return REDISMODULE_ERR without effect.
def deleteKey : Option Key → Act Unit
  | none => stuck
  | some key => do
    emit (.deleteKey key)
    if key.mode = .readWrite then modify fun w => {w with storage := Function.update w.storage key.db []}

-- Popping the last element deletes the key; a later push creates it again.
def listPopHead : Option Key → Act (Option RedisString)
  | none => stuck
  | some key => do
    let w ← get
    match key.mode,w.storage key.db with
    | .readWrite,bytes :: rest => do
      let id ← newHandle
      emit (.listPop key (some ⟨id,bytes⟩))
      modify fun w => {w with storage := Function.update w.storage key.db rest}
      pure (some ⟨id,bytes⟩)
    | _,_ => do
      emit (.listPop key none)
      pure none

def ListEnd.push (place : ListEnd) (list : List Bytes) (bytes : Bytes) : List Bytes := match place with
  | .head => bytes :: list
  | .tail => list ++ [bytes]

def listPush (place : ListEnd) (string : RedisString) : Option Key → Act Unit
  | none => stuck
  | some key => do
    emit (.listPush key place string)
    if key.mode = .readWrite then
      modify fun w => {w with storage := Function.update w.storage key.db (place.push (w.storage key.db) string.bytes)}

def createString (bytes : Bytes) : Act RedisString := do
  let id ← newHandle
  emit (.createString ⟨id,bytes⟩)
  pure ⟨id,bytes⟩

def stringPtrLen (string : RedisString) : Act CString := do
  emit (.stringPtrLen string)
  pure (cstr string.bytes)

def freeString (string : RedisString) : Act Unit := emit (.freeString string)

-- The callback will run with the database selected in the context that created it.
def createTimer (ctx : Ctx) : Act Nat := do
  let id ← newHandle
  emit (.createTimer ⟨id,ctx.db⟩)
  modify fun w => {w with timers := w.timers ++ [⟨id,ctx.db⟩]}
  pure id

def stopTimer (id : Nat) : Act Unit := do
  emit (.stopTimer id)
  modify fun w => {w with timers := w.timers.filter fun timer => timer.id ≠ id}

end KeyspaceAmqp
