import KeyspaceAmqp.Storage

namespace KeyspaceAmqp
open Programs

-- What the calls on a key of the fallback list come to, a drain made of them, and the ways
-- of an event.

@[simp] theorem closeKey_some : closeKey (some key) = emit (.closeKey key) := rfl

theorem openKey_readWrite : Ends (openKey ctx .readWrite) w key w' ↔
    some ⟨w.handles+1,ctx.db,.readWrite⟩ = key ∧ {w with
      handles := w.handles+1
      trace := w.trace ++ [.openKey ctx.db .readWrite (some ⟨w.handles+1,ctx.db,.readWrite⟩)]} = w' := by
  simp only [openKey,ends_bind,ends_get,ends_ite,ends_newHandle,ends_emit,ends_pure]
  constructor
  · rintro ⟨_,_,⟨rfl,rfl⟩,⟨⟨impossible,_⟩,_⟩ | ⟨_,_,_,⟨rfl,rfl⟩,_,_,rfl,rfl,rfl⟩⟩
    · cases impossible
    · exact ⟨rfl,rfl⟩
  · rintro ⟨rfl,rfl⟩
    exact ⟨_,_,⟨rfl,rfl⟩,.inr ⟨by simp,_,_,⟨rfl,rfl⟩,(),_,rfl,rfl,rfl⟩⟩

theorem listPopHead_parts (ran : Ends (listPopHead (some key)) w popped w') (writable : key.mode = .readWrite) :
    (w.storage key.db = [] ∧ popped = none ∧ w' = {w with trace := w.trace ++ [.listPop key none]}) ∨
    ∃ bytes rest, w.storage key.db = bytes :: rest ∧ popped = some ⟨w.handles+1,bytes⟩ ∧ w' = {w with
      handles := w.handles+1
      trace := w.trace ++ [.listPop key (some ⟨w.handles+1,bytes⟩)]
      storage := Function.update w.storage key.db rest} := by
  simp only [listPopHead,ends_bind,ends_get] at ran
  obtain ⟨_,_,⟨rfl,rfl⟩,ran⟩ := ran
  cases list : w.storage key.db with
  | nil =>
    simp only [list,writable,ends_bind,ends_emit,ends_pure] at ran
    obtain ⟨_,_,rfl,rfl,rfl⟩ := ran
    exact .inl ⟨rfl,rfl,rfl⟩
  | cons bytes rest =>
    simp only [list,writable,ends_bind,ends_newHandle,ends_emit,ends_modify,ends_pure] at ran
    obtain ⟨_,_,⟨rfl,rfl⟩,_,_,rfl,_,_,rfl,rfl,rfl⟩ := ran
    exact .inr ⟨bytes,rest,rfl,rfl,rfl⟩

theorem listPush_parts (ran : Ends (listPush place string (some key)) w u w') (writable : key.mode = .readWrite) :
    w' = {w with
      trace := w.trace ++ [.listPush key place string]
      storage := Function.update w.storage key.db (place.push (w.storage key.db) string.bytes)} := by
  simp only [listPush,writable,if_true,ends_bind,ends_emit,ends_modify] at ran
  obtain ⟨_,_,rfl,rfl⟩ := ran
  rfl

theorem deleteKey_parts (ran : Ends (deleteKey (some key)) w u w') (writable : key.mode = .readWrite) :
    w' = {w with
      trace := w.trace ++ [.deleteKey key]
      storage := Function.update w.storage key.db []} := by
  simp only [deleteKey,writable,if_true,ends_bind,ends_emit,ends_modify] at ran
  obtain ⟨_,_,rfl,rfl⟩ := ran
  rfl

def World.opened (w : World) (key : Key) : World := {w with
  handles := w.handles+1
  trace := w.trace ++ [.openKey key.db .readWrite (some key)]}

def World.popped (w : World) (key : Key) (bytes : Bytes) (rest : List Bytes) : World := {w with
  handles := w.handles+1
  trace := w.trace ++ [.listPop key (some ⟨w.handles+1,bytes⟩),.stringPtrLen ⟨w.handles+1,bytes⟩]
  storage := Function.update w.storage key.db rest}

def World.restored (w : World) (key : Key) (string : RedisString) : World := {w with
  trace := w.trace ++ [.listPush key .head string,.freeString string]
  storage := Function.update w.storage key.db (string.bytes :: w.storage key.db)}

def World.counted (w : World) (string : RedisString) : World := {w with
  fallbackStorageLen := w.fallbackStorageLen-1
  trace := w.trace ++ [.freeString string]}

def World.deleted (w : World) (key : Key) : World := {w with
  trace := w.trace ++ [.deleteKey key,.closeKey key]
  storage := Function.update w.storage key.db []}

-- A drain round by round, each from its pop on: the list is empty, its head could not be
-- sent, or it was and the next round follows.
inductive Rounds (key : Key) : World → Int32 → World → Prop where
  | empty (list : w.storage key.db = []) : Rounds key w REDISMODULE_OK {w with trace := w.trace ++ [.listPop key none]}
  | refused {w m : World} {bytes : Bytes} {rest : List Bytes} (list : w.storage key.db = bytes :: rest)
      (tried : Ends (amqpPublish (cstr bytes)) (w.popped key bytes rest) status m) (bad : status ≠ AMQP_STATUS_OK) :
      Rounds key w REDISMODULE_ERR (m.restored key ⟨w.handles+1,bytes⟩)
  | sent {w m w' : World} {bytes : Bytes} {rest : List Bytes} (list : w.storage key.db = bytes :: rest)
      (tried : Ends (amqpPublish (cstr bytes)) (w.popped key bytes rest) AMQP_STATUS_OK m)
      (later : Rounds key (m.counted ⟨w.handles+1,bytes⟩) res w') : Rounds key w res w'

-- The induction is on the rounds left; a round that sends its body ends in a pop, from
-- which the next rounds start.
theorem loop_rounds (writable : key.mode = .readWrite) (popped : Ends (listPopHead (some key)) w message m)
    (ran : Ends (publishStoredLoop (some key) rounds message) m res w') : Rounds key w res w' := by
  induction rounds generalizing w message m with
  | zero =>
    rcases listPopHead_parts popped writable with ⟨empty,rfl,rfl⟩ | ⟨_,_,_,rfl,_⟩
    · obtain ⟨rfl,rfl⟩ := ends_pure.mp ran
      exact .empty empty
    · exact absurd ran ends_stuck
  | succ rounds ih =>
    rcases listPopHead_parts popped writable with ⟨empty,rfl,rfl⟩ | ⟨bytes,rest,list,rfl,rfl⟩
    · obtain ⟨rfl,rfl⟩ := ends_pure.mp ran
      exact .empty empty
    simp only [publishStoredLoop,stringPtrLen,freeString,ends_bind,ends_emit,ends_pure,ends_modify,ends_ite,
      List.append_assoc,List.cons_append,List.nil_append] at ran
    obtain ⟨_,_,⟨_,_,rfl,rfl,rfl⟩,status,n,tried,ran⟩ := ran
    have tried : Ends (amqpPublish (cstr bytes)) (w.popped key bytes rest) status n := tried
    rcases ran with ⟨bad,_,_,pushed,_,_,rfl,rfl,rfl⟩ | ⟨ok,_,_,rfl,_,_,rfl,next,_,again,ran⟩
    · have pushed := listPush_parts pushed writable
      subst pushed
      have refused := Rounds.refused list tried bad
      simpa [World.restored,ListEnd.push] using refused
    · cases not_not.mp ok
      exact .sent list tried (ih again ran)

theorem publishStoredEvents_rounds (ran : Ends (publishStoredEvents ctx) w res w') :
    ∃ (key : Key) (m : World), key = ⟨w.handles+1,ctx.db,.readWrite⟩ ∧ Rounds key (w.opened key) res m ∧
      ((res ≠ REDISMODULE_OK ∧ w' = m) ∨ (res = REDISMODULE_OK ∧ w' = m.deleted key)) := by
  simp only [publishStoredEvents,ends_bind,ends_get,ends_ite,openKey_readWrite] at ran
  obtain ⟨_,_,⟨rfl,rfl⟩,⟨negative,_⟩ | ⟨_,_,_,⟨rfl,rfl⟩,message,_,popped,status,m,looped,ran⟩⟩ := ran
  · exact absurd negative (by simp)
  have rounds := loop_rounds rfl popped looped
  simp only [ends_pure,closeKey_some,ends_emit] at ran
  rcases ran with ⟨bad,rfl,rfl⟩ | ⟨ok,_,_,deleted,_,_,rfl,rfl,rfl⟩
  · exact ⟨_,_,rfl,rounds,.inl ⟨bad,rfl⟩⟩
  · have deleted := deleteKey_parts deleted rfl
    subst deleted
    cases not_not.mp ok
    exact ⟨_,_,rfl,rounds,.inr ⟨rfl,by simp [World.deleted]⟩⟩

theorem publishStoredEvents_parts (ran : Ends (publishStoredEvents ctx) w res w') :
    ∃ (key : Key) (m : World), key.db = ctx.db ∧ key.mode = .readWrite ∧ Rounds key (w.opened key) res m ∧
      ((res ≠ REDISMODULE_OK ∧ w' = m) ∨ (res = REDISMODULE_OK ∧ w' = m.deleted key)) := by
  obtain ⟨key,m,rfl,rounds,ended⟩ := publishStoredEvents_rounds ran
  exact ⟨_,m,rfl,rfl,rounds,ended⟩

def World.entered (w : World) (db : Int32) (message : CString) : World :=
  {w with trace := w.trace ++ [.publishEvent db message]}

theorem publishEvent_ways (ran : Ends (publishEvent ctx event keyname) w u w') :
    (w.conn ≠ none ∧ ∃ res m,
      Ends (amqpPublish (messageString ctx.db event keyname)) (w.entered ctx.db (messageString ctx.db event keyname)) res m ∧
        ((res ≠ AMQP_STATUS_OK ∧ Ends (pushEventToStorage ctx (messageString ctx.db event keyname)) m () w') ∨
        (res = AMQP_STATUS_OK ∧ ∃ drained, Ends (publishStoredEvents ctx) m drained w'))) ∨
    (w.conn = none ∧ Ends (pushEventToStorage ctx (messageString ctx.db event keyname))
      (w.entered ctx.db (messageString ctx.db event keyname)) () w') := by
  simp only [publishEvent,ends_bind,ends_emit,ends_get,ends_ite,ends_pure,not_not] at ran
  obtain ⟨_,_,rfl,_,_,⟨rfl,rfl⟩,⟨live,res,m,tried,⟨bad,pushed⟩ | ⟨ok,drained,_,swept,_,rfl⟩⟩ | ⟨closed,pushed⟩⟩ := ran
  · exact .inl ⟨live,res,m,tried,.inl ⟨bad,pushed⟩⟩
  · exact .inl ⟨live,res,m,tried,.inr ⟨ok,drained,swept⟩⟩
  · exact .inr ⟨closed,pushed⟩

end KeyspaceAmqp
