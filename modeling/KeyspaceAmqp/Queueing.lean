import KeyspaceAmqp.Publishing
import KeyspaceAmqp.Store

namespace KeyspaceAmqp
open Programs Outbox

structure Untouched (w w' : World) : Prop where
  settings : w'.settings = w.settings
  enabled : w'.amqpConnectionEnabled = w.amqpConnectionEnabled
  heartbeat : w'.heardBeatTimerId = w.heardBeatTimerId
  timers : w'.timers = w.timers
  conn : w'.conn = w.conn ∨ w'.conn = none

theorem Untouched.refl (w : World) : Untouched w w := ⟨rfl,rfl,rfl,rfl,.inl rfl⟩

theorem Untouched.trans (one : Untouched w m) (two : Untouched m w') : Untouched w w' := by
  refine ⟨two.settings.trans one.settings,two.enabled.trans one.enabled,
    two.heartbeat.trans one.heartbeat,two.timers.trans one.timers,?_⟩
  rcases two.conn with same | lost
  · rw [same]; exact one.conn
  · exact .inr lost

theorem Wire.untouched (wire : Wire w w') (conn : w'.conn = w.conn ∨ w'.conn = none) : Untouched w w' := by
  obtain ⟨_,_,_,_,rfl,_⟩ := wire
  exact ⟨rfl,rfl,rfl,rfl,conn⟩

def Call.refused : Call → Bool
  | .amqp _ (.basicPublish _ _ _ _ status) => status ≠ AMQP_STATUS_OK
  | _ => false

def Refused (calls : List Call) : Prop := ∃ c ∈ calls, c.refused = true

instance (calls : List Call) : Decidable (Refused calls) := inferInstanceAs (Decidable (∃ c ∈ calls, c.refused = true))

theorem Refused.later {w w' : World} (refused : Refused w.trace) (added : w'.trace = w.trace ++ more) : Refused w'.trace := by
  obtain ⟨c,member,bad⟩ := refused
  exact ⟨c,added ▸ List.mem_append_left _ member,bad⟩

theorem amqpPublish_tells (ran : Ends (amqpPublish body) w res w') (db : Int32) :
    w'.store = w.store ∧ Untouched w w' ∧
      Tells db w w' (if res = AMQP_STATUS_OK then [.sent body.bytes] else []) ∧
      (res ≠ AMQP_STATUS_OK → w'.conn = none ∨ Refused w'.trace) := by
  rcases amqpPublish_parts ran with ⟨m,exchange,routingKey,mode,rest,wire,same,rfl⟩ | ⟨wire,lost,bad⟩
  · have store := wire.store
    obtain ⟨settings,enabled,heartbeat,timers,_⟩ := wire.untouched (.inl same)
    have published : Tells db m {m with
        script := rest
        trace := m.trace ++ [.amqp m.conn (.basicPublish exchange routingKey mode body.bytes res)]} _ :=
      .once db rfl (fun _ inside => by cases inside) (fun _ same => by cases same)
    refine ⟨store,⟨settings,enabled,heartbeat,timers,.inl same⟩,?_,?_⟩
    · have said := (wire.tells db).trans published
      by_cases ok : res = AMQP_STATUS_OK <;> simpa [Call.mail,ok] using said
    · intro bad
      exact .inr ⟨_,List.mem_append_right _ List.mem_cons_self,by simpa [Call.refused] using bad⟩
  · refine ⟨wire.store,wire.untouched (.inr lost),?_,fun _ => .inl lost⟩
    simpa [bad] using wire.tells db

theorem syncFallbackStorageLen_effect (ran : Ends (syncFallbackStorageLen ctx) w u w') :
    Effect ctx.db w w' [.resync ctx.db] ∧ Untouched w w' := by
  simp only [syncFallbackStorageLen,openKey,ends_bind,ends_get,ends_ite,ends_emit,ends_newHandle,ends_pure,
    ends_modify] at ran
  obtain ⟨_,_,⟨_,_,⟨rfl,rfl⟩,opened⟩,_,_,counted,_,_,rfl,closed⟩ := ran
  rcases opened with ⟨⟨_,empty⟩,_,_,rfl,rfl,rfl⟩ | ⟨_,_,_,⟨rfl,rfl⟩,_,_,rfl,rfl,rfl⟩
  · simp only [valueLength,closeKey,ends_pure] at counted closed
    obtain ⟨rfl,rfl⟩ := counted
    obtain ⟨-,rfl⟩ := closed
    have told : Tells ctx.db w {w with fallbackStorageLen := 0,trace := w.trace ++ [.openKey ctx.db .read none]} [] :=
      ⟨_,rfl,rfl,by simp [Call.database],by simp⟩
    refine ⟨.told ?_ ⟨trivial,trivial⟩ told fun _ => rfl,⟨rfl,rfl,rfl,rfl,.inl rfl⟩⟩
    simp [World.store,Store.moves,Store.move,Store.deal,empty]
  · simp only [valueLength,closeKey,ends_bind,ends_emit,ends_get,ends_pure] at counted closed
    obtain ⟨_,_,rfl,_,_,⟨rfl,rfl⟩,rfl,rfl⟩ := counted
    subst closed
    let key : Key := ⟨w.handles+1,ctx.db,.read⟩
    have told : Tells ctx.db w {w with
        handles := w.handles+1
        fallbackStorageLen := UInt64.ofNat (w.storage ctx.db).length
        trace := w.trace ++ [.openKey ctx.db .read (some key),.valueLength key,.closeKey key]} [] :=
      ⟨_,rfl,rfl,by simp [Call.database,key],by simp⟩
    simp only [List.append_assoc,List.cons_append,List.nil_append]
    exact ⟨.told rfl ⟨trivial,trivial⟩ told fun _ => rfl,⟨rfl,rfl,rfl,rfl,.inl rfl⟩⟩

theorem setupFallbackStorage_effect (ran : Ends (setupFallbackStorage ctx) w u w') :
    Effect ctx.db w w' [.resync ctx.db] ∧ Untouched w w' := by
  simp only [setupFallbackStorage,ends_bind,ends_get,ends_ite] at ran
  obtain ⟨_,_,⟨rfl,rfl⟩,⟨_,ran⟩ | ⟨negative,_⟩⟩ := ran
  · exact syncFallbackStorageLen_effect ran
  · exact absurd (by simp) negative

theorem evictOldest_tells (ran : Ends (evictOldest (some key)) w u w') (writable : key.mode = .readWrite) :
    w'.store = {w.store with storage := Function.update w.storage key.db (w.store.evicted key.db)} ∧ Untouched w w' ∧
      Tells key.db w w' (if w.store.Full ∧ w.storage key.db ≠ [] then [.taken key.db] else []) := by
  simp only [evictOldest,ends_bind,ends_get,ends_ite,ends_pure] at ran
  obtain ⟨_,_,⟨rfl,rfl⟩,⟨full,_,_,popped,_,rfl⟩ | ⟨short,_,rfl⟩⟩ := ran
  · have full : w.store.Full := full
    rcases listPopHead_parts popped writable with ⟨empty,rfl,rfl⟩ | ⟨bytes,rest,list,rfl,rfl⟩
    · refine ⟨?_,⟨rfl,rfl,rfl,rfl,.inl rfl⟩,?_⟩
      · rw [show w.store.evicted key.db = w.storage key.db by simp [Store.evicted,empty],
          Function.update_eq_self]
        rfl
      · rw [if_neg (by simp [empty])]
        exact ⟨[.listPop key none],rfl,rfl,by simp [Call.database],by simp⟩
    · refine ⟨?_,⟨rfl,rfl,rfl,rfl,.inl rfl⟩,?_⟩
      · rw [show w.store.evicted key.db = rest by simp [Store.evicted,full,list]]
        rfl
      · rw [if_pos ⟨full,by simp [list]⟩]
        exact ⟨[.listPop key (some ⟨w.handles+1,bytes⟩)],rfl,rfl,by simp [Call.database],by simp⟩
  · have short : ¬ w.store.Full := short
    refine ⟨?_,.refl _,?_⟩
    · rw [show w.store.evicted key.db = w.storage key.db by simp [Store.evicted,short],
        Function.update_eq_self]
      rfl
    · rw [if_neg fun both => short both.1]
      exact .nothing _ rfl

theorem pushEventToStorage_tells (ran : Ends (pushEventToStorage ctx message) w u w') :
    w'.store = w.store.move (.keep ctx.db message) ∧ Untouched w w' ∧
      Tells ctx.db w w' ((if w.store.Full ∧ w.storage ctx.db ≠ [] then [.taken ctx.db] else []) ++
        [.appended ctx.db message.bytes]) := by
  simp only [pushEventToStorage,ends_bind,ends_get,ends_ite,openKey_readWrite,createString,ends_newHandle,ends_emit,
    ends_pure] at ran
  obtain ⟨_,_,⟨rfl,rfl⟩,⟨negative,_⟩ | ⟨_,_,_,⟨rfl,rfl⟩,ran⟩⟩ := ran
  · exact absurd negative (by simp)
  simp only [closeKey_some,ends_emit] at ran
  obtain ⟨_,m,evicted,_,_,⟨_,_,⟨rfl,rfl⟩,_,_,rfl,rfl,rfl⟩,_,_,pushed,rfl⟩ := ran
  have pushed := listPush_parts pushed rfl
  subst pushed
  obtain ⟨store,⟨settings,enabled,heartbeat,timers,conn⟩,tells⟩ := evictOldest_tells evicted rfl
  let key : Key := ⟨w.handles+1,ctx.db,.readWrite⟩
  let string : RedisString := ⟨m.handles+1,message.bytes⟩
  have opened : Tells ctx.db w {w with handles := w.handles+1,trace := w.trace ++ [.openKey ctx.db .readWrite (some key)]} [] :=
    ⟨_,rfl,rfl,by simp [Call.database],by simp⟩
  refine ⟨?_,⟨settings,enabled,heartbeat,timers,conn⟩,(opened.trans tells).trans ?_⟩
  · have listed : m.storage = Function.update w.storage ctx.db (w.store.evicted ctx.db) := congrArg Store.storage store
    have len : m.fallbackStorageLen = w.fallbackStorageLen := congrArg Store.len store
    rw [move_keep]
    simp only [World.store,ListEnd.push,listed,len,settings,Function.update_self,Function.update_idem]
  · refine ⟨[.createString string,.listPush key .tail string,.closeKey key],by simp [key,string],?_,
      by simp [Call.database,key],by simp⟩
    rfl

-- A drain of the list behind a key, up to the first body that could not be sent.
structure Drained (db : Int32) (w w' : World) (res : Int32) (count : Nat) (failed : Bool) : Prop where
  store : w'.store = w.store.move (.drain db count failed)
  fits : w.store.Fits (.drain db count failed)
  quiet : Untouched w w'
  tells : ∃ mails, Tells db w w' mails ∧ (Clean w.storage → mails = w.store.mail (.drain db count failed))
  result : res = REDISMODULE_OK ↔ failed = false
  reason : failed = true → w'.conn = none ∨ Refused w'.trace

theorem drained_empty (empty : w.storage db = []) (store : w'.store = w.store) (quiet : Untouched w w')
    (tells : Tells db w w' []) : Drained db w w' REDISMODULE_OK 0 false where
  store := by rw [store,move_drain_none]
  fits := by simp [fits_drain,empty]
  quiet := quiet
  tells := ⟨[],tells,fun _ => by simp [mail_drain]⟩
  result := by simp
  reason := by simp

-- The put-back restores the list.
theorem drained_refused (list : w.storage db = bytes :: rest) (store : w'.store = w.store) (quiet : Untouched w w')
    (tells : Tells db w w' [.taken db,.returned db]) (reason : w'.conn = none ∨ Refused w'.trace) :
    Drained db w w' REDISMODULE_ERR 0 true where
  store := by rw [store,move_drain_none]
  fits := by simp [fits_drain,list]
  quiet := quiet
  tells := ⟨_,tells,fun _ => by simp [mail_drain]⟩
  result := by decide
  reason := fun _ => reason

theorem drained_sent (later : Drained db m w' res count failed) (list : w.storage db = bytes :: rest)
    (store : m.store = {w.store with storage := Function.update w.storage db rest,len := w.store.len-1})
    (quiet : Untouched w m) (tells : Tells db w m [.taken db,.sent (cstr bytes).bytes]) :
    Drained db w w' res (count+1) failed where
  store := by
    rw [later.store,store,move_drain,move_drain]
    simp only [Function.update_self,Function.update_idem,store_storage,list,List.drop_succ_cons,Store.mk.injEq,
      true_and,and_true]
    rw [UInt64.ofNat_add]
    grind
  fits := by
    have fits := later.fits
    have listed : m.storage db = rest := by simpa using congrFun (congrArg Store.storage store) db
    simp only [fits_drain,store_storage,listed,list,List.length_cons] at fits ⊢
    cases failed <;> simp_all
  quiet := quiet.trans later.quiet
  tells := by
    obtain ⟨mails,told,meaning⟩ := later.tells
    refine ⟨_,tells.trans told,?_⟩
    intro clean
    have listed : m.storage = Function.update w.storage db rest := congrArg Store.storage store
    have still : Clean m.storage :=
      listed ▸ clean_update clean db fun b member => clean db b (list ▸ List.mem_cons_of_mem _ member)
    rw [meaning still,cstr_bytes bytes (clean db bytes (list ▸ List.mem_cons_self)),mail_drain,mail_drain]
    simp [listed,list]
  result := later.result
  reason := later.reason

theorem popped_tells (w : World) (key : Key) (bytes : Bytes) (rest : List Bytes) :
    Tells key.db w (w.popped key bytes rest) [.taken key.db] :=
  ⟨_,rfl,rfl,by simp [Call.database],by simp⟩

theorem restored_tells (w : World) (key : Key) (string : RedisString) :
    Tells key.db w (w.restored key string) [.returned key.db] :=
  ⟨_,rfl,rfl,by simp [Call.database],by simp⟩

theorem counted_tells (w : World) (db : Int32) (string : RedisString) : Tells db w (w.counted string) [] :=
  ⟨_,rfl,rfl,by simp [Call.database],by simp⟩

theorem Rounds.drained (rounds : Rounds key w res w') : ∃ count failed, Drained key.db w w' res count failed := by
  induction rounds with
  | empty list =>
    exact ⟨0,false,drained_empty list rfl ⟨rfl,rfl,rfl,rfl,.inl rfl⟩ ⟨_,rfl,rfl,by simp [Call.database],by simp⟩⟩
  | @refused status w m bytes rest list tried bad =>
    obtain ⟨store,⟨settings,enabled,heartbeat,timers,conn⟩,tells,reason⟩ := amqpPublish_tells tried key.db
    rw [if_neg bad] at tells
    have listed : m.storage = Function.update w.storage key.db rest := congrArg Store.storage store
    have len : m.fallbackStorageLen = w.fallbackStorageLen := congrArg Store.len store
    have whole : Function.update m.storage key.db (bytes :: m.storage key.db) = w.storage := by
      rw [listed,Function.update_self,Function.update_idem,← list,Function.update_eq_self]
    refine ⟨0,true,drained_refused list ?_ ⟨settings,enabled,heartbeat,timers,conn⟩
      (((popped_tells w key bytes rest).trans tells).trans (restored_tells m key _)) ?_⟩
    · simp only [World.store,World.restored,whole,len,settings,World.popped]
    · exact (reason bad).imp id fun refused => refused.later rfl
  | @sent res w m w' bytes rest list tried later ih =>
    obtain ⟨store,⟨settings,enabled,heartbeat,timers,conn⟩,tells,_⟩ := amqpPublish_tells tried key.db
    rw [if_pos rfl] at tells
    have listed : m.storage = Function.update w.storage key.db rest := congrArg Store.storage store
    have len : m.fallbackStorageLen = w.fallbackStorageLen := congrArg Store.len store
    obtain ⟨count,failed,later⟩ := ih
    refine ⟨count+1,failed,drained_sent later list ?_ ⟨settings,enabled,heartbeat,timers,conn⟩
      (((popped_tells w key bytes rest).trans tells).trans (counted_tells m key.db _))⟩
    simp only [World.store,World.counted,listed,len,settings,World.popped]

theorem publishStoredEvents_effect (ran : Ends (publishStoredEvents ctx) w res w') :
    ∃ count failed, Effect ctx.db w w' [.drain ctx.db count failed] ∧ Untouched w w' ∧
      (failed = true → w'.conn = none ∨ Refused w'.trace) := by
  obtain ⟨key,m,db,_,rounds,ended⟩ := publishStoredEvents_parts ran
  obtain ⟨count,failed,store,fits,⟨settings,enabled,heartbeat,timers,conn⟩,⟨mails,tells,meaning⟩,result,reason⟩ := rounds.drained
  rw [db] at store fits tells meaning
  have opened : Tells ctx.db w (w.opened key) [] := ⟨_,rfl,rfl,by simp [Call.database,db],by simp⟩
  have drained := opened.trans tells
  have meaning : Clean w.storage → mails = w.store.mails [.drain ctx.db count failed] := fun clean => by
    rw [meaning clean]; simp only [Store.mails,List.append_nil]; rfl
  refine ⟨count,failed,?_⟩
  rcases ended with ⟨_,rfl⟩ | ⟨ok,rfl⟩
  · exact ⟨.told store ⟨fits,trivial⟩ drained meaning,⟨settings,enabled,heartbeat,timers,conn⟩,reason⟩
  have complete : failed = false := result.mp ok
  subst complete
  have empty : m.storage ctx.db = [] := by
    have listed := congrFun (congrArg Store.storage store) ctx.db
    have all : count = (w.storage ctx.db).length := fits
    simpa [move_drain,all,World.opened] using listed
  have unchanged : Function.update m.storage key.db [] = m.storage := by rw [db,← empty,Function.update_eq_self]
  refine ⟨⟨?_,⟨fits,trivial⟩,?_⟩,⟨settings,enabled,heartbeat,timers,conn⟩,fun impossible => by cases impossible⟩
  · simp only [World.store,World.deleted,unchanged]
    exact store
  obtain ⟨calls,added,mailed,within,keeps⟩ := drained
  refine ⟨calls ++ [.deleteKey key,.closeKey key],by simp [added,World.deleted],?_,?_,fun _ _ => ⟨count,by simp⟩⟩
  · intro clean
    rw [mail_append,mailed,List.nil_append,meaning clean]
    exact List.append_nil _
  · intro c member
    rcases List.mem_append.mp member with early | late
    · exact within c early
    · simp only [List.mem_cons,List.not_mem_nil,or_false] at late
      rcases late with rfl | rfl <;> simp [Call.database,db]

theorem pushEventToStorage_effect (ran : Ends (pushEventToStorage ctx message) m u w')
    (store : m.store = w.store) (tells : Tells ctx.db w m [.handed ctx.db message.bytes]) :
    Effect ctx.db w w' [.keep ctx.db message] ∧ Untouched m w' := by
  obtain ⟨moved,quiet,later⟩ := pushEventToStorage_tells ran
  have listed : m.storage = w.storage := congrArg Store.storage store
  rw [store,listed] at later
  refine ⟨.told (by rw [moved,store]; rfl) ⟨trivial,trivial⟩ (tells.trans later) fun _ => ?_,quiet⟩
  simp only [Store.mails,List.append_nil]
  exact (mail_keep _ _ _).symm

theorem publishEvent_effect (ran : Ends (publishEvent ctx event keyname) w u w') :
    ∃ ms, Effect ctx.db w w' ms ∧ Untouched w w' ∧
      ((∃ count failed, ms = [.post ctx.db (messageString ctx.db event keyname),.drain ctx.db count failed] ∧
        (failed = true → w'.conn = none ∨ Refused w'.trace)) ∨
      (ms = [.keep ctx.db (messageString ctx.db event keyname)] ∧ (w'.conn = none ∨ Refused w'.trace))) := by
  have ways := publishEvent_ways ran
  generalize messageString ctx.db event keyname = message at ways ⊢
  have entered : Tells ctx.db w (w.entered ctx.db message) [.handed ctx.db message.bytes] :=
    ⟨_,rfl,rfl,by simp [Call.database],by simp⟩
  rcases ways with ⟨live,res,m,published,ran⟩ | ⟨closed,pushed⟩
  · obtain ⟨store,quiet,tells,reason⟩ := amqpPublish_tells published ctx.db
    have store : m.store = w.store := store
    have quiet : Untouched w m := ⟨quiet.settings,quiet.enabled,quiet.heartbeat,quiet.timers,quiet.conn⟩
    rcases ran with ⟨bad,pushed⟩ | ⟨ok,_,drained⟩
    · rw [if_neg bad] at tells
      obtain ⟨effect,still⟩ := pushEventToStorage_effect pushed store (entered.trans tells)
      refine ⟨_,effect,quiet.trans still,.inr ⟨rfl,?_⟩⟩
      rcases reason bad with lost | refused
      · exact .inl (still.conn.elim (fun same => same.trans lost) id)
      · obtain ⟨_,_,_,added,_⟩ := pushEventToStorage_tells pushed
        exact .inr (refused.later added)
    · rw [if_pos ok] at tells
      obtain ⟨count,failed,effect,still,why⟩ := publishStoredEvents_effect drained
      have posted : Effect ctx.db w m [.post ctx.db message] :=
        .told store ⟨trivial,trivial⟩ (entered.trans tells) fun _ => rfl
      exact ⟨_,posted.trans effect,quiet.trans still,.inl ⟨count,failed,rfl,why⟩⟩
  · obtain ⟨effect,still⟩ := pushEventToStorage_effect (w := w) pushed rfl entered
    have still : Untouched w w' := ⟨still.settings,still.enabled,still.heartbeat,still.timers,still.conn⟩
    exact ⟨_,effect,still,.inr ⟨rfl,.inl (still.conn.elim (fun same => same.trans closed) id)⟩⟩

end KeyspaceAmqp
