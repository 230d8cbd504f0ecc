import KeyspaceAmqp.Delivery
import KeyspaceAmqp.Steps

namespace KeyspaceAmqp
open Programs Outbox

def tries (calls : List Call) : List (Bytes × Int32) := calls.filterMap fun
  | .amqp _ (.basicPublish _ _ _ body status) => some (body,status)
  | _ => none

@[simp] theorem tries_append (a b : List Call) : tries (a ++ b) = tries a ++ tries b := List.filterMap_append

theorem delivered_tries (calls : List Call) :
    delivered calls = ((tries calls).filter fun tried => tried.2 = AMQP_STATUS_OK).map Prod.fst := by
  induction calls with
  | nil => rfl
  | cons c rest ih =>
    unfold delivered tries at ih ⊢
    cases c with
    | amqp conn call =>
      cases call with
      | basicPublish exchange routingKey mode body status =>
        by_cases ok : status = AMQP_STATUS_OK <;> simp [ok,ih]
      | _ => exact ih
    | _ => exact ih

theorem Touches.filtered {f : Call → Option γ} (touches : Touches parts w w') (none : ∀ c, c.part ∈ parts → f c = none) :
    w'.trace.filterMap f = w.trace.filterMap f := by
  obtain ⟨more,added,inside⟩ := touches.calls
  have silent : more.filterMap f = [] := List.filterMap_eq_nil_iff.mpr fun c member => none c (inside c member)
  rw [added,List.filterMap_append,silent,List.append_nil]

theorem Touches.delivered (touches : Touches parts w w') (outside : .publishes ∉ parts) :
    KeyspaceAmqp.delivered w'.trace = KeyspaceAmqp.delivered w.trace := by
  refine touches.filtered fun c inside => ?_
  cases c with
  | amqp conn call => cases call <;> first | rfl | exact absurd inside outside
  | _ => rfl

theorem Touches.handedOver (touches : Touches parts w w') (outside : .events ∉ parts) :
    KeyspaceAmqp.handedOver w'.trace = KeyspaceAmqp.handedOver w.trace := by
  refine touches.filtered fun c inside => ?_
  cases c with
  | publishEvent db body => exact absurd inside outside
  | _ => rfl

def Tried (w w' : World) (tried : List (Bytes × Int32)) : Prop :=
  ∃ more, w'.trace = w.trace ++ more ∧ tries more = tried

theorem Tried.trans (one : Tried w m first) (two : Tried m w' second) : Tried w w' (first ++ second) := by
  obtain ⟨earlier,added,rfl⟩ := one
  obtain ⟨later,added',rfl⟩ := two
  exact ⟨earlier ++ later,by rw [added',added,List.append_assoc],tries_append _ _⟩

theorem Touches.untried (touches : Touches parts w w') (outside : .publishes ∉ parts) : Tried w w' [] := by
  obtain ⟨more,added,inside⟩ := touches.calls
  refine ⟨more,added,List.filterMap_eq_nil_iff.mpr fun c member => ?_⟩
  have part := inside c member
  cases c with
  | amqp conn call => cases call <;> first | rfl | exact absurd part outside
  | _ => rfl

theorem Wire.untried (wire : Wire w w') : Tried w w' [] := by
  obtain ⟨_,_,_,calls,rfl,quiet⟩ := wire
  refine ⟨calls,rfl,List.filterMap_eq_nil_iff.mpr fun c member => ?_⟩
  have quiet := quiet c member
  cases c with
  | amqp conn call => cases call <;> first | rfl | cases quiet
  | _ => rfl

-- A publish that fails may or may not have come to the library's call.
theorem amqpPublish_tried (ran : Ends (amqpPublish body) w res w') : w'.storage = w.storage ∧
    ((res = AMQP_STATUS_OK ∧ Tried w w' [(body.bytes,AMQP_STATUS_OK)]) ∨
    (res ≠ AMQP_STATUS_OK ∧ (Tried w w' [] ∨ Tried w w' [(body.bytes,res)]))) := by
  rcases amqpPublish_parts ran with ⟨m,exchange,routingKey,mode,rest,wire,_,rfl⟩ | ⟨wire,_,bad⟩
  · have tried : Tried m {m with
        script := rest
        trace := m.trace ++ [.amqp m.conn (.basicPublish exchange routingKey mode body.bytes res)]}
        [(body.bytes,res)] := ⟨_,rfl,rfl⟩
    refine ⟨congrArg Store.storage wire.store,?_⟩
    by_cases ok : res = AMQP_STATUS_OK
    · subst ok
      exact .inl ⟨rfl,wire.untried.trans tried⟩
    · exact .inr ⟨ok,.inr (wire.untried.trans tried)⟩
  · exact ⟨congrArg Store.storage wire.store,.inr ⟨bad,.inl wire.untried⟩⟩

def resent (bytes : Bytes) : Bytes := (cstr bytes).bytes

-- A drain by the bodies it tries: the oldest ones go out in order, and one more may be
-- refused, which is back at the front of the list.
structure Swept (db : Int32) (w w' : World) (count : Nat) : Prop where
  inside : count ≤ (w.storage db).length
  left : w'.storage = Function.update w.storage db ((w.storage db).drop count)
  tried : ∃ refused, Tried w w' (((w.storage db).take count).map (fun bytes => (resent bytes,AMQP_STATUS_OK)) ++ refused) ∧
    (refused = [] ∨ ∃ bytes status, (w.storage db)[count]? = some bytes ∧ status ≠ AMQP_STATUS_OK ∧
      refused = [(resent bytes,status)])

theorem swept_none (left : w'.storage = w.storage) (tried : Tried w w' []) : Swept db w w' 0 where
  inside := Nat.zero_le _
  left := by simp [left]
  tried := ⟨[],by simpa using tried,.inl rfl⟩

theorem swept_refused (list : w.storage db = bytes :: rest) (left : w'.storage = w.storage)
    (bad : status ≠ AMQP_STATUS_OK) (tried : Tried w w' [(resent bytes,status)]) : Swept db w w' 0 where
  inside := Nat.zero_le _
  left := by simp [left]
  tried := ⟨_,by simpa using tried,.inr ⟨bytes,status,by simp [list],bad,rfl⟩⟩

theorem Swept.before (swept : Swept db m w' count) (same : m.storage = w.storage) (untried : Tried w m []) :
    Swept db w w' count where
  inside := same ▸ swept.inside
  left := same ▸ swept.left
  tried := by
    obtain ⟨refused,tried,why⟩ := swept.tried
    rw [same] at tried why
    exact ⟨refused,by simpa using untried.trans tried,why⟩

theorem Swept.sent (later : Swept db m w' count) (list : w.storage db = bytes :: rest)
    (left : m.storage = Function.update w.storage db rest) (tried : Tried w m [(resent bytes,AMQP_STATUS_OK)]) :
    Swept db w w' (count+1) where
  inside := by
    have inside := later.inside
    simp only [left,Function.update_self] at inside
    simpa [list] using inside
  left := by
    rw [later.left,left]
    simp [list]
  tried := by
    obtain ⟨refused,swept,why⟩ := later.tried
    simp only [left,Function.update_self] at swept why
    exact ⟨refused,by simpa [list] using tried.trans swept,by simpa [list] using why⟩

theorem popped_tried (w : World) (key : Key) (bytes : Bytes) (rest : List Bytes) : Tried w (w.popped key bytes rest) [] :=
  ⟨_,rfl,rfl⟩

theorem Rounds.swept (rounds : Rounds key w res w') :
    ∃ count, Swept key.db w w' count ∧ (res = REDISMODULE_OK → count = (w.storage key.db).length) := by
  induction rounds with
  | empty list => exact ⟨0,swept_none rfl ⟨_,rfl,rfl⟩,fun _ => by simp [list]⟩
  | @refused status w m bytes rest list tried bad =>
    obtain ⟨listed,outcome⟩ := amqpPublish_tried tried
    have listed : m.storage = Function.update w.storage key.db rest := listed
    have back : Tried m (m.restored key ⟨w.handles+1,bytes⟩) [] := ⟨_,rfl,rfl⟩
    have whole : Function.update m.storage key.db (bytes :: m.storage key.db) = w.storage := by
      rw [listed,Function.update_self,Function.update_idem,← list,Function.update_eq_self]
    refine ⟨0,?_,fun fine => by cases fine⟩
    rcases (outcome.resolve_left fun fine => bad fine.1).2 with none | one
    · exact swept_none whole (((popped_tried w key bytes rest).trans none).trans back)
    · exact swept_refused list whole bad (((popped_tried w key bytes rest).trans one).trans back)
  | @sent res w m w' bytes rest list tried later ih =>
    obtain ⟨listed,outcome⟩ := amqpPublish_tried tried
    have listed : m.storage = Function.update w.storage key.db rest := listed
    have sent := (outcome.resolve_right fun failed => failed.1 rfl).2
    have freed : Tried m (m.counted ⟨w.handles+1,bytes⟩) [] := ⟨_,rfl,rfl⟩
    obtain ⟨count,later,complete⟩ := ih
    refine ⟨count+1,later.sent list listed (((popped_tried w key bytes rest).trans sent).trans freed),fun fine => ?_⟩
    simpa [World.counted,listed,list] using complete fine

theorem publishStoredEvents_swept (ran : Ends (publishStoredEvents ctx) w res w') : ∃ count, Swept ctx.db w w' count := by
  obtain ⟨key,m,db,_,rounds,ended⟩ := publishStoredEvents_parts ran
  obtain ⟨count,swept,complete⟩ := rounds.swept
  have opened : Tried w (w.opened key) [] := ⟨_,rfl,rfl⟩
  have swept : Swept key.db w m count := swept.before rfl opened
  refine ⟨count,db ▸ ?_⟩
  rcases ended with ⟨_,rfl⟩ | ⟨ok,rfl⟩
  · exact swept
  obtain ⟨inside,left,refused,tried,why⟩ := swept
  have closed : Tried m (m.deleted key) [] := ⟨_,rfl,rfl⟩
  have complete : count = (w.storage key.db).length := complete ok
  exact ⟨inside,by simp [World.deleted,left,complete],refused,by simpa using tried.trans closed,why⟩

theorem pushEventToStorage_kept (ran : Ends (pushEventToStorage ctx message) w u w') :
    w'.storage = Function.update w.storage ctx.db (w.store.evicted ctx.db ++ [message.bytes]) ∧ Tried w w' [] := by
  obtain ⟨store,_,_⟩ := pushEventToStorage_tells ran
  have touched : Touches [.lists,.strings,.keys] w w' := Keeps.keeps ran
  refine ⟨?_,touched.untried (by decide)⟩
  rw [move_keep] at store
  exact congrArg Store.storage store

inductive Disposed (ctx : Ctx) (body : Bytes) (w w' : World) : Prop where
  | published (tried : Tried w m [(body,AMQP_STATUS_OK)]) (left : m.storage = w.storage)
      (swept : Swept ctx.db m w' count) : Disposed ctx body w w'
  | kept (left : w'.storage = Function.update w.storage ctx.db (w.store.evicted ctx.db ++ [body]))
      (tried : Tried w w' [] ∨ ∃ status, status ≠ AMQP_STATUS_OK ∧ Tried w w' [(body,status)]) : Disposed ctx body w w'

theorem publishEvent_disposed (ran : Ends (publishEvent ctx event keyname) w u w') :
    Disposed ctx (messageString ctx.db event keyname).bytes w w' := by
  have ways := publishEvent_ways ran
  generalize messageString ctx.db event keyname = message at ways ⊢
  have entered : Tried w (w.entered ctx.db message) [] := ⟨_,rfl,rfl⟩
  rcases ways with ⟨_,res,m,published,ran⟩ | ⟨_,pushed⟩
  · obtain ⟨same,outcome⟩ := amqpPublish_tried published
    have store : m.store = w.store := (amqpPublish_tells published ctx.db).1
    rcases ran with ⟨bad,pushed⟩ | ⟨ok,_,drained⟩
    · obtain ⟨left,untried⟩ := pushEventToStorage_kept pushed
      rw [store,show m.storage = w.storage from same] at left
      refine .kept left ?_
      rcases (outcome.resolve_left fun fine => bad fine.1).2 with none | one
      · exact .inl ((entered.trans none).trans untried)
      · exact .inr ⟨res,bad,(entered.trans one).trans untried⟩
    · have sent := (outcome.resolve_right fun failed => failed.1 ok).2
      obtain ⟨count,swept⟩ := publishStoredEvents_swept drained
      exact .published (entered.trans sent) same swept
  · obtain ⟨left,untried⟩ := pushEventToStorage_kept pushed
    exact .kept left (.inl (entered.trans untried))

theorem publishEvent_hands (ran : Ends (publishEvent ctx event keyname) w u w') :
    handedOver w'.trace = handedOver w.trace ++ [(ctx.db,(messageString ctx.db event keyname).bytes)] := by
  rw [(publishEvent_parts ran).handedOver (by decide),World.entered,handedOver_append]
  rfl

theorem onKeyspaceEvent_disposed (ran : Ends (onKeyspaceEvent ctx type event key) w res w') :
    (Takes w ctx key ∧ Disposed ctx (messageString ctx.db event (cstr key)).bytes w w') ∨
    (¬ Takes w ctx key ∧ w'.storage = w.storage ∧ Tried w w' []) := by
  rcases onKeyspaceEvent_ways ran with ⟨takes,m,_,begun,published⟩ | ⟨ignores,begun⟩
  · have same : m.storage = w.storage := begun.lists.resolve_left (by decide)
    have store : m.store = w.store := (Touches.effect (begun.mono (by simp)) ctx.db).store
    have untried := begun.untried (by decide)
    refine .inl ⟨takes,?_⟩
    cases publishEvent_disposed published with
    | published tried left swept => exact .published (untried.trans tried) (left.trans same) swept
    | kept left tried =>
      rw [same,store] at left
      exact .kept left (tried.imp untried.trans fun ⟨status,bad,tried⟩ => ⟨status,bad,untried.trans tried⟩)
  · exact .inr ⟨ignores,begun.lists.resolve_left (by decide),begun.untried (by decide)⟩

theorem reconnect_swept (ran : Ends (reconnect ctx) w u w') : ∃ count, Swept ctx.db w w' count := by
  simp only [reconnect,ends_bind,ends_ite,ends_pure] at ran
  obtain ⟨res,m,connected,⟨_,_,_,drained,_,rfl⟩ | ⟨_,_,_,closed,_,rfl⟩⟩ := ran
  · obtain ⟨count,swept⟩ := publishStoredEvents_swept drained
    have wire := amqpConnect_wire connected
    exact ⟨count,swept.before (congrArg Store.storage wire.store) wire.untried⟩
  · have wire := (amqpConnect_wire connected).trans (amqpDisconnect_wire closed).1
    exact ⟨0,swept_none (congrArg Store.storage wire.store) wire.untried⟩

theorem checkConnection_swept (ran : Ends (checkConnection ctx) w u w') : ∃ count, Swept ctx.db w w' count := by
  simp only [checkConnection,ends_bind,ends_get,ends_ite,ends_pure] at ran
  obtain ⟨_,_,⟨rfl,rfl⟩,⟨_,status,m,waited,ran⟩ | ⟨_,ran⟩⟩ := ran
  · have waited := (amqpWaitFrame_wire waited).1
    rcases ran with ⟨_,_,n,closed,ran⟩ | ⟨_,_,rfl⟩
    · have wire := waited.trans (amqpDisconnect_wire closed).1
      obtain ⟨count,swept⟩ := reconnect_swept ran
      exact ⟨count,swept.before (congrArg Store.storage wire.store) wire.untried⟩
    · exact ⟨0,swept_none (congrArg Store.storage waited.store) waited.untried⟩
  · exact reconnect_swept ran

end KeyspaceAmqp
