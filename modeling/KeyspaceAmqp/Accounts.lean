import KeyspaceAmqp.Draining

namespace KeyspaceAmqp
open Programs Paths Outbox

def enqueued (q : Int32) (calls : List Call) : List Bytes := calls.filterMap fun
  | .listPush key .tail string => if key.db = q then some string.bytes else none
  | _ => none

def Call.dequeue (q : Int32) (out : List Bytes) : Call → List Bytes
  | .listPop key (some string) => if key.db = q then out ++ [string.bytes] else out
  | .listPush key .head _ => if key.db = q then out.dropLast else out
  | _ => out

def dequeued (q : Int32) (calls : List Call) : List Bytes := calls.foldl (Call.dequeue q) []

def Call.hold (kept : List RedisString) : Call → List RedisString
  | .listPop _ (some string) => kept ++ [string]
  | .freeString string => kept.erase string
  | _ => kept

def unfreed (calls : List Call) : List RedisString := calls.foldl Call.hold []

theorem enqueued_append (q : Int32) (a b : List Call) : enqueued q (a ++ b) = enqueued q a ++ enqueued q b :=
  List.filterMap_append

theorem dequeued_append (q : Int32) (a b : List Call) : dequeued q (a ++ b) = b.foldl (Call.dequeue q) (dequeued q a) :=
  List.foldl_append

theorem unfreed_append (a b : List Call) : unfreed (a ++ b) = b.foldl Call.hold (unfreed a) := List.foldl_append

theorem foldl_still {log : List Call} {f : β → Call → β} {out : β} (still : ∀ c ∈ log, f out c = out) :
    log.foldl f out = out := by
  induction log with
  | nil => rfl
  | cons c rest ih =>
    rw [List.foldl_cons,still c List.mem_cons_self]
    exact ih fun d member => still d (List.mem_cons_of_mem _ member)

section Beside
variable {w w' : World} (touches : Touches parts w w') (outside : .lists ∉ parts)
include touches outside

theorem Touches.enqueued (q : Int32) : enqueued q w'.trace = enqueued q w.trace := by
  refine touches.filtered fun c inside => ?_
  cases c with
  | listPush key place string => exact absurd inside outside
  | _ => rfl

theorem Touches.dequeued (q : Int32) : dequeued q w'.trace = dequeued q w.trace := by
  obtain ⟨more,added,inside⟩ := touches.calls
  rw [added,dequeued_append]
  refine foldl_still fun c member => ?_
  have inside := inside c member
  cases c with
  | listPop key popped => exact absurd inside outside
  | listPush key place string => exact absurd inside outside
  | _ => rfl

theorem Touches.unfreed (free : unfreed w.trace = []) : unfreed w'.trace = [] := by
  obtain ⟨more,added,inside⟩ := touches.calls
  rw [added,unfreed_append,free]
  refine foldl_still fun c member => ?_
  have inside := inside c member
  cases c with
  | listPop key popped => exact absurd inside outside
  | freeString string => rfl
  | _ => rfl

end Beside

structure Serves (db : Int32) (w w' : World) (gone : List Bytes) : Prop where
  list : w.storage db = gone ++ w'.storage db
  others : ∀ q, q ≠ db → w'.storage q = w.storage q
  enqueued : ∀ q, enqueued q w'.trace = enqueued q w.trace
  dequeued : ∀ q, dequeued q w'.trace = dequeued q w.trace ++ if q = db then gone else []
  unfreed : unfreed w.trace = [] → unfreed w'.trace = []
  delivered : delivered w'.trace = delivered w.trace ++ gone.map resent

theorem Serves.trans (one : Serves db w m first) (two : Serves db m w' second) : Serves db w w' (first ++ second) where
  list := by rw [one.list,two.list,List.append_assoc]
  others q other := (two.others q other).trans (one.others q other)
  enqueued q := (two.enqueued q).trans (one.enqueued q)
  dequeued q := by
    rw [two.dequeued,one.dequeued,List.append_assoc]
    split <;> rfl
  unfreed free := two.unfreed (one.unfreed free)
  delivered := by rw [two.delivered,one.delivered,List.append_assoc,List.map_append]

theorem Touches.serves (touches : Touches parts w w') (outside : .lists ∉ parts) (unpublished : .publishes ∉ parts)
    (db : Int32) : Serves db w w' [] where
  list := (touches.lists.resolve_left outside).symm ▸ rfl
  others q _ := congrFun (touches.lists.resolve_left outside) q
  enqueued := touches.enqueued outside
  dequeued q := by rw [touches.dequeued outside,ite_self,List.append_nil]
  unfreed := touches.unfreed outside
  delivered := by rw [touches.delivered unpublished,List.map_nil,List.append_nil]

theorem amqpPublish_sends (ran : Ends (amqpPublish body) w res w') :
    Touches [.session,.publishes] w w' ∧
      delivered w'.trace = delivered w.trace ++ if res = AMQP_STATUS_OK then [body.bytes] else [] := by
  obtain ⟨calls,added,mailed,_⟩ := (amqpPublish_tells ran 0).2.2.1
  refine ⟨Keeps.keeps ran,?_⟩
  rw [added,delivered_append,← sent_mail calls,mailed]
  split <;> rfl

theorem refused_serves {w m : World} (list : w.storage key.db = bytes :: rest)
    (tried : Ends (amqpPublish (cstr bytes)) (w.popped key bytes rest) status m) (bad : status ≠ AMQP_STATUS_OK) :
    Serves key.db w (m.restored key ⟨w.handles+1,bytes⟩) [] := by
  obtain ⟨touched,sent⟩ := amqpPublish_sends tried
  have listed : m.storage = Function.update w.storage key.db rest := touched.lists.resolve_left (by decide)
  have whole : Function.update m.storage key.db (bytes :: m.storage key.db) = w.storage := by
    rw [listed,Function.update_self,Function.update_idem,← list,Function.update_eq_self]
  rw [if_neg bad] at sent
  refine ⟨?_,?_,?_,?_,?_,?_⟩
  · exact (congrFun whole key.db).symm
  · exact fun q _ => congrFun whole q
  · intro q
    have same := touched.enqueued (by decide) q
    simp only [World.restored,World.popped,enqueued_append] at same ⊢
    rw [same]
    simp [enqueued]
  · intro q
    have same := touched.dequeued (by decide) q
    simp only [World.restored,World.popped,dequeued_append] at same ⊢
    rw [same]
    by_cases here : key.db = q
    · subst here
      simp [Call.dequeue]
    · simp [Call.dequeue,here]
  · intro free
    obtain ⟨more,added,inside⟩ := touched.calls
    have still : more.foldl Call.hold [⟨w.handles+1,bytes⟩] = [⟨w.handles+1,bytes⟩] := by
      refine foldl_still fun c member => ?_
      have inside := inside c member
      cases c with
      | amqp conn call => rfl
      | _ => simp [Call.part] at inside
    simp only [World.popped] at added
    simp only [World.restored,added,unfreed_append,free]
    simp [Call.hold,still]
  · rw [List.map_nil]
    simp only [World.restored,World.popped,delivered_append] at sent ⊢
    rw [sent]
    simp [delivered]

theorem sent_serves {w m : World} (list : w.storage key.db = bytes :: rest)
    (tried : Ends (amqpPublish (cstr bytes)) (w.popped key bytes rest) AMQP_STATUS_OK m) :
    Serves key.db w (m.counted ⟨w.handles+1,bytes⟩) [bytes] := by
  obtain ⟨touched,sent⟩ := amqpPublish_sends tried
  have listed : m.storage = Function.update w.storage key.db rest := touched.lists.resolve_left (by decide)
  rw [if_pos rfl] at sent
  refine ⟨?_,?_,?_,?_,?_,?_⟩
  · simp [World.counted,listed,list]
  · intro q other
    simp [World.counted,listed,other]
  · intro q
    have same := touched.enqueued (by decide) q
    simp only [World.counted,World.popped,enqueued_append] at same ⊢
    rw [same]
    simp [enqueued]
  · intro q
    have same := touched.dequeued (by decide) q
    simp only [World.counted,World.popped,dequeued_append] at same ⊢
    rw [same]
    by_cases here : key.db = q
    · subst here
      simp [Call.dequeue]
    · simp [Call.dequeue,here,Ne.symm here]
  · intro free
    obtain ⟨more,added,inside⟩ := touched.calls
    have still : more.foldl Call.hold [⟨w.handles+1,bytes⟩] = [⟨w.handles+1,bytes⟩] := by
      refine foldl_still fun c member => ?_
      have inside := inside c member
      cases c with
      | amqp conn call => rfl
      | _ => simp [Call.part] at inside
    simp only [World.popped] at added
    simp only [World.counted,added,unfreed_append,free]
    simp [Call.hold,still]
  · simp only [World.counted,World.popped,delivered_append] at sent ⊢
    rw [sent]
    simp [delivered,resent]

theorem Rounds.serves (rounds : Rounds key w res w') : ∃ gone, Serves key.db w w' gone ∧
    (res = REDISMODULE_OK → w'.storage key.db = []) := by
  induction rounds with
  | @empty w list =>
    refine ⟨[],⟨rfl,fun _ _ => rfl,?_,?_,?_,?_⟩,fun _ => list⟩
    · intro q
      rw [enqueued_append]
      exact List.append_nil _
    · intro q
      rw [dequeued_append,ite_self,List.append_nil]
      rfl
    · intro free
      rw [unfreed_append,free]
      rfl
    · rw [delivered_append]
      rfl
  | refused list tried bad => exact ⟨[],refused_serves list tried bad,fun fine => by cases fine⟩
  | sent list tried later ih =>
    obtain ⟨gone,serves,complete⟩ := ih
    exact ⟨_,(sent_serves list tried).trans serves,complete⟩

theorem publishStoredEvents_serves (ran : Ends (publishStoredEvents ctx) w res w') : ∃ gone, Serves ctx.db w w' gone := by
  obtain ⟨key,m,db,_,rounds,ended⟩ := publishStoredEvents_parts ran
  obtain ⟨gone,serves,complete⟩ := rounds.serves
  rw [← db]
  have opened := (opened_touches w key).serves (by decide) (by decide) key.db
  have served : Serves key.db w m gone := opened.trans serves
  refine ⟨gone,?_⟩
  rcases ended with ⟨_,rfl⟩ | ⟨ok,rfl⟩
  · exact served
  -- by now the list is empty, so that deleting its key changes nothing
  have same : (m.deleted key).storage = m.storage := by
    rw [World.deleted,← complete ok,Function.update_eq_self]
  refine ⟨same ▸ served.list,fun q other => same ▸ served.others q other,?_,?_,?_,?_⟩
  · intro q
    rw [← served.enqueued q,World.deleted,enqueued_append]
    exact List.append_nil _
  · intro q
    rw [← served.dequeued q,World.deleted,dequeued_append]
    rfl
  · intro free
    rw [World.deleted,unfreed_append,served.unfreed free]
    rfl
  · rw [← served.delivered,World.deleted,delivered_append]
    exact List.append_nil _

theorem reconnect_serves (ran : Ends (reconnect ctx) w u w') : ∃ gone, Serves ctx.db w w' gone := by
  simp only [reconnect,ends_bind,ends_ite,ends_pure] at ran
  obtain ⟨res,m,connected,⟨_,_,_,drained,_,rfl⟩ | ⟨_,_,n,closed,_,rfl⟩⟩ := ran
  · obtain ⟨gone,serves⟩ := publishStoredEvents_serves drained
    have tried : Touches [.session] w m := Keeps.keeps connected
    exact ⟨gone,(tried.serves (by decide) (by decide) ctx.db).trans serves⟩
  · have tried : Touches [.session] w n := Touches.trans (Keeps.keeps connected) (Keeps.keeps closed)
    exact ⟨[],tried.serves (by decide) (by decide) ctx.db⟩

theorem checkConnection_serves (ran : Ends (checkConnection ctx) w u w') : ∃ gone, Serves ctx.db w w' gone := by
  simp only [checkConnection,ends_bind,ends_get,ends_ite,ends_pure] at ran
  obtain ⟨_,_,⟨rfl,rfl⟩,⟨_,status,m,waited,ran⟩ | ⟨_,ran⟩⟩ := ran
  · have heard : Touches [.session] w m := Keeps.keeps waited
    rcases ran with ⟨_,_,n,closed,ran⟩ | ⟨_,_,rfl⟩
    · obtain ⟨gone,serves⟩ := reconnect_serves ran
      have lost : Touches [.session] w n := heard.trans (Keeps.keeps closed)
      exact ⟨gone,(lost.serves (by decide) (by decide) ctx.db).trans serves⟩
    · exact ⟨[],heard.serves (by decide) (by decide) ctx.db⟩
  · exact reconnect_serves ran

theorem fireTimer_serves (ran : Ends (fireTimer fired flags) w u w') : ∃ gone, Serves fired.db w w' gone := by
  have begun := (fired_touches w fired).serves (by decide) (by decide) fired.db
  rcases (fireTimer_parts ran).2 with ⟨_,rfl⟩ | ⟨_,m,checked,rfl⟩
  · exact ⟨[],begun⟩
  · obtain ⟨gone,serves⟩ := checkConnection_serves checked
    have ended := (armed_touches m fired.db).serves (by decide) (by decide) fired.db
    exact ⟨gone,by simpa using (begun.trans serves).trans ended⟩

def Store.oldest (s : Store) (db : Int32) : List Bytes := if s.Full then (s.storage db).take 1 else []

theorem oldest_evicted (s : Store) (db : Int32) : s.storage db = s.oldest db ++ s.evicted db := by
  unfold Store.oldest Store.evicted
  split
  · cases s.storage db <;> rfl
  · rfl

structure Keeping (db : Int32) (body : Bytes) (w w' : World) : Prop where
  left : w'.storage = Function.update w.storage db (w.store.evicted db ++ [body])
  enqueued : ∀ q, enqueued q w'.trace = enqueued q w.trace ++ if q = db then [body] else []
  dequeued : ∀ q, dequeued q w'.trace = dequeued q w.trace ++ if q = db then w.store.oldest db else []
  unfreed : unfreed w.trace = [] → (unfreed w'.trace).map RedisString.bytes = w.store.oldest db
  delivered : delivered w'.trace = delivered w.trace

theorem evictOldest_takes (ran : Ends (evictOldest (some key)) w u w') (writable : key.mode = .readWrite) :
    (∀ q, enqueued q w'.trace = enqueued q w.trace) ∧
    (∀ q, dequeued q w'.trace = dequeued q w.trace ++ if q = key.db then w.store.oldest key.db else []) ∧
    (unfreed w.trace = [] → (unfreed w'.trace).map RedisString.bytes = w.store.oldest key.db) := by
  simp only [evictOldest,ends_bind,ends_get,ends_ite,ends_pure] at ran
  obtain ⟨_,_,⟨rfl,rfl⟩,⟨full,_,_,popped,_,rfl⟩ | ⟨short,_,rfl⟩⟩ := ran
  · have full : w.store.Full := full
    rcases listPopHead_parts popped writable with ⟨empty,rfl,rfl⟩ | ⟨bytes,rest,list,rfl,rfl⟩
    · have none : w.store.oldest key.db = [] := by simp [Store.oldest,empty]
      refine ⟨fun q => ?_,fun q => ?_,fun free => ?_⟩
      · rw [enqueued_append]
        exact List.append_nil _
      · rw [dequeued_append,none,ite_self,List.append_nil]
        rfl
      · rw [unfreed_append,free,none]
        rfl
    · have one : w.store.oldest key.db = [bytes] := by simp [Store.oldest,full,list]
      refine ⟨fun q => ?_,fun q => ?_,fun free => ?_⟩
      · rw [enqueued_append]
        exact List.append_nil _
      · rw [dequeued_append,one]
        by_cases here : key.db = q
        · simp [Call.dequeue,here]
        · simp [Call.dequeue,here,Ne.symm here]
      · rw [unfreed_append,free,one]
        rfl
  · have none : w.store.oldest key.db = [] := if_neg short
    refine ⟨fun _ => rfl,fun q => ?_,fun free => ?_⟩
    · rw [none,ite_self,List.append_nil]
    · rw [free,none]
      rfl

theorem pushEventToStorage_keeping (ran : Ends (pushEventToStorage ctx message) w u w') :
    Keeping ctx.db message.bytes w w' := by
  have left := (pushEventToStorage_kept ran).1
  have touched : Touches [.lists,.strings,.keys] w w' := Keeps.keeps ran
  simp only [pushEventToStorage,ends_bind,ends_get,ends_ite,openKey_readWrite,createString,ends_newHandle,ends_emit,
    ends_pure] at ran
  obtain ⟨_,_,⟨rfl,rfl⟩,⟨negative,_⟩ | ⟨_,_,_,⟨rfl,rfl⟩,ran⟩⟩ := ran
  · exact absurd negative (by simp)
  simp only [closeKey_some,ends_emit] at ran
  obtain ⟨_,m,evicted,_,_,⟨_,_,⟨rfl,rfl⟩,_,_,rfl,rfl,rfl⟩,_,_,pushed,rfl⟩ := ran
  have pushed := listPush_parts pushed rfl
  subst pushed
  obtain ⟨pushes,pops,frees⟩ := evictOldest_takes evicted rfl
  simp only [enqueued_append,dequeued_append,unfreed_append] at pushes pops frees
  refine ⟨left,fun q => ?_,fun q => ?_,fun free => ?_,touched.delivered (by decide)⟩
  · simp only [enqueued_append]
    rw [pushes]
    by_cases here : ctx.db = q
    · simp [enqueued,here]
    · simp [enqueued,here,Ne.symm here]
  · simp only [dequeued_append]
    rw [pops]
    rfl
  · simp only [unfreed_append]
    exact frees (by rw [free]; rfl)

-- What one callback does with the events of its database: some go out directly, some join
-- the list, the oldest of the list go out, and one may have to go for good.
structure Account (db : Int32) (w w' : World) (direct kept gone lost : List Bytes) : Prop where
  handed : handedOver w'.trace = handedOver w.trace ++ (direct ++ kept).map fun body => (db,body)
  delivered : delivered w'.trace = delivered w.trace ++ (direct ++ gone.map resent)
  enqueued : ∀ q, enqueued q w'.trace = enqueued q w.trace ++ if q = db then kept else []
  dequeued : ∀ q, dequeued q w'.trace = dequeued q w.trace ++ if q = db then gone ++ lost else []
  dropped : unfreed w.trace = [] → (unfreed w'.trace).map RedisString.bytes = lost
  list : w.storage db ++ kept = gone ++ lost ++ w'.storage db
  inside : gone <+: w.storage db
  others : ∀ q, q ≠ db → w'.storage q = w.storage q
  evicts : lost ≠ [] → w.store.Full ∧ kept ≠ []

theorem Serves.account (serves : Serves db w w' gone) (handed : handedOver w'.trace = handedOver w.trace) :
    Account db w w' [] [] gone [] where
  handed := by simp [handed]
  delivered := serves.delivered
  enqueued q := by rw [serves.enqueued,ite_self,List.append_nil]
  dequeued q := by rw [serves.dequeued,List.append_nil]
  dropped free := by rw [serves.unfreed free,List.map_nil]
  list := by simpa using serves.list
  inside := ⟨_,serves.list.symm⟩
  others := serves.others
  evicts impossible := absurd rfl impossible

theorem Touches.account (touches : Touches parts w w') (outside : .lists ∉ parts) (unpublished : .publishes ∉ parts)
    (unhanded : .events ∉ parts) (db : Int32) : Account db w w' [] [] [] [] :=
  (touches.serves outside unpublished db).account (touches.handedOver unhanded)

theorem Account.after (account : Account db m w' direct kept gone lost) (begun : Touches [.session,.heartbeat] w m) :
    Account db w w' direct kept gone lost where
  handed := by rw [account.handed,begun.handedOver (by decide)]
  delivered := by rw [account.delivered,begun.delivered (by decide)]
  enqueued q := by rw [account.enqueued,begun.enqueued (by decide)]
  dequeued q := by rw [account.dequeued,begun.dequeued (by decide)]
  dropped free := account.dropped (begun.unfreed (by decide) free)
  list := by rw [← account.list,begun.lists.resolve_left (by decide)]
  inside := begun.lists.resolve_left (by decide) ▸ account.inside
  others q other := by rw [account.others q other,begun.lists.resolve_left (by decide)]
  evicts some := by
    have same : m.store = w.store := (Touches.effect (begun.mono (by simp)) db).store
    exact same ▸ account.evicts some

theorem keeping_account {w m : World} (keeping : Keeping db body m w') (store : m.store = w.store)
    (handed : handedOver w'.trace = handedOver w.trace ++ [(db,body)])
    (delivered : delivered m.trace = delivered w.trace)
    (books : ∀ q, enqueued q m.trace = enqueued q w.trace ∧ dequeued q m.trace = dequeued q w.trace)
    (free : unfreed w.trace = [] → unfreed m.trace = []) : Account db w w' [] [body] [] (w.store.oldest db) where
  handed := by simpa using handed
  delivered := by rw [keeping.delivered,delivered,List.map_nil,List.append_nil,List.append_nil]
  enqueued q := by rw [keeping.enqueued,(books q).1]
  dequeued q := by rw [keeping.dequeued,(books q).2,store,List.nil_append]
  dropped none := by rw [keeping.unfreed (free none),store]
  list := by
    rw [keeping.left,Function.update_self,store,List.nil_append,← List.append_assoc,← oldest_evicted]
    rfl
  inside := List.nil_prefix
  others q other := by
    rw [keeping.left,Function.update_of_ne other]
    exact congrFun (congrArg Store.storage store) q
  evicts some := by
    refine ⟨?_,List.cons_ne_nil _ _⟩
    by_contra room
    exact some (if_neg room)

theorem publishEvent_account (ran : Ends (publishEvent ctx event keyname) w u w') :
    ∃ direct kept gone lost, Account ctx.db w w' direct kept gone lost := by
  have hands := publishEvent_hands ran
  have ways := publishEvent_ways ran
  generalize messageString ctx.db event keyname = message at ways hands
  have entered : Touches [.events] w (w.entered ctx.db message) := .called (.publishEvent ctx.db message) (by simp) w
  have store {m : World} (tried : Touches [.session,.publishes] (w.entered ctx.db message) m) : m.store = w.store := by
    simp only [World.store,tried.lists.resolve_left (by decide),tried.count.resolve_left (by decide),
      tried.settings.resolve_left (by decide),World.entered]
  have books {m : World} (tried : Touches [.session,.publishes] (w.entered ctx.db message) m) (q : Int32) :
      enqueued q m.trace = enqueued q w.trace ∧ dequeued q m.trace = dequeued q w.trace :=
    ⟨(tried.enqueued (by decide) q).trans (entered.enqueued (by decide) q),
      (tried.dequeued (by decide) q).trans (entered.dequeued (by decide) q)⟩
  have free {m : World} (tried : Touches [.session,.publishes] (w.entered ctx.db message) m) :
      unfreed w.trace = [] → unfreed m.trace = [] := fun none => tried.unfreed (by decide) (entered.unfreed (by decide) none)
  rcases ways with ⟨_,res,m,published,ran⟩ | ⟨_,pushed⟩
  · obtain ⟨tried,sent⟩ := amqpPublish_sends published
    rw [entered.delivered (by decide)] at sent
    rcases ran with ⟨bad,pushed⟩ | ⟨ok,_,drained⟩
    · rw [if_neg bad,List.append_nil] at sent
      exact ⟨_,_,_,_,keeping_account (pushEventToStorage_keeping pushed) (store tried) hands sent (books tried) (free tried)⟩
    · rw [if_pos ok] at sent
      obtain ⟨gone,serves⟩ := publishStoredEvents_serves drained
      have listed : m.storage = w.storage := congrArg Store.storage (store tried)
      refine ⟨[message.bytes],[],gone,[],?_,?_,?_,?_,?_,?_,?_,?_,fun none => absurd rfl none⟩
      · exact hands
      · rw [serves.delivered,sent,List.append_assoc]
      · intro q
        rw [serves.enqueued,(books tried q).1,ite_self,List.append_nil]
      · intro q
        rw [serves.dequeued,(books tried q).2,List.append_nil]
      · intro none
        rw [serves.unfreed (free tried none)]
        rfl
      · rw [← listed,serves.list,List.append_nil,List.append_nil]
      · exact listed ▸ ⟨_,serves.list.symm⟩
      · intro q other
        rw [serves.others q other,listed]
  · have tried : Touches [.session,.publishes] (w.entered ctx.db message) (w.entered ctx.db message) := .refl _
    exact ⟨_,_,_,_,keeping_account (pushEventToStorage_keeping pushed) (store tried) hands (entered.delivered (by decide))
      (books tried) (free tried)⟩

def Callback.hands (w : World) : Callback → List (Int32 × Bytes)
  | .keyspaceEvent ctx _ event key =>
    if Takes w ctx key then [(ctx.db,(messageString ctx.db event (cstr key)).bytes)] else []
  | _ => []

theorem step_account (taken : step w turn = some w') : handedOver w'.trace = turn.callback.hands w ∧
    ∃ direct kept gone lost, Account turn.callback.ctx.db (w.given turn.script) w' direct kept gone lost := by
  have happens := step_happens taken
  obtain ⟨callback,script⟩ := turn
  cases happens with
  | @event ctx type event key res _ ran =>
    rcases onKeyspaceEvent_ways ran with ⟨takes,m,_,begun,published⟩ | ⟨ignores,begun⟩
    · obtain ⟨direct,kept,gone,lost,account⟩ := publishEvent_account published
      refine ⟨?_,direct,kept,gone,lost,account.after begun⟩
      have takes : Takes w ctx key := takes
      rw [publishEvent_hands published,begun.handedOver (by decide),Callback.hands,if_pos takes]
      rfl
    · have ignores : ¬ Takes w ctx key := ignores
      refine ⟨?_,_,_,_,_,begun.account (by decide) (by decide) (by decide) ctx.db⟩
      rw [begun.handedOver (by decide),Callback.hands,if_neg ignores]
      rfl
  | @timer fired flags _ ran =>
    obtain ⟨gone,serves⟩ := fireTimer_serves ran
    have handed : handedOver w'.trace = [] := (timer_books ran).1
    exact ⟨handed,_,_,_,_,serves.account handed⟩
  | carried command argv known before ran after =>
    have touched := carried_touches command before ran after
    refine ⟨?_,_,_,_,_,touched.account (by decide) (by decide) (by decide) _⟩
    rw [touched.handedOver (by decide)]
    cases callback with
    | keyspaceEvent ctx type event key => cases known
    | _ => rfl
  | ignored unknown aside =>
    refine ⟨aside.touches.handedOver (by decide),_,_,_,_,aside.touches.account (by decide) (by decide) (by decide) _⟩

def takenIn (q : Int32) (steps : List Step) : List Bytes :=
  ((steps.flatMap fun s => s.label.callback.hands s.before).filter fun given => given.1 = q).map Prod.snd

def stepsIn (q : Int32) (steps : List Step) : List Step := steps.filter fun s => s.label.callback.ctx.db = q

def deliveredIn (q : Int32) (steps : List Step) : List Bytes := (stepsIn q steps).flatMap fun s => delivered s.after.trace
def droppedIn (q : Int32) (steps : List Step) : List Bytes :=
  (stepsIn q steps).flatMap fun s => (unfreed s.after.trace).map RedisString.bytes

def enqueuedIn (q : Int32) (steps : List Step) : List Bytes := steps.flatMap fun s => enqueued q s.after.trace
def dequeuedIn (q : Int32) (steps : List Step) : List Bytes := steps.flatMap fun s => dequeued q s.after.trace

theorem takenIn_snoc (q : Int32) (steps : List Step) (s : Step) : takenIn q (steps ++ [s]) = takenIn q steps ++ takenIn q [s] := by
  simp [takenIn]

theorem deliveredIn_snoc (q : Int32) (steps : List Step) (s : Step) :
    deliveredIn q (steps ++ [s]) = deliveredIn q steps ++ deliveredIn q [s] := by
  simp [deliveredIn,stepsIn]

theorem droppedIn_snoc (q : Int32) (steps : List Step) (s : Step) :
    droppedIn q (steps ++ [s]) = droppedIn q steps ++ droppedIn q [s] := by
  simp [droppedIn,stepsIn]

theorem enqueuedIn_snoc (q : Int32) (steps : List Step) (s : Step) :
    enqueuedIn q (steps ++ [s]) = enqueuedIn q steps ++ enqueued q s.after.trace := by
  simp [enqueuedIn]

theorem dequeuedIn_snoc (q : Int32) (steps : List Step) (s : Step) :
    dequeuedIn q (steps ++ [s]) = dequeuedIn q steps ++ dequeued q s.after.trace := by
  simp [dequeuedIn]

theorem step_queues {s : Step} (taken : step s.before s.label = some s.after) (q : Int32) :
    s.before.storage q ++ enqueued q s.after.trace = dequeued q s.after.trace ++ s.after.storage q := by
  obtain ⟨_,direct,kept,gone,lost,account⟩ := step_account taken
  have entered : enqueued q s.after.trace = if q = s.label.callback.ctx.db then kept else [] := account.enqueued q
  have left : dequeued q s.after.trace = if q = s.label.callback.ctx.db then gone ++ lost else [] := account.dequeued q
  rw [entered,left]
  by_cases here : q = s.label.callback.ctx.db
  · subst here
    rw [if_pos rfl,if_pos rfl]
    exact account.list
  · have other : s.after.storage q = s.before.storage q := account.others q here
    rw [if_neg here,if_neg here,other,List.append_nil,List.nil_append]

-- Over any run, whatever the sizes set and whatever the counter and the broker say, each
-- fallback list is a queue: what has been popped off it and what is in it is what was in it
-- and what has been pushed onto it, in one order.
theorem lists_are_queues (run : Run start steps last) (q : Int32) :
    start.storage q ++ enqueuedIn q steps = dequeuedIn q steps ++ last.storage q := by
  refine run.carry (fun done w => start.storage q ++ enqueuedIn q done = dequeuedIn q done ++ w.storage q)
    (fun _ => True) (by simp [enqueuedIn,dequeuedIn]) ?_ fun _ _ => trivial
  intro done s _ taken _ old
  rw [enqueuedIn_snoc,dequeuedIn_snoc,← List.append_assoc,old,List.append_assoc,step_queues taken,List.append_assoc]

def squeezed : List Turn := [expired 0 "a" (connects ++ refuses),told .fallbackStorageSizeSet ["1"] [],expired 0 "b" refuses,
  ⟨.timer ⟨3,0⟩ REDISMODULE_CTX_FLAGS_MASTER,loses ++ connects ++ accepts⟩]

theorem lists_are_queues_eviction : ∃ start steps last, Run start steps last ∧
    (enqueuedIn 0 steps).length = 2 ∧ (dequeuedIn 0 steps).length = 2 ∧
    start.storage 0 ++ enqueuedIn 0 steps = dequeuedIn 0 steps ++ last.storage 0 := by
  obtain ⟨start,steps,last,_,run,seen⟩ := played_run (master 0) (allKeys "1") (fun _ => []) squeezed
    (fun _ steps _ => decide ((enqueuedIn 0 steps).length = 2 ∧ (dequeuedIn 0 steps).length = 2)) (by decide +kernel)
  obtain ⟨two,out⟩ := of_decide_eq_true seen
  exact ⟨start,steps,last,run,two,out,lists_are_queues run 0⟩

theorem step_balance {s : Step} (taken : step s.before s.label = some s.after) (clean : Clean s.before.storage) (q : Int32) :
    ((takenIn q [s] : Multiset Bytes) + (s.before.storage q : Multiset Bytes) =
      (deliveredIn q [s] : Multiset Bytes) + (droppedIn q [s] : Multiset Bytes) + (s.after.storage q : Multiset Bytes)) ∧
    (unfreed s.after.trace ≠ [] → s.before.store.Full) := by
  obtain ⟨hands,direct,kept,gone,lost,account⟩ := step_account taken
  have dropped : (unfreed s.after.trace).map RedisString.bytes = lost := account.dropped rfl
  have handed : s.label.callback.hands s.before = (direct ++ kept).map fun body => (s.label.callback.ctx.db,body) :=
    hands.symm.trans account.handed
  have sent : delivered s.after.trace = direct ++ gone.map resent := account.delivered
  have list : s.before.storage s.label.callback.ctx.db ++ kept =
      gone ++ lost ++ s.after.storage s.label.callback.ctx.db := account.list
  refine ⟨?_,fun some => (account.evicts ?_).1⟩
  · by_cases here : q = s.label.callback.ctx.db
    · subst here
      -- what a list holds reaches the broker as it is
      have whole : gone.map resent = gone := by
        refine (List.map_congr_left fun bytes member => ?_).trans (List.map_id _)
        exact cstr_bytes bytes (clean s.label.callback.ctx.db bytes (account.inside.subset member))
      have mine : stepsIn s.label.callback.ctx.db [s] = [s] := by simp [stepsIn]
      have mineOnly : ((direct ++ kept).map fun body => (s.label.callback.ctx.db,body)).filter
          (fun given => given.1 = s.label.callback.ctx.db) = (direct ++ kept).map fun body => (s.label.callback.ctx.db,body) := by
        refine List.filter_eq_self.mpr fun given member => ?_
        obtain ⟨_,_,rfl⟩ := List.mem_map.mp member
        exact decide_eq_true rfl
      have balance := congrArg (fun l : List Bytes => (l : Multiset Bytes)) list
      simp only [← Multiset.coe_add] at balance
      simp only [takenIn,deliveredIn,droppedIn,mine,List.flatMap_singleton,handed,sent,dropped,whole,mineOnly,List.map_map,
        Function.comp_def,List.map_id',← Multiset.coe_add]
      calc (direct : Multiset Bytes) + kept + s.before.storage s.label.callback.ctx.db
          = direct + (s.before.storage s.label.callback.ctx.db + kept) := by abel
        _ = _ := by rw [balance]; abel
    · have other : s.after.storage q = s.before.storage q := account.others q here
      have foreign : stepsIn q [s] = [] := by simp [stepsIn,Ne.symm here]
      have none : takenIn q [s] = [] := by
        rw [takenIn,List.flatMap_singleton,handed]
        simp [List.filter_eq_nil_iff,Ne.symm here]
      rw [none,deliveredIn,droppedIn,foreign,other]
      rfl
  · rintro rfl
    exact some (List.map_eq_nil_iff.mp dropped)

-- Over any run just the events taken are handed over, and each of them, and each that was
-- stored to begin with, has been delivered, or dropped with the storage taken to be full, or
-- is stored: once, and in its own database.
theorem every_event_accounted (run : Run start steps last) (clean : Clean start.storage) :
    handedOver (calls steps) = (steps.flatMap fun s => s.label.callback.hands s.before) ∧
    (∀ q, (takenIn q steps : Multiset Bytes) + (start.storage q : Multiset Bytes) =
      (deliveredIn q steps : Multiset Bytes) + (droppedIn q steps : Multiset Bytes) + (last.storage q : Multiset Bytes)) ∧
    ∀ s ∈ steps, unfreed s.after.trace ≠ [] → s.before.store.Full := by
  have cleans := clean_run run clean
  refine ⟨?_,fun q => ?_,fun s member => (step_balance (run.edge_taken member) (cleans s member).1 0).2⟩
  · refine run.carry (fun done _ => handedOver (calls done) = done.flatMap fun s => s.label.callback.hands s.before)
      (fun _ => True) rfl ?_ fun _ _ => trivial
    intro done s _ taken _ old
    rw [calls_snoc,handedOver_append,old,(step_account taken).1,List.flatMap_append,List.flatMap_singleton]
  · refine run.carry (fun done w => (takenIn q done : Multiset Bytes) + (start.storage q : Multiset Bytes) =
      (deliveredIn q done : Multiset Bytes) + (droppedIn q done : Multiset Bytes) + (w.storage q : Multiset Bytes))
      (fun s => Clean s.before.storage) (by simp [takenIn,deliveredIn,droppedIn,stepsIn]) ?_ fun s member => (cleans s member).1
    intro done s _ taken clean old
    have balance := (step_balance taken clean q).1
    rw [takenIn_snoc,deliveredIn_snoc,droppedIn_snoc,← Multiset.coe_add,← Multiset.coe_add,← Multiset.coe_add]
    calc (takenIn q done : Multiset Bytes) + takenIn q [s] + start.storage q
        = (takenIn q done + start.storage q) + takenIn q [s] := by abel
      _ = deliveredIn q done + droppedIn q done + (takenIn q [s] + s.before.storage q) := by rw [old]; abel
      _ = _ := by rw [balance]; abel

theorem every_event_accounted_eviction : ∃ start steps last, Run start steps last ∧
    (deliveredIn 0 steps).length = 1 ∧ (droppedIn 0 steps).length = 1 ∧
    (takenIn 0 steps : Multiset Bytes) + (start.storage 0 : Multiset Bytes) =
      (deliveredIn 0 steps : Multiset Bytes) + (droppedIn 0 steps : Multiset Bytes) + (last.storage 0 : Multiset Bytes) := by
  obtain ⟨start,steps,last,loaded,run,seen⟩ := played_run (master 0) (allKeys "1") (fun _ => []) squeezed
    (fun _ steps _ => decide ((deliveredIn 0 steps).length = 1 ∧ (droppedIn 0 steps).length = 1)) (by decide +kernel)
  obtain ⟨one,two⟩ := of_decide_eq_true seen
  have empty := (loaded_store loaded).1
  have clean : Clean start.storage := by
    intro db bytes member
    rw [empty] at member
    cases member
  exact ⟨start,steps,last,run,one,two,(every_event_accounted run clean).2.1 0⟩

end KeyspaceAmqp
