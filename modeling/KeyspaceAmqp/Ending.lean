import KeyspaceAmqp.Attempts
import KeyspaceAmqp.FrameWait
import KeyspaceAmqp.Library.Supply

namespace KeyspaceAmqp
open Programs

-- A frame wait: what is in its variable at first, and the results the library would give,
-- which may have no end or stop coming.
structure Wait where
  frame : Frame
  results : Stream'.Seq (Int32 × Option Frame)

def Wait.answers (wait : Wait) (n : Nat) : List Answer := (wait.results.take n).map fun result => .waited result.1 result.2

def Wait.Returns (wait : Wait) (res : Int32) : Prop :=
  ∃ n made, waitLoop none (wait.answers n) wait.frame [] = some (res,[],made)

def Wait.Ends (wait : Wait) : Prop := ∃ res, wait.Returns res

structure Broker where
  waits : Nat → Wait
  sockets : Nat → Bool
  statuses : Nat → Int32
  replies : Nat → Int32

def Broker.later (answers : Nat → α) : Nat → α := fun n => answers (n+1)

inductive Broker.Gives : Broker → List Answer → Broker → Prop where
  | nothing : Gives broker [] broker
  | wait (n : Nat) (rest : Gives {broker with waits := Broker.later broker.waits} answers left) :
      Gives broker (.garbage (broker.waits 0).frame :: ((broker.waits 0).answers n ++ answers)) left
  | socket (rest : Gives {broker with sockets := Broker.later broker.sockets} answers left) :
      Gives broker (.socket (broker.sockets 0) :: answers) left
  | status (rest : Gives {broker with statuses := Broker.later broker.statuses} answers left) :
      Gives broker (.status (broker.statuses 0) :: answers) left
  | rpc (rest : Gives {broker with replies := Broker.later broker.replies} answers left) :
      Gives broker (.rpc (broker.replies 0) :: answers) left

@[reducible] def World.asked (script : List Answer) (w : World) : World := {w with script := script}

@[reducible] def brokers : Supply World Answer Broker where
  load := World.asked
  Gives := Broker.Gives
  nothing := .nothing
  append given more := by
    induction given with
    | nothing => exact more
    | wait n _ ih => rw [List.cons_append,List.append_assoc]; exact .wait n (ih more)
    | socket _ ih => exact .socket (ih more)
    | status _ ih => exact .status (ih more)
    | rpc _ ih => exact .rpc (ih more)

theorem Wait.Returns.unique {wait : Wait} (one : wait.Returns first) (two : wait.Returns second) : first = second := by
  have below {n m : Nat} (less : n ≤ m) : ∃ more, wait.answers m = wait.answers n ++ more := by
    induction m, less using Nat.le_induction with
    | base => exact ⟨[],(List.append_nil _).symm⟩
    | succ m _ ih =>
      obtain ⟨more,same⟩ := ih
      cases here : wait.results.get? m with
      | none => exact ⟨more,by rw [← same,Wait.answers,Wait.answers,take_ended here]⟩
      | some result => exact ⟨more ++ [_],by rw [← List.append_assoc,← same,Wait.answers,Wait.answers,take_snoc here,List.map_append]; rfl⟩
  have agree {n m : Nat} {res res' : Int32} {made made' : List Call} (less : n ≤ m)
      (one : waitLoop none (wait.answers n) wait.frame [] = some (res,[],made))
      (two : waitLoop none (wait.answers m) wait.frame [] = some (res',[],made')) : res = res' := by
    obtain ⟨more,same⟩ := below less
    obtain ⟨_,_,_,alike⟩ := waitLoop_says one
    rw [same,alike] at two
    cases two
    rfl
  obtain ⟨n,_,one⟩ := one
  obtain ⟨m,_,two⟩ := two
  rcases Nat.le_total n m with less | more
  · exact agree less one two
  · exact (agree more two one).symm

theorem waitLoop_foreign (foreign : ∀ status written more, rest ≠ .waited status written :: more) :
    waitLoop conn rest frame earlier = none := by
  cases rest with
  | nil => rfl
  | cons a more =>
    cases a with
    | waited status written => exact absurd rfl (foreign status written more)
    | _ => rfl

theorem waitLoop_given {results : Stream'.Seq (Int32 × Option Frame)}
    (ran : waitLoop conn ((results.take n).map (fun result => Answer.waited result.1 result.2) ++ rest) frame earlier =
      some (res,left,made)) (foreign : ∀ status written more, rest ≠ .waited status written :: more) :
    Wait.Returns ⟨frame,results⟩ res ∧ (left = rest ∨ ∃ status written more, left = .waited status written :: more) := by
  induction n generalizing results frame earlier with
  | zero =>
    rw [Stream'.Seq.take_zero,List.map_nil,List.nil_append,waitLoop_foreign foreign] at ran
    cases ran
  | succ n ih =>
    cases results with
    | nil =>
      rw [Stream'.Seq.take_nil,List.map_nil,List.nil_append,waitLoop_foreign foreign] at ran
      cases ran
    | cons result results =>
      obtain ⟨status,written⟩ := result
      rw [Stream'.Seq.take_succ_cons,List.map_cons,List.cons_append] at ran
      by_cases on : GoesOn status (written.getD frame)
      · rw [waitLoop_on on] at ran
        obtain ⟨⟨m,made,looped⟩,after⟩ := ih ran
        obtain ⟨said,_,_,alike⟩ := waitLoop_says looped
        have more := alike none [] [.amqp none (.simpleWaitFrameNoblock status)]
        rw [List.append_nil] at more
        refine ⟨⟨m+1,[.amqp none (.simpleWaitFrameNoblock status)] ++ said.map (.amqp none),?_⟩,after⟩
        rw [Wait.answers,Stream'.Seq.take_succ_cons,List.map_cons,waitLoop_on on]
        exact more
      · obtain ⟨said,_,alike⟩ := waitLoop_off on
        rw [alike] at ran
        cases ran
        refine ⟨⟨1,_,alike none [] []⟩,?_⟩
        cases n with
        | zero => exact .inl rfl
        | succ n =>
          cases results with
          | nil => exact .inl rfl
          | cons next results => exact .inr ⟨next.1,next.2,_,by rw [Stream'.Seq.take_succ_cons]; rfl⟩

theorem gives_nothing {broker : Broker} (given : broker.Gives [] left) : left = broker := by
  cases given
  rfl

theorem gives_foreign {broker : Broker} (given : broker.Gives answers left) (status : Int32) (written : Option Frame)
    (more : List Answer) : answers ≠ .waited status written :: more := by
  cases given <;> simp

-- The answers still to come are the library's from here on, unless a wait left some of its.
def Broker.Follows (broker : Broker) (answers : List Answer) (left : Broker) : Prop :=
  broker.Gives answers left ∨ ∃ status written more, answers = .waited status written :: more

section Following
variable {broker left : Broker}

theorem Broker.Follows.socket (follows : broker.Follows (.socket null :: answers) left) :
    broker.sockets 0 = null ∧ Broker.Follows {broker with sockets := Broker.later broker.sockets} answers left := by
  rcases follows with given | ⟨_,_,_,impossible⟩
  · cases given with
    | socket rest => exact ⟨rfl,.inl rest⟩
  · cases impossible

theorem Broker.Follows.status (follows : broker.Follows (.status code :: answers) left) :
    broker.statuses 0 = code ∧ Broker.Follows {broker with statuses := Broker.later broker.statuses} answers left := by
  rcases follows with given | ⟨_,_,_,impossible⟩
  · cases given with
    | status rest => exact ⟨rfl,.inl rest⟩
  · cases impossible

theorem Broker.Follows.rpc (follows : broker.Follows (.rpc reply :: answers) left) :
    broker.replies 0 = reply ∧ Broker.Follows {broker with replies := Broker.later broker.replies} answers left := by
  rcases follows with given | ⟨_,_,_,impossible⟩
  · cases given with
    | rpc rest => exact ⟨rfl,.inl rest⟩
  · cases impossible

theorem amqpWaitFrame_follows (ran : Ends amqpWaitFrame w res w') (follows : broker.Follows w.script left) :
    (broker.waits 0).Returns res ∧ Broker.Follows {broker with waits := Broker.later broker.waits} w'.script left := by
  obtain ⟨frame,script,after,made,asked,looped,rfl⟩ := amqpWaitFrame_parts.mp ran
  rw [asked] at follows
  rcases follows with given | ⟨_,_,_,impossible⟩
  · cases given with
    | wait n rest =>
      obtain ⟨returned,rfl | waited⟩ := waitLoop_given looped (gives_foreign rest)
      · exact ⟨returned,.inl rest⟩
      · exact ⟨returned,.inr waited⟩
  · cases impossible

def Broker.tried (broker : Broker) : Broker :=
  {broker with waits := Broker.later broker.waits,statuses := Broker.later broker.statuses}

theorem amqpPublish_follows (ran : Ends (amqpPublish body) w res w') (live : w.conn ≠ none)
    (follows : broker.Follows w.script left) : (broker.waits 0).Ends ∧
      (res = AMQP_STATUS_OK ↔ (broker.waits 0).Returns AMQP_STATUS_OK ∧ broker.statuses 0 = AMQP_STATUS_OK) ∧
      (res = AMQP_STATUS_OK → w'.conn ≠ none ∧ broker.tried.Follows w'.script left) := by
  simp only [amqpPublish,ends_bind,ends_get,ends_ite,ends_pure] at ran
  obtain ⟨_,_,⟨rfl,rfl⟩,⟨_,status,m,waited,ran⟩ | ⟨closed,_⟩⟩ := ran
  · obtain ⟨returned,after⟩ := amqpWaitFrame_follows waited follows
    refine ⟨⟨status,returned⟩,?_⟩
    rcases ran with ⟨bad,_,_,_,rfl,_⟩ | ⟨fine,asked⟩
    · exact ⟨iff_of_false (by decide) fun fine => bad (returned.unique fine.1),fun fine => by cases fine⟩
    · cases not_not.mp fine
      obtain ⟨a,rest,script,picked,rfl⟩ := ends_askAmqp.mp asked
      cases status_answer picked
      rw [script] at after
      obtain ⟨rfl,spent⟩ := after.status
      exact ⟨⟨fun ok => ⟨returned,ok⟩,And.right⟩,fun _ => ⟨(amqpWaitFrame_wire waited).2 ▸ live,spent⟩⟩
  · exact absurd live closed

end Following

-- Each of the waits comes to an end that publishing this many bodies one after the other
-- comes to, until one cannot be published.
def Broker.Lasts : Nat → Broker → Prop
  | 0,_ => True
  | n+1,broker => (broker.waits 0).Ends ∧
    ((broker.waits 0).Returns AMQP_STATUS_OK → broker.statuses 0 = AMQP_STATUS_OK → Lasts n broker.tried)

theorem Rounds.lasts {broker : Broker} (rounds : Rounds key w res w') (live : w.conn ≠ none)
    (follows : broker.Follows w.script left) : broker.Lasts (w.storage key.db).length := by
  induction rounds generalizing broker with
  | empty list => rw [list]; trivial
  | @refused status w m bytes rest list tried bad =>
    obtain ⟨ended,success,_⟩ := amqpPublish_follows tried live follows
    rw [list]
    exact ⟨ended,fun heard fine => absurd (success.mpr ⟨heard,fine⟩) bad⟩
  | @sent res w m w' bytes rest list tried _ ih =>
    obtain ⟨ended,_,after⟩ := amqpPublish_follows tried live follows
    obtain ⟨live,follows⟩ := after rfl
    have left : m.storage = Function.update w.storage key.db rest := (amqpPublish_tried tried).1
    have later := ih live follows
    rw [World.counted,left,Function.update_self] at later
    rw [list]
    exact ⟨ended,fun _ _ => later⟩

theorem publishStoredEvents_lasts {broker : Broker} (ran : Ends (publishStoredEvents ctx) w res w') (live : w.conn ≠ none)
    (follows : broker.Follows w.script left) : broker.Lasts (w.storage ctx.db).length := by
  obtain ⟨key,m,db,_,rounds,_⟩ := publishStoredEvents_parts ran
  exact db ▸ rounds.lasts live follows

theorem publishEvent_lasts {broker : Broker} (ran : Ends (publishEvent ctx event keyname) w u w') (live : w.conn ≠ none)
    (follows : broker.Follows w.script left) : broker.Lasts ((w.storage ctx.db).length+1) := by
  rcases publishEvent_ways ran with ⟨_,res,m,tried,ran⟩ | ⟨closed,_⟩
  · obtain ⟨ended,success,after⟩ := amqpPublish_follows tried live follows
    refine ⟨ended,fun heard fine => ?_⟩
    have ok := success.mpr ⟨heard,fine⟩
    rcases ran with ⟨bad,_⟩ | ⟨_,_,drained⟩
    · exact absurd ok bad
    · obtain ⟨live,follows⟩ := after ok
      have same : m.storage = w.storage := (amqpPublish_tried tried).1
      exact same ▸ publishStoredEvents_lasts drained live follows
  · exact absurd closed live

inductive Broker.Connects (broker : Broker) : Broker → Prop where
  | unopened (null : broker.sockets 0 = true) : Connects broker {broker with sockets := Broker.later broker.sockets}
  | opened (made : broker.sockets 0 = false) (reached : broker.statuses 0 = 0)
      (authorised : broker.replies 0 = AMQP_RESPONSE_NORMAL) (granted : broker.replies 1 = AMQP_RESPONSE_NORMAL) :
      Connects broker {broker with
        sockets := Broker.later broker.sockets
        statuses := Broker.later broker.statuses
        replies := Broker.later (Broker.later broker.replies)}

theorem Broker.Connects.unique {broker : Broker} (one : broker.Connects first) (two : broker.Connects second) : first = second := by
  cases one with
  | unopened null =>
    cases two with
    | unopened => rfl
    | opened made => cases null.symm.trans made
  | opened made =>
    cases two with
    | unopened null => cases made.symm.trans null
    | opened => rfl

theorem Attempt.connects {broker : Broker} (attempt : Attempt s answers said res) (follows : broker.Follows (answers ++ rest) left) :
    ((res = REDIS_AMQP_OK ∨ res = REDIS_AMQP_SOCKET_ERR) ∧ ∃ after, broker.Connects after ∧ after.Follows rest left) ∨
    (¬ (res = REDIS_AMQP_OK ∨ res = REDIS_AMQP_SOCKET_ERR) ∧ ∀ after, ¬ broker.Connects after) := by
  cases attempt with
  | socket =>
    obtain ⟨null,follows⟩ := Broker.Follows.socket follows
    exact .inl ⟨.inr rfl,_,.unopened null,follows⟩
  | connection failed =>
    obtain ⟨made,follows⟩ := Broker.Follows.socket follows
    obtain ⟨status,_⟩ := Broker.Follows.status follows
    refine .inr ⟨by decide,fun after connects => ?_⟩
    cases connects with
    | unopened null => cases made.symm.trans null
    | opened _ reached => exact failed (status.symm.trans reached)
  | auth failed =>
    obtain ⟨made,follows⟩ := Broker.Follows.socket follows
    obtain ⟨_,follows⟩ := Broker.Follows.status follows
    obtain ⟨reply,_⟩ := Broker.Follows.rpc follows
    refine .inr ⟨by decide,fun after connects => ?_⟩
    cases connects with
    | unopened null => cases made.symm.trans null
    | opened _ _ authorised => exact failed (reply.symm.trans authorised)
  | channel failed =>
    obtain ⟨made,follows⟩ := Broker.Follows.socket follows
    obtain ⟨_,follows⟩ := Broker.Follows.status follows
    obtain ⟨_,follows⟩ := Broker.Follows.rpc follows
    obtain ⟨reply,_⟩ := Broker.Follows.rpc follows
    refine .inr ⟨by decide,fun after connects => ?_⟩
    cases connects with
    | unopened null => cases made.symm.trans null
    | opened _ _ _ granted => exact failed (reply.symm.trans granted)
  | opened =>
    obtain ⟨made,follows⟩ := Broker.Follows.socket follows
    obtain ⟨reached,follows⟩ := Broker.Follows.status follows
    obtain ⟨authorised,follows⟩ := Broker.Follows.rpc follows
    obtain ⟨granted,follows⟩ := Broker.Follows.rpc follows
    exact .inl ⟨.inl rfl,_,.opened made reached authorised granted,follows⟩

-- The waits that an event comes to, where it is taken: as many as it and what is stored in
-- its database ask for, on the connection there is or the one it makes.
def WaitsEnd (w : World) (ctx : Ctx) (key : Bytes) (broker : Broker) : Prop := Takes w ctx key →
  (w.conn ≠ none → broker.Lasts ((w.storage ctx.db).length+1)) ∧
  (w.conn = none → w.heardBeatTimerId = 0 → ∀ after, broker.Connects after → after.Lasts ((w.storage ctx.db).length+1))

theorem onKeyspaceEvent_lasts {broker : Broker} (ran : Ends (onKeyspaceEvent ctx type event key) w res w')
    (follows : broker.Follows w.script left) : WaitsEnd w ctx key broker := by
  intro takes
  rcases onKeyspaceEvent_ways ran with ⟨_,m,first,begun,published⟩ | ⟨ignores,_⟩
  · have same : m.storage = w.storage := begun.lists.resolve_left (by decide)
    rw [← same]
    refine ⟨fun live => ?_,fun closed zero after connects => ?_⟩
    · rcases firstEvent_parts first with ⟨_,rfl⟩ | ⟨_,_,n,connected,rfl⟩
      · exact publishEvent_lasts published live follows
      · rcases amqpConnect_parts connected with ⟨_,_,rfl⟩ | ⟨closed,_⟩
        · exact publishEvent_lasts published live follows
        · exact absurd closed live
    · rcases firstEvent_parts first with ⟨set,_⟩ | ⟨_,_,n,connected,rfl⟩
      · exact absurd zero set
      · rcases amqpConnect_parts connected with ⟨live,_⟩ | ⟨_,answers,said,rest,attempt,script,outcome⟩
        · exact absurd closed live
        rw [script] at follows
        rcases attempt.connects follows with ⟨stays,_,connects',follows⟩ | ⟨_,lost⟩
        · cases connects'.unique connects
          rw [if_pos stays] at outcome
          subst outcome
          exact publishEvent_lasts published (Option.some_ne_none _) follows
        · exact absurd connects (lost after)
  · exact absurd takes ignores

section Feeding
set_option synthInstance.maxSize 100000

instance : Feeds brokers (emit c) := by unfold emit; infer_instance
instance : Feeds brokers (callAmqp c) := by unfold callAmqp; infer_instance
instance : Feeds brokers newHandle where
  served w broker := ⟨[],broker,w.handles+1,{w with handles := w.handles+1},.nothing,fun _ => ends_newHandle.mpr ⟨rfl,rfl⟩⟩

theorem feeds_ask {pick : Answer → Option α} {call : α → AmqpCall} (answers : Broker → Answer)
    (given : ∀ broker, ∃ value left, pick (answers broker) = some value ∧ broker.Gives [answers broker] left) :
    Feeds brokers (askAmqp pick call) where
  served w broker := by
    obtain ⟨value,left,picked,given⟩ := given broker
    exact ⟨[answers broker],left,value,{w with trace := w.trace ++ [.amqp w.conn (call value)]},given,
      fun rest => ends_askAmqp.mpr ⟨_,_,rfl,picked,rfl⟩⟩

instance : Feeds brokers (askAmqp Answer.socket? call) :=
  feeds_ask (fun broker => .socket (broker.sockets 0)) fun _ => ⟨_,_,rfl,.socket .nothing⟩
instance : Feeds brokers (askAmqp Answer.status? call) :=
  feeds_ask (fun broker => .status (broker.statuses 0)) fun _ => ⟨_,_,rfl,.status .nothing⟩
instance : Feeds brokers (askAmqp Answer.rpc? call) :=
  feeds_ask (fun broker => .rpc (broker.replies 0)) fun _ => ⟨_,_,rfl,.rpc .nothing⟩

instance : Feeds brokers amqpDisconnect := by unfold amqpDisconnect; infer_instance
instance : Feeds brokers amqpConnect := by
  unfold amqpConnect amqpTcpSocketNew amqpSocketOpen amqpLogin amqpGetRpcReply
  dsimp only
  infer_instance
instance : Feeds brokers (openKey ctx mode) := by unfold openKey; infer_instance
instance : Feeds brokers (closeKey key) := by cases key <;> (unfold closeKey; infer_instance)
instance : Feeds brokers (valueLength key) := by cases key <;> (unfold valueLength; infer_instance)
instance : Feeds brokers (deleteKey (some key)) := by unfold deleteKey; infer_instance
instance : Feeds brokers (listPush place string (some key)) := by unfold listPush; infer_instance
instance : Feeds brokers (listPopHead (some key)) := by
  have (w : World) : Feeds brokers (match key.mode,w.storage key.db with
    | .readWrite,bytes :: rest => (do
      let id ← newHandle
      emit (.listPop key (some ⟨id,bytes⟩))
      modify fun w => {w with storage := Function.update w.storage key.db rest}
      pure (some ⟨id,bytes⟩) : Act (Option RedisString))
    | _,_ => do
      emit (.listPop key none)
      pure none) := by
    split <;> infer_instance
  unfold listPopHead
  infer_instance
instance : Feeds brokers (createString bytes) := by unfold createString; infer_instance
instance : Feeds brokers (stringPtrLen string) := by unfold stringPtrLen; infer_instance
instance : Feeds brokers (freeString string) := by unfold freeString; infer_instance
instance : Feeds brokers (createTimer ctx) := by unfold createTimer; infer_instance
instance : Feeds brokers (evictOldest (some key)) := by unfold evictOldest; infer_instance
instance : Feeds brokers (firstEvent ctx) := by unfold firstEvent; infer_instance

instance : Feeds brokers (pushEventToStorage ctx message) where
  served w broker := by
    refine served_get (fun _ => rfl) ?_
    split
    · exact served_pure _ _ _
    refine (Feeds.served _ _).bind fun _ key m _ _ opened => ?_
    obtain ⟨rfl,_⟩ := openKey_readWrite.mp (opened [])
    exact Feeds.served _ _

instance : Feeds brokers (setupFallbackStorage ctx) where
  served w broker := by
    refine served_get (fun _ => rfl) ?_
    rw [if_pos (by simp)]
    unfold syncFallbackStorageLen
    exact Feeds.served _ _

instance : Feeds brokers (setupConfig ctx argv offset) := by unfold setupConfig; infer_instance
instance : Feeds brokers (connectAmqpCommand ctx argv) := by unfold connectAmqpCommand; infer_instance
instance : Feeds brokers (wrongArityWhen wrong) := by unfold wrongArityWhen; infer_instance
instance : Feeds brokers (disconnectAmqpCommand argv) := by
  unfold disconnectAmqpCommand stopHeartbeat stopTimer
  infer_instance
instance : Feeds brokers (setupFallbackStorageSizeCommand ctx argv) := by
  unfold setupFallbackStorageSizeCommand
  split <;> infer_instance
instance : Feeds brokers keymaskCleanCommand := by unfold keymaskCleanCommand; infer_instance
instance : Feeds brokers (keymaskAddCommand argv) := by unfold keymaskAddCommand; infer_instance
instance : Feeds brokers (broadcastRedisCommand ctx argv) := by unfold broadcastRedisCommand; infer_instance
instance (command : Command) : Feeds brokers (command.body ctx argv) := by
  cases command <;> (unfold Command.body; infer_instance)
instance (command : Command) : Feeds brokers (command.handler ctx argv) := by rw [handler_body]; infer_instance
instance : Feeds brokers (dispatch ctx command argv) := by unfold dispatch; infer_instance
instance : Feeds brokers (createStrings argv) := by
  induction argv with
  | nil => unfold createStrings; infer_instance
  | cons bytes rest ih => unfold createStrings; infer_instance
instance : Feeds brokers (freeStrings strings) := by
  induction strings with
  | nil => unfold freeStrings; infer_instance
  | cons string rest ih => unfold freeStrings; infer_instance
instance : Feeds brokers (clusterMessageReceiver ctx type payload beyond) := by
  have (strings : List RedisString) : Feeds brokers (match strings with
    | [] => pure ()
    | first :: _ => (do
      let command ← stringPtrLen first
      dispatch ctx command (strings.map RedisString.bytes)
      freeStrings strings : Act Unit)) := by
    split <;> infer_instance
  unfold clusterMessageReceiver
  infer_instance
end Feeding

theorem Broker.Follows.nothing {broker left : Broker} (follows : broker.Follows [] left) : left = broker := by
  rcases follows with given | ⟨_,_,_,impossible⟩
  · exact gives_nothing given
  · cases impossible

-- With answers enough for every wait that it comes to, a program ends.
section Lasting
variable {broker : Broker}

theorem amqpWaitFrame_served (ends : (broker.waits 0).Ends) : Served brokers amqpWaitFrame w broker := by
  obtain ⟨res,n,_,looped⟩ := ends
  obtain ⟨said,_,_,alike⟩ := waitLoop_says looped
  refine ⟨_,_,res,{w with trace := w.trace ++ said.map (.amqp w.conn)},.wait n .nothing,fun rest => ?_⟩
  rw [List.append_nil]
  exact amqpWaitFrame_parts.mpr ⟨_,_,_,_,rfl,alike w.conn rest [],rfl⟩

theorem amqpPublish_served (ends : w.conn ≠ none → (broker.waits 0).Ends) : Served brokers (amqpPublish body) w broker := by
  refine served_get (fun _ => rfl) ?_
  split
  · rename_i live
    refine (amqpWaitFrame_served (ends live)).bind fun _ res m left _ _ => ?_
    unfold amqpBasicPublish
    exact Feeds.served _ _
  · exact served_pure _ _ _

theorem published_tried (given : broker.Gives answers left)
    (published : Ends (amqpPublish body) (World.asked (answers ++ []) w) AMQP_STATUS_OK (World.asked [] m)) :
    w.conn ≠ none ∧ m.conn ≠ none ∧ m.storage = w.storage ∧ left = broker.tried ∧ (broker.waits 0).Returns AMQP_STATUS_OK ∧
      broker.statuses 0 = AMQP_STATUS_OK := by
  have live : w.conn ≠ none := by
    intro closed
    simp only [amqpPublish,ends_bind,ends_get,ends_ite,ends_pure] at published
    obtain ⟨_,_,⟨rfl,rfl⟩,⟨live,_⟩ | ⟨_,impossible,_⟩⟩ := published
    · exact live closed
    · cases impossible
  rw [List.append_nil] at published
  obtain ⟨_,success,after⟩ := amqpPublish_follows published live (.inl given)
  obtain ⟨up,follows⟩ := after rfl
  exact ⟨live,up,(amqpPublish_tried published).1,Broker.Follows.nothing follows,success.mp rfl⟩

theorem listPopHead_ends (w : World) (writable : key.mode = .readWrite) : ∃ (popped : Option RedisString) (m : World),
    (∀ answers, Ends (listPopHead (some key)) (w.asked answers) popped (m.asked answers)) ∧ m.conn = w.conn ∧
      (popped = none ∨ (w.storage key.db).length = (m.storage key.db).length+1) := by
  cases list : w.storage key.db with
  | nil =>
    refine ⟨none,{w with trace := w.trace ++ [.listPop key none]},fun answers => ?_,rfl,.inl rfl⟩
    simp [listPopHead,list,writable]
  | cons bytes rest =>
    let m : World := {w with
      handles := w.handles+1
      trace := w.trace ++ [.listPop key (some ⟨w.handles+1,bytes⟩)]
      storage := Function.update w.storage key.db rest}
    refine ⟨some ⟨w.handles+1,bytes⟩,m,fun answers => ?_,rfl,.inr ?_⟩
    · simp [listPopHead,list,writable,m]
    · simp [m]

theorem publishStoredLoop_served (writable : key.mode = .readWrite) (room : next = none ∨ (w.storage key.db).length < rounds)
    (lasts : next ≠ none → w.conn ≠ none → broker.Lasts ((w.storage key.db).length+1)) :
    Served brokers (publishStoredLoop (some key) rounds next) w broker := by
  induction rounds generalizing next w broker with
  | zero =>
    cases room.resolve_right (Nat.not_lt_zero _)
    exact served_pure _ _ _
  | succ rounds ih =>
    cases next with
    | none => exact served_pure _ _ _
    | some string =>
      have room := room.resolve_left (by simp)
      have lasts := lasts (by simp)
      let read : World := {w with trace := w.trace ++ [.stringPtrLen string]}
      have reads : ∀ answers, Ends (stringPtrLen string) (w.asked answers) (cstr string.bytes) (read.asked answers) :=
        fun _ => ends_bind.mpr ⟨(),_,ends_emit.mpr rfl,ends_pure.mpr ⟨rfl,rfl⟩⟩
      refine served_aside reads ?_
      refine (amqpPublish_served (w := read) fun live => (lasts live).1).bind fun _ status n left given published => ?_
      split
      · exact Feeds.served _ _
      cases not_not.mp ‹¬ status ≠ AMQP_STATUS_OK›
      obtain ⟨live,up,same,rfl,heard,fine⟩ := published_tried given (published [])
      have lasts := (lasts live).2 heard fine
      have counts : ∀ answers, Ends (modify fun w => {w with fallbackStorageLen := w.fallbackStorageLen-1}) (n.asked answers) ()
          (World.asked answers {n with fallbackStorageLen := n.fallbackStorageLen-1}) := fun _ => ends_modify.mpr rfl
      refine served_aside counts ?_
      have frees : ∀ answers, Ends (freeString string)
          (World.asked answers {n with fallbackStorageLen := n.fallbackStorageLen-1}) ()
          (World.asked answers (n.counted string)) := fun _ => ends_emit.mpr rfl
      refine served_aside frees ?_
      obtain ⟨popped,m,pops,conn,length⟩ := listPopHead_ends (n.counted string) writable
      have same : (n.counted string).storage = w.storage := same
      rw [same] at length
      refine served_aside pops (ih ?_ fun some _ => ?_)
      · exact length.imp_right fun more => by omega
      · rw [← length.resolve_left some]
        exact lasts

theorem publishStoredEvents_served (lasts : w.conn ≠ none → broker.Lasts (w.storage ctx.db).length) :
    Served brokers (publishStoredEvents ctx) w broker := by
  refine served_get (fun _ => rfl) ?_
  split
  · exact served_pure _ _ _
  let key : Key := ⟨w.handles+1,ctx.db,.readWrite⟩
  have opens : ∀ answers, Ends (openKey ctx .readWrite) (w.asked answers) (some key) (World.asked answers (w.opened key)) :=
    fun _ => openKey_readWrite.mpr ⟨rfl,rfl⟩
  refine served_aside opens ?_
  have writable : key.mode = .readWrite := rfl
  obtain ⟨popped,m,pops,conn,length⟩ := listPopHead_ends (w.opened key) writable
  have length : popped = none ∨ (w.storage ctx.db).length = (m.storage key.db).length+1 := length
  refine served_aside pops ((publishStoredLoop_served rfl ?_ fun some live => ?_).bind fun _ _ _ _ _ _ => Feeds.served _ _)
  · exact length.imp_right fun more => by omega
  · rw [← length.resolve_left some]
    exact lasts (conn ▸ live)

theorem publishEvent_served (lasts : w.conn ≠ none → broker.Lasts ((w.storage ctx.db).length+1)) :
    Served brokers (publishEvent ctx event keyname) w broker := by
  unfold publishEvent
  dsimp only
  generalize messageString ctx.db event keyname = message
  have enters : ∀ answers, Ends (emit (.publishEvent ctx.db message)) (w.asked answers) ()
      (World.asked answers (w.entered ctx.db message)) := fun _ => ends_emit.mpr rfl
  refine served_aside enters (served_get (fun _ => rfl) ?_)
  split
  · rename_i live
    refine (amqpPublish_served fun _ => (lasts live).1).bind fun _ status n left given published => ?_
    split
    · exact Feeds.served _ _
    cases not_not.mp ‹¬ status ≠ AMQP_STATUS_OK›
    obtain ⟨_,_,same,rfl,heard,fine⟩ := published_tried given (published [])
    have same : n.storage = w.storage := same
    refine (publishStoredEvents_served fun _ => ?_).bind fun _ _ _ _ _ _ => served_pure _ _ _
    rw [same]
    exact (lasts live).2 heard fine
  · exact Feeds.served _ _

theorem firstEvent_leaves (given : broker.Gives answers left)
    (ran : Ends (firstEvent ctx) (World.asked answers w) () (World.asked [] m)) (up : m.conn ≠ none) :
    (w.conn ≠ none ∧ left = broker) ∨ (w.conn = none ∧ w.heardBeatTimerId = 0 ∧ broker.Connects left) := by
  rcases firstEvent_parts ran with ⟨_,same⟩ | ⟨zero,res,n,connected,same⟩
  · have script : answers = [] := (congrArg World.script same).symm
    have conn : m.conn = w.conn := (congrArg World.conn same :)
    exact .inl ⟨conn ▸ up,gives_nothing (script ▸ given)⟩
  · have script : n.script = [] := (congrArg World.script same).symm
    have conn : m.conn = n.conn := (congrArg World.conn same :)
    rcases amqpConnect_parts connected with ⟨live,_,rfl⟩ | ⟨closed,answers',said,rest,attempt,whole,outcome⟩
    · have script : answers = [] := script
      exact .inl ⟨live,gives_nothing (script ▸ given)⟩
    · have whole : answers = answers' ++ rest := whole
      rcases attempt.connects (.inl (whole ▸ given)) with ⟨stays,after,connects,follows⟩ | ⟨lost,_⟩
      · rw [if_pos stays] at outcome
        subst outcome
        have ended : rest = [] := script
        rw [ended] at follows
        exact .inr ⟨closed,zero,Broker.Follows.nothing follows ▸ connects⟩
      · rw [if_neg lost] at outcome
        obtain ⟨_,down⟩ := outcome
        exact absurd (conn.trans (amqpDisconnect_wire down).2) up

theorem forwardLoop_served (lasts : Matches masks keyname → w.conn ≠ none → broker.Lasts ((w.storage ctx.db).length+1)) :
    Served brokers (forwardLoop ctx event keyname masks) w broker := by
  rw [forwardLoop_once]
  split
  · rename_i hit
    exact (publishEvent_served (lasts hit)).bind fun _ _ _ _ _ _ => served_pure _ _ _
  · exact served_pure _ _ _

theorem onKeyspaceEvent_served (ends : WaitsEnd w ctx key broker) :
    Served brokers (onKeyspaceEvent ctx type event key) w broker := by
  refine served_get (fun _ => rfl) ?_
  split
  · rename_i on
    refine (Feeds.served _ _).bind fun answers _ m left given first => served_get (fun _ => rfl) (forwardLoop_served ?_)
    intro hit up
    have begun : Touches [.session,.heartbeat] (World.asked (answers ++ []) w) (World.asked [] m) := Keeps.keeps (first [])
    have same : m.storage = w.storage := begun.lists.resolve_left (by decide)
    have settings : m.settings = w.settings := begun.settings.resolve_left (by decide)
    have takes : Takes w ctx key := ⟨on.1,on.2,settings ▸ hit⟩
    have ran := first []
    rw [List.append_nil] at ran
    rw [same]
    rcases firstEvent_leaves given ran up with ⟨live,rfl⟩ | ⟨closed,zero,connects⟩
    · exact (ends takes).1 live
    · exact (ends takes).2 closed zero left connects
  · exact served_pure _ _ _

end Lasting

def Broker.Patient (broker : Broker) : Prop := ∀ n, (broker.waits n).Ends

theorem Broker.Patient.lasts {broker : Broker} (patient : broker.Patient) (n : Nat) : broker.Lasts n := by
  induction n generalizing broker with
  | zero => trivial
  | succ n ih => exact ⟨patient 0,fun _ _ => ih fun n => patient (n+1)⟩

theorem gives_patient {broker : Broker} (given : broker.Gives answers left) (patient : broker.Patient) : left.Patient := by
  induction given with
  | nothing => exact patient
  | wait _ _ ih => exact ih fun n => patient (n+1)
  | socket _ ih | status _ ih | rpc _ ih => exact ih patient

theorem reconnect_served {broker : Broker} (patient : broker.Patient) : Served brokers (reconnect ctx) w broker := by
  refine (Feeds.served _ _).bind fun _ res m left given _ => ?_
  split
  · exact (publishStoredEvents_served fun _ => (gives_patient given patient).lasts _).bind fun _ _ _ _ _ _ => served_pure _ _ _
  · exact Feeds.served _ _

theorem checkConnection_served {broker : Broker} (patient : broker.Patient) : Served brokers (checkConnection ctx) w broker := by
  refine served_get (fun _ => rfl) ?_
  split
  · refine (amqpWaitFrame_served (patient 0)).bind fun _ status m left given _ => ?_
    have patient := gives_patient given patient
    split
    · exact (Feeds.served _ _).bind fun _ _ _ _ given _ => reconnect_served (gives_patient given patient)
    · exact served_pure _ _ _
  · exact reconnect_served patient

theorem checkFramesAndHeartbeat_served {broker : Broker} (patient : broker.Patient) :
    Served brokers (checkFramesAndHeartbeat ctx) w broker := by
  refine (Feeds.served _ _).bind fun _ _ m left given _ => served_get (fun _ => rfl) ?_
  split
  · exact served_pure _ _ _
  · exact (checkConnection_served (gives_patient given patient)).bind fun _ _ _ _ _ _ => Feeds.served _ _

-- What Redis can call the module for: the commands there are, and timers still pending.
def Callback.Due (w : World) : Callback → Prop
  | .timer fired _ => fired ∈ w.timers
  | .command _ name _ => lookupCommand name ≠ none
  | _ => True

-- Commands and messages wait for no frames.
def Callback.waits : Callback → Bool
  | .keyspaceEvent _ _ _ _ | .timer _ _ => true
  | _ => false

theorem callback_served {callback : Callback} {broker : Broker} (due : callback.Due w)
    (patient : callback.waits = true → broker.Patient) : Served brokers callback.run w broker := by
  cases callback with
  | keyspaceEvent ctx type event key =>
    have patient := patient rfl
    have ends : WaitsEnd w ctx key broker := by
      refine fun _ => ⟨fun _ => patient.lasts _,fun _ _ after connects => ?_⟩
      have patient : after.Patient := by cases connects <;> exact patient
      exact patient.lasts _
    exact (onKeyspaceEvent_served ends).bind fun _ _ _ _ _ _ => served_pure _ _ _
  | timer fired flags =>
    refine served_get (fun _ => rfl) ?_
    have pending : fired ∈ w.timers := due
    rw [if_pos pending]
    exact (Feeds.served _ _).bind fun _ _ _ _ given _ => checkFramesAndHeartbeat_served (gives_patient given (patient rfl))
  | command ctx name args =>
    obtain ⟨command,found⟩ := Option.ne_none_iff_exists'.mp due
    simp only [Callback.run,found]
    exact Feeds.served _ _
  | clusterMessage ctx type payload beyond =>
    change Served brokers (clusterMessageReceiver ctx type payload beyond) w broker
    exact Feeds.served _ _

theorem served_step {callback : Callback} {broker : Broker} (served : Served brokers callback.run {w with trace := []} broker) :
    ∃ script left w', broker.Gives script left ∧ step w ⟨callback,script⟩ = some w' := by
  obtain ⟨script,left,_,w',given,ran⟩ := served
  have ran := ran []
  rw [List.append_nil] at ran
  exact ⟨script,left,_,given,step_ends.mpr ran⟩

theorem callback_ends {callback : Callback} {broker : Broker} (due : callback.Due w)
    (patient : callback.waits = true → broker.Patient) :
    ∃ script left w', broker.Gives script left ∧ step w ⟨callback,script⟩ = some w' := by
  have due : callback.Due {w with trace := []} := by cases callback <;> exact due
  exact served_step (callback_served due patient)

theorem event_ends_iff (w : World) (ctx : Ctx) (type : Int32) (event : CString) (key : Bytes) (broker : Broker) :
    (∃ script left w', broker.Gives script left ∧ step w ⟨.keyspaceEvent ctx type event key,script⟩ = some w') ↔
      WaitsEnd w ctx key broker := by
  constructor
  · rintro ⟨script,left,w',given,taken⟩
    have ran := step_ends.mp taken
    simp only [Callback.run,ends_bind,ends_pure] at ran
    obtain ⟨_,_,ran,_,rfl⟩ := ran
    have ends : WaitsEnd (w.given script) ctx key broker := onKeyspaceEvent_lasts ran (.inl given)
    exact ends
  · intro ends
    have ends : WaitsEnd {w with trace := []} ctx key broker := ends
    exact served_step ((onKeyspaceEvent_served ends).bind fun _ _ _ _ _ _ => served_pure _ _ _)

end KeyspaceAmqp
