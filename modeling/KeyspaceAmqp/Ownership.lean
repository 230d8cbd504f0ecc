import KeyspaceAmqp.Draining
import KeyspaceAmqp.Library.Holdings

namespace KeyspaceAmqp
open Programs Paths Lives Holdings

-- What the module has to give back: a key handle by closing it, a string by freeing it.
-- The fallback key's name is made at load and kept for good; the strings a command is given
-- are Redis's, and those a message is decoded into are read before any of them is freed.
inductive Resource where
  | key (id : Nat)
  | string (id : Nat)
  deriving DecidableEq

def Resource.id : Resource → Nat
  | .key id | .string id => id

def Key.resource (key : Key) : Resource := .key key.id
def RedisString.resource (string : RedisString) : Resource := .string string.id

-- A push copies the string, which stays the module's.
def Call.dealings : Call → List (Resource × Use)
  | .openKey _ _ opened => opened.toList.map fun key => (key.resource,.obtained)
  | .closeKey key => [(key.resource,.released)]
  | .deleteKey key | .valueLength key => [(key.resource,.used)]
  | .listPop key popped => (key.resource,.used) :: popped.toList.map fun string => (string.resource,.obtained)
  | .listPush key _ pushed => [(key.resource,.used),(pushed.resource,.used)]
  | .createString string => [(string.resource,.obtained)]
  | .stringPtrLen string => [(string.resource,.used)]
  | .freeString string => [(string.resource,.released)]
  | _ => []

def ledger (log : List Call) : List (Resource × Use) := log.flatMap Call.dealings

def account (r : Resource) (log : List Call) : List Use := callsOn r (ledger log)

@[simp] theorem ledger_append (log later : List Call) : ledger (log ++ later) = ledger log ++ ledger later :=
  List.flatMap_append

-- A callback began with the floor as the number of handles given out and has come to this
-- world, where it holds these.
abbrev Holding (floor : Nat) (w : World) (stock : Set Resource) : Prop :=
  Books Resource.id floor (ledger w.trace) stock w.handles

def Even (w w' : World) : Prop := ∀ floor stock, Holding floor w stock → Holding floor w' stock

instance : IsPreorder World Even where
  refl _ _ _ holding := holding
  trans _ _ _ one two floor stock holding := two floor stock (one floor stock holding)

abbrev apart : List Part :=
  [.settings,.enabled,.count,.session,.heartbeat,.events,.publishes,.broadcasts,.replies,.load]

theorem Touches.even (touches : Touches apart w w') : Even w w' := by
  intro floor stock holding
  obtain ⟨more,added,inside⟩ := touches.calls
  have silent : ledger more = [] := by
    refine List.flatMap_eq_nil_iff.mpr fun c member => ?_
    have part := inside c member
    cases c <;> first | rfl | simp at part
  rw [Holding,added,ledger_append,silent,List.append_nil]
  exact holding.later touches.handles

instance (priority := low) apart_even {program : Act α} [Keeps (Touches apart) program] : Keeps Even program :=
  ⟨fun ran => Touches.even (Keeps.keeps ran)⟩

theorem syncFallbackStorageLen_even (ran : Ends (syncFallbackStorageLen ctx) w u w') : Even w w' := by
  intro floor stock holding
  simp only [syncFallbackStorageLen,openKey,ends_bind,ends_get,ends_ite,ends_emit,ends_pure,ends_newHandle] at ran
  obtain ⟨key,m,⟨_,_,⟨rfl,rfl⟩,⟨_,_,_,rfl,rfl,rfl⟩ | ⟨_,_,_,⟨rfl,rfl⟩,_,_,rfl,rfl,rfl⟩⟩,ran⟩ := ran
  · simp only [valueLength,closeKey,ends_pure,ends_modify] at ran
    obtain ⟨_,_,⟨rfl,rfl⟩,_,_,rfl,_,rfl⟩ := ran
    simpa [Holding,ledger,Call.dealings] using holding
  · simp only [valueLength,closeKey,ends_bind,ends_emit,ends_get,ends_pure,ends_modify] at ran
    obtain ⟨_,_,⟨_,_,rfl,_,_,⟨rfl,rfl⟩,rfl,rfl⟩,_,_,rfl,rfl⟩ := ran
    let key : Key := ⟨w.handles+1,ctx.db,.read⟩
    have new : key.resource.id = w.handles+1 := rfl
    have opened := (holding.obtain new).use (Set.mem_insert _ _)
    have closed := opened.release (Set.mem_insert _ _)
    rw [Set.insert_sdiff_self_of_notMem (holding.fresh new)] at closed
    simpa [Holding,ledger,Call.dealings,key] using closed

instance : Keeps Even (syncFallbackStorageLen ctx) := ⟨syncFallbackStorageLen_even⟩

instance : Keeps Even (setupFallbackStorage ctx) where
  keeps {w _ w'} ran := by
    have synced : Ends (syncFallbackStorageLen ctx) w () w' := by
      simpa [setupFallbackStorage,ends_ite] using ran
    exact Keeps.keeps synced

instance : Keeps Even (setupConfig ctx argv argOffset) := by
  unfold setupConfig
  dsimp only
  infer_instance

set_option synthInstance.maxSize 100000 in
instance : Keeps Even (connectAmqpCommand ctx argv) := by unfold connectAmqpCommand; infer_instance

instance : Keeps Even (setupFallbackStorageSizeCommand ctx argv) := by
  unfold setupFallbackStorageSizeCommand
  split <;> infer_instance

instance (command : Command) : Keeps Even (command.body ctx argv) := by
  cases command <;> (unfold Command.body; infer_instance)

theorem handler_even (command : Command) (ran : Ends (command.handler ctx argv) w res w') : Even w w' := by
  rw [handler_body] at ran
  simp only [ends_bind] at ran
  obtain ⟨_,m,arity,_,n,sent,ran⟩ := ran
  exact IsTrans.trans _ _ _ (Keeps.keeps arity) (IsTrans.trans _ _ _ (Keeps.keeps sent) (Keeps.keeps ran))

theorem dispatch_even (ran : Ends (dispatch ctx command argv) w u w') : Even w w' := by
  rcases dispatch_body ran with ⟨found,res,_,ran⟩ | ⟨_,rfl⟩
  · exact Keeps.keeps ran
  · exact Std.Refl.refl _

theorem createString_holding (ran : Ends (createString bytes) w string w') (holding : Holding floor w stock) :
    string.resource.id = w.handles+1 ∧ w'.handles = w.handles+1 ∧ Holding floor w' (insert string.resource stock) := by
  simp only [createString,ends_bind,ends_newHandle,ends_emit,ends_pure] at ran
  obtain ⟨_,_,⟨rfl,rfl⟩,_,_,rfl,rfl,rfl⟩ := ran
  have new : (RedisString.resource ⟨w.handles+1,bytes⟩).id = w.handles+1 := rfl
  refine ⟨new,rfl,?_⟩
  simpa [Holding,ledger,Call.dealings] using holding.obtain new

theorem createStrings_holding (ran : Ends (createStrings argv) w strings w') (holding : Holding floor w stock) :
    Holding floor w' (stock ∪ {r | r ∈ strings.map RedisString.resource}) ∧
      (strings.map RedisString.resource).Nodup ∧ ∀ r ∈ strings.map RedisString.resource, w.handles < r.id := by
  induction argv generalizing w strings stock with
  | nil =>
    obtain ⟨rfl,rfl⟩ := ends_pure.mp ran
    exact ⟨by simpa using holding,by simp,by simp⟩
  | cons bytes rest ih =>
    simp only [createStrings,ends_bind,ends_pure] at ran
    obtain ⟨string,m,created,others,_,made,rfl,rfl⟩ := ran
    obtain ⟨numbered,handles,first⟩ := createString_holding created holding
    obtain ⟨all,distinct,newer⟩ := ih made first
    rw [handles,← numbered] at newer
    refine ⟨?_,?_,?_⟩
    · have same : stock ∪ {r | r ∈ (string :: others).map RedisString.resource} =
          insert string.resource stock ∪ {r | r ∈ others.map RedisString.resource} := by
        ext r
        simp only [List.map_cons,List.mem_cons,Set.mem_union,Set.mem_ofPred_eq,Set.mem_insert_iff]
        tauto
      rwa [same]
    · exact List.nodup_cons.mpr ⟨fun twice => Nat.lt_irrefl _ (newer _ twice),distinct⟩
    · intro r member
      rcases List.mem_cons.mp member with rfl | member
      · omega
      · have newer := newer r member
        omega

theorem freeStrings_holding (ran : Ends (freeStrings strings) w u w') (holding : Holding floor w stock)
    (distinct : (strings.map RedisString.resource).Nodup) (owned : ∀ r ∈ strings.map RedisString.resource, r ∈ stock) :
    Holding floor w' (stock \ {r | r ∈ strings.map RedisString.resource}) := by
  induction strings generalizing w stock with
  | nil =>
    obtain ⟨_,rfl⟩ := ends_pure.mp ran
    simpa using holding
  | cons string rest ih =>
    simp only [freeStrings,freeString,ends_bind,ends_emit] at ran
    obtain ⟨_,_,rfl,freed⟩ := ran
    obtain ⟨once,distinct⟩ := List.nodup_cons.mp distinct
    have first := holding.release (owned string.resource List.mem_cons_self)
    have same : stock \ {r | r ∈ (string :: rest).map RedisString.resource} =
        (stock \ {string.resource}) \ {r | r ∈ rest.map RedisString.resource} := by
      ext r
      simp [and_assoc]
    rw [same]
    refine ih freed (by simpa [Holding,ledger,Call.dealings] using first) distinct ?_
    intro r member
    exact ⟨owned r (List.mem_cons_of_mem _ member),fun twice => once (twice ▸ member)⟩

theorem used_holding (holding : Holding floor w stock) (owned : r ∈ stock) (c : Call) (meaning : c.dealings = [(r,.used)]) :
    Holding floor {w with trace := w.trace ++ [c]} stock := by
  have used := holding.use owned
  simpa [Holding,ledger,meaning] using used

theorem clusterMessageReceiver_holding (ran : Ends (clusterMessageReceiver ctx type payload beyond) w u w')
    (holding : Holding floor w ∅) : Holding floor w' ∅ := by
  simp only [clusterMessageReceiver,ends_ite,ends_pure,ends_bind] at ran
  rcases ran with ⟨_,_,rfl⟩ | ⟨_,argv,m,created,ran⟩
  · exact holding
  obtain ⟨made,distinct,_⟩ := createStrings_holding created holding
  rw [Set.empty_union] at made
  cases argv with
  | nil =>
    obtain ⟨_,rfl⟩ := ends_pure.mp ran
    simpa using made
  | cons first rest =>
    simp only [stringPtrLen,ends_bind,ends_emit,ends_pure] at ran
    obtain ⟨_,_,⟨_,_,rfl,rfl,rfl⟩,_,n,dispatched,freed⟩ := ran
    have read := used_holding made (r := first.resource) (by simp) (.stringPtrLen first) rfl
    have carried := dispatch_even dispatched _ _ read
    have left := freeStrings_holding freed carried distinct fun r member => member
    rwa [Set.sdiff_self] at left

theorem opened_holding (holding : Holding floor w stock) (new : key.resource.id = w.handles+1) :
    Holding floor (w.opened key) (insert key.resource stock) := by
  have opened := holding.obtain new
  simpa [Holding,World.opened,ledger,Call.dealings] using opened

theorem popped_holding (holding : Holding floor w stock) (owned : key.resource ∈ stock) (bytes : Bytes) (rest : List Bytes) :
    Holding floor (w.popped key bytes rest) (insert (RedisString.resource ⟨w.handles+1,bytes⟩) stock) := by
  have new : (RedisString.resource ⟨w.handles+1,bytes⟩).id = w.handles+1 := rfl
  have popped := ((holding.use owned).obtain new).use (Set.mem_insert _ _)
  simpa [Holding,World.popped,ledger,Call.dealings] using popped

-- One round after another holds the key alone: each string it pops it frees, sent or not.
theorem Rounds.holding (rounds : Rounds key w res w') (holding : Holding floor w stock) (owned : key.resource ∈ stock) :
    Holding floor w' stock := by
  have unheld {w : World} {bytes : Bytes} (holding : Holding floor w stock) :
      RedisString.resource ⟨w.handles+1,bytes⟩ ∉ stock := holding.fresh rfl
  induction rounds with
  | empty list => exact used_holding holding owned _ rfl
  | refused list tried bad =>
    have tried := Keeps.keeps (R := Even) tried _ _ (popped_holding holding owned _ _)
    have freed := ((tried.use (Set.mem_insert_of_mem _ owned)).use (Set.mem_insert _ _)).release (Set.mem_insert _ _)
    rw [Set.insert_sdiff_self_of_notMem (unheld holding)] at freed
    simpa [Holding,World.restored,ledger,Call.dealings] using freed
  | sent list tried later ih =>
    have tried := Keeps.keeps (R := Even) tried _ _ (popped_holding holding owned _ _)
    have freed := tried.release (Set.mem_insert _ _)
    rw [Set.insert_sdiff_self_of_notMem (unheld holding)] at freed
    exact ih (by simpa [Holding,World.counted,ledger,Call.dealings] using freed)

def allAccepted : Nat → List Answer → Option (List Answer)
  | 0,script => some script
  | count+1,script => (accepted script).bind (allAccepted count)

theorem Rounds.accepts (rounds : Rounds key w res w') (live : w.conn ≠ none) :
    res = REDISMODULE_OK ↔ (allAccepted (w.storage key.db).length w.script).isSome = true := by
  induction rounds with
  | @empty w list => simp [list,allAccepted]
  | @refused status w m bytes rest list tried bad =>
    obtain ⟨ok,_⟩ | ⟨_,refused,_⟩ := amqpPublish_delivers tried live
    · exact absurd ok bad
    · have refused : accepted w.script = none := refused
      simp [list,allAccepted,refused,REDISMODULE_ERR,REDISMODULE_OK]
  | @sent _ w m w' bytes rest list tried later ih =>
    obtain ⟨_,taken,same,_⟩ | ⟨bad,_⟩ := amqpPublish_delivers tried live
    · have taken : accepted w.script = some m.script := taken
      have touched : Touches [.session,.publishes] (w.popped key bytes rest) m := Keeps.keeps tried
      have listed : m.storage = Function.update w.storage key.db rest := touched.lists.resolve_left (by decide)
      have left : (m.counted ⟨w.handles+1,bytes⟩).storage key.db = rest := by simp [World.counted,listed]
      rw [ih (same ▸ live),left,list,List.length_cons,allAccepted,taken]
      rfl
    · exact absurd rfl bad

theorem publishStoredEvents_holding (ran : Ends (publishStoredEvents ctx) w res w') (live : w.conn ≠ none)
    (holding : Holding floor w ∅) : ∃ stock, Holding floor w' stock ∧
      (stock = ∅ ↔ (allAccepted (w.storage ctx.db).length w.script).isSome = true) := by
  obtain ⟨key,m,made,rounds,ended⟩ := publishStoredEvents_rounds ran
  have db : key.db = ctx.db := by rw [made]
  have new : key.resource.id = w.handles+1 := by rw [made]; rfl
  have swept := rounds.holding (opened_holding holding new) (Set.mem_insert _ _)
  have reached := rounds.accepts live
  rw [show (w.opened key).storage key.db = w.storage ctx.db by rw [db]; rfl] at reached
  rcases ended with ⟨bad,rfl⟩ | ⟨ok,rfl⟩
  · exact ⟨_,swept,iff_of_false (Set.insert_nonempty _ _).ne_empty fun all => bad (reached.mpr all)⟩
  · have closed := (swept.use (Set.mem_insert _ _)).release (Set.mem_insert _ _)
    rw [Set.insert_sdiff_self_of_notMem (Set.notMem_empty _)] at closed
    refine ⟨∅,?_,iff_of_true rfl (reached.mp ok)⟩
    simpa [Holding,World.deleted,ledger,Call.dealings] using closed

theorem evictOldest_holding (ran : Ends (evictOldest (some key)) w u w') (writable : key.mode = .readWrite)
    (holding : Holding floor w stock) (owned : key.resource ∈ stock) :
    ∃ more, Holding floor w' more ∧ stock ⊆ more := by
  simp only [evictOldest,ends_bind,ends_get,ends_ite,ends_pure] at ran
  obtain ⟨_,_,⟨rfl,rfl⟩,⟨_,_,_,popped,_,rfl⟩ | ⟨_,_,rfl⟩⟩ := ran
  · rcases listPopHead_parts popped writable with ⟨_,rfl,rfl⟩ | ⟨bytes,rest,_,rfl,rfl⟩
    · exact ⟨stock,used_holding holding owned _ rfl,subset_rfl⟩
    -- The popped string stays the module's, and the pointer to it is gone.
    · have new : (RedisString.resource ⟨w.handles+1,bytes⟩).id = w.handles+1 := rfl
      have popped := (holding.use owned).obtain new
      exact ⟨_,by simpa [Holding,ledger,Call.dealings] using popped,Set.subset_insert _ _⟩
  · exact ⟨stock,holding,subset_rfl⟩

theorem pushEventToStorage_holding (ran : Ends (pushEventToStorage ctx message) w u w') (holding : Holding floor w ∅) :
    ∃ stock, Holding floor w' stock ∧ stock ≠ ∅ := by
  simp only [pushEventToStorage,ends_bind,ends_get,ends_ite,openKey_readWrite] at ran
  obtain ⟨_,_,⟨rfl,rfl⟩,⟨negative,_⟩ | ⟨_,_,_,⟨rfl,rfl⟩,_,m,evicted,string,n,created,_,o,pushed,closed⟩⟩ := ran
  · exact absurd negative (by simp)
  let key : Key := ⟨w.handles+1,ctx.db,.readWrite⟩
  have opened : Holding floor (w.opened key) (insert key.resource ∅) := opened_holding holding rfl
  obtain ⟨stock,evicted,more⟩ := evictOldest_holding evicted rfl opened (Set.mem_insert _ _)
  obtain ⟨_,_,created⟩ := createString_holding created evicted
  have owned : key.resource ∈ insert string.resource stock := Set.mem_insert_of_mem _ (more (Set.mem_insert _ _))
  have pushed := listPush_parts pushed rfl
  subst pushed
  obtain rfl := ends_emit.mp closed
  have left := ((created.use owned).use (Set.mem_insert _ _)).release owned
  refine ⟨_,by simpa [Holding,ledger,Call.dealings] using left,?_⟩
  exact Set.Nonempty.ne_empty ⟨string.resource,Set.mem_insert _ _,by simp [RedisString.resource,Key.resource]⟩

theorem publishEvent_holding (ran : Ends (publishEvent ctx event keyname) w u w') (holding : Holding floor w ∅) :
    ∃ stock, Holding floor w' stock ∧ (stock = ∅ ↔ (((if w.conn = none then none else some w.script).bind accepted).bind
      (allAccepted (w.storage ctx.db).length)).isSome = true) := by
  let entered := w.entered ctx.db (messageString ctx.db event keyname)
  have begun : Holding floor entered ∅ := by
    simpa [Holding,entered,World.entered,ledger,Call.dealings] using holding
  rcases publishEvent_ways ran with ⟨live,res,m,tried,ran⟩ | ⟨closed,pushed⟩
  · have tries : Touches [.session,.publishes] entered m := Keeps.keeps tried
    have listed : m.storage = w.storage := tries.lists.resolve_left (by decide)
    have sent := Keeps.keeps (R := Even) tried _ _ begun
    rw [if_neg live,Option.bind_some]
    rcases ran with ⟨bad,pushed⟩ | ⟨ok,_,drained⟩ <;> rcases amqpPublish_delivers tried live with ⟨ok',taken,same,_⟩ | ⟨bad',refused,_⟩
    · exact absurd ok' bad
    · have refused : accepted w.script = none := refused
      obtain ⟨stock,holding,left⟩ := pushEventToStorage_holding pushed sent
      exact ⟨stock,holding,iff_of_false left (by simp [refused])⟩
    · have taken : accepted w.script = some m.script := taken
      obtain ⟨stock,holding,ended⟩ := publishStoredEvents_holding drained (same ▸ live) sent
      exact ⟨stock,holding,by rw [ended,listed,taken,Option.bind_some]⟩
    · exact absurd ok bad'
  · obtain ⟨stock,holding,left⟩ := pushEventToStorage_holding pushed begun
    exact ⟨stock,holding,iff_of_false left (by simp [closed])⟩

theorem event_holding (ran : Ends (onKeyspaceEvent ctx type event key) w res w') (holding : Holding floor w ∅) :
    ∃ stock, Holding floor w' stock ∧ (stock = ∅ ↔ (Takes w ctx key →
      ((w.connected.bind accepted).bind (allAccepted (w.storage ctx.db).length)).isSome = true)) := by
  rcases onKeyspaceEvent_ways ran with ⟨takes,m,first,begun,published⟩ | ⟨ignores,begun⟩
  · have listed : m.storage = w.storage := begun.lists.resolve_left (by decide)
    obtain ⟨stock,holding,ended⟩ := publishEvent_holding published (Touches.even (begun.mono (by simp)) _ _ holding)
    rw [firstEvent_connects first,listed] at ended
    exact ⟨stock,holding,ended.trans ⟨fun taken _ => taken,fun taken => taken takes⟩⟩
  · exact ⟨∅,Touches.even (begun.mono (by simp)) _ _ holding,iff_of_true rfl fun takes => absurd takes ignores⟩

theorem timer_holding (ran : Ends (fireTimer t flags) w () w') (holding : Holding floor w ∅) :
    ∃ stock, Holding floor w' stock ∧ (stock = ∅ ↔ (w.amqpConnectionEnabled = true →
      (reopened w.conn w.script).all (fun left => (allAccepted (w.storage t.db).length left).isSome) = true)) := by
  rcases fireTimer_drains ran with ⟨idle,touched⟩ | ⟨enabled,left,m,res,n,opened,touched,script,live,drained,rfl⟩
  · refine ⟨∅,Touches.even (touched.mono (by simp)) _ _ holding,iff_of_true rfl fun enabled => ?_⟩
    rw [idle enabled]
    rfl
  · have listed : m.storage = w.storage := touched.lists.resolve_left (by decide)
    have begun : Holding floor m ∅ := Touches.even (touched.mono (by simp)) _ _ holding
    have armed : Even n (n.armed t.db) := Touches.even ((armed_touches n t.db).mono (by simp))
    obtain ⟨stock,holding,ended⟩ := publishStoredEvents_holding drained live begun
    refine ⟨stock,armed _ _ holding,?_⟩
    rw [ended,listed,script,opened]
    simp [enabled]

-- A callback that gives back what it takes: the event it is told of goes out, on the
-- connection there is or that it makes, and then all that is stored; or the timer sends all
-- that is stored if it gets a new connection. Other callbacks always do.
def GivesBack (w : World) (turn : Turn) : Prop := match turn.callback with
  | .keyspaceEvent ctx _ _ key => Takes w ctx key →
    (((w.given turn.script).connected.bind accepted).bind (allAccepted (w.storage ctx.db).length)).isSome = true
  | .timer t _ => w.amqpConnectionEnabled = true →
    (reopened w.conn turn.script).all (fun left => (allAccepted (w.storage t.db).length left).isSome) = true
  | _ => True

instance (w : World) : (turn : Turn) → Decidable (GivesBack w turn)
  | ⟨.keyspaceEvent _ _ _ _,_⟩ | ⟨.timer _ _,_⟩ => instDecidableForall
  | ⟨.command _ _ _,_⟩ | ⟨.clusterMessage _ _ _ _,_⟩ => instDecidableTrue

theorem step_holding (taken : step w turn = some w') :
    ∃ stock, Holding w.handles w' stock ∧ (stock = ∅ ↔ GivesBack w turn) := by
  have holding : Holding w.handles (w.given turn.script) ∅ := .nothing _ _
  have ran := step_ends.mp taken
  obtain ⟨callback,script⟩ := turn
  cases callback with
  | keyspaceEvent ctx type event key =>
    simp only [Callback.run,ends_bind,ends_pure] at ran
    obtain ⟨_,_,ran,_,rfl⟩ := ran
    exact event_holding ran holding
  | timer t flags => exact timer_holding ran holding
  | command ctx name args =>
    simp only [Callback.run] at ran
    cases found : lookupCommand name with
    | none => simp [found] at ran
    | some command =>
      simp only [found,ends_bind,ends_pure] at ran
      obtain ⟨_,_,ran,_,rfl⟩ := ran
      exact ⟨∅,handler_even command ran _ _ holding,iff_of_true rfl trivial⟩
  | clusterMessage ctx type payload beyond =>
    exact ⟨∅,clusterMessageReceiver_holding ran holding,iff_of_true rfl trivial⟩

theorem run_holding (run : Run start steps last) :
    ∃ stock, Books Resource.id start.handles (ledger (calls steps)) stock last.handles := by
  refine run.carry (fun done w => ∃ stock, Books Resource.id start.handles (ledger (calls done)) stock w.handles)
    (fun _ => True) ⟨∅,.nothing _ _⟩ ?_ fun _ _ => trivial
  rintro done s _ taken _ ⟨stock,books⟩
  obtain ⟨more,holding,_⟩ := step_holding taken
  rw [calls_snoc,ledger_append]
  exact ⟨stock ∪ more,books.append holding⟩

-- What a callback obtains it has released at its end, each once, and nothing is done with
-- it later.
def Balanced (steps : List Step) : Prop := ∀ first s rest, steps = first ++ s :: rest → ∀ r,
  .obtained ∈ account r s.after.trace → Settled (account r s.after.trace) ∧ account r (calls rest) = []

-- No run releases anything twice or uses it after that; everything is released just when
-- every callback gives back what it takes.
theorem balanced_iff (run : Run start steps last) :
    (∀ r, Life .obtained .released (account r (calls steps))) ∧
    (Balanced steps ↔ ∀ s ∈ steps, GivesBack s.before s.label) := by
  obtain ⟨_,books⟩ := run_holding run
  refine ⟨books.lives,?_,?_⟩
  · intro balanced s member
    obtain ⟨first,rest,parts⟩ := List.append_of_mem member
    obtain ⟨stock,holding,gives⟩ := step_holding (run.edge_taken member)
    exact gives.mp (holding.settled.mp fun r obtained => (balanced first s rest parts r obtained).1)
  · intro gives first s rest parts r obtained
    have member : s ∈ steps := by simp [parts]
    obtain ⟨stock,holding,empty⟩ := step_holding (run.edge_taken member)
    obtain ⟨_,after⟩ := run_holding (run.around parts).2
    refine ⟨holding.settled.mpr (empty.mpr (gives s member)) r obtained,?_⟩
    by_contra dealt
    have above := (after.within r dealt).1
    have below := (holding.within r (List.ne_nil_of_mem obtained)).2
    omega

theorem balanced_iff_backlog : ∃ start steps last, Run start steps last ∧ (delivered (calls steps)).length = 4 ∧
    Balanced steps := by
  obtain ⟨start,steps,last,_,run,seen⟩ := played_run (master 0) (allKeys "0")
    (fun _ => [ascii "0\nexpired\nx",ascii "0\nexpired\ny"])
    [expired 0 "a" (connects ++ accepts ++ accepts ++ accepts),⟨.timer ⟨4,0⟩ 0,idles⟩,expired 0 "b" accepts]
    (fun _ steps _ => decide ((∀ s ∈ steps, GivesBack s.before s.label) ∧ (delivered (calls steps)).length = 4))
    (by decide +kernel)
  obtain ⟨gives,sent⟩ := of_decide_eq_true seen
  exact ⟨start,steps,last,run,sent,(balanced_iff run).2.mpr gives⟩

theorem unbalanced {s : Step} (member : s ∈ steps) (obtained : .obtained ∈ account r s.after.trace)
    (kept : .released ∉ account r s.after.trace) : ¬ Balanced steps := by
  intro balanced
  obtain ⟨first,rest,parts⟩ := List.append_of_mem member
  exact kept (balanced first s rest parts r obtained).1.released

-- An event is stored in an outage and its string is never freed; then a timer's drain fails
-- and its key is never closed.
theorem outage_unbalanced : ∃ start steps last, Loaded (master 0) (allKeys "0") (fun _ => []) start ∧
    Run start steps last ∧ ¬ Balanced steps ∧
    account (.string 5) (calls steps) = [.obtained,.used] ∧ account (.key 7) (calls steps) = [.obtained,.used,.used] := by
  obtain ⟨start,steps,last,loaded,run,seen⟩ := played_run (master 0) (allKeys "0") (fun _ => [])
    [expired 0 "a" [.socket false,.status 1],⟨.timer ⟨3,0⟩ 0,connects ++ refuses⟩]
    (fun _ steps _ => decide ((∃ s ∈ steps, account (.string 5) s.after.trace = [.obtained,.used]) ∧
      account (.string 5) (calls steps) = [.obtained,.used] ∧ account (.key 7) (calls steps) = [.obtained,.used,.used]))
    (by decide +kernel)
  obtain ⟨⟨s,member,unfreed⟩,string,key⟩ := of_decide_eq_true seen
  exact ⟨start,steps,last,loaded,run,unbalanced (r := .string 5) member (by simp [unfreed]) (by simp [unfreed]),string,key⟩

end KeyspaceAmqp
