import KeyspaceAmqp.Accounts
import KeyspaceAmqp.Heartbeat
import KeyspaceAmqp.Network
import KeyspaceAmqp.Receiver

namespace KeyspaceAmqp
open Programs Paths

-- An answer of a broker that is well: whatever it is asked it grants, and it closes nothing.
def Answer.Well : Answer → Prop
  | .garbage _ => True
  | .waited code written =>
    (code = AMQP_STATUS_OK ∨ code = AMQP_STATUS_TIMEOUT) ∧ ∀ frame ∈ written, frame.closing = false
  | .socket null => null = false
  | .status code => code = AMQP_STATUS_OK
  | .rpc replyType => replyType = AMQP_RESPONSE_NORMAL

-- An uninitialised frame that looks like a close, which amqpWaitFrame then takes it for.
def Answer.Misleads : Answer → Prop
  | .garbage frame => frame.closing = true
  | _ => False

def Well (script : List Answer) : Prop := ∀ a ∈ script, a.Well ∧ ¬ a.Misleads
def World.Well (w : World) : Prop := KeyspaceAmqp.Well w.script

theorem waitLoop_well (ran : waitLoop conn script frame earlier = some (res,left,made)) (unclosed : frame.closing = false)
    (well : Well script) : res = AMQP_STATUS_OK ∧ Well left := by
  induction script generalizing frame earlier with
  | nil => simp [waitLoop] at ran
  | cons answer script ih =>
    have later : Well script := fun a member => well a (List.mem_cons_of_mem _ member)
    cases answer with
    | waited status written =>
      obtain ⟨fine,clean⟩ : Answer.Well (.waited status written) := (well _ List.mem_cons_self).1
      have still : (written.getD frame).closing = false := by
        cases written with
        | none => exact unclosed
        | some frame => exact clean frame rfl
      by_cases on : GoesOn status (written.getD frame)
      · rw [waitLoop_on on] at ran
        exact ih ran still later
      · obtain ⟨said,_,alike⟩ := waitLoop_off on
        rw [alike] at ran
        cases ran
        refine ⟨?_,later⟩
        rw [verdict,still]
        rcases fine with rfl | rfl <;> rfl
    | _ => simp [waitLoop] at ran

theorem amqpWaitFrame_well (ran : Ends amqpWaitFrame w res w') (well : w.Well) : res = AMQP_STATUS_OK ∧ w'.Well := by
  obtain ⟨frame,script,left,made,asked,looped,rfl⟩ := amqpWaitFrame_parts.mp ran
  rw [World.Well,asked] at well
  have unclosed : frame.closing = false := Bool.eq_false_of_not_eq_true (well _ List.mem_cons_self).2
  exact waitLoop_well looped unclosed fun a member => well a (List.mem_cons_of_mem _ member)

theorem amqpPublish_well (ran : Ends (amqpPublish body) w res w') (live : w.conn ≠ none) (well : w.Well) :
    res = AMQP_STATUS_OK ∧ w'.conn ≠ none ∧ w'.Well := by
  simp only [amqpPublish,ends_bind,ends_get,ends_ite,ends_pure] at ran
  obtain ⟨_,_,⟨rfl,rfl⟩,⟨_,status,m,waited,ran⟩ | ⟨closed,_⟩⟩ := ran
  · obtain ⟨fine,left⟩ := amqpWaitFrame_well waited well
    have same := (amqpWaitFrame_wire waited).2
    rcases ran with ⟨bad,_⟩ | ⟨_,asked⟩
    · exact absurd fine bad
    · obtain ⟨a,rest,script,picked,rfl⟩ := ends_askAmqp.mp asked
      rw [World.Well,script] at left
      have granted := (left a List.mem_cons_self).1
      cases a with
      | status code =>
        cases picked
        exact ⟨granted,same ▸ live,fun b member => left b (List.mem_cons_of_mem _ member)⟩
      | _ => cases picked
  · exact absurd live closed

theorem amqpConnect_well (ran : Ends amqpConnect w res w') (well : w.Well) : w'.conn ≠ none ∧ w'.Well ∧
    (w.conn = none → res = REDIS_AMQP_OK) := by
  rcases amqpConnect_parts ran with ⟨live,_,rfl⟩ | ⟨closed,answers,said,rest,attempt,script,outcome⟩
  · exact ⟨live,well,fun closed => absurd closed live⟩
  rw [World.Well,script] at well
  have given : ∀ a ∈ answers, a.Well := fun a member => (well a (List.mem_append_left _ member)).1
  have left : Well rest := fun a member => well a (List.mem_append_right _ member)
  cases attempt with
  | socket => cases given (.socket true) (by simp)
  | connection failed => exact absurd (given (.status _) (by simp)) failed
  | auth failed => exact absurd (given (.rpc _) (by simp)) failed
  | channel failed => exact absurd (given (.rpc _) (by simp)) failed
  | opened =>
    rw [if_pos (.inl rfl)] at outcome
    subst outcome
    exact ⟨Option.some_ne_none _,left,fun _ => rfl⟩

theorem Rounds.well (rounds : Rounds key w res w') (live : w.conn ≠ none) (well : w.Well) :
    res = REDISMODULE_OK ∧ w'.conn ≠ none ∧ w'.Well := by
  induction rounds with
  | empty list => exact ⟨rfl,live,well⟩
  | refused list tried bad => exact absurd (amqpPublish_well tried live well).1 bad
  | sent list tried later ih =>
    obtain ⟨_,live,well⟩ := amqpPublish_well tried live well
    exact ih live well

theorem publishStoredEvents_well (ran : Ends (publishStoredEvents ctx) w res w') (live : w.conn ≠ none) (well : w.Well) :
    w'.conn ≠ none ∧ w'.storage = Function.update w.storage ctx.db [] ∧
      Tried w w' ((w.storage ctx.db).map fun bytes => (resent bytes,AMQP_STATUS_OK)) := by
  obtain ⟨key,m,db,_,rounds,ended⟩ := publishStoredEvents_parts ran
  obtain ⟨ok,live,_⟩ := rounds.well live well
  obtain ⟨count,swept,complete⟩ := rounds.swept
  have swept : Swept key.db w m count := swept.before rfl ⟨_,rfl,rfl⟩
  have all : count = (w.storage key.db).length := complete ok
  obtain ⟨refused,tried,none | ⟨_,_,beyond,_⟩⟩ := swept.tried
  · subst none
    rw [all,List.take_length,List.append_nil] at tried
    rcases ended with ⟨bad,_⟩ | ⟨_,rfl⟩
    · exact absurd ok bad
    refine ⟨live,?_,?_⟩
    · simp [World.deleted,swept.left,db]
    · have closed : Tried m (m.deleted key) [] := ⟨_,rfl,rfl⟩
      simpa [db] using tried.trans closed
  · rw [all,List.getElem?_eq_none (Nat.le_refl _)] at beyond
    cases beyond

def Flushed (db : Int32) (w w' : World) : Prop := w'.storage = Function.update w.storage db [] ∧
  Tried w w' ((w.storage db).map fun bytes => (resent bytes,AMQP_STATUS_OK))

theorem Flushed.after (flushed : Flushed db m w') (same : m.storage = w.storage) (untried : Tried w m []) : Flushed db w w' := by
  obtain ⟨left,tried⟩ := flushed
  rw [same] at left tried
  exact ⟨left,untried.trans tried⟩

theorem Flushed.before (flushed : Flushed db w m) (same : w'.storage = m.storage) (untried : Tried m w' []) : Flushed db w w' := by
  obtain ⟨left,tried⟩ := flushed
  exact ⟨same.trans left,by simpa using tried.trans untried⟩

theorem checkConnection_well (ran : Ends (checkConnection ctx) w u w') (well : w.Well) : w'.conn ≠ none ∧
    ((w.conn ≠ none ∧ w'.storage = w.storage ∧ Tried w w' []) ∨ (w.conn = none ∧ Flushed ctx.db w w')) := by
  simp only [checkConnection,reconnect,ends_bind,ends_get,ends_ite,ends_pure] at ran
  obtain ⟨_,_,⟨rfl,rfl⟩,⟨live,status,m,waited,⟨bad,_⟩ | ⟨_,_,rfl⟩⟩ | ⟨closed,res,m,connected,ran⟩⟩ := ran
  · exact absurd (amqpWaitFrame_well waited well).1 bad
  · obtain ⟨wire,same⟩ := amqpWaitFrame_wire waited
    exact ⟨same ▸ live,.inl ⟨live,congrArg Store.storage wire.store,wire.untried⟩⟩
  · have closed := not_not.mp closed
    obtain ⟨opened,left,ok⟩ := amqpConnect_well connected well
    rcases ran with ⟨_,_,_,drained,_,rfl⟩ | ⟨bad,_⟩
    · have wire := amqpConnect_wire connected
      obtain ⟨live,flushed⟩ := publishStoredEvents_well drained opened left
      exact ⟨live,.inr ⟨closed,Flushed.after flushed (congrArg Store.storage wire.store) wire.untried⟩⟩
    · exact absurd (ok closed) bad

theorem fireTimer_well (ran : Ends (fireTimer fired flags) w u w') (enabled : w.amqpConnectionEnabled = true) (well : w.Well) :
    w'.conn ≠ none ∧
    ((w.conn ≠ none ∧ w'.storage = w.storage ∧ Tried w w' []) ∨ (w.conn = none ∧ Flushed fired.db w w')) := by
  obtain ⟨_,⟨off,_⟩ | ⟨_,m,checked,rfl⟩⟩ := fireTimer_parts ran
  · cases off.symm.trans enabled
  obtain ⟨live,outcome⟩ := checkConnection_well checked well
  have armed : Tried m (m.armed fired.db) [] := (armed_touches m fired.db).untried (by decide)
  refine ⟨live,outcome.imp ?_ ?_⟩
  · rintro ⟨up,same,tried⟩
    exact ⟨up,same,Tried.trans tried armed⟩
  · rintro ⟨down,flushed⟩
    exact ⟨down,Flushed.before flushed rfl armed⟩

theorem publishEvent_well (ran : Ends (publishEvent ctx event keyname) w u w') (live : w.conn ≠ none) (well : w.Well) :
    w'.conn ≠ none ∧ w'.storage = Function.update w.storage ctx.db [] ∧
    Tried w w' (((messageString ctx.db event keyname).bytes,AMQP_STATUS_OK) ::
      (w.storage ctx.db).map fun bytes => (resent bytes,AMQP_STATUS_OK)) := by
  rcases publishEvent_ways ran with ⟨_,res,m,tried,ran⟩ | ⟨closed,_⟩
  · obtain ⟨fine,up,left⟩ := amqpPublish_well tried live well
    obtain ⟨same,outcome⟩ := amqpPublish_tried tried
    rcases ran with ⟨bad,_⟩ | ⟨_,_,drained⟩
    · exact absurd fine bad
    · obtain ⟨up,flushed,swept⟩ := publishStoredEvents_well drained up left
      have entered : Tried w (w.entered ctx.db (messageString ctx.db event keyname)) [] := ⟨_,rfl,rfl⟩
      have sent := (outcome.resolve_right fun failed => failed.1 fine).2
      rw [same] at flushed swept
      exact ⟨up,flushed,(entered.trans sent).trans swept⟩
  · exact absurd closed live

-- The first event connects by itself. Later ones leave that to the timer.
theorem onKeyspaceEvent_well (ran : Ends (onKeyspaceEvent ctx type event key) w res w') (takes : Takes w ctx key)
    (ready : w.conn ≠ none ∨ w.heardBeatTimerId = 0) (well : w.Well) :
    w'.conn ≠ none ∧ w'.storage = Function.update w.storage ctx.db [] ∧
    Tried w w' (((messageString ctx.db event (cstr key)).bytes,AMQP_STATUS_OK) ::
      (w.storage ctx.db).map fun bytes => (resent bytes,AMQP_STATUS_OK)) := by
  rcases onKeyspaceEvent_ways ran with ⟨_,m,first,begun,published⟩ | ⟨ignores,_⟩
  · have up : m.conn ≠ none ∧ m.Well := by
      rcases firstEvent_parts first with ⟨set,rfl⟩ | ⟨_,_,n,connected,rfl⟩
      · exact ⟨ready.resolve_right set,well⟩
      · obtain ⟨live,left,_⟩ := amqpConnect_well connected well
        exact ⟨live,left⟩
    obtain ⟨live,left,tried⟩ := publishEvent_well published up.1 up.2
    rw [begun.lists.resolve_left (by decide)] at left tried
    exact ⟨live,left,(begun.untried (by decide)).trans tried⟩
  · exact absurd takes ignores

theorem tried_delivers {w w' : World} {bodies : List Bytes} (tried : Tried (w.given script) w' (bodies.map fun bytes => (bytes,AMQP_STATUS_OK))) :
    delivered w'.trace = bodies := by
  obtain ⟨more,added,tried⟩ := tried
  rw [added,World.given,List.nil_append,delivered_tries,tried]
  simp [List.filter_map,Function.comp_def]

theorem resent_clean (clean : Clean storage) (db : Int32) :
    ((storage db).map fun bytes => (resent bytes,AMQP_STATUS_OK)) = (storage db).map fun bytes => (bytes,AMQP_STATUS_OK) := by
  refine List.map_congr_left fun bytes member => ?_
  rw [resent,cstr_bytes bytes (clean db bytes member)]

structure Notice where
  ctx : Ctx
  type : Int32
  event : CString
  key : Bytes

def Notice.callback (n : Notice) : Callback := .keyspaceEvent n.ctx n.type n.event n.key
def Notice.body (n : Notice) : Bytes := (messageString n.ctx.db n.event (cstr n.key)).bytes

def Notice.Meets (n : Notice) (s : Settings) : Prop := isRedisMaster n.ctx = true ∧ Matches s.keyMaskArr (cstr n.key)

structure Up (s : Settings) (w : World) : Prop where
  conn : w.conn ≠ none
  enabled : w.amqpConnectionEnabled = true
  settings : w.settings = s
  clean : Clean w.storage

def Answered (steps : List Step) : Prop := ∀ s ∈ steps, ∀ a ∈ s.label.script, a.Well
def Unmisled (steps : List Step) : Prop := ∀ s ∈ steps, ∀ a ∈ s.label.script, ¬ a.Misleads

theorem notice_step {n : Notice} (taken : step w ⟨n.callback,script⟩ = some w') (up : Up s w) (meets : n.Meets s)
    (well : Well script) : Up s w' ∧ w'.storage = Function.update w.storage n.ctx.db [] ∧
    delivered w'.trace = n.body :: w.storage n.ctx.db := by
  have happens := step_happens taken
  have clean := clean_step taken up.clean
  cases happens with
  | event ran =>
    have takes : Takes (w.given script) n.ctx n.key := ⟨meets.1,up.enabled,by
      rw [World.given,up.settings]
      exact meets.2⟩
    obtain ⟨live,left,tried⟩ := onKeyspaceEvent_well ran takes (.inl up.conn) well
    have touched := onKeyspaceEvent_touches ran
    refine ⟨⟨live,?_,?_,clean⟩,left,?_⟩
    · exact (touched.enabled.resolve_left (by decide)).trans up.enabled
    · exact (touched.settings.resolve_left (by decide)).trans up.settings
    · have same : (w.given script).storage = w.storage := rfl
      rw [same,resent_clean up.clean] at tried
      exact tried_delivers tried
  | carried command argv known _ _ _ => cases known

theorem timer_step (taken : step w ⟨.timer fired flags,script⟩ = some w') (enabled : w.amqpConnectionEnabled = true)
    (clean : Clean w.storage) (well : Well script) : Up w.settings w' ∧
    ((w.conn ≠ none ∧ w'.storage = w.storage ∧ delivered w'.trace = []) ∨
    (w.conn = none ∧ w'.storage = Function.update w.storage fired.db [] ∧ delivered w'.trace = w.storage fired.db)) := by
  have ran : Ends (fireTimer fired flags) (w.given script) () w' := step_ends.mp taken
  obtain ⟨live,outcome⟩ := fireTimer_well ran enabled well
  have touched := fireTimer_touches ran
  refine ⟨⟨live,?_,touched.settings.resolve_left (by decide),clean_step taken clean⟩,outcome.imp ?_ ?_⟩
  · exact (touched.enabled.resolve_left (by decide)).trans enabled
  · rintro ⟨up,same,tried⟩
    exact ⟨up,same,tried_delivers (show Tried _ _ (List.map _ []) from tried)⟩
  · rintro ⟨down,left,tried⟩
    have same : (w.given script).storage = w.storage := rfl
    rw [same,resent_clean clean] at tried
    exact ⟨down,left,tried_delivers tried⟩

def Lossless (q : Int32) (w : World) (steps : List Step) (w' : World) : Prop :=
  (deliveredIn q steps : Multiset Bytes) + w'.storage q = (takenIn q steps : Multiset Bytes) + w.storage q

theorem lossless_cons {s : Step} (first : Lossless q s.before [s] s.after) (later : Lossless q s.after steps w') :
    Lossless q s.before (s :: steps) w' := by
  have delivered : deliveredIn q (s :: steps) = deliveredIn q [s] ++ deliveredIn q steps := by
    rw [← List.singleton_append,deliveredIn,stepsIn,List.filter_append,List.flatMap_append]
    rfl
  have taken : takenIn q (s :: steps) = takenIn q [s] ++ takenIn q steps := by
    rw [← List.singleton_append,takenIn,List.flatMap_append,List.filter_append,List.map_append]
    rfl
  rw [Lossless,delivered,taken,← Multiset.coe_add,← Multiset.coe_add]
  calc (deliveredIn q [s] : Multiset Bytes) + deliveredIn q steps + w'.storage q
      = deliveredIn q [s] + (deliveredIn q steps + w'.storage q) := by abel
    _ = deliveredIn q [s] + (takenIn q steps + s.after.storage q) := by rw [later]
    _ = (deliveredIn q [s] + s.after.storage q) + takenIn q steps := by abel
    _ = (takenIn q [s] + s.before.storage q) + takenIn q steps := by rw [first]
    _ = _ := by abel

theorem lossless_step {s : Step} {bodies : List Bytes} (hands : s.label.callback.hands s.before =
      bodies.map fun body => (s.label.callback.ctx.db,body))
    (outcome : (s.after.storage = s.before.storage ∧ delivered s.after.trace = bodies) ∨
      (s.after.storage = Function.update s.before.storage s.label.callback.ctx.db [] ∧
        delivered s.after.trace = bodies ++ s.before.storage s.label.callback.ctx.db)) (q : Int32) :
    Lossless q s.before [s] s.after := by
  rw [Lossless,takenIn,List.flatMap_singleton,hands]
  by_cases here : q = s.label.callback.ctx.db
  · subst here
    have mine : deliveredIn s.label.callback.ctx.db [s] = delivered s.after.trace := by simp [deliveredIn,stepsIn]
    rw [mine]
    rcases outcome with ⟨left,sent⟩ | ⟨left,sent⟩
    · simp [left,sent,List.filter_map,Function.comp_def]
    · simp [left,sent,List.filter_map,Function.comp_def]
  · have foreign : deliveredIn q [s] = [] := by simp [deliveredIn,stepsIn,Ne.symm here]
    rw [foreign]
    rcases outcome with ⟨left,_⟩ | ⟨left,_⟩
    · simp [left,List.filter_map,Function.comp_def,Ne.symm here]
    · simp [left,List.filter_map,Function.comp_def,Ne.symm here,Function.update_of_ne here]

theorem notices_run {notices : List Notice} (run : Run w steps w') (told : (steps.map fun s => s.label.callback) = notices.map Notice.callback)
    (up : Up s w) (meets : ∀ n ∈ notices, n.Meets s) (well : ∀ s ∈ steps, Well s.label.script) :
    Up s w' ∧ (∀ q, w.storage q = [] ∨ (∃ n ∈ notices, n.ctx.db = q) → w'.storage q = []) ∧ ∀ q, Lossless q w steps w' := by
  induction notices generalizing w steps with
  | nil =>
    cases List.map_eq_nil_iff.mp told
    rcases run.ends with ⟨_,rfl⟩ | ⟨_,_,impossible,_⟩
    · exact ⟨up,fun q empty => empty.resolve_right (by simp),fun q => by simp [Lossless,deliveredIn,takenIn,stepsIn]⟩
    · simp at impossible
  | cons n notices ih =>
    obtain ⟨edge,rest,rfl,first,others⟩ := List.map_eq_cons_iff.mp told
    obtain ⟨before,taken,later⟩ := run.uncons
    obtain ⟨start,⟨callback,script⟩,after⟩ := edge
    cases before
    cases first
    obtain ⟨up',left,sent⟩ := notice_step taken up (meets n List.mem_cons_self) (well _ List.mem_cons_self)
    obtain ⟨final,empties,kept⟩ := ih later others up' (fun n member => meets n (List.mem_cons_of_mem _ member))
      fun s member => well s (List.mem_cons_of_mem _ member)
    refine ⟨final,fun q empty => empties q ?_,fun q => ?_⟩
    · by_cases here : q = n.ctx.db
      · exact .inl (by rw [left,here,Function.update_self])
      · rw [left,Function.update_of_ne here]
        refine empty.imp_right ?_
        rintro ⟨m,member,same⟩
        rcases List.mem_cons.mp member with rfl | member
        · exact absurd same.symm here
        · exact ⟨m,member,same⟩
    · have takes : Takes start n.ctx n.key := ⟨(meets n List.mem_cons_self).1,up.enabled,by
        rw [up.settings]
        exact (meets n List.mem_cons_self).2⟩
      have hands : n.callback.hands start = [n.body].map fun body => (n.ctx.db,body) := if_pos takes
      exact lossless_cons (lossless_step hands (.inr ⟨left,sent⟩) q) (kept q)

theorem gives_well {broker : Broker} (given : broker.Gives answers left) (frames : ∀ n, (broker.waits n).frame.closing = false)
    (waits : ∀ n k, ∀ a ∈ (broker.waits n).answers k, a.Well ∧ ¬ a.Misleads) (sockets : ∀ n, broker.sockets n = false)
    (statuses : ∀ n, broker.statuses n = AMQP_STATUS_OK) (replies : ∀ n, broker.replies n = AMQP_RESPONSE_NORMAL) :
    Well answers := by
  induction given with
  | nothing => exact fun _ member => by cases member
  | wait k rest ih =>
    intro a member
    rcases List.mem_cons.mp member with rfl | member
    · exact ⟨trivial,Bool.not_eq_true _ ▸ frames 0⟩
    rcases List.mem_append.mp member with heard | later
    · exact waits 0 k a heard
    · exact ih (fun n => frames (n+1)) (fun n => waits (n+1)) sockets statuses replies a later
  | socket rest ih =>
    have later := ih frames waits (fun n => sockets (n+1)) statuses replies
    exact List.forall_mem_cons.mpr ⟨⟨sockets 0,id⟩,later⟩
  | status rest ih =>
    have later := ih frames waits sockets (fun n => statuses (n+1)) replies
    exact List.forall_mem_cons.mpr ⟨⟨statuses 0,id⟩,later⟩
  | rpc rest ih =>
    have later := ih frames waits sockets statuses (fun n => replies (n+1))
    exact List.forall_mem_cons.mpr ⟨⟨replies 0,id⟩,later⟩

theorem calm_well {n k : Nat} (member : a ∈ (calm.waits n).answers k) : a.Well ∧ ¬ a.Misleads := by
  cases k with
  | zero => cases member
  | succ k =>
    have one : (calm.waits n).answers (k+1) = [.waited AMQP_STATUS_TIMEOUT none] := by
      simp [calm,Wait.answers,Stream'.Seq.take_succ_cons]
    rw [one,List.mem_singleton] at member
    subst member
    exact ⟨⟨.inr rfl,fun frame written => by cases written⟩,id⟩

theorem due_well {callback : Callback} (due : callback.Due w) :
    ∃ script w', step w ⟨callback,script⟩ = some w' ∧ Well script := by
  obtain ⟨script,left,w',given,taken⟩ := callback_ends due fun _ => calm_patient
  exact ⟨script,w',taken,gives_well given (fun _ => rfl) (fun _ _ _ => calm_well) (fun _ => rfl) (fun _ => rfl) fun _ => rfl⟩

theorem notices_can (w : World) (notices : List Notice) : ∃ steps w', Run w steps w' ∧
    (steps.map fun s => s.label.callback) = notices.map Notice.callback ∧ ∀ s ∈ steps, Well s.label.script := by
  induction notices generalizing w with
  | nil => exact ⟨[],w,.nil,rfl,fun _ member => by cases member⟩
  | cons n notices ih =>
    obtain ⟨script,m,taken,well⟩ := due_well (show n.callback.Due w from trivial)
    obtain ⟨steps,w',run,told,answered⟩ := ih m
    refine ⟨_,w',run.cons taken,by rw [List.map_cons,List.map_cons,told],fun s member => ?_⟩
    rcases List.mem_cons.mp member with rfl | later
    · exact well
    · exact answered s later

theorem well_answered {steps : List Step} (well : ∀ s ∈ steps, Well s.label.script) : Answered steps ∧ Unmisled steps :=
  ⟨fun s member a inside => (well s member a inside).1,fun s member a inside => (well s member a inside).2⟩

-- However a run has gone: while the module is enabled and has its timer, a timer pending
-- can fire and events can come, and if the broker is well from then on, and no uninitialised
-- frame looks like a close, the connection is up, the list of every database that an event
-- comes from has gone out, and nothing is lost.
theorem backlog_recovers (loaded : Loaded ctx argv storage start) (run : Run start steps last) (clean : Clean start.storage)
    (enabled : last.amqpConnectionEnabled = true) (set : last.heardBeatTimerId ≠ 0) (flags : UInt32) (notices : List Notice)
    (meets : ∀ n ∈ notices, n.Meets last.settings) :
    (∃ fired ∈ last.timers, fired.id = last.heardBeatTimerId) ∧ ∀ fired ∈ last.timers,
      (∃ more w, Run last more w ∧ (more.map fun s => s.label.callback) = .timer fired flags :: notices.map Notice.callback ∧
        Answered more ∧ Unmisled more) ∧
      ∀ more w, Run last more w →
        (more.map fun s => s.label.callback) = .timer fired flags :: notices.map Notice.callback →
        Answered more → Unmisled more →
        Up last.settings w ∧ (∀ n ∈ notices, w.storage n.ctx.db = []) ∧
          (last.conn = none → w.storage fired.db = []) ∧ ∀ q, Lossless q last more w := by
  refine ⟨(run_pending loaded run).1 set,fun fired pending => ⟨?_,?_⟩⟩
  · obtain ⟨script,m,taken,well⟩ := due_well (show (Callback.timer fired flags).Due last from pending)
    obtain ⟨more,w,later,told,answered⟩ := notices_can m notices
    refine ⟨_,w,later.cons taken,by rw [List.map_cons,told],well_answered fun s member => ?_⟩
    rcases List.mem_cons.mp member with rfl | member
    · exact well
    · exact answered s member
  · intro more w onward told answered unmisled
    have well : ∀ s ∈ more, Well s.label.script := fun s member a inside => ⟨answered s member a inside,unmisled s member a inside⟩
    have clean : Clean last.storage := (run.throughout (fun w => Clean w.storage) (fun _ => True) clean
      (fun _ taken _ old => clean_step taken old) fun _ _ => trivial).1
    obtain ⟨edge,rest,rfl,first,others⟩ := List.map_eq_cons_iff.mp told
    obtain ⟨before,taken,later⟩ := onward.uncons
    obtain ⟨begun,⟨callback,script⟩,m⟩ := edge
    cases first
    change begun = last at before
    subst before
    obtain ⟨up,outcome⟩ := timer_step taken enabled clean (well _ List.mem_cons_self)
    obtain ⟨final,empties,kept⟩ := notices_run later others up meets fun s member => well s (List.mem_cons_of_mem _ member)
    refine ⟨final,fun n member => empties n.ctx.db (.inr ⟨n,member,rfl⟩),fun down => empties fired.db (.inl ?_),fun q => ?_⟩
    · obtain ⟨_,left,_⟩ := outcome.resolve_left fun live => live.1 down
      rw [left,Function.update_self]
    · have hands : (Callback.timer fired flags).hands begun = ([] : List Bytes).map fun body => (fired.db,body) := rfl
      refine lossless_cons (lossless_step hands ?_ q) (kept q)
      exact outcome.imp (fun ⟨_,left,sent⟩ => ⟨left,sent⟩) fun ⟨_,left,sent⟩ => ⟨left,sent⟩

-- An outage in which two databases stored events. The timer's list goes out with the
-- connection, and the other's with the next event there.
theorem backlog_recovers_outage : ∃ start steps last more w, Run start steps last ∧ last.storage 0 ≠ [] ∧ last.storage 1 ≠ [] ∧
    Run last more w ∧ w.storage 0 = [] ∧ w.storage 1 = [] ∧ Lossless 1 last more w := by
  let notice : Notice := ⟨master 1,0x100,cstr (ascii "expired"),ascii "c"⟩
  obtain ⟨start,steps,last,loaded,run,seen⟩ := played_run (master 0) (allKeys "0") (fun _ => [])
    [expired 0 "a" [.socket false,.status 1],expired 1 "b" []]
    (fun _ _ last => decide (last.storage 0 ≠ [] ∧ last.storage 1 ≠ [] ∧ last.conn = none ∧ last.amqpConnectionEnabled = true ∧
      last.timers = [⟨3,0⟩] ∧ last.heardBeatTimerId = 3 ∧ last.settings.keyMaskArr = [KEY_MASK_ALL])) (by decide +kernel)
  obtain ⟨here,there,down,enabled,timers,set,masks⟩ := of_decide_eq_true seen
  have clean : Clean start.storage := by
    rw [(loaded_store loaded).1]
    intro db bytes member
    cases member
  have meets : ∀ n ∈ [notice], n.Meets last.settings := by
    intro n member
    cases List.mem_singleton.mp member
    exact ⟨by decide,KEY_MASK_ALL,by simp [masks],.inl rfl⟩
  have recovers := (backlog_recovers loaded run clean enabled (by simp [set]) 0 [notice] meets).2 ⟨3,0⟩ (by simp [timers])
  obtain ⟨⟨more,w,onward,told,answered,unmisled⟩,always⟩ := recovers
  obtain ⟨_,empties,timer,kept⟩ := always more w onward told answered unmisled
  exact ⟨start,steps,last,more,w,run,here,there,onward,timer down,empties notice (by simp),kept 1⟩

end KeyspaceAmqp
