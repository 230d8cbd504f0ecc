import KeyspaceAmqp.Heartbeat

namespace KeyspaceAmqp
open Programs Paths

variable {s : Step} {w w' : World}

-- What amqpWaitFrame returns, from the answers to come, and those it leaves.
def waitOutcome : List Answer → Option (Int32 × List Answer)
  | .garbage frame :: rest => (waitLoop none rest frame []).map fun r => (r.1,r.2.1)
  | _ => none

def clear (script : List Answer) : Bool := (waitOutcome script).any fun r => r.1 == AMQP_STATUS_OK

theorem amqpWaitFrame_outcome (ran : Ends amqpWaitFrame w res w') :
    waitOutcome w.script = some (res,w'.script) := by
  obtain ⟨frame,script,left,made,asked,looped,rfl⟩ := amqpWaitFrame_parts.mp ran
  obtain ⟨_,_,_,alike⟩ := waitLoop_says looped
  have looped := alike none [] []
  rw [List.append_nil,List.append_nil] at looped
  simp [asked,waitOutcome,looped]

def Published (log : List Call) : Prop := ∃ c ∈ log, c.part = .publishes

theorem published_iff : Published log ↔ ∃ conn exchange routingKey deliveryMode body status,
    .amqp conn (.basicPublish exchange routingKey deliveryMode body status) ∈ log := by
  constructor
  · rintro ⟨c,member,same⟩
    cases c with
    | amqp conn call => cases call <;> first | exact ⟨_,_,_,_,_,_,member⟩ | cases same
    | _ => cases same
  · rintro ⟨_,_,_,_,_,_,member⟩
    exact ⟨_,member,rfl⟩

theorem Touches.published (touches : Touches parts w w') (outside : .publishes ∉ parts) :
    Published w'.trace ↔ Published w.trace := touches.made outside

theorem Touches.publishes (touches : Touches parts w w') (published : Published w.trace) : Published w'.trace := by
  obtain ⟨more,added,_⟩ := touches.calls
  obtain ⟨c,member,same⟩ := published
  exact ⟨c,by simp [added,member],same⟩

theorem amqpPublish_publishes (ran : Ends (amqpPublish body) w res w') (live : w.conn ≠ none) :
    (Published w'.trace ↔ Published w.trace ∨ clear w.script = true) ∧ (clear w.script = false → res ≠ AMQP_STATUS_OK) := by
  simp only [amqpPublish,ends_bind,ends_get,ends_ite,ends_pure,not_not] at ran
  obtain ⟨_,_,⟨rfl,rfl⟩,⟨_,status,m,waited,ran⟩ | ⟨closed,_⟩⟩ := ran
  · have outcome := amqpWaitFrame_outcome waited
    have heard : Touches [.session] w m := Keeps.keeps waited
    rcases ran with ⟨bad,_,n,down,rfl,rfl⟩ | ⟨ok,asked⟩
    · have unclear : clear w.script = false := by simp [clear,outcome,bad]
      have down : Touches [.session] m n := Keeps.keeps down
      refine ⟨?_,fun _ => by decide⟩
      rw [(heard.trans down).published (by decide),unclear]
      simp
    · have clear : clear w.script = true := by simp [clear,outcome,ok]
      obtain ⟨_,rest,_,_,rfl⟩ := ends_askAmqp.mp asked
      refine ⟨iff_of_true ⟨_,List.mem_append_right _ (List.mem_singleton.mpr rfl),rfl⟩ (.inr clear),?_⟩
      simp [clear]
  · exact absurd closed live

abbrev draining : List Part := [.session,.publishes,.lists,.strings,.count,.keys]
abbrev handling : List Part := [.lists,.strings,.keys]

theorem publishStoredEvents_first (ran : Ends (publishStoredEvents ctx) w res w') :
    (w.storage ctx.db = [] ∧ Touches handling w w') ∨
    (w.storage ctx.db ≠ [] ∧ ∃ m status n body, Touches handling w m ∧ m.script = w.script ∧ m.conn = w.conn ∧
      Ends (amqpPublish body) m status n ∧ Touches (if status = AMQP_STATUS_OK then draining else handling) n w') := by
  obtain ⟨key,m,db,_,rounds,ended⟩ := publishStoredEvents_parts ran
  have begun : Touches handling w (w.opened key) := (opened_touches w key).mono (by simp)
  have closing : Touches handling m w' := by
    rcases ended with ⟨_,rfl⟩ | ⟨_,rfl⟩
    · exact .refl _
    · exact (deleted_touches m key).mono (by simp)
  cases rounds with
  | empty list =>
    have empty : w.storage ctx.db = [] := db ▸ list
    exact .inl ⟨empty,(begun.trans (.called (.listPop key none) (by simp) _)).trans closing⟩
  | @refused status _ n bytes rest list tried bad =>
    have waiting : w.storage ctx.db ≠ [] := by simp [← db,show w.storage key.db = _ from list]
    refine .inr ⟨waiting,_,status,n,_,begun.trans ((popped_touches _ _ _ _).mono (by simp)),rfl,rfl,tried,?_⟩
    rw [if_neg bad]
    exact ((restored_touches _ _ _).mono (by simp)).trans closing
  | @sent _ _ n _ bytes rest list tried later =>
    have waiting : w.storage ctx.db ≠ [] := by simp [← db,show w.storage key.db = _ from list]
    refine .inr ⟨waiting,_,_,n,_,begun.trans ((popped_touches _ _ _ _).mono (by simp)),rfl,rfl,tried,?_⟩
    rw [if_pos rfl]
    exact (((counted_touches _ _).mono (by simp)).trans (later.touches.mono (by simp))).trans (closing.mono (by simp))

theorem publishStoredEvents_publishes (ran : Ends (publishStoredEvents ctx) w res w') (live : w.conn ≠ none) :
    Published w'.trace ↔ Published w.trace ∨ (w.storage ctx.db ≠ [] ∧ clear w.script = true) := by
  rcases publishStoredEvents_first ran with ⟨empty,touched⟩ | ⟨waiting,m,status,n,body,begun,script,conn,tried,ended⟩
  · rw [touched.published (by decide)]
    simp [empty]
  obtain ⟨published,lost⟩ := amqpPublish_publishes tried (conn ▸ live)
  rw [begun.published (by decide),script] at published
  rw [script] at lost
  simp only [waiting,ne_eq,not_false_eq_true,true_and]
  split at ended
  · rename_i ok
    have sent : clear w.script = true := (Bool.not_eq_false _).mp fun unclear => lost unclear ok
    exact iff_of_true (ended.publishes (published.mpr (.inr sent))) (.inr sent)
  · rw [ended.published (by decide),published]

def reopened (conn : Option Nat) (script : List Answer) : Option (List Answer) :=
  let gone := if conn = none then some script else match waitOutcome script with
    | some (status,rest) => if status ≠ AMQP_STATUS_OK then some rest else none
    | none => none
  gone.bind fun rest => if connectOutcome none rest = some REDIS_AMQP_OK then some (rest.drop 4) else none

theorem reconnect_drains (ran : Ends (reconnect ctx) w u w') (closed : w.conn = none) :
    (connectOutcome none w.script ≠ some REDIS_AMQP_OK ∧ Touches [.session] w w') ∨
    (connectOutcome none w.script = some REDIS_AMQP_OK ∧ ∃ m res, Touches [.session] w m ∧
      m.script = w.script.drop 4 ∧ m.conn ≠ none ∧ Ends (publishStoredEvents ctx) m res w') := by
  simp only [reconnect,ends_bind,ends_ite,ends_pure] at ran
  obtain ⟨res,m,connected,ran⟩ := ran
  have outcome := amqpConnect_outcome connected
  rw [closed] at outcome
  have tried : Touches [.session] w m := Keeps.keeps connected
  rcases ran with ⟨rfl,_,_,drained,_,rfl⟩ | ⟨bad,_,n,down,_,rfl⟩
  · rcases amqpConnect_parts connected with ⟨_,impossible,_⟩ | ⟨_,answers,said,rest,attempt,script,left⟩
    · cases impossible
    rw [if_pos (.inl rfl)] at left
    subst left
    cases attempt
    exact .inr ⟨outcome,_,_,tried,by rw [script]; rfl,by simp [World.made],drained⟩
  · exact .inl ⟨by simpa [outcome] using bad,tried.trans (Keeps.keeps down)⟩

theorem checkConnection_drains (ran : Ends (checkConnection ctx) w u w') :
    (reopened w.conn w.script = none ∧ Touches [.session] w w') ∨
    ∃ left m res, reopened w.conn w.script = some left ∧ Touches [.session] w m ∧ m.script = left ∧ m.conn ≠ none ∧
      Ends (publishStoredEvents ctx) m res w' := by
  simp only [checkConnection,ends_bind,ends_get,ends_ite,ends_pure,not_not] at ran
  obtain ⟨_,_,⟨rfl,rfl⟩,⟨live,status,m,waited,ran⟩ | ⟨closed,ran⟩⟩ := ran
  · have outcome := amqpWaitFrame_outcome waited
    have heard : Touches [.session] w m := Keeps.keeps waited
    simp only [reopened,if_neg live,outcome]
    rcases ran with ⟨lost,_,n,down,ran⟩ | ⟨well,_,rfl⟩
    · have script : n.script = m.script := by
        rcases amqpDisconnect_parts down with ⟨_,_,rfl⟩ | ⟨_,_,rfl⟩ <;> rfl
      have gone : Touches [.session] w n := heard.trans (Keeps.keeps down)
      simp only [if_pos lost,Option.bind_some,← script]
      rcases reconnect_drains ran (amqpDisconnect_wire down).2 with ⟨failed,touched⟩ | ⟨opened,o,res,tried,left,live,drained⟩
      · exact .inl ⟨if_neg failed,gone.trans touched⟩
      · exact .inr ⟨_,o,res,if_pos opened,gone.trans tried,left,live,drained⟩
    · simp only [if_neg (not_not.mpr well),Option.bind_none]
      exact .inl ⟨trivial,heard⟩
  · simp only [reopened,if_pos closed,Option.bind_some]
    rcases reconnect_drains ran closed with ⟨failed,touched⟩ | ⟨opened,o,res,tried,left,live,drained⟩
    · exact .inl ⟨if_neg failed,touched⟩
    · exact .inr ⟨_,o,res,if_pos opened,tried,left,live,drained⟩

theorem fireTimer_drains (ran : Ends (fireTimer t flags) w u w') :
    ((w.amqpConnectionEnabled = true → reopened w.conn w.script = none) ∧ Touches [.session,.heartbeat] w w') ∨
    (w.amqpConnectionEnabled = true ∧ ∃ left m res n, reopened w.conn w.script = some left ∧
      Touches [.session,.heartbeat] w m ∧ m.script = left ∧ m.conn ≠ none ∧
      Ends (publishStoredEvents ⟨t.db,flags⟩) m res n ∧ w' = n.armed t.db) := by
  have fired : Touches [.session,.heartbeat] w (w.fired t) := (fired_touches w t).mono (by simp)
  obtain ⟨_,⟨off,rfl⟩ | ⟨enabled,m,checked,rfl⟩⟩ := fireTimer_parts ran
  · refine .inl ⟨fun enabled => ?_,fired⟩
    rw [off] at enabled
    cases enabled
  rcases checkConnection_drains checked with ⟨closed,touched⟩ | ⟨left,n,res,opened,tried,script,live,drained⟩
  · have armed : Touches [.session,.heartbeat] m (m.armed t.db) := (armed_touches m t.db).mono (by simp)
    exact .inl ⟨fun _ => closed,(fired.trans (touched.mono (by simp))).trans armed⟩
  · exact .inr ⟨enabled,left,n,res,m,opened,fired.trans (tried.mono (by simp)),script,live,drained,rfl⟩

def Sends (s : Step) : Prop := ∃ conn exchange routingKey deliveryMode body status,
  .amqp conn (.basicPublish exchange routingKey deliveryMode body status) ∈ s.after.trace

-- A timer fires, the module is enabled, finds the connection gone and gets another, on
-- which nothing is amiss, and there are events stored in the timer's database.
def Redelivers (s : Step) : Prop := match s.label.callback with
  | .timer t _ => s.before.amqpConnectionEnabled = true ∧ s.before.storage t.db ≠ [] ∧
    (reopened s.before.conn s.label.script).any clear = true
  | _ => False

theorem timer_sends (ran : Ends (fireTimer t flags) (s.before.given s.label.script) () s.after)
    (firing : s.label.callback = .timer t flags) : Sends s ↔ Redelivers s := by
  have start : Published (s.before.given s.label.script).trace ↔ False := by simp [Published,World.given]
  rw [Sends,← published_iff,Redelivers,firing]
  rcases fireTimer_drains ran with ⟨idle,touched⟩ | ⟨enabled,left,m,res,n,opened,touched,script,live,drained,same⟩
  · have idle : s.before.amqpConnectionEnabled = true → reopened s.before.conn s.label.script = none := idle
    rw [touched.published (by decide),start,false_iff]
    rintro ⟨enabled,_,sends⟩
    rw [idle enabled] at sends
    cases sends
  · have enabled : s.before.amqpConnectionEnabled = true := enabled
    have opened : reopened s.before.conn s.label.script = some left := opened
    have listed : m.storage = s.before.storage := touched.lists.resolve_left (by decide)
    rw [same,(armed_touches n t.db).published (by decide),publishStoredEvents_publishes drained live,
      touched.published (by decide),start,listed,script,opened]
    simp [enabled]

-- The event's callback asks for the role before it does anything, the timer's never does,
-- and the commands send nothing.
theorem step_role (taken : step s.before s.label = some s.after) :
    (Sends s → isRedisMaster s.label.callback.ctx = true) ↔ (Redelivers s → isRedisMaster s.label.callback.ctx = true) := by
  obtain ⟨before,⟨callback,script⟩,after⟩ := s
  have silent {parts : List Part} (touches : Touches parts (before.given script) after) (unsent : .publishes ∉ parts) :
      ¬ Sends ⟨before,⟨callback,script⟩,after⟩ := by
    rw [Sends,← published_iff,touches.published unsent]
    simp [Published,World.given]
  have happens := step_happens taken
  cases happens with
  | event ran =>
    refine iff_of_true (fun sends => ?_) fun redelivers => redelivers.elim
    rcases onKeyspaceEvent_parts ran with ⟨master,_⟩ | ⟨_,same⟩
    · exact master
    · have untouched : Touches [] (before.given script) after := same ▸ .refl _
      exact absurd sends (silent untouched (by simp))
  | timer ran => rw [timer_sends ran rfl]
  | carried command argv known aside ran later =>
    have unsent := silent (carried_touches command aside ran later) (by decide)
    refine iff_of_true (fun sends => absurd sends unsent) fun redelivers => ?_
    cases callback <;> first | exact redelivers.elim | cases known
  | ignored unknown aside =>
    exact iff_of_true (fun sends => absurd sends (silent aside.touches (by decide))) fun redelivers => redelivers.elim

theorem only_masters_send_iff (run : Run start steps last) :
    (∀ s ∈ steps, Sends s → isRedisMaster s.label.callback.ctx = true) ↔
      ∀ s ∈ steps, Redelivers s → isRedisMaster s.label.callback.ctx = true :=
  forall₂_congr fun _ member => step_role (run.edge_taken member)

instance (s : Step) : Decidable (Redelivers s) := by
  unfold Redelivers
  cases s.label.callback <;> infer_instance

theorem only_masters_send_iff_demoted : ∃ start steps last, Run start steps last ∧ (∃ s ∈ steps, Redelivers s) ∧
    (∃ s ∈ steps, isRedisMaster s.label.callback.ctx = false) ∧
    ∀ s ∈ steps, Sends s → isRedisMaster s.label.callback.ctx = true := by
  obtain ⟨start,steps,last,loaded,run,seen⟩ := played_run (master 0) (allKeys "0") (fun _ => [])
    [expired 0 "a" [.socket false,.status 1],⟨.timer ⟨3,0⟩ REDISMODULE_CTX_FLAGS_MASTER,connects ++ accepts⟩,
      ⟨.timer ⟨9,0⟩ 0,idles⟩]
    (fun _ steps _ => decide ((∀ s ∈ steps, Redelivers s → isRedisMaster s.label.callback.ctx = true) ∧
      (∃ s ∈ steps, Redelivers s) ∧ ∃ s ∈ steps, isRedisMaster s.label.callback.ctx = false)) (by decide +kernel)
  obtain ⟨fine,resent,demoted⟩ := of_decide_eq_true seen
  exact ⟨start,steps,last,run,resent,demoted,(only_masters_send_iff run).mpr fine⟩

-- An event is stored in an outage, the node becomes a replica, and its timer sends it.
theorem replica_sends : ∃ start steps last, Loaded (master 0) (allKeys "0") (fun _ => []) start ∧ Run start steps last ∧
    ∃ s ∈ steps, Sends s ∧ isRedisMaster s.label.callback.ctx = false := by
  let stored : Turn := expired 0 "a" [.socket false,.status 1]
  let fires : Turn := ⟨.timer ⟨3,0⟩ 0,connects ++ accepts⟩
  obtain ⟨start,steps,last,loaded,run,seen⟩ := played_run (master 0) (allKeys "0") (fun _ => []) [stored,fires]
    (fun _ steps _ => decide (∃ s ∈ steps, Redelivers s ∧ isRedisMaster s.label.callback.ctx = false)) (by decide +kernel)
  obtain ⟨s,member,redelivers,demoted⟩ := of_decide_eq_true seen
  refine ⟨start,steps,last,loaded,run,s,member,?_,demoted⟩
  by_contra silent
  have role := (step_role (run.edge_taken member)).mp fun sends => absurd sends silent
  rw [role redelivers] at demoted
  cases demoted

end KeyspaceAmqp
