import KeyspaceAmqp.Replies

namespace KeyspaceAmqp
open Programs Paths

def repliesIn (trace : List Call) : List Reply := trace.filterMap fun
  | .reply r => some r
  | _ => none

theorem repliesIn_append (one two : List Call) : repliesIn (one ++ two) = repliesIn one ++ repliesIn two := List.filterMap_append

theorem Touches.repliesIn {w w' : World} (touches : Touches parts w w') (silent : .replies ∉ parts) :
    repliesIn w'.trace = repliesIn w.trace := by
  obtain ⟨more,added,inside⟩ := touches.calls
  have none : KeyspaceAmqp.repliesIn more = [] := by
    refine List.filterMap_eq_nil_iff.mpr ?_
    intro c member
    cases c with
    | reply r => exact absurd (inside _ member) silent
    | _ => rfl
  rw [added,repliesIn_append,none,List.append_nil]

def connectOk : CString := cstr (ascii "AMQP CONNECT OK")
def connectError (response : Int32) : CString := cstr (ascii "AMQP CONNECT ERROR: ") ++ decimal response.toInt
def disconnectOk : CString := cstr (ascii "AMQP DISCONNECT OK")
def disconnectError (response : Int32) : CString := cstr (ascii "AMQP DISCONNECT ERROR: ") ++ decimal response.toInt

-- What a command tells in a state, with the answers to come: only a connect and a disconnect
-- say anything, and the one asks the broker.
def Command.tells (w : World) (script : List Answer) (argv : List Bytes) : Command → List Reply
  | .connect =>
    if Accepts w.settings argv then ((connectOutcome w.conn script).map fun response =>
      if response = REDIS_AMQP_OK then Reply.simpleString connectOk else .error (connectError response)).toList
    else [.wrongArity]
  | .disconnect => (if argv.length > 1 then [.wrongArity] else []) ++
    [if w.conn = none then .error (disconnectError REDIS_AMQP_ERR) else .simpleString disconnectOk]
  | _ => []

structure LoopKept (w w' : World) : Prop where
  enabled : w'.amqpConnectionEnabled = w.amqpConnectionEnabled
  heartbeat : w'.heardBeatTimerId = w.heardBeatTimerId
  timers : w'.timers = w.timers

def Reply.Tells (w w' : World) : Reply → Prop
  | .wrongArity => True
  | .simpleString text =>
    (text = connectOk ∧ w.conn = none ∧ w'.conn ≠ none ∧ w'.amqpConnectionEnabled = true ∧
      ∃ t ∈ w'.timers, t.id = w'.heardBeatTimerId) ∨
    (text = disconnectOk ∧ w.conn ≠ none ∧ w'.conn = none ∧ w'.amqpConnectionEnabled = false ∧ w'.heardBeatTimerId = 0)
  | .error text => text.bytes.length < 32 ∧
    ((text = connectError REDIS_AMQP_ALREADY_CONNECTED ∧ w.conn ≠ none ∧ w'.conn = w.conn ∧ LoopKept w w') ∨
    (text = connectError REDIS_AMQP_SOCKET_ERR ∧ w.conn = none ∧ w'.conn ≠ none ∧ LoopKept w w') ∨
    (∃ response ∈ [REDIS_AMQP_CONNECTION_ERR,REDIS_AMQP_AUTH_ERR,REDIS_AMQP_CHANNEL_ERR],
      text = connectError response ∧ w.conn = none ∧ w'.conn = none ∧ LoopKept w w') ∨
    (text = disconnectError REDIS_AMQP_ERR ∧ w.conn = none ∧ w'.conn = none ∧ w'.amqpConnectionEnabled = false ∧
      w'.heardBeatTimerId = 0))

theorem LoopKept.said (kept : LoopKept w n) (trace : List Call) : LoopKept w {n with trace := trace} :=
  ⟨kept.enabled,kept.heartbeat,kept.timers⟩

theorem Reply.tells_congr {r : Reply} (before : Unmoved w m) (after : Unmoved n w') (tells : r.Tells m n) : r.Tells w w' := by
  have kept (fine : LoopKept m n) : LoopKept w w' :=
    ⟨after.enabled.trans (fine.enabled.trans before.enabled),after.heartbeat.trans (fine.heartbeat.trans before.heartbeat),
      after.timers.trans (fine.timers.trans before.timers)⟩
  cases r with
  | wrongArity => trivial
  | simpleString text =>
    simpa only [Reply.Tells,before.conn,after.conn,after.enabled,after.heartbeat,after.timers] using tells
  | error text =>
    simp only [Reply.Tells,before.conn,after.conn,after.enabled,after.heartbeat] at tells ⊢
    refine tells.imp_right (Or.imp ?_ (Or.imp ?_ (Or.imp_left ?_)))
    · exact fun ⟨same,live,left,fine⟩ => ⟨same,live,left,kept fine⟩
    · exact fun ⟨same,live,left,fine⟩ => ⟨same,live,left,kept fine⟩
    · exact fun ⟨response,one,same,live,left,fine⟩ => ⟨response,one,same,live,left,kept fine⟩

theorem connect_leaves (ran : Ends amqpConnect w res w') :
    (res = REDIS_AMQP_ALREADY_CONNECTED ∧ w.conn ≠ none ∧ w'.conn = w.conn) ∨
    (w.conn = none ∧ ((res = REDIS_AMQP_OK ∨ res = REDIS_AMQP_SOCKET_ERR) ∧ w'.conn ≠ none ∨
      res ∈ [REDIS_AMQP_CONNECTION_ERR,REDIS_AMQP_AUTH_ERR,REDIS_AMQP_CHANNEL_ERR] ∧ w'.conn = none)) := by
  rcases amqpConnect_parts ran with ⟨live,already,rfl⟩ | ⟨closed,answers,said,rest,attempt,_,left⟩
  · exact .inl ⟨already,live,rfl⟩
  refine .inr ⟨closed,?_⟩
  cases attempt with
  | opened =>
    rw [if_pos (.inl rfl)] at left
    subst left
    exact .inl ⟨.inl rfl,by simp [World.made]⟩
  | socket =>
    rw [if_pos (.inr rfl)] at left
    subst left
    exact .inl ⟨.inr rfl,by simp [World.made]⟩
  | _ =>
    rw [if_neg (by decide)] at left
    obtain ⟨_,down⟩ := left
    exact .inr ⟨by decide,(amqpDisconnect_wire down).2⟩

theorem connectAmqpCommand_tells {w w' : World} (ran : Ends (connectAmqpCommand ctx argv) w res w') :
    repliesIn w'.trace = repliesIn w.trace ++ Command.connect.tells w w.script argv ∧
      ∀ r ∈ Command.connect.tells w w.script argv, r.Tells w w' := by
  simp only [connectAmqpCommand,ends_bind,ends_ite,ends_pure,ends_modify,ends_emit,createTimer_parts] at ran
  obtain ⟨status,m,configured,ran⟩ := ran
  obtain ⟨⟨_,_,script⟩,result⟩ := setupConfig_same configured
  have touched : Touches [.settings,.count,.keys] w m := Keeps.keeps configured
  have quiet := touched.repliesIn (by decide)
  have conn : m.conn = w.conn := touched.conn.resolve_left (by decide)
  have begun : LoopKept w m := ⟨touched.enabled.resolve_left (by decide),touched.heartbeat.resolve_left (by decide),
    touched.timers.resolve_left (by decide)⟩
  rcases ran with ⟨bad,_,_,rfl,_,rfl⟩ | ⟨ok,response,n,connected,ran⟩
  · have refused : ¬ Accepts w.settings argv := fun fine => bad (result.mpr fine)
    simp only [Command.tells,if_neg refused]
    exact ⟨by rw [repliesIn_append,quiet]; rfl,by simp [Reply.Tells]⟩
  have accepted : Accepts w.settings argv := result.mp (not_not.mp ok)
  have outcome : connectOutcome w.conn w.script = some response := by
    rw [← conn,← script]
    exact amqpConnect_outcome connected
  have wired : Touches [.session] m n := Keeps.keeps connected
  have silent := (wired.repliesIn (by decide)).trans quiet
  have loop : LoopKept w n := ⟨(wired.enabled.resolve_left (by decide)).trans begun.enabled,
    (wired.heartbeat.resolve_left (by decide)).trans begun.heartbeat,(wired.timers.resolve_left (by decide)).trans begun.timers⟩
  have leaves := connect_leaves connected
  rw [conn] at leaves
  simp only [Command.tells,if_pos accepted,outcome,Option.map_some,Option.toList_some,List.mem_singleton,forall_eq]
  rcases ran with ⟨failed,_,_,rfl,_,rfl⟩ | ⟨done,_,_,⟨rfl,rfl⟩,_,_,rfl,_,_,rfl,_,rfl⟩
  · rw [if_neg failed]
    refine ⟨by rw [repliesIn_append,silent]; rfl,?_⟩
    rcases leaves with ⟨rfl,live,left⟩ | ⟨closed,⟨rfl | rfl,left⟩ | ⟨one,left⟩⟩
    · exact ⟨by decide,.inl ⟨rfl,live,left,loop.said _⟩⟩
    · exact absurd rfl failed
    · exact ⟨by decide,.inr (.inl ⟨rfl,closed,left,loop.said _⟩)⟩
    · have fits : (connectError response).bytes.length < 32 := by
        simp only [List.mem_cons,List.not_mem_nil,or_false] at one
        rcases one with rfl | rfl | rfl <;> decide
      exact ⟨fits,.inr (.inr (.inl ⟨response,one,rfl,closed,left,loop.said _⟩))⟩
  · cases not_not.mp done
    rw [if_pos rfl]
    refine ⟨?_,?_⟩
    · rw [repliesIn_append,repliesIn_append,silent,List.append_assoc]
      rfl
    · rcases leaves with ⟨impossible,_⟩ | ⟨closed,⟨_,left⟩ | ⟨impossible,_⟩⟩
      · cases impossible
      · exact .inl ⟨rfl,closed,left,rfl,⟨n.handles+1,ctx.db⟩,by simp,rfl⟩
      · exact absurd impossible (by decide)

theorem wrongArityWhen_tells {w w' : World} (ran : Ends (wrongArityWhen wrong) w u w') :
    repliesIn w'.trace = repliesIn w.trace ++ if wrong then [.wrongArity] else [] := by
  rcases ends_ite.mp ran with ⟨reported,said⟩ | ⟨fine,ran⟩
  · cases ends_emit.mp said
    rw [repliesIn_append,if_pos reported]
    rfl
  · obtain ⟨_,rfl⟩ := ends_pure.mp ran
    rw [if_neg fine,List.append_nil]

theorem complained_tells {rest : List Reply} (tells : ∀ r ∈ rest, r.Tells w w') {wrong : Prop} [Decidable wrong] :
    ∀ r ∈ (if wrong then [Reply.wrongArity] else []) ++ rest, r.Tells w w' := by
  intro r member
  rcases List.mem_append.mp member with complaint | told
  · split at complaint
    · cases List.mem_singleton.mp complaint
      trivial
    · cases complaint
  · exact tells r told

theorem disconnectAmqpCommand_tells {w w' : World} (ran : Ends (disconnectAmqpCommand argv) w res w') :
    repliesIn w'.trace = repliesIn w.trace ++ Command.disconnect.tells w w.script argv ∧
      ∀ r ∈ Command.disconnect.tells w w.script argv, r.Tells w w' := by
  simp only [disconnectAmqpCommand,ends_bind,ends_ite,ends_pure,ends_modify,ends_emit] at ran
  obtain ⟨_,m,arity,_,_,rfl,_,o,stopped,response,n,closing,ran⟩ := ran
  have complained := wrongArityWhen_tells arity
  have arity : Touches [.replies] w m := Keeps.keeps arity
  have stops : Touches [.heartbeat] {m with amqpConnectionEnabled := false} o := Keeps.keeps stopped
  have quiet : repliesIn o.trace = repliesIn m.trace := stops.repliesIn (by decide)
  have off : o.amqpConnectionEnabled = false := stops.enabled.resolve_left (by decide)
  have zero : o.heardBeatTimerId = 0 := congrArg World.heardBeatTimerId (stopHeartbeat_parts stopped)
  have conn : o.conn = w.conn := (stops.conn.resolve_left (by decide)).trans (arity.conn.resolve_left (by decide))
  simp only [decide_eq_true_eq] at complained
  rcases amqpDisconnect_parts closing with ⟨closed,rfl,rfl⟩ | ⟨live,rfl,rfl⟩
  · rcases ran with ⟨_,_,_,rfl,_,rfl⟩ | ⟨ok,_⟩
    · have down : w.conn = none := conn.symm.trans closed
      simp only [Command.tells,if_pos down]
      refine ⟨by rw [repliesIn_append,quiet,complained,List.append_assoc]; rfl,?_⟩
      refine complained_tells (List.forall_mem_singleton.mpr ?_)
      exact ⟨by decide,.inr (.inr (.inr ⟨rfl,down,closed,off,zero⟩))⟩
    · exact absurd ok (by decide)
  · rcases ran with ⟨bad,_⟩ | ⟨_,_,_,rfl,_,rfl⟩
    · exact absurd rfl bad
    · have up : w.conn ≠ none := conn ▸ live
      have closes (h : Option Nat) : repliesIn [.amqp h (.channelClose 1),.amqp h .connectionClose,.amqp h .destroyConnection] = [] := rfl
      simp only [Command.tells,if_neg up]
      refine ⟨by rw [repliesIn_append,repliesIn_append,closes,List.append_nil,quiet,complained,List.append_assoc]; rfl,?_⟩
      refine complained_tells (List.forall_mem_singleton.mpr ?_)
      exact .inr ⟨rfl,up,rfl,off,zero⟩

theorem body_tells {w w' : World} (command : Command) (ran : Ends (command.body ctx argv) w res w') :
    repliesIn w'.trace = repliesIn w.trace ++ command.tells w w.script argv ∧
      ∀ r ∈ command.tells w w.script argv, r.Tells w w' := by
  rcases body_parts command ran with ⟨rfl,ran⟩ | ⟨rfl,ran⟩ | ⟨connecting,disconnecting,touched⟩
  · exact connectAmqpCommand_tells ran
  · exact disconnectAmqpCommand_tells ran
  · have silent : command.tells w w.script argv = [] := by
      cases command <;> first | rfl | exact absurd rfl connecting | exact absurd rfl disconnecting
    rw [silent,List.append_nil]
    exact ⟨touched.repliesIn (by decide),fun _ told => (by cases told)⟩

-- What a client is told of a command is decided by its arguments, the state it finds and
-- what the broker answers, and it is true: OK to a connect means a new connection, with the
-- module on and its timer pending, each error names what failed and leaves the connection as
-- its code says, and after either answer to a disconnect there is no connection and no timer
-- set and the module is off. Every error fits the buffer it is printed to.
theorem replies_truthful {w w' : World} (taken : step w ⟨.command ctx name args,script⟩ = some w')
    (found : lookupCommand name = some command) :
    repliesIn w'.trace = (if command.wrong (name :: args) then [.wrongArity] else []) ++ command.tells w script (name :: args) ∧
    ∀ r ∈ repliesIn w'.trace, r.Tells w w' := by
  have ran := step_ends.mp taken
  simp only [Callback.run,found,ends_bind,ends_pure,handler_body] at ran
  obtain ⟨_,w',⟨_,m,arity,_,n,sent,ran⟩,_,rfl⟩ := ran
  have before : Aside (w.given script) n := ⟨(wrongArityWhen_same arity).trans (broadcastRedisCommand_same sent),
    Touches.trans (Keeps.keeps arity) (Keeps.keeps sent)⟩
  have given : Unmoved w (w.given script) := ⟨rfl,rfl,rfl,rfl,rfl,rfl,rfl⟩
  have unmoved := given.trans before.unmoved
  have sent : Touches [.broadcasts] m n := Keeps.keeps sent
  have complained := (sent.repliesIn (by decide)).trans (wrongArityWhen_tells arity)
  obtain ⟨said,tells⟩ := body_tells command ran
  have same : command.tells n n.script (name :: args) = command.tells w script (name :: args) := by
    rw [before.same.script]
    cases command with
    | connect =>
      simp only [Command.tells,unmoved.settings,unmoved.conn]
      rfl
    | disconnect => simp only [Command.tells,unmoved.conn]
    | _ => rfl
  rw [same] at said tells
  have whole : repliesIn w'.trace =
      (if command.wrong (name :: args) then [.wrongArity] else []) ++ command.tells w script (name :: args) := by
    rw [said,complained]
    rfl
  refine ⟨whole,?_⟩
  rw [whole]
  exact complained_tells fun r told => Reply.tells_congr unmoved (Aside.refl w').unmoved (tells r told)

theorem replies_truthful_refused : ∃ w w', step w (told .connect [] [.socket false,.status 1]) = some w' ∧
    repliesIn w'.trace = [.error (connectError REDIS_AMQP_CONNECTION_ERR)] ∧ w'.conn = none ∧
    Reply.Tells w w' (.error (connectError REDIS_AMQP_CONNECTION_ERR)) := by
  obtain ⟨w,w',_,taken,seen⟩ := played_step (master 0) (allKeys "0") (fun _ => [])
    (told .connect [] [.socket false,.status 1]) (fun w w' => decide (w'.conn = none ∧ Accepts w.settings [Command.connect.name] ∧
      w.conn = none)) (by decide +kernel)
  obtain ⟨down,accepted,closed⟩ := of_decide_eq_true seen
  obtain ⟨said,tells⟩ := replies_truthful taken (lookup_name .connect)
  have replies : repliesIn w'.trace = [.error (connectError REDIS_AMQP_CONNECTION_ERR)] := by
    rw [said]
    simp only [Command.tells,List.map_nil,if_pos accepted,closed]
    rfl
  exact ⟨w,w',taken,replies,down,tells _ (by simp [replies])⟩

end KeyspaceAmqp
