import KeyspaceAmqp.Heartbeat
import KeyspaceAmqp.Library.Lives

namespace KeyspaceAmqp
open Programs Paths Lives

def wired (log : List Call) : List (Option Nat × AmqpCall) :=
  log.filterMap fun | .amqp conn call => some (conn,call) | _ => none

def session (conn : Option Nat) (log : List Call) : List AmqpCall := callsOn conn (wired log)

@[simp] theorem session_append (conn : Option Nat) (log later : List Call) :
    session conn (log ++ later) = session conn log ++ session conn later := by
  simp [session,wired,List.filterMap_append]

theorem wired_said (conn : Option Nat) (said : List AmqpCall) :
    wired (said.map (Call.amqp conn)) = said.map fun call => (conn,call) := by
  simp [wired,List.filterMap_map]

theorem session_said (conn : Option Nat) (said : List AmqpCall) : session conn (said.map (Call.amqp conn)) = said := by
  rw [session,wired_said,callsOn_same]

theorem session_other (other : conn' ≠ conn) (said : List AmqpCall) :
    session conn (said.map (Call.amqp conn')) = [] := by
  rw [session,wired_said,callsOn_other other]

theorem session_quiet (quiet : ∀ c ∈ log, c.part ≠ .session ∧ c.part ≠ .publishes) : session conn log = [] := by
  have none : wired log = [] := by
    refine List.filterMap_eq_nil_iff.mpr ?_
    intro c member
    obtain ⟨unsaid,unpublished⟩ := quiet c member
    cases c with
    | amqp conn call => cases call <;> first | exact absurd rfl unsaid | exact absurd rfl unpublished
    | _ => rfl
  rw [session,none,callsOn_nil]

theorem mem_session : call ∈ session conn log ↔ .amqp conn call ∈ log := by
  rw [session,mem_callsOn,wired,List.mem_filterMap]
  constructor
  · rintro ⟨c,member,meaning⟩
    cases c with
    | amqp conn call => cases meaning; exact member
    | _ => cases meaning
  · exact fun member => ⟨_,member,rfl⟩

def opening (hostname : CString) (port : UInt16) (heartbeat : UInt32) (username password : CString) : List AmqpCall :=
  [.newConnection,.tcpSocketNew false,.socketOpen hostname port 0,
    .login heartbeat username password AMQP_RESPONSE_NORMAL,.channelOpen 1,.getRpcReply AMQP_RESPONSE_NORMAL]

def BeganOpen (said : List AmqpCall) : Prop := ∃ hostname port heartbeat username password,
  opening hostname port heartbeat username password <+: said

-- What may be asked of the current connection: something an opened session has, and no
-- further call takes away.
structure Standing where
  holds : List AmqpCall → Prop
  grows : holds said → holds (said ++ more)
  opened : holds (opening hostname port heartbeat username password)

def Standing.any : Standing := ⟨fun _ => True,id,trivial⟩

def Standing.opening : Standing where
  holds := BeganOpen
  grows := by
    rintro said more ⟨_,_,_,_,_,began⟩
    exact ⟨_,_,_,_,_,began.trans (List.prefix_append _ _)⟩
  opened := ⟨_,_,_,_,_,List.prefix_refl _⟩

abbrev Lived (said : List AmqpCall) : Prop := Life .newConnection .destroyConnection said
abbrev Living (said : List AmqpCall) : Prop := Alive .newConnection .destroyConnection said

-- Every connection is made once, before anything is said on it, and destroyed last; the
-- current one still lives. The numbers given out from here on are those of no connection.
structure Sessions (standing : Standing) (log : List Call) (conn : Option Nat) (handles : Nat) : Prop where
  null : session none log = []
  fresh : ∀ h, handles < h → session (some h) log = []
  lives : ∀ conn, Lived (session conn log)
  current : ∀ h, conn = some h → Living (session (some h) log) ∧ standing.holds (session (some h) log)

variable {standing other : Standing} {said : List AmqpCall}

theorem Sessions.quiet (sessions : Sessions standing log conn handles) (silent : ∀ conn, session conn more = [])
    (older : handles ≤ handles') : Sessions standing (log ++ more) conn handles' where
  null := by rw [session_append,sessions.null,silent]; rfl
  fresh h newer := by rw [session_append,sessions.fresh h (Nat.lt_of_le_of_lt older newer),silent]; rfl
  lives conn := by rw [session_append,silent,List.append_nil]; exact sessions.lives conn
  current h same := by rw [session_append,silent,List.append_nil]; exact sessions.current h same

theorem Sessions.known (sessions : Sessions standing log conn handles) (living : Living (session (some h) log)) :
    h ≤ handles := by
  by_contra newer
  obtain ⟨_,born,_⟩ := living.born
  rw [sessions.fresh h (Nat.lt_of_not_le newer)] at born
  cases born

theorem Sessions.talks (sessions : Sessions standing log conn handles) (older : handles ≤ handles')
    (known : h ≤ handles') (lived : Lived (session (some h) log ++ said))
    (current : ∀ g, conn' = some g → g = h ∧ Living (session (some h) log ++ said) ∧
      other.holds (session (some h) log ++ said)) :
    Sessions other (log ++ said.map (.amqp (some h))) conn' handles' := by
  have grown : session (some h) (log ++ said.map (.amqp (some h))) = session (some h) log ++ said := by
    rw [session_append,session_said]
  have others (conn : Option Nat) (different : some h ≠ conn) :
      session conn (log ++ said.map (.amqp (some h))) = session conn log := by
    rw [session_append,session_other different,List.append_nil]
  refine ⟨(others none (by simp)).trans sessions.null,?_,?_,?_⟩
  · intro g newer
    have different : some h ≠ some g := by
      intro same
      cases same
      omega
    exact (others _ different).trans (sessions.fresh g (Nat.lt_of_le_of_lt older newer))
  · intro conn
    by_cases same : some h = conn
    · subst same
      exact grown ▸ lived
    · rw [others conn same]
      exact sessions.lives conn
  · intro g same
    obtain ⟨rfl,living,good⟩ := current g same
    rw [grown]
    exact ⟨living,good⟩

theorem Sessions.says (sessions : Sessions standing log (some h) handles) (said : List AmqpCall) (once : .newConnection ∉ said)
    (kept : .destroyConnection ∉ said) :
    Sessions standing (log ++ said.map (.amqp (some h))) (some h) handles := by
  obtain ⟨living,good⟩ := sessions.current h rfl
  have grown := living.grow once kept
  refine sessions.talks (Nat.le_refl _) (sessions.known living) (.alive grown) ?_
  rintro g ⟨rfl⟩
  exact ⟨rfl,grown,standing.grows good⟩

theorem Sessions.destroys (sessions : Sessions standing log (some h) handles) :
    Sessions other (log ++ [.amqp (some h) .destroyConnection]) none handles := by
  have living := (sessions.current h rfl).1
  exact sessions.talks (Nat.le_refl _) (sessions.known living) (.ended living) (by simp)

theorem Sessions.makes (sessions : Sessions standing log none handles) (once : .newConnection ∉ said)
    (kept : .destroyConnection ∉ said) (good : other.holds (.newConnection :: said)) :
    Sessions other (log ++ (.newConnection :: said).map (.amqp (some (handles+1)))) (some (handles+1)) (handles+1) := by
  have unseen := sessions.fresh (handles+1) (Nat.lt_succ_self _)
  have living : Living (.newConnection :: said) := ⟨⟨said,rfl,once⟩,by simpa using kept⟩
  refine sessions.talks (Nat.le_succ _) (Nat.le_refl _) (by rw [unseen]; exact .alive living) ?_
  rintro g ⟨rfl⟩
  rw [unseen]
  exact ⟨rfl,living,good⟩

theorem Sessions.closed (sessions : Sessions standing log none handles) : Sessions other log none handles :=
  ⟨sessions.null,sessions.fresh,sessions.lives,by simp⟩

abbrev Sound (standing : Standing) (past : List Call) (w : World) : Prop :=
  Sessions standing (past ++ w.trace) w.conn w.handles

theorem Touches.sound (touches : Touches parts w w') (unsaid : .session ∉ parts) (unpublished : .publishes ∉ parts)
    (sound : Sound standing past w) : Sound standing past w' := by
  obtain ⟨more,added,inside⟩ := touches.calls
  rw [Sound,added,touches.conn.resolve_left unsaid,← List.append_assoc]
  refine sound.quiet (fun conn => session_quiet ?_) touches.handles
  intro c member
  exact ⟨fun same => unsaid (same ▸ inside c member),fun same => unpublished (same ▸ inside c member)⟩

theorem amqpWaitFrame_sound (ran : Ends amqpWaitFrame w res w') (sound : Sound standing past w) (live : w.conn ≠ none) :
    Sound standing past w' ∧ w'.conn = w.conn := by
  obtain ⟨left,said,heard,rfl⟩ := amqpWaitFrame_heard ran
  obtain ⟨h,conn⟩ := Option.ne_none_iff_exists'.mp live
  refine ⟨?_,rfl⟩
  rw [Sound,conn] at sound
  simp only [Sound,conn,← List.append_assoc]
  exact sound.says said (fun made => by cases heard _ made) fun destroyed => by cases heard _ destroyed

theorem amqpDisconnect_sound (ran : Ends amqpDisconnect w res w') (sound : Sound standing past w) :
    Sound other past w' ∧ w'.conn = none := by
  rcases amqpDisconnect_parts ran with ⟨closed,_,rfl⟩ | ⟨live,_,rfl⟩
  · rw [Sound,closed] at sound ⊢
    exact ⟨sound.closed,rfl⟩
  · obtain ⟨h,conn⟩ := Option.ne_none_iff_exists'.mp live
    rw [Sound,conn] at sound
    have closing := sound.says [.channelClose 1,.connectionClose] (by simp) (by simp)
    have closed : Sessions other _ none w.handles := closing.destroys
    refine ⟨?_,rfl⟩
    simpa [Sound,conn] using closed

theorem amqpPublish_sound (ran : Ends (amqpPublish body) w res w') (sound : Sound standing past w) :
    Sound standing past w' := by
  simp only [amqpPublish,ends_bind,ends_get,ends_ite,ends_pure,not_not] at ran
  obtain ⟨_,_,⟨rfl,rfl⟩,⟨live,status,m,waited,ran⟩ | ⟨_,_,rfl⟩⟩ := ran
  · obtain ⟨heard,same⟩ := amqpWaitFrame_sound waited sound live
    rcases ran with ⟨_,_,n,down,_,rfl⟩ | ⟨_,asked⟩
    · exact (amqpDisconnect_sound down heard).1
    · obtain ⟨_,rest,_,_,rfl⟩ := ends_askAmqp.mp asked
      obtain ⟨h,conn⟩ := Option.ne_none_iff_exists'.mp (same ▸ live)
      rw [Sound,conn] at heard
      have asked := heard.says [.basicPublish w.settings.exchange w.settings.routingKey w.settings.deliveryMode
        body.bytes res] (by simp) (by simp)
      simpa [Sound,conn] using asked
  · exact sound

theorem Rounds.sound (rounds : Rounds key w res w') (sound : Sound standing past w) : Sound standing past w' := by
  induction rounds with
  | @empty w list =>
    have popped : Touches [.lists] w _ := .called (.listPop key none) (by simp) w
    exact popped.sound (by decide) (by decide) sound
  | refused list tried bad =>
    have tried := amqpPublish_sound tried ((popped_touches _ _ _ _).sound (by decide) (by decide) sound)
    exact (restored_touches _ _ _).sound (by decide) (by decide) tried
  | sent list tried later ih =>
    have tried := amqpPublish_sound tried ((popped_touches _ _ _ _).sound (by decide) (by decide) sound)
    exact ih ((counted_touches _ _).sound (by decide) (by decide) tried)

theorem publishStoredEvents_sound (ran : Ends (publishStoredEvents ctx) w res w') (sound : Sound standing past w) :
    Sound standing past w' := by
  obtain ⟨key,m,db,_,rounds,ended⟩ := publishStoredEvents_parts ran
  have looped := rounds.sound ((opened_touches w key).sound (by decide) (by decide) sound)
  rcases ended with ⟨_,rfl⟩ | ⟨_,rfl⟩
  · exact looped
  · exact (deleted_touches m key).sound (by decide) (by decide) looped

theorem publishEvent_sound (ran : Ends (publishEvent ctx event keyname) w u w') (sound : Sound standing past w) :
    Sound standing past w' := by
  let body := messageString ctx.db event keyname
  have entered : Touches [.events] w (w.entered ctx.db body) := .called (.publishEvent ctx.db body) (by simp) w
  have begun := entered.sound (by decide) (by decide) sound
  have stores {m : World} (pushed : Ends (pushEventToStorage ctx body) m () w') : Touches [.lists,.strings,.keys] m w' :=
    Keeps.keeps pushed
  rcases publishEvent_ways ran with ⟨_,res,m,tried,⟨_,pushed⟩ | ⟨_,_,drained⟩⟩ | ⟨_,pushed⟩
  · exact (stores pushed).sound (by decide) (by decide) (amqpPublish_sound tried begun)
  · exact publishStoredEvents_sound drained (amqpPublish_sound tried begun)
  · exact (stores pushed).sound (by decide) (by decide) begun

theorem Attempt.once (attempt : Attempt s answers said res) : .newConnection ∉ said ∧ .destroyConnection ∉ said := by
  cases attempt <;> simp

theorem made_sound (sound : Sound standing past w) (closed : w.conn = none) (attempt : Attempt s answers said res)
    (good : other.holds (.newConnection :: said)) : Sound other past (w.made said script) := by
  rw [Sound,closed] at sound
  have made := sound.makes attempt.once.1 attempt.once.2 good
  rwa [List.append_assoc] at made

theorem amqpConnect_sound (ran : Ends amqpConnect w res w') (sound : Sound standing past w)
    (fine : (∀ said, standing.holds said) ∨ res ≠ REDIS_AMQP_SOCKET_ERR) : Sound standing past w' := by
  rcases amqpConnect_parts ran with ⟨_,_,rfl⟩ | ⟨closed,answers,said,rest,attempt,_,outcome⟩
  · exact sound
  split at outcome
  · rename_i stays
    subst outcome
    refine made_sound sound closed attempt ?_
    rcases fine with every | socket
    · exact every _
    · cases attempt with
      | opened => exact standing.opened
      | socket => exact absurd rfl socket
      | _ => rcases stays with same | same <;> cases same
  · obtain ⟨_,down⟩ := outcome
    have made : Sound .any past (w.made said rest) := made_sound sound closed attempt trivial
    exact (amqpDisconnect_sound down made).1

theorem Sessions.any (sessions : Sessions standing log conn handles) : Sessions .any log conn handles :=
  ⟨sessions.null,sessions.fresh,sessions.lives,fun h same => ⟨(sessions.current h same).1,trivial⟩⟩

theorem reconnect_sound (ran : Ends (reconnect ctx) w u w') (sound : Sound standing past w) : Sound standing past w' := by
  simp only [reconnect,ends_bind,ends_ite,ends_pure] at ran
  obtain ⟨res,m,connected,⟨ok,_,_,drained,_,rfl⟩ | ⟨_,_,_,down,_,rfl⟩⟩ := ran
  · exact publishStoredEvents_sound drained (amqpConnect_sound connected sound (.inr (by rw [ok]; decide)))
  · exact (amqpDisconnect_sound down (amqpConnect_sound connected sound.any (.inl fun _ => trivial))).1

theorem checkConnection_sound (ran : Ends (checkConnection ctx) w u w') (sound : Sound standing past w) :
    Sound standing past w' := by
  simp only [checkConnection,ends_bind,ends_get,ends_ite,ends_pure] at ran
  obtain ⟨_,_,⟨rfl,rfl⟩,⟨live,status,m,waited,⟨_,_,n,down,ran⟩ | ⟨_,_,rfl⟩⟩ | ⟨_,ran⟩⟩ := ran
  · exact reconnect_sound ran (amqpDisconnect_sound down (amqpWaitFrame_sound waited sound live).1).1
  · exact (amqpWaitFrame_sound waited sound live).1
  · exact reconnect_sound ran sound

-- A step that tries to connect and gets no socket, where nothing cleans up after it: an
-- event that finds no timer set, or a connect.
def Strands (s : Step) : Prop :=
  connectOutcome s.before.conn s.label.script = some REDIS_AMQP_SOCKET_ERR ∧
  ((SeenAsMaster s ∧ s.before.amqpConnectionEnabled = true ∧ s.before.heardBeatTimerId = 0) ∨
    ∃ argv, s.label.callback.carries = some (.connect,argv) ∧ Accepts s.before.settings argv)

theorem event_sound {s : Step} (ran : Ends (onKeyspaceEvent ctx type event key) (s.before.given s.label.script) res s.after)
    (seen : s.label.callback = .keyspaceEvent ctx type name key)
    (sound : Sound standing past (s.before.given s.label.script))
    (fine : (∀ said, standing.holds said) ∨ ¬ Strands s) : Sound standing past s.after := by
  rcases onKeyspaceEvent_parts ran with ⟨master,enabled,m,first,looped⟩ | ⟨_,same⟩
  · have begun : Sound standing past m := by
      rcases firstEvent_parts first with ⟨_,rfl⟩ | ⟨idle,response,n,connected,rfl⟩
      · exact sound
      refine (armed_touches n ctx.db).sound (by decide) (by decide) (amqpConnect_sound connected sound ?_)
      refine fine.imp_right fun safe => ?_
      rintro rfl
      exact safe ⟨amqpConnect_outcome connected,.inl ⟨⟨_,_,_,_,seen,master⟩,enabled,idle⟩⟩
    rcases forwardLoop_parts looped with ⟨_,published⟩ | ⟨_,same⟩
    · exact publishEvent_sound published begun
    · exact same ▸ begun
  · exact same ▸ sound

theorem timer_sound (ran : Ends (fireTimer t flags) w u w') (sound : Sound standing past w) : Sound standing past w' := by
  have begun := (fired_touches w t).sound (by decide) (by decide) sound
  obtain ⟨_,⟨_,rfl⟩ | ⟨_,m,checked,rfl⟩⟩ := fireTimer_parts ran
  · exact begun
  · exact (armed_touches m t.db).sound (by decide) (by decide) (checkConnection_sound checked begun)

theorem reply_sound (sound : Sound standing past w) (reply : Reply) :
    Sound standing past {w with trace := w.trace ++ [.reply reply]} := by
  have replied : Touches [.replies] w {w with trace := w.trace ++ [.reply reply]} := .called (.reply reply) (by simp) w
  exact replied.sound (by decide) (by decide) sound

theorem connect_sound (ran : Ends (connectAmqpCommand ctx argv) w res w') (sound : Sound standing past w)
    (fine : (∀ said, standing.holds said) ∨
      ¬ (Accepts w.settings argv ∧ connectOutcome w.conn w.script = some REDIS_AMQP_SOCKET_ERR)) :
    Sound standing past w' := by
  obtain ⟨m,configured,script,⟨_,rfl⟩ | ⟨accepted,response,n,connected,outcome⟩⟩ := connectAmqpCommand_parts ran
  · exact reply_sound (configured.sound (by decide) (by decide) sound) _
  have outcome' := amqpConnect_outcome connected
  rw [configured.conn.resolve_left (by decide),script] at outcome'
  have connected : Sound standing past n := by
    refine amqpConnect_sound connected (configured.sound (by decide) (by decide) sound) (fine.imp_right fun safe => ?_)
    rintro rfl
    exact safe ⟨accepted,outcome'⟩
  rcases outcome with ⟨_,text,rfl⟩ | ⟨_,text,rfl⟩
  · exact reply_sound connected _
  · have armed := (armed_touches n ctx.db).sound (by decide) (by decide) connected
    have enabled : Sound standing past {n.armed ctx.db with amqpConnectionEnabled := true} := armed
    exact reply_sound enabled (.simpleString text)

theorem disconnect_sound (ran : Ends (disconnectAmqpCommand argv) w res w') (sound : Sound standing past w) :
    Sound standing past w' := by
  obtain ⟨m,response,n,final,arity,down,rfl⟩ := disconnectAmqpCommand_parts ran
  have arity : Touches [.replies] w m := Keeps.keeps arity
  have begun : Sound standing past {m with amqpConnectionEnabled := false} := arity.sound (by decide) (by decide) sound
  have stopped := (stopped_touches {m with amqpConnectionEnabled := false}).sound (by decide) (by decide) begun
  have down : Sound standing past n := (amqpDisconnect_sound down stopped).1
  exact reply_sound down final

theorem step_sound (taken : step s.before s.label = some s.after)
    (sound : Sessions standing past s.before.conn s.before.handles)
    (fine : (∀ said, standing.holds said) ∨ ¬ Strands s) : Sound standing past s.after := by
  have sound : Sound standing past (s.before.given s.label.script) := by
    rw [Sound,World.given,List.append_nil]
    exact sound
  obtain ⟨before,⟨callback,script⟩,after⟩ := s
  have happens := step_happens taken
  cases happens with
  | event ran => exact event_sound ran rfl sound fine
  | timer ran => exact timer_sound ran sound
  | ignored unknown aside => exact aside.touches.sound (by decide) (by decide) sound
  | carried command argv known aside ran later =>
    have begun := aside.touches.sound (by decide) (by decide) sound
    refine later.touches.sound (by decide) (by decide) ?_
    rcases body_parts command ran with ⟨rfl,ran⟩ | ⟨rfl,ran⟩ | ⟨_,_,touched⟩
    · refine connect_sound ran begun (fine.imp_right fun safe => ?_)
      rw [aside.same.settings,aside.same.conn,aside.same.script]
      rintro ⟨accepted,outcome⟩
      exact safe ⟨outcome,.inr ⟨argv,known,accepted⟩⟩
    · exact disconnect_sound ran begun
    · exact touched.sound (by decide) (by decide) begun

theorem run_sound (loaded : Loaded ctx argv storage start) (run : Run start steps last)
    (fine : ∀ s ∈ steps, (∀ said, standing.holds said) ∨ ¬ Strands s) :
    Sessions standing (calls steps) last.conn last.handles := by
  refine run.carry (fun done w => Sessions standing (calls done) w.conn w.handles)
    (fun s => (∀ said, standing.holds said) ∨ ¬ Strands s) ?_ ?_ fine
  · obtain ⟨script,touched⟩ := loaded_touches loaded
    have closed : start.conn = none := touched.conn.resolve_left (by decide)
    rw [closed]
    exact ⟨rfl,fun _ _ => rfl,fun _ => .unseen,by simp⟩
  · intro done s _ taken fine sound
    rw [calls_snoc]
    exact step_sound taken sound fine

theorem count_session (conn : Option Nat) (call : AmqpCall) (log : List Call) :
    log.count (.amqp conn call) = (session conn log).count call := by
  induction log with
  | nil => rfl
  | cons c rest ih =>
    have parts : session conn (c :: rest) = session conn [c] ++ session conn rest := session_append conn [c] rest
    rw [parts,List.count_append,← ih,List.count_cons,Nat.add_comm]
    congr 1
    cases c with
    | amqp other said =>
      by_cases same : other = conn
      · subst same
        have one : session other [.amqp other said] = [said] := session_said other [said]
        simp [one,List.count_singleton]
      · have none : session conn [.amqp other said] = [] := session_other same [said]
        simp [none,same]
    | _ => rfl

-- No call is made without a connection or on a destroyed one, and none is destroyed twice.
theorem connections_used_alive (loaded : Loaded ctx argv storage start) (run : Run start steps last) :
    (∀ before conn call after, calls steps = before ++ .amqp conn call :: after → conn ≠ none ∧
      (call = .newConnection → ∀ earlier, .amqp conn earlier ∉ before) ∧
      (call ≠ .newConnection → .amqp conn .newConnection ∈ before ∧ .amqp conn .destroyConnection ∉ before)) ∧
    ∀ conn, (calls steps).count (.amqp conn .destroyConnection) ≤ 1 := by
  have sessions : Sessions .any (calls steps) last.conn last.handles := run_sound loaded run fun _ _ => .inl fun _ => trivial
  refine ⟨?_,fun conn => count_session conn _ _ ▸ (sessions.lives conn).count_destroy⟩
  intro before conn call after parts
  have said : session conn (calls steps) = session conn before ++ call :: session conn after := by
    have here : session conn (.amqp conn call :: after) = call :: session conn after := by
      rw [session,wired,List.filterMap_cons]
      exact callsOn_cons_same conn call _
    rw [parts,session_append,here]
  obtain ⟨first,later⟩ := (said ▸ sessions.lives conn).inside
  refine ⟨?_,?_,?_⟩
  · rintro rfl
    rw [sessions.null] at said
    simp at said
  · intro making earlier member
    have member := mem_session.mpr member
    rw [first making] at member
    cases member
  · intro used
    obtain ⟨⟨rest,born,_⟩,kept⟩ := later used
    exact ⟨mem_session.mp (by simp [born]),fun destroyed => kept (mem_session.mpr destroyed)⟩

theorem connections_used_alive_drain : ∃ start steps last, Run start steps last ∧
    (delivered (calls steps) = [ascii "0\nexpired\na"] ∧ last.conn = none ∧ (last.storage 0).length = 1) ∧
    (∃ conn, (calls steps).count (.amqp conn .destroyConnection) = 1) ∧
    ∀ conn, (calls steps).count (.amqp conn .destroyConnection) ≤ 1 := by
  obtain ⟨start,steps,last,loaded,run,seen⟩ := played_run (master 0) (allKeys "0") (fun _ => [])
    [expired 0 "a" [.socket false,.status 1],expired 0 "b" [],⟨.timer ⟨3,0⟩ 0,[.socket false,.status 0,.rpc 2]⟩,
      ⟨.timer ⟨9,0⟩ 0,connects ++ accepts ++ loses⟩]
    (fun _ steps last => decide ((delivered (calls steps) = [ascii "0\nexpired\na"] ∧ last.conn = none ∧
      (last.storage 0).length = 1) ∧ (calls steps).count (.amqp (some 2) .destroyConnection) = 1)) (by decide +kernel)
  obtain ⟨lost,one⟩ := of_decide_eq_true seen
  exact ⟨start,steps,last,run,lost,⟨_,one⟩,(connections_used_alive loaded run).2⟩

end KeyspaceAmqp
