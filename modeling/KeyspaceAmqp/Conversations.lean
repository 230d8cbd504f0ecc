import KeyspaceAmqp.Operations
import KeyspaceAmqp.Sessions
import KeyspaceAmqp.Library.Monitors

namespace KeyspaceAmqp
open Programs Paths Relation Lives Monitors

-- Where a connection stands in the protocol the client library asks for: how far it is
-- opened, whether it is for a wait or may be published on, and how far it is taken down. A
-- wait that failed, a close that was answered and an opening refused all have it taken down.
-- A connection that amqp_tcp_socket_new had no socket for is never opened, and is waited and
-- published on like one that was: the phases for that say which of the two it is.
inductive Phase where
  | unmade | made | socketed | connected | authorised | asked
  | ready (opened : Bool) | heard (opened : Bool) | troubled (opened : Bool) | lost | rejected
  | closing | closed | destroyed
  deriving DecidableEq

def Phase.opened : Phase → Bool
  | .ready opened | .heard opened | .troubled opened => opened
  | _ => false

def Phase.listens : Phase → Bool
  | .ready _ | .heard _ | .troubled _ => true
  | _ => false

def Phase.answers : Phase → Bool
  | .heard _ | .troubled _ | .lost => true
  | _ => false

def Phase.closes : Phase → Bool
  | .ready _ | .heard _ | .troubled _ | .lost | .rejected => true
  | _ => false

def waitedPhase (opened : Bool) (status : Int32) : Phase :=
  if status = AMQP_STATUS_OK ∨ status = AMQP_STATUS_TIMEOUT then .heard opened
  else if status = AMQP_STATUS_CONNECTION_CLOSED then .lost else .troubled opened

def Phase.next (phase : Phase) : AmqpCall → Option Phase
  | .newConnection => if phase = .unmade then some .made else none
  | .tcpSocketNew null => if phase = .made then some (if null then .ready false else .socketed) else none
  | .socketOpen _ _ status => if phase = .socketed then some (if status = 0 then .connected else .rejected) else none
  | .login _ _ _ reply =>
    if phase = .connected then some (if reply = AMQP_RESPONSE_NORMAL then .authorised else .rejected) else none
  | .channelOpen channel => if phase = .authorised ∧ channel = 1 then some .asked else none
  | .getRpcReply reply =>
    if phase = .asked then some (if reply = AMQP_RESPONSE_NORMAL then .ready true else .rejected) else none
  | .simpleWaitFrameNoblock status => if phase.listens then some (waitedPhase phase.opened status) else none
  | .sendMethod _ method =>
    if phase.answers ∧ (method = AMQP_CONNECTION_CLOSE_OK_METHOD ∨ method = AMQP_CHANNEL_CLOSE_OK_METHOD) then some .rejected
    else none
  | .basicPublish _ _ _ _ _ => if phase = .heard phase.opened then some (.ready phase.opened) else none
  | .channelClose channel => if phase.closes ∧ channel = 1 then some .closing else none
  | .connectionClose => if phase = .closing then some .closed else none
  | .destroyConnection => if phase = .closed then some .destroyed else none

abbrev follows (phase : Phase) (said : List AmqpCall) : Option Phase := track Phase.next phase said

def conversation (h : Nat) (log : List Call) : Option Phase := follows .unmade (session (some h) log)

structure Talking (may : Phase → Bool) (log : List Call) (conn : Option Nat) (handles : Nat) : Prop where
  null : session none log = []
  fresh : ∀ h, handles < h → session (some h) log = []
  known : ∀ h, conn = some h → h ≤ handles
  others : ∀ h, conn ≠ some h → conversation h log = some .unmade ∨ conversation h log = some .destroyed
  current : ∀ h, conn = some h → ∃ phase, conversation h log = some phase ∧ may phase = true

def Phase.rests : Phase → Bool
  | .ready _ | .heard _ => true
  | _ => false

variable {may must : Phase → Bool} {said : List AmqpCall}

theorem Talking.quiet (talking : Talking may log conn handles) (silent : ∀ conn, session conn more = [])
    (older : handles ≤ handles') : Talking may (log ++ more) conn handles' where
  null := by rw [session_append,talking.null,silent]; rfl
  fresh h newer := by rw [session_append,talking.fresh h (Nat.lt_of_le_of_lt older newer),silent]; rfl
  known h same := (talking.known h same).trans older
  others h other := by
    simp only [conversation,session_append,silent,List.append_nil]
    exact talking.others h other
  current h same := by
    simp only [conversation,session_append,silent,List.append_nil]
    exact talking.current h same

theorem Talking.mono (talking : Talking may log conn handles) (wider : ∀ phase, may phase = true → must phase = true) :
    Talking must log conn handles where
  null := talking.null
  fresh := talking.fresh
  known := talking.known
  others := talking.others
  current h same := by
    obtain ⟨phase,at_,fine⟩ := talking.current h same
    exact ⟨phase,at_,wider phase fine⟩

theorem Talking.closed (talking : Talking may log none handles) : Talking must log none handles :=
  ⟨talking.null,talking.fresh,talking.known,talking.others,by simp⟩

theorem Talking.says (talking : Talking may log conn handles) (mine : conn = none ∨ conn = some h) (older : handles ≤ handles')
    (known : h ≤ handles') (tracked : follows .unmade (session (some h) log ++ said) = some phase)
    (left : (conn' = some h ∧ must phase = true) ∨ (conn' = none ∧ phase = .destroyed)) :
    Talking must (log ++ said.map (.amqp (some h))) conn' handles' := by
  have grown : session (some h) (log ++ said.map (.amqp (some h))) = session (some h) log ++ said := by
    rw [session_append,session_said]
  have elsewhere (conn : Option Nat) (different : some h ≠ conn) :
      session conn (log ++ said.map (.amqp (some h))) = session conn log := by
    rw [session_append,session_other different,List.append_nil]
  refine ⟨(elsewhere none (by simp)).trans talking.null,?_,?_,?_,?_⟩
  · intro g newer
    have different : some h ≠ some g := by
      intro same
      cases same
      omega
    exact (elsewhere _ different).trans (talking.fresh g (Nat.lt_of_le_of_lt older newer))
  · intro g same
    rcases left with ⟨rfl,_⟩ | ⟨rfl,_⟩
    · cases same
      exact known
    · cases same
  · intro g other
    by_cases here : h = g
    · subst here
      rcases left with ⟨same,_⟩ | ⟨_,rfl⟩
      · exact absurd same other
      · exact .inr (by rw [conversation,grown]; exact tracked)
    · have different : some h ≠ some g := by simpa using here
      have before : conn ≠ some g := by
        rcases mine with rfl | rfl
        · simp
        · exact different
      rw [conversation,elsewhere _ different]
      exact talking.others g before
  · intro g same
    rcases left with ⟨rfl,fine⟩ | ⟨rfl,_⟩
    · cases same
      exact ⟨phase,by rw [conversation,grown]; exact tracked,fine⟩
    · cases same

theorem Talking.goes (talking : Talking may log (some h) handles)
    (goes : ∀ phase, may phase = true → ∃ phase', follows phase said = some phase' ∧
      ((conn' = some h ∧ must phase' = true) ∨ (conn' = none ∧ phase' = .destroyed))) :
    Talking must (log ++ said.map (.amqp (some h))) conn' handles := by
  obtain ⟨phase,at_,fine⟩ := talking.current h rfl
  obtain ⟨phase',moved,left⟩ := goes phase fine
  exact talking.says (.inr rfl) (Nat.le_refl _) (talking.known h rfl) (track_two at_ moved) left

theorem Talking.makes (talking : Talking may log none handles)
    (tracked : follows .made said = some phase) (fine : must phase = true) :
    Talking must (log ++ (.newConnection :: said).map (.amqp (some (handles+1)))) (some (handles+1)) (handles+1) := by
  have unseen := talking.fresh (handles+1) (Nat.lt_succ_self _)
  refine talking.says (.inl rfl) (Nat.le_succ _) (Nat.le_refl _) ?_ (.inl ⟨rfl,fine⟩)
  rw [unseen]
  exact tracked

abbrev InTouch (may : Phase → Bool) (past : List Call) (w : World) : Prop :=
  Talking may (past ++ w.trace) w.conn w.handles

def Frame.answered (frame : Frame) : List AmqpCall :=
  if isMethod frame AMQP_CONNECTION_CLOSE_METHOD then [.sendMethod frame.channel AMQP_CONNECTION_CLOSE_OK_METHOD]
  else if isMethod frame AMQP_CHANNEL_CLOSE_METHOD then [.sendMethod frame.channel AMQP_CHANNEL_CLOSE_OK_METHOD]
  else []

theorem waitLoop_stops (off : ¬ GoesOn status (written.getD frame)) :
    waitLoop conn (.waited status written :: rest) frame earlier = some (verdict (written.getD frame) status,rest,
      earlier ++ (.simpleWaitFrameNoblock status :: (written.getD frame).answered).map (.amqp conn)) := by
  by_cases connection : isMethod (written.getD frame) AMQP_CONNECTION_CLOSE_METHOD
  · simp [waitLoop,verdict,Frame.closing,Frame.answered,connection]
  by_cases channel : isMethod (written.getD frame) AMQP_CHANNEL_CLOSE_METHOD
  · simp [waitLoop,verdict,Frame.closing,Frame.answered,connection,channel]
  have stop : ¬ (status ≠ AMQP_STATUS_CONNECTION_CLOSED ∧ status ≠ AMQP_STATUS_TIMEOUT ∧
      (written.getD frame).frameType ≠ 0 ∧ (written.getD frame).frameType ≠ AMQP_FRAME_HEARTBEAT) := by
    rintro ⟨alive,awake,kind⟩
    exact off ⟨alive,awake,by simp [Frame.closing,connection,channel],kind⟩
  simp only [waitLoop,verdict,Frame.closing,Frame.answered,connection,channel,if_neg stop]
  simp

-- A failed wait leaves a connection that is to be taken down, a good one a connection that
-- may be published on.
def Phase.awaits (res : Int32) : Phase → Bool
  | .heard _ => res = AMQP_STATUS_OK
  | .troubled _ | .lost | .rejected => res ≠ AMQP_STATUS_OK
  | _ => false

theorem waitedPhase_cases (opened : Bool) (status : Int32) :
    (waitedPhase opened status = .heard opened ∧ (status = AMQP_STATUS_OK ∨ status = AMQP_STATUS_TIMEOUT)) ∨
    ((waitedPhase opened status = .lost ∨ waitedPhase opened status = .troubled opened) ∧
      status ≠ AMQP_STATUS_OK ∧ status ≠ AMQP_STATUS_TIMEOUT) := by
  unfold waitedPhase
  split
  · rename_i fine
    exact .inl ⟨rfl,fine⟩
  · rename_i bad
    refine .inr ⟨?_,fun ok => bad (.inl ok),fun late => bad (.inr late)⟩
    split <;> simp

theorem answered_follows (opened : Bool) (frame : Frame) (status : Int32) :
    ∃ phase, follows (waitedPhase opened status) frame.answered = some phase ∧ phase.awaits (verdict frame status) = true := by
  have replied (channel : UInt16) (method : UInt32)
      (closes : method = AMQP_CONNECTION_CLOSE_OK_METHOD ∨ method = AMQP_CHANNEL_CLOSE_OK_METHOD) :
      follows (waitedPhase opened status) [.sendMethod channel method] = some .rejected := by
    have told : (waitedPhase opened status).answers = true := by
      rcases waitedPhase_cases opened status with ⟨phase,_⟩ | ⟨phase | phase,_⟩ <;> rw [phase] <;> rfl
    simp [follows,Phase.next,told,closes]
  by_cases connection : isMethod frame AMQP_CONNECTION_CLOSE_METHOD
  · have verdict : verdict frame status = AMQP_STATUS_CONNECTION_CLOSED := by simp [verdict,Frame.closing,connection]
    rw [Frame.answered,if_pos connection,verdict]
    exact ⟨.rejected,replied _ _ (.inl rfl),rfl⟩
  by_cases channel : isMethod frame AMQP_CHANNEL_CLOSE_METHOD
  · have verdict : verdict frame status = AMQP_STATUS_CONNECTION_CLOSED := by simp [verdict,Frame.closing,channel]
    rw [Frame.answered,if_neg connection,if_pos channel,verdict]
    exact ⟨.rejected,replied _ _ (.inr rfl),rfl⟩
  have unclosed : frame.closing = false := by simp [Frame.closing,connection,channel]
  rw [Frame.answered,if_neg connection,if_neg channel]
  refine ⟨_,rfl,?_⟩
  rcases waitedPhase_cases opened status with ⟨phase,rfl | rfl⟩ | ⟨phase,bad,awake⟩
  · simp [phase,Phase.awaits,verdict,unclosed]
  · simp [phase,Phase.awaits,verdict,unclosed]
  · rcases phase with phase | phase <;> simp [phase,Phase.awaits,verdict,unclosed,bad,awake]

-- Round by round: the loop goes on from a connection that still listens.
theorem waitLoop_follows (ran : waitLoop conn script frame earlier = some (res,left,made)) :
    ∃ said : List AmqpCall, made = earlier ++ said.map (.amqp conn) ∧ ∀ phase : Phase, phase.listens = true →
      ∃ phase', follows phase said = some phase' ∧ phase'.awaits res = true := by
  induction script generalizing frame earlier with
  | nil => simp [waitLoop] at ran
  | cons answer script ih =>
    cases answer with
    | waited status written =>
      by_cases on : GoesOn status (written.getD frame)
      · rw [waitLoop_on on] at ran
        obtain ⟨said,rfl,goes⟩ := ih ran
        have listens (opened : Bool) : (waitedPhase opened status).listens = true := by
          rcases waitedPhase_cases opened status with ⟨phase,_⟩ | ⟨phase,_⟩
          · rw [phase]; rfl
          · rcases phase with phase | phase
            · simp [waitedPhase,on.1,on.2.1] at phase
              split at phase <;> cases phase
            · rw [phase]; rfl
        refine ⟨.simpleWaitFrameNoblock status :: said,by simp,fun phase hears => ?_⟩
        obtain ⟨phase',followed,fine⟩ := goes _ (listens phase.opened)
        exact ⟨phase',by simpa [follows,Phase.next,hears] using followed,fine⟩
      · rw [waitLoop_stops on] at ran
        cases ran
        refine ⟨_,rfl,fun phase hears => ?_⟩
        obtain ⟨phase',followed,fine⟩ := answered_follows phase.opened (written.getD frame) status
        exact ⟨phase',by simpa [follows,Phase.next,hears] using followed,fine⟩
    | _ => simp [waitLoop] at ran

theorem amqpWaitFrame_talking (ran : Ends amqpWaitFrame w res w') (live : w.conn ≠ none) (talking : InTouch Phase.rests past w) :
    InTouch (Phase.awaits res) past w' ∧ w'.conn = w.conn := by
  obtain ⟨frame,script,left,made,_,looped,rfl⟩ := amqpWaitFrame_parts.mp ran
  obtain ⟨said,rfl,goes⟩ := waitLoop_follows looped
  obtain ⟨h,conn⟩ := Option.ne_none_iff_exists'.mp live
  refine ⟨?_,rfl⟩
  rw [InTouch,conn] at talking
  simp only [InTouch,conn,List.nil_append,← List.append_assoc]
  refine talking.goes fun phase rests => ?_
  have listens : phase.listens = true := by cases phase <;> first | rfl | cases rests
  obtain ⟨phase',followed,fine⟩ := goes phase listens
  exact ⟨phase',followed,.inl ⟨rfl,fine⟩⟩

theorem amqpDisconnect_talking (ran : Ends amqpDisconnect w res w') (talking : InTouch Phase.closes past w) :
    InTouch must past w' ∧ w'.conn = none := by
  rcases amqpDisconnect_parts ran with ⟨closed,_,rfl⟩ | ⟨live,_,rfl⟩
  · rw [InTouch,closed] at talking ⊢
    exact ⟨talking.closed,rfl⟩
  · obtain ⟨h,conn⟩ := Option.ne_none_iff_exists'.mp live
    rw [InTouch,conn] at talking
    have taken : ∀ phase : Phase, phase.closes = true →
        follows phase [.channelClose 1,.connectionClose,.destroyConnection] = some .destroyed := by
      intro phase closes
      simp [follows,Phase.next,closes]
    have down : Talking must _ none w.handles := talking.goes fun phase closes =>
      ⟨.destroyed,taken phase closes,.inr ⟨rfl,rfl⟩⟩
    refine ⟨?_,rfl⟩
    simpa [InTouch,conn] using down

theorem rests_closes (phase : Phase) (rests : phase.rests = true) : phase.closes = true := by
  cases phase <;> first | rfl | cases rests

theorem awaits_closes (phase : Phase) (awaits : phase.awaits res = true) : phase.closes = true := by
  cases phase <;> first | rfl | cases awaits

theorem amqpPublish_talking (ran : Ends (amqpPublish body) w res w') (talking : InTouch Phase.rests past w) :
    InTouch Phase.rests past w' := by
  simp only [amqpPublish,ends_bind,ends_get,ends_ite,ends_pure,not_not] at ran
  obtain ⟨_,_,⟨rfl,rfl⟩,⟨live,status,m,waited,ran⟩ | ⟨_,_,rfl⟩⟩ := ran
  · obtain ⟨heard,same⟩ := amqpWaitFrame_talking waited live talking
    rcases ran with ⟨_,_,n,down,_,rfl⟩ | ⟨fine,asked⟩
    · exact (amqpDisconnect_talking down (heard.mono awaits_closes)).1
    · obtain ⟨_,rest,_,_,rfl⟩ := ends_askAmqp.mp asked
      obtain ⟨h,conn⟩ := Option.ne_none_iff_exists'.mp (same ▸ live)
      rw [InTouch,conn,fine] at heard
      let call : AmqpCall :=
        .basicPublish w.settings.exchange w.settings.routingKey w.settings.deliveryMode body.bytes res
      have taken : ∀ phase : Phase, phase.awaits AMQP_STATUS_OK = true → follows phase [call] = some (.ready phase.opened) := by
        intro phase awaits
        cases phase with
        | heard opened => simp [follows,Phase.next,Phase.opened,call]
        | _ => cases awaits
      have asked : Talking Phase.rests _ (some h) m.handles := heard.goes fun phase awaits =>
        ⟨.ready phase.opened,taken phase awaits,.inl ⟨rfl,rfl⟩⟩
      simpa [InTouch,conn,call] using asked
  · exact talking

theorem Attempt.follows (attempt : Attempt s answers said res) : ∃ phase, KeyspaceAmqp.follows .made said = some phase ∧
    phase.closes = true ∧ (res = REDIS_AMQP_OK ∨ res = REDIS_AMQP_SOCKET_ERR → phase.rests = true) := by
  cases attempt with
  | socket => exact ⟨.ready false,rfl,rfl,fun _ => rfl⟩
  | opened => exact ⟨.ready true,rfl,rfl,fun _ => rfl⟩
  | connection failed | auth failed | channel failed =>
    refine ⟨.rejected,?_,rfl,fun fine => by rcases fine with fine | fine <;> cases fine⟩
    simp [KeyspaceAmqp.follows,Phase.next,failed]

theorem amqpConnect_talking (ran : Ends amqpConnect w res w') (talking : InTouch Phase.rests past w) :
    InTouch Phase.rests past w' := by
  rcases amqpConnect_parts ran with ⟨_,_,rfl⟩ | ⟨closed,answers,said,rest,attempt,_,outcome⟩
  · exact talking
  obtain ⟨phase,followed,closes,rests⟩ := attempt.follows
  rw [InTouch,closed] at talking
  have made {may : Phase → Bool} (fine : may phase = true) : InTouch may past (w.made said rest) := by
    have made := talking.makes followed fine
    rwa [List.append_assoc] at made
  split at outcome
  · rename_i stays
    exact outcome ▸ made (rests stays)
  · obtain ⟨_,down⟩ := outcome
    exact (amqpDisconnect_talking down (made closes)).1

theorem Touches.talking (touches : Touches parts w w') (unsaid : .session ∉ parts) (unpublished : .publishes ∉ parts)
    (talking : InTouch may past w) : InTouch may past w' := by
  obtain ⟨more,added,inside⟩ := touches.calls
  rw [InTouch,added,touches.conn.resolve_left unsaid,← List.append_assoc]
  refine talking.quiet (fun conn => session_quiet ?_) touches.handles
  intro c member
  exact ⟨fun same => unsaid (same ▸ inside c member),fun same => unpublished (same ▸ inside c member)⟩

theorem Operation.talking (operation : Operation w w') (talking : InTouch Phase.rests past w) :
    InTouch Phase.rests past w' := by
  cases operation with
  | quiet touches _ unsaid unpublished => exact touches.talking unsaid unpublished talking
  | connects ran => exact amqpConnect_talking ran talking
  | disconnects ran => exact (amqpDisconnect_talking ran (talking.mono rests_closes)).1
  | publishes ran => exact amqpPublish_talking ran talking
  | idles live ran =>
    refine (amqpWaitFrame_talking ran live talking).1.mono fun phase awaits => ?_
    cases phase <;> first | rfl | cases awaits
  | loses live waited _ closed =>
    exact (amqpDisconnect_talking closed ((amqpWaitFrame_talking waited live talking).1.mono awaits_closes)).1

theorem Operations.talking (operations : Operations w w') (talking : InTouch Phase.rests past w) :
    InTouch Phase.rests past w' := by
  induction operations with
  | refl => exact talking
  | tail _ operation ih => exact operation.talking ih

theorem step_talking {s : Step} (taken : step s.before s.label = some s.after)
    (talking : Talking Phase.rests past s.before.conn s.before.handles) : InTouch Phase.rests past s.after := by
  have begun : InTouch Phase.rests past (s.before.given s.label.script) := by
    rw [InTouch,World.given,List.append_nil]
    exact talking
  obtain ⟨m,settled,operations⟩ := step_configuring taken
  exact operations.talking (settled.talking (by decide) (by decide) begun)

theorem run_talking (loaded : Loaded ctx argv storage start) (run : Run start steps last) :
    Talking Phase.rests (calls steps) last.conn last.handles := by
  refine run.carry (fun done w => Talking Phase.rests (calls done) w.conn w.handles) (fun _ => True) ?_ ?_ fun _ _ => trivial
  · obtain ⟨script,touched⟩ := loaded_touches loaded
    have closed : start.conn = none := touched.conn.resolve_left (by decide)
    rw [closed]
    exact ⟨rfl,fun _ _ => rfl,by simp,fun _ _ => .inl rfl,by simp⟩
  · intro done s _ taken _ talking
    rw [calls_snoc]
    exact step_talking taken talking

-- Whether a connection went without a socket, as far as its phase still shows it.
def Phase.bare : Phase → Option Bool
  | .unmade | .made | .socketed | .connected | .authorised | .asked => some false
  | .ready opened | .heard opened | .troubled opened => some !opened
  | _ => none

theorem next_bare (taken : Phase.next here call = some there) (known : there.bare = some bare) :
    (call = .tcpSocketNew true ∧ bare = true) ∨ (call ≠ .tcpSocketNew true ∧ here.bare = some bare) := by
  cases call with
  | tcpSocketNew null =>
    simp only [Phase.next,Option.ite_none_right_eq_some,Option.some.injEq] at taken
    obtain ⟨rfl,rfl⟩ := taken
    cases null with
    | false => exact .inr ⟨by simp,known⟩
    | true =>
      cases known
      exact .inl ⟨rfl,rfl⟩
  | simpleWaitFrameNoblock status =>
    simp only [Phase.next,Option.ite_none_right_eq_some,Option.some.injEq] at taken
    obtain ⟨listens,rfl⟩ := taken
    refine .inr ⟨by simp,?_⟩
    have waited : (waitedPhase here.opened status).bare = some bare → some (!here.opened) = some bare := by
      rcases waitedPhase_cases here.opened status with ⟨phase,_⟩ | ⟨phase | phase,_⟩ <;> rw [phase]
      · exact id
      · exact fun impossible => by cases impossible
      · exact id
    rw [← waited known]
    cases here <;> first | rfl | cases listens
  | basicPublish =>
    simp only [Phase.next,Option.ite_none_right_eq_some,Option.some.injEq] at taken
    obtain ⟨heard,rfl⟩ := taken
    rw [heard]
    exact .inr ⟨by simp,known⟩
  | newConnection =>
    simp only [Phase.next,Option.ite_none_right_eq_some,Option.some.injEq] at taken
    obtain ⟨rfl,rfl⟩ := taken
    exact .inr ⟨by simp,known⟩
  | channelOpen channel =>
    simp only [Phase.next,Option.ite_none_right_eq_some,Option.some.injEq] at taken
    obtain ⟨⟨rfl,_⟩,rfl⟩ := taken
    exact .inr ⟨by simp,known⟩
  | socketOpen _ _ status | login _ _ _ status | getRpcReply status =>
    simp only [Phase.next,Option.ite_none_right_eq_some,Option.some.injEq] at taken
    obtain ⟨rfl,rfl⟩ := taken
    -- A refusal leaves a phase that no longer shows it.
    split at known
    · exact .inr ⟨by simp,known⟩
    · cases known
  | sendMethod | channelClose | connectionClose | destroyConnection =>
    simp only [Phase.next,Option.ite_none_right_eq_some,Option.some.injEq] at taken
    obtain ⟨_,rfl⟩ := taken
    cases known

theorem follows_bare (followed : follows .unmade said = some phase) (known : phase.bare = some bare) :
    bare = true ↔ .tcpSocketNew true ∈ said := by
  induction said using List.reverseRecOn generalizing phase bare with
  | nil =>
    cases followed
    cases known
    simp
  | append_singleton said call ih =>
    obtain ⟨here,begun,taken⟩ := track_split followed
    have taken : Phase.next here call = some phase := by simpa using taken
    rcases next_bare taken known with ⟨rfl,rfl⟩ | ⟨other,known⟩
    · simp
    · simp [ih begun known,Ne.symm other]

-- Whatever comes to pass, all that was ever said on each connection is allowed by the
-- protocol, word by word, and between callbacks just the current connection is up, opened
-- unless it got no socket: each other was never made or has been taken down whole.
theorem conversations_follow_protocol (loaded : Loaded ctx argv storage start) (run : Run start steps last) :
    session none (calls steps) = [] ∧ ∀ h, ∃ phase, conversation h (calls steps) = some phase ∧
      (last.conn = some h → (phase = .ready phase.opened ∨ phase = .heard phase.opened) ∧
        (phase.opened = false ↔ .tcpSocketNew true ∈ session (some h) (calls steps))) ∧
      (last.conn ≠ some h → phase = .unmade ∨ phase = .destroyed) := by
  have talking := run_talking loaded run
  refine ⟨talking.null,fun h => ?_⟩
  by_cases current : last.conn = some h
  · obtain ⟨phase,at_,rests⟩ := talking.current h current
    refine ⟨phase,at_,fun _ => ?_,fun other => absurd current other⟩
    cases phase with
    | ready opened => exact ⟨.inl rfl,by simpa [Phase.opened] using follows_bare at_ rfl⟩
    | heard opened => exact ⟨.inr rfl,by simpa [Phase.opened] using follows_bare at_ rfl⟩
    | _ => cases rests
  · have others := talking.others h current
    rcases others with at_ | at_
    · exact ⟨_,at_,fun same => absurd same current,fun _ => .inl rfl⟩
    · exact ⟨_,at_,fun same => absurd same current,fun _ => .inr rfl⟩

-- A connection is lost while a stored event is sent on, and the timer's next one is refused
-- at the login.
def lossy : List Turn :=
  [expired 0 "a" [.socket false,.status 1],⟨.timer ⟨3,0⟩ 0,connects ++ loses⟩,⟨.timer ⟨9,0⟩ 0,[.socket false,.status 0,.rpc 2]⟩]

theorem conversations_follow_protocol_lossy : ∃ start steps last, Run start steps last ∧
    conversation 6 (calls steps) = some .destroyed ∧ last.storage 0 ≠ [] ∧
    ∀ h, ∃ phase, conversation h (calls steps) = some phase ∧
      (last.conn = some h → (phase = .ready phase.opened ∨ phase = .heard phase.opened) ∧
        (phase.opened = false ↔ .tcpSocketNew true ∈ session (some h) (calls steps))) ∧
      (last.conn ≠ some h → phase = .unmade ∨ phase = .destroyed) := by
  obtain ⟨start,steps,last,loaded,run,seen⟩ := played_run (master 0) (allKeys "0") (fun _ => []) lossy
    (fun _ steps last => decide (conversation 6 (calls steps) = some .destroyed ∧ last.storage 0 ≠ [])) (by decide +kernel)
  obtain ⟨down,kept⟩ := of_decide_eq_true seen
  exact ⟨start,steps,last,run,down,kept,(conversations_follow_protocol loaded run).2⟩

end KeyspaceAmqp
