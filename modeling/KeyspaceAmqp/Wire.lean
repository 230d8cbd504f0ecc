import KeyspaceAmqp.AmqpConnection

namespace KeyspaceAmqp
open Programs

def Call.wire : Call → Bool
  | .amqp _ (.basicPublish _ _ _ _ _) => false
  | .amqp _ _ => true
  | _ => false

-- What connecting, waiting and disconnecting change: the connection, the supply of
-- handles and answers, and the trace, by calls that publish nothing.
def Wire (w w' : World) : Prop :=
  ∃ conn handles script calls,
    w' = {w with conn := conn,handles := handles,script := script,trace := w.trace ++ calls} ∧
      ∀ c ∈ calls, c.wire = true

theorem Wire.refl (w : World) : Wire w w := ⟨w.conn,w.handles,w.script,[],by simp,by simp⟩

theorem Wire.trans (one : Wire w m) (two : Wire m w') : Wire w w' := by
  obtain ⟨_,_,_,first,rfl,firstWire⟩ := one
  obtain ⟨conn,handles,script,second,rfl,secondWire⟩ := two
  refine ⟨conn,handles,script,first ++ second,by simp,?_⟩
  intro c member
  rcases List.mem_append.mp member with early | late
  · exact firstWire c early
  · exact secondWire c late

def Frame.closing (frame : Frame) : Bool :=
  isMethod frame AMQP_CONNECTION_CLOSE_METHOD || isMethod frame AMQP_CHANNEL_CLOSE_METHOD

def Frame.ordinary (frame : Frame) : Prop :=
  frame.closing = false ∧ frame.frameType ≠ 0 ∧ frame.frameType ≠ AMQP_FRAME_HEARTBEAT

instance (frame : Frame) : Decidable frame.ordinary := inferInstanceAs (Decidable (_ ∧ _ ∧ _))

def GoesOn (status : Int32) (frame : Frame) : Prop :=
  status ≠ AMQP_STATUS_CONNECTION_CLOSED ∧ status ≠ AMQP_STATUS_TIMEOUT ∧ frame.ordinary

def verdict (frame : Frame) (status : Int32) : Int32 :=
  if frame.closing then AMQP_STATUS_CONNECTION_CLOSED
  else if status ≠ AMQP_STATUS_TIMEOUT then status else AMQP_STATUS_OK

theorem waitLoop_on (on : GoesOn status (written.getD frame)) :
    waitLoop conn (.waited status written :: rest) frame said =
      waitLoop conn rest (written.getD frame) (said ++ [.amqp conn (.simpleWaitFrameNoblock status)]) := by
  obtain ⟨alive,awake,unclosed,frameType,other⟩ := on
  obtain ⟨connection,channel⟩ := Bool.or_eq_false_iff.mp unclosed
  simp only [waitLoop,connection,channel]
  simp [alive,awake,frameType,other]

def AmqpCall.heard : AmqpCall → Bool
  | .simpleWaitFrameNoblock _ | .sendMethod _ _ => true
  | _ => false

theorem waitLoop_off (off : ¬ GoesOn status (written.getD frame)) : ∃ said : List AmqpCall, (∀ call ∈ said, call.heard = true) ∧
    ∀ conn rest earlier, waitLoop conn (.waited status written :: rest) frame earlier =
      some (verdict (written.getD frame) status,rest,earlier ++ said.map (.amqp conn)) := by
  by_cases connection : isMethod (written.getD frame) AMQP_CONNECTION_CLOSE_METHOD
  · refine ⟨[.simpleWaitFrameNoblock status,.sendMethod (written.getD frame).channel AMQP_CONNECTION_CLOSE_OK_METHOD],
      by simp [AmqpCall.heard],fun conn rest earlier => ?_⟩
    simp [waitLoop,verdict,Frame.closing,connection]
  by_cases channel : isMethod (written.getD frame) AMQP_CHANNEL_CLOSE_METHOD
  · refine ⟨[.simpleWaitFrameNoblock status,.sendMethod (written.getD frame).channel AMQP_CHANNEL_CLOSE_OK_METHOD],
      by simp [AmqpCall.heard],fun conn rest earlier => ?_⟩
    simp [waitLoop,verdict,Frame.closing,connection,channel]
  have stop : ¬ (status ≠ AMQP_STATUS_CONNECTION_CLOSED ∧ status ≠ AMQP_STATUS_TIMEOUT ∧
      (written.getD frame).frameType ≠ 0 ∧ (written.getD frame).frameType ≠ AMQP_FRAME_HEARTBEAT) := by
    rintro ⟨alive,awake,kind⟩
    exact off ⟨alive,awake,by simp [Frame.closing,connection,channel],kind⟩
  refine ⟨[.simpleWaitFrameNoblock status],by simp [AmqpCall.heard],fun conn rest earlier => ?_⟩
  simp only [waitLoop,verdict,Frame.closing,connection,channel,if_neg stop]
  simp

theorem waitLoop_says (ran : waitLoop conn script frame earlier = some (res,left,made)) :
    ∃ said : List AmqpCall, (∀ call ∈ said, call.heard = true) ∧ made = earlier ++ said.map (.amqp conn) ∧
      ∀ other rest before, waitLoop other (script ++ rest) frame before = some (res,left ++ rest,before ++ said.map (.amqp other)) := by
  induction script generalizing frame earlier with
  | nil => simp [waitLoop] at ran
  | cons answer script ih =>
    cases answer with
    | waited status written =>
      by_cases on : GoesOn status (written.getD frame)
      · rw [waitLoop_on on] at ran
        obtain ⟨said,heard,rfl,alike⟩ := ih ran
        refine ⟨.simpleWaitFrameNoblock status :: said,by simpa [AmqpCall.heard] using heard,by simp,fun other rest before => ?_⟩
        rw [List.cons_append,waitLoop_on on,alike]
        simp
      · obtain ⟨said,heard,alike⟩ := waitLoop_off on
        rw [alike] at ran
        cases ran
        exact ⟨said,heard,rfl,fun other rest before => alike other (left ++ rest) before⟩
    | _ => simp [waitLoop] at ran

theorem amqpWaitFrame_parts : Ends amqpWaitFrame w res w' ↔ ∃ frame script left made,
    w.script = .garbage frame :: script ∧ waitLoop w.conn script frame [] = some (res,left,made) ∧
      {w with script := left,trace := w.trace ++ made} = w' := by
  simp only [amqpWaitFrame,ends_bind,ends_answer]
  constructor
  · rintro ⟨frame,_,⟨a,script,asked,picked,rfl⟩,ran⟩
    obtain ⟨⟨_,left,made⟩,looped,same⟩ := Option.map_eq_some_iff.mp ran
    cases same
    cases a <;> cases picked
    exact ⟨frame,script,left,made,asked,looped,rfl⟩
  · rintro ⟨frame,script,left,made,asked,looped,rfl⟩
    exact ⟨frame,_,⟨_,script,asked,rfl,rfl⟩,Option.map_eq_some_iff.mpr ⟨_,looped,rfl⟩⟩

theorem amqpWaitFrame_heard (ran : Ends amqpWaitFrame w res w') : ∃ (left : List Answer) (said : List AmqpCall),
    (∀ call ∈ said, call.heard = true) ∧ w' = {w with script := left,trace := w.trace ++ said.map (.amqp w.conn)} := by
  obtain ⟨frame,script,left,made,_,looped,rfl⟩ := amqpWaitFrame_parts.mp ran
  obtain ⟨said,heard,rfl,_⟩ := waitLoop_says looped
  exact ⟨left,said,heard,rfl⟩

theorem amqpWaitFrame_wire (ran : Ends amqpWaitFrame w res w') : Wire w w' ∧ w'.conn = w.conn := by
  obtain ⟨left,said,heard,rfl⟩ := amqpWaitFrame_heard ran
  refine ⟨⟨w.conn,w.handles,left,_,rfl,fun c member => ?_⟩,rfl⟩
  obtain ⟨call,inside,rfl⟩ := List.mem_map.mp member
  have heard := heard call inside
  cases call <;> first | rfl | cases heard

theorem amqpDisconnect_parts (ran : Ends amqpDisconnect w res w') :
    (w.conn = none ∧ res = REDIS_AMQP_ERR ∧ w' = w) ∨
    (w.conn ≠ none ∧ res = REDIS_AMQP_OK ∧ w' = {w with
      conn := none
      trace := w.trace ++ [.amqp w.conn (.channelClose 1),.amqp w.conn .connectionClose,.amqp w.conn .destroyConnection]}) := by
  unfold amqpDisconnect at ran
  simp only [ends_bind,ends_get,ends_ite] at ran
  obtain ⟨_,_,⟨rfl,rfl⟩,⟨closed,ran⟩ | ⟨live,ran⟩⟩ := ran
  · obtain ⟨rfl,rfl⟩ := ends_pure.mp ran; exact .inl ⟨closed,rfl,rfl⟩
  · simp only [ends_callAmqp,ends_modify,ends_pure] at ran
    obtain ⟨_,_,rfl,_,_,rfl,_,_,rfl,_,_,rfl,rfl,rfl⟩ := ran
    exact .inr ⟨live,rfl,by simp⟩

theorem amqpDisconnect_wire (ran : Ends amqpDisconnect w res w') : Wire w w' ∧ w'.conn = none := by
  rcases amqpDisconnect_parts ran with ⟨closed,_,rfl⟩ | ⟨live,_,rfl⟩
  · exact ⟨.refl _,closed⟩
  · exact ⟨⟨none,w.handles,w.script,_,rfl,by simp [Call.wire]⟩,rfl⟩

theorem socket_answer {a : Answer} (picked : a.socket? = some null) : a = .socket null := by
  cases a <;> simp_all [Answer.socket?]
theorem status_answer {a : Answer} (picked : a.status? = some code) : a = .status code := by
  cases a <;> simp_all [Answer.status?]
theorem rpc_answer {a : Answer} (picked : a.rpc? = some reply) : a = .rpc reply := by
  cases a <;> simp_all [Answer.rpc?]

inductive Attempt (s : Settings) : List Answer → List AmqpCall → Int32 → Prop where
  | socket : Attempt s [.socket true] [.tcpSocketNew true] REDIS_AMQP_SOCKET_ERR
  | connection (failed : status ≠ 0) : Attempt s [.socket false,.status status]
      [.tcpSocketNew false,.socketOpen s.hostname s.port status] REDIS_AMQP_CONNECTION_ERR
  | auth (failed : reply ≠ AMQP_RESPONSE_NORMAL) : Attempt s [.socket false,.status 0,.rpc reply]
      [.tcpSocketNew false,.socketOpen s.hostname s.port 0,.login s.heartbeat s.username s.password reply]
      REDIS_AMQP_AUTH_ERR
  | channel (failed : reply ≠ AMQP_RESPONSE_NORMAL) :
      Attempt s [.socket false,.status 0,.rpc AMQP_RESPONSE_NORMAL,.rpc reply]
      [.tcpSocketNew false,.socketOpen s.hostname s.port 0,
        .login s.heartbeat s.username s.password AMQP_RESPONSE_NORMAL,.channelOpen 1,.getRpcReply reply]
      REDIS_AMQP_CHANNEL_ERR
  | opened : Attempt s [.socket false,.status 0,.rpc AMQP_RESPONSE_NORMAL,.rpc AMQP_RESPONSE_NORMAL]
      [.tcpSocketNew false,.socketOpen s.hostname s.port 0,
        .login s.heartbeat s.username s.password AMQP_RESPONSE_NORMAL,.channelOpen 1,.getRpcReply AMQP_RESPONSE_NORMAL]
      REDIS_AMQP_OK

def World.made (w : World) (said : List AmqpCall) (script : List Answer) : World := {w with
  conn := some (w.handles+1)
  handles := w.handles+1
  script := script
  trace := w.trace ++ (.newConnection :: said).map (.amqp (some (w.handles+1)))}

theorem amqpConnect_parts (ran : Ends amqpConnect w res w') :
    (w.conn ≠ none ∧ res = REDIS_AMQP_ALREADY_CONNECTED ∧ w' = w) ∨
    (w.conn = none ∧ ∃ answers said rest, Attempt w.settings answers said res ∧ w.script = answers ++ rest ∧
      (if res = REDIS_AMQP_OK ∨ res = REDIS_AMQP_SOCKET_ERR then w' = w.made said rest
        else ∃ closed, Ends amqpDisconnect (w.made said rest) closed w')) := by
  simp only [amqpConnect,ends_bind,ends_get,ends_ite,ends_pure,not_not,amqpTcpSocketNew,amqpSocketOpen,amqpLogin,
    amqpGetRpcReply,ends_newHandle,ends_modify,ends_callAmqp,ends_askAmqp] at ran
  obtain ⟨_,_,⟨rfl,rfl⟩,⟨live,rfl,rfl⟩ | ⟨closed,_,_,⟨rfl,rfl⟩,_,_,rfl,_,_,rfl,null,m,⟨a,rest,script,first,rfl⟩,ran⟩⟩ := ran
  · exact .inl ⟨live,rfl,rfl⟩
  refine .inr ⟨closed,?_⟩
  have script : w.script = a :: rest := script
  cases socket_answer first
  rcases ran with ⟨rfl,rfl,rfl⟩ | ⟨reachable,status,m,⟨b,rest,left,second,rfl⟩,ran⟩
  · exact ⟨_,_,rest,.socket,script,by simp [World.made]⟩
  cases (Bool.not_eq_true null).mp reachable
  cases status_answer second
  subst left
  rcases ran with ⟨bad,_,_,down,rfl,rfl⟩ | ⟨ok,reply,m,⟨c,rest,left,third,rfl⟩,ran⟩
  · exact ⟨_,_,rest,.connection bad,script,_,by simpa [World.made] using down⟩
  cases ok
  cases rpc_answer third
  subst left
  rcases ran with ⟨bad,_,_,down,rfl,rfl⟩ | ⟨ok,_,_,rfl,last,m,⟨d,rest,left,fourth,rfl⟩,ran⟩
  · exact ⟨_,_,rest,.auth bad,script,_,by simpa [World.made] using down⟩
  cases ok
  cases rpc_answer fourth
  subst left
  rcases ran with ⟨bad,_,_,down,rfl,rfl⟩ | ⟨ok,rfl,rfl⟩
  · exact ⟨_,_,rest,.channel bad,script,_,by simpa [World.made] using down⟩
  · cases ok
    exact ⟨_,_,rest,.opened,script,by simp [World.made]⟩

theorem made_wire (attempt : Attempt s answers said res) (w : World) (rest : List Answer) : Wire w (w.made said rest) := by
  refine ⟨some (w.handles+1),w.handles+1,rest,_,rfl,?_⟩
  cases attempt <;> simp [Call.wire]

theorem amqpConnect_wire (ran : Ends amqpConnect w res w') : Wire w w' := by
  rcases amqpConnect_parts ran with ⟨_,_,rfl⟩ | ⟨_,answers,said,rest,attempt,_,outcome⟩
  · exact .refl _
  split at outcome
  · exact outcome ▸ made_wire attempt w rest
  · obtain ⟨_,down⟩ := outcome
    exact (made_wire attempt w rest).trans (amqpDisconnect_wire down).1

theorem amqpPublish_parts (ran : Ends (amqpPublish body) w res w') :
    (∃ m exchange routingKey deliveryMode rest, Wire w m ∧ m.conn = w.conn ∧ w' = {m with
      script := rest
      trace := m.trace ++ [.amqp m.conn (.basicPublish exchange routingKey deliveryMode body.bytes res)]}) ∨
    (Wire w w' ∧ w'.conn = none ∧ res ≠ AMQP_STATUS_OK) := by
  simp only [amqpPublish,ends_bind,ends_get,ends_ite,ends_pure,not_not] at ran
  obtain ⟨_,_,⟨rfl,rfl⟩,⟨_,status,m,waited,ran⟩ | ⟨closed,rfl,rfl⟩⟩ := ran
  · obtain ⟨wire,same⟩ := amqpWaitFrame_wire waited
    rcases ran with ⟨_,_,n,down,rfl,rfl⟩ | ⟨_,asked⟩
    · obtain ⟨wire',none⟩ := amqpDisconnect_wire down
      exact .inr ⟨wire.trans wire',none,by decide⟩
    · obtain ⟨_,rest,_,_,rfl⟩ := ends_askAmqp.mp asked
      exact .inl ⟨m,_,_,_,rest,wire,same,rfl⟩
  · exact .inr ⟨.refl _,closed,by decide⟩

theorem callAmqp_ends (call : AmqpCall) (w : World) :
    Ends (callAmqp call) w () {w with trace := w.trace ++ [.amqp w.conn call]} := ends_callAmqp.mpr rfl

theorem amqpDisconnect_halts (w : World) : Halts amqpDisconnect w := by
  refine (get_ends w).halts ?_
  split
  · exact halts_pure _ _
  · refine (callAmqp_ends _ _).halts ((callAmqp_ends _ _).halts ((callAmqp_ends _ _).halts ?_))
    exact Ends.halts (a := ()) (ends_modify.mpr rfl) (halts_pure _ _)

theorem amqpConnect_halts (answers : w.script = .socket null :: .status status :: .rpc reply :: .rpc last :: rest) :
    Halts amqpConnect w := by
  have down (m : World) (code : Int32) : Halts (do
      let _ ← amqpDisconnect
      pure code) m := by
    obtain ⟨_,_,closed⟩ := amqpDisconnect_halts m
    exact closed.halts (halts_pure _ _)
  refine (get_ends w).halts ?_
  dsimp only
  split
  · exact halts_pure _ _
  refine Ends.halts (ends_newHandle.mpr ⟨rfl,rfl⟩) (Ends.halts (a := ()) (ends_modify.mpr rfl) ?_)
  refine (callAmqp_ends _ _).halts (Ends.halts (ends_askAmqp.mpr ⟨_,_,answers,rfl,rfl⟩) ?_)
  split
  · exact halts_pure _ _
  refine Ends.halts (ends_askAmqp.mpr ⟨_,_,rfl,rfl,rfl⟩) ?_
  split
  · exact down _ _
  refine Ends.halts (ends_askAmqp.mpr ⟨_,_,rfl,rfl,rfl⟩) ?_
  split
  · exact down _ _
  refine (callAmqp_ends _ _).halts (Ends.halts (ends_askAmqp.mpr ⟨_,_,rfl,rfl,rfl⟩) ?_)
  split
  · exact down _ _
  · exact halts_pure _ _

end KeyspaceAmqp
