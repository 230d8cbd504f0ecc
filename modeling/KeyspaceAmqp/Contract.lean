import KeyspaceAmqp.Sessions

namespace KeyspaceAmqp
open Programs Paths Lives

-- What amqpConnect is to do: leave a connection as it is, open a session, or leave none.
def Contract (w : World) (res : Int32) (w' : World) : Prop :=
  (res = REDIS_AMQP_ALREADY_CONNECTED ∧ w'.conn = w.conn) ∨
  (res = REDIS_AMQP_OK ∧ ∃ h hostname port heartbeat username password, w'.conn = some h ∧
    w'.trace = w.trace ++ (opening hostname port heartbeat username password).map (.amqp (some h))) ∨
  (res ≠ REDIS_AMQP_ALREADY_CONNECTED ∧ res ≠ REDIS_AMQP_OK ∧ w'.conn = none)

theorem socket_outcome (script : List Answer) :
    connectOutcome none script = some REDIS_AMQP_SOCKET_ERR ↔ script.head? = some (.socket true) := by
  constructor
  · unfold connectOutcome
    repeat' split
    all_goals first | exact fun _ => rfl | (intro same; cases same)
  · intro first
    obtain ⟨rest,rfl⟩ := List.head?_eq_some_iff.mp first
    rfl

theorem contract_iff (ran : Ends amqpConnect w res w') :
    Contract w res w' ↔ ¬ (w.conn = none ∧ w.script.head? = some (.socket true)) := by
  have outcome := amqpConnect_outcome ran
  rcases amqpConnect_parts ran with ⟨live,already,rfl⟩ | ⟨closed,answers,said,rest,attempt,_,left⟩
  · exact iff_of_true (.inl ⟨already,rfl⟩) fun both => live both.1
  rw [closed] at outcome
  rw [← socket_outcome,outcome]
  simp only [closed,true_and,Option.some.injEq]
  cases attempt with
  | opened =>
    rw [if_pos (.inl rfl)] at left
    subst left
    exact iff_of_true (.inr (.inl ⟨rfl,_,_,_,_,_,_,rfl,rfl⟩)) (by decide)
  | socket =>
    rw [if_pos (.inr rfl)] at left
    subst left
    refine iff_of_false ?_ (by simp)
    rintro (⟨impossible,_⟩ | ⟨impossible,_⟩ | ⟨_,_,impossible⟩) <;> cases impossible
  | _ =>
    rw [if_neg (by decide)] at left
    obtain ⟨_,down⟩ := left
    exact iff_of_true (.inr (.inr ⟨by decide,by decide,(amqpDisconnect_wire down).2⟩)) (by decide)

def Opened (h : Nat) (log : List Call) : Prop :=
  BeganOpen (session (some h) log) ∧ .destroyConnection ∉ session (some h) log

-- amqpConnect always returns, and keeps its contract unless it gets no socket; where no
-- step is left with such a connection, what the module holds is an opened session.
theorem connection_opened (loaded : Loaded ctx argv storage start) (run : Run start steps last) :
    (∀ w null status reply last rest, w.script = .socket null :: .status status :: .rpc reply :: .rpc last :: rest →
      Halts amqpConnect w) ∧
    (∀ w res w', Ends amqpConnect w res w' →
      (Contract w res w' ↔ ¬ (w.conn = none ∧ w.script.head? = some (.socket true)))) ∧
    ((∀ s ∈ steps, ¬ Strands s) → ∀ h, last.conn = some h → Opened h (calls steps)) := by
  refine ⟨fun _ _ _ _ _ _ => amqpConnect_halts,fun _ _ _ => contract_iff,?_⟩
  intro safe h conn
  have sessions : Sessions .opening (calls steps) last.conn last.handles :=
    run_sound loaded run fun s member => .inr (safe s member)
  obtain ⟨living,began⟩ := sessions.current h conn
  exact ⟨began,living.kept⟩

instance (s : Step) : Decidable (SeenAsMaster s) :=
  decidable_of_iff ((match s.label.callback with
    | .keyspaceEvent ctx _ _ _ => isRedisMaster ctx
    | _ => false) = true) <| by
    unfold SeenAsMaster
    split <;> simp_all

instance (s : Step) : Decidable (Strands s) :=
  decidable_of_iff (connectOutcome s.before.conn s.label.script = some REDIS_AMQP_SOCKET_ERR ∧
    ((SeenAsMaster s ∧ s.before.amqpConnectionEnabled = true ∧ s.before.heardBeatTimerId = 0) ∨
      s.label.callback.carries.any fun told => decide (told.1 = .connect ∧ Accepts s.before.settings told.2))) <| by
    simp [Strands,Option.any_eq_true]

theorem connection_opened_timer : ∃ start steps last h, Run start steps last ∧
    (∃ s ∈ steps, connectOutcome s.before.conn s.label.script = some REDIS_AMQP_SOCKET_ERR) ∧
    last.conn = some h ∧ Opened h (calls steps) := by
  obtain ⟨start,steps,last,loaded,run,seen⟩ := played_run (master 0) (allKeys "0") (fun _ => [])
    [expired 0 "a" [.socket false,.status 1],⟨.timer ⟨3,0⟩ 0,[.socket true]⟩,⟨.timer ⟨7,0⟩ 0,connects ++ accepts⟩]
    (fun _ steps last => decide ((∀ s ∈ steps, ¬ Strands s) ∧ last.conn.isSome ∧
      ∃ s ∈ steps, connectOutcome s.before.conn s.label.script = some REDIS_AMQP_SOCKET_ERR)) (by decide +kernel)
  obtain ⟨safe,live,failed⟩ := of_decide_eq_true seen
  obtain ⟨h,conn⟩ := Option.isSome_iff_exists.mp live
  exact ⟨start,steps,last,h,run,failed,conn,(connection_opened loaded run).2.2 safe h conn⟩

theorem not_opened (short : (session (some h) log).length < 6) : ¬ Opened h log := by
  rintro ⟨⟨_,_,_,_,_,began⟩,_⟩
  exact absurd began.length_le (Nat.not_le_of_lt short)

-- A connect gets no socket: the connection it leaves is no session, and in its way the
-- next connect does not try.
theorem connect_without_socket : ∃ start steps last h, Loaded (master 0) (allKeys "0") (fun _ => []) start ∧
    Run start steps last ∧ last.conn = some h ∧ ¬ Opened h (calls steps) ∧
    (∃ s ∈ steps, .reply (.error (cstr (ascii "AMQP CONNECT ERROR: 6"))) ∈ s.after.trace) := by
  obtain ⟨start,steps,last,loaded,run,seen⟩ := played_run (master 0) (allKeys "0") (fun _ => [])
    [told .connect [] [.socket true],told .connect [] connects]
    (fun _ steps last => decide (last.conn = some 2 ∧ (session (some 2) (calls steps)).length < 6 ∧
      ∃ s ∈ steps, .reply (.error (cstr (ascii "AMQP CONNECT ERROR: 6"))) ∈ s.after.trace)) (by decide +kernel)
  obtain ⟨conn,short,refused⟩ := of_decide_eq_true seen
  exact ⟨start,steps,last,_,loaded,run,conn,not_opened short,refused⟩

end KeyspaceAmqp
