import KeyspaceAmqp.Conversations

namespace KeyspaceAmqp
open Programs Paths Lives Monitors

-- Where a conversation may stand between callbacks: no connection is left half taken down.
def Phase.settled (phase : Phase) : Prop := phase.rests = true ∨ phase = .unmade ∨ phase = .destroyed

theorem said_parts (loaded : Loaded ctx argv storage start) (run : Run start steps last)
    (said : session (some h) (calls steps) = before ++ call :: after) : ∃ here there phase,
    follows .unmade before = some here ∧ here.next call = some there ∧ follows there after = some phase ∧
      phase.settled := by
  have talking := run_talking loaded run
  have ended : ∃ phase, conversation h (calls steps) = some phase ∧ phase.settled := by
    by_cases current : last.conn = some h
    · obtain ⟨phase,at_,rests⟩ := talking.current h current
      exact ⟨phase,at_,.inl rests⟩
    · exact (talking.others h current).elim (fun at_ => ⟨_,at_,.inr (.inl rfl)⟩) fun at_ => ⟨_,at_,.inr (.inr rfl)⟩
  obtain ⟨phase,at_,up⟩ := ended
  rw [conversation,said] at at_
  obtain ⟨here,there,begun,taken,rest⟩ := track_parts at_
  exact ⟨here,there,phase,begun,taken,rest,up⟩

def AmqpCall.fine : AmqpCall → Prop
  | .simpleWaitFrameNoblock status => status = AMQP_STATUS_OK ∨ status = AMQP_STATUS_TIMEOUT
  | _ => False

theorem heard_fine (entered : Phase.next phase call = some (.heard opened)) : call.fine := by
  cases call with
  | simpleWaitFrameNoblock status =>
    simp only [Phase.next,Option.ite_none_right_eq_some,Option.some.injEq] at entered
    rcases waitedPhase_cases phase.opened status with ⟨_,fine⟩ | ⟨other | other,_⟩
    · exact fine
    · cases other.symm.trans entered.2
    · cases other.symm.trans entered.2
  | _ =>
    simp only [Phase.next,Option.ite_none_right_eq_some,Option.some.injEq] at entered
    have entered := entered.2
    first | cases entered | (split at entered <;> cases entered)

theorem published_after_wait (loaded : Loaded ctx argv storage start) (run : Run start steps last)
    (said : session (some h) (calls steps) = before ++ .basicPublish exchange routingKey mode body res :: after) :
    ∃ rest wait, before = rest ++ [wait] ∧ wait.fine := by
  obtain ⟨here,there,phase,begun,taken,rest,_⟩ := said_parts loaded run said
  have whole : follows .unmade (before ++ .basicPublish exchange routingKey mode body res :: after) = some phase := by
    refine track_two begun ?_
    rw [track_cons,taken]
    exact rest
  refine preceded AmqpCall.fine whole rfl ?_
  intro p wait q entered published
  have hears : q = .heard q.opened := by
    by_contra deaf
    simp [Phase.next,deaf] at published
  exact heard_fine (entered.trans (congrArg some hears))

theorem published_after_wait_event : ∃ start steps last before res, Run start steps last ∧
    session (some 2) (calls steps) = before ++ [.basicPublish (cstr (ascii "exchange")) (cstr (ascii "key")) 1
      (ascii "0\nexpired\na") res] ∧ ∃ rest wait, before = rest ++ [wait] ∧ wait.fine := by
  let body : AmqpCall := .basicPublish (cstr (ascii "exchange")) (cstr (ascii "key")) 1 (ascii "0\nexpired\na") 0
  obtain ⟨start,steps,last,loaded,run,seen⟩ := played_run (master 0) (allKeys "0") (fun _ => [])
    [expired 0 "a" (connects ++ accepts)]
    (fun _ steps _ => decide (session (some 2) (calls steps) = (session (some 2) (calls steps)).dropLast ++ [body]))
    (by decide +kernel)
  have said := of_decide_eq_true seen
  exact ⟨start,steps,last,_,0,run,said,published_after_wait loaded run said⟩

-- What shows that a connection is no good: a socket that does not open, a login or a channel
-- refused, or the broker's close, which is answered. An amqp_tcp_socket_new that finds no
-- memory is not among them: two of the three callers of amqpConnect keep the connection then.
def AmqpCall.fails : AmqpCall → Prop
  | .socketOpen _ _ status => status ≠ 0
  | .login _ _ _ reply | .getRpcReply reply => reply ≠ AMQP_RESPONSE_NORMAL
  | .sendMethod _ _ => True
  | _ => False

def closing : List AmqpCall := [.channelClose 1,.connectionClose,.destroyConnection]

theorem fails_rejects {call : AmqpCall} (fails : call.fails) (taken : Phase.next here call = some there) :
    there = .rejected := by
  cases call with
  | socketOpen _ _ status | login _ _ _ reply | getRpcReply reply =>
    simp only [Phase.next,Option.ite_none_right_eq_some,Option.some.injEq] at taken
    rw [if_neg fails] at taken
    exact taken.2.symm
  | sendMethod channel method =>
    simp only [Phase.next,Option.ite_none_right_eq_some,Option.some.injEq] at taken
    exact taken.2.symm
  | _ => cases fails

theorem next_rejected (taken : Phase.next .rejected call = some there) : call = .channelClose 1 ∧ there = .closing := by
  cases call with
  | channelClose channel =>
    simp only [Phase.next,Option.ite_none_right_eq_some,Option.some.injEq] at taken
    obtain ⟨⟨_,rfl⟩,rfl⟩ := taken
    exact ⟨rfl,rfl⟩
  | _ => simp [Phase.next,Phase.listens,Phase.answers] at taken

theorem next_closing (taken : Phase.next .closing call = some there) : call = .connectionClose ∧ there = .closed := by
  cases call with
  | connectionClose => exact ⟨rfl,(Option.some.inj taken).symm⟩
  | _ => simp [Phase.next,Phase.listens,Phase.answers,Phase.closes] at taken

theorem next_closed (taken : Phase.next .closed call = some there) : call = .destroyConnection ∧ there = .destroyed := by
  cases call with
  | destroyConnection => exact ⟨rfl,(Option.some.inj taken).symm⟩
  | _ => simp [Phase.next,Phase.listens,Phase.answers,Phase.closes] at taken

theorem next_destroyed (call : AmqpCall) : Phase.next .destroyed call = none := by
  cases call <;> simp [Phase.next,Phase.listens,Phase.answers,Phase.closes]

theorem next_lost (taken : Phase.next .lost call = some there) : (call = .channelClose 1 ∧ there = .closing) ∨
    ((∃ channel method, call = .sendMethod channel method) ∧ there = .rejected) := by
  cases call with
  | channelClose channel =>
    simp only [Phase.next,Option.ite_none_right_eq_some,Option.some.injEq] at taken
    obtain ⟨⟨_,rfl⟩,rfl⟩ := taken
    exact .inl ⟨rfl,rfl⟩
  | sendMethod channel method => exact .inr ⟨⟨channel,method,rfl⟩,fails_rejects (show AmqpCall.fails (.sendMethod channel method) from trivial) taken⟩
  | _ => simp [Phase.next,Phase.listens] at taken

theorem settled_away {phase other : Phase} (settled : phase.settled) (down : other.rests = false) (made : other ≠ .unmade)
    (kept : other ≠ .destroyed) : phase ≠ other := by
  rintro rfl
  rcases settled with rests | rfl | rfl
  · cases down.symm.trans rests
  · exact made rfl
  · exact kept rfl

theorem closing_closes (followed : follows .closing after = some phase) (settled : phase.settled) :
    after = [.connectionClose,.destroyConnection] := by
  obtain ⟨_,rfl,closed⟩ := forced (fun _ _ => next_closing) followed (settled_away settled rfl (by simp) (by simp))
  obtain ⟨_,rfl,destroyed⟩ := forced (fun _ _ => next_closed) closed (settled_away settled rfl (by simp) (by simp))
  obtain ⟨rfl,_⟩ := finished next_destroyed destroyed
  rfl

theorem rejected_closes (followed : follows .rejected after = some phase) (settled : phase.settled) : after = closing := by
  obtain ⟨_,rfl,closing⟩ := forced (fun _ _ => next_rejected) followed (settled_away settled rfl (by simp) (by simp))
  rw [closing_closes closing settled]
  rfl

theorem lost_closes (followed : follows .lost after = some phase) (settled : phase.settled) :
    after = closing ∨ ∃ channel method, after = .sendMethod channel method :: closing := by
  cases after with
  | nil =>
    cases followed
    exact absurd rfl (settled_away settled (show Phase.rests .lost = false from rfl) (by simp) (by simp))
  | cons call rest =>
    obtain ⟨there,taken,followed⟩ := Option.bind_eq_some_iff.mp followed
    rcases next_lost taken with ⟨rfl,rfl⟩ | ⟨⟨channel,method,rfl⟩,rfl⟩
    · exact .inl (by rw [closing_closes followed settled]; rfl)
    · exact .inr ⟨channel,method,by rw [rejected_closes followed settled]⟩

-- A connection that fails is taken down at once and whole: nothing but its close is said on
-- it any more, unless the close of a broker that hung up is answered first.
theorem failures_taken_down (loaded : Loaded ctx argv storage start) (run : Run start steps last)
    (said : session (some h) (calls steps) = before ++ call :: after) :
    (call.fails → after = closing) ∧
    (call = .simpleWaitFrameNoblock AMQP_STATUS_CONNECTION_CLOSED →
      after = closing ∨ ∃ channel method, after = .sendMethod channel method :: closing) := by
  obtain ⟨here,there,phase,_,taken,rest,settled⟩ := said_parts loaded run said
  constructor
  · intro fails
    cases fails_rejects fails taken
    exact rejected_closes rest settled
  · rintro rfl
    simp only [Phase.next,Option.ite_none_right_eq_some,Option.some.injEq] at taken
    obtain ⟨_,rfl⟩ := taken
    exact lost_closes rest settled

theorem failures_taken_down_lossy : ∃ start steps last, Run start steps last ∧
    ((session (some 6) (calls steps))[6]? = some (.simpleWaitFrameNoblock AMQP_STATUS_CONNECTION_CLOSED) ∧
      ((session (some 6) (calls steps)).drop 7 = closing ∨
        ∃ channel method, (session (some 6) (calls steps)).drop 7 = .sendMethod channel method :: closing)) ∧
    (session (some 10) (calls steps))[3]? = some (.login 30 (cstr (ascii "user")) (cstr (ascii "pass")) 2) ∧
      (session (some 10) (calls steps)).drop 4 = closing := by
  let loss : AmqpCall := .simpleWaitFrameNoblock AMQP_STATUS_CONNECTION_CLOSED
  let refusal : AmqpCall := .login 30 (cstr (ascii "user")) (cstr (ascii "pass")) 2
  obtain ⟨start,steps,last,loaded,run,seen⟩ := played_run (master 0) (allKeys "0") (fun _ => []) lossy
    (fun _ steps _ => decide ((session (some 6) (calls steps))[6]? = some loss ∧
      (session (some 10) (calls steps))[3]? = some refusal)) (by decide +kernel)
  obtain ⟨lost,refused⟩ := of_decide_eq_true seen
  have parts {l : List AmqpCall} {call : AmqpCall} {n : Nat} (at_ : l[n]? = some call) : l = l.take n ++ call :: l.drop (n+1) := by
    obtain ⟨inside,rfl⟩ := List.getElem?_eq_some_iff.mp at_
    simp
  exact ⟨start,steps,last,run,⟨lost,(failures_taken_down loaded run (parts lost)).2 rfl⟩,refused,
    (failures_taken_down loaded run (parts refused)).1 (show (2 : Int32) ≠ AMQP_RESPONSE_NORMAL by decide)⟩

end KeyspaceAmqp
