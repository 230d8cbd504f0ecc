import KeyspaceAmqp.Network
import Mathlib.Logic.Relation

namespace KeyspaceAmqp
open Programs Paths Relation

-- What the module does with its connection once a callback's settings are set. Whatever a
-- callback says to the broker is said in one of these.
inductive Operation : World → World → Prop where
  | quiet {parts : List Part} (touches : Touches parts w w') (settled : .settings ∉ parts)
      (unsaid : .session ∉ parts) (unpublished : .publishes ∉ parts) : Operation w w'
  | connects (ran : Ends amqpConnect w res w') : Operation w w'
  | disconnects (ran : Ends amqpDisconnect w res w') : Operation w w'
  | publishes (ran : Ends (amqpPublish body) w res w') : Operation w w'
  | idles (live : w.conn ≠ none) (ran : Ends amqpWaitFrame w AMQP_STATUS_OK w') : Operation w w'
  | loses (live : w.conn ≠ none) (waited : Ends amqpWaitFrame w res m) (bad : res ≠ AMQP_STATUS_OK)
      (closed : Ends amqpDisconnect m code w') : Operation w w'

abbrev Operations : World → World → Prop := ReflTransGen Operation

def Silent (parts : List Part) : Prop := .settings ∉ parts ∧ .session ∉ parts ∧ .publishes ∉ parts

instance (parts : List Part) : Decidable (Silent parts) := inferInstanceAs (Decidable (_ ∧ _ ∧ _))

theorem Touches.operations (touches : Touches parts w w') (silent : Silent parts) : Operations w w' :=
  .single (.quiet touches silent.1 silent.2.1 silent.2.2)

theorem Rounds.operations (rounds : Rounds key w res w') : Operations w w' := by
  induction rounds with
  | @empty w list =>
    have popped : Touches [.lists] w _ := .called (.listPop key none) (by simp) w
    exact popped.operations (by decide)
  | @refused status w m bytes rest list tried bad =>
    have popped := (popped_touches w key bytes rest).operations (by decide)
    exact (popped.tail (.publishes tried)).trans ((restored_touches _ _ _).operations (by decide))
  | @sent res w m w' bytes rest list tried later ih =>
    have popped := (popped_touches w key bytes rest).operations (by decide)
    exact ((popped.tail (.publishes tried)).trans ((counted_touches _ _).operations (by decide))).trans ih

theorem publishStoredEvents_operations (ran : Ends (publishStoredEvents ctx) w res w') : Operations w w' := by
  obtain ⟨key,m,_,_,rounds,ended⟩ := publishStoredEvents_parts ran
  have looped := ((opened_touches w key).operations (by decide)).trans rounds.operations
  rcases ended with ⟨_,rfl⟩ | ⟨_,rfl⟩
  · exact looped
  · exact looped.trans ((deleted_touches m key).operations (by decide))

theorem publishEvent_operations (ran : Ends (publishEvent ctx event keyname) w u w') : Operations w w' := by
  let body := messageString ctx.db event keyname
  have entered : Touches [.events] w (w.entered ctx.db body) := .called (.publishEvent ctx.db body) (by simp) w
  have begun := entered.operations (by decide)
  have stores {m : World} (pushed : Ends (pushEventToStorage ctx body) m () w') : Operations m w' := by
    have pushed : Touches [.lists,.strings,.keys] m w' := Keeps.keeps pushed
    exact pushed.operations (by decide)
  rcases publishEvent_ways ran with ⟨_,res,m,tried,⟨_,pushed⟩ | ⟨_,_,drained⟩⟩ | ⟨_,pushed⟩
  · exact (begun.tail (.publishes tried)).trans (stores pushed)
  · exact (begun.tail (.publishes tried)).trans (publishStoredEvents_operations drained)
  · exact begun.trans (stores pushed)

theorem reconnect_operations (ran : Ends (reconnect ctx) w u w') : Operations w w' := by
  simp only [reconnect,ends_bind,ends_ite,ends_pure] at ran
  obtain ⟨res,m,connected,⟨_,_,_,drained,_,rfl⟩ | ⟨_,_,_,down,_,rfl⟩⟩ := ran
  · exact (ReflTransGen.single (.connects connected)).trans (publishStoredEvents_operations drained)
  · exact (ReflTransGen.single (.connects connected)).tail (.disconnects down)

theorem checkConnection_operations (ran : Ends (checkConnection ctx) w u w') : Operations w w' := by
  simp only [checkConnection,ends_bind,ends_get,ends_ite,ends_pure] at ran
  obtain ⟨_,_,⟨rfl,rfl⟩,⟨live,status,m,waited,⟨bad,_,n,down,ran⟩ | ⟨fine,_,rfl⟩⟩ | ⟨_,ran⟩⟩ := ran
  · exact (ReflTransGen.single (.loses live waited bad down)).trans (reconnect_operations ran)
  · rw [not_not.mp fine] at waited
    exact .single (.idles live waited)
  · exact reconnect_operations ran

theorem onKeyspaceEvent_operations (ran : Ends (onKeyspaceEvent ctx type event key) w res w') : Operations w w' := by
  rcases onKeyspaceEvent_parts ran with ⟨_,_,m,first,looped⟩ | ⟨_,rfl⟩
  · have begun : Operations w m := by
      rcases firstEvent_parts first with ⟨_,rfl⟩ | ⟨_,response,n,connected,rfl⟩
      · exact .refl
      · exact (ReflTransGen.single (.connects connected)).trans ((armed_touches n ctx.db).operations (by decide))
    rcases forwardLoop_parts looped with ⟨_,published⟩ | ⟨_,rfl⟩
    · exact begun.trans (publishEvent_operations published)
    · exact begun
  · exact .refl

theorem fireTimer_operations (ran : Ends (fireTimer fired flags) w u w') : Operations w w' := by
  have begun := (fired_touches w fired).operations (by decide)
  obtain ⟨_,⟨_,rfl⟩ | ⟨_,m,checked,rfl⟩⟩ := fireTimer_parts ran
  · exact begun
  · exact (begun.trans (checkConnection_operations checked)).trans ((armed_touches m fired.db).operations (by decide))

def Configuring (w w' : World) : Prop :=
  ∃ m, Touches [.settings,.count,.keys,.strings,.broadcasts,.replies] w m ∧ Operations m w'

theorem Operations.configuring (operations : Operations w w') : Configuring w w' := ⟨w,.refl w,operations⟩

theorem replied_operations (w : World) (reply : Reply) : Operations w {w with trace := w.trace ++ [.reply reply]} := by
  have replied : Touches [.replies] w {w with trace := w.trace ++ [.reply reply]} := .called (.reply reply) (by simp) w
  exact replied.operations (by decide)

theorem connectAmqpCommand_configuring (ran : Ends (connectAmqpCommand ctx argv) w res w') : Configuring w w' := by
  obtain ⟨m,configured,_,⟨_,rfl⟩ | ⟨_,response,n,connected,outcome⟩⟩ := connectAmqpCommand_parts ran
  · exact ⟨m,configured.mono (by simp),replied_operations m _⟩
  refine ⟨m,configured.mono (by simp),(ReflTransGen.single (.connects connected)).trans ?_⟩
  rcases outcome with ⟨_,text,rfl⟩ | ⟨_,text,rfl⟩
  · exact replied_operations n _
  · have enabled : Touches [.enabled] (n.armed ctx.db) {n.armed ctx.db with amqpConnectionEnabled := true} :=
      .silent (.inr rfl) (.inl (by simp)) (.inr rfl) (.inr rfl) (.inr rfl) (.inr ⟨rfl,rfl⟩) (Nat.le_refl _) rfl
    have begun := ((armed_touches n ctx.db).operations (by decide)).trans (enabled.operations (by decide))
    exact begun.trans (replied_operations _ (.simpleString text))

theorem disconnectAmqpCommand_configuring (ran : Ends (disconnectAmqpCommand argv) w res w') : Configuring w w' := by
  obtain ⟨m,response,n,final,arity,down,rfl⟩ := disconnectAmqpCommand_parts ran
  have arity : Touches [.replies] w m := Keeps.keeps arity
  have disabled : Touches [.enabled] m {m with amqpConnectionEnabled := false} :=
    .silent (.inr rfl) (.inl (by simp)) (.inr rfl) (.inr rfl) (.inr rfl) (.inr ⟨rfl,rfl⟩) (Nat.le_refl _) rfl
  have begun := (arity.operations (by decide)).trans (disabled.operations (by decide))
  have stopped := begun.trans ((stopped_touches _).operations (by decide))
  exact Operations.configuring ((stopped.tail (.disconnects down)).trans (replied_operations n final))

theorem body_configuring (command : Command) (ran : Ends (command.body ctx argv) w res w') : Configuring w w' := by
  rcases body_parts command ran with ⟨_,ran⟩ | ⟨_,ran⟩ | ⟨_,_,touched⟩
  · exact connectAmqpCommand_configuring ran
  · exact disconnectAmqpCommand_configuring ran
  · exact ⟨w',touched.mono (by simp),.refl⟩

theorem step_configuring (taken : step w turn = some w') : Configuring (w.given turn.script) w' := by
  have happens := step_happens taken
  obtain ⟨callback,script⟩ := turn
  cases happens with
  | event ran => exact Operations.configuring (onKeyspaceEvent_operations ran)
  | timer ran => exact Operations.configuring (fireTimer_operations ran)
  | ignored unknown aside => exact Operations.configuring (aside.touches.operations (by decide))
  | carried command argv known before ran after =>
    obtain ⟨m,configured,operations⟩ := body_configuring command ran
    exact ⟨m,(before.touches.mono (by simp)).trans configured,operations.trans (after.touches.operations (by decide))⟩

structure Address where
  hostname : CString
  port : UInt16
  username : CString
  password : CString
  heartbeat : UInt32
  exchange : CString
  routingKey : CString
  deliveryMode : UInt8
  deriving DecidableEq

def Settings.broker (s : Settings) : Address where
  hostname := s.hostname
  port := s.port
  username := s.username
  password := s.password
  heartbeat := s.heartbeat
  exchange := s.exchange
  routingKey := s.routingKey
  deliveryMode := s.deliveryMode

def AmqpCall.uses (b : Address) : AmqpCall → Prop
  | .socketOpen hostname port _ => hostname = b.hostname ∧ port = b.port
  | .login heartbeat username password _ => heartbeat = b.heartbeat ∧ username = b.username ∧ password = b.password
  | .basicPublish exchange routingKey deliveryMode _ _ =>
    exchange = b.exchange ∧ routingKey = b.routingKey ∧ deliveryMode = b.deliveryMode
  | _ => True

def Speaks (w w' : World) : Prop := w'.settings = w.settings ∧
  ∃ more, w'.trace = w.trace ++ more ∧ ∀ conn call, .amqp conn call ∈ more → call.uses w.settings.broker

theorem Speaks.refl (w : World) : Speaks w w := ⟨rfl,[],by simp,by simp⟩

theorem Speaks.trans (one : Speaks w m) (two : Speaks m w') : Speaks w w' := by
  obtain ⟨same,first,added,used⟩ := one
  obtain ⟨same',second,added',used'⟩ := two
  rw [same] at used'
  refine ⟨same'.trans same,first ++ second,by rw [added',added,List.append_assoc],?_⟩
  intro conn call member
  exact (List.mem_append.mp member).elim (used conn call) (used' conn call)

theorem speaks_said {said : List AmqpCall} (settings : w'.settings = w.settings)
    (trace : w'.trace = w.trace ++ said.map (.amqp conn)) (used : ∀ call ∈ said, call.uses w.settings.broker) :
    Speaks w w' := by
  refine ⟨settings,_,trace,?_⟩
  intro conn call member
  obtain ⟨_,inside,same⟩ := List.mem_map.mp member
  cases same
  exact used call inside

theorem heard_uses {call : AmqpCall} (heard : call.heard = true) (b : Address) : call.uses b := by
  cases call <;> trivial

theorem Attempt.uses (attempt : Attempt s answers said res) : ∀ call ∈ .newConnection :: said, call.uses s.broker := by
  cases attempt <;> simp [AmqpCall.uses,Settings.broker]

theorem amqpWaitFrame_speaks (ran : Ends amqpWaitFrame w res w') : Speaks w w' := by
  obtain ⟨left,said,heard,rfl⟩ := amqpWaitFrame_heard ran
  exact speaks_said rfl rfl fun call member => heard_uses (heard call member) _

theorem amqpDisconnect_speaks (ran : Ends amqpDisconnect w res w') : Speaks w w' := by
  rcases amqpDisconnect_parts ran with ⟨_,_,rfl⟩ | ⟨_,_,rfl⟩
  · exact .refl _
  · let said : List AmqpCall := [.channelClose 1,.connectionClose,.destroyConnection]
    have used : ∀ call ∈ said, call.uses w.settings.broker := by simp [said,AmqpCall.uses]
    exact speaks_said rfl rfl used

theorem amqpConnect_speaks (ran : Ends amqpConnect w res w') : Speaks w w' := by
  rcases amqpConnect_parts ran with ⟨_,_,rfl⟩ | ⟨_,answers,said,rest,attempt,_,outcome⟩
  · exact .refl _
  have made : Speaks w (w.made said rest) := speaks_said rfl rfl attempt.uses
  split at outcome
  · exact outcome ▸ made
  · obtain ⟨_,down⟩ := outcome
    exact made.trans (amqpDisconnect_speaks down)

theorem amqpPublish_speaks (ran : Ends (amqpPublish body) w res w') : Speaks w w' := by
  simp only [amqpPublish,ends_bind,ends_get,ends_ite,ends_pure,not_not] at ran
  obtain ⟨_,_,⟨rfl,rfl⟩,⟨_,status,m,waited,ran⟩ | ⟨_,_,rfl⟩⟩ := ran
  · have heard := amqpWaitFrame_speaks waited
    rcases ran with ⟨_,_,n,down,_,rfl⟩ | ⟨_,asked⟩
    · exact heard.trans (amqpDisconnect_speaks down)
    · obtain ⟨_,rest,_,_,rfl⟩ := ends_askAmqp.mp asked
      let call : AmqpCall :=
        .basicPublish w.settings.exchange w.settings.routingKey w.settings.deliveryMode body.bytes res
      have used : ∀ c ∈ [call], c.uses m.settings.broker := by
        rw [heard.1]
        simp [call,AmqpCall.uses,Settings.broker]
      exact heard.trans (speaks_said rfl rfl used)
  · exact .refl w

theorem Touches.unspoken (touches : Touches parts w w') (unsaid : .session ∉ parts) (unpublished : .publishes ∉ parts) :
    ∃ more, w'.trace = w.trace ++ more ∧ ∀ conn call, .amqp conn call ∉ more := by
  obtain ⟨more,added,inside⟩ := touches.calls
  refine ⟨more,added,?_⟩
  intro conn call member
  have part := inside _ member
  cases call <;> first | exact unsaid part | exact unpublished part

theorem Operation.speaks (operation : Operation w w') : Speaks w w' := by
  cases operation with
  | quiet touches settled unsaid unpublished =>
    obtain ⟨more,added,unspoken⟩ := touches.unspoken unsaid unpublished
    exact ⟨touches.settings.resolve_left settled,more,added,fun conn call member => absurd member (unspoken conn call)⟩
  | connects ran => exact amqpConnect_speaks ran
  | disconnects ran => exact amqpDisconnect_speaks ran
  | publishes ran => exact amqpPublish_speaks ran
  | idles live ran => exact amqpWaitFrame_speaks ran
  | loses live waited bad closed => exact (amqpWaitFrame_speaks waited).trans (amqpDisconnect_speaks closed)

theorem Operations.speaks (operations : Operations w w') : Speaks w w' := by
  induction operations with
  | refl => exact .refl w
  | tail _ operation ih => exact ih.trans operation.speaks

theorem step_uses (taken : step w turn = some w') (said : .amqp conn call ∈ w'.trace) : call.uses w'.settings.broker := by
  obtain ⟨m,settled,operations⟩ := step_configuring taken
  obtain ⟨first,added,unspoken⟩ := settled.unspoken (by decide) (by decide)
  obtain ⟨same,more,added',used⟩ := operations.speaks
  rw [added',added,World.given,List.nil_append] at said
  rw [same]
  exact used conn call ((List.mem_append.mp said).resolve_left (unspoken conn call))

def Command.configures : Command → Bool
  | .connect | .configSet => true
  | _ => false

theorem settles_broker (command : Command) (plain : command.configures = false) (argv : List Bytes) (s : Settings) :
    (command.settles argv s).broker = s.broker := by
  cases command with
  | connect | configSet => cases plain
  | fallbackStorageSizeSet =>
    simp only [Command.settles,Command.configure]
    split <;> rfl
  | _ => rfl

def Configured (s : Step) : Prop :=
  ∃ command argv, s.label.callback.carries = some (command,argv) ∧ command.configures = true

theorem step_broker (taken : step s.before s.label = some s.after) (plain : ¬ Configured s) :
    s.after.settings.broker = s.before.settings.broker := by
  rw [step_settings taken]
  cases carries : s.label.callback.carries with
  | none => rfl
  | some carried => exact settles_broker carried.1 (Bool.eq_false_of_not_eq_true fun configures => plain ⟨_,_,carries,configures⟩) _ _

-- All that is said to the broker from one step on, until the next one that carries a
-- configuration, is said with the settings that step leaves: the address and the login of a
-- new connection, and where each event goes and how.
theorem settings_in_force (run : Run start steps last) (parts : steps = first ++ s :: (mid ++ later))
    (plain : ∀ c ∈ mid, ¬ Configured c) :
    ∀ c ∈ s :: mid, ∀ conn call, .amqp conn call ∈ c.after.trace → call.uses s.after.settings.broker := by
  obtain ⟨_,rest⟩ := run.around parts
  obtain ⟨middle,midway,_⟩ := rest.cut rfl
  have same := (midway.throughout (fun w => w.settings.broker = s.after.settings.broker) (fun c => ¬ Configured c) rfl
    (fun _ taken unconfigured old => (step_broker taken unconfigured).trans old) plain).2
  intro c member conn call said
  rcases List.mem_cons.mp member with rfl | inside
  · exact step_uses (run.edge_taken (by simp [parts])) said
  · have taken := midway.edge_taken inside
    exact (same c inside).2 ▸ step_uses taken said

theorem settings_in_force_exchange : ∃ start s mid last, Run start ([] ++ s :: (mid ++ [])) last ∧
    s.before.settings.exchange ≠ s.after.settings.exchange ∧ delivered (calls mid) = [ascii "0\nexpired\na"] ∧
    ∀ c ∈ s :: mid, ∀ conn call, .amqp conn call ∈ c.after.trace → call.uses s.after.settings.broker := by
  let told' := told .configSet ["broker","5672","user","pass","30","other"] []
  let event := expired 0 "a" (connects ++ accepts)
  obtain ⟨start,_,w,_,_,seen⟩ := played_run (master 0) (allKeys "0") (fun _ => []) []
    (fun _ _ w => (step w told').any fun u => decide (w.settings.exchange ≠ u.settings.exchange) &&
      (step u event).any fun v => decide (delivered v.trace = [ascii "0\nexpired\na"])) (by decide +kernel)
  obtain ⟨u,set,seen⟩ := (Option.any_eq_true _ _).mp seen
  obtain ⟨differ,seen⟩ := (Bool.and_eq_true _ _).mp seen
  obtain ⟨v,came,seen⟩ := (Option.any_eq_true _ _).mp seen
  let s : Step := ⟨w,told',u⟩
  let mid : List Step := [⟨u,event,v⟩]
  have whole : Run w ([] ++ s :: (mid ++ [])) v := .cons set (.single came)
  have plain : ∀ c ∈ mid, ¬ Configured c := by
    rintro c member ⟨command,argv,carried,_⟩
    cases List.mem_singleton.mp member
    cases carried
  have sent : delivered (calls mid) = delivered v.trace := by simp [mid,calls]
  exact ⟨w,s,mid,v,whole,of_decide_eq_true differ,sent.trans (of_decide_eq_true seen),settings_in_force whole rfl plain⟩

end KeyspaceAmqp
