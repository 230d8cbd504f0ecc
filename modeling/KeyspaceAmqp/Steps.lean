import KeyspaceAmqp.Configuration
import KeyspaceAmqp.Footprint

namespace KeyspaceAmqp
open Programs

def Callback.carries : Callback → Option (Command × List Bytes)
  | .command _ name args => (lookupCommand name).map fun command => (command,name :: args)
  | .clusterMessage _ type payload beyond =>
    if type = CLUSTER_MESSAGE_TYPE_CMD then
      match serializedStringToRedisArgs (cstr (payload ++ beyond)) with
      | [] => none
      | first :: rest => (received (cstr first).bytes).map fun command => (command,first :: rest)
    else none
  | _ => none

structure Aside (w w' : World) : Prop where
  same : Same w w'
  touches : Touches [.strings,.broadcasts,.replies] w w'

theorem Aside.refl (w : World) : Aside w w := ⟨.refl w,.refl w⟩

theorem Aside.trans (one : Aside w m) (two : Aside m w') : Aside w w' :=
  ⟨one.same.trans two.same,one.touches.trans two.touches⟩

theorem handler_aside (command : Command) (ran : Ends (command.handler ctx argv) w res w') :
    ∃ m, Aside w m ∧ Ends (command.body ctx argv) m res w' := by
  rw [handler_body] at ran
  simp only [ends_bind] at ran
  obtain ⟨_,m,arity,_,n,sent,ran⟩ := ran
  exact ⟨n,⟨(wrongArityWhen_same arity).trans (broadcastRedisCommand_same sent),
    Touches.trans (Keeps.keeps arity) (Keeps.keeps sent)⟩,ran⟩

theorem message_aside (ran : Ends (clusterMessageReceiver ctx type payload beyond) w u w') :
    (∃ command argv m res n, (Callback.clusterMessage ctx type payload beyond).carries = some (command,argv) ∧
      Aside w m ∧ Ends (command.body ctx argv) m res n ∧ Aside n w') ∨
    ((Callback.clusterMessage ctx type payload beyond).carries = none ∧ Aside w w') := by
  simp only [clusterMessageReceiver,ends_ite,ends_pure,ends_bind] at ran
  rcases ran with ⟨other,_,rfl⟩ | ⟨type,argv,m,created,ran⟩
  · exact .inr ⟨if_neg other,.refl _⟩
  have type := not_not.mp type
  obtain ⟨same,bytes⟩ := createStrings_same created
  have made : Aside w m := ⟨same,Keeps.keeps created⟩
  cases argv with
  | nil =>
    obtain ⟨_,rfl⟩ := ends_pure.mp ran
    refine .inr ⟨?_,made⟩
    simp [Callback.carries,type,← bytes]
  | cons string strings =>
    simp only [stringPtrLen,ends_bind,ends_pure] at ran
    obtain ⟨_,_,⟨_,_,read,rfl,rfl⟩,_,_,dispatched,freed⟩ := ran
    have begun := made.trans ⟨emit_same read,Keeps.keeps read⟩
    have ended : Aside _ _ := ⟨freeStrings_same freed,Keeps.keeps freed⟩
    rcases dispatch_body dispatched with ⟨found,res,known,ran⟩ | ⟨unknown,rfl⟩
    · refine .inl ⟨found,_,_,_,_,?_,begun,ran,ended⟩
      simp [Callback.carries,type,← bytes,known]
    · refine .inr ⟨?_,begun.trans ended⟩
      simp [Callback.carries,type,← bytes,unknown]

-- The four things a step can be: an event, a timer's firing, a command carried out, or a
-- message that means nothing here.
inductive Happens (w : World) : Callback → World → Prop where
  | event (ran : Ends (onKeyspaceEvent ctx type event key) w res w') :
      Happens w (.keyspaceEvent ctx type event key) w'
  | timer (ran : Ends (fireTimer fired flags) w () w') : Happens w (.timer fired flags) w'
  | carried (command : Command) (argv : List Bytes) (known : callback.carries = some (command,argv))
      (before : Aside w m) (ran : Ends (command.body callback.ctx argv) m res n) (after : Aside n w') :
      Happens w callback w'
  | ignored (unknown : (Callback.clusterMessage ctx type payload beyond).carries = none) (aside : Aside w w') :
      Happens w (.clusterMessage ctx type payload beyond) w'

def World.given (w : World) (script : List Answer) : World := {w with script := script,trace := []}

theorem step_happens (taken : step w turn = some w') : Happens (w.given turn.script) turn.callback w' := by
  have ran := step_ends.mp taken
  obtain ⟨callback,script⟩ := turn
  cases callback with
  | keyspaceEvent ctx type event key =>
    simp only [Callback.run,ends_bind,ends_pure] at ran
    obtain ⟨_,_,ran,_,rfl⟩ := ran
    exact .event ran
  | timer fired flags => exact .timer ran
  | command ctx name args =>
    simp only [Callback.run] at ran
    cases found : lookupCommand name with
    | none => simp [found] at ran
    | some command =>
      simp only [found,ends_bind,ends_pure] at ran
      obtain ⟨_,_,ran,_,rfl⟩ := ran
      obtain ⟨m,aside,ran⟩ := handler_aside command ran
      exact .carried command _ (by simp [Callback.carries,found]) aside ran (.refl _)
  | clusterMessage ctx type payload beyond =>
    rcases message_aside ran with ⟨command,argv,m,res,n,known,before,ran,after⟩ | ⟨unknown,aside⟩
    · exact .carried command argv known before ran after
    · exact .ignored unknown aside

-- What each function of a callback comes to, as one change of the world and the calls in it.

theorem createTimer_parts : Ends (createTimer ctx) w made w' ↔ w.handles+1 = made ∧ {w with
    handles := w.handles+1
    timers := w.timers ++ [⟨w.handles+1,ctx.db⟩]
    trace := w.trace ++ [.createTimer ⟨w.handles+1,ctx.db⟩]} = w' := by
  simp only [createTimer,ends_bind,ends_newHandle,ends_emit,ends_modify,ends_pure]
  constructor
  · rintro ⟨_,_,⟨rfl,rfl⟩,_,_,rfl,_,_,rfl,rfl,rfl⟩
    exact ⟨rfl,rfl⟩
  · rintro ⟨rfl,rfl⟩
    exact ⟨_,_,⟨rfl,rfl⟩,(),_,rfl,(),_,rfl,rfl,rfl⟩

def World.armed (w : World) (db : Int32) : World := {w with
  handles := w.handles+1
  timers := w.timers ++ [⟨w.handles+1,db⟩]
  heardBeatTimerId := w.handles+1
  trace := w.trace ++ [.createTimer ⟨w.handles+1,db⟩]}

theorem armed_touches (w : World) (db : Int32) : Touches [.heartbeat] w (w.armed db) :=
  ⟨.inr rfl,.inr rfl,.inr rfl,.inr rfl,.inr rfl,.inl (by simp),.inl (by simp),Nat.le_succ _,[_],rfl,by simp⟩

theorem firstEvent_parts (ran : Ends (firstEvent ctx) w u w') :
    (w.heardBeatTimerId ≠ 0 ∧ w' = w) ∨
    (w.heardBeatTimerId = 0 ∧ ∃ res m, Ends amqpConnect w res m ∧ w' = m.armed ctx.db) := by
  simp only [firstEvent,ends_bind,ends_get,ends_ite,ends_pure,ends_modify,createTimer_parts] at ran
  obtain ⟨_,_,⟨rfl,rfl⟩,⟨zero,res,m,connected,_,_,⟨rfl,rfl⟩,rfl⟩ | ⟨set,_,rfl⟩⟩ := ran
  · exact .inr ⟨zero,res,m,connected,rfl⟩
  · exact .inl ⟨set,rfl⟩

theorem onKeyspaceEvent_parts (ran : Ends (onKeyspaceEvent ctx type event key) w res w') :
    (isRedisMaster ctx = true ∧ w.amqpConnectionEnabled = true ∧ ∃ m, Ends (firstEvent ctx) w () m ∧
      Ends (forwardLoop ctx event (cstr key) m.settings.keyMaskArr) m res w') ∨
    (¬ (isRedisMaster ctx = true ∧ w.amqpConnectionEnabled = true) ∧ w' = w) := by
  simp only [onKeyspaceEvent,ends_bind,ends_get,ends_ite,ends_pure] at ran
  obtain ⟨_,_,⟨rfl,rfl⟩,⟨⟨master,enabled⟩,_,m,first,_,_,⟨rfl,rfl⟩,looped⟩ | ⟨off,_,rfl⟩⟩ := ran
  · exact .inl ⟨master,enabled,_,first,looped⟩
  · exact .inr ⟨off,rfl⟩

theorem onKeyspaceEvent_ways (ran : Ends (onKeyspaceEvent ctx type event key) w res w') :
    (Takes w ctx key ∧ ∃ m, Ends (firstEvent ctx) w () m ∧ Touches [.session,.heartbeat] w m ∧
      Ends (publishEvent ctx event (cstr key)) m () w') ∨
    (¬ Takes w ctx key ∧ Touches [.session,.heartbeat] w w') := by
  rcases onKeyspaceEvent_parts ran with ⟨master,enabled,m,first,looped⟩ | ⟨off,rfl⟩
  · have begun : Touches [.session,.heartbeat] w m := Keeps.keeps first
    have settings : m.settings = w.settings := begun.settings.resolve_left (by decide)
    rcases forwardLoop_parts looped with ⟨hit,published⟩ | ⟨miss,rfl⟩
    · exact .inl ⟨⟨master,enabled,settings ▸ hit⟩,m,first,begun,published⟩
    · exact .inr ⟨fun takes => miss (settings ▸ takes.2.2),begun⟩
  · exact .inr ⟨fun takes => off ⟨takes.1,takes.2.1⟩,.refl _⟩

theorem publishEvent_parts (ran : Ends (publishEvent ctx event keyname) w u w') :
    Touches [.session,.publishes,.lists,.strings,.count,.keys]
      (w.entered ctx.db (messageString ctx.db event keyname)) w' := by
  rcases publishEvent_ways ran with ⟨_,res,m,tried,⟨_,pushed⟩ | ⟨_,_,drained⟩⟩ | ⟨_,pushed⟩
  · exact .trans (Keeps.keeps tried) (Keeps.keeps pushed)
  · exact .trans (Keeps.keeps tried) (Keeps.keeps drained)
  · exact Keeps.keeps pushed

def World.fired (w : World) (timer : Timer) : World := {w with timers := w.timers.erase timer,heardBeatTimerId := 0}

theorem fired_touches (w : World) (timer : Timer) : Touches [.heartbeat] w (w.fired timer) :=
  .silent (.inr rfl) (.inr rfl) (.inr rfl) (.inr rfl) (.inr rfl) (.inl (by simp)) (Nat.le_refl _) rfl

theorem fireTimer_parts (ran : Ends (fireTimer timer flags) w u w') : timer ∈ w.timers ∧
    ((w.amqpConnectionEnabled = false ∧ w' = w.fired timer) ∨
    (w.amqpConnectionEnabled = true ∧ ∃ m, Ends (checkConnection ⟨timer.db,flags⟩) (w.fired timer) () m ∧
      w' = m.armed timer.db)) := by
  simp only [fireTimer,checkFramesAndHeartbeat,ends_bind,ends_get,ends_ite,ends_modify,ends_stuck,ends_pure,
    createTimer_parts] at ran
  obtain ⟨_,_,⟨rfl,rfl⟩,⟨pending,_,_,rfl,_,_,rfl,_,_,⟨rfl,rfl⟩,⟨off,_,rfl⟩ | ⟨on,_,m,checked,_,_,⟨rfl,rfl⟩,rfl⟩⟩ | ⟨_,impossible⟩⟩ := ran
  · exact ⟨pending,.inl ⟨off,rfl⟩⟩
  · exact ⟨pending,.inr ⟨Bool.eq_true_of_not_eq_false on,m,checked,rfl⟩⟩
  · exact impossible.elim

def Accepts (s : Settings) (argv : List Bytes) : Prop :=
  (configure s ((argv.drop 1).map cstr)).1 = REDISMODULE_OK

instance (s : Settings) (argv : List Bytes) : Decidable (Accepts s argv) :=
  inferInstanceAs (Decidable (_ = REDISMODULE_OK))

theorem connectAmqpCommand_parts (ran : Ends (connectAmqpCommand ctx argv) w res w') :
    ∃ m, Touches [.settings,.count,.keys] w m ∧ m.script = w.script ∧
      ((¬ Accepts w.settings argv ∧ w' = {m with trace := m.trace ++ [.reply .wrongArity]}) ∨
      (Accepts w.settings argv ∧ ∃ response n, Ends amqpConnect m response n ∧
        ((response ≠ REDIS_AMQP_OK ∧ ∃ text, w' = {n with trace := n.trace ++ [.reply (.error text)]}) ∨
        (response = REDIS_AMQP_OK ∧ ∃ text, w' = {n.armed ctx.db with
          amqpConnectionEnabled := true
          trace := (n.armed ctx.db).trace ++ [.reply (.simpleString text)]})))) := by
  simp only [connectAmqpCommand,ends_bind,ends_ite,ends_pure,ends_modify,ends_emit,createTimer_parts] at ran
  obtain ⟨status,m,configured,ran⟩ := ran
  obtain ⟨⟨_,_,script⟩,result⟩ := setupConfig_same configured
  refine ⟨m,Keeps.keeps configured,script,?_⟩
  rcases ran with ⟨bad,_,_,rfl,_,rfl⟩ | ⟨ok,response,n,connected,ran⟩
  · exact .inl ⟨fun fine => bad (result.mpr fine),rfl⟩
  refine .inr ⟨result.mp (not_not.mp ok),response,n,connected,?_⟩
  rcases ran with ⟨failed,_,_,rfl,_,rfl⟩ | ⟨done,_,_,⟨rfl,rfl⟩,_,_,rfl,_,_,rfl,_,rfl⟩
  · exact .inl ⟨failed,_,rfl⟩
  · exact .inr ⟨not_not.mp done,_,rfl⟩

def World.stopped (w : World) : World := {w with
  timers := if w.heardBeatTimerId = 0 then w.timers else w.timers.filter fun timer => timer.id ≠ w.heardBeatTimerId
  heardBeatTimerId := 0
  trace := if w.heardBeatTimerId = 0 then w.trace else w.trace ++ [.stopTimer w.heardBeatTimerId]}

theorem stopped_touches (w : World) : Touches [.heartbeat] w w.stopped := by
  by_cases zero : w.heardBeatTimerId = 0
  · exact ⟨.inr rfl,.inr rfl,.inr rfl,.inr rfl,.inr rfl,.inl (by simp),.inl (by simp),Nat.le_refl _,[],
      by simp [World.stopped,zero],by simp⟩
  · exact ⟨.inr rfl,.inr rfl,.inr rfl,.inr rfl,.inr rfl,.inl (by simp),.inl (by simp),Nat.le_refl _,
      [.stopTimer w.heardBeatTimerId],by simp only [World.stopped,if_neg zero],by simp⟩

theorem stopHeartbeat_parts (ran : Ends stopHeartbeat w u w') : w' = w.stopped := by
  simp only [stopHeartbeat,stopTimer,ends_bind,ends_get,ends_ite,ends_pure,ends_emit,ends_modify] at ran
  obtain ⟨_,_,⟨rfl,rfl⟩,⟨set,_,_,⟨_,_,rfl,rfl⟩,rfl⟩ | ⟨zero,_,rfl⟩⟩ := ran
  · simp only [World.stopped,if_neg set]
  · have zero : w.heardBeatTimerId = 0 := not_not.mp zero
    cases w
    cases zero
    rfl

theorem disconnectAmqpCommand_parts (ran : Ends (disconnectAmqpCommand argv) w res w') :
    ∃ m response n final, Ends (wrongArityWhen (argv.length > 1)) w () m ∧
      Ends amqpDisconnect {m with amqpConnectionEnabled := false}.stopped response n ∧
      w' = {n with trace := n.trace ++ [.reply final]} := by
  simp only [disconnectAmqpCommand,ends_bind,ends_ite,ends_pure,ends_modify,ends_emit] at ran
  obtain ⟨_,m,arity,_,_,rfl,_,o,stopped,response,n,closed,⟨_,_,_,rfl,_,rfl⟩ | ⟨_,_,_,rfl,_,rfl⟩⟩ := ran
  · exact ⟨m,response,n,_,arity,stopHeartbeat_parts stopped ▸ closed,rfl⟩
  · exact ⟨m,response,n,_,arity,stopHeartbeat_parts stopped ▸ closed,rfl⟩

theorem body_parts (command : Command) (ran : Ends (command.body ctx argv) w res w') :
    (command = .connect ∧ Ends (connectAmqpCommand ctx argv) w res w') ∨
    (command = .disconnect ∧ Ends (disconnectAmqpCommand argv) w res w') ∨
    (command ≠ .connect ∧ command ≠ .disconnect ∧ Touches [.settings,.count,.keys] w w') := by
  cases command with
  | connect => exact .inl ⟨rfl,ran⟩
  | disconnect => exact .inr (.inl ⟨rfl,ran⟩)
  | configSet | fallbackStorageSizeSet | keymaskClean | keymaskAdd =>
    unfold Command.body at ran
    exact .inr (.inr ⟨by simp,by simp,Keeps.keeps ran⟩)
  | keymaskSet =>
    simp only [Command.body,ends_bind,ends_pure] at ran
    obtain ⟨_,_,cleaned,_,_,added,_,rfl⟩ := ran
    exact .inr (.inr ⟨by simp,by simp,Touches.trans (Keeps.keeps cleaned) (Keeps.keeps added)⟩)

theorem body_within (command : Command) (ran : Ends (command.body ctx argv) w res w') :
    Touches [.settings,.count,.keys,.session,.heartbeat,.enabled,.replies] w w' := by
  rcases body_parts command ran with ⟨_,ran⟩ | ⟨_,ran⟩ | ⟨_,_,touched⟩
  · exact Keeps.keeps ran
  · exact Keeps.keeps ran
  · exact touched.mono (by simp)

theorem carried_touches (command : Command) (before : Aside w m) (ran : Ends (command.body ctx argv) m res n)
    (after : Aside n w') :
    Touches [.settings,.count,.keys,.session,.heartbeat,.enabled,.replies,.strings,.broadcasts] w w' :=
  (before.touches.mono (by simp)).trans (((body_within command ran).mono (by simp)).trans (after.touches.mono (by simp)))

theorem name_not_all (found : lookupCommand name = some command) : cstr name ≠ KEY_MASK_ALL := by
  have named : command.name = name.map lower := by simpa [lookupCommand] using List.find?_some found
  intro all
  have first : (cstr name).bytes.head? = some 65 := by rw [all]; rfl
  cases name with
  | nil => cases first
  | cons c rest =>
    have head : (command.name).head? = some (lower c) := by rw [named]; rfl
    by_cases zero : c = 0
    · simp [cstr,zero] at first
    · have upper : c = 65 := by simpa [cstr,zero] using first
      subst upper
      cases command <;> cases head

theorem carried_config (taken : step w turn = some w') (known : turn.callback.carries = some (command,argv)) :
    w'.config = command.configure (connectOutcome w.conn turn.script) argv w.config := by
  have happens := step_happens taken
  obtain ⟨callback,script⟩ := turn
  cases happens with
  | event ran => cases known
  | timer ran => cases known
  | carried found args same before ran after =>
    obtain ⟨rfl,rfl⟩ := Prod.mk.inj (Option.some.inj (same.symm.trans known))
    rw [after.same.config,body_config found ran,before.same.config,before.same.conn,before.same.script]
    rfl
  | ignored unknown aside => cases unknown.symm.trans known

end KeyspaceAmqp
