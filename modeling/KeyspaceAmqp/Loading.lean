import KeyspaceAmqp.Arguments
import KeyspaceAmqp.Receiver

namespace KeyspaceAmqp
open Programs

-- The letters of an events mask, in the order of the error text of RedisModule_OnLoad.
def eventLetters : Bytes := ascii "g$lshzxeA"

theorem mem_eventLetters (c : UInt8) : c ∈ eventLetters ↔ c = byte 'g' ∨ c = byte '$' ∨ c = byte 'l' ∨ c = byte 's' ∨
    c = byte 'h' ∨ c = byte 'z' ∨ c = byte 'x' ∨ c = byte 'e' ∨ c = byte 'A' := by
  change c ∈ [byte 'g',byte '$',byte 'l',byte 's',byte 'h',byte 'z',byte 'x',byte 'e',byte 'A'] ↔ _
  simp only [List.mem_cons,List.not_mem_nil,or_false]

theorem notifyFlag_known (c : UInt8) : notifyFlag c ≠ none ↔ c ∈ eventLetters := by
  rw [mem_eventLetters,notifyFlag]
  grind

-- Redis notifies a subscriber of the types that share a bit with its mode.
def Hears (mode type : UInt32) : Prop := mode &&& type ≠ 0

instance (mode type : UInt32) : Decidable (Hears mode type) := inferInstanceAs (Decidable (_ ≠ _))

theorem hears_or (a b type : UInt32) : Hears (a ||| b) type ↔ Hears a type ∨ Hears b type := by
  have distrib : (a ||| b) &&& type = (a &&& type) ||| (b &&& type) := by
    rw [← UInt32.toBitVec_inj]
    simp [BitVec.and_or_distrib_right]
  rw [Hears,distrib,Ne,UInt32.or_eq_zero_iff,not_and_or]
  rfl

theorem hears_none (type : UInt32) : ¬ Hears 0 type := by simp [Hears]

theorem subscriptionMode_parts (mode : UInt32) (letters : Bytes) :
    (subscriptionMode mode letters = none ∧ ∃ c ∈ letters, c ∉ eventLetters) ∨
    ((∀ c ∈ letters, c ∈ eventLetters) ∧ ∃ heard, subscriptionMode mode letters = some heard ∧
      ∀ type, Hears heard type ↔ Hears mode type ∨ ∃ c ∈ letters, ∃ flag ∈ notifyFlag c, Hears flag type) := by
  induction letters generalizing mode with
  | nil => exact .inr ⟨by simp,mode,rfl,by simp⟩
  | cons c rest ih =>
    cases found : notifyFlag c with
    | none =>
      have unknown : c ∉ eventLetters := fun member => (notifyFlag_known c).mpr member found
      exact .inl ⟨by simp [subscriptionMode,found],c,List.mem_cons_self,unknown⟩
    | some flag =>
      have known : c ∈ eventLetters := (notifyFlag_known c).mp (by simp [found])
      simp only [subscriptionMode,found]
      rcases ih (mode ||| flag) with ⟨none,d,member,unknown⟩ | ⟨all,heard,some,hears⟩
      · exact .inl ⟨none,d,List.mem_cons_of_mem _ member,unknown⟩
      · refine .inr ⟨?_,heard,some,fun type => ?_⟩
        · intro d member
          rcases List.mem_cons.mp member with rfl | later
          · exact known
          · exact all d later
        · rw [hears,hears_or]
          simp [found,or_assoc]

structure Loadable (argv : List Bytes) : Prop where
  mode : ¬ WrongMode ((argv.drop 1).map cstr)
  letters : ∀ mask ∈ argv.head?, ∀ c ∈ (cstr mask).bytes, c ∈ eventLetters

def Granted (script : List Answer) : Prop := script.take 8 = List.replicate 8 (.status REDISMODULE_OK)

instance (script : List Answer) : Decidable (Granted script) := inferInstanceAs (Decidable (_ = _))

def defaultSettings : Settings where
  hostname := DEFAULT_AMQP_HOST
  port := DEFAULT_AMQP_PORT
  username := DEFAULT_AMQP_USER
  password := DEFAULT_AMQP_PASS
  heartbeat := DEFAULT_AMQP_HEARTBEAT
  exchange := DEFAULT_AMQP_EXCHANGE
  routingKey := DEFAULT_AMQP_ROUTINGKEY
  deliveryMode := DEFAULT_AMQP_DELIVERY_MODE
  fallbackStorageMaxSize := DEFAULT_FALLBACK_STORAGE_SIZE
  keyMaskArr := []

def Subscribed (argv : List Bytes) (type : UInt32) : Prop := match argv with
  | [] => Hears 0x300 type
  | mask :: _ => ∃ c ∈ (cstr mask).bytes, ∃ flag ∈ notifyFlag c, Hears flag type

theorem keySpaceSubscriptionMode_parts (argv : List Bytes) :
    (keySpaceSubscriptionMode argv = none ∧ ∃ mask ∈ argv.head?, ∃ c ∈ (cstr mask).bytes, c ∉ eventLetters) ∨
    ((∀ mask ∈ argv.head?, ∀ c ∈ (cstr mask).bytes, c ∈ eventLetters) ∧
      ∃ mode, keySpaceSubscriptionMode argv = some mode ∧ ∀ type, Hears mode type ↔ Subscribed argv type) := by
  cases argv with
  | nil => exact .inr ⟨by simp,_,rfl,fun _ => Iff.rfl⟩
  | cons mask rest =>
    rcases subscriptionMode_parts 0 (cstr mask).bytes with ⟨none,c,member,unknown⟩ | ⟨all,heard,some,hears⟩
    · exact .inl ⟨none,mask,rfl,c,member,unknown⟩
    · refine .inr ⟨?_,heard,some,fun type => (hears type).trans (or_iff_right (hears_none type))⟩
      rintro _ ⟨rfl⟩
      exact all

-- A call by which Redis comes to call the module for events, or for messages of other nodes.
def Call.hooks : Call → Bool
  | .subscribeToKeyspaceEvents _ | .registerClusterMessageReceiver _ => true
  | _ => false

theorem Touches.unhooked (touches : Touches parts w w') (outside : .load ∉ parts) :
    w'.trace.filter Call.hooks = w.trace.filter Call.hooks := by
  obtain ⟨more,added,inside⟩ := touches.calls
  have none : more.filter Call.hooks = [] := by
    refine List.filter_eq_nil_iff.mpr fun c member hooks => outside ?_
    have part := inside c member
    cases c <;> first | exact part | cases hooks
  rw [added,List.filter_append,none,List.append_nil]

theorem createCommands_parts (ran : Ends (createCommands commands) w res w') : Touches [.load] w w' ∧
    w'.trace.filter Call.hooks = w.trace.filter Call.hooks ∧
    ((res = REDISMODULE_OK ∧ w.script = List.replicate commands.length (.status REDISMODULE_OK) ++ w'.script) ∨
    (res = REDISMODULE_ERR ∧
      w.script.take commands.length ≠ List.replicate commands.length (.status REDISMODULE_OK))) := by
  refine ⟨Keeps.keeps ran,?_⟩
  induction commands generalizing w with
  | nil =>
    obtain ⟨rfl,rfl⟩ := ends_pure.mp ran
    exact ⟨rfl,.inl ⟨rfl,rfl⟩⟩
  | cons command rest ih =>
    simp only [createCommands,ends_bind,ends_answer,ends_emit,ends_ite,ends_pure] at ran
    have unhooked (made : List Call) : (made ++ [Call.createCommand command.name]).filter Call.hooks = made.filter Call.hooks := by
      simp [List.filter_append,Call.hooks]
    obtain ⟨status,_,⟨a,left,script,picked,rfl⟩,_,_,rfl,⟨bad,rfl,rfl⟩ | ⟨ok,ran⟩⟩ := ran
    · cases status_answer picked
      refine ⟨unhooked w.trace,.inr ⟨rfl,fun same => bad ?_⟩⟩
      rw [script,List.length_cons,List.take_succ_cons,List.replicate_succ] at same
      cases (List.cons_eq_cons.mp same).1
      rfl
    · cases status_answer picked
      cases not_not.mp ok
      obtain ⟨same,outcome⟩ := ih ran
      refine ⟨same.trans (unhooked w.trace),outcome.imp ?_ ?_⟩
      · rintro ⟨rfl,more⟩
        have more : left = List.replicate rest.length (.status REDISMODULE_OK) ++ w'.script := more
        exact ⟨rfl,by rw [script,more]; rfl⟩
      · rintro ⟨rfl,refused⟩
        refine ⟨rfl,fun granted => refused ?_⟩
        rw [script,List.length_cons,List.take_succ_cons,List.replicate_succ] at granted
        exact (List.cons_eq_cons.mp granted).2

theorem init_parts (ran : Ends (init ctx argv) w res w') (booted : w.settings = (boot storage).settings) :
    Touches [.settings,.keys,.count,.strings] w w' ∧
    ((res = REDISMODULE_OK ∧ ¬ WrongMode ((argv.drop 1).map cstr) ∧
      w'.settings = defaultSettings.given ((argv.drop 1).map cstr)) ∨
    (res = REDISMODULE_ERR ∧ WrongMode ((argv.drop 1).map cstr))) := by
  refine ⟨Keeps.keeps ran,?_⟩
  simp only [init,setupDefaultConfig,ends_bind,ends_modify,ends_pure] at ran
  obtain ⟨_,_,rfl,_,_,⟨_,_,rfl,_,m,named,_,rfl⟩,configured⟩ := ran
  have named : Touches [.strings] _ m := Keeps.keeps named
  have settings : m.settings = defaultSettings := by
    rw [named.settings.resolve_left (by decide),booted]
    rfl
  obtain ⟨_,⟨ok,right,given⟩ | ⟨refused,wrong,_⟩⟩ := setupConfig_outcome configured
  · exact .inl ⟨ok,right,settings ▸ given⟩
  · exact .inr ⟨refused,wrong⟩

inductive LoadOutcome (ctx : Ctx) (argv : List Bytes) (script : List Answer) : Int32 → World → Prop where
  | loaded (granted : Granted script) (loadable : Loadable argv)
      (settings : w.settings = defaultSettings.given ((argv.drop 1).map cstr))
      (enabled : w.amqpConnectionEnabled = true ↔ w.settings.keyMaskArr ≠ [])
      (subscribed : ∀ type, Hears mode type ↔ Subscribed argv type)
      (hooked : w.trace.filter Call.hooks = .subscribeToKeyspaceEvents mode ::
        if isRedisCluster ctx then [.registerClusterMessageReceiver CLUSTER_MESSAGE_TYPE_CMD] else []) :
      LoadOutcome ctx argv script REDISMODULE_OK w
  | refused (bad : ¬ (Granted script ∧ Loadable argv)) (unhooked : w.trace.filter Call.hooks = [])
      (off : w.amqpConnectionEnabled = false) : LoadOutcome ctx argv script REDISMODULE_ERR w

theorem enableAndSubscribe_parts (ran : Ends (enableAndSubscribe ctx mode) w u w') (unhooked : w.trace.filter Call.hooks = [])
    (off : w.amqpConnectionEnabled = false) : w'.settings = w.settings ∧
    (w'.amqpConnectionEnabled = true ↔ w.settings.keyMaskArr ≠ []) ∧
    w'.trace.filter Call.hooks = .subscribeToKeyspaceEvents mode ::
      if isRedisCluster ctx then [.registerClusterMessageReceiver CLUSTER_MESSAGE_TYPE_CMD] else [] := by
  simp only [enableAndSubscribe,ends_bind,ends_pure,ends_modify,ends_emit,ends_ite] at ran
  have enabled : (if w.settings.keyMaskArr.length > 0 then true else w.amqpConnectionEnabled) = true ↔
      w.settings.keyMaskArr ≠ [] := by
    rw [off]
    cases w.settings.keyMaskArr <;> simp
  obtain ⟨_,_,rfl,_,_,rfl,⟨cluster,rfl⟩ | ⟨alone,_,rfl⟩⟩ := ran
  · exact ⟨rfl,enabled,by simp [List.filter_append,unhooked,Call.hooks,cluster]⟩
  · exact ⟨rfl,enabled,by simp [List.filter_append,unhooked,Call.hooks,alone]⟩

theorem onLoad_outcome (ran : Ends (onLoad ctx argv) {boot storage with script := script} res w) :
    LoadOutcome ctx argv script res w := by
  simp only [onLoad,ends_bind,ends_answer,ends_ite,ends_pure] at ran
  obtain ⟨status,_,⟨a,rest,answers,picked,rfl⟩,⟨bad,rfl,rfl⟩ | ⟨ok,created,m,creating,ran⟩⟩ := ran
  · cases status_answer picked
    have answers : script = .status status :: rest := answers
    refine .refused (fun both => bad ?_) rfl rfl
    have granted := both.1
    rw [Granted,answers,List.take_succ_cons,List.replicate_succ] at granted
    cases (List.cons_eq_cons.mp granted).1
    rfl
  cases status_answer picked
  cases not_not.mp ok
  have answers : script = .status REDISMODULE_OK :: rest := answers
  obtain ⟨touched,unhooked,outcome⟩ := createCommands_parts creating
  have off : m.amqpConnectionEnabled = false := touched.enabled.resolve_left (by decide)
  have unhooked : m.trace.filter Call.hooks = [] := unhooked
  rcases outcome with ⟨rfl,left⟩ | ⟨rfl,ungranted⟩
  case inr =>
    obtain ⟨_,rfl,rfl⟩ | ⟨fine,_⟩ := ran
    · refine .refused (fun both => ungranted ?_) unhooked off
      have granted := both.1
      rw [Granted,answers,List.take_succ_cons,List.replicate_succ] at granted
      exact (List.cons_eq_cons.mp granted).2
    · exact absurd (by decide) fine
  have left : rest = List.replicate 7 (.status REDISMODULE_OK) ++ m.script := left
  have granted : Granted script := by
    rw [Granted,answers,left]
    rfl
  obtain ⟨bad,_⟩ | ⟨_,configured,n,starting,ran⟩ := ran
  · exact absurd rfl bad
  obtain ⟨started,outcome⟩ := @init_parts _ _ _ _ _ storage starting (touched.settings.resolve_left (by decide))
  have off : n.amqpConnectionEnabled = false := (started.enabled.resolve_left (by decide)).trans off
  have unhooked : n.trace.filter Call.hooks = [] := (started.unhooked (by decide)).trans unhooked
  rcases outcome with ⟨rfl,right,settings⟩ | ⟨rfl,wrong⟩
  case inr =>
    obtain ⟨_,rfl,rfl⟩ | ⟨fine,_⟩ := ran
    · exact .refused (fun both => both.2.mode wrong) unhooked off
    · exact absurd (by decide) fine
  obtain ⟨bad,_⟩ | ⟨_,ran⟩ := ran
  · exact absurd rfl bad
  rcases keySpaceSubscriptionMode_parts argv with ⟨none,mask,first,c,member,unknown⟩ | ⟨known,mode,some,hears⟩
  · rw [none] at ran
    obtain ⟨rfl,rfl⟩ := ends_pure.mp ran
    exact .refused (fun both => unknown (both.2.letters mask first c member)) unhooked off
  · simp only [some,ends_bind,ends_pure] at ran
    obtain ⟨_,_,subscribed,rfl,rfl⟩ := ran
    obtain ⟨same,enabled,hooked⟩ := enableAndSubscribe_parts subscribed unhooked off
    exact .loaded granted ⟨right,known⟩ (same.trans settings) (same ▸ enabled) hears hooked

theorem createCommands_ends (commands : List Command) (w : World) (rest : List Answer) :
    Ends (createCommands commands) (w.asked (List.replicate commands.length (.status REDISMODULE_OK) ++ rest)) REDISMODULE_OK
      {w.asked rest with trace := w.trace ++ commands.map fun command => .createCommand command.name} := by
  induction commands generalizing w with
  | nil => exact ends_pure.mpr ⟨rfl,by simp⟩
  | cons command later ih =>
    have ran := ih {w with trace := w.trace ++ [.createCommand command.name]}
    refine ends_bind.mpr ⟨REDISMODULE_OK,_,ends_answer.mpr ⟨_,_,rfl,rfl,rfl⟩,ends_bind.mpr ⟨(),_,ends_emit.mpr rfl,?_⟩⟩
    rw [if_neg (by simp)]
    simpa using ran

-- What RedisModule_OnLoad does once it has its commands.
def afterCommands (ctx : Ctx) (argv : List Bytes) : Act Int32 := do
  let res ← init ctx argv
  if res ≠ REDISMODULE_OK then pure REDISMODULE_ERR
  else match keySpaceSubscriptionMode argv with
    | none => pure REDISMODULE_ERR
    | some mode => do
      enableAndSubscribe ctx mode
      pure REDISMODULE_OK

section Feeding
set_option synthInstance.maxSize 100000

instance : Feeds brokers (init ctx argv) := by unfold init setupDefaultConfig; infer_instance
instance : Feeds brokers (enableAndSubscribe ctx mode) := by unfold enableAndSubscribe; infer_instance
instance : Feeds brokers (afterCommands ctx argv) := by
  unfold afterCommands
  cases keySpaceSubscriptionMode argv <;> infer_instance

end Feeding

theorem onLoad_ends (ctx : Ctx) (argv : List Bytes) (storage : Int32 → List Bytes) (broker : Broker) :
    ∃ script res w, Granted script ∧ Ends (onLoad ctx argv) {boot storage with script := script} res w := by
  let created : World := {boot storage with trace := Command.all.map fun command => .createCommand command.name}
  have served : Served brokers (afterCommands ctx argv) created broker := Feeds.served _ _
  obtain ⟨answers,_,res,w,_,ran⟩ := served
  let script : List Answer := List.replicate 8 (.status REDISMODULE_OK) ++ (answers ++ [])
  have granted : Granted script := rfl
  have ran : Ends (onLoad ctx argv) {boot storage with script := script} res (w.asked []) := by
    refine ends_bind.mpr ⟨REDISMODULE_OK,_,ends_answer.mpr ⟨_,_,rfl,rfl,rfl⟩,?_⟩
    rw [if_neg (by simp)]
    refine ends_bind.mpr ⟨REDISMODULE_OK,_,createCommands_ends Command.all (boot storage) (answers ++ []),?_⟩
    rw [if_neg (by simp)]
    exact ran []
  exact ⟨script,res,_,granted,ran⟩

-- A load with these arguments comes to an end, and is granted where Redis grants the module
-- and its commands: just when the arguments are loadable.
theorem load_decided (ctx : Ctx) (argv : List Bytes) (storage : Int32 → List Bytes) :
    ((∃ w, Loaded ctx argv storage w) ↔ Loadable argv) ∧
    ∀ script res w, Ends (onLoad ctx argv) {boot storage with script := script} res w →
      LoadOutcome ctx argv script res w ∧ w.storage = storage ∧ w.conn = none ∧ w.timers = [] := by
  refine ⟨⟨?_,?_⟩,?_⟩
  · rintro ⟨w,script,ran⟩
    cases onLoad_outcome ran with
    | loaded _ loadable => exact loadable
  · intro loadable
    obtain ⟨script,res,w,granted,ran⟩ := onLoad_ends ctx argv storage calm
    cases onLoad_outcome ran with
    | loaded => exact ⟨w,script,ran⟩
    | refused bad => exact absurd ⟨granted,loadable⟩ bad
  · intro script res w ran
    have touched : Touches [.settings,.keys,.count,.strings,.enabled,.load] _ w := Keeps.keeps ran
    exact ⟨onLoad_outcome ran,touched.lists.resolve_left (by decide),touched.conn.resolve_left (by decide),
      touched.timers.resolve_left (by decide)⟩

theorem load_decided_letters : (∃ w, Loaded (master 0) (allKeys "0") (fun _ => []) w) ∧
    ¬ ∃ w, Loaded (master 0) [ascii "xq"] (fun _ => []) w := by
  refine ⟨(load_decided (master 0) (allKeys "0") fun _ => []).1.mpr ⟨by decide,?_⟩,?_⟩
  · intro mask first
    have known : ∀ c ∈ (cstr (ascii "xe")).bytes, c ∈ eventLetters := by decide +kernel
    cases first
    exact known
  · intro loaded
    have loadable := (load_decided (master 0) [ascii "xq"] fun _ => []).1.mp loaded
    exact absurd (loadable.letters _ rfl (byte 'q') (by decide)) (by decide)

end KeyspaceAmqp
