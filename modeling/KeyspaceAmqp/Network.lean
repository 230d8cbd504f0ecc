import KeyspaceAmqp.Cluster
import KeyspaceAmqp.Steps
import KeyspaceAmqp.Library.Links

namespace KeyspaceAmqp
open Programs Paths Links

-- What is around a message where it arrives: the context of the callback, the memory after
-- the payload, and the answers of the surroundings.
structure Arrival where
  ctx : Ctx
  beyond : Bytes
  script : List Answer

def sentOut (calls : List Call) : List (UInt8 × Bytes) := calls.filterMap fun
  | .sendClusterMessage type payload => some (type,payload)
  | _ => none

-- Everything Redis calls a node for of itself. A message comes from another node only.
def Callback.own : Callback → Bool
  | .clusterMessage _ _ _ _ => false
  | _ => true

def clusterNode : Kind World Turn (UInt8 × Bytes) Arrival where
  next := step
  own turn := turn.callback.own
  sends w := sentOut w.trace
  arrival message around := ⟨.clusterMessage around.ctx message.1 message.2 around.beyond,around.script⟩

abbrev Cluster (ι : Type) := Net ι World (UInt8 × Bytes)
abbrev ClusterStep (ι : Type) := Happening ι World Turn (UInt8 × Bytes) Arrival
abbrev ClusterRun {ι : Type} [DecidableEq ι] (start : Cluster ι) (hs : List (ClusterStep ι)) (last : Cluster ι) : Prop :=
  Path clusterNode.step start hs last

def Callback.announces : Callback → List (UInt8 × Bytes)
  | .command ctx name args =>
    if isRedisCluster ctx then [(CLUSTER_MESSAGE_TYPE_CMD,(redisArgsToSerializedString (name :: args)).bytes)] else []
  | _ => []

theorem announces_brief (callback : Callback) : callback.announces.length ≤ 1 := by
  cases callback with
  | command ctx name args =>
    rw [Callback.announces]
    split <;> simp
  | _ => exact Nat.zero_le _

theorem Touches.sentOut {w w' : World} (touches : Touches parts w w') (outside : .broadcasts ∉ parts) :
    sentOut w'.trace = sentOut w.trace := by
  obtain ⟨more,added,inside⟩ := touches.calls
  have silent : KeyspaceAmqp.sentOut more = [] := by
    refine List.filterMap_eq_nil_iff.mpr ?_
    intro c member
    cases c with
    | sendClusterMessage type payload => exact absurd (inside _ member) outside
    | _ => rfl
  rw [added,KeyspaceAmqp.sentOut,List.filterMap_append,← KeyspaceAmqp.sentOut,← KeyspaceAmqp.sentOut,silent,List.append_nil]

theorem broadcastRedisCommand_sent {w w' : World} (ran : Ends (broadcastRedisCommand ctx argv) w u w') :
    sentOut w'.trace = sentOut w.trace ++ if isRedisCluster ctx then
      [(CLUSTER_MESSAGE_TYPE_CMD,(redisArgsToSerializedString argv).bytes)] else [] := by
  rcases ends_ite.mp ran with ⟨cluster,sent⟩ | ⟨alone,ran⟩
  · cases ends_emit.mp sent
    simp [sentOut,cluster]
  · obtain ⟨_,rfl⟩ := ends_pure.mp ran
    simp [alone]

abbrev forwarding : List Part := [.session,.heartbeat,.events,.publishes,.lists,.strings,.count,.keys]

theorem onKeyspaceEvent_touches {w w' : World} (ran : Ends (onKeyspaceEvent ctx type event key) w res w') :
    Touches forwarding w w' := by
  rcases onKeyspaceEvent_parts ran with ⟨_,_,m,first,looped⟩ | ⟨_,rfl⟩
  · exact .trans (Keeps.keeps first) (Keeps.keeps looped)
  · exact .refl _

theorem fireTimer_touches {w w' : World} (ran : Ends (fireTimer fired flags) w u w') : Touches forwarding w w' := by
  rcases (fireTimer_parts ran).2 with ⟨_,rfl⟩ | ⟨_,m,checked,rfl⟩
  · exact (fired_touches _ _).mono (by simp)
  · have checked : Touches forwarding _ m := Keeps.keeps checked
    exact (((fired_touches _ _).mono (by simp)).trans checked).trans ((armed_touches _ _).mono (by simp))

theorem step_announces (taken : step w turn = some w') : sentOut w'.trace = turn.callback.announces := by
  have ran := step_ends.mp taken
  obtain ⟨callback,script⟩ := turn
  cases callback with
  | keyspaceEvent ctx type event key =>
    simp only [Callback.run,ends_bind,ends_pure] at ran
    obtain ⟨_,_,ran,_,rfl⟩ := ran
    exact (onKeyspaceEvent_touches ran).sentOut (by decide)
  | timer fired flags =>
    have ran : Ends (fireTimer fired flags) _ () w' := ran
    exact (fireTimer_touches ran).sentOut (by decide)
  | command ctx name args =>
    simp only [Callback.run] at ran
    cases found : lookupCommand name with
    | none => simp [found] at ran
    | some command =>
      simp only [found,ends_bind,ends_pure,handler_body] at ran
      obtain ⟨_,_,⟨_,m,arity,_,n,sent,ran⟩,_,rfl⟩ := ran
      have arity : Touches [.replies] _ m := Keeps.keeps arity
      rw [(body_within command ran).sentOut (by decide),broadcastRedisCommand_sent sent,arity.sentOut (by decide)]
      exact List.nil_append _
  | clusterMessage ctx type payload beyond =>
    have ran : Ends (clusterMessageReceiver ctx type payload beyond) _ () w' := ran
    simp only [clusterMessageReceiver,ends_ite,ends_pure,ends_bind] at ran
    rcases ran with ⟨_,_,rfl⟩ | ⟨_,argv,m,created,ran⟩
    · rfl
    have made : Touches [.strings] (w.given script) m := Keeps.keeps created
    cases argv with
    | nil =>
      obtain ⟨_,rfl⟩ := ends_pure.mp ran
      exact made.sentOut (by decide)
    | cons string strings =>
      simp only [ends_bind] at ran
      obtain ⟨_,n,read,_,o,dispatched,freed⟩ := ran
      have read : Touches [.strings] m n := Keeps.keeps read
      have freed : Touches [.strings] o w' := Keeps.keeps freed
      have carried : sentOut o.trace = sentOut n.trace := by
        rcases dispatch_body dispatched with ⟨found,_,_,ran⟩ | ⟨_,rfl⟩
        · exact (body_within found ran).sentOut (by decide)
        · rfl
      rw [freed.sentOut (by decide),carried,read.sentOut (by decide),made.sentOut (by decide)]
      rfl

def clustered : Ctx := ⟨0,REDISMODULE_CTX_FLAGS_MASTER ||| REDISMODULE_CTX_FLAGS_CLUSTER⟩

variable {ι : Type} [DecidableEq ι]

theorem said_announced {start last : Cluster ι} (run : ClusterRun start hs last) (i : ι) :
    clusterNode.said i hs = (clusterNode.steps i hs).flatMap fun s => s.label.callback.announces := by
  have path := node_path run i
  have each : ∀ s ∈ clusterNode.steps i hs, clusterNode.sends s.after = s.label.callback.announces :=
    fun s member => step_announces (path.edge_taken member)
  rw [Kind.said,List.flatMap_congr each]

-- Each node of a cluster lives as a node alone, and each link passes on, in their order and
-- once each, the commands typed at its sender and nothing else: a command received is not
-- sent on.
theorem commands_relayed_once {start last : Cluster ι} (run : ClusterRun start hs last) :
    (∀ i, Run (start.node i) (clusterNode.steps i hs) (last.node i)) ∧
    ∀ i j, i ≠ j → start.link i j ++ ((clusterNode.steps i hs).flatMap fun s => s.label.callback.announces) =
      gone i j hs ++ last.link i j :=
  ⟨node_path run,fun i _ other => said_announced run i ▸ link_path run other⟩

theorem cluster_played (argv : List Bytes) (events : List (Occurrence Bool Turn Arrival))
    (holds : List (ClusterStep Bool) → Cluster Bool → Bool)
    (ran : (played clustered argv (fun _ => []) []).any fun r => r.1 == REDISMODULE_OK &&
      (replay clusterNode.step ⟨fun _ => r.2.1,fun _ _ => []⟩ events).any fun run => holds run.1 run.2) :
    ∃ w hs last, Loaded clustered argv (fun _ => []) w ∧
      ClusterRun (⟨fun _ => w,fun _ _ => []⟩ : Cluster Bool) hs last ∧ hs.map Edge.label = events ∧ holds hs last = true := by
  let holds' (w : World) : Bool :=
    (replay clusterNode.step ⟨fun _ => w,fun _ _ => []⟩ events).any fun run => holds run.1 run.2
  have replays := played_run clustered argv (fun _ => []) [] fun w _ _ => holds' w
  obtain ⟨w,_,_,loaded,_,seen⟩ := replays ran
  obtain ⟨⟨hs,last⟩,went,good⟩ := (Option.any_eq_true _ _).mp seen
  exact ⟨w,hs,last,loaded,replay_path went,replay_labels went,good⟩

def maskAdded : List (Occurrence Bool Turn Arrival) :=
  [.acts false ⟨.command clustered Command.keymaskAdd.name [ascii "^user:"],[]⟩,
    .acts true (expired 0 "a" (connects ++ accepts)),.arrives false true ⟨clustered,[0],[]⟩]

theorem commands_relayed_once_mask : ∃ start hs last, ClusterRun (start : Cluster Bool) hs last ∧
    (gone false true hs).length = 1 ∧ last.link true false = [] ∧
    start.link false true ++ ((clusterNode.steps false hs).flatMap fun s => s.label.callback.announces) =
      gone false true hs ++ last.link false true := by
  obtain ⟨w,hs,last,_,run,_,seen⟩ := cluster_played (allKeys "0") maskAdded
    (fun hs last => decide ((gone false true hs).length = 1 ∧ last.link true false = [])) (by decide +kernel)
  obtain ⟨one,none⟩ := of_decide_eq_true seen
  exact ⟨_,hs,last,run,one,none,(commands_relayed_once run).2 false true (by decide)⟩

def Command.settles (command : Command) (argv : List Bytes) (s : Settings) : Settings :=
  (command.configure none argv ⟨s,false⟩).settings

theorem configure_settles (command : Command) (outcome : Option Int32) (argv : List Bytes) (c : Config) :
    (command.configure outcome argv c).settings = command.settles argv c.settings := by
  cases command with
  | fallbackStorageSizeSet =>
    simp only [Command.settles,Command.configure]
    split <;> rfl
  | _ => rfl

theorem step_settings (taken : step w turn = some w') : w'.settings = match turn.callback.carries with
    | some (command,argv) => command.settles argv w.settings
    | none => w.settings := by
  cases carries : turn.callback.carries with
  | some carried =>
    have config := congrArg Config.settings (carried_config taken carries)
    exact config.trans (configure_settles _ _ _ _)
  | none =>
    have happens := step_happens taken
    obtain ⟨callback,script⟩ := turn
    cases happens with
    | event ran => exact (onKeyspaceEvent_touches ran).settings.resolve_left (by decide)
    | timer ran => exact (fireTimer_touches ran).settings.resolve_left (by decide)
    | carried command argv known _ _ _ => cases known.symm.trans carries
    | ignored _ aside => exact aside.same.settings

def relay (s : Settings) (message : UInt8 × Bytes) : Settings :=
  match (Callback.clusterMessage ⟨0,0⟩ message.1 message.2 [0]).carries with
  | some (command,argv) => command.settles argv s
  | none => s

theorem cstr_ended (payload beyond : Bytes) : cstr (payload ++ 0 :: beyond) = cstr (payload ++ [0]) := by
  apply CString.ext
  simp [cstr,List.takeWhile_append]

theorem arrival_settings (taken : step w ⟨.clusterMessage ctx type payload (0 :: beyond),script⟩ = some w') :
    w'.settings = relay w.settings (type,payload) := by
  rw [step_settings taken]
  simp only [relay,Callback.carries,cstr_ended payload beyond]

theorem cstr_followed (text : CString) (beyond : Bytes) : cstr (text.bytes ++ 0 :: beyond) = text := by
  have inside : ∀ b ∈ text.bytes, decide (b ≠ 0) = true := by
    intro b member
    simpa using fun zero : b = 0 => text.noNul (zero ▸ member)
  apply CString.ext
  change List.takeWhile _ _ = _
  rw [List.takeWhile_append_of_pos inside]
  simp

def Portable (argv : List Bytes) : Prop := (∀ arg ∈ argv, Plain arg) ∧ argv.getLast? ≠ some []

instance (argv : List Bytes) : Decidable (Portable argv) := inferInstanceAs (Decidable (_ ∧ _))

theorem portable_decoded (portable : Portable (first :: rest)) :
    serializedStringToRedisArgs (redisArgsToSerializedString (first :: rest)) = first :: rest := by
  obtain ⟨init,final,parts⟩ : ∃ init final, first :: rest = init ++ [final] :=
    ⟨_,_,(List.dropLast_concat_getLast (List.cons_ne_nil first rest)).symm⟩
  have filled : final ≠ [] := fun empty => portable.2 (by rw [parts,List.getLast?_concat,empty])
  rw [encoded_plain first rest portable.1 parts,if_neg filled,parts]

theorem announced_settings (taken : step w ⟨.command ctx name args,script⟩ = some w') (cluster : isRedisCluster ctx = true)
    (known : received name ≠ none) (portable : Portable (name :: args)) :
    w'.settings = (Callback.command ctx name args).announces.foldl relay w.settings := by
  obtain ⟨command,found⟩ := Option.ne_none_iff_exists'.mp known
  obtain ⟨named,_⟩ := received_exact.mp found
  have plain : Plain name := portable.1 name List.mem_cons_self
  have carries : (Callback.command ctx name args).carries = some (command,name :: args) := by
    simp [Callback.carries,← named,lookup_name]
  have arrives : (Callback.clusterMessage ⟨0,0⟩ CLUSTER_MESSAGE_TYPE_CMD
      (redisArgsToSerializedString (name :: args)).bytes [0]).carries = some (command,name :: args) := by
    simp only [Callback.carries,if_true,cstr_followed,portable_decoded portable,cstr_bytes name plain.1,found,Option.map_some]
  have settled := step_settings taken
  simp only [carries] at settled
  simp only [settled,Callback.announces,cluster,if_true,List.foldl_cons,List.foldl_nil,relay,arrives]

def ForTyped (asks : ι → Ctx → Bytes → List Bytes → Prop) : Occurrence ι Turn Arrival → Prop
  | .acts i ⟨.command ctx name args,_⟩ => asks i ctx name args
  | _ => True

-- A command is typed at this node; at a node in cluster mode; by a name that receivers know,
-- so as it is registered and not keymask_set; with arguments that the format carries.
def TypedAt (a : ι) : Occurrence ι Turn Arrival → Prop := ForTyped fun i _ _ _ => i = a
def TypedClustered : Occurrence ι Turn Arrival → Prop := ForTyped fun _ ctx _ _ => isRedisCluster ctx = true
def TypedKnown : Occurrence ι Turn Arrival → Prop := ForTyped fun _ _ name _ => received name ≠ none
def TypedPortably : Occurrence ι Turn Arrival → Prop := ForTyped fun _ _ name args => Portable (name :: args)

-- There is a terminator behind a message where it arrives. Its sender sends none.
def Terminated : Occurrence ι Turn Arrival → Prop
  | .arrives _ _ around => around.beyond.head? = some 0
  | _ => True

def Relayable (event : Occurrence ι Turn Arrival) : Prop :=
  TypedClustered event ∧ TypedKnown event ∧ TypedPortably event ∧ Terminated event

def Spared (i j : ι) (event : Occurrence ι Turn Arrival) : Prop := event.ends i j = event.delivers i j

theorem relayable_led {a : ι} {h : ClusterStep ι} (went : clusterNode.step h.before h.label = some h.after)
    (only : TypedAt a h.label) (relayable : Relayable h.label) : Led clusterNode World.settings relay a h := by
  refine ⟨?_,?_⟩
  · intro i turn label
    rcases step_cases went with ⟨j,other,s,same,own,taken,after⟩ | ⟨_,_,_,_,_,_,same,_⟩ | ⟨_,_,_,_,same,_⟩
    case inr.inl | inr.inr => cases label.symm.trans same
    cases label.symm.trans same
    have here : h.after.node i = s := by simp [after]
    rw [here,show clusterNode.sends s = turn.callback.announces from step_announces taken]
    obtain ⟨callback,script⟩ := turn
    have settled := step_settings taken
    cases callback with
    | command ctx name args =>
      rw [label] at only relayable
      obtain ⟨cluster,known,portable,_⟩ := relayable
      cases only
      exact ⟨announced_settings taken cluster known portable,fun other => absurd rfl other⟩
    | clusterMessage ctx type payload beyond => cases own
    | keyspaceEvent ctx type event key => exact ⟨settled,fun _ => rfl⟩
    | timer fired flags => exact ⟨settled,fun _ => rfl⟩
  · intro i j around message rest label waiting
    rcases step_cases went with ⟨_,_,_,same,_⟩ | ⟨k,l,there,head,tail,s,same,before,taken,after⟩ | ⟨_,_,_,_,same,_⟩
    case inl | inr.inr => cases label.symm.trans same
    cases label.symm.trans same
    cases waiting.symm.trans before
    have here : h.after.node j = s := by simp [after]
    obtain ⟨ctx,beyond,script⟩ := around
    rw [label] at relayable
    obtain ⟨_,_,_,terminated⟩ := relayable
    cases beyond with
    | nil => cases terminated
    | cons c beyond =>
      cases terminated
      rw [here]
      exact ⟨arrival_settings taken,step_announces taken⟩

theorem steps_brief {start last : Cluster ι} (run : ClusterRun start hs last) (a : ι) :
    ∀ s ∈ clusterNode.steps a hs, (clusterNode.sends s.after).length ≤ 1 := by
  intro s member
  have said : clusterNode.sends s.after = s.label.callback.announces := step_announces ((node_path run a).edge_taken member)
  rw [said]
  exact announces_brief s.label.callback

-- However callbacks, messages and losses elsewhere interleave, each other node is behind the
-- administered one and on its way: its settings are settings that one has had, and lack
-- just the commands still under way, so that with none of them the two agree.
theorem administrator_followed {start last : Cluster ι} (run : ClusterRun start hs last) (a j : ι) (other : j ≠ a)
    (only : ∀ h ∈ hs, TypedAt a h.label) (cluster : ∀ h ∈ hs, TypedClustered h.label)
    (known : ∀ h ∈ hs, TypedKnown h.label) (portable : ∀ h ∈ hs, TypedPortably h.label)
    (terminated : ∀ h ∈ hs, Terminated h.label) (empty : ∀ i k, start.link i k = [])
    (same : (start.node j).settings = (start.node a).settings) (spared : ∀ h ∈ hs, Spared a j h.label) :
    (last.node a).settings = (last.link a j).foldl relay (last.node j).settings ∧
    ∃ first second middle, hs = first ++ second ∧ ClusterRun start first middle ∧
      (last.node j).settings = (middle.node a).settings := by
  have led : ∀ h ∈ hs, Led clusterNode World.settings relay a h := fun h member =>
    relayable_led (run.edge_taken member) (only h member) ⟨cluster h member,known h member,portable h member,terminated h member⟩
  exact led_behind run led (steps_brief run a) (fun i k _ => empty i k) other (empty a j) same spared

theorem maskAdded_relayable : ∀ event ∈ maskAdded, TypedAt false event ∧ Relayable event := by
  intro event member
  simp only [maskAdded,List.mem_cons,List.not_mem_nil,or_false] at member
  rcases member with rfl | rfl | rfl
  · have known : received Command.keymaskAdd.name ≠ none := by decide
    have portable : Portable [Command.keymaskAdd.name,ascii "^user:"] := by decide
    have cluster : isRedisCluster clustered = true := by decide
    exact ⟨rfl,cluster,known,portable,trivial⟩
  · exact ⟨trivial,trivial,trivial,trivial,trivial⟩
  · exact ⟨trivial,trivial,trivial,trivial,rfl⟩

theorem administrator_followed_mask : ∃ start hs last, ClusterRun (start : Cluster Bool) hs last ∧
    cstr (ascii "^user:") ∈ (last.node false).settings.keyMaskArr ∧
    (last.node true).settings = (last.node false).settings := by
  obtain ⟨w,hs,last,_,run,labels,seen⟩ := cluster_played (allKeys "0") maskAdded (fun _ last => decide
    (cstr (ascii "^user:") ∈ (last.node false).settings.keyMaskArr ∧ last.link false true = [])) (by decide +kernel)
  obtain ⟨added,none⟩ := of_decide_eq_true seen
  have each {holds : Occurrence Bool Turn Arrival → Prop} (all : ∀ event ∈ maskAdded, holds event) : ∀ h ∈ hs, holds h.label :=
    fun h member => all _ (labels ▸ List.mem_map_of_mem member)
  have spared : ∀ event ∈ maskAdded, Spared false true event := by simp [maskAdded,Spared,Occurrence.ends,Occurrence.delivers]
  have fit := each maskAdded_relayable
  have followed := (administrator_followed run false true (by decide) (fun h member => (fit h member).1)
    (fun h member => (fit h member).2.1) (fun h member => (fit h member).2.2.1) (fun h member => (fit h member).2.2.2.1)
    (fun h member => (fit h member).2.2.2.2) (fun _ _ => rfl) rfl (each spared)).1
  rw [none] at followed
  exact ⟨_,hs,last,run,added,followed.symm⟩

end KeyspaceAmqp
