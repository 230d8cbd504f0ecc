import KeyspaceAmqp.Publishing
import KeyspaceAmqp.System
import KeyspaceAmqp.Wire
import KeyspaceAmqp.Library.Frames

namespace KeyspaceAmqp
open Programs

-- The parts of the world a function may change and the kinds of call it may make. A
-- session is everything said on a connection but a publish.
inductive Part where
  | settings | enabled | count | lists | session | heartbeat
  | events | publishes | keys | strings | broadcasts | replies | load
  deriving DecidableEq

@[reducible] def AmqpCall.part : AmqpCall → Part
  | .basicPublish _ _ _ _ _ => .publishes
  | _ => .session

@[reducible] def Call.part : Call → Part
  | .publishEvent _ _ => .events
  | .amqp _ call => call.part
  | .openKey _ _ _ | .closeKey _ | .valueLength _ => .keys
  | .deleteKey _ | .listPop _ _ | .listPush _ _ _ => .lists
  | .createString _ | .stringPtrLen _ | .freeString _ => .strings
  | .createTimer _ | .stopTimer _ => .heartbeat
  | .sendClusterMessage _ _ => .broadcasts
  | .reply _ => .replies
  | .createCommand _ | .subscribeToKeyspaceEvents _ | .registerClusterMessageReceiver _ => .load

class Has (parts : List Part) (part : Part) : Prop where
  mem : part ∈ parts

instance : Has (part :: rest) part := ⟨List.mem_cons_self⟩
instance [has : Has rest part] : Has (other :: rest) part := ⟨List.mem_cons_of_mem _ has.mem⟩

structure Touches (parts : List Part) (w w' : World) : Prop where
  settings : .settings ∈ parts ∨ w'.settings = w.settings
  enabled : .enabled ∈ parts ∨ w'.amqpConnectionEnabled = w.amqpConnectionEnabled
  count : .count ∈ parts ∨ w'.fallbackStorageLen = w.fallbackStorageLen
  lists : .lists ∈ parts ∨ w'.storage = w.storage
  conn : .session ∈ parts ∨ w'.conn = w.conn
  timers : .heartbeat ∈ parts ∨ w'.timers = w.timers
  heartbeat : .heartbeat ∈ parts ∨ w'.heardBeatTimerId = w.heardBeatTimerId
  handles : w.handles ≤ w'.handles
  calls : ∃ more, w'.trace = w.trace ++ more ∧ ∀ c ∈ more, c.part ∈ parts

theorem unless_trans {p : Prop} (one : p ∨ b = a) (two : p ∨ c = b) : p ∨ c = a := by
  rcases one with free | rfl
  · exact .inl free
  · exact two

instance : IsPreorder World (Touches parts) where
  refl _ := ⟨.inr rfl,.inr rfl,.inr rfl,.inr rfl,.inr rfl,.inr rfl,.inr rfl,Nat.le_refl _,[],by simp,by simp⟩
  trans _ _ _ one two := by
    obtain ⟨first,added,inside⟩ := one.calls
    obtain ⟨second,added',inside'⟩ := two.calls
    refine ⟨unless_trans one.settings two.settings,unless_trans one.enabled two.enabled,
      unless_trans one.count two.count,unless_trans one.lists two.lists,unless_trans one.conn two.conn,
      unless_trans one.timers two.timers,unless_trans one.heartbeat two.heartbeat,one.handles.trans two.handles,
      first ++ second,by simp [added,added'],?_⟩
    intro c member
    rcases List.mem_append.mp member with early | late
    · exact inside c early
    · exact inside' c late

theorem Touches.refl (w : World) : Touches parts w w := Std.Refl.refl w

theorem Touches.trans (one : Touches parts w m) (two : Touches parts m w') : Touches parts w w' :=
  IsTrans.trans _ _ _ one two

theorem Touches.mono (touches : Touches parts w w') (inside : parts ⊆ more) : Touches more w w' := by
  obtain ⟨calls,added,within⟩ := touches.calls
  exact ⟨touches.settings.imp_left (inside ·),touches.enabled.imp_left (inside ·),touches.count.imp_left (inside ·),
    touches.lists.imp_left (inside ·),touches.conn.imp_left (inside ·),touches.timers.imp_left (inside ·),
    touches.heartbeat.imp_left (inside ·),touches.handles,calls,added,fun c member => inside (within c member)⟩

-- A call of a kind that a function does not make was made before it.
theorem Touches.made (touches : Touches parts w w') (outside : part ∉ parts) :
    (∃ c ∈ w'.trace, c.part = part) ↔ ∃ c ∈ w.trace, c.part = part := by
  obtain ⟨more,added,inside⟩ := touches.calls
  rw [added]
  constructor
  · rintro ⟨c,member,rfl⟩
    rcases List.mem_append.mp member with early | late
    · exact ⟨c,early,rfl⟩
    · exact absurd (inside c late) outside
  · rintro ⟨c,member,same⟩
    exact ⟨c,List.mem_append_left _ member,same⟩

theorem Touches.silent (settings : .settings ∈ parts ∨ w'.settings = w.settings)
    (enabled : .enabled ∈ parts ∨ w'.amqpConnectionEnabled = w.amqpConnectionEnabled)
    (count : .count ∈ parts ∨ w'.fallbackStorageLen = w.fallbackStorageLen)
    (lists : .lists ∈ parts ∨ w'.storage = w.storage) (conn : .session ∈ parts ∨ w'.conn = w.conn)
    (heartbeat : .heartbeat ∈ parts ∨ (w'.timers = w.timers ∧ w'.heardBeatTimerId = w.heardBeatTimerId))
    (handles : w.handles ≤ w'.handles) (trace : w'.trace = w.trace) : Touches parts w w' :=
  ⟨settings,enabled,count,lists,conn,heartbeat.imp_right And.left,heartbeat.imp_right And.right,handles,[],
    by simp [trace],by simp⟩

theorem Touches.called (c : Call) (inside : c.part ∈ parts) (w : World) :
    Touches parts w {w with trace := w.trace ++ [c]} :=
  ⟨.inr rfl,.inr rfl,.inr rfl,.inr rfl,.inr rfl,.inr rfl,.inr rfl,Nat.le_refl _,[c],rfl,by simpa using inside⟩

instance [has : Has parts c.part] : Keeps (Touches parts) (emit c) := keeps_modify (.called c has.mem)

instance [has : Has parts call.part] : Keeps (Touches parts) (callAmqp call) :=
  keeps_modify fun w => .called (.amqp w.conn call) has.mem w

instance : Keeps (Touches parts) newHandle where
  keeps ran := by
    obtain ⟨_,rfl⟩ := ends_newHandle.mp ran
    exact .silent (.inr rfl) (.inr rfl) (.inr rfl) (.inr rfl) (.inr rfl) (.inr ⟨rfl,rfl⟩) (Nat.le_succ _) rfl

instance {pick : Answer → Option α} : Keeps (Touches parts) (answer pick) where
  keeps ran := by
    obtain ⟨_,_,_,_,rfl⟩ := ends_answer.mp ran
    exact .silent (.inr rfl) (.inr rfl) (.inr rfl) (.inr rfl) (.inr rfl) (.inr ⟨rfl,rfl⟩) (Nat.le_refl _) rfl

section Fields
variable {parts : List Part}

instance [has : Has parts .settings] {f : World → Settings} :
    Keeps (Touches parts) (modify fun w => {w with settings := f w}) :=
  keeps_modify fun _ => .silent (.inl has.mem) (.inr rfl) (.inr rfl) (.inr rfl) (.inr rfl) (.inr ⟨rfl,rfl⟩)
    (Nat.le_refl _) rfl

instance [has : Has parts .enabled] {f : World → Bool} :
    Keeps (Touches parts) (modify fun w => {w with amqpConnectionEnabled := f w}) :=
  keeps_modify fun _ => .silent (.inr rfl) (.inl has.mem) (.inr rfl) (.inr rfl) (.inr rfl) (.inr ⟨rfl,rfl⟩)
    (Nat.le_refl _) rfl

instance [has : Has parts .count] {f : World → UInt64} :
    Keeps (Touches parts) (modify fun w => {w with fallbackStorageLen := f w}) :=
  keeps_modify fun _ => .silent (.inr rfl) (.inr rfl) (.inl has.mem) (.inr rfl) (.inr rfl) (.inr ⟨rfl,rfl⟩)
    (Nat.le_refl _) rfl

instance [has : Has parts .lists] {f : World → Int32 → List Bytes} :
    Keeps (Touches parts) (modify fun w => {w with storage := f w}) :=
  keeps_modify fun _ => .silent (.inr rfl) (.inr rfl) (.inr rfl) (.inl has.mem) (.inr rfl) (.inr ⟨rfl,rfl⟩)
    (Nat.le_refl _) rfl

instance [has : Has parts .session] {f : World → Option Nat} :
    Keeps (Touches parts) (modify fun w => {w with conn := f w}) :=
  keeps_modify fun _ => .silent (.inr rfl) (.inr rfl) (.inr rfl) (.inr rfl) (.inl has.mem) (.inr ⟨rfl,rfl⟩)
    (Nat.le_refl _) rfl

instance [has : Has parts .heartbeat] {f : World → List Timer} :
    Keeps (Touches parts) (modify fun w => {w with timers := f w}) :=
  keeps_modify fun _ => .silent (.inr rfl) (.inr rfl) (.inr rfl) (.inr rfl) (.inr rfl) (.inl has.mem)
    (Nat.le_refl _) rfl

instance [has : Has parts .heartbeat] {f : World → Nat} :
    Keeps (Touches parts) (modify fun w => {w with heardBeatTimerId := f w}) :=
  keeps_modify fun _ => .silent (.inr rfl) (.inr rfl) (.inr rfl) (.inr rfl) (.inr rfl) (.inl has.mem)
    (Nat.le_refl _) rfl

instance [beat : Has parts .heartbeat] [on : Has parts .enabled] {f : World → Nat} {g : World → Bool} :
    Keeps (Touches parts) (modify fun w => {w with heardBeatTimerId := f w,amqpConnectionEnabled := g w}) :=
  keeps_modify fun _ => .silent (.inr rfl) (.inl on.mem) (.inr rfl) (.inr rfl) (.inr rfl) (.inl beat.mem)
    (Nat.le_refl _) rfl

end Fields

-- Each function of the source by what it touches. A long function is one long search.
section Functions
set_option synthInstance.maxSize 100000
variable {parts : List Part} {ctx : Ctx}

instance [Has parts .keys] : Keeps (Touches parts) (openKey ctx mode) := by unfold openKey; infer_instance

instance [Has parts .keys] : Keeps (Touches parts) (closeKey key) := by
  cases key <;> (unfold closeKey; infer_instance)

instance [Has parts .keys] : Keeps (Touches parts) (valueLength key) := by
  cases key <;> (unfold valueLength; infer_instance)

instance [Has parts .lists] : Keeps (Touches parts) (deleteKey key) := by
  cases key <;> (unfold deleteKey; infer_instance)

instance [Has parts .lists] : Keeps (Touches parts) (listPush place string key) := by
  cases key <;> (unfold listPush; infer_instance)

instance [Has parts .lists] : Keeps (Touches parts) (listPopHead key) := by
  cases key with
  | none => unfold listPopHead; infer_instance
  | some key =>
    have (w : World) : Keeps (Touches parts) (match key.mode,w.storage key.db with
      | .readWrite,bytes :: rest => (do
        let id ← newHandle
        emit (.listPop key (some ⟨id,bytes⟩))
        modify fun w => {w with storage := Function.update w.storage key.db rest}
        pure (some ⟨id,bytes⟩) : Act (Option RedisString))
      | _,_ => do
        emit (.listPop key none)
        pure none) := by
      split <;> infer_instance
    unfold listPopHead
    infer_instance

instance [Has parts .strings] : Keeps (Touches parts) (createString bytes) := by unfold createString; infer_instance
instance [Has parts .strings] : Keeps (Touches parts) (stringPtrLen string) := by unfold stringPtrLen; infer_instance
instance [Has parts .strings] : Keeps (Touches parts) (freeString string) := by unfold freeString; infer_instance

instance [Has parts .heartbeat] : Keeps (Touches parts) (createTimer ctx) := by unfold createTimer; infer_instance
instance [Has parts .heartbeat] : Keeps (Touches parts) (stopTimer timer) := by unfold stopTimer; infer_instance

instance {pick : Answer → Option α} {call : α → AmqpCall} [∀ result, Has parts (call result).part] :
    Keeps (Touches parts) (askAmqp pick call) := by unfold askAmqp; infer_instance

instance [has : Has parts .session] : Keeps (Touches parts) amqpWaitFrame where
  keeps ran := by
    obtain ⟨left,said,heard,rfl⟩ := amqpWaitFrame_heard ran
    refine ⟨.inr rfl,.inr rfl,.inr rfl,.inr rfl,.inr rfl,.inr rfl,.inr rfl,Nat.le_refl _,_,rfl,?_⟩
    intro c member
    obtain ⟨call,inside,rfl⟩ := List.mem_map.mp member
    have heard := heard call inside
    cases call <;> first | exact has.mem | cases heard

instance [Has parts .session] : Keeps (Touches parts) amqpDisconnect := by unfold amqpDisconnect; infer_instance

instance [Has parts .session] : Keeps (Touches parts) amqpConnect := by
  unfold amqpConnect amqpTcpSocketNew amqpSocketOpen amqpLogin amqpGetRpcReply
  dsimp only
  infer_instance

instance [Has parts .session] [Has parts .publishes] : Keeps (Touches parts) (amqpPublish body) := by
  unfold amqpPublish amqpBasicPublish
  dsimp only
  infer_instance

instance [Has parts .keys] [Has parts .count] : Keeps (Touches parts) (syncFallbackStorageLen ctx) := by
  unfold syncFallbackStorageLen
  infer_instance

instance [Has parts .lists] : Keeps (Touches parts) (evictOldest key) := by unfold evictOldest; infer_instance

instance [Has parts .lists] [Has parts .strings] [Has parts .keys] :
    Keeps (Touches parts) (pushEventToStorage ctx message) := by
  unfold pushEventToStorage
  infer_instance

-- Without the branch a size below 0 would take, which has no meaning here.
instance [Has parts .keys] [Has parts .count] : Keeps (Touches parts) (setupFallbackStorage ctx) where
  keeps {w _ w'} ran := by
    have synced : Ends (syncFallbackStorageLen ctx) w () w' := by
      simpa [setupFallbackStorage,ends_ite] using ran
    exact Keeps.keeps synced

theorem opened_touches (w : World) (key : Key) : Touches [.keys] w (w.opened key) :=
  ⟨.inr rfl,.inr rfl,.inr rfl,.inr rfl,.inr rfl,.inr rfl,.inr rfl,Nat.le_succ _,_,rfl,by simp⟩

theorem popped_touches (w : World) (key : Key) (bytes : Bytes) (rest : List Bytes) :
    Touches [.lists,.strings] w (w.popped key bytes rest) :=
  ⟨.inr rfl,.inr rfl,.inr rfl,.inl (by simp),.inr rfl,.inr rfl,.inr rfl,Nat.le_succ _,_,rfl,by simp⟩

theorem restored_touches (w : World) (key : Key) (string : RedisString) :
    Touches [.lists,.strings] w (w.restored key string) :=
  ⟨.inr rfl,.inr rfl,.inr rfl,.inl (by simp),.inr rfl,.inr rfl,.inr rfl,Nat.le_refl _,_,rfl,by simp⟩

theorem counted_touches (w : World) (string : RedisString) : Touches [.count,.strings] w (w.counted string) :=
  ⟨.inr rfl,.inr rfl,.inl (by simp),.inr rfl,.inr rfl,.inr rfl,.inr rfl,Nat.le_refl _,_,rfl,by simp⟩

theorem deleted_touches (w : World) (key : Key) : Touches [.lists,.keys] w (w.deleted key) :=
  ⟨.inr rfl,.inr rfl,.inr rfl,.inl (by simp),.inr rfl,.inr rfl,.inr rfl,Nat.le_refl _,_,rfl,by simp⟩

section Draining
variable [Has parts .session] [Has parts .publishes] [Has parts .lists] [Has parts .strings] [Has parts .count]
variable [Has parts .keys]

instance : Keeps (Touches parts) (publishStoredLoop key rounds message) := by
  induction rounds generalizing message with
  | zero => cases message <;> (unfold publishStoredLoop; infer_instance)
  | succ rounds ih => cases message <;> (unfold publishStoredLoop; infer_instance)

theorem Rounds.touches (rounds : Rounds key w res w') : Touches [.session,.publishes,.lists,.strings,.count] w w' := by
  induction rounds with
  | empty list => exact .called _ (by simp) _
  | refused list tried bad =>
    exact (((popped_touches _ _ _ _).mono (by simp)).trans (Keeps.keeps tried)).trans ((restored_touches _ _ _).mono (by simp))
  | sent list tried later ih =>
    have out : Touches [.session,.publishes,.lists,.strings,.count] _ _ := Keeps.keeps tried
    exact ((((popped_touches _ _ _ _).mono (by simp)).trans out).trans ((counted_touches _ _).mono (by simp))).trans ih

instance : Keeps (Touches parts) (publishStoredEvents ctx) := by unfold publishStoredEvents; infer_instance

instance : Keeps (Touches parts) (reconnect ctx) := by unfold reconnect; infer_instance
instance : Keeps (Touches parts) (checkConnection ctx) := by unfold checkConnection; infer_instance

variable [Has parts .events]

instance : Keeps (Touches parts) (publishEvent ctx event keyname) := by
  unfold publishEvent
  dsimp only
  infer_instance

instance : Keeps (Touches parts) (forwardLoop ctx event keyname masks) := by
  induction masks with
  | nil => unfold forwardLoop; infer_instance
  | cons mask rest ih => unfold forwardLoop; infer_instance

end Draining

instance [Has parts .session] [Has parts .heartbeat] : Keeps (Touches parts) (firstEvent ctx) := by
  unfold firstEvent
  infer_instance

instance [Has parts .settings] [Has parts .keys] [Has parts .count] :
    Keeps (Touches parts) (setupConfig ctx argv argOffset) := by
  unfold setupConfig
  dsimp only
  infer_instance

instance [Has parts .broadcasts] : Keeps (Touches parts) (broadcastRedisCommand ctx argv) := by
  unfold broadcastRedisCommand
  infer_instance

instance [Has parts .replies] : Keeps (Touches parts) (wrongArityWhen wrong) := by
  unfold wrongArityWhen
  infer_instance

instance [Has parts .heartbeat] : Keeps (Touches parts) stopHeartbeat := by unfold stopHeartbeat; infer_instance

instance [Has parts .settings] [Has parts .keys] [Has parts .count] :
    Keeps (Touches parts) (setupFallbackStorageSizeCommand ctx argv) := by
  unfold setupFallbackStorageSizeCommand
  split <;> infer_instance

instance [Has parts .settings] : Keeps (Touches parts) keymaskCleanCommand := by
  unfold keymaskCleanCommand
  infer_instance

instance [Has parts .settings] : Keeps (Touches parts) (keymaskAddCommand argv) := by
  unfold keymaskAddCommand
  infer_instance

instance [Has parts .settings] [Has parts .keys] [Has parts .count] [Has parts .session] [Has parts .heartbeat]
    [Has parts .enabled] [Has parts .replies] : Keeps (Touches parts) (connectAmqpCommand ctx argv) := by
  unfold connectAmqpCommand
  infer_instance

instance [Has parts .session] [Has parts .heartbeat] [Has parts .enabled] [Has parts .replies] :
    Keeps (Touches parts) (disconnectAmqpCommand argv) := by
  unfold disconnectAmqpCommand
  infer_instance

instance [Has parts .strings] : Keeps (Touches parts) (createStrings argv) := by
  induction argv with
  | nil => unfold createStrings; infer_instance
  | cons bytes rest ih => unfold createStrings; infer_instance

instance [Has parts .strings] : Keeps (Touches parts) (freeStrings strings) := by
  induction strings with
  | nil => unfold freeStrings; infer_instance
  | cons string rest ih => unfold freeStrings; infer_instance

instance [Has parts .load] : Keeps (Touches parts) (createCommands commands) := by
  induction commands with
  | nil => unfold createCommands; infer_instance
  | cons command rest ih => unfold createCommands; infer_instance

section Loading
variable [Has parts .settings] [Has parts .keys] [Has parts .count] [Has parts .strings]

instance : Keeps (Touches parts) (init ctx argv) := by unfold init setupDefaultConfig; infer_instance

variable [Has parts .enabled] [Has parts .load]

instance : Keeps (Touches parts) (enableAndSubscribe ctx mode) := by unfold enableAndSubscribe; infer_instance

instance : Keeps (Touches parts) (onLoad ctx argv) := by
  unfold onLoad
  cases keySpaceSubscriptionMode argv <;> infer_instance

end Loading

end Functions

theorem loaded_touches (loaded : Loaded ctx argv storage w) : ∃ script,
    Touches [.settings,.keys,.count,.strings,.enabled,.load] {boot storage with script := script} w := by
  obtain ⟨script,ran⟩ := loaded
  exact ⟨script,Keeps.keeps ran⟩

end KeyspaceAmqp
