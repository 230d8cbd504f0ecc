import KeyspaceAmqp.Continuation
import KeyspaceAmqp.Steps

namespace KeyspaceAmqp
open Programs Paths Outbox

theorem setupConfigLoop_size (i : Nat) (inside : i ≤ 8) (args : List CString) (s : Settings)
    (ok : (setupConfigLoop i args s).1 = REDISMODULE_OK) :
    (setupConfigLoop i args s).2.fallbackStorageMaxSize =
      (args[8-i]?.map fun size => UInt64.ofInt (strtol size)).getD s.fallbackStorageMaxSize := by
  induction args generalizing i s with
  | nil => rfl
  | cons arg rest ih =>
    match i with
    | 0 | 1 | 2 | 3 | 4 | 5 | 6 => exact ih _ (by omega) _ ok
    | 7 =>
      simp only [setupConfigLoop] at ok ⊢
      split
      · rename_i bad
        rw [if_pos bad] at ok
        have refused : REDISMODULE_ERR = REDISMODULE_OK := ok
        exact absurd refused (by decide)
      · rename_i fits
        rw [if_neg fits] at ok
        exact ih _ (by omega) _ ok
    | 8 => exact (setupConfigLoop_masks rest _ 0).2

def configuredSize (s : Settings) (args : List CString) : Option Int :=
  if (configure s args).1 = REDISMODULE_OK then args[8]?.map strtol else none

def sizeAfter (old : UInt64) (given : Option Int) : UInt64 := (given.map UInt64.ofInt).getD old

theorem configure_size (s : Settings) (args : List CString) :
    (configure s args).2.fallbackStorageMaxSize = sizeAfter s.fallbackStorageMaxSize (configuredSize s args) := by
  unfold configuredSize sizeAfter
  split
  · rename_i ok
    refine (setupConfigLoop_size 0 (by omega) args _ ok).trans ?_
    cases args[8]? with
    | some size => rfl
    | none => simp only [Option.map_none,Option.getD_none]; split <;> rfl
  · rename_i bad
    exact configure_refused s args bad

def Command.sizeGiven (s : Settings) (argv : List Bytes) : Command → Option Int
  | .connect | .configSet => configuredSize s ((argv.drop 1).map cstr)
  | .fallbackStorageSizeSet => match argv with
    | [_,size] => some (strtol (cstr size))
    | _ => none
  | _ => none

theorem command_size (command : Command) (outcome : Option Int32) (argv : List Bytes) (c : Config) :
    (command.configure outcome argv c).settings.fallbackStorageMaxSize =
      sizeAfter c.settings.fallbackStorageMaxSize (command.sizeGiven c.settings argv) := by
  cases command with
  | connect => exact configure_size _ _
  | configSet => exact configure_size _ _
  | fallbackStorageSizeSet => match argv with
    | [_,_] => rfl
    | [] | [_] | _ :: _ :: _ :: _ => rfl
  | _ => rfl

def Callback.sizeGiven (s : Settings) : Callback → Option Int
  | .command _ name args => (lookupCommand name).bind fun command => command.sizeGiven s (name :: args)
  | .clusterMessage _ type payload beyond =>
    if type ≠ CLUSTER_MESSAGE_TYPE_CMD then none
    else match serializedStringToRedisArgs (cstr (payload ++ beyond)) with
      | [] => none
      | first :: rest => (received (cstr first).bytes).bind fun command => command.sizeGiven s (first :: rest)
  | _ => none

theorem sizeGiven_carries (callback : Callback) (s : Settings) :
    callback.sizeGiven s = callback.carries.bind fun told => told.1.sizeGiven s told.2 := by
  cases callback with
  | keyspaceEvent ctx type event key => rfl
  | timer fired flags => rfl
  | command ctx name args =>
    simp only [Callback.sizeGiven,Callback.carries,Option.bind_map,Function.comp_def]
  | clusterMessage ctx type payload beyond =>
    simp only [Callback.sizeGiven,Callback.carries]
    by_cases other : type = CLUSTER_MESSAGE_TYPE_CMD
    · rw [if_neg (not_not.mpr other),if_pos other]
      cases serializedStringToRedisArgs (cstr (payload ++ beyond)) with
      | nil => rfl
      | cons first rest => simp only [Option.bind_map,Function.comp_def]
    · rw [if_pos other,if_neg other]
      rfl

theorem size_step (taken : step w turn = some w') : w'.settings.fallbackStorageMaxSize =
    sizeAfter w.settings.fallbackStorageMaxSize (turn.callback.sizeGiven w.settings) := by
  rw [sizeGiven_carries]
  obtain ⟨callback,script⟩ := turn
  have happens := step_happens taken
  cases happens with
  | event ran =>
    obtain ⟨ms,⟨store,_⟩,⟨_,rfl⟩ | ⟨_,⟨count,failed,rfl,_⟩ | ⟨rfl,_⟩⟩⟩ := onKeyspaceEvent_effect ran <;>
      exact congrArg Store.limit store
  | timer ran =>
    obtain ⟨ms,⟨store,_⟩,⟨rfl,_⟩ | ⟨count,failed,rfl,_⟩⟩ := fireTimer_effect ran <;> exact congrArg Store.limit store
  | carried command argv known before ran after =>
    have config := body_config command ran
    rw [before.same.config] at config
    rw [known,after.same.settings]
    exact (congrArg (fun c => c.settings.fallbackStorageMaxSize) config).trans (command_size command _ _ _)
  | ignored unknown aside =>
    rw [unknown,aside.same.settings]
    rfl

theorem Commands.storage (commands : Commands db w w') : w'.storage = w.storage := by
  obtain ⟨ms,effect,rfl | configures⟩ := commands
  · exact congrArg Store.storage effect.store
  · exact (configures_store effect.store configures).1

theorem given_storage (taken : step w turn = some w') (given : turn.callback.sizeGiven w.settings = some n) :
    w'.storage = w.storage := by
  obtain ⟨callback,script⟩ := turn
  have happens := step_happens taken
  cases happens with
  | event ran => cases given
  | timer ran => cases given
  | carried command argv known before ran after =>
    have begun := before.touches.lists.resolve_left (by decide)
    have ended := after.touches.lists.resolve_left (by decide)
    exact ended.trans ((body_commands command ran).storage.trans begun)
  | ignored unknown aside => exact aside.touches.lists.resolve_left (by decide)

theorem loaded_settings (loaded : Loaded ctx argv storage w) : ∃ s,
    (configure s ((argv.drop 1).map cstr)).1 = REDISMODULE_OK ∧ w.settings = (configure s ((argv.drop 1).map cstr)).2 := by
  obtain ⟨script,m,n,mode,_,started,subscribed⟩ := loaded_parts loaded
  simp only [init,setupDefaultConfig,ends_bind,ends_modify,ends_pure] at started
  obtain ⟨_,_,rfl,_,_,⟨_,_,rfl,_,o,named,_,rfl⟩,configured⟩ := started
  obtain ⟨same,result⟩ := setupConfig_same configured
  refine ⟨o.settings,result.mp rfl,?_⟩
  have kept : n.settings = _ := congrArg Config.settings same.config
  simp only [enableAndSubscribe,ends_bind,ends_pure,ends_modify,ends_emit,ends_ite] at subscribed
  obtain ⟨_,_,rfl,_,_,rfl,⟨_,rfl⟩ | ⟨_,_,rfl⟩⟩ := subscribed <;> exact kept

theorem strtol_range (text : CString) : LONG_MIN ≤ strtol text ∧ strtol text ≤ LONG_MAX := by
  simp only [strtol,LONG_MIN,LONG_MAX]
  omega

theorem loaded_size (loaded : Loaded ctx argv storage w) (given : argv[9]? = some size) :
    w.settings.fallbackStorageMaxSize = UInt64.ofInt (strtol (cstr size)) := by
  obtain ⟨s,ok,settings⟩ := loaded_settings loaded
  have ninth : ((argv.drop 1).map cstr)[8]? = some (cstr size) := by simp [given]
  rw [settings,configure_size,configuredSize,if_pos ok,ninth]
  rfl

-- The world just after a size has been taken, at the load or in a step, over the lists
-- as they were before.
inductive SizeTaken (n : Int) : (Int32 → List Bytes) → World → Prop where
  | load : Loaded ctx argv storage w → argv[9]? = some size → strtol (cstr size) = n → SizeTaken n storage w
  | step : step w turn = some w' → turn.callback.sizeGiven w.settings = some n → SizeTaken n w.storage w'

theorem given_range (callback : Callback) (given : callback.sizeGiven s = some n) : LONG_MIN ≤ n := by
  have configured {args : List CString} (given : configuredSize s args = some n) : LONG_MIN ≤ n := by
    unfold configuredSize at given
    split at given
    · obtain ⟨size,_,rfl⟩ := Option.map_eq_some_iff.mp given
      exact (strtol_range size).1
    · cases given
  have command {command : Command} {argv : List Bytes} (given : command.sizeGiven s argv = some n) : LONG_MIN ≤ n := by
    cases command with
    | connect => exact configured given
    | configSet => exact configured given
    | fallbackStorageSizeSet =>
      simp only [Command.sizeGiven] at given
      split at given
      · cases given; exact (strtol_range _).1
      · cases given
    | _ => cases given
  rw [sizeGiven_carries] at given
  obtain ⟨_,_,given⟩ := Option.bind_eq_some_iff.mp given
  exact command given

theorem taken_size (taken : SizeTaken n storage w) :
    w.settings.fallbackStorageMaxSize = UInt64.ofInt n ∧ LONG_MIN ≤ n ∧ w.storage = storage := by
  cases taken with
  | load loaded given same =>
    cases same
    exact ⟨loaded_size loaded given,(strtol_range _).1,(loaded_store loaded).1⟩
  | step taken given => exact ⟨by rw [size_step taken,given]; rfl,given_range _ given,given_storage taken given⟩

def Sizeless (steps : List Step) : Prop := ∀ s ∈ steps, s.label.callback.sizeGiven s.before.settings = none

instance (steps : List Step) : Decidable (Sizeless steps) :=
  inferInstanceAs (Decidable (∀ s ∈ steps, s.label.callback.sizeGiven s.before.settings = none))

theorem sizeless_run (run : Run w steps last) (sizeless : Sizeless steps) :
    last.settings.fallbackStorageMaxSize = w.settings.fallbackStorageMaxSize := by
  refine (run.throughout (fun v : World => v.settings.fallbackStorageMaxSize = w.settings.fallbackStorageMaxSize)
    (fun s : Step => s.label.callback.sizeGiven s.before.settings = none) rfl ?_ sizeless).1
  intro s taken none old
  rw [size_step taken,none]
  exact old

theorem ofInt_negative (n : Int) (small : LONG_MIN ≤ n) (negative : n < 0) :
    ((UInt64.ofInt n).toNat : Int) = 2^64+n := by
  simp only [LONG_MIN] at small
  simp only [UInt64.ofInt,UInt64.toNat_ofNat']
  omega

-- A negative size becomes a huge one as it is stored, and stays so until another is
-- given: the lists are left, and the module goes on storing events and sending them.
theorem negative_size_turns_nothing_off (taken : SizeTaken n storage w) (negative : n < 0) :
    w.storage = storage ∧
    (∀ steps last, Run w steps last → Sizeless steps →
      (last.settings.fallbackStorageMaxSize.toNat : Int) = 2^64+n) ∧
    ∃ steps last, Run w steps last ∧ Sizeless steps ∧ (∃ s ∈ steps, Stores s) ∧
      ∃ s ∈ steps, 0 < drained (mail s.after.trace) := by
  obtain ⟨limit,small,listed⟩ := taken_size taken
  refine ⟨listed,?_,?_⟩
  · intro steps last run sizeless
    rw [sizeless_run run sizeless,limit]
    exact ofInt_negative n small negative
  · obtain ⟨steps,last,run,stores,sends,labels⟩ := stores_and_sends w 0
    refine ⟨steps,last,run,?_,stores,sends⟩
    intro s member
    have label : s.label.callback ∈ _ := labels ▸ List.mem_map_of_mem (f := fun s : Step => s.label.callback) member
    simp only [readying,List.cons_append,List.nil_append,List.mem_cons,List.not_mem_nil,or_false] at label
    rcases label with same | same | same | same | same <;> rw [same] <;> rfl

theorem negative_size_turns_nothing_off_load : ∃ w : World, ∃ steps last, Run w steps last ∧
    Sizeless steps ∧ (∃ s ∈ steps, Stores s) ∧ ∃ s ∈ steps, 0 < drained (mail s.after.trace) := by
  obtain ⟨w,_,_,loaded,_⟩ := played_run (master 0) (allKeys "-1") (fun _ => []) [] (fun _ _ _ => true) (by decide +kernel)
  have given : (allKeys "-1")[9]? = some (ascii "-1") := rfl
  have taken : SizeTaken (-1) (fun _ => []) w := .load loaded given (by decide)
  exact ⟨w,(negative_size_turns_nothing_off taken (by decide)).2.2⟩

-- Loaded with size -1 over a list with one event, the module keeps the list, adds an
-- event the broker refused, and sends both on when it takes the next.
theorem negative_size_stores : ∃ start steps last,
    Loaded (master 0) (allKeys "-1") (fun db => if db = 0 then [ascii "old"] else []) start ∧
    Run start steps last ∧ Sizeless steps ∧ start.storage 0 = [ascii "old"] ∧ (∃ s ∈ steps, Stores s) ∧
    ∃ s ∈ steps, drained (mail s.after.trace) = 2 := by
  obtain ⟨start,steps,last,loaded,run,seen⟩ := played_run (master 0) (allKeys "-1")
    (fun db => if db = 0 then [ascii "old"] else [])
    [expired 0 "a" (connects ++ refuses),expired 0 "b" (accepts ++ accepts ++ accepts)]
    (fun start steps _ => decide (Sizeless steps ∧ start.storage 0 = [ascii "old"] ∧ (∃ s ∈ steps, Stores s) ∧
      ∃ s ∈ steps, drained (mail s.after.trace) = 2)) (by decide +kernel)
  exact ⟨start,steps,last,loaded,run,of_decide_eq_true seen⟩

end KeyspaceAmqp
