import KeyspaceAmqp.Configuration
import KeyspaceAmqp.Codec
import Mathlib.Data.List.Forall2

namespace KeyspaceAmqp
open Programs Paths

def Relayed (sent got : Step) : Prop := ∃ ctx name args there payload beyond,
  sent.label.callback = .command ctx name args ∧
  got.label.callback = .clusterMessage there CLUSTER_MESSAGE_TYPE_CMD payload beyond ∧
  serializedStringToRedisArgs (cstr (payload ++ beyond)) = name :: args ∧
  (lookupCommand name = some .connect →
    connectOutcome sent.before.conn sent.label.script = connectOutcome got.before.conn got.label.script)

def Recognised (sent : Step) : Prop :=
  ∃ ctx command args, sent.label.callback = .command ctx (Command.name command) args ∧ command ≠ .keymaskSet

theorem received_exact : received name = some command ↔ command.name = name ∧ command ≠ .keymaskSet := by
  constructor
  · intro found
    have member := List.mem_of_find?_eq_some found
    refine ⟨by simpa using List.find?_some found,?_⟩
    rintro rfl
    simp at member
  · rintro ⟨rfl,other⟩
    cases command <;> first | rfl | exact absurd rfl other

theorem got_config (taken : step v ⟨.clusterMessage ctx CLUSTER_MESSAGE_TYPE_CMD payload beyond,script⟩ = some v')
    (decoded : serializedStringToRedisArgs (cstr (payload ++ beyond)) = name :: args) :
    v'.config = match received name with
      | some found => found.configure (connectOutcome v.conn script) (name :: args) v.config
      | none => v.config := by
  have ran := step_ends.mp taken
  have plain : Plain name := decoded_plain _ (decoded ▸ List.mem_cons_self)
  have followed := clusterMessageReceiver_config decoded ran
  rwa [cstr_bytes name plain.1] at followed

theorem configure_outcome (command : Command) (other : command ≠ .connect) :
    command.configure outcome argv c = command.configure outcome' argv c := by
  cases command <;> first | rfl | exact absurd rfl other

def Agree (sent got : Step) : Prop := sent.after.config = got.after.config

theorem agree_recognised (relayed : Relayed sent got) (taken : step sent.before sent.label = some sent.after)
    (taken' : step got.before got.label = some got.after) (same : sent.before.config = got.before.config)
    (recognised : Recognised sent) : Agree sent got := by
  obtain ⟨before,⟨callback,script⟩,after⟩ := sent
  obtain ⟨there,⟨message,script'⟩,followed⟩ := got
  obtain ⟨ctx,name,args,there,payload,beyond,rfl,rfl,decoded,outcome⟩ := relayed
  obtain ⟨_,typed,_,given,other⟩ := recognised
  cases given
  obtain ⟨command,found,config⟩ := command_config taken
  cases (lookup_name typed).symm.trans found
  have config' := got_config taken' decoded
  rw [received_exact.mpr ⟨rfl,other⟩] at config'
  change after.config = followed.config
  rw [config,config',same]
  by_cases connecting : typed = .connect
  · rw [outcome (connecting ▸ found)]
  · exact configure_outcome typed connecting

theorem unrecognised_config (relayed : Relayed sent got) (taken' : step got.before got.label = some got.after)
    (unknown : ¬ Recognised sent) : got.after.config = got.before.config := by
  obtain ⟨there,⟨message,script'⟩,followed⟩ := got
  obtain ⟨ctx,name,args,there,payload,beyond,typed,rfl,decoded,_⟩ := relayed
  have config' := got_config taken' decoded
  cases found : received name with
  | none => rwa [found] at config'
  | some command =>
    obtain ⟨rfl,other⟩ := received_exact.mp found
    exact absurd ⟨ctx,command,args,typed,other⟩ unknown

theorem agree_iff (relayed : Relayed sent got) (taken : step sent.before sent.label = some sent.after)
    (taken' : step got.before got.label = some got.after) (same : sent.before.config = got.before.config) :
    Agree sent got ↔ Recognised sent ∨ sent.after.config = sent.before.config := by
  by_cases recognised : Recognised sent
  · exact iff_of_true (agree_recognised relayed taken taken' same recognised) (.inl recognised)
  · rw [Agree,unrecognised_config relayed taken' recognised,← same]
    exact (or_iff_right recognised).symm

theorem agree_run (relayed : List.Forall₂ Relayed steps copies) (sent : Run w steps w') (got : Run v copies v')
    (same : w.config = v.config) (recognised : ∀ s ∈ steps, Recognised s) : List.Forall₂ Agree steps copies := by
  induction relayed generalizing w v with
  | nil => exact .nil
  | cons pair _ ih =>
    obtain ⟨rfl,taken,sent⟩ := sent.uncons
    obtain ⟨rfl,taken',got⟩ := got.uncons
    have agree := agree_recognised pair taken taken' same (recognised _ List.mem_cons_self)
    exact .cons agree (ih sent got agree fun s member => recognised s (List.mem_cons_of_mem _ member))

theorem agree_each (relayed : List.Forall₂ Relayed steps copies) (sent : Run w steps w') (got : Run v copies v') :
    List.Forall₂ (fun s c => s.before.config = c.before.config →
      (Agree s c ↔ Recognised s ∨ s.after.config = s.before.config)) steps copies := by
  induction relayed generalizing w v with
  | nil => exact .nil
  | cons pair _ ih =>
    obtain ⟨rfl,taken,sent⟩ := sent.uncons
    obtain ⟨rfl,taken',got⟩ := got.uncons
    exact .cons (agree_iff pair taken taken') (ih sent got)

-- A node that receives another's commands in order follows it through every command
-- typed as it is registered, other than keymask_set, and through no other that changes
-- anything.
theorem receiver_follows (relayed : List.Forall₂ Relayed steps copies) (sent : Run w steps w')
    (got : Run v copies v') (same : w.config = v.config) :
    ((∀ s ∈ steps, Recognised s) → List.Forall₂ Agree steps copies) ∧
      List.Forall₂ (fun s c => s.before.config = c.before.config →
        (Agree s c ↔ Recognised s ∨ s.after.config = s.before.config)) steps copies :=
  ⟨agree_run relayed sent got same,agree_each relayed sent got⟩

def typed (name : Bytes) (args : List Bytes) : Turn :=
  ⟨.command ⟨0,REDISMODULE_CTX_FLAGS_MASTER ||| REDISMODULE_CTX_FLAGS_CLUSTER⟩ name args,[]⟩
def copied (name : Bytes) (args : List Bytes) : Turn :=
  ⟨.clusterMessage ⟨0,REDISMODULE_CTX_FLAGS_CLUSTER⟩ CLUSTER_MESSAGE_TYPE_CMD
    (redisArgsToSerializedString (name :: args)).bytes [],[]⟩

theorem relayed_played (name : Bytes) (args : List Bytes) (holds : World → World → World → Bool)
    (decoded : serializedStringToRedisArgs (redisArgsToSerializedString (name :: args)) = name :: args)
    (other : lookupCommand name ≠ some .connect)
    (ran : (played (master 0) (allKeys "0") (fun _ => []) []).any fun (res,w,_,_) => res == REDISMODULE_OK &&
      (step w (typed name args)).any fun w' => (step w (copied name args)).any fun v' => holds w w' v') :
    ∃ w s c, Loaded (master 0) (allKeys "0") (fun _ => []) w ∧ Relayed s c ∧ s.label = typed name args ∧
      Run w [s] s.after ∧ Run w [c] c.after ∧ holds w s.after c.after = true := by
  obtain ⟨w,_,_,loaded,_,seen⟩ := played_run (master 0) (allKeys "0") (fun _ => []) [] (fun w _ _ =>
    (step w (typed name args)).any fun w' => (step w (copied name args)).any fun v' => holds w w' v') ran
  obtain ⟨w',taken,seen⟩ := (Option.any_eq_true _ _).mp seen
  obtain ⟨v',taken',seen⟩ := (Option.any_eq_true _ _).mp seen
  refine ⟨w,⟨w,_,w'⟩,⟨w,_,v'⟩,loaded,⟨_,_,_,_,_,_,rfl,rfl,?_,fun connecting => absurd connecting other⟩,rfl,
    .single taken,.single taken',seen⟩
  rw [List.append_nil,cstr_of_string]
  exact decoded

theorem receiver_follows_keymask_add : ∃ w steps copies w' v', List.Forall₂ Relayed steps copies ∧
    Run w steps w' ∧ Run w copies v' ∧ w'.config ≠ w.config ∧ List.Forall₂ Agree steps copies := by
  obtain ⟨w,s,c,_,relayed,label,sent,got,changed⟩ := relayed_played Command.keymaskAdd.name [ascii "^user:"]
    (fun w w' _ => w'.config ≠ w.config) (by decide) (by decide) (by decide +kernel)
  have pairs : List.Forall₂ Relayed [s] [c] := .cons relayed .nil
  have recognised : ∀ t ∈ [s], Recognised t := by
    intro t member
    cases List.mem_singleton.mp member
    exact ⟨_,.keymaskAdd,_,congrArg Turn.callback label,by decide⟩
  exact ⟨w,_,_,_,_,pairs,sent,got,of_decide_eq_true changed,(receiver_follows pairs sent got rfl).1 recognised⟩

def Parts (name : Bytes) : Prop :=
  ∃ w s c, Loaded (master 0) (allKeys "0") (fun _ => []) w ∧ Relayed s c ∧ s.label = typed name [ascii "^user:"] ∧
    Run w [s] s.after ∧ Run w [c] c.after ∧ ¬ Agree s c

theorem parts_played (name : Bytes)
    (decoded : serializedStringToRedisArgs (redisArgsToSerializedString [name,ascii "^user:"]) = [name,ascii "^user:"])
    (other : lookupCommand name ≠ some .connect)
    (ran : (played (master 0) (allKeys "0") (fun _ => []) []).any fun (res,w,_,_) => res == REDISMODULE_OK &&
      (step w (typed name [ascii "^user:"])).any fun w' =>
        (step w (copied name [ascii "^user:"])).any fun v' => decide (w'.config ≠ v'.config)) : Parts name := by
  obtain ⟨w,s,c,loaded,relayed,label,sent,got,differ⟩ :=
    relayed_played name [ascii "^user:"] (fun _ w' v' => w'.config ≠ v'.config) decoded other ran
  have differ : s.after.config ≠ c.after.config := of_decide_eq_true differ
  exact ⟨w,s,c,loaded,relayed,label,sent,got,differ⟩

-- keymask_set does nothing where it is received, and neither does a name typed otherwise
-- than it is registered.
theorem receiver_misses : Parts Command.keymaskSet.name ∧ Parts (ascii "KEY_EVT_AMQP.KEYMASK_ADD") :=
  ⟨parts_played _ (by decide) (by decide) (by decide +kernel),
    parts_played _ (by decide) (by decide) (by decide +kernel)⟩

end KeyspaceAmqp
