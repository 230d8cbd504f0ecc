import KeyspaceAmqp.Codec
import KeyspaceAmqp.Ending

namespace KeyspaceAmqp
open Programs

-- The indices strlen looks at from the i-th byte of a memory on: up to the terminator,
-- which the memory's last byte is followed by at the latest.
def strlenReads (i : Nat) : Bytes → List Nat
  | [] => [i]
  | b :: rest => i :: if b = 0 then [] else strlenReads (i+1) rest

-- The indices serializedStringToRedisArgs looks at: strlen's, which it calls for the sizes
-- of its buffers and at each turn of its loop, and those of the turns.
def decoderReads (memory : Bytes) : List Nat :=
  strlenReads 0 memory ++ List.range (cstr memory).bytes.length

theorem mem_strlenReads : j ∈ strlenReads i memory ↔ i ≤ j ∧ j ≤ i+(cstr memory).bytes.length := by
  induction memory generalizing i with
  | nil => simp [strlenReads,cstr]; omega
  | cons b rest ih =>
    unfold strlenReads
    by_cases zero : b = 0
    · simp [zero,cstr]; omega
    · have length : (cstr (b :: rest)).bytes.length = (cstr rest).bytes.length+1 := by simp [cstr,zero]
      simp only [if_neg zero,List.mem_cons,ih,length]
      omega

theorem mem_decoderReads : j ∈ decoderReads memory ↔ j ≤ (cstr memory).bytes.length := by
  rw [decoderReads,List.mem_append,mem_strlenReads,List.mem_range]
  omega

theorem cstr_terminated (terminated : 0 ∈ payload) (beyond : Bytes) : cstr (payload ++ beyond) = cstr payload := by
  refine CString.ext ?_
  induction payload with
  | nil => cases terminated
  | cons b rest ih =>
    by_cases zero : b = 0
    · simp [cstr,zero]
    · have inside := (List.mem_cons.mp terminated).resolve_left (Ne.symm zero)
      simpa [cstr,zero] using ih inside

theorem cstr_shorter (terminated : 0 ∈ payload) : (cstr payload).bytes.length < payload.length := by
  refine Nat.lt_of_le_of_ne (List.takeWhile_sublist _).length_le fun full => ?_
  have same : (cstr payload).bytes = payload := (List.takeWhile_sublist _).eq_of_length full
  exact (cstr payload).noNul (by rwa [same])

theorem argsLoop_snoc (other : c ≠ 10) (data : Bytes) (out : List Bytes) (buff : Bytes) :
    argsLoop (data ++ [c]) out buff = ((argsLoop data out buff).1,(argsLoop data out buff).2 ++ [c]) := by
  induction data generalizing out buff with
  | nil => simp [argsLoop,other]
  | cons b data ih =>
    rw [List.cons_append,argsLoop,argsLoop]
    split
    · exact ih _ _
    · exact ih _ _

theorem decoded_on (unterminated : 0 ∉ payload) (letter : c ≠ 0 ∧ c ≠ 10) :
    serializedStringToRedisArgs (cstr (payload ++ [c])) =
      (argsLoop payload [] []).1 ++ [(argsLoop payload [] []).2 ++ [c]] := by
  have bytes : (cstr (payload ++ [c])).bytes = payload ++ [c] := cstr_bytes _ (by simp [unterminated,Ne.symm letter.1])
  simp [serializedStringToRedisArgs,bytes,argsLoop_snoc letter.2]

def created (handles : Nat) : List Bytes → List Call
  | [] => []
  | bytes :: rest => .createString ⟨handles+1,bytes⟩ :: created (handles+1) rest

theorem created_length (handles : Nat) (argv : List Bytes) : (created handles argv).length = argv.length := by
  induction argv generalizing handles with
  | nil => rfl
  | cons bytes rest ih => simp [created,ih]

theorem created_injective (same : created handles argv = created handles other) : argv = other := by
  induction argv generalizing handles other with
  | nil => cases other <;> cases same; rfl
  | cons bytes rest ih =>
    cases other with
    | nil => cases same
    | cons first others =>
      simp only [created,List.cons.injEq,Call.createString.injEq,RedisString.mk.injEq,true_and] at same
      rw [same.1,ih same.2]

theorem createStrings_created (ran : Ends (createStrings argv) w strings m) :
    m.trace = w.trace ++ created w.handles argv := by
  induction argv generalizing w strings with
  | nil =>
    obtain ⟨_,rfl⟩ := ends_pure.mp ran
    simp [created]
  | cons bytes rest ih =>
    simp only [createStrings,createString,ends_bind,ends_newHandle,ends_emit,ends_pure] at ran
    obtain ⟨_,_,⟨_,_,⟨rfl,rfl⟩,_,_,rfl,rfl,rfl⟩,_,_,made,_,rfl⟩ := ran
    rw [ih made,created]
    simp

theorem receiver_creates (ran : Ends (clusterMessageReceiver ctx CLUSTER_MESSAGE_TYPE_CMD payload beyond) w u w') :
    ∃ more, w'.trace = w.trace ++ created w.handles (serializedStringToRedisArgs (cstr (payload ++ beyond))) ++ more := by
  simp only [clusterMessageReceiver,ends_ite,ends_bind] at ran
  rcases ran with ⟨other,_⟩ | ⟨_,argv,m,made,ran⟩
  · exact absurd rfl other
  have trace := createStrings_created made
  cases argv with
  | nil =>
    obtain ⟨_,rfl⟩ := ends_pure.mp ran
    exact ⟨[],by simp [trace]⟩
  | cons first rest =>
    obtain ⟨_,n,read,_,o,dispatched,freed⟩ : ∃ command n, Ends (stringPtrLen first) m command n ∧ ∃ u o,
        Ends (dispatch ctx command _) n u o ∧ Ends (freeStrings (first :: rest)) o () w' := by
      simpa only [ends_bind] using ran
    have carried : Touches [.settings,.count,.keys,.session,.heartbeat,.enabled,.replies] n o := by
      rcases dispatch_body dispatched with ⟨found,_,_,ran⟩ | ⟨_,rfl⟩
      · exact body_within found ran
      · exact .refl _
    obtain ⟨before,added,_⟩ := (Keeps.keeps read : Touches [.strings] m n).calls
    obtain ⟨during,added',_⟩ := carried.calls
    obtain ⟨after,added'',_⟩ := (Keeps.keeps freed : Touches [.strings] o w').calls
    exact ⟨before ++ during ++ after,by simp only [added'',added',added,trace,List.append_assoc]⟩

def calm : Broker where
  waits _ := ⟨⟨0,0,0⟩,.cons (AMQP_STATUS_TIMEOUT,none) .nil⟩
  sockets _ := false
  statuses _ := 0
  replies _ := AMQP_RESPONSE_NORMAL

theorem calm_patient : calm.Patient := fun _ => ⟨AMQP_STATUS_OK,1,_,rfl⟩

def DecodesAlike (payload : Bytes) : Prop := ∀ beyond other,
  serializedStringToRedisArgs (cstr (payload ++ beyond)) = serializedStringToRedisArgs (cstr (payload ++ other))
def ActsAlike (payload : Bytes) : Prop := ∀ ctx w beyond other,
  clusterMessageReceiver ctx CLUSTER_MESSAGE_TYPE_CMD payload beyond w =
    clusterMessageReceiver ctx CLUSTER_MESSAGE_TYPE_CMD payload other w
def ReadsInside (payload : Bytes) : Prop := ∀ beyond, ∀ i ∈ decoderReads (payload ++ beyond), i < payload.length

theorem decodes_apart (unterminated : 0 ∉ payload) :
    serializedStringToRedisArgs (cstr (payload ++ [65])) ≠ serializedStringToRedisArgs (cstr (payload ++ [66])) := by
  rw [decoded_on unterminated (by decide),decoded_on unterminated (by decide)]
  simp

theorem acts_apart (unterminated : 0 ∉ payload) : ¬ ActsAlike payload := by
  intro alike
  have served : Served brokers (clusterMessageReceiver (master 0) CLUSTER_MESSAGE_TYPE_CMD payload [65])
    (boot fun _ => []) calm := Feeds.served _ _
  obtain ⟨_,_,_,_,_,ran⟩ := served
  have ran := ran []
  have same : Ends (clusterMessageReceiver (master 0) CLUSTER_MESSAGE_TYPE_CMD payload [66]) _ _ _ :=
    (alike _ _ _ _).symm.trans ran
  obtain ⟨_,one⟩ := receiver_creates ran
  obtain ⟨_,two⟩ := receiver_creates same
  rw [one,List.append_assoc,List.append_assoc] at two
  have created := List.append_inj_left (List.append_cancel_left two) (by
    simp [created_length,decoded_on unterminated])
  exact decodes_apart unterminated (created_injective created)

theorem reads_past (unterminated : 0 ∉ payload) : payload.length ∈ decoderReads (payload ++ []) := by
  rw [mem_decoderReads,List.append_nil,cstr_bytes payload unterminated]

-- The last part: a node's own messages are strlen bytes of the serialized arguments.
theorem receiver_reads_iff (payload : Bytes) : (DecodesAlike payload ↔ 0 ∈ payload) ∧ (ActsAlike payload ↔ 0 ∈ payload) ∧
    (ReadsInside payload ↔ 0 ∈ payload) ∧
    ∀ argv, payload = (redisArgsToSerializedString argv).bytes → ¬ ReadsInside payload := by
  refine ⟨⟨fun alike => ?_,fun terminated beyond other => ?_⟩,⟨fun alike => ?_,fun terminated ctx w beyond other => ?_⟩,
    ⟨fun inside => ?_,fun terminated beyond i read => ?_⟩,fun argv sent inside => ?_⟩
  · by_contra unterminated
    exact decodes_apart unterminated (alike _ _)
  · rw [cstr_terminated terminated,cstr_terminated terminated]
  · by_contra unterminated
    exact acts_apart unterminated alike
  · simp only [clusterMessageReceiver,cstr_terminated terminated]
  · by_contra unterminated
    exact absurd (inside [] _ (reads_past unterminated)) (Nat.lt_irrefl _)
  · rw [mem_decoderReads,cstr_terminated terminated] at read
    exact read.trans_lt (cstr_shorter terminated)
  · have unterminated : 0 ∉ payload := sent ▸ (redisArgsToSerializedString argv).noNul
    exact absurd (inside [] _ (reads_past unterminated)) (Nat.lt_irrefl _)

theorem mask_read_on :
    (step (boot fun _ => []) ⟨.clusterMessage (master 0) CLUSTER_MESSAGE_TYPE_CMD
      (redisArgsToSerializedString [Command.keymaskAdd.name,ascii "a"]).bytes [],[]⟩).map (·.settings.keyMaskArr) =
        some [cstr Command.keymaskAdd.name,cstr (ascii "a")] ∧
    (step (boot fun _ => []) ⟨.clusterMessage (master 0) CLUSTER_MESSAGE_TYPE_CMD
      (redisArgsToSerializedString [Command.keymaskAdd.name,ascii "a"]).bytes (ascii "bc"),[]⟩).map (·.settings.keyMaskArr) =
        some [cstr Command.keymaskAdd.name,cstr (ascii "abc")] := by decide +kernel

end KeyspaceAmqp
