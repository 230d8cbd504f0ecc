import KeyspaceAmqp.Steps

namespace KeyspaceAmqp
open Programs

inductive Value where
  | text (value : CString)
  | port (value : UInt16)
  | heartbeat (value : UInt32)
  | deliveryMode (value : UInt8)
  | size (value : UInt64)
  deriving DecidableEq

def Settings.nth (s : Settings) : Nat → Option Value
  | 0 => some (.text s.hostname)
  | 1 => some (.port s.port)
  | 2 => some (.text s.username)
  | 3 => some (.text s.password)
  | 4 => some (.heartbeat s.heartbeat)
  | 5 => some (.text s.exchange)
  | 6 => some (.text s.routingKey)
  | 7 => some (.deliveryMode s.deliveryMode)
  | 8 => some (.size s.fallbackStorageMaxSize)
  | _ => none

theorem masks_nth (s : Settings) (masks : List CString) (i : Nat) :
    ({s with keyMaskArr := masks} : Settings).nth i = s.nth i := rfl

def reading (i : Nat) (arg : CString) : Option Value := match i with
  | 1 => some (.port (UInt16.ofInt (strtol arg)))
  | 4 => some (.heartbeat (UInt32.ofInt (strtol arg)))
  | 7 => some (.deliveryMode (UInt8.ofInt (strtol arg)))
  | 8 => some (.size (UInt64.ofInt (strtol arg)))
  | 0 | 2 | 3 | 5 | 6 => some (.text arg)
  | _ => none

def masksOf (masks : List CString) : List CString := if KEY_MASK_ALL ∈ masks then [KEY_MASK_ALL] else masks

def Settings.given (s : Settings) (args : List CString) : Settings where
  hostname := args[0]?.getD s.hostname
  port := (args[1]?.map fun arg => UInt16.ofInt (strtol arg)).getD s.port
  username := args[2]?.getD s.username
  password := args[3]?.getD s.password
  heartbeat := (args[4]?.map fun arg => UInt32.ofInt (strtol arg)).getD s.heartbeat
  exchange := args[5]?.getD s.exchange
  routingKey := args[6]?.getD s.routingKey
  deliveryMode := (args[7]?.map fun arg => UInt8.ofInt (strtol arg)).getD s.deliveryMode
  fallbackStorageMaxSize := (args[8]?.map fun arg => UInt64.ofInt (strtol arg)).getD s.fallbackStorageMaxSize
  keyMaskArr := if 9 < args.length then masksOf (args.drop 9) else s.keyMaskArr

theorem given_nth (s : Settings) (args : List CString) (i : Nat) (inside : i < 9) :
    (s.given args).nth i = args[i]?.elim (s.nth i) (reading i) := by
  match i with
  | 0 | 1 | 2 | 3 | 4 | 5 | 6 | 7 | 8 =>
    simp only [Settings.nth,Settings.given]
    generalize args[(_ : Nat)]? = arg
    cases arg <;> rfl

-- The only thing setupConfig ever refuses.
def WrongMode (args : List CString) : Prop := ∃ mode ∈ args[7]?, UInt8.ofInt (strtol mode) > 2

instance (args : List CString) : Decidable (WrongMode args) :=
  match found : args[7]? with
  | some mode => decidable_of_iff (UInt8.ofInt (strtol mode) > 2) (by simp [WrongMode,found])
  | none => .isFalse (by simp [WrongMode,found])

theorem setupConfigLoop_rest (masks : List CString) (s : Settings) (i : Nat) :
    setupConfigLoop (i+9) masks s = (REDISMODULE_OK,{s with
      keyMaskArr := if KEY_MASK_ALL ∈ masks then [KEY_MASK_ALL] else s.keyMaskArr ++ masks}) := by
  induction masks generalizing i s with
  | nil => simp [setupConfigLoop]
  | cons mask rest ih =>
    by_cases all : mask = KEY_MASK_ALL
    · simp [setupConfigLoop,all]
    · simp [setupConfigLoop,all,ih,Ne.symm all]

theorem configure_right (s : Settings) (right : ¬ WrongMode args) :
    configure s args = (REDISMODULE_OK,s.given args) := by
  match args with
  | [] | [_] | [_,_] | [_,_,_] | [_,_,_,_] | [_,_,_,_,_] | [_,_,_,_,_,_] | [_,_,_,_,_,_,_] => rfl
  | _ :: _ :: _ :: _ :: _ :: _ :: _ :: mode :: rest =>
    have fits : ¬ UInt8.ofInt (strtol mode) > 2 := fun wrong => right ⟨mode,rfl,wrong⟩
    match rest with
    | [] => simp [configure,setupConfigLoop,if_neg fits,Settings.given]
    | size :: masks =>
      have looped := fun s => setupConfigLoop_rest masks s 0
      simp only [configure,setupConfigLoop,if_neg fits,looped]
      cases masks <;> simp [Settings.given,masksOf]

-- A wrong delivery mode stops the loop at the eighth argument, after the masks were
-- cleared for those that would have followed.
theorem configure_wrong (s : Settings) (wrong : WrongMode args) : configure s args =
    (REDISMODULE_ERR,{s.given (args.take 7) with keyMaskArr := if 9 < args.length then [] else s.keyMaskArr}) := by
  obtain ⟨mode,eighth,wrong⟩ := wrong
  match args with
  | [] | [_] | [_,_] | [_,_,_] | [_,_,_,_] | [_,_,_,_,_] | [_,_,_,_,_,_] | [_,_,_,_,_,_,_] => cases eighth
  | _ :: _ :: _ :: _ :: _ :: _ :: _ :: found :: rest =>
    cases eighth
    simp only [configure,setupConfigLoop,if_pos wrong]
    split <;> rfl

theorem accepts_given (accepts : Accepts s argv) :
    (configure s ((argv.drop 1).map cstr)).2 = s.given ((argv.drop 1).map cstr) := by
  have right : ¬ WrongMode ((argv.drop 1).map cstr) := fun wrong => by
    have accepts : (configure s ((argv.drop 1).map cstr)).1 = REDISMODULE_OK := accepts
    rw [configure_wrong s wrong] at accepts
    cases accepts
  rw [configure_right s right]

theorem setupConfig_outcome (ran : Ends (setupConfig ctx argv argOffset) w res w') :
    let args := (argv.drop argOffset).map cstr
    Touches [.settings,.count,.keys] w w' ∧
      ((res = REDISMODULE_OK ∧ ¬ WrongMode args ∧ w'.settings = w.settings.given args) ∨
      (res = REDISMODULE_ERR ∧ WrongMode args ∧ w' = {w with settings := {w.settings.given (args.take 7) with
        keyMaskArr := if 9 < args.length then [] else w.settings.keyMaskArr}})) := by
  intro args
  refine ⟨Keeps.keeps ran,?_⟩
  obtain ⟨same,result⟩ := setupConfig_same ran
  have settings : w'.settings = (configure w.settings args).2 := same.settings
  by_cases wrong : WrongMode args
  · refine .inr ?_
    simp only [setupConfig,ends_bind,ends_get,ends_ite,ends_modify,ends_pure] at ran
    obtain ⟨_,_,⟨rfl,rfl⟩,⟨_,_,_,rfl,⟨_,rfl,rfl⟩ | ⟨fine,_⟩⟩ | ⟨none,_⟩⟩ := ran
    · exact ⟨rfl,wrong,by rw [show (argv.drop argOffset).map cstr = args from rfl,configure_wrong _ wrong]⟩
    · rw [configure_wrong _ wrong] at fine
      exact (fine fun ok => by cases ok).elim
    · have empty : args = [] := List.eq_nil_of_length_eq_zero (Nat.eq_zero_of_not_pos none)
      obtain ⟨mode,eighth,_⟩ := wrong
      rw [empty] at eighth
      cases eighth
  · rw [configure_right _ wrong] at settings
    exact .inl ⟨result.mpr (by rw [configure_right _ wrong]),wrong,settings⟩

theorem configure_all (s : Settings) (before after after' : List CString) (long : 9 ≤ before.length) :
    configure s (before ++ KEY_MASK_ALL :: after) = configure s (before ++ KEY_MASK_ALL :: after') := by
  have early (rest : List CString) (i : Nat) (inside : i < 9) : (before ++ rest)[i]? = before[i]? :=
    List.getElem?_append_left (by omega)
  have mode (rest : List CString) : WrongMode (before ++ rest) ↔ WrongMode before := by
    simp only [WrongMode,early rest 7 (by decide)]
  have masks (rest : List CString) : masksOf ((before ++ KEY_MASK_ALL :: rest).drop 9) = [KEY_MASK_ALL] := by
    rw [masksOf,if_pos (by simp [List.drop_append_of_le_length long])]
  have longer (rest : List CString) : 9 < (before ++ KEY_MASK_ALL :: rest).length := by simp; omega
  have given (rest : List CString) : s.given (before ++ KEY_MASK_ALL :: rest) =
      {s.given before with keyMaskArr := [KEY_MASK_ALL]} := by
    simp only [Settings.given,early _ _ (by decide : 0 < 9),early _ _ (by decide : 1 < 9),early _ _ (by decide : 2 < 9),
      early _ _ (by decide : 3 < 9),early _ _ (by decide : 4 < 9),early _ _ (by decide : 5 < 9),
      early _ _ (by decide : 6 < 9),early _ _ (by decide : 7 < 9),early _ _ (by decide : 8 < 9),masks,if_pos (longer rest)]
  by_cases wrong : WrongMode before
  · rw [configure_wrong s ((mode _).mpr wrong),configure_wrong s ((mode _).mpr wrong),if_pos (longer _),if_pos (longer _),
      List.take_append_of_le_length (by omega),List.take_append_of_le_length (by omega)]
  · rw [configure_right s fun bad => wrong ((mode _).mp bad),configure_right s fun bad => wrong ((mode _).mp bad),
      given,given]

-- An accepted configuration sets the settings it has arguments for, each from its own,
-- and the masks from the tenth argument on, and leaves everything else but the counter.
theorem setupConfig_positional (ran : Ends (setupConfig ctx argv argOffset) w REDISMODULE_OK w')
    (given : (argv.drop argOffset).map cstr = args) :
    (∀ i < 9, w'.settings.nth i = args[i]?.elim (w.settings.nth i) (reading i)) ∧
    w'.settings.keyMaskArr = (if 9 < args.length then masksOf (args.drop 9) else w.settings.keyMaskArr) ∧
    (∀ before after after' argv', args = before ++ KEY_MASK_ALL :: after → 9 ≤ before.length →
      (argv'.drop argOffset).map cstr = before ++ KEY_MASK_ALL :: after' →
      Ends (setupConfig ctx argv' argOffset) w REDISMODULE_OK w') ∧
    w'.conn = w.conn ∧ w'.heardBeatTimerId = w.heardBeatTimerId ∧ w'.timers = w.timers ∧
    w'.amqpConnectionEnabled = w.amqpConnectionEnabled ∧ w'.storage = w.storage := by
  obtain ⟨touched,⟨_,_,settings⟩ | ⟨refused,_⟩⟩ := setupConfig_outcome ran
  · rw [given] at settings
    refine ⟨fun i inside => settings ▸ given_nth _ _ i inside,settings ▸ rfl,?_,
      touched.conn.resolve_left (by decide),touched.heartbeat.resolve_left (by decide),
      touched.timers.resolve_left (by decide),touched.enabled.resolve_left (by decide),
      touched.lists.resolve_left (by decide)⟩
    intro before after after' argv' parts long given'
    have same : setupConfig ctx argv' argOffset = setupConfig ctx argv argOffset := by
      have some (rest : List CString) : 0 < (before ++ KEY_MASK_ALL :: rest).length := by
        rw [List.length_append]
        omega
      simp only [setupConfig,given,given',parts,configure_all _ before after' after long,if_pos (some _)]
    exact same ▸ ran
  · cases refused

theorem ran_ends {program : Act Int32} (res : Int32) (holds : World → Bool)
    (ran : (program w).any fun r => r.1 == res && holds r.2) : ∃ w', Ends program w res w' ∧ holds w' = true := by
  obtain ⟨⟨found,w'⟩,ended,both⟩ := (Option.any_eq_true _ _).mp ran
  obtain ⟨same,good⟩ := (Bool.and_eq_true _ _).mp both
  cases eq_of_beq same
  exact ⟨w',ended,good⟩

theorem setupConfig_positional_masks : ∃ w',
    Ends (setupConfig (master 0) (allKeys "5") 1) (boot fun _ => []) REDISMODULE_OK w' ∧
    w'.settings.port = 5672 ∧ w'.settings.keyMaskArr = masksOf [cstr (ascii "ALL")] := by
  have ran : (setupConfig (master 0) (allKeys "5") 1 (boot fun _ => [])).any (fun r : Int32 × World =>
    r.1 == REDISMODULE_OK && r.2.settings.port == 5672) := by decide +kernel
  obtain ⟨w',ran,seen⟩ := ran_ends REDISMODULE_OK (fun w' => w'.settings.port == 5672) ran
  exact ⟨w',ran,eq_of_beq seen,(setupConfig_positional ran rfl).2.1⟩

theorem settings_ext {s t : Settings} (same : ∀ i < 9, s.nth i = t.nth i)
    (masks : s.keyMaskArr = t.keyMaskArr) : s = t := by
  have zero := same 0 (by decide)
  have one := same 1 (by decide)
  have two := same 2 (by decide)
  have three := same 3 (by decide)
  have four := same 4 (by decide)
  have five := same 5 (by decide)
  have six := same 6 (by decide)
  have seven := same 7 (by decide)
  have eight := same 8 (by decide)
  cases s
  cases t
  simp only [Settings.nth,Option.some.injEq,Value.text.injEq,Value.port.injEq,Value.heartbeat.injEq,
    Value.deliveryMode.injEq,Value.size.injEq] at *
  simp only [*]

-- A refused configuration has already set the seven settings before the delivery mode and
-- cleared the masks it would have replaced.
theorem rejected_changes_nothing_iff (ran : Ends (setupConfig ctx argv argOffset) w REDISMODULE_ERR w')
    (given : (argv.drop argOffset).map cstr = args) :
    (w'.settings = w.settings ∧ w'.fallbackStorageLen = w.fallbackStorageLen) ↔
      (∀ i < 7, args[i]?.bind (reading i) = w.settings.nth i) ∧ (9 < args.length → w.settings.keyMaskArr = []) := by
  obtain ⟨_,⟨fine,_⟩ | ⟨_,⟨mode,eighth,_⟩,rfl⟩⟩ := setupConfig_outcome ran
  · cases fine
  rw [given] at eighth ⊢
  have long : 7 < args.length := (List.getElem?_eq_some_iff.mp eighth).1
  have set (i : Nat) (inside : i < 7) : (w.settings.given (args.take 7)).nth i = args[i]?.bind (reading i) := by
    rw [given_nth _ _ i (by omega),List.getElem?_take_of_lt inside,List.getElem?_eq_getElem (by omega)]
    rfl
  have kept (i : Nat) (outside : 7 ≤ i) (inside : i < 9) : (w.settings.given (args.take 7)).nth i = w.settings.nth i := by
    rw [given_nth _ _ i inside,List.getElem?_take_eq_none outside]
    rfl
  constructor
  · rintro ⟨same,_⟩
    refine ⟨fun i inside => ?_,fun more => ?_⟩
    · rw [← set i inside]
      exact (masks_nth _ _ i).symm.trans (congrArg (fun s => Settings.nth s i) same)
    · have masks := congrArg Settings.keyMaskArr same
      rw [if_pos more] at masks
      exact masks.symm
  · rintro ⟨same,cleared⟩
    refine ⟨settings_ext (fun i inside => ?_) ?_,rfl⟩
    · rw [masks_nth]
      by_cases early : i < 7
      · exact (set i early).trans (same i early)
      · exact kept i (by omega) inside
    · split
      · rename_i more
        exact (cleared more).symm
      · rfl

def wrongMode (host : String) (rest : List String) : List Bytes :=
  ["config_set",host,"5672","user","pass","30","exchange","key","3"].map ascii ++ rest.map ascii

theorem rejected_changes_nothing_iff_again : ∃ w w' : World,
    Ends (setupConfig (master 0) (wrongMode "broker" []) 1) w REDISMODULE_ERR w' ∧
    ((w'.settings = w.settings ∧ w'.fallbackStorageLen = w.fallbackStorageLen) ↔
      (∀ i < 7, (((wrongMode "broker" []).drop 1).map cstr)[i]?.bind (reading i) = w.settings.nth i) ∧
      (9 < (((wrongMode "broker" []).drop 1).map cstr).length → w.settings.keyMaskArr = [])) := by
  obtain ⟨w,_,_,_,_,seen⟩ := played_run (master 0) (allKeys "0") (fun _ => []) []
    (fun w _ _ => (setupConfig (master 0) (wrongMode "broker" []) 1 w).any fun r : Int32 × World =>
      r.1 == REDISMODULE_ERR && true) (by decide +kernel)
  obtain ⟨w',ran,_⟩ := ran_ends REDISMODULE_ERR (fun _ => true) seen
  exact ⟨w,w',ran,rejected_changes_nothing_iff ran rfl⟩

theorem rejected_host_and_masks : ∃ w w' : World, Loaded (master 0) (allKeys "0") (fun _ => []) w ∧
    Ends (setupConfig (master 0) (wrongMode "other" ["5","a"]) 1) w REDISMODULE_ERR w' ∧
    w.settings.hostname = cstr (ascii "broker") ∧ w.settings.keyMaskArr = [KEY_MASK_ALL] ∧
    w'.settings.hostname = cstr (ascii "other") ∧ w'.settings.keyMaskArr = [] := by
  obtain ⟨w,_,_,loaded,_,seen⟩ := played_run (master 0) (allKeys "0") (fun _ => []) []
    (fun w _ _ => decide (w.settings.hostname = cstr (ascii "broker") ∧ w.settings.keyMaskArr = [KEY_MASK_ALL]) &&
      (setupConfig (master 0) (wrongMode "other" ["5","a"]) 1 w).any fun r : Int32 × World => r.1 == REDISMODULE_ERR &&
        decide (r.2.settings.hostname = cstr (ascii "other") ∧ r.2.settings.keyMaskArr = [])) (by decide +kernel)
  obtain ⟨before,after⟩ := (Bool.and_eq_true _ _).mp seen
  obtain ⟨host,masks⟩ := of_decide_eq_true before
  obtain ⟨w',ran,after⟩ := ran_ends REDISMODULE_ERR (fun w' : World =>
    decide (w'.settings.hostname = cstr (ascii "other") ∧ w'.settings.keyMaskArr = [])) after
  exact ⟨w,w',loaded,ran,host,masks,of_decide_eq_true after⟩

end KeyspaceAmqp
