import KeyspaceAmqp.Arguments
import KeyspaceAmqp.NegativeSize

namespace KeyspaceAmqp
open Programs

def wholeNumber (text : Bytes) : Bool := !text.isEmpty && text.all isDigit

-- The integer a string denotes: a sign or none, then digits, and nothing else.
def denotes : Bytes → Option Int
  | 45 :: rest => if wholeNumber rest then some (-(digitsValue rest : Int)) else none
  | 43 :: rest => if wholeNumber rest then some (digitsValue rest : Int) else none
  | text => if wholeNumber text then some (digitsValue text : Int) else none

theorem digit_plain {b : UInt8} (digit : isDigit b = true) : b ≠ 0 ∧ isSpace b = false := by
  simp only [isDigit,Bool.and_eq_true,decide_eq_true_eq,UInt8.le_iff_toNat_le] at digit
  have low : 48 ≤ b.toNat := digit.1
  refine ⟨fun zero => ?_,?_⟩
  · subst zero
    exact absurd low (by decide)
  · simp only [isSpace,Bool.or_eq_false_iff,beq_eq_false_iff_ne,Bool.and_eq_false_imp,decide_eq_true_eq,
      decide_eq_false_iff_not,UInt8.le_iff_toNat_le]
    refine ⟨fun blank => ?_,fun _ small => ?_⟩
    · subst blank
      exact absurd low (by decide)
    · exact absurd (low.trans small) (by decide)

theorem whole_plain {text : Bytes} (whole : wholeNumber text = true) : 0 ∉ text ∧ text.dropWhile isSpace = text := by
  simp only [wholeNumber,Bool.and_eq_true,List.all_eq_true] at whole
  obtain ⟨_,digits⟩ := whole
  refine ⟨fun zero => (digit_plain (digits 0 zero)).1 rfl,?_⟩
  cases text with
  | nil => rfl
  | cons b rest => simp [(digit_plain (digits b List.mem_cons_self)).2]

theorem strtol_denotes (number : denotes text = some n) : strtol (cstr text) = max LONG_MIN (min LONG_MAX n) := by
  have signed {sign : UInt8} {rest : Bytes} (whole : wholeNumber rest = true) (other : sign ≠ 0) :
      (cstr (sign :: rest)).bytes = sign :: rest :=
    cstr_bytes _ fun zero => (List.mem_cons.mp zero).elim (fun same => other same.symm) (whole_plain whole).1
  unfold denotes at number
  split at number
  · obtain ⟨whole,value⟩ := Option.ite_none_right_eq_some.mp number
    cases value
    simp [strtol,signed whole (by decide : (45 : UInt8) ≠ 0),isSpace]
  · obtain ⟨whole,value⟩ := Option.ite_none_right_eq_some.mp number
    cases value
    simp [strtol,signed whole (by decide : (43 : UInt8) ≠ 0),isSpace]
  · rename_i unsigned unmarked
    obtain ⟨whole,value⟩ := Option.ite_none_right_eq_some.mp number
    cases value
    obtain ⟨clean,first⟩ := whole_plain whole
    rw [strtol,cstr_bytes _ clean,first]
    split
    · exact absurd rfl (unsigned _)
    · exact absurd rfl (unmarked _)
    · rfl

inductive Number where
  | port
  | heartbeat
  | deliveryMode
  | storageSize
  deriving DecidableEq

def Number.all : List Number := [.port,.heartbeat,.deliveryMode,.storageSize]

def Number.position : Number → Nat
  | .port => 1
  | .heartbeat => 4
  | .deliveryMode => 7
  | .storageSize => 8

def Number.stored (s : Settings) : Number → Nat
  | .port => s.port.toNat
  | .heartbeat => s.heartbeat.toNat
  | .deliveryMode => s.deliveryMode.toNat
  | .storageSize => s.fallbackStorageMaxSize.toNat

def Number.narrow (n : Int) : Number → Nat
  | .port => (UInt16.ofInt n).toNat
  | .heartbeat => (UInt32.ofInt n).toNat
  | .deliveryMode => (UInt8.ofInt n).toNat
  | .storageSize => (UInt64.ofInt n).toNat

def Number.least : Number → Int
  | .deliveryMode => 1
  | _ => 0

def Number.greatest : Number → Int
  | .port => 0xFFFF
  | .heartbeat => 0xFFFFFFFF
  | .deliveryMode => 2
  | .storageSize => LONG_MAX

def Kept (s : Settings) (given : Number × Bytes) : Prop :=
  ∃ n, denotes given.2 = some n ∧ (given.1 = .deliveryMode → n = 1 ∨ n = 2) ∧ (given.1.stored s : Int) = n

def InRange (given : Number × Bytes) : Prop := ∃ n, denotes given.2 = some n ∧ given.1.least ≤ n ∧ n ≤ given.1.greatest

theorem narrow_exact (field : Number) (n : Int) :
    ((field = .deliveryMode → n = 1 ∨ n = 2) ∧ (field.narrow (max LONG_MIN (min LONG_MAX n)) : Int) = n) ↔
      field.least ≤ n ∧ n ≤ field.greatest := by
  cases field with
  | port =>
    simp only [Number.narrow,Number.least,Number.greatest,LONG_MIN,LONG_MAX,UInt16.ofInt,UInt16.toNat_ofNat']
    grind
  | heartbeat =>
    simp only [Number.narrow,Number.least,Number.greatest,LONG_MIN,LONG_MAX,UInt32.ofInt,UInt32.toNat_ofNat']
    grind
  | deliveryMode =>
    simp only [Number.narrow,Number.least,Number.greatest,LONG_MIN,LONG_MAX,UInt8.ofInt,UInt8.toNat_ofNat']
    grind
  | storageSize =>
    simp only [Number.narrow,Number.least,Number.greatest,LONG_MIN,LONG_MAX,UInt64.ofInt,UInt64.toNat_ofNat']
    grind

theorem kept_iff (read : field.stored s = field.narrow (strtol (cstr arg))) : Kept s (field,arg) ↔ InRange (field,arg) := by
  simp only [Kept,InRange]
  refine exists_congr fun n => and_congr_right fun number => ?_
  rw [read,strtol_denotes number]
  exact narrow_exact field n

def configNumbers (args : List Bytes) : List (Number × Bytes) :=
  Number.all.filterMap fun field => args[field.position]?.map fun arg => (field,arg)

theorem given_stored (s : Settings) (args : List Bytes) (given : (field,arg) ∈ configNumbers args) :
    field.stored (s.given (args.map cstr)) = field.narrow (strtol (cstr arg)) := by
  obtain ⟨found,_,here⟩ := List.mem_filterMap.mp given
  obtain ⟨text,position,same⟩ := Option.map_eq_some_iff.mp here
  obtain ⟨rfl,rfl⟩ := Prod.mk.inj same
  have read : (args.map cstr)[found.position]? = some (cstr text) := by simp [position]
  cases found <;> simp only [Number.position] at read <;> simp only [Number.stored,Settings.given,read] <;> rfl

def Command.numbers (argv : List Bytes) : Command → List (Number × Bytes)
  | .connect | .configSet => configNumbers (argv.drop 1)
  | .fallbackStorageSizeSet => match argv with
    | [_,size] => [(.storageSize,size)]
    | _ => []
  | _ => []

def Command.Takes (s : Settings) (argv : List Bytes) : Command → Prop
  | .connect | .configSet => Accepts s argv
  | _ => True

-- Numbers that were taken, at the load or by a command typed or received, and the
-- settings just after.
inductive Numbered : List (Number × Bytes) → Settings → Prop where
  | load (loaded : Loaded ctx argv storage w) : Numbered (configNumbers (argv.drop 1)) w.settings
  | command (taken : step w turn = some w') (known : turn.callback.carries = some (command,argv))
      (takes : command.Takes w.settings argv) : Numbered (command.numbers argv) w'.settings

theorem numbered_stored (numbered : Numbered numbers s) (given : (field,arg) ∈ numbers) :
    field.stored s = field.narrow (strtol (cstr arg)) := by
  cases numbered with
  | load loaded =>
    obtain ⟨old,accepts,settings⟩ := loaded_settings loaded
    rw [settings,accepts_given accepts]
    exact given_stored old _ given
  | @command w turn w' command argv taken known takes =>
    have settings : w'.settings = _ := congrArg Config.settings (carried_config taken known)
    rw [settings]
    cases command with
    | connect | configSet =>
      have set := accepts_given takes
      exact (congrArg (fun s => Number.stored s field) set).trans (given_stored _ _ given)
    | fallbackStorageSizeSet =>
      match argv with
      | [_,size] =>
        cases List.mem_singleton.mp given
        rfl
      | [] | [_] | _ :: _ :: _ :: _ => cases given
    | _ => cases given

-- Only decimal integers inside the range of their setting are stored as they are.
theorem numbers_kept_iff (numbered : Numbered numbers s) :
    (∀ given ∈ numbers, Kept s given) ↔ ∀ given ∈ numbers, InRange given :=
  forall₂_congr fun _ member => kept_iff (numbered_stored numbered member)

theorem numbers_kept_iff_load : ∃ w : World, Loaded (master 0) (allKeys "5") (fun _ => []) w ∧
    ((∀ given ∈ configNumbers ((allKeys "5").drop 1), Kept w.settings given) ↔
      ∀ given ∈ configNumbers ((allKeys "5").drop 1), InRange given) := by
  obtain ⟨w,_,_,loaded,_⟩ := played_run (master 0) (allKeys "5") (fun _ => []) [] (fun _ _ _ => true) (by decide +kernel)
  exact ⟨w,loaded,numbers_kept_iff (.load loaded)⟩

theorem numbers_altered : ∃ w w' : World, Loaded (master 0) (allKeys "5") (fun _ => []) w ∧
    step w (told .configSet ["h","70000","u","p","soon","e","k","258","-1"] []) = some w' ∧
    Accepts w.settings (Command.configSet.name :: ["h","70000","u","p","soon","e","k","258","-1"].map ascii) ∧
    (w'.settings.port = 4464 ∧ w'.settings.heartbeat = 0 ∧ w'.settings.deliveryMode = 2 ∧
      w'.settings.fallbackStorageMaxSize = 0xFFFFFFFFFFFFFFFF) ∧
    ¬ Kept w'.settings (.port,ascii "70000") ∧ ¬ Kept w'.settings (.heartbeat,ascii "soon") ∧
    ¬ Kept w'.settings (.deliveryMode,ascii "258") ∧ ¬ Kept w'.settings (.storageSize,ascii "-1") := by
  obtain ⟨w,w',loaded,taken,seen⟩ := played_step (master 0) (allKeys "5") (fun _ => [])
    (told .configSet ["h","70000","u","p","soon","e","k","258","-1"] [])
    (fun w w' => decide (Accepts w.settings
        (Command.configSet.name :: ["h","70000","u","p","soon","e","k","258","-1"].map ascii) ∧
      w'.settings.port = 4464 ∧ w'.settings.heartbeat = 0 ∧ w'.settings.deliveryMode = 2 ∧
      w'.settings.fallbackStorageMaxSize = 0xFFFFFFFFFFFFFFFF)) (by decide +kernel)
  obtain ⟨accepts,port,heartbeat,mode,size⟩ := of_decide_eq_true seen
  have denoted : denotes (ascii "70000") = some 70000 ∧ denotes (ascii "soon") = none ∧
    denotes (ascii "258") = some 258 ∧ denotes (ascii "-1") = some (-1) := by decide +kernel
  refine ⟨w,w',loaded,taken,accepts,⟨port,heartbeat,mode,size⟩,?_⟩
  simp [Kept,denoted,Number.stored,port,mode,size]

end KeyspaceAmqp
