import KeyspaceAmqp.Network
import KeyspaceAmqp.Loading
import KeyspaceAmqp.Library.Blocks
import KeyspaceAmqp.Library.Heaps
import Mathlib.Data.UInt

namespace KeyspaceAmqp.Allocated
open Blocks Heaps Programs Paths

variable {σ : Type}

-- The copies that the module keeps of its textual settings, over the heap they live in. What
-- frees or writes anything else than a block of the heap has no outcome.
abbrev Memory (σ : Type) := Heap σ (Block 1 UInt8)

abbrev Malloc (σ : Type) := Allocator σ (Block 1 UInt8)

inductive Pointer where
  | null
  | constant
  | block (address : Nat)
  deriving DecidableEq

def Pointer.address : Pointer → Option Nat
  | .block p => some p
  | _ => none

-- RedisModule_Free, which takes null as well.
def moduleFree (allocator : Malloc σ) (heap : Memory σ) : Pointer → Option (Memory σ)
  | .null => some heap
  | .constant => none
  | .block p => allocator.free heap p

def copyAllocated (allocator : Malloc σ) (input : CString) (out : Pointer) (needFree : Bool) (heap : Memory σ) :
    Option (Pointer × Memory σ) := do
  let heap ← if needFree then moduleFree allocator heap out else some heap
  let (p,heap) := allocator.alloc heap (Block.alloc (input.bytes.length+1))
  let heap ← store heap p fun block => block.strcpy input.bytes
  return (.block p,heap)

def copyStringAllocated (allocator : Malloc σ) (input : CString) (out : Pointer) (needFree : Bool) (heap : Memory σ) :
    Option (Pointer × Memory σ) := copyAllocated allocator input out needFree heap

structure AmqpBytes where
  len : Nat
  bytes : Pointer
  deriving DecidableEq

def copyAmqpStringAllocated (allocator : Malloc σ) (input : CString) (out : AmqpBytes) (needFree : Bool) (heap : Memory σ) :
    Option (AmqpBytes × Memory σ) := do
  let (bytes,heap) ← copyAllocated allocator input out.bytes needFree heap
  return (⟨input.bytes.length,bytes⟩,heap)

structure Strings where
  hostname : Pointer
  username : Pointer
  password : Pointer
  exchange : AmqpBytes
  routingKey : AmqpBytes
  deriving DecidableEq

def bootStrings : Strings := ⟨.constant,.constant,.constant,⟨0,.null⟩,⟨0,.null⟩⟩

structure Copies (σ : Type) where
  strings : Strings
  heap : Memory σ

def setupDefaultConfig (allocator : Malloc σ) (m : Copies σ) : Option (Copies σ) := do
  let (hostname,heap) ← copyStringAllocated allocator DEFAULT_AMQP_HOST m.strings.hostname false m.heap
  let (username,heap) ← copyStringAllocated allocator DEFAULT_AMQP_USER m.strings.username false heap
  let (password,heap) ← copyStringAllocated allocator DEFAULT_AMQP_PASS m.strings.password false heap
  let (exchange,heap) ← copyAmqpStringAllocated allocator DEFAULT_AMQP_EXCHANGE m.strings.exchange false heap
  let (routingKey,heap) ← copyAmqpStringAllocated allocator DEFAULT_AMQP_ROUTINGKEY m.strings.routingKey false heap
  return ⟨⟨hostname,username,password,exchange,routingKey⟩,heap⟩

def setupConfigLoop (allocator : Malloc σ) : Nat → List CString → Copies σ → Option (Copies σ)
  | _,[],m => some m
  | i,arg :: rest,m => match i with
    | 0 => do
      let (hostname,heap) ← copyStringAllocated allocator arg m.strings.hostname true m.heap
      setupConfigLoop allocator 1 rest ⟨{m.strings with hostname := hostname},heap⟩
    | 1 => setupConfigLoop allocator 2 rest m
    | 2 => do
      let (username,heap) ← copyStringAllocated allocator arg m.strings.username true m.heap
      setupConfigLoop allocator 3 rest ⟨{m.strings with username := username},heap⟩
    | 3 => do
      let (password,heap) ← copyStringAllocated allocator arg m.strings.password true m.heap
      setupConfigLoop allocator 4 rest ⟨{m.strings with password := password},heap⟩
    | 4 => setupConfigLoop allocator 5 rest m
    | 5 => do
      let (exchange,heap) ← copyAmqpStringAllocated allocator arg m.strings.exchange true m.heap
      setupConfigLoop allocator 6 rest ⟨{m.strings with exchange := exchange},heap⟩
    | 6 => do
      let (routingKey,heap) ← copyAmqpStringAllocated allocator arg m.strings.routingKey true m.heap
      setupConfigLoop allocator 7 rest ⟨{m.strings with routingKey := routingKey},heap⟩
    | 7 => if UInt8.ofInt (strtol arg) > 2 then some m else setupConfigLoop allocator 8 rest m
    | 8 => setupConfigLoop allocator 9 rest m
    | i+9 => if arg = KEY_MASK_ALL then some m else setupConfigLoop allocator (i+10) rest m

def setupConfig (allocator : Malloc σ) (argv : List Bytes) (argOffset : Nat) (m : Copies σ) : Option (Copies σ) :=
  setupConfigLoop allocator 0 ((argv.drop argOffset).map cstr) m

def init (allocator : Malloc σ) (argv : List Bytes) (heap : Memory σ) : Option (Copies σ) := do
  let m ← setupDefaultConfig allocator ⟨bootStrings,heap⟩
  setupConfig allocator argv 1 m

def copies (allocator : Malloc σ) (callback : Callback) (m : Copies σ) : Option (Copies σ) := match callback.carries with
  | some (.connect,argv) => setupConfig allocator argv 1 m
  | some (.configSet,argv) => setupConfig allocator argv 1 m
  | _ => some m

inductive Text where
  | hostname
  | username
  | password
  | exchange
  | routingKey
  deriving DecidableEq

def Strings.pointer (s : Strings) : Text → Pointer
  | .hostname => s.hostname
  | .username => s.username
  | .password => s.password
  | .exchange => s.exchange.bytes
  | .routingKey => s.routingKey.bytes

def Strings.place (s : Strings) (t : Text) : Option Nat := (s.pointer t).address

def textOf (s : Settings) : Text → CString
  | .hostname => s.hostname
  | .username => s.username
  | .password => s.password
  | .exchange => s.exchange
  | .routingKey => s.routingKey

def Copied (text : CString) (block : Block 1 UInt8) : Prop :=
  block.bytes = text.bytes.length+1 ∧ block.Holds text.bytes

structure Mirrors (texts : Text → CString) (m : Copies σ) : Prop where
  owns : Owns m.strings.place (fun t => Copied (texts t)) m.heap
  all : ∀ t, m.strings.place t ≠ none
  exchange : m.strings.exchange.len = (texts .exchange).bytes.length
  routingKey : m.strings.routingKey.len = (texts .routingKey).bytes.length

theorem strcpy_copied (text : CString) : ∃ written,
    (Block.alloc (text.bytes.length+1) : Block 1 UInt8).strcpy text.bytes = some written ∧ Copied text written := by
  obtain ⟨written,wrote,same,holds⟩ := strcpy_holds (Block.alloc (text.bytes.length+1) : Block 1 UInt8) text.noNul
    (by rw [Nat.div_one]; exact Nat.lt_succ_self _)
  exact ⟨written,wrote,same,holds⟩

section Copying
variable {place : Text → Option Nat} {holds : Text → Block 1 UInt8 → Prop} {heap : Memory σ}

theorem copyAllocated_first (allocator : Malloc σ) (owns : Owns place holds heap) (t : Text) (empty : place t = none)
    (input : CString) (out : Pointer) : ∃ p heap', copyAllocated allocator input out false heap = some (.block p,heap') ∧
      Owns (Function.update place t (some p)) (Function.update holds t (Copied input)) heap' ∧
      Exchanged (places place) (places (Function.update place t (some p))) heap heap' := by
  obtain ⟨written,wrote,copied⟩ := strcpy_copied input
  let write : Block 1 UInt8 → Option (Block 1 UInt8) := fun block => block.strcpy input.bytes
  obtain ⟨heap',stored,owns,exchanged⟩ := owns.alloc empty allocator (show write _ = _ from wrote) copied
  refine ⟨_,heap',?_,owns,exchanged⟩
  simp only [write] at stored
  simp [copyAllocated,stored]

-- The old copy is given up first. The new one may come to lie where it was.
theorem copyAllocated_again (allocator : Malloc σ) (owns : Owns place holds heap) (here : place t = some q)
    (input : CString) : ∃ p heap', copyAllocated allocator input (.block q) true heap = some (.block p,heap') ∧
      Owns (Function.update place t (some p)) (Function.update holds t (Copied input)) heap' ∧
      Exchanged (places place) (places (Function.update place t (some p))) heap heap' := by
  obtain ⟨m,freed,owns,first⟩ := owns.free here allocator
  obtain ⟨p,heap',copied,owns,second⟩ := copyAllocated_first allocator owns t (Function.update_self t none place) input .null
  rw [Function.update_idem] at owns second
  refine ⟨p,heap',?_,owns,first.trans second⟩
  simp only [copyAllocated,if_true,moduleFree,freed,Option.bind_eq_bind,Option.bind_some]
  simpa [copyAllocated] using copied

end Copying

theorem place_pointer {s : Strings} (here : s.place t ≠ none) : ∃ p, s.pointer t = .block p ∧ s.place t = some p := by
  rw [Strings.place] at here ⊢
  cases pointer : s.pointer t with
  | null | constant => exact absurd (by rw [pointer]; rfl) here
  | block p => exact ⟨p,rfl,rfl⟩

theorem Mirrors.copies {texts : Text → CString} (allocator : Malloc σ) (mirrors : Mirrors texts m) (t : Text) (input : CString) :
    ∃ p heap', copyAllocated allocator input (m.strings.pointer t) true m.heap = some (.block p,heap') ∧
      ∀ strings : Strings, strings.place = Function.update m.strings.place t (some p) →
        strings.exchange.len = (Function.update texts t input .exchange).bytes.length →
        strings.routingKey.len = (Function.update texts t input .routingKey).bytes.length →
        Mirrors (Function.update texts t input) ⟨strings,heap'⟩ ∧
          Exchanged (places m.strings.place) (places strings.place) m.heap heap' := by
  obtain ⟨q,pointer,here⟩ := place_pointer (mirrors.all t)
  obtain ⟨p,heap',copied,owns,exchanged⟩ := copyAllocated_again allocator mirrors.owns here input
  refine ⟨p,heap',pointer ▸ copied,fun strings places exchange routingKey => ?_⟩
  rw [places]
  have holds : Function.update (fun t => Copied (texts t)) t (Copied input) = fun u => Copied (Function.update texts t input u) := by
    funext u
    by_cases same : u = t
    · rw [same,Function.update_self,Function.update_self]
    · rw [Function.update_of_ne same,Function.update_of_ne same]
  rw [holds] at owns
  refine ⟨⟨places ▸ owns,fun u => ?_,exchange,routingKey⟩,exchanged⟩
  by_cases same : u = t
  · rw [places,same,Function.update_self]
    exact Option.some_ne_none p
  · rw [places,Function.update_of_ne same]
    exact mirrors.all u

theorem setupConfigLoop_mirrors (allocator : Malloc σ) (args : List CString) (i : Nat) (s : Settings)
    (mirrors : Mirrors (textOf s) m) : ∃ m', setupConfigLoop allocator i args m = some m' ∧
      Mirrors (textOf (KeyspaceAmqp.setupConfigLoop i args s).2) m' ∧
      Exchanged (places m.strings.place) (places m'.strings.place) m.heap m'.heap := by
  induction args generalizing i s m with
  | nil =>
    refine ⟨m,?_,mirrors,.refl _ _⟩
    rw [setupConfigLoop]
  | cons arg rest ih =>
    have copy (t : Text) (j : Nat) (s' : Settings) (told : textOf s' = Function.update (textOf s) t arg) :
        ∃ p heap', copyAllocated allocator arg (m.strings.pointer t) true m.heap = some (.block p,heap') ∧
          ∀ strings : Strings, strings.place = Function.update m.strings.place t (some p) →
            strings.exchange.len = (textOf s' .exchange).bytes.length →
            strings.routingKey.len = (textOf s' .routingKey).bytes.length →
            ∃ m', setupConfigLoop allocator j rest ⟨strings,heap'⟩ = some m' ∧
              Mirrors (textOf (KeyspaceAmqp.setupConfigLoop j rest s').2) m' ∧
              Exchanged (places m.strings.place) (places m'.strings.place) m.heap m'.heap := by
      obtain ⟨p,heap',copied,after⟩ := mirrors.copies allocator t arg
      rw [← told] at after
      refine ⟨p,heap',copied,fun strings places exchange routingKey => ?_⟩
      obtain ⟨mirrors,first⟩ := after strings places exchange routingKey
      obtain ⟨m',looped,mirrors,second⟩ := ih j s' mirrors
      exact ⟨m',looped,mirrors,first.trans second⟩
    match i with
    | 0 =>
      obtain ⟨p,heap',copied,after⟩ := copy .hostname 1 {s with hostname := arg} (by funext u; cases u <;> rfl)
      obtain ⟨m',looped,outcome⟩ := after {m.strings with hostname := .block p} (by funext u; cases u <;> rfl)
        mirrors.exchange mirrors.routingKey
      refine ⟨m',?_,outcome⟩
      simp only [Strings.pointer] at copied
      simp [setupConfigLoop,copyStringAllocated,copied,looped]
    | 2 =>
      obtain ⟨p,heap',copied,after⟩ := copy .username 3 {s with username := arg} (by funext u; cases u <;> rfl)
      obtain ⟨m',looped,outcome⟩ := after {m.strings with username := .block p} (by funext u; cases u <;> rfl)
        mirrors.exchange mirrors.routingKey
      refine ⟨m',?_,outcome⟩
      simp only [Strings.pointer] at copied
      simp [setupConfigLoop,copyStringAllocated,copied,looped]
    | 3 =>
      obtain ⟨p,heap',copied,after⟩ := copy .password 4 {s with password := arg} (by funext u; cases u <;> rfl)
      obtain ⟨m',looped,outcome⟩ := after {m.strings with password := .block p} (by funext u; cases u <;> rfl)
        mirrors.exchange mirrors.routingKey
      refine ⟨m',?_,outcome⟩
      simp only [Strings.pointer] at copied
      simp [setupConfigLoop,copyStringAllocated,copied,looped]
    | 5 =>
      obtain ⟨p,heap',copied,after⟩ := copy .exchange 6 {s with exchange := arg} (by funext u; cases u <;> rfl)
      obtain ⟨m',looped,outcome⟩ := after {m.strings with exchange := ⟨arg.bytes.length,.block p⟩}
        (by funext u; cases u <;> rfl) rfl mirrors.routingKey
      refine ⟨m',?_,outcome⟩
      simp only [Strings.pointer] at copied
      simp [setupConfigLoop,copyAmqpStringAllocated,copied,looped]
    | 6 =>
      obtain ⟨p,heap',copied,after⟩ := copy .routingKey 7 {s with routingKey := arg} (by funext u; cases u <;> rfl)
      obtain ⟨m',looped,outcome⟩ := after {m.strings with routingKey := ⟨arg.bytes.length,.block p⟩}
        (by funext u; cases u <;> rfl) mirrors.exchange rfl
      refine ⟨m',?_,outcome⟩
      simp only [Strings.pointer] at copied
      simp [setupConfigLoop,copyAmqpStringAllocated,copied,looped]
    | 1 | 4 | 8 =>
      simp only [setupConfigLoop,KeyspaceAmqp.setupConfigLoop]
      exact ih _ _ mirrors
    | 7 =>
      simp only [setupConfigLoop,KeyspaceAmqp.setupConfigLoop]
      split
      · exact ⟨m,rfl,mirrors,.refl _ _⟩
      · exact ih _ _ mirrors
    | i+9 =>
      simp only [setupConfigLoop,KeyspaceAmqp.setupConfigLoop]
      split
      · exact ⟨m,rfl,mirrors,.refl _ _⟩
      · exact ih _ _ mirrors

theorem textOf_masks (s : Settings) (masks : List CString) : textOf {s with keyMaskArr := masks} = textOf s := by
  funext t
  cases t <;> rfl

theorem textOf_configure (s : Settings) (args : List CString) :
    ∃ s', textOf s' = textOf s ∧ configure s args = KeyspaceAmqp.setupConfigLoop 0 args s' := by
  rw [configure]
  split
  · exact ⟨_,textOf_masks s [],rfl⟩
  · exact ⟨s,rfl,rfl⟩

theorem setupConfig_mirrors (allocator : Malloc σ) (s : Settings) (argv : List Bytes) (argOffset : Nat)
    (mirrors : Mirrors (textOf s) m) : ∃ m', setupConfig allocator argv argOffset m = some m' ∧
      Mirrors (textOf (configure s ((argv.drop argOffset).map cstr)).2) m' ∧
      Exchanged (places m.strings.place) (places m'.strings.place) m.heap m'.heap := by
  obtain ⟨s',same,configured⟩ := textOf_configure s ((argv.drop argOffset).map cstr)
  rw [← same] at mirrors
  rw [configured]
  exact setupConfigLoop_mirrors allocator ((argv.drop argOffset).map cstr) 0 s' mirrors

theorem setupDefaultConfig_mirrors (allocator : Malloc σ) (heap : Memory σ) :
    ∃ m, setupDefaultConfig allocator ⟨bootStrings,heap⟩ = some m ∧ Mirrors (textOf defaultSettings) m ∧
      Exchanged (places bootStrings.place) (places m.strings.place) heap m.heap := by
  have boot : bootStrings.place = fun _ => none := by
    funext t
    cases t <;> rfl
  let nothing (_ : Text) (_ : Block 1 UInt8) : Prop := False
  have start := owns_none nothing heap
  obtain ⟨hostname,heap1,copied1,owns,first⟩ := copyAllocated_first allocator start .hostname rfl DEFAULT_AMQP_HOST .constant
  obtain ⟨username,heap2,copied2,owns,second⟩ := copyAllocated_first allocator owns .username rfl DEFAULT_AMQP_USER .constant
  obtain ⟨password,heap3,copied3,owns,third⟩ := copyAllocated_first allocator owns .password rfl DEFAULT_AMQP_PASS .constant
  obtain ⟨exchange,heap4,copied4,owns,fourth⟩ := copyAllocated_first allocator owns .exchange rfl DEFAULT_AMQP_EXCHANGE .null
  obtain ⟨key,heap5,copied5,owns,fifth⟩ := copyAllocated_first allocator owns .routingKey rfl DEFAULT_AMQP_ROUTINGKEY .null
  let strings : Strings := ⟨.block hostname,.block username,.block password,
    ⟨DEFAULT_AMQP_EXCHANGE.bytes.length,.block exchange⟩,⟨DEFAULT_AMQP_ROUTINGKEY.bytes.length,.block key⟩⟩
  have exchanged := (((first.trans second).trans third).trans fourth).trans fifth
  have place : strings.place = Function.update (Function.update (Function.update (Function.update (Function.update
      (fun _ => none) Text.hostname (some hostname)) .username (some username)) .password (some password))
      .exchange (some exchange)) .routingKey (some key) := by
    funext t
    cases t <;> rfl
  refine ⟨⟨strings,heap5⟩,?_,⟨⟨?_,?_⟩,?_,rfl,rfl⟩,?_⟩
  · simp [setupDefaultConfig,copyStringAllocated,copyAmqpStringAllocated,bootStrings,copied1,copied2,copied3,copied4,copied5,
      strings]
  · rw [place]
    exact owns.apart
  · intro t p here
    obtain ⟨b,found,holds⟩ := owns.held t p (place ▸ here)
    refine ⟨b,found,?_⟩
    cases t <;> exact holds
  · intro t
    cases t <;> exact Option.some_ne_none _
  · rw [boot,place]
    exact exchanged

theorem init_mirrors (allocator : Malloc σ) (argv : List Bytes) (heap : Memory σ) (right : ¬ WrongMode ((argv.drop 1).map cstr)) :
    ∃ m, init allocator argv heap = some m ∧ Mirrors (textOf (defaultSettings.given ((argv.drop 1).map cstr))) m ∧
      Exchanged (places bootStrings.place) (places m.strings.place) heap m.heap := by
  obtain ⟨m,defaults,mirrors,first⟩ := setupDefaultConfig_mirrors allocator heap
  obtain ⟨m',configured,mirrors,second⟩ := setupConfig_mirrors allocator defaultSettings argv 1 mirrors
  rw [configure_right defaultSettings right] at mirrors
  refine ⟨m',?_,mirrors,first.trans second⟩
  simp only [init,defaults,Option.bind_eq_bind,Option.bind_some,configured]

theorem textOf_settles (command : Command) (argv : List Bytes) (s : Settings) (other : command ≠ .connect)
    (another : command ≠ .configSet) : textOf (command.settles argv s) = textOf s := by
  cases command with
  | connect => exact absurd rfl other
  | configSet => exact absurd rfl another
  | fallbackStorageSizeSet =>
    simp only [Command.settles,Command.configure]
    split <;> (funext t; cases t <;> rfl)
  | _ => funext t; cases t <;> rfl

def settled (callback : Callback) (s : Settings) : Settings := match callback.carries with
  | some (command,argv) => command.settles argv s
  | none => s

theorem copies_mirrors (allocator : Malloc σ) (callback : Callback) (s : Settings) (mirrors : Mirrors (textOf s) m) :
    ∃ m', copies allocator callback m = some m' ∧ Mirrors (textOf (settled callback s)) m' ∧
      Exchanged (places m.strings.place) (places m'.strings.place) m.heap m'.heap := by
  rw [copies,settled]
  cases carries : callback.carries with
  | none => exact ⟨m,rfl,mirrors,.refl _ _⟩
  | some carried =>
    obtain ⟨command,argv⟩ := carried
    have alone (other : command ≠ .connect) (another : command ≠ .configSet) :
        Mirrors (textOf (command.settles argv s)) m := by
      rw [textOf_settles command argv s other another]
      exact mirrors
    cases command with
    | connect => exact setupConfig_mirrors allocator s argv 1 mirrors
    | configSet => exact setupConfig_mirrors allocator s argv 1 mirrors
    | _ => exact ⟨m,rfl,alone (by simp) (by simp),.refl _ _⟩

-- Between callbacks the rest of the process does with the heap what it likes, but for the
-- module's own blocks.
def Beside (m : Copies σ) (heap : Memory σ) : Prop := ∀ p ∈ places m.strings.place, heap.lookup p = m.heap.lookup p

inductive Remembers (allocator : Malloc σ) (argv : List Bytes) : List Step → Copies σ → Prop where
  | loaded (made : init allocator argv heap = some m) : Remembers allocator argv [] m
  | stepped (s : Step) (earlier : Remembers allocator argv steps m) (beside : Beside m heap)
      (made : copies allocator s.label.callback {m with heap := heap} = some m') : Remembers allocator argv (steps ++ [s]) m'

theorem Mirrors.beside {texts : Text → CString} (mirrors : Mirrors texts m) (beside : Beside m heap) :
    Mirrors texts {m with heap := heap} :=
  ⟨mirrors.owns.beside beside,mirrors.all,mirrors.exchange,mirrors.routingKey⟩

theorem Remembers.last_step (remembers : Remembers allocator argv (steps ++ [s]) m') : ∃ m heap,
    Remembers allocator argv steps m ∧ Beside m heap ∧ copies allocator s.label.callback {m with heap := heap} = some m' := by
  generalize parts : steps ++ [s] = all at remembers
  cases remembers with
  | loaded made => simp at parts
  | stepped s' earlier beside made =>
    obtain ⟨rfl,same⟩ := List.append_inj' parts rfl
    cases same
    exact ⟨_,_,earlier,beside,made⟩

theorem Remembers.first_step (remembers : Remembers allocator argv [] m) : ∃ heap, init allocator argv heap = some m := by
  generalize parts : ([] : List Step) = all at remembers
  cases remembers with
  | loaded made => exact ⟨_,made⟩
  | stepped s earlier beside made => simp at parts

theorem loaded_given (loaded : Loaded ctx argv storage start) :
    ¬ WrongMode ((argv.drop 1).map cstr) ∧ start.settings = defaultSettings.given ((argv.drop 1).map cstr) := by
  obtain ⟨script,ran⟩ := loaded
  cases onLoad_outcome ran with
  | loaded _ loadable settings => exact ⟨loadable.mode,settings⟩

theorem remembers_mirrors (loaded : Loaded ctx argv storage start) (run : Run start steps last)
    (remembers : Remembers allocator argv steps m) : Mirrors (textOf last.settings) m := by
  induction run generalizing m with
  | nil =>
    obtain ⟨right,given⟩ := loaded_given loaded
    obtain ⟨heap,made⟩ := remembers.first_step
    obtain ⟨m',made',mirrors,_⟩ := init_mirrors allocator argv heap right
    cases made.symm.trans made'
    rw [given]
    exact mirrors
  | @snoc _ _ label _ earlier taken ih =>
    obtain ⟨m,heap,before,beside,made⟩ := remembers.last_step
    obtain ⟨m',made',mirrors,_⟩ := copies_mirrors allocator label.callback _ ((ih before).beside beside)
    cases made.symm.trans made'
    rw [step_settings taken]
    exact mirrors

-- The allocator that takes the lowest free address, so that what was freed is used again.
def lowest : Malloc Unit where
  take _ live _ := (Nat.find (Infinite.exists_notMem_finset live),())
  give _ _ := ()
  fresh _ live _ := Nat.find_spec (Infinite.exists_notMem_finset live)

end KeyspaceAmqp.Allocated
