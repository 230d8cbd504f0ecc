import KeyspaceAmqp.System
import KeyspaceAmqp.Wire
import KeyspaceAmqp.Library.Outbox

namespace KeyspaceAmqp
open Programs Outbox

-- The fallback lists, the counter that stands for their length, and the size they may
-- reach. Nothing else of the world bears on what becomes of an event.
structure Store where
  storage : Int32 → List Bytes
  len : UInt64
  limit : UInt64

def World.store (w : World) : Store :=
  ⟨w.storage,w.fallbackStorageLen,w.settings.fallbackStorageMaxSize⟩

@[simp] theorem store_storage (w : World) : w.store.storage = w.storage := rfl
@[simp] theorem store_len (w : World) : w.store.len = w.fallbackStorageLen := rfl
@[simp] theorem store_limit (w : World) : w.store.limit = w.settings.fallbackStorageMaxSize := rfl

inductive Move where
  | post (db : Int32) (body : CString)
  | keep (db : Int32) (body : CString)
  | drain (db : Int32) (count : Nat) (failed : Bool)
  | resize (limit : UInt64)
  | resync (db : Int32)

-- The eviction test. It asks the counter, never the list.
def Store.Full (s : Store) : Prop := 0 < s.limit ∧ s.limit ≤ s.len

instance (s : Store) : Decidable s.Full := inferInstanceAs (Decidable (_ ∧ _))

def Store.deal (s : Store) : Move → Option (Deal Int32 Bytes)
  | .post db body => some (.post db body.bytes)
  | .keep db body => some (.keep db body.bytes (decide s.Full))
  | .drain db count failed => some (.drain db count failed)
  | .resize _ | .resync _ => none

-- Keeping an event leaves the counter as it was: only a drain and a resync touch it.
def Store.move (s : Store) (m : Move) : Store where
  storage := match s.deal m with
    | some d => d.apply s.storage
    | none => s.storage
  len := match m with
    | .drain _ count _ => s.len-UInt64.ofNat count
    | .resync db => UInt64.ofNat (s.storage db).length
    | _ => s.len
  limit := match m with
    | .resize limit => limit
    | _ => s.limit

def Store.mail (s : Store) (m : Move) : List (Mail Int32 Bytes) := match s.deal m with
  | some d => d.mail s.storage
  | none => []

def Store.Fits (s : Store) (m : Move) : Prop := match s.deal m with
  | some d => d.Fits s.storage
  | none => True

def Store.evicted (s : Store) (db : Int32) : List Bytes := if s.Full then (s.storage db).tail else s.storage db

theorem move_keep (s : Store) (db : Int32) (body : CString) :
    s.move (.keep db body) = {s with storage := Function.update s.storage db (s.evicted db ++ [body.bytes])} := by
  by_cases full : s.Full <;> simp [Store.move,Store.deal,Deal.apply,Store.evicted,full]

theorem mail_keep (s : Store) (db : Int32) (body : CString) : s.mail (.keep db body) =
    [.handed db body.bytes] ++ ((if s.Full ∧ s.storage db ≠ [] then [.taken db] else []) ++
      [.appended db body.bytes]) := by
  simp only [Store.mail,Store.deal,Deal.mail,decide_eq_true_eq,List.append_assoc]

theorem move_drain (s : Store) (db : Int32) (count : Nat) (failed : Bool) : s.move (.drain db count failed) =
    {s with storage := Function.update s.storage db ((s.storage db).drop count),len := s.len-UInt64.ofNat count} := rfl

theorem move_drain_none (s : Store) (db : Int32) (failed : Bool) : s.move (.drain db 0 failed) = s := by
  simp [move_drain]

theorem mail_drain (s : Store) (db : Int32) (count : Nat) (failed : Bool) : s.mail (.drain db count failed) =
    ((s.storage db).take count).flatMap (fun body => [.taken db,.sent body]) ++
      if failed then [.taken db,.returned db] else [] := rfl

theorem fits_drain (s : Store) (db : Int32) (count : Nat) (failed : Bool) : s.Fits (.drain db count failed) ↔
    if failed then count < (s.storage db).length else count = (s.storage db).length := Iff.rfl

theorem drain_count {s : Store} (fits : s.Fits (.drain db count failed)) : count ≤ (s.storage db).length := by
  have fits := (fits_drain s db count failed).mp fits
  split at fits <;> omega

theorem drain_complete {s : Store} (fits : s.Fits (.drain db count false)) :
    (s.move (.drain db count false)).storage db = [] ∧
      sent (s.mail (.drain db count false)) = s.storage db ∧ handed (s.mail (.drain db count false)) = [] := by
  have all : count = (s.storage db).length := fits
  have mails := drain_mail s.storage db count false
  refine ⟨by simp [move_drain,all],mails.2.trans ?_,mails.1⟩
  rw [all,List.take_length]

def Store.moves (s : Store) (ms : List Move) : Store := ms.foldl Store.move s

def Store.mails : Store → List Move → List (Mail Int32 Bytes)
  | _,[] => []
  | s,m :: rest => s.mail m ++ (s.move m).mails rest

def Store.AllFit : Store → List Move → Prop
  | _,[] => True
  | s,m :: rest => s.Fits m ∧ (s.move m).AllFit rest

@[simp] theorem moves_cons (s : Store) (m : Move) (rest : List Move) : s.moves (m :: rest) = (s.move m).moves rest := rfl

theorem moves_append (s : Store) (first second : List Move) :
    s.moves (first ++ second) = (s.moves first).moves second := List.foldl_append

theorem mails_append (s : Store) (first second : List Move) :
    s.mails (first ++ second) = s.mails first ++ (s.moves first).mails second := by
  induction first generalizing s with
  | nil => rfl
  | cons m rest ih => simp [Store.mails,Store.moves,ih]

theorem fit_append {s : Store} (one : s.AllFit first) (two : (s.moves first).AllFit second) :
    s.AllFit (first ++ second) := by
  induction first generalizing s with
  | nil => exact two
  | cons m rest ih => exact ⟨one.1,ih one.2 two⟩

-- The lists hold C strings: the module never stores anything else.
def Clean (storage : Int32 → List Bytes) : Prop := ∀ db, ∀ bytes ∈ storage db, 0 ∉ bytes

theorem clean_update (clean : Clean storage) (db : Int32) (ok : ∀ bytes ∈ list, 0 ∉ bytes) :
    Clean (Function.update storage db list) := by
  intro q
  by_cases same : q = db
  · subst same; simpa using ok
  · simpa [same] using clean q

theorem clean_move (s : Store) (clean : Clean s.storage) (m : Move) : Clean (s.move m).storage := by
  cases m with
  | post db body => exact clean
  | resize limit => exact clean
  | resync db => exact clean
  | drain db count failed =>
    exact clean_update clean db fun bytes member => clean db bytes (List.mem_of_mem_drop member)
  | keep db body =>
    refine clean_update clean db ?_
    intro bytes member
    rcases List.mem_append.mp member with old | new
    · split at old
      · exact clean db bytes (List.mem_of_mem_tail old)
      · exact clean db bytes old
    · cases List.mem_singleton.mp new; exact body.noNul

theorem clean_moves (s : Store) (clean : Clean s.storage) (ms : List Move) : Clean (s.moves ms).storage := by
  induction ms generalizing s with
  | nil => exact clean
  | cons m rest ih => exact ih _ (clean_move s clean m)

-- What a call means for the events: the broker has a body once amqp_basic_publish
-- returned AMQP_STATUS_OK for it.
def Call.mail : Call → Option (Mail Int32 Bytes)
  | .publishEvent db body => some (.handed db body.bytes)
  | .amqp _ (.basicPublish _ _ _ body status) => if status = AMQP_STATUS_OK then some (.sent body) else none
  | .listPop key (some _) => some (.taken key.db)
  | .listPush key .head _ => some (.returned key.db)
  | .listPush key .tail pushed => some (.appended key.db pushed.bytes)
  | _ => none

def mail (calls : List Call) : List (Mail Int32 Bytes) := calls.filterMap Call.mail

@[simp] theorem mail_append (a b : List Call) : mail (a ++ b) = mail a ++ mail b := List.filterMap_append

def handedOver (calls : List Call) : List (Int32 × Bytes) := calls.filterMap fun
  | .publishEvent db body => some (db,body.bytes)
  | _ => none
def delivered (calls : List Call) : List Bytes := calls.filterMap fun
  | .amqp _ (.basicPublish _ _ _ body status) => if status = AMQP_STATUS_OK then some body else none
  | _ => none

@[simp] theorem handedOver_append (a b : List Call) : handedOver (a ++ b) = handedOver a ++ handedOver b :=
  List.filterMap_append
@[simp] theorem delivered_append (a b : List Call) : delivered (a ++ b) = delivered a ++ delivered b :=
  List.filterMap_append

theorem handed_mail (calls : List Call) : handed (mail calls) = handedOver calls := by
  unfold handed mail handedOver
  rw [List.filterMap_filterMap]
  congr 1
  funext c
  cases c with
  | amqp conn call => cases call <;> simp only [Call.mail,Option.bind_none]; split <;> rfl
  | listPop key popped => cases popped <;> rfl
  | listPush key place pushed => cases place <;> rfl
  | _ => rfl

theorem sent_mail (calls : List Call) : sent (mail calls) = delivered calls := by
  unfold sent mail delivered
  rw [List.filterMap_filterMap]
  congr 1
  funext c
  cases c with
  | amqp conn call => cases call <;> simp only [Call.mail,Option.bind_none]; split <;> rfl
  | listPop key popped => cases popped <;> rfl
  | listPush key place pushed => cases place <;> rfl
  | _ => rfl

def Call.database : Call → Option Int32
  | .publishEvent db _ => some db
  | .openKey db _ _ => some db
  | .closeKey key | .deleteKey key | .valueLength key | .listPop key _ | .listPush key _ _ => some key.db
  | _ => none

-- From one world to another the store made these moves and no others, all of its calls
-- were on one database, and the key was deleted only at the end of a drain.
structure Effect (db : Int32) (w w' : World) (ms : List Move) : Prop where
  store : w'.store = w.store.moves ms
  fit : w.store.AllFit ms
  calls : ∃ calls, w'.trace = w.trace ++ calls ∧
    (Clean w.storage → mail calls = w.store.mails ms) ∧
    (∀ c ∈ calls, ∀ p, c.database = some p → p = db) ∧
    ∀ key, .deleteKey key ∈ calls → ∃ count, .drain db count false ∈ ms

theorem Effect.refl (db : Int32) (w : World) : Effect db w w [] :=
  ⟨rfl,trivial,[],by simp,fun _ => rfl,by simp,by simp⟩

theorem Effect.trans (one : Effect db w m first) (two : Effect db m w' second) :
    Effect db w w' (first ++ second) := by
  obtain ⟨earlier,added,mailed,within,swept⟩ := one.calls
  obtain ⟨later,added',mailed',within',swept'⟩ := two.calls
  refine ⟨?_,?_,earlier ++ later,?_,?_,?_,?_⟩
  · rw [two.store,one.store,moves_append]
  · exact fit_append one.fit (one.store ▸ two.fit)
  · rw [added',added,List.append_assoc]
  · intro clean
    have still : Clean m.storage := by
      have moved : m.storage = (w.store.moves first).storage := congrArg Store.storage one.store
      exact moved ▸ clean_moves w.store clean first
    rw [mail_append,mailed clean,mailed' still,mails_append,one.store]
  · intro c member
    exact (List.mem_append.mp member).elim (within c) (within' c)
  · intro key member
    rcases List.mem_append.mp member with early | late
    · exact (swept key early).imp fun _ => List.mem_append_left _
    · exact (swept' key late).imp fun _ => List.mem_append_right _

theorem Call.wire_mail {c : Call} (wire : c.wire = true) : c.mail = none ∧ c.database = none := by
  cases c with
  | amqp conn call => cases call <;> simp_all [Call.wire,Call.mail,Call.database]
  | _ => simp [Call.wire] at wire

theorem Wire.store (wire : Wire w w') : w'.store = w.store := by
  obtain ⟨_,_,_,_,rfl,_⟩ := wire; rfl

def Tells (db : Int32) (w w' : World) (mails : List (Mail Int32 Bytes)) : Prop :=
  ∃ calls, w'.trace = w.trace ++ calls ∧ mail calls = mails ∧
    (∀ c ∈ calls, ∀ p, c.database = some p → p = db) ∧ ∀ key, .deleteKey key ∉ calls

theorem Tells.trans (one : Tells db w m first) (two : Tells db m w' second) : Tells db w w' (first ++ second) := by
  obtain ⟨earlier,added,rfl,within,keeps⟩ := one
  obtain ⟨later,added',rfl,within',keeps'⟩ := two
  refine ⟨earlier ++ later,by rw [added',added,List.append_assoc],mail_append _ _,?_,?_⟩
  · intro c member
    exact (List.mem_append.mp member).elim (within c) (within' c)
  · intro key member
    exact (List.mem_append.mp member).elim (keeps key) (keeps' key)

theorem Tells.nothing (db : Int32) (same : w'.trace = w.trace) : Tells db w w' [] :=
  ⟨[],by simp [same],rfl,by simp,by simp⟩

theorem Tells.once {call : Call} (db : Int32) (added : w'.trace = w.trace ++ [call])
    (within : ∀ p, call.database = some p → p = db) (keeps : ∀ key, call ≠ .deleteKey key) :
    Tells db w w' call.mail.toList := by
  refine ⟨[call],added,?_,by simpa using within,by simpa using fun key => (keeps key).symm⟩
  cases meaning : call.mail <;> simp [mail,meaning]

theorem Wire.tells (wire : Wire w w') (db : Int32) : Tells db w w' [] := by
  obtain ⟨_,_,_,calls,rfl,all⟩ := wire
  refine ⟨calls,rfl,?_,?_,?_⟩
  · exact List.filterMap_eq_nil_iff.mpr fun c member => (Call.wire_mail (all c member)).1
  · intro c member p inside
    rw [(Call.wire_mail (all c member)).2] at inside
    cases inside
  · intro key member
    cases all _ member

theorem Effect.told (store : w'.store = w.store.moves ms) (fit : w.store.AllFit ms) (tells : Tells db w w' mails)
    (meaning : Clean w.storage → mails = w.store.mails ms) : Effect db w w' ms := by
  obtain ⟨calls,added,mailed,within,keeps⟩ := tells
  exact ⟨store,fit,calls,added,fun clean => mailed.trans (meaning clean),within,
    fun key member => absurd member (keeps key)⟩

theorem Effect.quiet (store : w'.store = w.store) (tells : Tells db w w' []) : Effect db w w' [] :=
  .told store trivial tells fun _ => rfl

theorem Wire.effect (wire : Wire w w') (db : Int32) : Effect db w w' [] := .quiet wire.store (wire.tells db)

end KeyspaceAmqp
