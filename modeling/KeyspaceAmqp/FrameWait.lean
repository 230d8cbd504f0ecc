import KeyspaceAmqp.System
import KeyspaceAmqp.Wire
import Mathlib.Data.Seq.Basic

namespace KeyspaceAmqp
open Programs

-- What amqp_simple_wait_frame_noblock returns, and the frame it writes to its caller's
-- variable, which it leaves alone unless it returns AMQP_STATUS_OK.
structure WaitResult where
  status : Int32
  written : Option Frame
  untouched : status ≠ AMQP_STATUS_OK → written = none

def WaitResult.answer (result : WaitResult) : Answer := .waited result.status result.written
def WaitResult.left (result : WaitResult) (frame : Frame) : Frame := result.written.getD frame

def WaitResult.GoesOn (result : WaitResult) (frame : Frame) : Prop := KeyspaceAmqp.GoesOn result.status (result.left frame)

def held (frame : Frame) (results : Stream'.Seq WaitResult) : Nat → Frame
  | 0 => frame
  | k+1 => match results.get? k with
    | none => held frame results k
    | some result => result.left (held frame results k)

def waits (w : World) (frame : Frame) (results : Stream'.Seq WaitResult) (n : Nat) : Option (Int32 × World) :=
  amqpWaitFrame {w with script := .garbage frame :: (results.take n).map WaitResult.answer}

def Returns (w : World) (frame : Frame) (results : Stream'.Seq WaitResult) (n : Nat) (res : Int32) : Prop :=
  ∃ w', waits w frame results n = some (res,w') ∧ w'.script = []

def Asks (w : World) (frame : Frame) (results : Stream'.Seq WaitResult) (n : Nat) : Prop :=
  ∀ m ≤ n, ∀ res, ¬ Returns w frame results m res

theorem take_snoc {results : Stream'.Seq α} (here : results.get? k = some a) : results.take (k+1) = results.take k ++ [a] := by
  refine List.ext_getElem? fun i => ?_
  have length : (results.take k).length = k :=
    Stream'.Seq.length_take_of_le_length fun ended => (Stream'.Seq.lt_length_iff.mpr ⟨a,here⟩).le
  rcases Nat.lt_trichotomy i k with before | rfl | after
  · rw [List.getElem?_append_left (by omega),Stream'.Seq.getElem?_take,Stream'.Seq.getElem?_take,if_pos before,
      if_pos (before.trans k.lt_succ_self)]
  · simp [Stream'.Seq.getElem?_take,length,here]
  · rw [Stream'.Seq.getElem?_take,if_neg (by omega),List.getElem?_eq_none (by simp [length]; omega)]

theorem take_ended {results : Stream'.Seq α} (ended : results.get? k = none) : results.take (k+1) = results.take k := by
  refine List.ext_getElem? fun i => ?_
  rw [Stream'.Seq.getElem?_take,Stream'.Seq.getElem?_take]
  rcases Nat.lt_trichotomy i k with before | rfl | after
  · rw [if_pos before,if_pos (before.trans k.lt_succ_self)]
  · simp [ended]
  · rw [if_neg (by omega),if_neg (by omega)]

def Spins (frame : Frame) (results : Stream'.Seq WaitResult) (k : Nat) : Prop :=
  ∀ j < k, ∀ result, results.get? j = some result → result.GoesOn (held frame results j)

theorem waitLoop_spins {results : Stream'.Seq WaitResult} (conn : Option Nat) (spins : Spins frame results k) (rest : List Answer) : ∃ more,
    waitLoop conn ((results.take k).map WaitResult.answer ++ rest) frame [] =
      waitLoop conn rest (held frame results k) more := by
  induction k generalizing rest with
  | zero => exact ⟨[],by simp [held]⟩
  | succ k ih =>
    have earlier : Spins frame results k := fun j before => spins j (before.trans k.lt_succ_self)
    cases here : results.get? k with
    | none =>
      rw [take_ended here]
      simpa [held,here] using ih earlier rest
    | some result =>
      obtain ⟨more,looped⟩ := ih earlier (result.answer :: rest)
      rw [take_snoc here,List.map_append,List.append_assoc]
      simp only [held,here]
      exact ⟨_,looped.trans (waitLoop_on (spins k k.lt_succ_self result here))⟩

theorem waits_eq (w : World) (frame : Frame) (results : Stream'.Seq WaitResult) (n : Nat) : waits w frame results n =
    (waitLoop w.conn ((results.take n).map WaitResult.answer) frame []).map fun (res,rest,made) =>
      (res,{w with script := rest,trace := w.trace ++ made}) := rfl

theorem waits_ends : waits w frame results n = some (res,w') ↔ ∃ rest made,
    waitLoop w.conn ((results.take n).map WaitResult.answer) frame [] = some (res,rest,made) ∧
      {w with script := rest,trace := w.trace ++ made} = w' := by
  rw [waits_eq,Option.map_eq_some_iff]
  constructor
  · rintro ⟨⟨_,rest,made⟩,looped,same⟩
    cases same
    exact ⟨rest,made,looped,rfl⟩
  · rintro ⟨rest,made,looped,rfl⟩
    exact ⟨_,looped,rfl⟩

theorem Spins.asks (spins : Spins frame results k) (w : World) : Asks w frame results k := by
  rintro m before res ⟨w',returned,_⟩
  have spins : Spins frame results m := fun j below => spins j (below.trans_le before)
  obtain ⟨rest,made,looped,_⟩ := waits_ends.mp returned
  obtain ⟨_,same⟩ := waitLoop_spins w.conn spins []
  rw [List.append_nil] at same
  cases looped.symm.trans same

theorem Spins.returns {result : WaitResult} (spins : Spins frame results k) (here : results.get? k = some result)
    (off : ¬ result.GoesOn (held frame results k)) (w : World) :
    Returns w frame results (k+1) (verdict (result.left (held frame results k)) result.status) := by
  obtain ⟨_,looped⟩ := waitLoop_spins w.conn spins [result.answer]
  obtain ⟨_,_,stopped⟩ := waitLoop_off off
  rw [← List.map_singleton,← List.map_append,← take_snoc here] at looped
  exact ⟨_,waits_ends.mpr ⟨_,_,looped.trans (stopped _ _ _),rfl⟩,rfl⟩

theorem asks_spins (asks : Asks w frame results k) : Spins frame results k := by
  induction k with
  | zero => exact fun j below => absurd below j.not_lt_zero
  | succ k ih =>
    have earlier := ih fun m before => asks m (before.trans k.le_succ)
    intro j below result here
    rcases Nat.lt_succ_iff_lt_or_eq.mp below with before | rfl
    · exact earlier j before result here
    · by_contra off
      exact asks _ (Nat.le_refl _) _ (earlier.returns here off w)

theorem returns_off {result : WaitResult} (asks : Asks w frame results k) (here : results.get? k = some result)
    (returned : Returns w frame results (k+1) res) : ¬ result.GoesOn (held frame results k) := by
  intro on
  have spins : Spins frame results (k+1) := by
    intro j below other there
    rcases Nat.lt_succ_iff_lt_or_eq.mp below with before | rfl
    · exact asks_spins asks j before other there
    · cases here.symm.trans there
      exact on
  exact spins.asks w _ (Nat.le_refl _) res returned

-- A call that fails ends the wait with a failure, and so does a frame that closes the
-- connection or its channel; and a library that has nothing more to deliver does not
-- keep the wait going.
structure Reports (w : World) (frame : Frame) (results : Stream'.Seq WaitResult) : Prop where
  errors : ∀ k result, results.get? k = some result → Asks w frame results k →
    result.status ≠ AMQP_STATUS_OK → result.status ≠ AMQP_STATUS_TIMEOUT →
      ∃ res, Returns w frame results (k+1) res ∧ res ≠ AMQP_STATUS_OK
  closes : ∀ k result last, results.get? k = some result → Asks w frame results k →
    result.written = some last → last.closing = true →
      ∃ res, Returns w frame results (k+1) res ∧ res ≠ AMQP_STATUS_OK
  ends : (∀ k, results.get? k ≠ none) →
    (∃ n, ∀ k ≥ n, ∀ result, results.get? k = some result → result.status ≠ AMQP_STATUS_OK) →
      ∃ n res, Returns w frame results n res

-- Where calls have all returned AMQP_STATUS_OK and left ordinary frames, and the next one
-- fails in another way than by the connection's closing, no ordinary frame is held.
def FailsBare (frame : Frame) (results : Stream'.Seq WaitResult) : Prop :=
  ∀ k result, results.get? k = some result →
    result.status ≠ AMQP_STATUS_OK → result.status ≠ AMQP_STATUS_TIMEOUT → result.status ≠ AMQP_STATUS_CONNECTION_CLOSED →
    (∀ j < k, ∀ earlier, results.get? j = some earlier →
      earlier.status = AMQP_STATUS_OK ∧ (held frame results (j+1)).ordinary) →
    ¬ (held frame results k).ordinary

theorem WaitResult.left_failed {result : WaitResult} (failed : result.status ≠ AMQP_STATUS_OK) (frame : Frame) :
    result.left frame = frame := by
  rw [WaitResult.left,result.untouched failed]
  rfl

theorem held_succ {result : WaitResult} (here : results.get? k = some result) :
    held frame results (k+1) = result.left (held frame results k) := by
  simp [held,here]

theorem verdict_failed (failed : status ≠ AMQP_STATUS_OK) (awake : status ≠ AMQP_STATUS_TIMEOUT) (frame : Frame) :
    verdict frame status ≠ AMQP_STATUS_OK := by
  unfold verdict
  split
  · decide
  · exact failed

theorem FailsBare.fine (bare : FailsBare frame results) (spins : Spins frame results k) :
    ∀ j < k, ∀ result, results.get? j = some result →
      result.status = AMQP_STATUS_OK ∧ (held frame results (j+1)).ordinary := by
  intro j
  induction j using Nat.strong_induction_on with
  | _ j ih =>
    intro below result here
    obtain ⟨alive,awake,ordinary⟩ := spins j below result here
    refine ⟨?_,held_succ here ▸ ordinary⟩
    by_contra failed
    rw [result.left_failed failed] at ordinary
    exact bare j result here failed awake alive
      (fun i before earlier there => ih i before (before.trans below) earlier there) ordinary

theorem FailsBare.errors (bare : FailsBare frame results) {result : WaitResult} (here : results.get? k = some result)
    (asks : Asks w frame results k) (failed : result.status ≠ AMQP_STATUS_OK)
    (awake : result.status ≠ AMQP_STATUS_TIMEOUT) :
    ∃ res, Returns w frame results (k+1) res ∧ res ≠ AMQP_STATUS_OK := by
  have spins := asks_spins asks
  refine ⟨_,spins.returns here ?_ w,verdict_failed failed awake _⟩
  rintro ⟨alive,_,ordinary⟩
  rw [result.left_failed failed] at ordinary
  exact bare k result here failed awake alive (bare.fine spins) ordinary

theorem FailsBare.reports (bare : FailsBare frame results) (w : World) : Reports w frame results where
  errors _ _ here asks failed awake := bare.errors here asks failed awake
  closes k result last here asks wrote closing := by
    have left : result.left (held frame results k) = last := by simp [WaitResult.left,wrote]
    refine ⟨_,(asks_spins asks).returns here ?_ w,?_⟩
    · rintro ⟨_,_,ordinary⟩
      rw [left] at ordinary
      exact absurd (closing.symm.trans ordinary.1) (by decide)
    · rw [left,verdict,if_pos closing]
      decide
  ends more quiet := by
    obtain ⟨n,quiet⟩ := quiet
    by_contra never
    have asks (k : Nat) : Asks w frame results k := fun m _ res returned => never ⟨m,res,returned⟩
    obtain ⟨result,here⟩ := Option.ne_none_iff_exists'.mp (more n)
    by_cases waiting : result.status = AMQP_STATUS_TIMEOUT
    · exact never ⟨_,_,(asks_spins (asks n)).returns here (fun on => on.2.1 waiting) w⟩
    · obtain ⟨_,returned,_⟩ := bare.errors here (asks n) (quiet n (Nat.le_refl _) result here) waiting
      exact never ⟨_,_,returned⟩

theorem wait_reports_iff (w : World) (frame : Frame) (results : Stream'.Seq WaitResult) :
    Reports w frame results ↔ FailsBare frame results := by
  refine ⟨fun reports => ?_,fun bare => bare.reports w⟩
  intro k result here failed awake alive fine ordinary
  have spins : Spins frame results k := by
    intro j below earlier there
    obtain ⟨ok,kept⟩ := fine j below earlier there
    rw [WaitResult.GoesOn,ok,← held_succ there]
    exact ⟨by decide,by decide,kept⟩
  have asks := spins.asks w
  obtain ⟨_,returned,_⟩ := reports.errors k result here asks failed awake
  refine returns_off asks here returned ⟨alive,awake,?_⟩
  rwa [result.left_failed failed]

def blockedThenDead : Stream'.Seq WaitResult :=
  .cons ⟨AMQP_STATUS_OK,some ⟨AMQP_FRAME_METHOD,0,0x000A003C⟩,fun failed => absurd rfl failed⟩
    (Stream'.Seq.ofStream (Stream'.const ⟨-9,none,fun _ => rfl⟩))

theorem dead_socket_spins : (∀ k, (blockedThenDead.get? (k+1)).map WaitResult.status = some (-9)) ∧
    (∀ n res, ¬ Returns (boot fun _ => []) ⟨0,0,0⟩ blockedThenDead n res) ∧
    ¬ Reports (boot fun _ => []) ⟨0,0,0⟩ blockedThenDead := by
  have dead (k : Nat) : blockedThenDead.get? (k+1) = some ⟨-9,none,fun _ => rfl⟩ := rfl
  have kept (k : Nat) : held ⟨0,0,0⟩ blockedThenDead (k+1) = ⟨AMQP_FRAME_METHOD,0,0x000A003C⟩ := by
    induction k with
    | zero => rfl
    | succ k ih => rw [held_succ (dead k),ih]; rfl
  have spins (n : Nat) : Spins ⟨0,0,0⟩ blockedThenDead n := by
    intro j _ result here
    cases j with
    | zero => cases here; exact ⟨by decide,by decide,by decide⟩
    | succ j =>
      cases (dead j).symm.trans here
      rw [WaitResult.GoesOn,kept j]
      exact ⟨by decide,by decide,by decide⟩
  have never (n : Nat) (res : Int32) : ¬ Returns (boot fun _ => []) ⟨0,0,0⟩ blockedThenDead n res :=
    (spins n).asks _ n (Nat.le_refl n) res
  refine ⟨fun k => by rw [dead k]; rfl,never,fun reports => ?_⟩
  obtain ⟨_,returned,_⟩ := reports.errors 1 _ (dead 0) ((spins 1).asks _) (by decide) (by decide)
  exact never _ _ returned

theorem waitLoop_written {result : WaitResult} (wrote : result.written = some written) (frame other : Frame) :
    waitLoop conn (result.answer :: rest) frame said = waitLoop conn (result.answer :: rest) other said := by
  simp only [WaitResult.answer,wrote,waitLoop,Option.getD_some]

def IgnoresGarbage (w : World) (results : Stream'.Seq WaitResult) : Prop :=
  ∀ frame other n, waits w frame results n = waits w other results n

theorem wait_ignores_garbage_iff (w : World) (results : Stream'.Seq WaitResult) :
    IgnoresGarbage w results ↔ ∀ first, results.get? 0 = some first → first.written ≠ none := by
  constructor
  · intro same first here untouched
    have one : (results.take 1).map WaitResult.answer = [.waited first.status none] := by
      rw [take_snoc here,← untouched]
      rfl
    -- What looks like a closing frame is answered, what looks like no frame is not.
    have closing : waitLoop w.conn [.waited first.status none] ⟨AMQP_FRAME_METHOD,1,AMQP_CHANNEL_CLOSE_METHOD⟩ [] =
        some (AMQP_STATUS_CONNECTION_CLOSED,[],[.amqp w.conn (.simpleWaitFrameNoblock first.status),
          .amqp w.conn (.sendMethod 1 AMQP_CHANNEL_CLOSE_OK_METHOD)]) := rfl
    have empty : ∃ res, waitLoop w.conn [.waited first.status none] ⟨0,0,0⟩ [] =
        some (res,[],[.amqp w.conn (.simpleWaitFrameNoblock first.status)]) := by
      have connection : isMethod ⟨0,0,0⟩ AMQP_CONNECTION_CLOSE_METHOD = false := by decide
      have channel : isMethod ⟨0,0,0⟩ AMQP_CHANNEL_CLOSE_METHOD = false := by decide
      simp [waitLoop,connection,channel]
    obtain ⟨res,empty⟩ := empty
    have calls := congrArg (Option.map fun r : Int32 × World => r.2.trace)
      (same ⟨AMQP_FRAME_METHOD,1,AMQP_CHANNEL_CLOSE_METHOD⟩ ⟨0,0,0⟩ 1)
    simp [waits_eq,one,closing,empty] at calls
  · intro writes frame other n
    rw [waits_eq,waits_eq]
    cases results with
    | nil => simp [waitLoop]
    | cons first later =>
      cases n with
      | zero => simp [waitLoop]
      | succ n =>
        obtain ⟨written,wrote⟩ := Option.ne_none_iff_exists'.mp (writes first rfl)
        rw [Stream'.Seq.take_succ_cons,List.map_cons,waitLoop_written wrote frame other]

def nothingNew : Stream'.Seq WaitResult := .cons ⟨AMQP_STATUS_TIMEOUT,none,fun _ => rfl⟩ .nil

theorem garbage_closes :
    (waits (boot fun _ => []) ⟨AMQP_FRAME_METHOD,1,AMQP_CHANNEL_CLOSE_METHOD⟩ nothingNew 1).map Prod.fst =
      some AMQP_STATUS_CONNECTION_CLOSED ∧
    (waits (boot fun _ => []) ⟨0,0,0⟩ nothingNew 1).map Prod.fst = some AMQP_STATUS_OK ∧
    ¬ IgnoresGarbage (boot fun _ => []) nothingNew := by
  have closed : (waits (boot fun _ => []) ⟨AMQP_FRAME_METHOD,1,AMQP_CHANNEL_CLOSE_METHOD⟩ nothingNew 1).map Prod.fst =
    some AMQP_STATUS_CONNECTION_CLOSED := rfl
  have fine : (waits (boot fun _ => []) ⟨0,0,0⟩ nothingNew 1).map Prod.fst = some AMQP_STATUS_OK := rfl
  refine ⟨closed,fine,fun same => ?_⟩
  rw [same _ ⟨0,0,0⟩,fine] at closed
  exact absurd closed (by decide)

end KeyspaceAmqp
