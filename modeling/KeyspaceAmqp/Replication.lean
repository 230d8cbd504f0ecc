import KeyspaceAmqp.Draining
import KeyspaceAmqp.Library.Copies

namespace KeyspaceAmqp
open Programs Paths Outbox Copies

structure Pair where
  node : Side → World
  master : Side

inductive Deed where
  | turn (side : Side) (turn : Turn)
  | resync
  | failover

-- A full resynchronisation copies the master's data to the replica, and with them the
-- fallback lists; the module's globals stay.
def World.resynced (w source : World) : World := {w with storage := source.storage}

-- A callback's context flags say which role its node has.
def Pair.next (p : Pair) : Deed → Option Pair
  | .turn side turn =>
    if isRedisMaster turn.callback.ctx = decide (side = p.master) then
      (step (p.node side) turn).map fun w => {p with node := Function.update p.node side w}
    else none
  | .resync =>
    let replica := (p.node p.master.other).resynced (p.node p.master)
    some {p with node := Function.update p.node p.master.other replica}
  | .failover => some {p with master := p.master.other}

abbrev PairStep := Edge Pair Deed
abbrev PairRun (start : Pair) (steps : List PairStep) (last : Pair) : Prop := Path Pair.next start steps last

def deliveredBy (steps : List PairStep) : List Bytes := steps.flatMap fun s => match s.label with
  | .turn side _ => delivered (s.after.node side).trace
  | _ => []
def occurredIn (steps : List PairStep) : List Bytes := steps.flatMap fun s => match s.label with
  | .turn _ turn => occurrence turn.callback
  | _ => []

def shareAfter (q : Int32) (share : Share) (s : PairStep) : Share := match s.label with
  | .turn side turn => if turn.callback.ctx.db = q ∧ Drains (s.before.node side) turn then share.sends side else share
  | .resync => share.copied s.before.master (decide ((s.before.node s.before.master).storage q = []))
  | .failover => share

def sharing (steps : List PairStep) (q : Int32) : Share := steps.foldl (shareAfter q) .apart

-- A node that sends a stored event sends none of which a copy has been sent.
def SendsFresh (done : List PairStep) (s : PairStep) : Prop := match s.label with
  | .turn side turn => Drains (s.before.node side) turn → (sharing done turn.callback.ctx.db).Fresh side
  | _ => True

theorem deliveredBy_snoc (steps : List PairStep) (s : PairStep) :
    deliveredBy (steps ++ [s]) = deliveredBy steps ++ deliveredBy [s] := List.flatMap_append

theorem occurredIn_snoc (steps : List PairStep) (s : PairStep) :
    occurredIn (steps ++ [s]) = occurredIn steps ++ occurredIn [s] := List.flatMap_append

theorem sharing_snoc (steps : List PairStep) (s : PairStep) (q : Int32) :
    sharing (steps ++ [s]) q = shareAfter q (sharing steps q) s := List.foldl_concat _ _ _ _

theorem shareAfter_turn {s : PairStep} (label : s.label = .turn side turn) (q : Int32) (share : Share) :
    shareAfter q share s =
      if turn.callback.ctx.db = q ∧ Drains (s.before.node side) turn then share.sends side else share := by
  simp only [shareAfter,label]

def Pair.copies (p : Pair) (body : Bytes) (q : Int32) (side : Side) : Nat := ((p.node side).storage q).count body

structure Accounted (body : Bytes) (done : List PairStep) (p : Pair) : Prop where
  clean : ∀ side, Clean (p.node side).storage
  bounded : ∃ bound : Int32 → Nat, (∀ q, (sharing done q).Covers (p.copies body q) (bound q)) ∧
    (deliveredBy done).count body + ∑ q, bound q ≤ (occurredIn done).count body

theorem turn_accounted {s : PairStep} (label : s.label = .turn side turn) (taken : s.before.next s.label = some s.after)
    (fresh : SendsFresh done s) (old : Accounted body done s.before) : Accounted body (done ++ [s]) s.after := by
  obtain ⟨clean,bound,covers,balance⟩ := old
  simp only [label,Pair.next,Option.ite_none_right_eq_some,Option.map_eq_some_iff] at taken
  obtain ⟨_,w,taken,after⟩ := taken
  obtain ⟨others,most,undrained⟩ := turn_counts taken (clean side) body
  let q := turn.callback.ctx.db
  have node : s.after.node = Function.update s.before.node side w := by rw [← after]
  have delivers : deliveredBy [s] = delivered w.trace := by simp [deliveredBy,label,node]
  have occurs : occurredIn [s] = occurrence turn.callback := by simp [occurredIn,label]
  have here : s.after.copies body q = Function.update (s.before.copies body q) side ((w.storage q).count body) := by
    funext either
    by_cases same : either = side
    · subst same
      simp [Pair.copies,node]
    · simp [Pair.copies,node,same]
  have elsewhere (p : Int32) (other : p ≠ q) : s.after.copies body p = s.before.copies body p := by
    funext either
    by_cases same : either = side
    · subst same
      simp [Pair.copies,node,others p other]
    · simp [Pair.copies,node,same]
  have counted : ∃ rest, (shareAfter q (sharing done q) s).Covers (s.after.copies body q) rest ∧
      rest + (delivered w.trace).count body ≤ bound q + (occurrence turn.callback).count body := by
    rw [here,shareAfter_turn label]
    by_cases drains : Drains (s.before.node side) turn
    · rw [if_pos ⟨rfl,drains⟩]
      rw [SendsFresh,label] at fresh
      exact covers_sends (covers q) (fresh drains) most
    · rw [if_neg fun both => drains both.2]
      obtain ⟨kept,stays,sends⟩ := undrained drains
      exact ⟨_,covers_keeps (covers q) stays,by omega⟩
  obtain ⟨rest,covered,spent⟩ := counted
  refine ⟨?_,Function.update bound q rest,?_,?_⟩
  · intro either
    by_cases same : either = side
    · subst same
      simpa [node] using clean_step taken (clean either)
    · simpa [node,same] using clean either
  · intro p
    rw [sharing_snoc]
    by_cases same : p = q
    · subst same
      simpa using covered
    · rw [Function.update_of_ne same,elsewhere p same,shareAfter_turn label,if_neg fun both => same both.1.symm]
      exact covers p
  · have moved := sum_update bound q rest
    rw [deliveredBy_snoc,occurredIn_snoc,delivers,occurs,List.count_append,List.count_append]
    omega

theorem resync_accounted {s : PairStep} (label : s.label = .resync) (taken : s.before.next s.label = some s.after)
    (old : Accounted body done s.before) : Accounted body (done ++ [s]) s.after := by
  obtain ⟨clean,bound,covers,balance⟩ := old
  simp only [label,Pair.next,Option.some.injEq] at taken
  let source := s.before.master
  have copied : ∀ side, (s.after.node side).storage = (s.before.node source).storage := by
    intro side
    rw [← taken]
    rcases side.eq_or_other source with same | same
    · rw [same]
      exact congrArg World.storage (Function.update_of_ne source.other_ne.symm _ _)
    · rw [same]
      simp [source,World.resynced]
  refine ⟨fun side => copied side ▸ clean source,bound,?_,?_⟩
  · intro q
    have here : s.after.copies body q = fun _ => s.before.copies body q source := by
      funext side
      rw [Pair.copies,copied]
      rfl
    rw [sharing_snoc,here,shareAfter,label]
    refine covers_copied (covers q) source fun empty => ?_
    have empty : (s.before.node source).storage q = [] := of_decide_eq_true empty
    simp [Pair.copies,empty]
  · rw [deliveredBy_snoc,occurredIn_snoc]
    simpa [deliveredBy,occurredIn,label] using balance

theorem failover_accounted {s : PairStep} (label : s.label = .failover) (taken : s.before.next s.label = some s.after)
    (old : Accounted body done s.before) : Accounted body (done ++ [s]) s.after := by
  obtain ⟨clean,bound,covers,balance⟩ := old
  simp only [label,Pair.next,Option.some.injEq] at taken
  have node : s.after.node = s.before.node := by rw [← taken]
  refine ⟨fun side => node ▸ clean side,bound,?_,?_⟩
  · intro q
    have here : s.after.copies body q = s.before.copies body q := by
      funext side
      rw [Pair.copies,node]
      rfl
    rw [sharing_snoc,here,shareAfter,label]
    exact covers q
  · rw [deliveredBy_snoc,occurredIn_snoc]
    simpa [deliveredBy,occurredIn,label] using balance

theorem deed_accounted {s : PairStep} (taken : s.before.next s.label = some s.after) (fresh : SendsFresh done s)
    (old : Accounted body done s.before) : Accounted body (done ++ [s]) s.after := by
  cases label : s.label with
  | turn side turn => exact turn_accounted label taken fresh old
  | resync => exact resync_accounted label taken old
  | failover => exact failover_accounted label taken old

-- Where every stored event sent is a fresh one, an event that was not stored to begin with
-- goes out at most as often as it occurred.
theorem delivered_at_most_once (run : PairRun start steps last) (clean : ∀ side, Clean (start.node side).storage)
    (fresh : ∀ done s rest, steps = done ++ s :: rest → SendsFresh done s)
    (unstored : ∀ side db, body ∉ (start.node side).storage db) :
    (deliveredBy steps).count body ≤ (occurredIn steps).count body := by
  have begun : Accounted body [] start := by
    refine ⟨clean,fun _ => 0,?_,by simp [deliveredBy,occurredIn]⟩
    intro q
    simp [sharing,Share.Covers,Pair.copies,List.count_eq_zero.mpr (unstored _ q)]
  obtain ⟨_,bound,_,balance⟩ := run.carry_along (Accounted body) SendsFresh begun
    (fun _ _ _ taken fresh old => deed_accounted taken fresh old) fresh
  omega

instance (done : List PairStep) (s : PairStep) : Decidable (SendsFresh done s) := by
  unfold SendsFresh
  cases s.label <;> infer_instance

theorem pair_played (deeds : List Deed) (holds : List PairStep → Bool)
    (ran : (played (master 0) (allKeys "0") (fun _ => []) []).any fun r => r.1 == REDISMODULE_OK &&
      (replay Pair.next ⟨fun _ => r.2.1,.left⟩ deeds).any fun run => holds run.1) :
    ∃ start steps last, (∀ side, Loaded (master 0) (allKeys "0") (fun _ => []) (start.node side)) ∧
      PairRun start steps last ∧ holds steps = true := by
  let holds' (w : World) : Bool := (replay Pair.next ⟨fun _ => w,.left⟩ deeds).any fun run => holds run.1
  have replays := played_run (master 0) (allKeys "0") (fun _ => []) [] fun w _ _ => holds' w
  obtain ⟨w,_,_,loaded,_,seen⟩ := replays ran
  obtain ⟨⟨steps,last⟩,went,good⟩ := (Option.any_eq_true _ _).mp seen
  exact ⟨⟨fun _ => w,.left⟩,steps,last,fun _ => loaded,replay_path went,good⟩

def outage : Deed := .turn .left (expired 0 "a" [.socket false,.status 1])
def takeover : Deed := .turn .right (expired 0 "b" (connects ++ accepts ++ accepts))

theorem delivered_at_most_once_failover : ∃ start steps last, PairRun start steps last ∧
    steps.length = 4 ∧ (occurredIn steps).count (ascii "0\nexpired\na") = 1 ∧
    ascii "0\nexpired\na" ∈ deliveredBy steps ∧
    (deliveredBy steps).count (ascii "0\nexpired\na") ≤ (occurredIn steps).count (ascii "0\nexpired\na") := by
  obtain ⟨start,steps,last,loaded,run,seen⟩ := pair_played [outage,.resync,.failover,takeover]
    (fun steps => decide ((∀ i : Fin steps.length, SendsFresh (steps.take i) (steps.get i)) ∧ steps.length = 4 ∧
      (occurredIn steps).count (ascii "0\nexpired\na") = 1 ∧ ascii "0\nexpired\na" ∈ deliveredBy steps)) (by decide +kernel)
  obtain ⟨fresh,four,once,went⟩ := of_decide_eq_true seen
  have empty : ∀ side db, (start.node side).storage db = [] := fun side => congrFun (loaded_store (loaded side)).1
  have clean : ∀ side, Clean (start.node side).storage := by
    intro side db bytes member
    rw [empty side db] at member
    cases member
  have unstored : ∀ side db, ascii "0\nexpired\na" ∉ (start.node side).storage db := by
    intro side db member
    rw [empty side db] at member
    cases member
  exact ⟨start,steps,last,run,four,once,went,delivered_at_most_once run clean (all_along SendsFresh fresh) unstored⟩

-- The old master sends the event before the failover, the new one its copy after it.
theorem copy_sent_twice : ∃ start steps last,
    (∀ side, Loaded (master 0) (allKeys "0") (fun _ => []) (start.node side)) ∧ PairRun start steps last ∧
    (occurredIn steps).count (ascii "0\nexpired\na") = 1 ∧ (deliveredBy steps).count (ascii "0\nexpired\na") = 2 := by
  obtain ⟨start,steps,last,loaded,run,seen⟩ := pair_played
    [outage,.resync,.turn .left ⟨.timer ⟨3,0⟩ REDISMODULE_CTX_FLAGS_MASTER,connects ++ accepts⟩,.failover,takeover]
    (fun steps => decide ((occurredIn steps).count (ascii "0\nexpired\na") = 1 ∧
      (deliveredBy steps).count (ascii "0\nexpired\na") = 2)) (by decide +kernel)
  obtain ⟨once,twice⟩ := of_decide_eq_true seen
  exact ⟨start,steps,last,loaded,run,once,twice⟩

end KeyspaceAmqp
