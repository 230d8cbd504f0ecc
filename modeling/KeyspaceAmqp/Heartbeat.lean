import KeyspaceAmqp.Steps

namespace KeyspaceAmqp
open Programs Paths

structure Heart where
  timers : List Timer
  current : Nat
  enabled : Bool

def World.heart (w : World) : Heart := ⟨w.timers,w.heardBeatTimerId,w.amqpConnectionEnabled⟩

def Heart.arm (h : Heart) (t : Timer) : Heart := {h with timers := h.timers ++ [t],current := t.id}
def Heart.fire (h : Heart) (t : Timer) : Heart := {h with timers := h.timers.erase t,current := 0}
def Heart.stop (h : Heart) : Heart where
  timers := if h.current = 0 then h.timers else h.timers.filter fun t => t.id ≠ h.current
  current := 0
  enabled := false

def Heart.Pending (h : Heart) : Prop := h.current ≠ 0 → ∃ t ∈ h.timers, t.id = h.current

theorem pending_arm (h : Heart) (t : Timer) : (h.arm t).Pending := fun _ => ⟨t,by simp [Heart.arm],rfl⟩

theorem pending_zero {h : Heart} (zero : h.current = 0) : h.Pending := fun set => absurd zero set

structure Heart.Single (h : Heart) : Prop where
  one : h.timers.length ≤ 1
  idle : h.current = 0 → h.timers = []

theorem single_arm {h : Heart} (single : h.Single) (idle : h.current = 0) (t : Timer) (set : t.id ≠ 0) :
    (h.arm t).Single where
  one := by simp [Heart.arm,single.idle idle]
  idle zero := absurd zero set

theorem single_fire {h : Heart} (single : h.Single) (pending : t ∈ h.timers) : (h.fire t).Single := by
  have gone : h.timers.erase t = [] := by
    refine List.eq_nil_of_length_eq_zero ?_
    rw [List.length_erase_of_mem pending]
    have one := single.one
    omega
  exact ⟨by simp [Heart.fire,gone],fun _ => gone⟩

theorem single_stop {h : Heart} (single : h.Single) (pending : h.Pending) : h.stop.timers = [] := by
  unfold Heart.stop
  by_cases zero : h.current = 0
  · simpa [zero] using single.idle zero
  obtain ⟨t,member,same⟩ := pending zero
  obtain ⟨u,only⟩ := List.length_eq_one_iff.mp (le_antisymm single.one (List.length_pos_of_mem member))
  rw [only] at member
  cases List.mem_singleton.mp member
  simp [zero,only,same]

def Opens (s : Step) : Prop := ∃ argv, s.label.callback.carries = some (.connect,argv) ∧
  Accepts s.before.settings argv ∧ connectOutcome s.before.conn s.label.script = some REDIS_AMQP_OK

def Disconnects (s : Step) : Prop := ∃ argv, s.label.callback.carries = some (.disconnect,argv)

def SeenAsMaster (s : Step) : Prop := ∃ ctx type event key,
  s.label.callback = .keyspaceEvent ctx type event key ∧ isRedisMaster ctx = true

inductive Beat (s : Step) : Heart → Prop where
  | quiet (closed : ¬ Opens s) (kept : ¬ Disconnects s)
      (still : SeenAsMaster s → s.before.amqpConnectionEnabled = true → s.before.heardBeatTimerId ≠ 0) :
      Beat s s.before.heart
  | armed (seen : SeenAsMaster s) (idle : s.before.heardBeatTimerId = 0) (fresh : s.before.handles < t.id) :
      Beat s (s.before.heart.arm t)
  | stale (firing : s.label.callback = .timer t flags) (pending : t ∈ s.before.timers)
      (off : s.before.amqpConnectionEnabled = false) : Beat s (s.before.heart.fire t)
  | fired (firing : s.label.callback = .timer t flags) (pending : t ∈ s.before.timers)
      (fresh : s.before.handles < next.id) : Beat s ((s.before.heart.fire t).arm next)
  | opened (opens : Opens s) (fresh : s.before.handles < t.id) : Beat s {s.before.heart.arm t with enabled := true}
  | stopped (stops : Disconnects s) : Beat s s.before.heart.stop

theorem Touches.heart (touches : Touches parts w w') (timers : .heartbeat ∉ parts) (enabled : .enabled ∉ parts) :
    w'.heart = w.heart := by
  simp only [World.heart,touches.timers.resolve_left timers,touches.heartbeat.resolve_left timers,
    touches.enabled.resolve_left enabled]

theorem given_heart (w : World) (script : List Answer) : (w.given script).heart = w.heart := rfl

theorem armed_heart (w : World) (db : Int32) : (w.armed db).heart = w.heart.arm ⟨w.handles+1,db⟩ := rfl

theorem stopped_heart (w : World) : {w with amqpConnectionEnabled := false}.stopped.heart = w.heart.stop := rfl

theorem event_beat (ran : Ends (onKeyspaceEvent ctx type event key) (s.before.given s.label.script) res s.after)
    (event : s.label.callback = .keyspaceEvent ctx type name key) : Beat s s.after.heart := by
  have closed : ¬ Opens s := by
    rintro ⟨argv,carried,_⟩
    simp [event,Callback.carries] at carried
  have kept : ¬ Disconnects s := by
    rintro ⟨argv,carried⟩
    simp [event,Callback.carries] at carried
  rcases onKeyspaceEvent_parts ran with ⟨master,enabled,m,first,looped⟩ | ⟨off,same⟩
  · have looped : Touches [.session,.publishes,.lists,.strings,.count,.keys,.events] m s.after := Keeps.keeps looped
    rw [looped.heart (by decide) (by decide)]
    rcases firstEvent_parts first with ⟨set,rfl⟩ | ⟨idle,_,n,connected,rfl⟩
    · exact .quiet closed kept fun _ _ => set
    · have connected : Touches [.session] _ n := Keeps.keeps connected
      rw [armed_heart,connected.heart (by decide) (by decide)]
      exact .armed ⟨_,_,_,_,event,master⟩ idle (Nat.lt_succ_of_le connected.handles)
  · rw [same]
    refine .quiet closed kept ?_
    rintro ⟨_,_,_,_,seen,master⟩ enabled
    cases event.symm.trans seen
    exact absurd ⟨master,enabled⟩ off

theorem timer_beat (ran : Ends (fireTimer t flags) (s.before.given s.label.script) () s.after)
    (firing : s.label.callback = .timer t flags) : Beat s s.after.heart := by
  obtain ⟨pending,⟨off,same⟩ | ⟨_,m,checked,same⟩⟩ := fireTimer_parts ran
  · rw [same]
    exact .stale firing pending off
  · have checked : Touches [.session,.publishes,.lists,.strings,.count,.keys] _ m := Keeps.keeps checked
    rw [same,armed_heart,checked.heart (by decide) (by decide)]
    exact .fired firing pending (Nat.lt_succ_of_le checked.handles)

theorem Aside.heart (aside : Aside w w') : w'.heart = w.heart := aside.touches.heart (by decide) (by decide)

theorem connect_beat (before : Aside (s.before.given s.label.script) m)
    (carried : s.label.callback.carries = some (.connect,argv))
    (ran : Ends (connectAmqpCommand ctx argv) m res n) : Beat s n.heart := by
  have begun : m.heart = s.before.heart := before.heart
  have kept : ¬ Disconnects s := by
    rintro ⟨other,disconnecting⟩
    cases carried.symm.trans disconnecting
  have unseen : ¬ SeenAsMaster s := by
    rintro ⟨ctx,type,event,key,seen,_⟩
    rw [seen] at carried
    cases carried
  have settings : m.settings = s.before.settings := before.same.settings
  obtain ⟨o,configured,script,refused | ⟨accepted,response,p,connected,failed | opened⟩⟩ := connectAmqpCommand_parts ran
  · obtain ⟨refused,rfl⟩ := refused
    have same : o.heart = s.before.heart := (configured.heart (by decide) (by decide)).trans begun
    change Beat s o.heart
    rw [same]
    refine .quiet ?_ kept fun seen => absurd seen unseen
    rintro ⟨other,opens,fine,_⟩
    cases carried.symm.trans opens
    exact refused (settings ▸ fine)
  all_goals
    have outcome := amqpConnect_outcome connected
    have conn : o.conn = s.before.conn := (configured.conn.resolve_left (by decide)).trans before.same.conn
    rw [conn,script,before.same.script] at outcome
    have wired : Touches [.session] o p := Keeps.keeps connected
    have same : p.heart = s.before.heart :=
      (wired.heart (by decide) (by decide)).trans ((configured.heart (by decide) (by decide)).trans begun)
  · obtain ⟨failed,_,rfl⟩ := failed
    change Beat s p.heart
    rw [same]
    refine .quiet ?_ kept fun seen => absurd seen unseen
    rintro ⟨other,_,_,opens⟩
    exact failed (Option.some.inj (outcome.symm.trans opens))
  · obtain ⟨rfl,_,rfl⟩ := opened
    change Beat s {p.heart.arm ⟨p.handles+1,ctx.db⟩ with enabled := true}
    rw [same]
    have older : s.before.handles ≤ p.handles :=
      before.touches.handles.trans (configured.handles.trans wired.handles)
    exact .opened ⟨argv,carried,settings ▸ accepted,outcome⟩ (Nat.lt_succ_of_le older)

theorem disconnect_beat (before : Aside (s.before.given s.label.script) m)
    (carried : s.label.callback.carries = some (.disconnect,argv))
    (ran : Ends (disconnectAmqpCommand argv) m res n) : Beat s n.heart := by
  obtain ⟨o,response,p,final,arity,closed,rfl⟩ := disconnectAmqpCommand_parts ran
  have arity : Touches [.replies] m o := Keeps.keeps arity
  have closed : Touches [.session] _ p := Keeps.keeps closed
  change Beat s p.heart
  rw [closed.heart (by decide) (by decide),stopped_heart,arity.heart (by decide) (by decide),before.heart]
  exact .stopped ⟨argv,carried⟩

theorem plain_beat (quiet : s.after.heart = s.before.heart) (event : ¬ SeenAsMaster s)
    (connect : ∀ argv, s.label.callback.carries ≠ some (.connect,argv))
    (disconnect : ∀ argv, s.label.callback.carries ≠ some (.disconnect,argv)) : Beat s s.after.heart := by
  rw [quiet]
  exact .quiet (fun ⟨argv,opens,_⟩ => connect argv opens) (fun ⟨argv,stops⟩ => disconnect argv stops)
    fun seen => absurd seen event

theorem step_beat (taken : step s.before s.label = some s.after) : Beat s s.after.heart := by
  obtain ⟨before,⟨callback,script⟩,after⟩ := s
  have happens := step_happens taken
  cases happens with
  | event ran => exact event_beat ran rfl
  | timer ran => exact timer_beat ran rfl
  | carried command argv known aside ran later =>
    have unseen : ¬ SeenAsMaster ⟨before,⟨callback,script⟩,after⟩ := by
      rintro ⟨ctx,type,event,key,rfl,_⟩
      cases known
    change Beat _ after.heart
    rcases body_parts command ran with ⟨rfl,ran⟩ | ⟨rfl,ran⟩ | ⟨connecting,disconnecting,touched⟩
    · rw [later.heart]
      exact connect_beat aside known ran
    · rw [later.heart]
      exact disconnect_beat aside known ran
    refine plain_beat ?_ unseen ?_ ?_
    · change after.heart = before.heart
      rw [later.heart,touched.heart (by decide) (by decide),aside.heart,given_heart]
    · intro other opens
      cases known.symm.trans opens
      exact connecting rfl
    · intro other stops
      cases known.symm.trans stops
      exact disconnecting rfl
  | ignored unknown aside =>
    refine plain_beat aside.heart ?_ ?_ ?_
    · rintro ⟨_,_,_,_,seen,_⟩
      cases seen
    · intro argv opens
      cases unknown.symm.trans opens
    · intro argv stops
      cases unknown.symm.trans stops

theorem seen_carries (seen : SeenAsMaster s) : s.label.callback.carries = none := by
  obtain ⟨_,_,_,_,event,_⟩ := seen
  rw [event]
  rfl

theorem disconnect_heart (taken : step s.before s.label = some s.after) (stops : Disconnects s) :
    s.after.heart = s.before.heart.stop := by
  obtain ⟨argv,carried⟩ := stops
  have beat := step_beat taken
  generalize s.after.heart = h at beat ⊢
  cases beat with
  | quiet _ kept _ => exact absurd ⟨argv,carried⟩ kept
  | armed seen _ _ => cases (seen_carries seen).symm.trans carried
  | stale firing _ _ => rw [firing] at carried; cases carried
  | fired firing _ _ => rw [firing] at carried; cases carried
  | opened opens _ =>
    obtain ⟨_,connecting,_⟩ := opens
    cases connecting.symm.trans carried
  | stopped _ => rfl

theorem opens_heart (taken : step s.before s.label = some s.after) (opens : Opens s) :
    ∃ t, s.after.heart = {s.before.heart.arm t with enabled := true} := by
  have beat := step_beat taken
  generalize s.after.heart = h at beat ⊢
  obtain ⟨argv,carried,fine⟩ := opens
  cases beat with
  | quiet closed _ _ => exact absurd ⟨argv,carried,fine⟩ closed
  | armed seen _ _ => cases (seen_carries seen).symm.trans carried
  | stale firing _ _ => rw [firing] at carried; cases carried
  | fired firing _ _ => rw [firing] at carried; cases carried
  | opened _ _ => exact ⟨_,rfl⟩
  | stopped stops =>
    obtain ⟨_,disconnecting⟩ := stops
    cases carried.symm.trans disconnecting

theorem beat_pending (beat : Beat s h) (pending : s.before.heart.Pending) : h.Pending := by
  cases beat with
  | quiet _ _ _ => exact pending
  | armed _ _ _ => exact pending_arm _ _
  | stale _ _ _ => exact pending_zero rfl
  | fired _ _ _ => exact pending_arm _ _
  | opened _ _ => exact pending_arm s.before.heart _
  | stopped _ => exact pending_zero rfl

-- A connect is the one step that starts a timer without asking for the current one.
theorem beat_single (beat : Beat s h) (single : s.before.heart.Single) (pending : s.before.heart.Pending)
    (asked : Opens s → s.before.heardBeatTimerId = 0) : h.Single := by
  cases beat with
  | quiet _ _ _ => exact single
  | armed _ idle fresh => exact single_arm single idle _ (Nat.ne_of_gt (Nat.zero_lt_of_lt fresh))
  | stale _ fired _ => exact single_fire single fired
  | fired _ fired fresh => exact single_arm (single_fire single fired) rfl _ (Nat.ne_of_gt (Nat.zero_lt_of_lt fresh))
  | opened opens fresh =>
    obtain ⟨one,idle⟩ := single_arm single (asked opens) _ (Nat.ne_of_gt (Nat.zero_lt_of_lt fresh))
    exact ⟨one,idle⟩
  | stopped _ =>
    have none := single_stop single pending
    exact ⟨by simp [none],fun _ => none⟩

theorem loaded_heart (loaded : Loaded ctx argv storage w) : w.timers = [] ∧ w.heardBeatTimerId = 0 := by
  obtain ⟨script,touched⟩ := loaded_touches loaded
  exact ⟨touched.timers.resolve_left (by decide),touched.heartbeat.resolve_left (by decide)⟩

theorem run_pending (loaded : Loaded ctx argv storage start) (run : Run start steps last) :
    last.heart.Pending ∧ ∀ s ∈ steps, s.before.heart.Pending ∧ s.after.heart.Pending :=
  run.throughout (fun w => w.heart.Pending) (fun _ => True) (pending_zero (loaded_heart loaded).2)
    (fun _ taken _ old => beat_pending (step_beat taken) old) fun _ _ => trivial

-- Timers pile up over a run just when a connect succeeds while one is set.
theorem one_timer_iff (loaded : Loaded ctx argv storage start) (run : Run start steps last) :
    (start.timers.length ≤ 1 ∧
      ∀ s ∈ steps, s.after.timers.length ≤ 1 ∧ (Disconnects s → s.after.timers = [])) ↔
    ∀ s ∈ steps, Opens s → s.before.heardBeatTimerId = 0 := by
  obtain ⟨none,zero⟩ := loaded_heart loaded
  have pending := (run_pending loaded run).2
  constructor
  · intro bound s member opens
    by_contra set
    obtain ⟨t,waiting,_⟩ := (pending s member).1 set
    obtain ⟨next,added⟩ := opens_heart (run.edge_taken member) opens
    have two : s.after.timers = s.before.timers ++ [next] := congrArg Heart.timers added
    have one := (bound.2 s member).1
    have some : 0 < s.before.timers.length := List.length_pos_of_mem waiting
    rw [two,List.length_append,List.length_singleton] at one
    omega
  · intro asked
    have begun : start.heart.Single := ⟨by simp [World.heart,none],fun _ => none⟩
    have single := (run.throughout (fun w => w.heart.Single ∧ w.heart.Pending)
      (fun s => Opens s → s.before.heardBeatTimerId = 0) ⟨begun,pending_zero zero⟩
      (fun s taken fine old => ⟨beat_single (step_beat taken) old.1 old.2 fine,beat_pending (step_beat taken) old.2⟩)
      asked).2
    refine ⟨begun.one,?_⟩
    intro s member
    refine ⟨(single s member).2.1.one,?_⟩
    intro stops
    have gone := single_stop (single s member).1.1 (single s member).1.2
    exact (congrArg Heart.timers (disconnect_heart (run.edge_taken member) stops)).trans gone

instance (s : Step) : Decidable (Disconnects s) :=
  decidable_of_iff (s.label.callback.carries.map Prod.fst = some .disconnect) (by simp [Disconnects])

instance (s : Step) : Decidable (Opens s) :=
  decidable_of_iff ((match s.label.callback.carries with
    | some (.connect,argv) => decide (Accepts s.before.settings argv ∧
      connectOutcome s.before.conn s.label.script = some REDIS_AMQP_OK)
    | _ => false) = true) <| by
    unfold Opens
    split
    · rename_i argv carried
      simp [carried]
    · rename_i other
      simp only [Bool.false_eq_true,false_iff]
      rintro ⟨argv,carried,_⟩
      exact other argv carried

theorem one_timer_iff_outage : ∃ start steps last, Run start steps last ∧
    (∃ s ∈ steps, ∃ t ∈ steps, s.after.conn ≠ none ∧ t.before.conn = none) ∧
    (start.timers.length ≤ 1 ∧
      ∀ s ∈ steps, s.after.timers.length ≤ 1 ∧ (Disconnects s → s.after.timers = [])) := by
  obtain ⟨start,steps,last,loaded,run,seen⟩ := played_run (master 0) (allKeys "0") (fun _ => [])
    [expired 0 "a" (connects ++ accepts),expired 0 "b" loses,⟨.timer ⟨3,0⟩ 0,connects ++ accepts⟩,told .disconnect [] [],
      told .connect [] connects]
    (fun _ steps _ => decide ((∀ s ∈ steps, Opens s → s.before.heardBeatTimerId = 0) ∧
      ∃ s ∈ steps, ∃ t ∈ steps, s.after.conn ≠ none ∧ t.before.conn = none)) (by decide +kernel)
  obtain ⟨asked,outage⟩ := of_decide_eq_true seen
  exact ⟨start,steps,last,run,outage,(one_timer_iff loaded run).mpr asked⟩

-- The connection is lost to a publish, and a connect comes before the timer fires: it
-- starts another, and a disconnect stops one of the two.
theorem connect_starts_second_timer : ∃ start steps last, Loaded (master 0) (allKeys "0") (fun _ => []) start ∧
    Run start steps last ∧ (∃ s ∈ steps, s.after.timers.length = 2) ∧
    ∃ s ∈ steps, Disconnects s ∧ s.after.timers ≠ [] := by
  obtain ⟨start,steps,last,loaded,run,seen⟩ := played_run (master 0) (allKeys "0") (fun _ => [])
    [expired 0 "a" (connects ++ accepts),expired 0 "b" loses,told .connect [] connects,told .disconnect [] []]
    (fun _ steps _ => decide ((∃ s ∈ steps, s.after.timers.length = 2) ∧ ∃ s ∈ steps, Disconnects s ∧ s.after.timers ≠ []))
    (by decide +kernel)
  exact ⟨start,steps,last,loaded,run,of_decide_eq_true seen⟩

-- Since the last disconnect, or the load, the module saw an event as a master or a
-- connect got its connection.
def Awake (steps : List Step) : Prop := ∃ first s rest, steps = first ++ s :: rest ∧ (SeenAsMaster s ∨ Opens s) ∧
  ∀ d ∈ rest, ¬ Disconnects d

theorem awake_snoc (awake : Awake (steps ++ [s])) : SeenAsMaster s ∨ Opens s ∨ (Awake steps ∧ ¬ Disconnects s) := by
  obtain ⟨first,t,rest,parts,woken,kept⟩ := awake
  rcases List.eq_nil_or_concat rest with rfl | ⟨prior,final,rfl⟩
  · obtain ⟨_,same⟩ := List.append_inj' parts rfl
    cases same
    exact woken.imp_right .inl
  · rw [List.concat_eq_append] at parts kept
    rw [← List.cons_append,← List.append_assoc] at parts
    obtain ⟨rfl,same⟩ := List.append_inj' parts rfl
    cases same
    exact .inr (.inr ⟨⟨first,t,prior,rfl,woken,fun d member => kept d (List.mem_append_left _ member)⟩,
      kept s (by simp)⟩)

theorem beat_awake (beat : Beat s h) (enabled : h.enabled = true) (awake : Awake (steps ++ [s]))
    (old : s.before.amqpConnectionEnabled = true → Awake steps → s.before.heardBeatTimerId ≠ 0) : h.current ≠ 0 := by
  cases beat with
  | quiet closed _ still =>
    rcases awake_snoc awake with seen | opens | ⟨earlier,_⟩
    · exact still seen enabled
    · exact absurd opens closed
    · exact old enabled earlier
  | armed _ _ fresh => exact Nat.ne_of_gt (Nat.zero_lt_of_lt fresh)
  | stale _ _ off => exact absurd (off.symm.trans enabled) Bool.false_ne_true
  | fired _ _ fresh => exact Nat.ne_of_gt (Nat.zero_lt_of_lt fresh)
  | opened _ fresh => exact Nat.ne_of_gt (Nat.zero_lt_of_lt fresh)
  | stopped _ => cases enabled

theorem reconnect_loop_lives (loaded : Loaded ctx argv storage start) (run : Run start steps last) :
    (last.heardBeatTimerId ≠ 0 → ∃ t ∈ last.timers, t.id = last.heardBeatTimerId) ∧
      (last.amqpConnectionEnabled = true → Awake steps → last.heardBeatTimerId ≠ 0) := by
  refine ⟨(run_pending loaded run).1,?_⟩
  refine run.carry (fun done w => w.amqpConnectionEnabled = true → Awake done → w.heardBeatTimerId ≠ 0) (fun _ => True)
    ?_ ?_ fun _ _ => trivial
  · rintro _ ⟨first,s,rest,impossible,_⟩
    simp at impossible
  · intro done s _ taken _ old enabled awake
    exact beat_awake (step_beat taken) enabled awake old

theorem reconnect_loop_lives_stale : ∃ start steps last, Run start steps last ∧ last.amqpConnectionEnabled = true ∧
    last.timers.length = 2 ∧ last.heardBeatTimerId ≠ 0 ∧ ∃ t ∈ last.timers, t.id = last.heardBeatTimerId := by
  obtain ⟨start,steps,last,loaded,run,seen⟩ := played_run (master 0) (allKeys "0") (fun _ => [])
    [expired 0 "a" (connects ++ accepts),expired 0 "b" loses,told .connect [] connects,⟨.timer ⟨3,0⟩ 0,idles⟩]
    (fun _ steps last => decide ((∀ d ∈ steps, ¬ Disconnects d) ∧ (∃ s ∈ steps, Opens s) ∧
      last.amqpConnectionEnabled = true ∧ last.timers.length = 2)) (by decide +kernel)
  obtain ⟨kept,⟨s,member,opens⟩,enabled,two⟩ := of_decide_eq_true seen
  obtain ⟨first,rest,parts⟩ := List.append_of_mem member
  have awake : Awake steps := ⟨first,s,rest,parts,.inr opens,fun d later => kept d (by simp [parts,later])⟩
  obtain ⟨pending,lives⟩ := reconnect_loop_lives loaded run
  have set := lives enabled awake
  exact ⟨start,steps,last,run,enabled,two,set,pending set⟩

end KeyspaceAmqp
