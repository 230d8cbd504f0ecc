import KeyspaceAmqp.Heartbeat

namespace KeyspaceAmqp
open Programs Paths

def World.Numbered (w : World) : Prop := ∀ t ∈ w.timers, t.id ≤ w.handles

theorem Touches.numbered (touches : Touches parts w w') (timers : .heartbeat ∉ parts) (numbered : w.Numbered) : w'.Numbered := by
  intro t member
  rw [touches.timers.resolve_left timers] at member
  exact (numbered t member).trans touches.handles

theorem armed_numbered (numbered : w.Numbered) (db : Int32) : (World.armed w db).Numbered := by
  intro t member
  rcases List.mem_append.mp member with old | new
  · exact (numbered t old).trans (Nat.le_succ _)
  · cases List.mem_singleton.mp new
    exact Nat.le_refl _

theorem fired_numbered (numbered : w.Numbered) (t : Timer) : (World.fired w t).Numbered :=
  fun u member => numbered u (List.mem_of_mem_erase member)

theorem stopped_numbered (numbered : w.Numbered) : (World.stopped w).Numbered := by
  intro t member
  unfold World.stopped at member
  dsimp only at member
  split at member
  · exact numbered t member
  · exact numbered t (List.mem_of_mem_filter member)

theorem body_numbered (command : Command) (ran : Ends (command.body ctx argv) w res w') (numbered : w.Numbered) :
    w'.Numbered := by
  rcases body_parts command ran with ⟨rfl,ran⟩ | ⟨rfl,ran⟩ | ⟨_,_,touched⟩
  · obtain ⟨m,configured,_,⟨_,rfl⟩ | ⟨_,_,n,connected,⟨_,_,rfl⟩ | ⟨_,_,rfl⟩⟩⟩ := connectAmqpCommand_parts ran
    all_goals have configured := configured.numbered (by decide) numbered
    · exact configured
    all_goals
      have connected : Touches [.session] m n := Keeps.keeps connected
      have connected := connected.numbered (by decide) configured
    · exact connected
    · exact armed_numbered connected _
  · obtain ⟨m,_,n,_,arity,closed,rfl⟩ := disconnectAmqpCommand_parts ran
    have arity : Touches [.replies] w m := Keeps.keeps arity
    have closed : Touches [.session] _ n := Keeps.keeps closed
    have begun : {m with amqpConnectionEnabled := false}.Numbered := arity.numbered (by decide) numbered
    exact closed.numbered (by decide) (stopped_numbered begun)
  · exact touched.numbered (by decide) numbered

theorem step_numbered (taken : step w turn = some w') (numbered : w.Numbered) : w'.Numbered := by
  have begun : (w.given turn.script).Numbered := numbered
  have happens := step_happens taken
  generalize turn.callback = callback at happens
  cases happens with
  | event ran =>
    rcases onKeyspaceEvent_parts ran with ⟨_,_,m,first,looped⟩ | ⟨_,rfl⟩
    · have looped : Touches [.session,.publishes,.lists,.strings,.count,.keys,.events] m w' := Keeps.keeps looped
      refine looped.numbered (by decide) ?_
      rcases firstEvent_parts first with ⟨_,rfl⟩ | ⟨_,_,n,connected,rfl⟩
      · exact begun
      · have connected : Touches [.session] _ n := Keeps.keeps connected
        exact armed_numbered (connected.numbered (by decide) begun) _
    · exact begun
  | timer ran =>
    rcases (fireTimer_parts ran).2 with ⟨_,rfl⟩ | ⟨_,m,checked,rfl⟩
    · exact fired_numbered begun _
    · have checked : Touches [.session,.publishes,.lists,.strings,.count,.keys] _ m := Keeps.keeps checked
      exact armed_numbered (checked.numbered (by decide) (fired_numbered begun _)) _
  | carried command argv _ before ran after =>
    exact after.touches.numbered (by decide) (body_numbered command ran (before.touches.numbered (by decide) begun))
  | ignored _ aside => exact aside.touches.numbered (by decide) begun

theorem firing_heart {s : Step} (taken : step s.before s.label = some s.after) (firing : s.label.callback = .timer t flags) :
    t ∈ s.before.timers ∧ ((s.before.amqpConnectionEnabled = false ∧ s.after.heart = s.before.heart.fire t) ∨
      (s.before.amqpConnectionEnabled = true ∧ ∃ next : Timer, s.before.handles < next.id ∧
        s.after.heart = (s.before.heart.fire t).arm next)) := by
  have ran := step_ends.mp taken
  rw [firing] at ran
  have ran : Ends (fireTimer t flags) (s.before.given s.label.script) () s.after := ran
  obtain ⟨pending,⟨off,same⟩ | ⟨on,m,checked,same⟩⟩ := fireTimer_parts ran
  · exact ⟨pending,.inl ⟨off,by rw [same]; rfl⟩⟩
  · have checked : Touches [.session,.publishes,.lists,.strings,.count,.keys] _ m := Keeps.keeps checked
    have fresh : s.before.handles < m.handles+1 := Nat.lt_succ_of_le checked.handles
    refine ⟨pending,.inr ⟨on,⟨m.handles+1,t.db⟩,fresh,?_⟩⟩
    rw [same,armed_heart,checked.heart (by decide) (by decide)]
    rfl

theorem seen_enabled {s : Step} (taken : step s.before s.label = some s.after) (seen : SeenAsMaster s)
    (changed : s.after.heart ≠ s.before.heart) : s.before.amqpConnectionEnabled = true := by
  obtain ⟨ctx,type,event,key,callback,_⟩ := seen
  have ran := step_ends.mp taken
  rw [callback] at ran
  simp only [Callback.run,ends_bind,ends_pure] at ran
  obtain ⟨_,_,ran,_,same⟩ := ran
  rcases onKeyspaceEvent_parts ran with ⟨_,enabled,_⟩ | ⟨_,idle⟩
  · exact enabled
  · rw [← same,idle] at changed
    exact absurd rfl changed

structure Heart.Regular (h : Heart) : Prop where
  pending : h.Pending
  off : h.enabled = false → h.current = 0
  idle : h.enabled = true → h.current = 0 → h.timers = []
  distinct : (h.timers.map Timer.id).Nodup

def Heart.looping (h : Heart) : Nat := if h.current = 0 then 0 else 1

theorem looping_arm {t : Timer} (set : t.id ≠ 0) (h : Heart) : (h.arm t).looping = 1 := if_neg set

theorem distinct_arm {h : Heart} {t : Timer} (distinct : (h.timers.map Timer.id).Nodup) (fresh : ∀ u ∈ h.timers, u.id < t.id) :
    ((h.arm t).timers.map Timer.id).Nodup := by
  rw [Heart.arm,List.map_append]
  refine List.nodup_append.mpr ⟨distinct,List.nodup_singleton _,?_⟩
  intro a old b new
  obtain ⟨u,member,rfl⟩ := List.mem_map.mp old
  cases List.mem_singleton.mp new
  exact Nat.ne_of_lt (fresh u member)

theorem distinct_fire {h : Heart} (distinct : (h.timers.map Timer.id).Nodup) (t : Timer) :
    ((h.fire t).timers.map Timer.id).Nodup :=
  distinct.sublist (List.Sublist.map _ List.erase_sublist)

theorem regular_arm {h : Heart} {t : Timer} (distinct : (h.timers.map Timer.id).Nodup) (fresh : ∀ u ∈ h.timers, u.id < t.id)
    (set : t.id ≠ 0) (enabled : h.enabled = true) : (h.arm t).Regular where
  pending := pending_arm h t
  off off := by cases enabled.symm.trans off
  idle _ zero := absurd zero set
  distinct := distinct_arm distinct fresh

theorem stop_length {h : Heart} (regular : h.Regular) : h.stop.timers.length + h.looping = h.timers.length := by
  unfold Heart.stop Heart.looping
  by_cases zero : h.current = 0
  · simp [zero]
  obtain ⟨t,member,same⟩ := regular.pending zero
  have once : h.timers.countP (fun t => t.id = h.current) = 1 := by
    have listed : h.current ∈ h.timers.map Timer.id := List.mem_map.mpr ⟨t,member,same⟩
    have counted := List.count_eq_one_of_mem regular.distinct listed
    rwa [List.count,List.countP_map] at counted
  have parts := List.length_eq_countP_add_countP (fun t : Timer => decide (t.id = h.current)) (l := h.timers)
  simp only [if_neg zero]
  rw [← List.countP_eq_length_filter,parts,once,Nat.add_comm]
  simp

theorem regular_stop {h : Heart} (regular : h.Regular) : h.stop.Regular where
  pending := pending_zero rfl
  off _ := rfl
  idle enabled := by cases enabled
  distinct := by
    unfold Heart.stop
    by_cases zero : h.current = 0
    · simpa [zero] using regular.distinct
    · simpa [zero] using regular.distinct.sublist (List.Sublist.map _ List.filter_sublist)

-- A timer that fires while the module is off is the end of its loop; a connect that gets
-- its connection while a timer is set begins one beside it.
def Expires (s : Step) : Prop := s.before.amqpConnectionEnabled = false ∧ ∃ t flags, s.label.callback = .timer t flags
def Doubles (s : Step) : Prop := Opens s ∧ s.before.heardBeatTimerId ≠ 0

instance (s : Step) : Decidable (Expires s) :=
  decidable_of_iff (s.before.amqpConnectionEnabled = false ∧ (match s.label.callback with
    | .timer _ _ => true
    | _ => false) = true) <| by
    unfold Expires
    cases s.label.callback <;> simp

instance (s : Step) : Decidable (Doubles s) := inferInstanceAs (Decidable (_ ∧ _))

def Tallied (s : Step) : Prop := s.after.timers.length + (if Expires s then 1 else 0) + s.before.heart.looping =
  s.before.timers.length + s.after.heart.looping + if Doubles s then 1 else 0

theorem firing_counts {s : Step} (taken : step s.before s.label = some s.after) (firing : s.label.callback = .timer t flags)
    (regular : s.before.heart.Regular) (numbered : s.before.Numbered) : s.after.heart.Regular ∧ Tallied s := by
  have closed : ¬ Doubles s := by
    rintro ⟨⟨_,carried,_⟩,_⟩
    simp [firing,Callback.carries] at carried
  have one : 0 < s.before.timers.length := List.length_pos_of_mem (firing_heart taken firing).1
  obtain ⟨pending,⟨off,after⟩ | ⟨on,next,fresh,after⟩⟩ := firing_heart taken firing
  · have expires : Expires s := ⟨off,t,flags,firing⟩
    have idle : s.before.heart.looping = 0 := if_pos (regular.off off)
    have timers : s.after.timers = s.before.timers.erase t := congrArg Heart.timers after
    refine ⟨?_,?_⟩
    · rw [after]
      refine ⟨pending_zero rfl,fun _ => rfl,?_,distinct_fire regular.distinct t⟩
      intro enabled
      cases off.symm.trans enabled
    · have ended : s.after.heart.looping = 0 := by rw [after]; rfl
      rw [Tallied,if_pos expires,if_neg closed,idle,ended,timers,List.length_erase_of_mem pending]
      omega
  · have lives : ¬ Expires s := fun expires => by cases on.symm.trans expires.1
    have set : s.before.heart.current ≠ 0 := fun zero => List.ne_nil_of_mem pending (regular.idle on zero)
    have begun : s.before.heart.looping = 1 := if_neg set
    have timers : s.after.timers = s.before.timers.erase t ++ [next] := congrArg Heart.timers after
    have some : next.id ≠ 0 := Nat.ne_of_gt (Nat.zero_lt_of_lt fresh)
    refine ⟨?_,?_⟩
    · rw [after]
      exact regular_arm (distinct_fire regular.distinct t)
        (fun u member => (numbered u (List.mem_of_mem_erase member)).trans_lt fresh) some on
    · have ended : s.after.heart.looping = 1 := by rw [after]; exact looping_arm some _
      rw [Tallied,if_neg lives,if_neg closed,begun,ended,timers,List.length_append,List.length_erase_of_mem pending,
        List.length_singleton]
      omega

theorem step_counts {s : Step} (taken : step s.before s.label = some s.after) (regular : s.before.heart.Regular)
    (numbered : s.before.Numbered) : s.after.heart.Regular ∧ Tallied s := by
  by_cases firing : ∃ t flags, s.label.callback = .timer t flags
  · obtain ⟨t,flags,firing⟩ := firing
    exact firing_counts taken firing regular numbered
  have lives : ¬ Expires s := fun expires => firing expires.2
  have changes : SeenAsMaster s → s.after.heart ≠ s.before.heart → s.before.amqpConnectionEnabled = true := seen_enabled taken
  have beat := step_beat taken
  unfold Tallied
  change s.after.heart.Regular ∧ s.after.heart.timers.length + _ + _ = s.before.heart.timers.length + _ + _
  rw [if_neg lives]
  generalize s.after.heart = h at beat changes ⊢
  cases beat with
  | quiet closed _ _ =>
    have single : ¬ Doubles s := fun doubles => closed doubles.1
    refine ⟨regular,?_⟩
    rw [if_neg single]
    rfl
  | @armed t seen idle fresh =>
    have closed : ¬ Doubles s := fun doubles => doubles.2 idle
    have set : t.id ≠ 0 := Nat.ne_of_gt (Nat.zero_lt_of_lt fresh)
    have grown : s.before.heart.arm t ≠ s.before.heart := by
      intro same
      have longer := congrArg (fun h : Heart => h.timers.length) same
      simp [Heart.arm] at longer
    have begun : s.before.heart.looping = 0 := if_pos idle
    refine ⟨regular_arm regular.distinct (fun u member => (numbered u member).trans_lt fresh) set (changes seen grown),?_⟩
    rw [if_neg closed,begun,looping_arm set,Heart.arm,List.length_append,List.length_singleton]
  | stale fires _ _ => exact absurd ⟨_,_,fires⟩ firing
  | fired fires _ _ => exact absurd ⟨_,_,fires⟩ firing
  | @opened t opens fresh =>
    have set : t.id ≠ 0 := Nat.ne_of_gt (Nat.zero_lt_of_lt fresh)
    have distinct := distinct_arm regular.distinct fun u member => (numbered u member).trans_lt fresh
    refine ⟨⟨pending_arm s.before.heart t,fun off => (by cases off),fun _ zero => absurd zero set,distinct⟩,?_⟩
    have ended : Heart.looping {s.before.heart.arm t with enabled := true} = 1 := if_neg set
    rw [ended]
    simp only [Heart.arm,List.length_append,List.length_singleton]
    by_cases zero : s.before.heardBeatTimerId = 0
    · have closed : ¬ Doubles s := fun doubles => doubles.2 zero
      have begun : s.before.heart.looping = 0 := if_pos zero
      rw [if_neg closed,begun]
    · have doubles : Doubles s := ⟨opens,zero⟩
      have begun : s.before.heart.looping = 1 := if_neg zero
      rw [if_pos doubles,begun]
  | stopped stops =>
    have closed : ¬ Doubles s := by
      rintro ⟨⟨_,connecting,_⟩,_⟩
      obtain ⟨_,disconnecting⟩ := stops
      cases connecting.symm.trans disconnecting
    refine ⟨regular_stop regular,?_⟩
    have ended : s.before.heart.stop.looping = 0 := if_pos rfl
    rw [if_neg closed,ended]
    exact stop_length regular

theorem loaded_regular (loaded : Loaded ctx argv storage w) : w.heart.Regular ∧ w.Numbered := by
  obtain ⟨none,zero⟩ := loaded_heart loaded
  refine ⟨⟨pending_zero zero,fun _ => zero,fun _ _ => none,?_⟩,?_⟩
  · rw [show w.heart.timers = [] from none]
    exact List.nodup_nil
  · intro t member
    rw [none] at member
    cases member

-- How many reconnect loops there are at any time: one while a timer is set, one more for
-- each connect that got its connection while one was, less those whose timer came to fire
-- while the module was off.
theorem loops_counted (loaded : Loaded ctx argv storage start) (run : Run start steps last) :
    last.timers.length + steps.countP (fun s => Expires s) =
      (if last.heardBeatTimerId = 0 then 0 else 1) + steps.countP (fun s => Doubles s) ∧
    (last.timers.map Timer.id).Nodup ∧
    (last.heardBeatTimerId ≠ 0 → ∃ t ∈ last.timers, t.id = last.heardBeatTimerId) := by
  obtain ⟨regular,numbered⟩ := loaded_regular loaded
  have carried := run.carry (fun done w => (w.heart.Regular ∧ w.Numbered) ∧
      w.timers.length + done.countP (fun s => Expires s) = w.heart.looping + done.countP (fun s => Doubles s))
    (fun _ => True) ⟨⟨regular,numbered⟩,?_⟩ ?_ fun _ _ => trivial
  · exact ⟨carried.2,carried.1.1.distinct,carried.1.1.pending⟩
  · obtain ⟨none,zero⟩ := loaded_heart loaded
    rw [none,show start.heart.looping = 0 from if_pos zero]
    rfl
  · rintro done s _ taken _ ⟨⟨regular,numbered⟩,counted⟩
    obtain ⟨after,tallied⟩ := step_counts taken regular numbered
    refine ⟨⟨after,step_numbered taken numbered⟩,?_⟩
    rw [Tallied] at tallied
    simp only [List.countP_append,List.countP_singleton,decide_eq_true_eq]
    omega

theorem loops_counted_second : ∃ start steps last, Run start steps last ∧
    steps.map (fun s => s.after.timers.length) = [1,1,2,1,0] ∧ (∃ s ∈ steps, Doubles s) ∧
    last.timers.length + steps.countP (fun s => Expires s) =
      (if last.heardBeatTimerId = 0 then 0 else 1) + steps.countP (fun s => Doubles s) := by
  obtain ⟨start,steps,last,loaded,run,seen⟩ := played_run (master 0) (allKeys "0") (fun _ => [])
    [expired 0 "a" (connects ++ accepts),expired 0 "b" loses,told .connect [] connects,told .disconnect [] [],⟨.timer ⟨3,0⟩ 0,[]⟩]
    (fun _ steps _ => decide (steps.map (fun s => s.after.timers.length) = [1,1,2,1,0] ∧ ∃ s ∈ steps, Doubles s))
    (by decide +kernel)
  obtain ⟨lengths,doubles⟩ := of_decide_eq_true seen
  exact ⟨start,steps,last,run,lengths,doubles,(loops_counted loaded run).1⟩

end KeyspaceAmqp
