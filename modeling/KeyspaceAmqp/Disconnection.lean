import KeyspaceAmqp.Heartbeat

namespace KeyspaceAmqp
open Programs Paths

variable {s : Step} {w w' : World}

def Connects (s : Step) : Prop := ∃ argv, s.label.callback.carries = some (.connect,argv)

structure Still (s : Step) : Prop where
  unpublished : ∀ conn exchange routingKey deliveryMode body status,
    .amqp conn (.basicPublish exchange routingKey deliveryMode body status) ∉ s.after.trace
  unstored : ∀ key place string, .listPush key place string ∉ s.after.trace
  untaken : ∀ key popped, .listPop key popped ∉ s.after.trace
  lists : s.after.storage = s.before.storage

structure Offline (s : Step) : Prop where
  conn : s.after.conn = none
  silent : ∀ conn call, .amqp conn call ∉ s.after.trace

theorem Touches.within (touches : Touches parts (w.given script) w') : ∀ c ∈ w'.trace, c.part ∈ parts := by
  obtain ⟨more,added,inside⟩ := touches.calls
  rw [added]
  exact inside

theorem still_touches (touches : Touches parts (s.before.given s.label.script) s.after) (lists : .lists ∉ parts)
    (publishes : .publishes ∉ parts) : Still s where
  unpublished _ _ _ _ _ _ member := publishes (touches.within _ member)
  unstored _ _ _ member := lists (touches.within _ member)
  untaken _ _ member := lists (touches.within _ member)
  lists := touches.lists.resolve_left lists

theorem offline_touches (touches : Touches parts (s.before.given s.label.script) s.after) (closed : s.before.conn = none)
    (session : .session ∉ parts) (publishes : .publishes ∉ parts) : Offline s where
  conn := (touches.conn.resolve_left session).trans closed
  silent conn call member := by
    have inside : call.part ∈ parts := touches.within _ member
    cases call <;> first | exact session inside | exact publishes inside

theorem disabled_step (taken : step s.before s.label = some s.after) (off : s.before.amqpConnectionEnabled = false) :
    Touches [.heartbeat,.strings,.broadcasts,.replies] (s.before.given s.label.script) s.after ∨
    ∃ command argv m res n, s.label.callback.carries = some (command,argv) ∧
      Aside (s.before.given s.label.script) m ∧ Ends (command.body s.label.callback.ctx argv) m res n ∧
      Aside n s.after := by
  obtain ⟨before,⟨callback,script⟩,after⟩ := s
  have happens := step_happens taken
  cases happens with
  | event ran =>
    rcases onKeyspaceEvent_parts ran with ⟨_,enabled,_⟩ | ⟨_,same⟩
    · exact absurd (off.symm.trans enabled) Bool.false_ne_true
    · exact .inl (same ▸ .refl _)
  | timer ran =>
    obtain ⟨_,⟨_,same⟩ | ⟨enabled,_⟩⟩ := fireTimer_parts ran
    · exact .inl (same ▸ (fired_touches _ _).mono (by simp))
    · exact absurd (off.symm.trans enabled) Bool.false_ne_true
  | carried command argv known aside ran later => exact .inr ⟨command,argv,_,_,_,known,aside,ran,later⟩
  | ignored unknown aside => exact .inl (aside.touches.mono (by simp))

theorem disabled_touches (taken : step s.before s.label = some s.after) (off : s.before.amqpConnectionEnabled = false) :
    Touches [.settings,.count,.keys,.session,.heartbeat,.enabled,.replies,.strings,.broadcasts]
      (s.before.given s.label.script) s.after := by
  rcases disabled_step taken off with idle | ⟨command,argv,m,res,n,_,aside,ran,later⟩
  · exact idle.mono (by simp)
  · exact carried_touches command aside ran later

theorem disconnect_touches (ran : Ends (disconnectAmqpCommand argv) w res w') (closed : w.conn = none) :
    Touches [.enabled,.heartbeat,.replies] w w' := by
  simp only [disconnectAmqpCommand,ends_bind,ends_ite,ends_pure,ends_modify] at ran
  obtain ⟨_,m,arity,_,_,rfl,_,n,stopped,_,o,down,ran⟩ := ran
  have begun : Touches [.enabled,.heartbeat,.replies] w m := Keeps.keeps arity
  have off : Touches [.enabled,.heartbeat,.replies] m {m with amqpConnectionEnabled := false} :=
    .silent (.inr rfl) (.inl (by simp)) (.inr rfl) (.inr rfl) (.inr rfl) (.inr ⟨rfl,rfl⟩) (Nat.le_refl _) rfl
  have stopped := (begun.trans off).trans (Keeps.keeps stopped)
  have conn : n.conn = none := (stopped.conn.resolve_left (by decide)).trans closed
  rcases amqpDisconnect_parts down with ⟨_,_,rfl⟩ | ⟨live,_⟩
  · rcases ran with ⟨_,_,_,replied,_,rfl⟩ | ⟨_,_,_,replied,_,rfl⟩ <;> exact stopped.trans (Keeps.keeps replied)
  · exact absurd conn live

theorem closed_touches (taken : step s.before s.label = some s.after) (off : s.before.amqpConnectionEnabled = false)
    (closed : s.before.conn = none) (unconnected : ¬ Connects s) :
    Touches [.settings,.count,.keys,.heartbeat,.enabled,.replies,.strings,.broadcasts]
      (s.before.given s.label.script) s.after := by
  rcases disabled_step taken off with idle | ⟨command,argv,m,res,n,known,aside,ran,later⟩
  · exact idle.mono (by simp)
  refine (aside.touches.mono (by simp)).trans (.trans ?_ (later.touches.mono (by simp)))
  rcases body_parts command ran with ⟨rfl,_⟩ | ⟨rfl,ran⟩ | ⟨_,_,touched⟩
  · exact absurd ⟨argv,known⟩ unconnected
  · exact (disconnect_touches ran (aside.same.conn.trans closed)).mono (by simp)
  · exact touched.mono (by simp)

theorem beat_enabled (beat : Beat s h) (off : s.before.amqpConnectionEnabled = false) (unopened : ¬ Opens s) :
    h.enabled = false := by
  cases beat with
  | quiet _ _ _ => exact off
  | armed _ _ _ => exact off
  | stale _ _ _ => exact off
  | fired _ _ _ => exact off
  | opened opens _ => exact absurd opens unopened
  | stopped _ => rfl

theorem disconnect_closed (taken : step s.before s.label = some s.after) (stops : Disconnects s) :
    s.after.amqpConnectionEnabled = false ∧ s.after.conn = none := by
  refine ⟨congrArg Heart.enabled (disconnect_heart taken stops),?_⟩
  obtain ⟨before,⟨callback,script⟩,after⟩ := s
  obtain ⟨argv,carried⟩ := stops
  have happens := step_happens taken
  cases happens with
  | event ran => cases carried
  | timer ran => cases carried
  | carried command argv known aside ran later =>
    cases known.symm.trans carried
    obtain ⟨m,response,n,final,arity,down,rfl⟩ := disconnectAmqpCommand_parts ran
    exact later.same.conn.trans (amqpDisconnect_wire down).2
  | ignored unknown aside => cases unknown.symm.trans carried

-- After a disconnect, up to the next connect there is no connection, and up to the first
-- that succeeds nothing is published, stored or taken from a list.
theorem disconnect_sticks (run : Run start steps last) (parts : steps = first ++ d :: (calm ++ later))
    (stops : Disconnects d) :
    d.after.conn = none ∧
    ((∀ s ∈ calm, ¬ Connects s) → ∀ s ∈ calm, Offline s ∧ Still s) ∧
    ((∀ s ∈ calm, ¬ Opens s) → ∀ s ∈ calm, Still s) := by
  have taken := run.edge_taken (show d ∈ steps by simp [parts])
  obtain ⟨off,closed⟩ := disconnect_closed taken stops
  obtain ⟨middle,run,_⟩ := (run.around parts).2.cut rfl
  refine ⟨closed,?_,?_⟩
  · intro unconnected
    have kept := (run.throughout (fun w => w.amqpConnectionEnabled = false ∧ w.conn = none) (fun s => ¬ Connects s)
      ⟨off,closed⟩ ?_ unconnected).2
    · intro s member
      have touched := closed_touches (run.edge_taken member) (kept s member).1.1 (kept s member).1.2 (unconnected s member)
      exact ⟨offline_touches touched (kept s member).1.2 (by decide) (by decide),
        still_touches touched (by decide) (by decide)⟩
    · rintro s taken unconnected ⟨off,closed⟩
      have touched := closed_touches taken off closed unconnected
      have unopened : ¬ Opens s := fun ⟨argv,carried,_⟩ => unconnected ⟨argv,carried⟩
      exact ⟨beat_enabled (step_beat taken) off unopened,(touched.conn.resolve_left (by decide)).trans closed⟩
  · intro unopened
    have kept := (run.throughout (fun w => w.amqpConnectionEnabled = false) (fun s => ¬ Opens s) off
      (fun s taken unopened off => beat_enabled (step_beat taken) off unopened) unopened).2
    intro s member
    exact still_touches (disabled_touches (run.edge_taken member) (kept s member).1) (by decide) (by decide)

theorem disconnect_sticks_stale : ∃ start first d calm last, Run start (first ++ d :: (calm ++ [])) last ∧
    Disconnects d ∧ calm.map (fun s => s.label.callback) =
      [(expired 0 "c" []).callback,.timer ⟨3,0⟩ REDISMODULE_CTX_FLAGS_MASTER] ∧
    ∀ s ∈ calm, Offline s ∧ Still s := by
  let event := expired 0 "c" []
  let timer : Turn := ⟨.timer ⟨3,0⟩ REDISMODULE_CTX_FLAGS_MASTER,[]⟩
  obtain ⟨start,first,w,_,run,seen⟩ := played_run (master 0) (allKeys "0") (fun _ => [])
    [expired 0 "a" (connects ++ accepts),expired 0 "b" loses,told .connect [] connects]
    (fun _ _ w => (step w (told .disconnect [] [])).any fun u => (step u event).any fun v => (step v timer).any fun _ => true)
    (by decide +kernel)
  obtain ⟨u,stopped,seen⟩ := (Option.any_eq_true _ _).mp seen
  obtain ⟨v,came,seen⟩ := (Option.any_eq_true _ _).mp seen
  obtain ⟨last,fired,_⟩ := (Option.any_eq_true _ _).mp seen
  let d : Step := ⟨w,told .disconnect [] [],u⟩
  let calm : List Step := [⟨u,event,v⟩,⟨v,timer,last⟩]
  have whole : Run start (first ++ d :: (calm ++ [])) last := run.append (.cons stopped (.cons came (.single fired)))
  have stops : Disconnects d := ⟨_,rfl⟩
  have unconnected : ∀ s ∈ calm, ¬ Connects s := by
    rintro s member ⟨argv,carried⟩
    rcases List.mem_pair.mp member with rfl | rfl <;> cases carried
  exact ⟨start,first,d,calm,last,whole,stops,rfl,(disconnect_sticks whole rfl stops).2.1 unconnected⟩

end KeyspaceAmqp
