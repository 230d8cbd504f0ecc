import KeyspaceAmqp.Roles
import KeyspaceAmqp.Attempts

namespace KeyspaceAmqp
open Programs Paths Outbox

-- The answers left when the next publish is taken: the wait before it finds nothing amiss,
-- and the library takes the body.
def accepted (script : List Answer) : Option (List Answer) := match waitOutcome script with
  | some (status,.status code :: rest) => if status = AMQP_STATUS_OK ∧ code = AMQP_STATUS_OK then some rest else none
  | _ => none

def World.connected (w : World) : Option (List Answer) :=
  if w.conn ≠ none then some w.script
  else if w.heardBeatTimerId ≠ 0 then none
  else if connectOutcome none w.script = some REDIS_AMQP_OK then some (w.script.drop 4)
  else if connectOutcome none w.script = some REDIS_AMQP_SOCKET_ERR then some (w.script.drop 1)
  else none

-- A callback that sends a stored event: there is one, and the answers let the oldest through.
def Drains (w : World) (turn : Turn) : Prop := w.storage turn.callback.ctx.db ≠ [] ∧ match turn.callback with
  | .timer _ _ => w.amqpConnectionEnabled = true ∧ ((reopened w.conn turn.script).bind accepted).isSome = true
  | .keyspaceEvent ctx _ _ key => Takes w ctx key ∧
    (((w.given turn.script).connected.bind accepted).bind accepted).isSome = true
  | _ => False

instance (w : World) (turn : Turn) : Decidable (Drains w turn) := by
  unfold Drains
  cases turn.callback <;> infer_instance

theorem amqpPublish_delivers (ran : Ends (amqpPublish body) w res w') (live : w.conn ≠ none) :
    (res = AMQP_STATUS_OK ∧ accepted w.script = some w'.script ∧ w'.conn = w.conn ∧
      delivered w'.trace = delivered w.trace ++ [body.bytes]) ∨
    (res ≠ AMQP_STATUS_OK ∧ accepted w.script = none ∧ delivered w'.trace = delivered w.trace) := by
  simp only [amqpPublish,ends_bind,ends_get,ends_ite,ends_pure,not_not] at ran
  obtain ⟨_,_,⟨rfl,rfl⟩,⟨_,status,m,waited,ran⟩ | ⟨closed,_⟩⟩ := ran
  · have outcome := amqpWaitFrame_outcome waited
    have heard : Touches [.session] w m := Keeps.keeps waited
    rcases ran with ⟨bad,_,n,down,rfl,rfl⟩ | ⟨ok,asked⟩
    · refine .inr ⟨by decide,?_,(heard.trans (Keeps.keeps down)).delivered (by decide)⟩
      cases script : m.script with
      | nil => simp [accepted,outcome,script]
      | cons a rest => cases a <;> simp [accepted,outcome,script,bad]
    · obtain ⟨a,rest,script,picked,rfl⟩ := ends_askAmqp.mp asked
      cases status_answer picked
      have before := heard.delivered (by decide)
      by_cases taken : res = AMQP_STATUS_OK
      · refine .inl ⟨taken,by simp [accepted,outcome,script,ok,taken],(amqpWaitFrame_wire waited).2,?_⟩
        rw [delivered_append,before]
        simp [delivered,taken]
      · refine .inr ⟨taken,by simp [accepted,outcome,script,taken],?_⟩
        rw [delivered_append,before]
        simp [delivered,taken]
  · exact absurd closed live

theorem publishStoredEvents_delivers (ran : Ends (publishStoredEvents ctx) w res w') (live : w.conn ≠ none)
    (idle : w.storage ctx.db = [] ∨ accepted w.script = none) : delivered w'.trace = delivered w.trace := by
  rcases publishStoredEvents_first ran with ⟨_,touched⟩ | ⟨waiting,m,status,n,body,begun,script,conn,tried,ended⟩
  · exact touched.delivered (by decide)
  rcases amqpPublish_delivers tried (conn ▸ live) with ⟨_,taken,_,_⟩ | ⟨refused,_,same⟩
  · rw [script,idle.resolve_left waiting] at taken
    cases taken
  · rw [if_neg refused] at ended
    rw [ended.delivered (by decide),same,begun.delivered (by decide)]

theorem firstEvent_connects (ran : Ends (firstEvent ctx) w u w') :
    (if w'.conn = none then none else some w'.script) = w.connected := by
  rcases firstEvent_parts ran with ⟨set,rfl⟩ | ⟨idle,res,m,connected,rfl⟩
  · by_cases live : w'.conn = none <;> simp [World.connected,live,set]
  have armed : (m.armed ctx.db).conn = m.conn ∧ (m.armed ctx.db).script = m.script := ⟨rfl,rfl⟩
  rw [armed.1,armed.2,World.connected]
  have outcome := amqpConnect_outcome connected
  rcases amqpConnect_parts connected with ⟨live,_,rfl⟩ | ⟨closed,answers,said,rest,attempt,script,left⟩
  · rw [if_neg live,if_pos live]
  rw [closed] at outcome
  rw [if_neg (not_not.mpr closed),if_neg (not_not.mpr idle),outcome]
  cases attempt with
  | opened | socket =>
    rw [if_pos (by decide)] at left
    subst left
    simp [World.made,script,REDIS_AMQP_SOCKET_ERR,REDIS_AMQP_OK]
  | _ =>
    rw [if_neg (by decide)] at left
    obtain ⟨_,down⟩ := left
    rw [(amqpDisconnect_wire down).2,if_pos rfl,if_neg (by decide),if_neg (by decide)]

theorem publishEvent_delivers (ran : Ends (publishEvent ctx event keyname) w u w')
    (idle : w.storage ctx.db = [] ∨
      ((if w.conn = none then none else some w.script).bind accepted).bind accepted = none) :
    (delivered w'.trace).length ≤ (delivered w.trace).length+1 := by
  let entered := w.entered ctx.db (messageString ctx.db event keyname)
  have begun : delivered entered.trace = delivered w.trace := by simp [entered,World.entered,delivered]
  rcases publishEvent_ways ran with ⟨live,res,m,tried,ran⟩ | ⟨_,pushed⟩
  · rw [if_neg live] at idle
    have tries : Touches [.session,.publishes] entered m := Keeps.keeps tried
    have listed : m.storage = w.storage := tries.lists.resolve_left (by decide)
    rcases ran with ⟨bad,pushed⟩ | ⟨ok,_,drained⟩
    · have pushed : Touches [.lists,.strings,.keys] m w' := Keeps.keeps pushed
      rcases amqpPublish_delivers tried live with ⟨ok,_⟩ | ⟨_,_,same⟩
      · exact absurd ok bad
      · exact ((congrArg List.length ((pushed.delivered (by decide)).trans (same.trans begun))).le).trans (Nat.le_succ _)
    · rcases amqpPublish_delivers tried live with ⟨_,taken,same,sent⟩ | ⟨bad,_⟩
      · have taken : accepted w.script = some m.script := taken
        have idle : m.storage ctx.db = [] ∨ accepted m.script = none := by simpa [taken,listed] using idle
        have sent : delivered m.trace = delivered entered.trace ++ [(messageString ctx.db event keyname).bytes] := sent
        rw [publishStoredEvents_delivers drained (same ▸ live) idle,sent,begun]
        simp
      · exact absurd ok bad
  · have pushed : Touches [.lists,.strings,.keys] entered w' := Keeps.keeps pushed
    rw [pushed.delivered (by decide),begun]
    exact Nat.le_succ _

def occurrence : Callback → List Bytes
  | .keyspaceEvent ctx _ event key =>
    if isRedisMaster ctx then [(messageString ctx.db event (cstr key)).bytes] else []
  | _ => []

theorem event_books (ran : Ends (onKeyspaceEvent ctx type event key) (w.given script) res w') :
    ((handedOver w'.trace).map Prod.snd).Sublist (occurrence (.keyspaceEvent ctx type event key)) ∧
    (¬ Drains w ⟨.keyspaceEvent ctx type event key,script⟩ →
      (delivered w'.trace).length ≤ (handedOver w'.trace).length) := by
  rcases onKeyspaceEvent_ways ran with ⟨takes,m,first,begun,published⟩ | ⟨_,begun⟩
  · have given : handedOver m.trace = [] := begun.handedOver (by decide)
    have gone : delivered m.trace = [] := begun.delivered (by decide)
    have hands := publishEvent_hands published
    rw [given,List.nil_append] at hands
    refine ⟨by simp [hands,occurrence,takes.1],?_⟩
    intro idle
    have listed : m.storage = w.storage := begun.lists.resolve_left (by decide)
    have idle : m.storage ctx.db = [] ∨
        ((if m.conn = none then none else some m.script).bind accepted).bind accepted = none := by
      rw [firstEvent_connects first,listed]
      by_cases empty : w.storage ctx.db = []
      · exact .inl empty
      · refine .inr (Option.not_isSome_iff_eq_none.mp fun drains => idle ⟨empty,takes,drains⟩)
    have one := publishEvent_delivers published idle
    rw [gone] at one
    rw [hands]
    exact one
  · have given : handedOver w'.trace = [] := begun.handedOver (by decide)
    have gone : delivered w'.trace = [] := begun.delivered (by decide)
    rw [given,gone]
    exact ⟨List.nil_sublist _,fun _ => Nat.le_refl _⟩

theorem timer_books (ran : Ends (fireTimer t flags) (w.given script) () w') :
    handedOver w'.trace = [] ∧ (¬ Drains w ⟨.timer t flags,script⟩ → delivered w'.trace = []) := by
  rcases fireTimer_drains ran with ⟨_,touched⟩ | ⟨enabled,left,m,res,n,opened,touched,answers,live,drained,rfl⟩
  · exact ⟨touched.handedOver (by decide),fun _ => touched.delivered (by decide)⟩
  have armed := armed_touches n t.db
  have swept : Touches draining m n := Keeps.keeps drained
  refine ⟨?_,fun idle => ?_⟩
  · rw [armed.handedOver (by decide),swept.handedOver (by decide),touched.handedOver (by decide)]
    rfl
  have listed : m.storage = w.storage := touched.lists.resolve_left (by decide)
  have opened : reopened w.conn script = some left := opened
  have idle : m.storage t.db = [] ∨ accepted m.script = none := by
    rw [listed,answers]
    by_cases empty : w.storage t.db = []
    · exact .inl empty
    · refine .inr (Option.not_isSome_iff_eq_none.mp fun drains => idle ⟨empty,enabled,?_⟩)
      rw [opened]
      exact drains
  rw [armed.delivered (by decide),publishStoredEvents_delivers drained live idle,touched.delivered (by decide)]
  rfl

theorem turn_books (taken : step w turn = some w') :
    ((handedOver w'.trace).map Prod.snd).Sublist (occurrence turn.callback) ∧
      (¬ Drains w turn → (delivered w'.trace).length ≤ (handedOver w'.trace).length) := by
  obtain ⟨callback,script⟩ := turn
  have nothing {parts : List Part} (touches : Touches parts (w.given script) w') (unhanded : .events ∉ parts)
      (unsent : .publishes ∉ parts) : handedOver w'.trace = [] ∧ delivered w'.trace = [] :=
    ⟨touches.handedOver unhanded,touches.delivered unsent⟩
  have happens := step_happens taken
  cases happens with
  | event ran => exact event_books ran
  | timer ran =>
    obtain ⟨hands,sends⟩ := timer_books ran
    rw [hands]
    exact ⟨List.nil_sublist _,fun idle => by simp [sends idle]⟩
  | carried command argv known aside ran later =>
    obtain ⟨hands,sends⟩ := nothing (carried_touches command aside ran later) (by decide) (by decide)
    rw [hands,sends]
    exact ⟨List.nil_sublist _,fun _ => Nat.le_refl _⟩
  | ignored unknown aside =>
    obtain ⟨hands,sends⟩ := nothing aside.touches (by decide) (by decide)
    rw [hands,sends]
    exact ⟨List.nil_sublist _,fun _ => Nat.le_refl _⟩

theorem turn_counts (taken : step w turn = some w') (clean : Clean w.storage) (body : Bytes) :
    (∀ q, q ≠ turn.callback.ctx.db → w'.storage q = w.storage q) ∧
    (w'.storage turn.callback.ctx.db).count body + (delivered w'.trace).count body ≤
      (w.storage turn.callback.ctx.db).count body + (occurrence turn.callback).count body ∧
    (¬ Drains w turn → ∃ kept, (w'.storage turn.callback.ctx.db).count body ≤
        (w.storage turn.callback.ctx.db).count body + kept ∧
      (delivered w'.trace).count body + kept ≤ (occurrence turn.callback).count body) := by
  obtain ⟨ms,shape,store,fit,mailed,_⟩ := step_effect taken
  have mailed := mailed clean
  obtain ⟨direct,count,kept,some,alone,sends,moved,hands⟩ := shape_parts shape w.store fit
  have listed : w'.storage = (w.store.moves ms).storage := congrArg Store.storage store
  obtain ⟨occurred,undrained⟩ := turn_books taken
  rw [← mailed,sent_mail] at sends
  rw [← mailed,handed_mail] at hands
  have given : (handedOver w'.trace).map Prod.snd = direct ++ kept := by simp [hands,Function.comp_def]
  have most := occurred.count_le body
  rw [given,List.count_append] at most
  have others : ∀ q, q ≠ turn.callback.ctx.db → w'.storage q = w.storage q := by
    intro q other
    rw [listed,moved]
    exact Function.update_of_ne other _ _
  have evicted : (w.store.evicted turn.callback.ctx.db).count body ≤ (w.storage turn.callback.ctx.db).count body := by
    unfold Store.evicted
    split
    · exact (List.tail_sublist _).count_le body
    · exact Nat.le_refl _
  have parts : (w.storage turn.callback.ctx.db).count body =
      ((w.storage turn.callback.ctx.db).take count).count body + ((w.storage turn.callback.ctx.db).drop count).count body := by
    rw [← List.count_append,List.take_append_drop]
  have stays (none : count = 0) :
      (w'.storage turn.callback.ctx.db).count body ≤ (w.storage turn.callback.ctx.db).count body + kept.count body := by
    rw [listed,moved,Function.update_self,none,List.drop_zero,List.count_append]
    split
    · exact Nat.le_refl _
    · exact Nat.add_le_add_right evicted _
  have sent : (delivered w'.trace).count body =
      direct.count body + ((w.storage turn.callback.ctx.db).take count).count body := by
    rw [sends,List.count_append]
    rfl
  refine ⟨others,?_,?_⟩
  · rcases alone with rfl | rfl
    · rw [sent,listed,moved,Function.update_self,if_pos rfl,List.append_nil,store_storage]
      omega
    · have stays := stays rfl
      rw [List.take_zero,List.count_nil] at sent
      omega
  · intro idle
    have fewer := undrained idle
    rw [sends,hands,List.length_append,List.length_map,List.length_append,List.length_take,
      Nat.min_eq_left some] at fewer
    have none : count = 0 := by
      rcases alone with rfl | none
      · rw [List.length_nil] at fewer
        omega
      · exact none
    rw [none,List.take_zero,List.count_nil] at sent
    exact ⟨kept.count body,stays none,by omega⟩

end KeyspaceAmqp
