import KeyspaceAmqp.Attempts

namespace KeyspaceAmqp
open Programs Paths

structure Event where
  db : Int32
  event : CString
  key : Bytes
  deriving DecidableEq

def Event.message (e : Event) : CString := messageString e.db e.event (cstr e.key)

-- The array publishEvent prints it into.
def Event.buffer (e : Event) : Nat := 21+1+e.event.bytes.length+1+(cstr e.key).bytes.length

def cutLine (text : Bytes) : Option (Bytes × Bytes) :=
  if 10 ∈ text then some (text.takeWhile (· ≠ 10),(text.dropWhile (· ≠ 10)).tail) else none

def fields (body : Bytes) : Option (Bytes × Bytes × Bytes) := do
  let (db,rest) ← cutLine body
  let (event,key) ← cutLine rest
  return (db,event,key)

def Event.fields (e : Event) : Bytes × Bytes × Bytes := (decimalBytes e.db.toInt,e.event.bytes,e.key)

theorem cutLine_line (line rest : Bytes) (plain : 10 ∉ line) : cutLine (line ++ 10 :: rest) = some (line,rest) := by
  have all : ∀ b ∈ line, decide (b ≠ 10) = true := fun b member => by
    simpa using fun newline : b = 10 => plain (newline ▸ member)
  rw [cutLine,if_pos (by simp),List.takeWhile_append_of_pos all,List.dropWhile_append_of_pos all]
  simp

theorem message_fields (e : Event) (plain : 10 ∉ e.event.bytes) :
    fields e.message.bytes = some (decimalBytes e.db.toInt,e.event.bytes,(cstr e.key).bytes) := by
  have number : 10 ∉ decimalBytes e.db.toInt := fun member => by
    rcases decimalBytes_range member with sign | digit
    · exact absurd sign (by decide)
    · exact absurd digit.1 (by decide)
  have body : e.message.bytes = decimalBytes e.db.toInt ++ 10 :: (e.event.bytes ++ 10 :: (cstr e.key).bytes) := by
    simp [Event.message,messageString,newline,decimal]
  simp only [fields,body,cutLine_line _ _ number,cutLine_line _ _ plain,Option.bind_eq_bind,Option.bind_some]
  rfl

theorem message_fits (e : Event) : e.message.bytes.length+1 ≤ e.buffer := by
  have number := decimalBytes_length e.db
  simp only [Event.message,messageString,Event.buffer,append_bytes,List.length_append,newline,decimal,
    List.length_singleton]
  omega

theorem cstr_whole (key : Bytes) : (cstr key).bytes = key ↔ 0 ∉ key := by
  constructor
  · intro whole
    exact whole ▸ (cstr key).noNul
  · exact cstr_bytes key

theorem message_identifies (e : Event) (plain : 10 ∉ e.event.bytes) :
    fields e.message.bytes = some e.fields ↔ 0 ∉ e.key := by
  rw [message_fields e plain,← cstr_whole]
  simp [Event.fields]

theorem fields_injective {one two : Event} (same : one.fields = two.fields) : one = two := by
  obtain ⟨db,event,key⟩ := one
  obtain ⟨db',event',key'⟩ := two
  simp only [Event.fields,Prod.mk.injEq] at same
  obtain ⟨number,name,rfl⟩ := same
  obtain rfl := Int32.toInt_inj.mp (decimalBytes_injective number)
  obtain rfl := CString.ext name
  rfl

def eventOf (s : Step) : Option Event := match s.label.callback with
  | .keyspaceEvent ctx _ event key => if Takes s.before ctx key then some ⟨ctx.db,event,key⟩ else none
  | _ => none

theorem eventOf_event (w w' : World) (ctx : Ctx) (type : Int32) (event : CString) (key : Bytes) (script : List Answer) :
    eventOf ⟨w,⟨.keyspaceEvent ctx type event key,script⟩,w'⟩ =
      if Takes w ctx key then some ⟨ctx.db,event,key⟩ else none := rfl

def eventsOf (steps : List Step) : List Event := steps.filterMap eventOf

theorem eventsOf_snoc (steps : List Step) (s : Step) :
    eventsOf (steps ++ [s]) = eventsOf steps ++ (eventOf s).toList := by
  simp [eventsOf,List.filterMap_append,List.filterMap_cons]
  cases eventOf s <;> rfl

def Carries (w w' : World) (own : List Bytes) : Prop :=
  (∀ db, ∀ bytes ∈ w'.storage db, bytes ∈ w.storage db ∨ bytes ∈ own) ∧
  ∃ tried, Tried w w' tried ∧ ∀ t ∈ tried, (∃ db, ∃ bytes ∈ w.storage db, t.1 = resent bytes) ∨ t.1 ∈ own

theorem Touches.carries (touches : Touches parts w w') (lists : .lists ∉ parts) (publishes : .publishes ∉ parts) :
    Carries w w' [] := by
  have same : w'.storage = w.storage := touches.lists.resolve_left lists
  exact ⟨fun db bytes member => .inl (same ▸ member),[],touches.untried publishes,by simp⟩

theorem Swept.carries (swept : Swept db w w' count) : Carries w w' [] := by
  obtain ⟨_,left,refused,tried,why⟩ := swept
  refine ⟨fun p bytes member => .inl ?_,_,tried,fun t member => .inl ?_⟩
  · rw [left] at member
    by_cases same : p = db
    · subst same
      exact List.mem_of_mem_drop (by simpa using member)
    · simpa [same] using member
  · rcases List.mem_append.mp member with sent | last
    · obtain ⟨bytes,listed,rfl⟩ := List.mem_map.mp sent
      exact ⟨db,bytes,List.mem_of_mem_take listed,rfl⟩
    · rcases why with rfl | ⟨bytes,status,listed,_,rfl⟩
      · cases last
      · cases List.mem_singleton.mp last
        exact ⟨db,bytes,List.mem_of_getElem? listed,rfl⟩

theorem Disposed.carries (disposed : Disposed ctx body w w') : Carries w w' [body] := by
  cases disposed with
  | published tried left swept =>
    obtain ⟨listed,more,later,inside⟩ := swept.carries
    refine ⟨fun db bytes member => (listed db bytes member).elim (fun old => .inl (left ▸ old)) (by simp),_,
      tried.trans later,fun t member => ?_⟩
    rcases List.mem_cons.mp member with rfl | member
    · exact .inr (by simp)
    · exact (inside t member).elim (fun old => .inl (left ▸ old)) (by simp)
  | kept left tried =>
    refine ⟨fun db bytes member => ?_,?_⟩
    · rw [left] at member
      by_cases same : db = ctx.db
      · subst same
        rw [Function.update_self] at member
        rcases List.mem_append.mp member with old | new
        · refine .inl ?_
          unfold Store.evicted at old
          split at old
          · exact List.mem_of_mem_tail old
          · exact old
        · exact .inr new
      · exact .inl (by simpa [same] using member)
    · rcases tried with none | ⟨status,_,one⟩
      · exact ⟨_,none,by simp⟩
      · exact ⟨_,one,by simp⟩

theorem timer_carries (ran : Ends (fireTimer timer flags) w u w') : Carries w w' [] := by
  have begun := fired_touches w timer
  obtain ⟨_,⟨_,rfl⟩ | ⟨_,m,checked,rfl⟩⟩ := fireTimer_parts ran
  · exact begun.carries (by decide) (by decide)
  · obtain ⟨count,swept⟩ := checkConnection_swept checked
    have swept : Swept timer.db w m count := swept.before rfl (begun.untried (by decide))
    obtain ⟨listed,tried,tries,inside⟩ := swept.carries
    have armed : Tried m (m.armed timer.db) [] := (armed_touches m timer.db).untried (by decide)
    exact ⟨listed,tried,by simpa using tries.trans armed,inside⟩

theorem event_carries (ran : Ends (onKeyspaceEvent ctx type event key) w res w') :
    Carries w w' (if Takes w ctx key then [(messageString ctx.db event (cstr key)).bytes] else []) := by
  rcases onKeyspaceEvent_disposed ran with ⟨takes,disposed⟩ | ⟨ignores,same,untried⟩
  · rw [if_pos takes]
    exact disposed.carries
  · rw [if_neg ignores]
    exact ⟨fun db bytes member => .inl (same ▸ member),[],untried,by simp⟩

theorem event_hands (ran : Ends (onKeyspaceEvent ctx type event key) (w.given script) res w') :
    handedOver w'.trace = ((eventOf ⟨w,⟨.keyspaceEvent ctx type event key,script⟩,w'⟩).map fun e =>
      (e.db,e.message.bytes)).toList := by
  rcases onKeyspaceEvent_ways ran with ⟨takes,m,_,begun,published⟩ | ⟨ignores,begun⟩
  · have takes : Takes w ctx key := takes
    have nothing : handedOver m.trace = [] := begun.handedOver (by decide)
    rw [publishEvent_hands published,nothing,eventOf_event,if_pos takes]
    rfl
  · have ignores : ¬ Takes w ctx key := ignores
    have nothing : handedOver w'.trace = [] := begun.handedOver (by decide)
    rw [nothing,eventOf_event,if_neg ignores]
    rfl

theorem timer_hands (ran : Ends (fireTimer timer flags) w u w') : handedOver w'.trace = handedOver w.trace := by
  have begun := (fired_touches w timer).handedOver (by decide)
  obtain ⟨_,⟨_,rfl⟩ | ⟨_,m,checked,rfl⟩⟩ := fireTimer_parts ran
  · exact begun
  · have checked : Touches [.session,.publishes,.lists,.strings,.count,.keys] (w.fired timer) m := Keeps.keeps checked
    rw [(armed_touches m timer.db).handedOver (by decide),checked.handedOver (by decide),begun]

def ownBodies (s : Step) : List Bytes := ((eventOf s).map fun e => e.message.bytes).toList

theorem step_carries (s : Step) (taken : step s.before s.label = some s.after) :
    Carries (s.before.given s.label.script) s.after (ownBodies s) := by
  have happens := step_happens taken
  obtain ⟨before,⟨callback,script⟩,after⟩ := s
  cases happens with
  | event ran =>
    have own := event_carries ran
    simp only [ownBodies,eventOf,apply_ite Option.toList,apply_ite (Option.map _),Option.map_some,Option.map_none]
    exact own
  | timer ran => exact timer_carries ran
  | ignored unknown aside => exact aside.touches.carries (by decide) (by decide)
  | carried command argv known earlier ran later =>
    have none : ownBodies ⟨before,⟨callback,script⟩,after⟩ = [] := by
      cases callback with
      | keyspaceEvent => cases known
      | _ => rfl
    rw [none]
    exact (carried_touches command earlier ran later).carries (by decide) (by decide)

theorem step_hands (s : Step) (taken : step s.before s.label = some s.after) :
    handedOver s.after.trace = ((eventOf s).map fun e => (e.db,e.message.bytes)).toList := by
  have happens := step_happens taken
  obtain ⟨before,⟨callback,script⟩,after⟩ := s
  cases happens with
  | event ran => exact event_hands ran
  | timer ran => exact timer_hands ran
  | ignored unknown aside => exact aside.touches.handedOver (by decide)
  | carried command argv known earlier ran later =>
    have none : eventOf ⟨before,⟨callback,script⟩,after⟩ = none := by
      cases callback with
      | keyspaceEvent => cases known
      | _ => rfl
    rw [none]
    exact (carried_touches command earlier ran later).handedOver (by decide)

theorem run_hands (run : Run start steps last) :
    handedOver (calls steps) = (eventsOf steps).map fun e => (e.db,e.message.bytes) := by
  refine run.carry (fun done _ => handedOver (calls done) = (eventsOf done).map fun e => (e.db,e.message.bytes))
    (fun _ => True) rfl ?_ fun _ _ => trivial
  rintro done s _ taken - old
  rw [calls_snoc,handedOver_append,old,step_hands s taken,eventsOf_snoc,List.map_append]
  cases eventOf s <;> rfl

def Holds (events : List Event) (w : World) : Prop :=
  ∀ db, ∀ bytes ∈ w.storage db, ∃ e ∈ events, bytes = e.message.bytes

theorem run_messages (run : Run start steps last) (held : Holds past start) :
    Holds (past ++ eventsOf steps) last ∧
      ∀ tried ∈ tries (calls steps), ∃ e ∈ past ++ eventsOf steps, tried.1 = e.message.bytes := by
  refine run.carry (fun done w => Holds (past ++ eventsOf done) w ∧
    ∀ tried ∈ tries (calls done), ∃ e ∈ past ++ eventsOf done, tried.1 = e.message.bytes) (fun _ => True)
    ⟨by simpa [eventsOf] using held,by simp [calls,tries]⟩ ?_ fun _ _ => trivial
  rintro done s _ taken - ⟨held,tried⟩
  obtain ⟨listed,more,added,inside⟩ := step_carries s taken
  have older : ∀ e ∈ past ++ eventsOf done, e ∈ past ++ eventsOf (done ++ [s]) := by
    simp only [eventsOf_snoc,← List.append_assoc]
    exact fun e member => List.mem_append_left _ member
  have own : ∀ bytes ∈ ownBodies s,
      ∃ e ∈ past ++ eventsOf (done ++ [s]), bytes = e.message.bytes := by
    intro bytes member
    simp only [ownBodies,Option.mem_toList,Option.map_eq_some_iff] at member
    obtain ⟨e,here,rfl⟩ := member
    exact ⟨e,by simp [eventsOf_snoc,here],rfl⟩
  refine ⟨fun db bytes member => ?_,fun t member => ?_⟩
  · rcases listed db bytes member with old | new
    · obtain ⟨e,known,same⟩ := held db bytes old
      exact ⟨e,older e known,same⟩
    · exact own bytes new
  · rw [calls_snoc,tries_append] at member
    rcases List.mem_append.mp member with early | late
    · obtain ⟨e,known,same⟩ := tried t early
      exact ⟨e,older e known,same⟩
    · obtain ⟨calls,trace,rfl⟩ := added
      rw [trace] at late
      rcases inside t (by simpa [World.given] using late) with ⟨db,bytes,old,same⟩ | new
      · obtain ⟨e,known,rfl⟩ := held db bytes old
        exact ⟨e,older e known,by simpa [resent] using same⟩
      · exact own _ new

structure Identifying (events : List Event) (steps : List Step) : Prop where
  built : ∀ given ∈ handedOver (calls steps), ∃ e ∈ events, given = (e.db,e.message.bytes)
  whole : ∀ e ∈ events, e.message.bytes.length+1 ≤ e.buffer ∧ fields e.message.bytes = some e.fields
  published : ∀ tried ∈ tries (calls steps), ∃ e ∈ events, tried.1 = e.message.bytes ∧ fields tried.1 = some e.fields
  distinct : ∀ one ∈ events, ∀ two ∈ events, one.message = two.message → one = two

-- The bodies of a run identify the events they are of, the stored ones of earlier runs
-- included, just when no key has a NUL, at which it is cut.
theorem messages_identify_iff (run : Run start steps last) (held : Holds past start)
    (names : ∀ e ∈ past ++ eventsOf steps, 10 ∉ e.event.bytes) :
    Identifying (past ++ eventsOf steps) steps ↔ ∀ e ∈ past ++ eventsOf steps, 0 ∉ e.key := by
  constructor
  · intro identifying e member
    exact (message_identifies e (names e member)).mp (identifying.whole e member).2
  · intro whole
    have split : ∀ e ∈ past ++ eventsOf steps, fields e.message.bytes = some e.fields := fun e member =>
      (message_identifies e (names e member)).mpr (whole e member)
    refine ⟨fun given member => ?_,fun e member => ⟨message_fits e,split e member⟩,fun tried member => ?_,
      fun one first two second same => ?_⟩
    · rw [run_hands run] at member
      obtain ⟨e,here,rfl⟩ := List.mem_map.mp member
      exact ⟨e,List.mem_append_right _ here,rfl⟩
    · obtain ⟨e,known,same⟩ := (run_messages run held).2 tried member
      exact ⟨e,known,same,same ▸ split e known⟩
    · have parts := split one first
      rw [same,split two second] at parts
      exact (fields_injective (Option.some.inj parts)).symm

theorem messages_identify_iff_stored : ∃ start steps last, Run start steps last ∧
    (delivered (calls steps)).length = 2 ∧ (∀ e ∈ eventsOf steps, 0 ∉ e.key) ∧
    (Identifying ([] ++ eventsOf steps) steps ↔ ∀ e ∈ [] ++ eventsOf steps, 0 ∉ e.key) := by
  obtain ⟨start,steps,last,loaded,run,seen⟩ := played_run (master 0) (allKeys "0") (fun _ => [])
    [expired 0 "a\nb" (connects ++ refuses),expired 0 "" (accepts ++ accepts)]
    (fun _ steps _ => decide ((∀ e ∈ eventsOf steps, 10 ∉ e.event.bytes) ∧
      (delivered (calls steps)).length = 2 ∧ ∀ e ∈ eventsOf steps, 0 ∉ e.key)) (by decide +kernel)
  obtain ⟨names,sent,whole⟩ := of_decide_eq_true seen
  have empty : ∀ db, start.storage db = [] := congrFun (loaded_store loaded).1
  have held : Holds [] start := fun db bytes member => by
    rw [empty db] at member
    cases member
  exact ⟨start,steps,last,run,sent,whole,messages_identify_iff run held (by simpa using names)⟩

-- Of the key a NUL b only the a goes out, as for the key a.
theorem binary_key_cut : ∃ start steps last, Loaded (master 0) (allKeys "0") (fun _ => []) start ∧ Run start steps last ∧
    eventsOf steps = [⟨0,cstr (ascii "expired"),[97,0,98]⟩,⟨0,cstr (ascii "expired"),[97]⟩] ∧
    tries (calls steps) = [(ascii "0\nexpired\na",AMQP_STATUS_OK),(ascii "0\nexpired\na",AMQP_STATUS_OK)] ∧
    ¬ Identifying (eventsOf steps) steps := by
  obtain ⟨start,steps,last,loaded,run,seen⟩ := played_run (master 0) (allKeys "0") (fun _ => [])
    [⟨.keyspaceEvent (master 0) 0x100 (cstr (ascii "expired")) [97,0,98],connects ++ accepts⟩,expired 0 "a" accepts]
    (fun _ steps _ => decide (
      eventsOf steps = [⟨0,cstr (ascii "expired"),[97,0,98]⟩,⟨0,cstr (ascii "expired"),[97]⟩] ∧
      tries (calls steps) = [(ascii "0\nexpired\na",AMQP_STATUS_OK),(ascii "0\nexpired\na",AMQP_STATUS_OK)]))
    (by decide +kernel)
  obtain ⟨events,tried⟩ := of_decide_eq_true seen
  refine ⟨start,steps,last,loaded,run,events,tried,fun identifying => ?_⟩
  rw [events] at identifying
  have same := identifying.distinct _ List.mem_cons_self _ (List.mem_cons_of_mem _ List.mem_cons_self) (by decide)
  exact absurd (congrArg Event.key same) (by decide)

end KeyspaceAmqp
