import KeyspaceAmqp.Heartbeat

namespace KeyspaceAmqp
open Programs Paths

theorem publishEvent_enters (ran : Ends (publishEvent ctx event keyname) w u w') :
    .publishEvent ctx.db (messageString ctx.db event keyname) ∈ w'.trace := by
  obtain ⟨more,added,_⟩ := (publishEvent_parts ran).calls
  rw [added]
  simp [World.entered]

theorem event_handed (taken : step w ⟨.keyspaceEvent ctx type event key,script⟩ = some w') :
    .publishEvent ctx.db (messageString ctx.db event (cstr key)) ∈ w'.trace ↔ Takes w ctx key := by
  have happens := step_happens taken
  cases happens with
  | event ran =>
    rcases onKeyspaceEvent_ways ran with ⟨takes,m,_,_,published⟩ | ⟨ignores,begun⟩
    · exact iff_of_true (publishEvent_enters published) takes
    · refine iff_of_false ?_ ignores
      intro handed
      have outside : Part.events ∉ [Part.session,.heartbeat] := by decide
      obtain ⟨_,early,_⟩ := (begun.made outside).mp ⟨_,handed,rfl⟩
      cases early
  | carried command argv known _ _ _ => cases known

theorem loaded_enabled (loaded : Loaded ctx argv storage start) :
    start.amqpConnectionEnabled = true ↔ start.settings.keyMaskArr ≠ [] := by
  obtain ⟨script,m,n,mode,created,started,subscribed⟩ := loaded_parts loaded
  have created : Touches [.load] _ m := Keeps.keeps created
  have started : Touches [.settings,.keys,.count,.strings] m n := Keeps.keeps started
  have off : n.amqpConnectionEnabled = false :=
    (started.enabled.resolve_left (by decide)).trans (created.enabled.resolve_left (by decide))
  simp only [enableAndSubscribe,ends_bind,ends_modify,ends_emit,ends_ite,ends_pure] at subscribed
  obtain ⟨_,_,rfl,_,_,rfl,⟨_,rfl⟩ | ⟨_,_,rfl⟩⟩ := subscribed <;> simp [off,List.length_pos_iff]

theorem enabled_run (run : Run start steps last) (kept : ∀ s ∈ steps, ¬ Disconnects s) :
    last.amqpConnectionEnabled = true ↔ start.amqpConnectionEnabled = true ∨ ∃ s ∈ steps, Opens s := by
  refine run.carry (fun done w => w.amqpConnectionEnabled = true ↔
    start.amqpConnectionEnabled = true ∨ ∃ s ∈ done, Opens s) (fun s => ¬ Disconnects s) (by simp) ?_ kept
  intro done s _ taken kept old
  have later : (∃ t ∈ done ++ [s], Opens t) ↔ (∃ t ∈ done, Opens t) ∨ Opens s := by simp [or_and_right,exists_or]
  rw [later,← or_assoc,← old]
  by_cases opens : Opens s
  · obtain ⟨t,same⟩ := opens_heart taken opens
    exact iff_of_true (congrArg Heart.enabled same) (.inr opens)
  rw [or_iff_left opens]
  have beat := step_beat taken
  change s.after.heart.enabled = true ↔ s.before.heart.enabled = true
  generalize s.after.heart = h at beat ⊢
  cases beat with
  | quiet _ _ _ => exact .rfl
  | armed _ _ _ => exact .rfl
  | stale _ _ _ => exact .rfl
  | fired _ _ _ => exact .rfl
  | opened opened _ => exact absurd opened opens
  | stopped stops => exact absurd stops kept

-- The masks are asked only once the module is enabled, which a load without masks leaves
-- to a connect.
theorem masks_decide_iff (loaded : Loaded loading argv storage start) (run : Run start steps w)
    (kept : ∀ s ∈ steps, ¬ Disconnects s) (taken : step w ⟨.keyspaceEvent ctx type event key,script⟩ = some w')
    (master : isRedisMaster ctx = true) :
    (.publishEvent ctx.db (messageString ctx.db event (cstr key)) ∈ w'.trace ↔
      Matches w.settings.keyMaskArr (cstr key)) ↔
    (Matches w.settings.keyMaskArr (cstr key) → start.settings.keyMaskArr ≠ [] ∨ ∃ s ∈ steps, Opens s) := by
  rw [event_handed taken,← loaded_enabled loaded,← enabled_run run kept]
  constructor
  · intro follows hit
    exact (follows.mpr hit).2.1
  · intro enabled
    exact ⟨fun takes => takes.2.2,fun hit => ⟨master,enabled hit,hit⟩⟩

theorem masks_decide_iff_connected : ∃ start steps w w', start.settings.keyMaskArr = [] ∧ Run start steps w ∧
    step w (expired 0 "abc" accepts) = some w' ∧
    ((.publishEvent 0 (messageString 0 (cstr (ascii "expired")) (cstr (ascii "abc"))) ∈ w'.trace ↔
      Matches w.settings.keyMaskArr (cstr (ascii "abc"))) ↔
    (Matches w.settings.keyMaskArr (cstr (ascii "abc")) → start.settings.keyMaskArr ≠ [] ∨ ∃ s ∈ steps, Opens s)) := by
  obtain ⟨start,steps,w,loaded,run,seen⟩ := played_run (master 0) [] (fun _ => [])
    [told .keymaskAdd ["a"] [],told .connect [] connects]
    (fun start steps w => decide (start.settings.keyMaskArr = [] ∧ ∀ s ∈ steps, ¬ Disconnects s) &&
      (step w (expired 0 "abc" accepts)).isSome) (by decide +kernel)
  obtain ⟨before,taken⟩ := (Bool.and_eq_true _ _).mp seen
  obtain ⟨bare,kept⟩ := of_decide_eq_true before
  obtain ⟨w',taken⟩ := Option.isSome_iff_exists.mp taken
  exact ⟨start,steps,w,w',bare,run,taken,masks_decide_iff loaded run kept taken rfl⟩

theorem added_mask_ignored : ∃ start steps w w', Loaded (master 0) [] (fun _ => []) start ∧ Run start steps w ∧
    (∀ s ∈ steps, ¬ Disconnects s) ∧ step w (expired 0 "abc" accepts) = some w' ∧
    Matches w.settings.keyMaskArr (cstr (ascii "abc")) ∧
    .publishEvent 0 (messageString 0 (cstr (ascii "expired")) (cstr (ascii "abc"))) ∉ w'.trace := by
  let handed : Call := .publishEvent 0 (messageString 0 (cstr (ascii "expired")) (cstr (ascii "abc")))
  obtain ⟨start,steps,w,loaded,run,seen⟩ := played_run (master 0) [] (fun _ => [])
    [told .keymaskAdd ["a"] []]
    (fun _ steps w => decide ((∀ s ∈ steps, ¬ Disconnects s) ∧ Matches w.settings.keyMaskArr (cstr (ascii "abc"))) &&
      (step w (expired 0 "abc" accepts)).any fun w' : World =>
        decide (handed ∉ w'.trace))
    (by decide +kernel)
  obtain ⟨before,after⟩ := (Bool.and_eq_true _ _).mp seen
  obtain ⟨kept,hit⟩ := of_decide_eq_true before
  obtain ⟨w',taken,after⟩ := (Option.any_eq_true _ _).mp after
  exact ⟨start,steps,w,w',loaded,run,kept,taken,hit,of_decide_eq_true after⟩

end KeyspaceAmqp
