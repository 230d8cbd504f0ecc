import KeyspaceAmqp.Arguments

namespace KeyspaceAmqp
open Programs

-- The one law: ALL stands alone, other masks join the list.
def maskLaw (old masks : List Bytes) : List Bytes := if ascii "ALL" ∈ masks then [ascii "ALL"] else old ++ masks

def Settings.masks (s : Settings) : List Bytes := s.keyMaskArr.map CString.bytes

def Command.masksGiven (s : Settings) (argv : List Bytes) : Command → Option (List Bytes × List Bytes)
  | .keymaskAdd => some (s.masks,argv.drop 1)
  | .keymaskSet => some ([],argv.drop 1)
  | .connect | .configSet => if 10 < argv.length ∧ Accepts s argv then some ([],argv.drop 10) else none
  | _ => none

theorem keymaskAddLoop_masks (masks args : List CString) :
    keymaskAddLoop masks args = if KEY_MASK_ALL ∈ args then [KEY_MASK_ALL] else masks ++ args := by
  induction args generalizing masks with
  | nil => simp [keymaskAddLoop]
  | cons arg rest ih =>
    by_cases all : arg = KEY_MASK_ALL
    · simp [keymaskAddLoop,all]
    · simp [keymaskAddLoop,all,ih,Ne.symm all]

theorem all_given {masks : List Bytes} (all : ascii "ALL" ∈ masks) : KEY_MASK_ALL ∈ masks.map cstr := List.mem_map_of_mem (f := cstr) all

-- A mask that is read as ALL but is not it goes on behind a NUL.
theorem all_read {masks : List Bytes} (read : KEY_MASK_ALL ∈ masks.map cstr) (other : ascii "ALL" ∉ masks) : ∃ mask ∈ masks, 0 ∈ mask := by
  obtain ⟨mask,member,same⟩ := List.mem_map.mp read
  refine ⟨mask,member,?_⟩
  by_contra clean
  have whole : mask = ascii "ALL" := (cstr_bytes mask clean).symm.trans (congrArg CString.bytes same)
  exact other (whole ▸ member)

theorem masks_whole (masks : List Bytes) : (masks.map cstr).map CString.bytes = masks ↔ ∀ mask ∈ masks, 0 ∉ mask := by
  rw [List.map_map]
  constructor
  · intro same mask member
    have whole : mask ∈ masks.map (CString.bytes ∘ cstr) := by rwa [same]
    obtain ⟨other,_,rfl⟩ := List.mem_map.mp whole
    exact (cstr other).noNul
  · intro clean
    exact (List.map_congr_left fun mask member => cstr_bytes mask (clean mask member)).trans (List.map_id _)

theorem masksOf_law (masks : List Bytes) : (masksOf (masks.map cstr)).map CString.bytes = maskLaw [] masks ↔
    ascii "ALL" ∈ masks ∨ ∀ mask ∈ masks, 0 ∉ mask := by
  by_cases all : ascii "ALL" ∈ masks
  · rw [masksOf,if_pos (all_given all),maskLaw,if_pos all]
    exact iff_of_true rfl (.inl all)
  rw [maskLaw,if_neg all,or_iff_right all,List.nil_append,masksOf]
  by_cases read : KEY_MASK_ALL ∈ masks.map cstr
  · rw [if_pos read]
    refine iff_of_false (fun same => all ?_) fun clean => ?_
    · exact same ▸ List.mem_cons_self
    · obtain ⟨mask,member,cut⟩ := all_read read all
      exact clean mask member cut
  · rw [if_neg read]
    exact masks_whole masks

theorem keymaskAddLoop_law (old : List CString) (args : List Bytes) (other : cstr name ≠ KEY_MASK_ALL) :
    (keymaskAddLoop old ((name :: args).map cstr)).map CString.bytes = maskLaw (old.map CString.bytes) args ↔
      ascii "ALL" ∈ args := by
  rw [keymaskAddLoop_masks,List.map_cons]
  by_cases all : ascii "ALL" ∈ args
  · rw [if_pos (List.mem_cons_of_mem _ (all_given all)),maskLaw,if_pos all]
    exact iff_of_true rfl all
  refine iff_of_false ?_ all
  rw [maskLaw,if_neg all]
  by_cases read : KEY_MASK_ALL ∈ args.map cstr
  · rw [if_pos (List.mem_cons_of_mem _ read)]
    intro same
    obtain ⟨mask,member,cut⟩ := all_read read all
    have listed : mask ∈ [KEY_MASK_ALL].map CString.bytes := same ▸ List.mem_append_right _ member
    cases List.mem_singleton.mp listed
    exact KEY_MASK_ALL.noNul cut
  · rw [if_neg (by simpa [Ne.symm other] using read)]
    intro same
    have lengths := congrArg List.length same
    simp at lengths

theorem received_name (found : received name = some command) : command.name = name := by
  simpa [received] using List.find?_some found

theorem carried_not_all {callback : Callback} (known : callback.carries = some (command,argv)) :
    ∃ name args, argv = name :: args ∧ cstr name ≠ KEY_MASK_ALL := by
  cases callback with
  | keyspaceEvent => cases known
  | timer => cases known
  | command ctx name args =>
    obtain ⟨found,looked,same⟩ := Option.map_eq_some_iff.mp known
    obtain ⟨rfl,rfl⟩ := Prod.mk.inj same
    exact ⟨name,args,rfl,name_not_all looked⟩
  | clusterMessage ctx type payload beyond =>
    simp only [Callback.carries] at known
    split at known
    · split at known
      · cases known
      · rename_i first rest _
        obtain ⟨found,looked,same⟩ := Option.map_eq_some_iff.mp known
        obtain ⟨rfl,rfl⟩ := Prod.mk.inj same
        refine ⟨first,rest,rfl,fun all => ?_⟩
        have named := received_name looked
        rw [all] at named
        cases found <;> cases named
    · cases known

-- Every path keeps the law for ALL; without it only the configuration does, for masks
-- without NUL.
theorem mask_law_iff (taken : step w turn = some w') (known : turn.callback.carries = some (command,argv))
    (given : command.masksGiven w.settings argv = some (old,masks)) :
    w'.settings.masks = maskLaw old masks ↔
      ascii "ALL" ∈ masks ∨ ((command = .connect ∨ command = .configSet) ∧ ∀ mask ∈ masks, 0 ∉ mask) := by
  have settings : w'.settings = _ := congrArg Config.settings (carried_config taken known)
  obtain ⟨name,args,rfl,other⟩ := carried_not_all known
  have configured (given : (if 10 < (name :: args).length ∧ Accepts w.settings (name :: args) then
      some (([] : List Bytes),(name :: args).drop 10) else none) = some (old,masks))
      (set : w'.settings = (configure w.settings (((name :: args).drop 1).map cstr)).2) :
      w'.settings.masks = maskLaw old masks ↔ ascii "ALL" ∈ masks ∨ ∀ mask ∈ masks, 0 ∉ mask := by
    split at given
    · rename_i fine
      obtain ⟨long,accepts⟩ := fine
      obtain ⟨rfl,rfl⟩ := Prod.mk.inj (Option.some.inj given)
      rw [accepts_given accepts] at set
      have masks : w'.settings.keyMaskArr = masksOf (((name :: args).drop 10).map cstr) := by
        rw [set]
        simp only [Settings.given,List.length_map,List.length_drop,← List.map_drop,List.drop_drop]
        rw [if_pos (by omega)]
      rw [Settings.masks,masks]
      exact masksOf_law _
    · cases given
  cases command with
  | keymaskAdd =>
    obtain ⟨rfl,rfl⟩ := Prod.mk.inj (Option.some.inj given)
    have list : w'.settings.keyMaskArr = keymaskAddLoop w.settings.keyMaskArr ((name :: args).map cstr) :=
      congrArg Settings.keyMaskArr settings
    rw [Settings.masks,list]
    exact (keymaskAddLoop_law _ args other).trans (by simp)
  | keymaskSet =>
    obtain ⟨rfl,rfl⟩ := Prod.mk.inj (Option.some.inj given)
    have list : w'.settings.keyMaskArr = keymaskAddLoop [] ((name :: args).map cstr) :=
      congrArg Settings.keyMaskArr settings
    rw [Settings.masks,list]
    exact (keymaskAddLoop_law [] args other).trans (by simp)
  | connect => simpa using configured given settings
  | configSet => simpa using configured given settings
  | disconnect | fallbackStorageSizeSet | keymaskClean => cases given

theorem mask_law_iff_set : ∃ w w' : World, step w (told .configSet ["h","1","u","p","2","e","k","2","7","a","b"] []) = some w' ∧
    (w'.settings.masks = maskLaw [] [ascii "a",ascii "b"] ↔ ascii "ALL" ∈ [ascii "a",ascii "b"] ∨
      ((Command.configSet = .connect ∨ Command.configSet = .configSet) ∧ ∀ mask ∈ [ascii "a",ascii "b"], 0 ∉ mask)) := by
  obtain ⟨w,w',_,taken,given⟩ := played_step (master 0) (allKeys "0") (fun _ => [])
    (told .configSet ["h","1","u","p","2","e","k","2","7","a","b"] [])
    (fun w _ => decide (Command.configSet.masksGiven w.settings (Command.configSet.name ::
      ["h","1","u","p","2","e","k","2","7","a","b"].map ascii) = some ([],[ascii "a",ascii "b"]))) (by decide +kernel)
  exact ⟨w,w',taken,mask_law_iff taken rfl (of_decide_eq_true given)⟩

theorem name_added : ∃ w w' : World, Loaded (master 0) [] (fun _ => []) w ∧
    step w (told .keymaskAdd ["a"] []) = some w' ∧ w.settings.masks = [] ∧
    w'.settings.masks = [Command.keymaskAdd.name,ascii "a"] ∧
    w'.settings.masks ≠ maskLaw w.settings.masks [ascii "a"] := by
  obtain ⟨w,w',loaded,taken,seen⟩ := played_step (master 0) [] (fun _ => []) (told .keymaskAdd ["a"] [])
    (fun w w' => decide (w.settings.masks = [] ∧ w'.settings.masks = [Command.keymaskAdd.name,ascii "a"] ∧
      w'.settings.masks ≠ maskLaw w.settings.masks [ascii "a"])) (by decide +kernel)
  exact ⟨w,w',loaded,taken,of_decide_eq_true seen⟩

end KeyspaceAmqp
