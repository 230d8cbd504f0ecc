import KeyspaceAmqp.Convergence
import KeyspaceAmqp.MaskUpdates

namespace KeyspaceAmqp
open Programs Paths Links Interleavings
variable {ι : Type} [DecidableEq ι]

-- The command that a message is to its receiver, and the masks that it adds to those there:
-- the loop of keymask_add starts at the command's own name.
def commandOf (message : UInt8 × Bytes) : Option (Command × List Bytes) :=
  (Callback.clusterMessage ⟨0,0⟩ message.1 message.2 [0]).carries

def masksIn (message : UInt8 × Bytes) : List CString := match commandOf message with
  | some (.keymaskAdd,argv) => argv.map cstr
  | _ => []

def Gathers (message : UInt8 × Bytes) : Prop := match commandOf message with
  | some (.keymaskClean,_) | some (.keymaskSet,_) => False
  | some (.connect,argv) | some (.configSet,argv) => argv.length ≤ 10
  | _ => True

instance (message : UInt8 × Bytes) : Decidable (Gathers message) := by
  unfold Gathers
  split <;> infer_instance

theorem added_matches (masks args : List CString) (key : CString) :
    Matches (keymaskAddLoop masks args) key ↔ Matches masks key ∨ Matches args key := by
  rw [keymaskAddLoop_masks]
  split
  · rename_i all
    exact iff_of_true ⟨KEY_MASK_ALL,List.mem_singleton_self _,.inl rfl⟩ (.inr ⟨KEY_MASK_ALL,all,.inl rfl⟩)
  · simp only [Matches,List.mem_append,or_and_right,exists_or]

theorem configure_masks (s : Settings) (few : args.length ≤ 9) : (configure s args).2.keyMaskArr = s.keyMaskArr := by
  by_cases wrong : WrongMode args
  · rw [configure_wrong s wrong]
    exact if_neg (Nat.not_lt.mpr few)
  · rw [configure_right s wrong]
    exact if_neg (Nat.not_lt.mpr few)

theorem no_matches (key : CString) : ¬ Matches [] key := by
  rintro ⟨_,impossible,_⟩
  cases impossible

theorem relay_nothing (s : Settings) {message : UInt8 × Bytes} (nothing : commandOf message = none) : relay s message = s := by
  unfold commandOf at nothing
  rw [relay,nothing]

theorem relay_carried (s : Settings) {message : UInt8 × Bytes} (carried : commandOf message = some (command,argv)) :
    relay s message = command.settles argv s := by
  unfold commandOf at carried
  rw [relay,carried]

theorem relay_matches (s : Settings) {message : UInt8 × Bytes} (gathers : Gathers message) (key : CString) :
    Matches (relay s message).keyMaskArr key ↔ Matches s.keyMaskArr key ∨ Matches (masksIn message) key := by
  unfold Gathers at gathers
  unfold masksIn
  cases carried : commandOf message with
  | none =>
    rw [relay_nothing s carried]
    exact (or_iff_left (no_matches key)).symm
  | some found =>
    obtain ⟨command,argv⟩ := found
    rw [relay_carried s carried]
    rw [carried] at gathers
    cases command with
    | keymaskAdd => exact added_matches _ _ _
    | keymaskClean | keymaskSet => exact gathers.elim
    | connect | configSet =>
      have few : ((argv.drop 1).map cstr).length ≤ 9 := by
        rw [List.length_map,List.length_drop]
        exact Nat.sub_le_of_le_add gathers
      refine Iff.trans ?_ (or_iff_left (no_matches key)).symm
      simp only [Command.settles,Command.configure,configure_masks s few]
    | disconnect => exact (or_iff_left (no_matches key)).symm
    | fallbackStorageSizeSet =>
      refine Iff.trans ?_ (or_iff_left (no_matches key)).symm
      simp only [Command.settles,Command.configure]
      split <;> exact Iff.rfl

omit [DecidableEq ι] in
theorem outcome_matches (mixed : List (ι × UInt8 × Bytes)) (s : Settings) (gathers : ∀ p ∈ mixed, Gathers p.2) (key : CString) :
    Matches (outcome relay s mixed).keyMaskArr key ↔ Matches s.keyMaskArr key ∨ ∃ p ∈ mixed, Matches (masksIn p.2) key := by
  induction mixed generalizing s with
  | nil => simp [outcome]
  | cons p rest ih =>
    have later := ih (relay s p.2) fun q member => gathers q (List.mem_cons_of_mem p member)
    rw [relay_matches s (gathers p List.mem_cons_self)] at later
    refine later.trans ?_
    simp [or_assoc]

end KeyspaceAmqp
