import KeyspaceAmqp.Callbacks
import KeyspaceAmqp.Serialization

namespace KeyspaceAmqp.Allocated
open Blocks

-- string_array_t with the memory behind `data`, each pointer by the string it points to.
structure StringArray where
  size : UInt32
  capacity : UInt32
  data : Block POINTER_SIZE CString

def stringArrayInit (size capacity : UInt32) : StringArray := ⟨size,capacity,.alloc capacity.toNat⟩

def StringArray.grow (arr : StringArray) : StringArray :=
  if arr.size ≥ arr.capacity then {arr with
    data := arr.data.realloc (arr.capacity.toNat*POINTER_SIZE*2)
    capacity := arr.capacity*2}
  else arr

def stringArrayAdd (arr : StringArray) (value : CString) : Option StringArray := do
  let data ← arr.grow.data.write arr.grow.size.toNat value
  return {arr.grow with data := data,size := arr.grow.size+1}

-- The loop counts to an int.
def stringArrayClean (arr : StringArray) : Option StringArray := do
  let len := arr.size.toInt32
  let data ← arr.data.freeAll 0 len.toNatClampNeg
  return {arr with size := 0,data := data}

def stringArrayGetLength (arr : StringArray) : UInt32 := arr.size
def stringArrayGetElement (arr : StringArray) (index : UInt32) : Option CString := arr.data.read index.toNat

inductive Operation where
  | add (value : CString)
  | clean
  deriving DecidableEq

def Operation.run (arr : StringArray) : Operation → Option StringArray
  | .add value => stringArrayAdd arr value
  | .clean => stringArrayClean arr

def runs (arr : StringArray) (ops : List Operation) : Option StringArray := ops.foldlM Operation.run arr

def Operation.apply (values : List CString) : Operation → List CString
  | .add value => values ++ [value]
  | .clean => []

def contents (values : List CString) (ops : List Operation) : List CString := ops.foldl Operation.apply values

structure Represents (arr : StringArray) (values : List CString) : Prop where
  size : arr.size ≤ arr.capacity
  bytes : arr.capacity.toNat*POINTER_SIZE ≤ arr.data.bytes
  length : (stringArrayGetLength arr).toNat = values.length
  elements : ∀ i < stringArrayGetLength arr, stringArrayGetElement arr i = values[i.toNat]?

def keyMaskArr : StringArray := stringArrayInit 0 8

structure Kept (arr : StringArray) (values : List CString) : Prop where
  size : arr.size.toNat = values.length
  starts : arr.data.Starts values

theorem Kept.elements (kept : Kept arr values) (i : UInt32) (inside : i < stringArrayGetLength arr) :
    stringArrayGetElement arr i = values[i.toNat]? :=
  kept.starts.read (by rw [← kept.size]; exact UInt32.lt_iff_toNat_lt.mp inside)

theorem int_count_le (n : UInt32) : n.toInt32.toNatClampNeg ≤ n.toNat := by
  rw [← Int32.toNat_toInt,← Int32.toInt_toBitVec,UInt32.toBitVec_toInt32,BitVec.toInt_eq_toNat_cond]
  change _ ≤ n.toBitVec.toNat
  split <;> omega

theorem stringArrayClean_kept (kept : Kept arr values) : ∃ cleaned, stringArrayClean arr = some cleaned ∧
    cleaned.capacity = arr.capacity ∧ cleaned.data.bytes = arr.data.bytes ∧ Kept cleaned [] := by
  obtain ⟨data,freed,same⟩ := kept.starts.freeAll (kept.size ▸ int_count_le arr.size)
  exact ⟨{arr with size := 0,data := data},by simp [stringArrayClean,freed],rfl,same,rfl,starts_nil _⟩

theorem grow_kept (kept : Kept arr values) (room : values.length < arr.grow.data.bytes/POINTER_SIZE) : Kept arr.grow values := by
  unfold StringArray.grow at room ⊢
  split at room
  · rename_i full
    rw [if_pos full]
    exact ⟨kept.size,kept.starts.realloc (Nat.le_of_lt room)⟩
  · rename_i spare
    rw [if_neg spare]
    exact kept

theorem stringArrayAdd_kept (kept : Kept arr values) (room : values.length < arr.grow.data.bytes/POINTER_SIZE)
    (counts : values.length+1 < 2^32) (value : CString) : ∃ added, stringArrayAdd arr value = some added ∧
      added.capacity = arr.grow.capacity ∧ added.data.bytes = arr.grow.data.bytes ∧ Kept added (values ++ [value]) := by
  have grown := grow_kept kept room
  obtain ⟨data,wrote,same,starts⟩ := grown.starts.write room value
  refine ⟨{arr.grow with data := data,size := arr.grow.size+1},?_,rfl,same,?_,starts⟩
  · rw [stringArrayAdd,grown.size,wrote]
    rfl
  · rw [UInt32.toNat_add,grown.size,List.length_append]
    exact Nat.mod_eq_of_lt counts

theorem grow_size (arr : StringArray) : arr.grow.size = arr.size := by
  unfold StringArray.grow
  split <;> rfl

theorem stringArrayAdd_outside (kept : Kept arr values) (full : arr.grow.data.bytes/POINTER_SIZE ≤ values.length)
    (value : CString) : stringArrayAdd arr value = none := by
  rw [stringArrayAdd,grow_size,kept.size,write_outside full]
  rfl

-- The array `init` makes: eight bytes, which is one pointer, are taken for a capacity of
-- eight. It has room for a second value only once it has grown, and grows only with eight.
structure Narrow (arr : StringArray) (values : List CString) : Prop where
  kept : Kept arr values
  capacity : arr.capacity = 8
  bytes : arr.data.bytes = 8
  single : values.length ≤ 1

theorem keyMaskArr_narrow : Narrow keyMaskArr [] := ⟨⟨rfl,starts_nil _⟩,rfl,rfl,Nat.zero_le _⟩

theorem Narrow.grow (narrow : Narrow arr values) : arr.grow = arr := by
  refine if_neg ?_
  rw [narrow.capacity,ge_iff_le,UInt32.le_iff_toNat_le,narrow.kept.size]
  have single := narrow.single
  change ¬ 8 ≤ values.length
  omega

theorem narrow_step (narrow : Narrow arr values) (op : Operation) :
    (∃ next, op.run arr = some next ∧ Narrow next (op.apply values) ∧ (values ≠ [] → op = .clean)) ∨
    (op.run arr = none ∧ values ≠ [] ∧ op ≠ .clean) := by
  cases op with
  | clean =>
    obtain ⟨next,cleaned,capacity,bytes,kept⟩ := stringArrayClean_kept narrow.kept
    exact .inl ⟨next,cleaned,⟨kept,capacity.trans narrow.capacity,bytes.trans narrow.bytes,Nat.zero_le _⟩,fun _ => rfl⟩
  | add value =>
    have room : arr.grow.data.bytes/POINTER_SIZE = 1 := by
      rw [narrow.grow,narrow.bytes]
      rfl
    cases values with
    | nil =>
      obtain ⟨next,added,capacity,bytes,kept⟩ := stringArrayAdd_kept narrow.kept (by rw [room]; exact Nat.one_pos)
        (by decide) value
      rw [narrow.grow] at capacity bytes
      exact .inl ⟨next,added,⟨kept,capacity.trans narrow.capacity,bytes.trans narrow.bytes,Nat.le_refl _⟩,absurd rfl⟩
    | cons first rest =>
      have full : arr.grow.data.bytes/POINTER_SIZE ≤ (first :: rest).length := by simp [room]
      exact .inr ⟨stringArrayAdd_outside narrow.kept full value,by simp,by simp⟩

def Spaced (ops : List Operation) : Prop := ops.IsChain fun one two => one = .clean ∨ two = .clean

instance (ops : List Operation) : Decidable (Spaced ops) := inferInstanceAs (Decidable (List.IsChain _ ops))

theorem spaced_clean (rest : List Operation) : Spaced (.clean :: rest) ↔ Spaced rest := by
  cases rest with
  | nil => exact iff_of_true (.singleton _) .nil
  | cons op rest => exact List.isChain_cons_cons.trans (and_iff_right (.inl rfl))

theorem spaced_cleaned {values : List CString} (single : values.length ≤ 1) (rest : List Operation) :
    Spaced (values.map .add ++ .clean :: rest) ↔ Spaced rest := by
  cases values with
  | nil => exact spaced_clean rest
  | cons value none =>
    have none : none = [] := List.eq_nil_of_length_eq_zero (by simpa using single)
    subst none
    exact (List.isChain_cons_cons.trans (and_iff_right (.inr rfl))).trans (spaced_clean rest)

theorem narrow_runs (narrow : Narrow arr values) (ops : List Operation) :
    (∃ last, runs arr ops = some last ∧ Narrow last (contents values ops) ∧ Spaced (values.map .add ++ ops)) ∨
    (runs arr ops = none ∧ ¬ Spaced (values.map .add ++ ops)) := by
  induction ops generalizing arr values with
  | nil =>
    refine .inl ⟨arr,rfl,narrow,?_⟩
    have single := narrow.single
    match values with
    | [] => exact .nil
    | [_] => exact .singleton _
    | _ :: _ :: _ => simp at single
  | cons op rest ih =>
    rcases narrow_step narrow op with ⟨next,ran,after,alone⟩ | ⟨outside,filled,adds⟩
    · have spaced : Spaced (values.map .add ++ op :: rest) ↔ Spaced ((op.apply values).map .add ++ rest) := by
        cases op with
        | clean => exact spaced_cleaned narrow.single rest
        | add value =>
          have empty : values = [] := by
            by_contra filled
            cases alone filled
          rw [empty]
          rfl
      have first : runs arr (op :: rest) = runs next rest := by simp [runs,ran]
      rw [first,spaced]
      exact ih after
    · refine .inr ⟨by simp [runs,outside],fun spaced => ?_⟩
      match values,narrow.single,filled with
      | [value],_,_ => exact (List.isChain_cons_cons.mp spaced).1.elim nofun adds

theorem Narrow.short (narrow : Narrow arr values) : arr.data.bytes < arr.capacity.toNat*POINTER_SIZE := by
  rw [narrow.bytes,narrow.capacity]
  decide

theorem Narrow.size (narrow : Narrow arr values) : arr.size ≤ arr.capacity := by
  rw [narrow.capacity,UInt32.le_iff_toNat_le,narrow.kept.size]
  exact narrow.single.trans (by decide)

-- One pointer has room in the array, so every operation leaves it short of its capacity,
-- and a value added right after another is written outside.
theorem string_array_sound_iff (ops : List Operation) :
    ((∀ done, done ≠ [] → done <+: ops → ∃ arr, runs keyMaskArr done = some arr ∧ Represents arr (contents [] done)) ↔
      ops = []) ∧
    ((runs keyMaskArr ops).isSome = true ↔ Spaced ops) ∧
    ∀ arr, runs keyMaskArr ops = some arr → arr.size ≤ arr.capacity ∧
      arr.data.bytes < arr.capacity.toNat*POINTER_SIZE ∧ (stringArrayGetLength arr).toNat = (contents [] ops).length ∧
      ∀ i < stringArrayGetLength arr, stringArrayGetElement arr i = (contents [] ops)[i.toNat]? := by
  have outcome := narrow_runs keyMaskArr_narrow ops
  refine ⟨⟨fun sound => ?_,?_⟩,?_,fun arr ran => ?_⟩
  · by_contra filled
    obtain ⟨arr,ran,represents⟩ := sound ops filled List.prefix_rfl
    rcases outcome with ⟨last,ran',narrow,_⟩ | ⟨outside,_⟩
    · cases ran.symm.trans ran'
      exact absurd represents.bytes (Nat.not_le.mpr narrow.short)
    · cases ran.symm.trans outside
  · rintro rfl done filled inside
    exact absurd (List.prefix_nil.mp inside) filled
  · rcases outcome with ⟨last,ran,_,spaced⟩ | ⟨outside,crowded⟩
    · exact iff_of_true (by rw [ran]; rfl) spaced
    · exact iff_of_false (by rw [outside]; simp) crowded
  · rcases outcome with ⟨last,ran',narrow,_⟩ | ⟨outside,_⟩
    · cases ran.symm.trans ran'
      exact ⟨narrow.size,narrow.short,narrow.kept.size,narrow.kept.elements⟩
    · cases ran.symm.trans outside

-- keymask_add of one mask: the command's name and the mask.
theorem second_mask_outside : runs keyMaskArr [.add (cstr (ascii "key_evt_amqp.keymask_add")),.add (cstr (ascii "a"))] = none := by
  decide +kernel

end KeyspaceAmqp.Allocated
