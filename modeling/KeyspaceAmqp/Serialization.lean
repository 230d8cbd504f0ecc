import KeyspaceAmqp.Codec
import KeyspaceAmqp.Library.Blocks
import Mathlib.Data.UInt

namespace KeyspaceAmqp.Allocated
open Blocks

-- The functions of utils.c that send arguments on, over the memory they allocate. One that
-- writes outside it has no outcome.

-- sizeof(char*) and sizeof(RedisModuleString *)
def POINTER_SIZE : Nat := 8

def concatLoop (serializedData : Block 1 UInt8) : List Bytes → Option (Block 1 UInt8)
  | [] => some serializedData
  | arg :: rest => do
    let serializedData ← serializedData.strcat newline.bytes
    let serializedData ← serializedData.strcat (cstr arg).bytes
    concatLoop serializedData rest

-- The pointer is kept in an array of totalLen of them.
def redisArgsToSerializedString (argv : List Bytes) : Option (Block 1 UInt8) :=
  let totalLen := (argv.map List.length).sum
  let serializedData : Block 1 UInt8 := .alloc (POINTER_SIZE*totalLen)
  if totalLen = 0 then none
  else match argv with
    | [] => some serializedData
    | first :: rest => do
      let serializedData ← serializedData.strcpy (cstr first).bytes
      concatLoop serializedData rest

structure Decoder where
  out : Block POINTER_SIZE Bytes
  argc : Nat
  buff : Block 1 UInt8
  buffLen : Nat

-- (*out)[*argc] = RedisModule_CreateString(ctx, *buff, buffLen); (*argc)++
def Decoder.add (d : Decoder) : Option Decoder := do
  let arg ← d.buff.first d.buffLen
  let out ← d.out.write d.argc arg
  return {d with out := out,argc := d.argc+1}

def decodeLoop : Bytes → Decoder → Option Decoder
  | [],d => some d
  | c :: data,d =>
    if c = 10 then do
      let d ← Decoder.add {d with out := d.out.realloc POINTER_SIZE}
      decodeLoop data {d with buffLen := 0}
    else do
      let buff ← d.buff.write d.buffLen c
      decodeLoop data {d with buff := buff,buffLen := d.buffLen+1}

def Decoder.finish (d : Decoder) : Option Decoder := if d.buffLen > 0 then d.add else some d

def Decoder.start (length : Nat) : Decoder := ⟨.alloc 0,0,.alloc (POINTER_SIZE*length),0⟩

-- `*buff` is kept in an array of strlen(serializedData) pointers, `*out` in one cell.
def serializedStringToRedisArgs (serializedData : CString) : Option Decoder :=
  let length := serializedData.bytes.length
  if length = 0 then none
  else do
    let d ← decodeLoop serializedData.bytes (.start length)
    d.finish

abbrev joined (data : CString) (rest : List Bytes) : CString :=
  rest.foldl (fun data arg => data ++ newline ++ cstr arg) data

theorem joined_length (data : CString) (rest : List Bytes) : (joined data rest).bytes.length =
    data.bytes.length+(rest.map fun arg => (cstr arg).bytes.length).sum+rest.length := by
  induction rest generalizing data with
  | nil => rfl
  | cons arg rest ih =>
    have one : newline.bytes.length = 1 := rfl
    rw [joined,List.foldl_cons,ih]
    simp only [append_bytes,List.length_append,one,List.map_cons,List.sum_cons,List.length_cons]
    omega

theorem concatLoop_within {block : Block 1 UInt8} (holds : block.Holds data.bytes)
    (inside : (joined data rest).bytes.length < block.bytes) : ∃ written, concatLoop block rest = some written ∧
      written.bytes = block.bytes ∧ written.Holds (joined data rest).bytes := by
  induction rest generalizing block data with
  | nil => exact ⟨block,rfl,rfl,holds⟩
  | cons arg rest ih =>
    have length := joined_length data (arg :: rest)
    have one : newline.bytes.length = 1 := rfl
    rw [List.map_cons,List.sum_cons,List.length_cons] at length
    obtain ⟨next,wrote,same,holds⟩ := holds.strcat newline.noNul (by omega)
    obtain ⟨last,wrote',same',holds⟩ := holds.strcat (cstr arg).noNul (by rw [List.length_append]; omega)
    rw [← same,← same'] at inside ⊢
    have holds : last.Holds (data ++ newline ++ cstr arg).bytes := holds
    obtain ⟨written,looped,kept,holds⟩ := ih holds inside
    exact ⟨written,by simp [concatLoop,wrote,wrote',looped],kept,holds⟩

-- The text only grows, so it is over at the end once it is over on the way.
theorem concatLoop_past {block : Block 1 UInt8} (holds : block.Holds data.bytes)
    (outside : block.bytes ≤ (joined data rest).bytes.length) : concatLoop block rest = none := by
  induction rest generalizing block data with
  | nil =>
    have fits := holds.2.fits
    simp only [List.length_append,List.length_singleton,Nat.div_one] at fits
    change block.bytes ≤ data.bytes.length at outside
    omega
  | cons arg rest ih =>
    by_cases first : block.bytes/1 ≤ data.bytes.length+newline.bytes.length
    · simp [concatLoop,holds.strcat_outside first]
    obtain ⟨next,wrote,same,holds⟩ := holds.strcat newline.noNul (Nat.not_le.mp first)
    by_cases second : next.bytes/1 ≤ (data.bytes ++ newline.bytes).length+(cstr arg).bytes.length
    · simp [concatLoop,wrote,holds.strcat_outside second]
    obtain ⟨last,wrote',same',holds⟩ := holds.strcat (cstr arg).noNul (Nat.not_le.mp second)
    have holds : last.Holds (data ++ newline ++ cstr arg).bytes := holds
    have past : concatLoop last rest = none := ih holds (by rw [same',same]; exact outside)
    simp [concatLoop,wrote,wrote',past]

def bytesWritten (argv : List Bytes) : Nat := (argv.map fun arg => (cstr arg).bytes.length).sum+argv.length

def bytesAllocated (argv : List Bytes) : Nat := POINTER_SIZE*(argv.map List.length).sum

theorem encoded_length (first : Bytes) (rest : List Bytes) :
    (KeyspaceAmqp.redisArgsToSerializedString (first :: rest)).bytes.length+1 = bytesWritten (first :: rest) := by
  have length := joined_length (cstr first) rest
  change (joined (cstr first) rest).bytes.length+1 = _
  rw [bytesWritten,List.map_cons,List.sum_cons,List.length_cons]
  omega

theorem alloc_bytes (bytes : Nat) : (Block.alloc bytes : Block 1 UInt8).bytes/1 = bytes := Nat.div_one bytes

theorem encoder_within (inside : bytesWritten (first :: rest) ≤ bytesAllocated (first :: rest)) : ∃ data,
    redisArgsToSerializedString (first :: rest) = some data ∧
      data.Holds (KeyspaceAmqp.redisArgsToSerializedString (first :: rest)).bytes := by
  have length := encoded_length first rest
  have room : (joined (cstr first) rest).bytes.length < bytesAllocated (first :: rest) := by
    change (KeyspaceAmqp.redisArgsToSerializedString (first :: rest)).bytes.length < _
    omega
  have shorter := joined_length (cstr first) rest
  obtain ⟨start,copied,same,holds⟩ := strcpy_holds (.alloc (bytesAllocated (first :: rest)) : Block 1 UInt8)
    (cstr first).noNul (by rw [alloc_bytes]; omega)
  have room : (joined (cstr first) rest).bytes.length < start.bytes := by rwa [same]
  obtain ⟨data,looped,_,holds⟩ := concatLoop_within holds room
  have filled : ((first :: rest).map List.length).sum ≠ 0 := by
    intro none
    rw [bytesAllocated,none] at inside
    simp [bytesWritten] at inside
  refine ⟨data,?_,holds⟩
  rw [redisArgsToSerializedString,if_neg filled]
  exact (congrArg (· >>= fun d => concatLoop d rest) copied).trans looped

theorem encoder_past (outside : bytesAllocated (first :: rest) < bytesWritten (first :: rest)) :
    redisArgsToSerializedString (first :: rest) = none := by
  have length := encoded_length first rest
  have past : bytesAllocated (first :: rest) ≤ (joined (cstr first) rest).bytes.length := by
    change _ ≤ (KeyspaceAmqp.redisArgsToSerializedString (first :: rest)).bytes.length
    omega
  rw [redisArgsToSerializedString]
  split
  · rfl
  change (Block.strcpy (.alloc (bytesAllocated (first :: rest))) (cstr first).bytes >>= fun d => concatLoop d rest) = none
  by_cases fits : (cstr first).bytes.length < bytesAllocated (first :: rest)
  · obtain ⟨start,copied,same,holds⟩ := strcpy_holds (.alloc (bytesAllocated (first :: rest)) : Block 1 UInt8)
      (cstr first).noNul (by rw [alloc_bytes]; exact fits)
    rw [copied]
    exact concatLoop_past holds (by rw [same]; exact past)
  · rw [strcpy_outside (by rw [alloc_bytes]; omega)]
    rfl

theorem encoder_inside_iff (first : Bytes) (rest : List Bytes) :
    (redisArgsToSerializedString (first :: rest)).isSome = true ↔
      ((first :: rest).map fun arg => (cstr arg).bytes.length).sum+(first :: rest).length ≤
        POINTER_SIZE*((first :: rest).map List.length).sum := by
  constructor
  · intro some
    by_contra outside
    rw [encoder_past (Nat.not_le.mp outside)] at some
    cases some
  · intro inside
    obtain ⟨data,encoded,_⟩ := encoder_within inside
    rw [encoded]
    rfl

theorem empty_masks_overflow :
    redisArgsToSerializedString (ascii "key_evt_amqp.keymask_add" :: List.replicate 168 []) = none :=
  encoder_past (by decide +kernel)

theorem decodeLoop_line {d : Decoder} (starts : d.buff.Starts part) (sofar : d.buffLen = part.length) (line : 10 ∉ data)
    (room : part.length+data.length ≤ d.buff.bytes) : ∃ buff, buff.bytes = d.buff.bytes ∧ buff.Starts (part ++ data) ∧
      ∀ rest, decodeLoop (data ++ rest) d = decodeLoop rest {d with buff := buff,buffLen := part.length+data.length} := by
  induction data generalizing d part with
  | nil => exact ⟨d.buff,rfl,by simpa using starts,fun rest => by cases d; cases sofar; rfl⟩
  | cons c data ih =>
    simp only [List.mem_cons,not_or] at line
    rw [List.length_cons] at room
    obtain ⟨next,wrote,same,starts⟩ := starts.write (by rw [Nat.div_one]; omega) c
    obtain ⟨buff,kept,starts,later⟩ := ih (d := {d with buff := next,buffLen := d.buffLen+1}) starts (by simp [sofar])
      line.2 (by rw [List.length_append,same]; simp; omega)
    refine ⟨buff,kept.trans same,by simpa using starts,fun rest => ?_⟩
    rw [List.cons_append,decodeLoop,if_neg (Ne.symm line.1),sofar,wrote]
    change decodeLoop (data ++ rest) _ = _
    rw [← sofar,later rest,List.length_append,List.length_cons,List.length_nil,List.length_cons,Nat.add_assoc,
      Nat.add_comm 1,sofar]

theorem add_outside {d : Decoder} (full : d.out.bytes/POINTER_SIZE ≤ d.argc) : d.add = none := by
  unfold Decoder.add
  cases d.buff.first d.buffLen with
  | none => rfl
  | some arg => simp [write_outside full]

theorem decoder_full {d : Decoder} (starts : d.buff.Starts part) (sofar : d.buffLen = part.length)
    (room : part.length+data.length ≤ d.buff.bytes) (one : 0 < d.argc) (full : d.out.bytes ≤ POINTER_SIZE)
    (more : part ++ data ≠ []) : (decodeLoop data d).bind Decoder.finish = none := by
  have single : POINTER_SIZE/POINTER_SIZE ≤ d.argc := one
  by_cases separated : 10 ∈ data
  · obtain ⟨line,rest,rfl,clean⟩ := List.eq_append_cons_of_mem separated
    rw [List.length_append] at room
    obtain ⟨buff,_,_,later⟩ := decodeLoop_line starts sofar clean (by omega)
    rw [later,decodeLoop,if_pos rfl,add_outside single]
    rfl
  · obtain ⟨buff,_,_,later⟩ := decodeLoop_line starts sofar separated room
    have ended := later []
    rw [List.append_nil] at ended
    have filled : 0 < part.length+data.length := by
      rw [← List.length_append]
      exact List.length_pos_iff.mpr more
    rw [ended,decodeLoop,Option.bind_some,Decoder.finish,if_pos filled,add_outside]
    exact (Nat.div_le_div_right full).trans single

theorem decodeLoop_start (line : 10 ∉ data) (room : data.length ≤ length) : ∃ buff,
    buff.bytes = POINTER_SIZE*length ∧ buff.Starts data ∧
      ∀ rest, decodeLoop (data ++ rest) (.start length) = decodeLoop rest ⟨.alloc 0,0,buff,data.length⟩ := by
  have wide : ([] : Bytes).length+data.length ≤ (Decoder.start length).buff.bytes := by
    change 0+data.length ≤ POINTER_SIZE*length
    rw [POINTER_SIZE]
    omega
  obtain ⟨buff,same,starts,later⟩ := decodeLoop_line (starts_nil _) rfl line wide
  refine ⟨buff,same,starts,fun rest => ?_⟩
  rw [later,List.length_nil,Nat.zero_add]
  rfl

theorem decodeLoop_first {buff : Block 1 UInt8} (starts : buff.Starts line) : ∃ out : Block POINTER_SIZE Bytes,
    out.bytes = POINTER_SIZE ∧ out.Starts [line] ∧
      ∀ rest, decodeLoop (10 :: rest) ⟨.alloc 0,0,buff,line.length⟩ = decodeLoop rest ⟨out,1,buff,0⟩ := by
  obtain ⟨out,wrote,same,holds⟩ := (starts_nil ((Block.alloc 0 : Block POINTER_SIZE Bytes).realloc POINTER_SIZE)).write
    (Nat.zero_lt_one) line
  refine ⟨out,same,holds,fun rest => ?_⟩
  have wrote : ((Block.alloc 0 : Block POINTER_SIZE Bytes).realloc POINTER_SIZE).write 0 line = some out := wrote
  simp only [decodeLoop,if_true,Decoder.add,starts.first,wrote,Option.bind_eq_bind,Option.bind_some,Option.pure_def]

theorem decoder_unseparated (serializedData : CString) (unseparated : 10 ∉ serializedData.bytes) :
    serializedStringToRedisArgs serializedData = none := by
  rw [serializedStringToRedisArgs]
  split
  · rfl
  rename_i filled
  obtain ⟨buff,_,_,later⟩ := decodeLoop_start unseparated (Nat.le_refl _)
  have ended := later []
  rw [List.append_nil] at ended
  rw [ended,decodeLoop,Option.bind_eq_bind,Option.bind_some,Decoder.finish,if_pos (Nat.pos_of_ne_zero filled)]
  exact add_outside (by simp [Block.alloc])

theorem decoder_separated (serializedData : CString) (clean : 10 ∉ line)
    (parts : serializedData.bytes = line ++ 10 :: rest) :
    (rest = [] ∧ ∃ d, serializedStringToRedisArgs serializedData = some d ∧ d.out.first d.argc = some [line]) ∨
    (rest ≠ [] ∧ serializedStringToRedisArgs serializedData = none) := by
  have length : serializedData.bytes.length = line.length+rest.length+1 := by simp [parts]; omega
  have inside : line.length ≤ serializedData.bytes.length := by omega
  obtain ⟨buff,wide,starts,later⟩ := decodeLoop_start clean inside
  obtain ⟨out,one,holds,next⟩ := decodeLoop_first starts
  have decoded : serializedStringToRedisArgs serializedData = (decodeLoop rest ⟨out,1,buff,0⟩).bind Decoder.finish := by
    have filled : serializedData.bytes.length ≠ 0 := by omega
    have began := (later (10 :: rest)).trans (next rest)
    rw [← parts] at began
    rw [serializedStringToRedisArgs,if_neg filled,began]
    rfl
  by_cases ended : rest = []
  · subst ended
    exact .inl ⟨rfl,⟨out,1,buff,0⟩,decoded,holds.first⟩
  · have room : ([] : Bytes).length+rest.length ≤ buff.bytes := by
      rw [wide,POINTER_SIZE,List.length_nil]
      omega
    exact .inr ⟨ended,decoded.trans (decoder_full (starts_nil _) rfl room Nat.one_pos (Nat.le_of_eq one) ended)⟩

theorem decoder_inside_iff (serializedData : CString) : ((serializedStringToRedisArgs serializedData).isSome = true ↔
    ∃ line, 10 ∉ line ∧ serializedData.bytes = line ++ [10]) ∧
    ∀ d, serializedStringToRedisArgs serializedData = some d →
      d.out.first d.argc = some (KeyspaceAmqp.serializedStringToRedisArgs serializedData) := by
  have one : ∀ d, serializedStringToRedisArgs serializedData = some d →
      ∃ line, 10 ∉ line ∧ serializedData.bytes = line ++ [10] ∧ d.out.first d.argc = some [line] := by
    intro d inside
    by_cases separated : 10 ∈ serializedData.bytes
    · obtain ⟨line,rest,parts,clean⟩ := List.eq_append_cons_of_mem separated
      rcases decoder_separated serializedData clean parts with ⟨rfl,e,decoded,held⟩ | ⟨_,outside⟩
      · cases inside.symm.trans decoded
        exact ⟨line,clean,parts,held⟩
      · cases inside.symm.trans outside
    · cases inside.symm.trans (decoder_unseparated serializedData separated)
  refine ⟨⟨?_,?_⟩,?_⟩
  · intro inside
    obtain ⟨d,decoded⟩ := Option.isSome_iff_exists.mp inside
    obtain ⟨line,clean,parts,_⟩ := one d decoded
    exact ⟨line,clean,parts⟩
  · rintro ⟨line,clean,parts⟩
    rcases decoder_separated serializedData clean parts with ⟨_,d,decoded,_⟩ | ⟨more,_⟩
    · rw [decoded]
      rfl
    · exact absurd rfl more
  · intro d decoded
    obtain ⟨line,clean,parts,held⟩ := one d decoded
    have cuts : serializedData.bytes.splitOn 10 = [line] ++ [[]] := by
      have plain : ∀ arg ∈ [line,[]], 10 ∉ arg := by simpa using clean
      rw [parts]
      simpa using List.splitOn_intercalate 10 plain (by simp)
    rw [held,decoded_cuts serializedData cuts,if_pos rfl]

-- A message as a node sends it: its second element is written beyond the array.
theorem second_argument_outside : serializedStringToRedisArgs
    (KeyspaceAmqp.redisArgsToSerializedString [ascii "key_evt_amqp.keymask_add",ascii "a"]) = none := by decide +kernel

end KeyspaceAmqp.Allocated
