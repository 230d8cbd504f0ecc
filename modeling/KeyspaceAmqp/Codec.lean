import KeyspaceAmqp.Utils

namespace KeyspaceAmqp

-- What the format can carry: no terminator, no separator.
def Plain (arg : Bytes) : Prop := 0 ∉ arg ∧ 10 ∉ arg

instance (arg : Bytes) : Decidable (Plain arg) := inferInstanceAs (Decidable (_ ∧ _))

theorem foldl_joined (rest : List Bytes) (data : CString) :
    (rest.foldl (fun data arg => data ++ newline ++ cstr arg) data).bytes =
      List.intercalate [10] (data.bytes :: rest.map fun arg => (cstr arg).bytes) := by
  induction rest generalizing data with
  | nil => simp
  | cons arg rest ih =>
    rw [List.foldl_cons,ih,List.map_cons,List.intercalate_cons_cons]
    cases rest with
    | nil => simp [newline]
    | cons next rest => simp only [List.map_cons,List.intercalate_cons_cons,append_bytes,newline,List.append_assoc]

theorem serialized_joined (first : Bytes) (rest : List Bytes) :
    (redisArgsToSerializedString (first :: rest)).bytes =
      List.intercalate [10] ((first :: rest).map fun arg => (cstr arg).bytes) :=
  foldl_joined rest (cstr first)

-- The loop cuts at each newline; what it had in `buff` becomes the front of the first cut.
theorem argsLoop_cuts (data : Bytes) (out : List Bytes) (buff : Bytes) :
    (argsLoop data out buff).1 ++ [(argsLoop data out buff).2] =
      out ++ (data.splitOn 10).modifyHead (buff ++ ·) := by
  induction data generalizing out buff with
  | nil => simp [argsLoop]
  | cons c data ih =>
    rw [argsLoop,List.splitOn_cons_eq_if_modifyHead]
    by_cases separator : c = 10
    · simp only [separator,if_true,ih,beq_self_eq_true]
      cases data.splitOn 10 <;> simp
    · simp only [separator,if_false,ih,beq_iff_eq]
      simp [Function.comp_def]

theorem argsLoop_plain (data : Bytes) (out : List Bytes) (buff : Bytes) (clean : 0 ∉ data) (done : ∀ arg ∈ out, Plain arg) (part : Plain buff) :
    (∀ arg ∈ (argsLoop data out buff).1, Plain arg) ∧ Plain (argsLoop data out buff).2 := by
  induction data generalizing out buff with
  | nil => exact ⟨done,part⟩
  | cons c data ih =>
    simp only [List.mem_cons,not_or] at clean
    rw [argsLoop]
    split
    · refine ih _ _ clean.2 ?_ (by decide)
      intro arg member
      rcases List.mem_append.mp member with old | new
      · exact done arg old
      · cases List.mem_singleton.mp new; exact part
    · rename_i other
      refine ih _ _ clean.2 done ⟨?_,?_⟩
      · simp [part.1,clean.1]
      · simp [part.2,Ne.symm other]

theorem decoded_plain (data : CString) (member : arg ∈ serializedStringToRedisArgs data) : Plain arg := by
  have plain := argsLoop_plain data.bytes [] [] data.noNul (by simp) (by decide)
  simp only [serializedStringToRedisArgs] at member
  split at member
  · rcases List.mem_append.mp member with inside | last
    · exact plain.1 arg inside
    · cases List.mem_singleton.mp last; exact plain.2
  · exact plain.1 arg member

theorem decoded_cuts (data : CString) (cuts : data.bytes.splitOn 10 = init ++ [final]) :
    serializedStringToRedisArgs data = if final = [] then init else init ++ [final] := by
  have parts := argsLoop_cuts data.bytes [] []
  have same : (data.bytes.splitOn 10).modifyHead ([] ++ ·) = init ++ [final] := by rw [cuts]; cases init <;> rfl
  rw [same,List.nil_append] at parts
  obtain ⟨heads,lasts⟩ := List.append_inj' parts rfl
  simp only [serializedStringToRedisArgs,heads,List.singleton_inj.mp lasts]
  cases final <;> simp

theorem encoded_plain (first : Bytes) (rest : List Bytes) (plain : ∀ arg ∈ first :: rest, Plain arg)
    (parts : first :: rest = init ++ [final]) :
    serializedStringToRedisArgs (redisArgsToSerializedString (first :: rest)) =
      if final = [] then init else init ++ [final] := by
  have kept : (first :: rest).map (fun arg => (cstr arg).bytes) = first :: rest :=
    (List.map_congr_left fun arg member => cstr_bytes arg (plain arg member).1).trans (List.map_id _)
  refine decoded_cuts _ ?_
  rw [serialized_joined,kept,List.splitOn_intercalate 10 (fun arg member => (plain arg member).2) (List.cons_ne_nil _ _)]
  exact parts

-- Exactly the argument vectors without terminators and separators in them, and without
-- an empty last argument, arrive as they were sent.
theorem codec_exact (first : Bytes) (rest : List Bytes) :
    serializedStringToRedisArgs (redisArgsToSerializedString (first :: rest)) = first :: rest ↔
      (∀ arg ∈ first :: rest, Plain arg) ∧ (first :: rest).getLast? ≠ some [] := by
  obtain ⟨init,final,parts⟩ : ∃ init final, first :: rest = init ++ [final] :=
    ⟨_,_,(List.dropLast_concat_getLast (List.cons_ne_nil first rest)).symm⟩
  have ending : (first :: rest).getLast? = some final := by rw [parts,List.getLast?_concat]
  constructor
  · intro arrived
    have plain : ∀ arg ∈ first :: rest, Plain arg := fun arg member => decoded_plain _ (arrived ▸ member)
    refine ⟨plain,?_⟩
    rw [encoded_plain first rest plain parts] at arrived
    intro blank
    have empty : final = [] := Option.some.inj (ending.symm.trans blank)
    rw [if_pos empty,parts] at arrived
    simpa using congrArg List.length arrived
  · rintro ⟨plain,filled⟩
    have nonempty : final ≠ [] := fun empty => filled (ending.trans (congrArg some empty))
    rw [encoded_plain first rest plain parts,if_neg nonempty,parts]

theorem codec_drops_empty_last :
    serializedStringToRedisArgs (redisArgsToSerializedString [ascii "key_evt_amqp.keymask_add",ascii "a",[]]) ≠
      [ascii "key_evt_amqp.keymask_add",ascii "a",[]] := by decide

end KeyspaceAmqp
