import KeyspaceAmqp.Masks

namespace KeyspaceAmqp.Allocated

-- The matcher on two strings in memory, by the indices its two pointers have come to. A
-- read past a terminator has no outcome.

def terminated (text : Bytes) : Bytes := text ++ [0]

-- The do-while loop of matchhere's star case; `here` is matchhere on the rest of the mask.
def starLoop (here : Nat → Option Bool) (c : UInt8) (text : Bytes) (j : Nat) : Option Bool := do
  let found ← here j
  if found then return true
  match read : text[j]? with
  | none => none
  | some t => if t ≠ 0 ∧ (t = c ∨ c = byte '.') then starLoop here c text (j+1) else return false
termination_by text.length-j
decreasing_by
  have inside := (List.getElem?_eq_some_iff.mp read).1
  omega

def matchhere (regexp text : Bytes) (i j : Nat) : Option Bool :=
  match read : regexp[i]? with
  | none => none
  | some c => do
    if c = 0 then return true
    let next ← regexp[i+1]?
    if next = byte '*' then starLoop (matchhere regexp text (i+2)) c text j
    else
      let t ← text[j]?
      if c = byte '$' ∧ next = 0 then return t == 0
      if t ≠ 0 ∧ (c = byte '.' ∨ c = t) then matchhere regexp text (i+1) (j+1) else return false
termination_by regexp.length-i
decreasing_by
  all_goals
    have inside := (List.getElem?_eq_some_iff.mp read).1
    omega

def anywhere (here : Nat → Option Bool) (text : Bytes) (j : Nat) : Option Bool := do
  let found ← here j
  if found then return true
  match read : text[j]? with
  | none => none
  | some t => if t ≠ 0 then anywhere here text (j+1) else return false
termination_by text.length-j
decreasing_by
  have inside := (List.getElem?_eq_some_iff.mp read).1
  omega

def matchRegexp (regexp text : Bytes) : Option Bool := do
  let c ← regexp[0]?
  if c = byte '^' then matchhere regexp text 1 0 else anywhere (matchhere regexp text 0) text 0

theorem starLoop_read (read : text[j]? = some t) : starLoop here c text j = do
    let found ← here j
    if found then return true
    if t ≠ 0 ∧ (t = c ∨ c = byte '.') then starLoop here c text (j+1) else return false := by
  rw [starLoop]
  congr
  funext found
  split
  · rfl
  · split
    · rename_i past; cases read.symm.trans past
    · rename_i here; cases read.symm.trans here; rfl

theorem anywhere_read (read : text[j]? = some t) : anywhere here text j = do
    let found ← here j
    if found then return true
    if t ≠ 0 then anywhere here text (j+1) else return false := by
  rw [anywhere]
  congr
  funext found
  split
  · rfl
  · split
    · rename_i past; cases read.symm.trans past
    · rename_i here; cases read.symm.trans here; rfl

theorem matchhere_read (read : regexp[i]? = some c) : matchhere regexp text i j = do
    if c = 0 then return true
    let next ← regexp[i+1]?
    if next = byte '*' then starLoop (matchhere regexp text (i+2)) c text j
    else
      let t ← text[j]?
      if c = byte '$' ∧ next = 0 then return t == 0
      if t ≠ 0 ∧ (c = byte '.' ∨ c = t) then matchhere regexp text (i+1) (j+1) else return false := by
  rw [matchhere]
  split
  · rename_i past; cases read.symm.trans past
  · rename_i here; cases read.symm.trans here; rfl

theorem end_read (parts : text = before ++ []) : (terminated text)[before.length]? = some 0 := by simp [parts,terminated]

theorem next_read (clean : 0 ∉ text) (parts : text = before ++ t :: rest) :
    (terminated text)[before.length]? = some t ∧ t ≠ 0 :=
  ⟨by simp [parts,terminated],fun zero => clean (by simp [parts,zero])⟩

-- Wherever the pointer is, the outcome is what the list of the characters left gives.
def Reads (here : Nat → Option Bool) (list : Bytes → Bool) (text : Bytes) : Prop :=
  ∀ before rest, text = before ++ rest → here before.length = some (list rest)

theorem Reads.next (reads : Reads here list text) (parts : text = before ++ t :: rest) :
    here (before.length+1) = some (list rest) := by
  simpa using reads (before ++ [t]) rest (by simp [parts])

theorem starLoop_reads (reads : Reads here list text) (clean : 0 ∉ text) (c : UInt8) :
    Reads (starLoop here c (terminated text)) (KeyspaceAmqp.starLoop list c) text := by
  intro before rest parts
  induction rest generalizing before with
  | nil =>
    rw [starLoop_read (end_read parts),reads before [] parts,KeyspaceAmqp.starLoop]
    cases list [] <;> rfl
  | cons t rest ih =>
    obtain ⟨read,other⟩ := next_read clean parts
    have later := ih (before ++ [t]) (by simp [parts])
    rw [List.length_append,List.length_singleton] at later
    rw [starLoop_read read,reads before (t :: rest) parts,KeyspaceAmqp.starLoop,later]
    cases list (t :: rest) with
    | true => rfl
    | false => by_cases fits : t = c ∨ c = byte '.' <;> simp [other,fits]

theorem anywhere_reads (reads : Reads here list text) (clean : 0 ∉ text) :
    Reads (anywhere here (terminated text)) (KeyspaceAmqp.anywhere list) text := by
  intro before rest parts
  induction rest generalizing before with
  | nil =>
    rw [anywhere_read (end_read parts),reads before [] parts,KeyspaceAmqp.anywhere]
    cases list [] <;> rfl
  | cons t rest ih =>
    obtain ⟨read,other⟩ := next_read clean parts
    have later := ih (before ++ [t]) (by simp [parts])
    rw [List.length_append,List.length_singleton] at later
    rw [anywhere_read read,reads before (t :: rest) parts,KeyspaceAmqp.anywhere,later]
    cases list (t :: rest) <;> simp [other]

theorem oneChar_reads (reads : Reads here list text) (clean : 0 ∉ text) (c : UInt8) :
    Reads (fun j => do
        let t ← (terminated text)[j]?
        if t ≠ 0 ∧ (c = byte '.' ∨ c = t) then here (j+1) else return false)
      (fun rest => match rest with | [] => false | t :: rest => (c == byte '.' || c == t) && list rest) text := by
  intro before rest parts
  cases rest with
  | nil => simp [end_read parts]
  | cons t rest =>
    obtain ⟨read,other⟩ := next_read clean parts
    by_cases fits : c = byte '.' ∨ c = t <;> simp [read,other,fits,reads.next parts]

theorem matchhere_done (whole : regexp = past ++ []) (text : Bytes) (j : Nat) :
    matchhere (terminated regexp) text past.length j = some true := by
  rw [matchhere_read (end_read whole)]
  rfl

-- The induction is on the mask, of which no character is a terminator, so one is always
-- left to look ahead at; the two loops are bounded by the text.
theorem matchhere_reads (cleanMask : 0 ∉ regexp) (clean : 0 ∉ text) (mask : Bytes) (whole : regexp = past ++ mask) :
    Reads (matchhere (terminated regexp) (terminated text) past.length) (KeyspaceAmqp.matchhere mask) text := by
  induction mask using readTokens.induct generalizing past with
  | case1 =>
    intro before rest _
    rw [matchhere_done whole,KeyspaceAmqp.matchhere]
  | case2 c mask ih =>
    intro before rest parts
    have second : regexp = (past ++ [c]) ++ byte '*' :: mask := by simp [whole]
    have third : regexp = (past ++ [c,byte '*']) ++ mask := by simp [whole]
    obtain ⟨read,filled⟩ := next_read cleanMask whole
    have ahead := (next_read cleanMask second).1
    have later := ih third
    rw [List.length_append] at ahead later
    have loop := starLoop_reads later clean c before rest parts
    rw [matchhere_read read,if_neg filled]
    simp only [List.length_cons,List.length_nil] at ahead loop
    simp only [ahead,Option.bind_eq_bind,Option.bind_some,KeyspaceAmqp.matchhere,if_true]
    exact loop
  | case3 c next mask single ih =>
    intro before rest parts
    have second : regexp = (past ++ [c]) ++ next :: mask := by simp [whole]
    obtain ⟨read,filled⟩ := next_read cleanMask whole
    obtain ⟨ahead,more⟩ := next_read cleanMask second
    have later := ih second
    rw [List.length_append] at ahead later
    have one := oneChar_reads later clean c before rest parts
    rw [matchhere_read read,if_neg filled]
    simp only [List.length_cons,List.length_nil] at ahead one
    simp only [ahead,Option.bind_eq_bind,Option.bind_some,KeyspaceAmqp.matchhere,if_neg single,more,and_false,if_false]
    exact one
  | case4 =>
    intro before rest parts
    have second : regexp = (past ++ [byte '$']) ++ [] := by simp [whole]
    obtain ⟨read,filled⟩ := next_read cleanMask whole
    have ahead := end_read second
    rw [List.length_append,List.length_singleton] at ahead
    have star : (0 : UInt8) ≠ byte '*' := by decide
    rw [matchhere_read read,if_neg filled]
    simp only [ahead,Option.bind_eq_bind,Option.bind_some,KeyspaceAmqp.matchhere,if_neg star,if_true,and_self]
    cases rest with
    | nil => simp [end_read parts]
    | cons t rest =>
      obtain ⟨read,other⟩ := next_read clean parts
      simp [read,other]
  | case5 c other =>
    intro before rest parts
    have second : regexp = (past ++ [c]) ++ [] := by simp [whole]
    obtain ⟨read,filled⟩ := next_read cleanMask whole
    have ahead := end_read second
    have later : Reads (matchhere (terminated regexp) (terminated text) (past ++ [c]).length) (KeyspaceAmqp.matchhere []) text :=
      fun _ _ _ => matchhere_done second _ _
    rw [List.length_append] at ahead later
    have one := oneChar_reads later clean c before rest parts
    rw [matchhere_read read,if_neg filled]
    simp only [List.length_cons,List.length_nil] at ahead one
    simp only [ahead,Option.bind_eq_bind,Option.bind_some,KeyspaceAmqp.matchhere,other,false_and,if_false]
    exact one

theorem matcher_in_bounds (mask text : CString) :
    (∀ i ≤ mask.bytes.length, ∀ j ≤ text.bytes.length,
      matchhere (terminated mask.bytes) (terminated text.bytes) i j =
        some (KeyspaceAmqp.matchhere (mask.bytes.drop i) (text.bytes.drop j))) ∧
    matchRegexp (terminated mask.bytes) (terminated text.bytes) = some (KeyspaceAmqp.matchRegexp mask text) := by
  obtain ⟨mask,cleanMask⟩ := mask
  obtain ⟨text,clean⟩ := text
  have here (past rest : Bytes) (whole : mask = past ++ rest) := matchhere_reads cleanMask clean rest whole
  refine ⟨fun i inside j inside' => ?_,?_⟩
  · have reads := here (mask.take i) (mask.drop i) (List.take_append_drop i _).symm
    have read := reads (text.take j) (text.drop j) (List.take_append_drop j _).symm
    rwa [List.length_take_of_le inside,List.length_take_of_le inside'] at read
  cases mask with
  | nil => exact anywhere_reads (here [] [] rfl) clean [] text rfl
  | cons c rest =>
    change (if c = byte '^' then _ else _) = some (if c = byte '^' then _ else _)
    split
    · exact here [c] rest rfl [] text rfl
    · exact anywhere_reads (here [] (c :: rest) rfl) clean [] text rfl

end KeyspaceAmqp.Allocated
