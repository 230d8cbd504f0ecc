import Mathlib.Data.List.Induction

namespace Blocks
variable {α : Type} {width : Nat}

-- A block of the heap: the bytes it was last allocated with, and the elements of the given
-- width they have room for. One that was not written holds nothing.
structure Block (width : Nat) (α : Type) where
  bytes : Nat
  cells : List (Option α)
  room : cells.length = bytes/width

def Block.alloc (bytes : Nat) : Block width α := ⟨bytes,List.replicate (bytes/width) none,List.length_replicate⟩

def Block.realloc (block : Block width α) (bytes : Nat) : Block width α where
  bytes := bytes
  cells := block.cells.take (bytes/width) ++ List.replicate (bytes/width-block.cells.length) none
  room := by simp; omega

def Block.read (block : Block width α) (i : Nat) : Option α := block.cells[i]?.join

-- A write outside the block has no outcome.
def Block.write (block : Block width α) (i : Nat) (a : α) : Option (Block width α) :=
  if i < block.bytes/width then some ⟨block.bytes,block.cells.set i (some a),by simp [block.room]⟩ else none

-- Gives up what an element holds. Where it holds nothing that has no outcome.
def Block.free (block : Block width α) (i : Nat) : Option (Block width α) :=
  (block.read i).map fun _ => ⟨block.bytes,block.cells.set i none,by simp [block.room]⟩

def Block.freeAll (block : Block width α) (i : Nat) : Nat → Option (Block width α)
  | 0 => some block
  | n+1 => do
    let block ← block.free i
    block.freeAll (i+1) n

def Block.writeAll (block : Block width α) (i : Nat) : List α → Option (Block width α)
  | [] => some block
  | a :: rest => do
    let block ← block.write i a
    block.writeAll (i+1) rest

def Block.first (block : Block width α) : Nat → Option (List α)
  | 0 => some []
  | n+1 => do
    let list ← block.first n
    let a ← block.read n
    return list ++ [a]

def Block.Starts (block : Block width α) (list : List α) : Prop := list.map some <+: block.cells

theorem starts_nil (block : Block width α) : block.Starts [] := List.nil_prefix

theorem Block.Starts.shorter {block : Block width α} (starts : block.Starts (list ++ more)) : block.Starts list := by
  refine List.IsPrefix.trans ?_ starts
  rw [List.map_append]
  exact List.prefix_append _ _

theorem Block.Starts.fits {block : Block width α} (starts : block.Starts list) : list.length ≤ block.bytes/width := by
  simpa [block.room] using starts.length_le

theorem Block.Starts.read {block : Block width α} (starts : block.Starts list) (inside : i < list.length) :
    block.read i = list[i]? := by
  obtain ⟨more,cells⟩ := starts
  simp [Block.read,← cells,List.getElem?_append_left,inside]

theorem Block.Starts.first {block : Block width α} (starts : block.Starts list) :
    block.first list.length = some list := by
  induction list using List.reverseRecOn with
  | nil => rfl
  | append_singleton list a ih =>
    have here : block.read list.length = some a := by simpa using starts.read (i := list.length) (by simp)
    simp [Block.first,ih starts.shorter,here]

theorem Block.Starts.write {block : Block width α} (starts : block.Starts list) (inside : list.length < block.bytes/width)
    (a : α) : ∃ written, block.write list.length a = some written ∧ written.bytes = block.bytes ∧
      written.Starts (list ++ [a]) := by
  refine ⟨_,if_pos inside,rfl,?_⟩
  obtain ⟨more,cells⟩ := starts
  have length := congrArg List.length cells
  cases more with
  | nil =>
    rw [List.length_append,block.room] at length
    simp at length
    omega
  | cons old more =>
    refine ⟨more,?_⟩
    simp [← cells]

theorem write_outside {block : Block width α} (outside : block.bytes/width ≤ i) (a : α) : block.write i a = none :=
  if_neg (Nat.not_lt.mpr outside)

theorem Block.free_some {block : Block width α} (filled : (block.read i).isSome) : ∃ freed, block.free i = some freed ∧
    freed.bytes = block.bytes ∧ ∀ j, i ≠ j → freed.read j = block.read j := by
  obtain ⟨a,read⟩ := Option.isSome_iff_exists.mp filled
  refine ⟨⟨block.bytes,block.cells.set i none,by simp [block.room]⟩,by rw [Block.free,read,Option.map_some],rfl,?_⟩
  intro j other
  simp only [Block.read,List.getElem?_set_ne other]

theorem Block.freeAll_some {block : Block width α} (filled : ∀ j, i ≤ j → j < i+n → (block.read j).isSome) :
    ∃ freed, block.freeAll i n = some freed ∧ freed.bytes = block.bytes := by
  induction n generalizing block i with
  | zero => exact ⟨block,rfl,rfl⟩
  | succ n ih =>
    obtain ⟨next,freed,same,others⟩ := Block.free_some (filled i (Nat.le_refl _) (by omega))
    have later : ∀ j, i+1 ≤ j → j < i+1+n → (next.read j).isSome := by
      intro j above below
      rw [others j (by omega)]
      exact filled j (by omega) (by omega)
    obtain ⟨last,freedRest,same'⟩ := ih later
    exact ⟨last,by simp [Block.freeAll,freed,freedRest],same'.trans same⟩

theorem Block.Starts.freeAll {block : Block width α} (starts : block.Starts list) (inside : n ≤ list.length) :
    ∃ freed, block.freeAll 0 n = some freed ∧ freed.bytes = block.bytes := by
  refine Block.freeAll_some fun j _ below => ?_
  rw [starts.read (by omega),List.getElem?_eq_getElem (by omega)]
  rfl

theorem Block.Starts.realloc {block : Block width α} (starts : block.Starts list) {bytes : Nat}
    (inside : list.length ≤ bytes/width) : (block.realloc bytes).Starts list := by
  refine List.IsPrefix.trans ?_ (List.prefix_append _ _)
  exact List.prefix_take_iff.mpr ⟨starts,by simpa using inside⟩

theorem Block.Starts.writeAll {block : Block width α} (starts : block.Starts before) (list : List α)
    (inside : before.length+list.length ≤ block.bytes/width) : ∃ written,
      block.writeAll before.length list = some written ∧ written.bytes = block.bytes ∧ written.Starts (before ++ list) := by
  induction list generalizing block before with
  | nil => exact ⟨block,rfl,rfl,by simpa using starts⟩
  | cons a rest ih =>
    rw [List.length_cons] at inside
    obtain ⟨next,wrote,same,starts⟩ := starts.write (by omega) a
    obtain ⟨written,wroteRest,same',starts⟩ := ih starts (by rw [same]; simp; omega)
    refine ⟨written,?_,same'.trans same,by simpa using starts⟩
    simpa [Block.writeAll,wrote] using wroteRest

theorem writeAll_outside {block : Block width α} (filled : list ≠ []) (outside : block.bytes/width < i+list.length) :
    block.writeAll i list = none := by
  induction list generalizing block i with
  | nil => exact absurd rfl filled
  | cons a rest ih =>
    rw [List.length_cons] at outside
    simp only [Block.writeAll,Option.bind_eq_bind,Option.bind_eq_none_iff]
    intro next wrote
    have inside : i < block.bytes/width := by
      by_contra past
      rw [write_outside (Nat.not_lt.mp past)] at wrote
      cases wrote
    rw [Block.write,if_pos inside] at wrote
    cases wrote
    cases rest with
    | nil => simp at outside; omega
    | cons b rest => exact ih (by simp) (by change block.bytes/width < _; omega)

section Strings
variable [Zero α]

def Block.Holds (block : Block width α) (text : List α) : Prop := 0 ∉ text ∧ block.Starts (text ++ [0])

def Block.strcpy (block : Block width α) (text : List α) : Option (Block width α) := block.writeAll 0 (text ++ [0])

theorem strcpy_holds (block : Block width α) (clean : 0 ∉ text) (inside : text.length < block.bytes/width) :
    ∃ written, block.strcpy text = some written ∧ written.bytes = block.bytes ∧ written.Holds text := by
  obtain ⟨written,wrote,same,starts⟩ := (starts_nil block).writeAll (text ++ [0]) (by simp; omega)
  exact ⟨written,wrote,same,clean,starts⟩

theorem strcpy_outside {block : Block width α} (outside : block.bytes/width ≤ text.length) : block.strcpy text = none :=
  writeAll_outside (by simp) (by simp; omega)

variable [DecidableEq α]

def strlen : List (Option α) → Option Nat
  | some a :: rest => if a = 0 then some 0 else (strlen rest).map (· + 1)
  | _ => none

theorem strlen_terminated {text : List α} (clean : 0 ∉ text) (more : List (Option α)) :
    strlen (text.map some ++ some 0 :: more) = some text.length := by
  induction text with
  | nil => simp [strlen]
  | cons a rest ih =>
    simp only [List.mem_cons,not_or] at clean
    simp [strlen,Ne.symm clean.1,ih clean.2]

def Block.strcat (block : Block width α) (text : List α) : Option (Block width α) := do
  let length ← strlen block.cells
  block.writeAll length (text ++ [0])

theorem Block.Holds.strcat_from {block : Block width α} (holds : block.Holds text) (more : List α) :
    block.strcat more = block.writeAll text.length (more ++ [0]) := by
  obtain ⟨clean,after,cells⟩ := holds
  have found : strlen block.cells = some text.length := by simpa [← cells] using strlen_terminated clean after
  simp [Block.strcat,found]

-- The terminator is written over by the first character, and written again after the last.
theorem Block.Holds.strcat {block : Block width α} (holds : block.Holds text) (clean : 0 ∉ more)
    (inside : text.length+more.length < block.bytes/width) :
    ∃ written, block.strcat more = some written ∧ written.bytes = block.bytes ∧ written.Holds (text ++ more) := by
  obtain ⟨written,wrote,same,starts⟩ := holds.2.shorter.writeAll (more ++ [0]) (by simp; omega)
  exact ⟨written,(holds.strcat_from more).trans wrote,same,by simp [holds.1,clean],by simpa using starts⟩

theorem Block.Holds.strcat_outside {block : Block width α} (holds : block.Holds text)
    (outside : block.bytes/width ≤ text.length+more.length) : block.strcat more = none := by
  rw [holds.strcat_from]
  exact writeAll_outside (by simp) (by simp; omega)

end Strings

end Blocks
