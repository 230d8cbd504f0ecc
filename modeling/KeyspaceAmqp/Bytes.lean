import Mathlib.Data.List.Basic
import Mathlib.Data.List.TakeWhile

namespace KeyspaceAmqp

abbrev Bytes := List UInt8

-- The bytes of a string literal of the C source (all of them are ASCII).
def ascii (text : String) : Bytes := text.toList.map fun c => UInt8.ofNat c.toNat

-- A `const char*`: the bytes before its terminator. The field keeps a string
-- with an inner NUL, which no C string can hold, from being built.
structure CString where
  bytes : Bytes
  noNul : 0 ∉ bytes
  deriving DecidableEq

theorem CString.ext {left right : CString} (same : left.bytes = right.bytes) : left = right := by
  cases left; cases right; cases same; rfl

-- What a `char*` into a counted buffer denotes: RedisModule_StringPtrLen hands
-- out such pointers, and strlen, strcmp, strcpy and sprintf stop at the first NUL.
def cstr (buffer : Bytes) : CString :=
  ⟨buffer.takeWhile (· ≠ 0),fun inside => by simpa using List.mem_takeWhile_imp inside⟩

theorem cstr_bytes (buffer : Bytes) (clean : 0 ∉ buffer) : (cstr buffer).bytes = buffer := by
  refine List.takeWhile_eq_self_iff.mpr ?_
  intro b member
  simpa using fun zero : b = 0 => clean (zero ▸ member)

@[simp] theorem cstr_of_string (s : CString) : cstr s.bytes = s :=
  CString.ext (cstr_bytes _ s.noNul)

def CString.append (left right : CString) : CString :=
  ⟨left.bytes ++ right.bytes,by simp [left.noNul,right.noNul]⟩

instance : Append CString := ⟨CString.append⟩

@[simp] theorem append_bytes (left right : CString) : (left ++ right).bytes = left.bytes ++ right.bytes := rfl

def digits (n : Nat) : Bytes :=
  (Nat.toDigits 10 n).map fun c => UInt8.ofNat c.toNat

theorem digits_range (member : b ∈ digits n) : 48 ≤ b ∧ b ≤ 57 := by
  obtain ⟨c,mem,rfl⟩ := List.mem_map.mp member
  have digit : c.isDigit = true := Nat.isDigit_of_mem_toDigits (by decide) (by decide) mem
  have range : 48 ≤ c.toNat ∧ c.toNat ≤ 57 := by simpa [Char.isDigit,UInt32.le_iff_toNat_le] using digit
  have small : c.toNat < 256 := by omega
  constructor <;> rw [UInt8.le_iff_toNat_le] <;> simp [Nat.mod_eq_of_lt small] <;> omega

def decimalBytes : Int → Bytes
  | .ofNat n => digits n
  | .negSucc n => 45 :: digits (n+1)

theorem decimalBytes_range {z : Int} (member : b ∈ decimalBytes z) : b = 45 ∨ (48 ≤ b ∧ b ≤ 57) := by
  cases z with
  | ofNat n => exact .inr (digits_range member)
  | negSucc n =>
    rcases List.mem_cons.mp member with sign | digit
    · exact .inl sign
    · exact .inr (digits_range digit)

def decimal (z : Int) : CString :=
  ⟨decimalBytes z,fun zero => by rcases decimalBytes_range zero with h | h <;> exact absurd h (by decide)⟩

def LONG_MAX : Int := 0x7FFFFFFFFFFFFFFF
def LONG_MIN : Int := -0x8000000000000000

def isSpace (b : UInt8) : Bool := b == 32 || (9 ≤ b && b ≤ 13)
def isDigit (b : UInt8) : Bool := 48 ≤ b && b ≤ 57

def digitsValue (text : Bytes) : Nat :=
  (text.takeWhile isDigit).foldl (fun value b => 10*value + (b.toNat-48)) 0

-- strtol(text, NULL, 10): leading blanks, one sign, the longest run of digits
-- (none at all reads as 0), and the nearest long when the value does not fit.
def strtol (text : CString) : Int :=
  let value : Int := match text.bytes.dropWhile isSpace with
    | 45 :: rest => -(digitsValue rest : Int)
    | 43 :: rest => digitsValue rest
    | rest => digitsValue rest
  max LONG_MIN (min LONG_MAX value)

example : strtol (cstr (ascii " -12x")) = -12 := by decide

theorem digits_value (n : Nat) : digitsValue (digits n) = n := by
  have all : (digits n).takeWhile isDigit = digits n := by
    refine List.takeWhile_eq_self_iff.mpr fun b member => ?_
    simpa [isDigit] using digits_range member
  rw [digitsValue,all,digits,List.foldl_map]
  refine Eq.trans (List.foldl_ext _ _ _ fun value c member => ?_) (Nat.ofDigitChars_ten_toDigits (n := n))
  have digit : c.isDigit = true := Nat.isDigit_of_mem_toDigits (by decide) (by decide) member
  have range : 48 ≤ c.toNat ∧ c.toNat ≤ 57 := by simpa [Char.isDigit,UInt32.le_iff_toNat_le] using digit
  have small : c.toNat < 256 := by omega
  simp [Nat.mod_eq_of_lt small]

theorem decimalBytes_injective (same : decimalBytes a = decimalBytes b) : a = b := by
  have unsigned (n m : Nat) : digits n ≠ 45 :: digits m := fun same => by
    have range := digits_range (n := n) (b := 45) (same ▸ List.mem_cons_self)
    exact absurd range.1 (by decide)
  cases a with
  | ofNat n =>
    cases b with
    | ofNat m => rw [← digits_value n,← digits_value m,show digits n = digits m from same]
    | negSucc m => exact absurd same (unsigned n _)
  | negSucc n =>
    cases b with
    | ofNat m => exact absurd same.symm (unsigned m _)
    | negSucc m =>
      have tails : digits (n+1) = digits (m+1) := (List.cons.inj same).2
      have value : n+1 = m+1 := by rw [← digits_value (n+1),tails,digits_value]
      rw [Nat.succ.inj value]

theorem decimalBytes_length (db : Int32) : (decimalBytes db.toInt).length ≤ 11 := by
  have short (n : Nat) (small : n < 10^10) : (digits n).length ≤ 10 := by
    rw [digits,List.length_map]
    exact (Nat.length_toDigits_le_iff (by decide) (by decide)).mpr small
  have low := db.le_toInt
  have high := db.toInt_lt
  cases same : db.toInt with
  | ofNat n => exact (short n (by grind)).trans (by decide)
  | negSucc n =>
    have := short (n+1) (by grind)
    simp only [decimalBytes,List.length_cons]
    omega

end KeyspaceAmqp
