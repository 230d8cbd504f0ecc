import KeyspaceAmqp.Utils
import KeyspaceAmqp.Library.Patterns

namespace KeyspaceAmqp
open Patterns Computability

def charFits (c t : UInt8) : Bool := c == byte '.' || c == t

def readTokens : Bytes → List (Token UInt8) × Bool
  | [] => ([],false)
  | c :: next :: rest =>
    if next = byte '*' then (⟨charFits c,true⟩ :: (readTokens rest).1,(readTokens rest).2)
    else (⟨charFits c,false⟩ :: (readTokens (next :: rest)).1,(readTokens (next :: rest)).2)
  | [c] => if c = byte '$' then ([],true) else ([⟨charFits c,false⟩],false)

structure Mask where
  anchored : Bool
  tokens : List (Token UInt8)
  closed : Bool

def readMask (mask : CString) : Mask := match mask.bytes with
  | [] => ⟨false,[],false⟩
  | c :: rest =>
    if c = byte '^' then ⟨true,(readTokens rest).1,(readTokens rest).2⟩
    else ⟨false,(readTokens (c :: rest)).1,(readTokens (c :: rest)).2⟩

-- Some substring is a concatenation of words of the tokens, a prefix where the
-- mask has its start anchor and a suffix where it has its end anchor.
def Mask.Matches (mask : Mask) (text : Bytes) : Prop :=
  ∃ before found after, text = before ++ found ++ after ∧ found ∈ words mask.tokens ∧
    (mask.anchored = true → before = []) ∧ (mask.closed = true → after = [])

theorem words_cons (token : Token UInt8) (tokens : List (Token UInt8)) :
    words (token :: tokens) = token.language * words tokens := by simp [words]

theorem starLoop_begins {here : Bytes → Bool} {rest : Language UInt8}
    (c : UInt8)
    (reads : ∀ text, here text = true ↔ Begins rest closed text) (text : Bytes) :
    starLoop here c text = true ↔ Begins ((Token.mk (charFits c) true).language * rest) closed text := by
  induction text with
  | nil =>
    have ended : Begins ((letters (charFits c))∗ * rest) closed [] ↔ Begins rest closed [] := by
      rw [begins_star]
      simp
    simpa [starLoop,Token.language,reads] using ended.symm
  | cons t text ih =>
    have fit : (t == c || c == byte '.') = charFits c t := by
      rw [charFits,Bool.or_comm,BEq.comm (a := t)]
    simp only [Token.language,if_true] at ih ⊢
    rw [begins_star,starLoop,Bool.or_eq_true,Bool.and_eq_true,fit,reads,ih]
    simp

theorem oneChar_begins {here : Bytes → Bool} {rest : Language UInt8} (c : UInt8)
    (reads : ∀ text, here text = true ↔ Begins rest closed text) (text : Bytes) :
    (match text with | [] => false | t :: text => (c == byte '.' || c == t) && here text) = true ↔
      Begins ((Token.mk (charFits c) false).language * rest) closed text := by
  rw [Token.language,if_neg (by simp),begins_letter]
  cases text with
  | nil => simp
  | cons t text => simp [charFits,reads]

theorem matchhere_begins (mask text : Bytes) :
    matchhere mask text = true ↔ Begins (words (readTokens mask).1) (readTokens mask).2 text := by
  induction mask using readTokens.induct generalizing text with
  | case1 => simp [matchhere,readTokens,words,begins_one]
  | case2 c rest ih =>
    simp only [matchhere,readTokens,if_true,words_cons]
    exact starLoop_begins c ih text
  | case3 c next rest single ih =>
    simp only [matchhere,readTokens,if_neg single,words_cons]
    exact oneChar_begins c ih text
  | case4 => simp [matchhere,readTokens,words,begins_one]
  | case5 c other =>
    simp only [matchhere,readTokens,if_neg other,words_cons]
    refine oneChar_begins c (fun text => ?_) text
    simp [words,begins_one]

theorem anywhere_occurs {language : Language UInt8} (reads : ∀ text, here text = true ↔ Begins language closed text)
    (text : Bytes) : anywhere here text = true ↔ Occurs language closed text := by
  induction text with
  | nil => rw [anywhere,reads,occurs_nil]
  | cons t text ih => rw [anywhere,Bool.or_eq_true,reads,ih,occurs_cons]

theorem matches_anchored (tokens : List (Token UInt8)) (closed : Bool) (text : Bytes) :
    (Mask.mk true tokens closed).Matches text ↔ Begins (words tokens) closed text := by
  constructor
  · rintro ⟨before,found,after,rfl,member,atStart,atEnd⟩
    obtain rfl := atStart rfl
    exact ⟨found,after,rfl,member,atEnd⟩
  · rintro ⟨found,after,rfl,member,atEnd⟩
    exact ⟨[],found,after,rfl,member,fun _ => rfl,atEnd⟩

theorem matches_free (tokens : List (Token UInt8)) (closed : Bool) (text : Bytes) :
    (Mask.mk false tokens closed).Matches text ↔ Occurs (words tokens) closed text := by
  constructor
  · rintro ⟨before,found,after,rfl,member,_,atEnd⟩
    exact ⟨before,found ++ after,by simp,found,after,rfl,member,atEnd⟩
  · rintro ⟨before,_,rfl,found,after,rfl,member,atEnd⟩
    exact ⟨before,found,after,by simp,member,nofun,atEnd⟩

theorem matchRegexp_language (mask text : CString) :
    matchRegexp mask text = true ↔ (readMask mask).Matches text.bytes := by
  unfold matchRegexp readMask
  cases mask.bytes with
  | nil =>
    rw [matches_free]
    exact anywhere_occurs (matchhere_begins []) text.bytes
  | cons c rest =>
    by_cases anchor : c = byte '^'
    · simp only [if_pos anchor,matches_anchored]
      exact matchhere_begins rest text.bytes
    · simp only [if_neg anchor,matches_free]
      exact anywhere_occurs (matchhere_begins (c :: rest)) text.bytes

end KeyspaceAmqp
