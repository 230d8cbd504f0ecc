import KeyspaceAmqp.Bytes

namespace KeyspaceAmqp

def byte (c : Char) : UInt8 := UInt8.ofNat c.toNat

-- The do-while loop of matchhere's star case; `here` is matchhere on the rest of the mask.
def starLoop (here : Bytes → Bool) (c : UInt8) : Bytes → Bool
  | [] => here []
  | t :: text => here (t :: text) || ((t == c || c == byte '.') && starLoop here c text)

-- A mask or text is the list of its characters; the list's end is the terminator.
def matchhere : Bytes → Bytes → Bool
  | [],_ => true
  | c :: next :: regexp2,text =>
    if next = byte '*' then starLoop (matchhere regexp2) c text
    else match text with
      | [] => false
      | t :: text => (c == byte '.' || c == t) && matchhere (next :: regexp2) text
  | [c],text =>
    if c = byte '$' then text.isEmpty
    else match text with
      | [] => false
      | t :: text => (c == byte '.' || c == t) && matchhere [] text

def anywhere (here : Bytes → Bool) : Bytes → Bool
  | [] => here []
  | t :: text => here (t :: text) || anywhere here text

-- `match` of the source.
def matchRegexp (regexp text : CString) : Bool := match regexp.bytes with
  | [] => anywhere (matchhere []) text.bytes
  | c :: rest =>
    if c = byte '^' then matchhere rest text.bytes
    else anywhere (matchhere (c :: rest)) text.bytes

example : matchRegexp (cstr (ascii "^a.*z$")) (cstr (ascii "abcz")) = true := by decide

def newline : CString := ⟨[10],by decide⟩

def redisArgsToSerializedString : List Bytes → CString
  | [] => cstr []
  | first :: rest => rest.foldl (fun data arg => data ++ newline ++ cstr arg) (cstr first)

-- The loop of the decoder: the elements finished so far and the characters in `buff`.
def argsLoop : Bytes → List Bytes → Bytes → List Bytes × Bytes
  | [],out,buff => (out,buff)
  | c :: data,out,buff => if c = 10 then argsLoop data (out ++ [buff]) [] else argsLoop data out (buff ++ [c])

def serializedStringToRedisArgs (serializedData : CString) : List Bytes :=
  let (out,buff) := argsLoop serializedData.bytes [] []
  if buff.length > 0 then out ++ [buff] else out

end KeyspaceAmqp
