import BidScope.Core.Dict
import BidScope.Core.Regex
import BidScope.Core.Text
import BidScope.L1Domain.Types

/-!
# The two sanitisers

`redact_audit_value` of `audit.py` and `_sanitize` of `observability.py` walk
nested data in the same way: texts are cut, a container keeps its first 32
items and is dropped whole below a depth, and what is stored under a key that
names a secret is masked. They differ in what a key and a text are cut to, in
the test of a key and in what is dropped where, which is a `Policy`;
`Policy.clean` is the walk.

A text is the list of its characters, a set the list of its items in the order
they are iterated, a float its bits. Of an object of another class only its
`str()` matters. `PyText` holds what is taken of Python's Unicode tables.
-/
namespace BidScope.L12

open BidScope.L1 (isSpace)

/-- `str.casefold`, and `str.isalnum` of a character. -/
structure PyText where
  casefold : List Char → List Char
  isalnum : Char → Bool

inductive Sequence where
  | list | tuple | set | frozenset
  deriving DecidableEq, Repr

inductive PyValue where
  | none
  | bool (b : Bool)
  | int (n : Int)
  | float (bits : UInt64)
  | str (s : List Char)
  | other (text : List Char)
  | dict (items : List (List Char × PyValue))
  | seq (kind : Sequence) (items : List PyValue)

/-- What the sanitisers return. -/
inductive Clean where
  | none
  | bool (b : Bool)
  | int (n : Int)
  | float (bits : UInt64)
  | str (s : List Char)
  | list (items : List Clean)
  | dict (items : List (List Char × Clean))

/-- A value that is not returned as it is. -/
inductive Kind where
  | other
  | dict
  | seq (kind : Sequence)
  deriving DecidableEq, Repr

/-- Where the sanitisers differ; `secret` is the test of a key, made on what
`key` leaves of it. -/
structure Policy where
  cuts : Nat → Kind → Bool
  key : List Char → List Char
  secret : List Char → Bool
  str : List Char → List Char
  other : List Char → List Char

def MAX_ITEMS : Nat := 32

def REDACTED : List Char := "[REDACTED]".toList

def TRUNCATED : List Char := "[TRUNCATED]".toList

mutual

/-- The walk at a depth. -/
def Policy.clean (P : Policy) : Nat → PyValue → Clean
  | _, .none => .none
  | _, .bool b => .bool b
  | _, .int n => .int n
  | _, .float bits => .float bits
  | _, .str s => .str (P.str s)
  | depth, .other s => if P.cuts depth .other then .str TRUNCATED else .str (P.other s)
  | depth, .dict items =>
    if P.cuts depth .dict then .str TRUNCATED
    else .dict (Dict.ofList (P.cleanEntries depth MAX_ITEMS items)).entries
  | depth, .seq kind items =>
    if P.cuts depth (.seq kind) then .str TRUNCATED
    else .list (P.cleanItems depth MAX_ITEMS items)

/-- The assignments `result[key] = ...` for the next entries, in their order. -/
def Policy.cleanEntries (P : Policy) (depth : Nat) :
    Nat → List (List Char × PyValue) → List (List Char × Clean)
  | 0, _ => []
  | _ + 1, [] => []
  | n + 1, (rawKey, rawValue) :: rest =>
    (P.key rawKey,
        if P.secret (P.key rawKey) then .str REDACTED else P.clean (depth + 1) rawValue) ::
      P.cleanEntries depth n rest

def Policy.cleanItems (P : Policy) (depth : Nat) : Nat → List PyValue → List Clean
  | 0, _ => []
  | _ + 1, [] => []
  | n + 1, item :: rest => P.clean (depth + 1) item :: P.cleanItems depth n rest

end

/-! ## The audit trail -/

def MAX_AUDIT_STRING_LENGTH : Nat := 1000

def MAX_AUDIT_DEPTH : Nat := 2

/-- mirrors audit.py:19-21 -/
def SECRET_KEY_PARTS : List (List Char) :=
  ["token".toList, "authorization".toList, "cookie".toList, "secret".toList, "api_key".toList,
    "password".toList]

/-- `part in text` -/
def within (part text : List Char) : Bool := (Text.find text part 0).isSome

/-- Of the `str()` of a value.
mirrors audit.py:79-84 -/
def boundedText (text : List Char) : List Char :=
  (text.filter (· != '\x00')).take MAX_AUDIT_STRING_LENGTH

/-- mirrors audit.py:95-97 -/
def isSecretKey (lib : PyText) (key : List Char) : Bool :=
  let normalized := (lib.casefold key).map fun c => if c = '-' then '_' else c
  SECRET_KEY_PARTS.any fun part => within part normalized

def auditPolicy (lib : PyText) : Policy where
  cuts depth kind := MAX_AUDIT_DEPTH ≤ depth &&
    (kind == .dict || kind == .seq .list || kind == .seq .tuple)
  key := boundedText
  secret := isSecretKey lib
  str s := s.take MAX_AUDIT_STRING_LENGTH
  other := boundedText

/-- mirrors audit.py:100-123 -/
def redactAuditValue (lib : PyText) (value : PyValue) : Clean := (auditPolicy lib).clean 0 value

/-! ## The structured log -/

def MAX_STRING_LENGTH : Nat := 1000

def MAX_NESTED_DEPTH : Nat := 2

/-- A letter as `re.IGNORECASE` has it: besides the two cases a long s, a Kelvin
sign, a dotted capital I and a dotless i. -/
def sameLetter (letter c : Char) : Bool :=
  c == letter || c == letter.toUpper || (letter == 's' && c == '\u017F') ||
    (letter == 'k' && c == '\u212A') || (letter == 'i' && (c == '\u0130' || c == '\u0131'))

/-- A word of a pattern. -/
def word : List Char → Regex.Re Char
  | [] => .opt (.sym fun _ => false)
  | [c] => .sym (sameLetter c)
  | c :: cs => .sym (sameLetter c) ++ word cs

/-- `api[_-]?key` -/
def apiKey : Regex.Re Char :=
  word "api".toList ++ .opt (.sym fun c => c == '_' || c == '-') ++ word "key".toList

/-- mirrors observability.py:35-37 -/
def SENSITIVE_KEY_RE : Regex.Re Char :=
  .alt (word "token".toList) (.alt (word "authorization".toList) (.alt (word "cookie".toList)
    (.alt (word "secret".toList) (.alt apiKey (word "password".toList)))))

/-- `[^\s,;]+` -/
def secretRun : Regex.Re Char := .some fun c => !isSpace c && c != ',' && c != ';'

/-- Behind `\b`, which `startsWord` is.
mirrors observability.py:38 -/
def BEARER_RE : Regex.Re Char :=
  .group 1 (word "bearer".toList ++ .some isSpace) ++ secretRun

/-- `\b` before a letter. -/
def startsWord (lib : PyText) : Option Char → Bool
  | none => true
  | some c => !(lib.isalnum c || c == '_')

/-- mirrors observability.py:39-42 -/
def SENSITIVE_VALUE_RE : Regex.Re Char :=
  .group 1 (.alt (word "token".toList) (.alt apiKey (.alt (word "secret".toList)
      (word "password".toList))) ++
    .many isSpace ++ .sym (fun c => c == ':' || c == '=') ++ .many isSpace) ++ secretRun

/-- `\1[REDACTED]` -/
def masked (groups : Regex.Groups Char) : List Char := (groups.get 1).getD [] ++ REDACTED

/-- mirrors observability.py:115-118 -/
def redactString (lib : PyText) (value : List Char) : List Char :=
  Regex.sub SENSITIVE_VALUE_RE (fun _ => true) masked
    (Regex.sub BEARER_RE (startsWord lib) masked (value.take MAX_STRING_LENGTH))

def logPolicy (lib : PyText) : Policy where
  cuts depth _ := MAX_NESTED_DEPTH ≤ depth
  key k := k.take 100
  secret k := (Regex.search SENSITIVE_KEY_RE k).isSome
  str := redactString lib
  other := redactString lib

/-- mirrors observability.py:121-138 -/
def sanitize (lib : PyText) (value : PyValue) : Clean := (logPolicy lib).clean 0 value

end BidScope.L12
