import Mathlib.Data.String.Basic
import BidScope.Core.FileTree
import BidScope.Core.KeyOrder
import BidScope.L9Storage.Paths

/-!
# Object stores

`delivery/objects.py`: `LocalObjectStore` over a file tree and `S3ObjectStore`
over a flat map of full keys to bytes, one call at a time.

What a put returns is where the store keeps the bytes, a path or an `s3://` URL,
and which exception is raised differs by backend; `Res` keeps neither.
-/
namespace BidScope.L9
open BidScope.L1

inductive Op where
  | putBytes (key : String) (data : Bytes)
  | getBytes (key : String)
  | existsKey (key : String)
  | delete (key : String)
  | listKeys (start : String)
  deriving DecidableEq, Repr

inductive Res where
  | done
  | bytes (data : Bytes)
  | bool (found : Bool)
  | keys (keys : List String)
  | raised
  deriving DecidableEq, Repr

def startsWith (key start : String) : Bool := start.toList.isPrefixOf key.toList

theorem startsWith_iff {key start : String} :
    startsWith key start = true ↔ start.toList <+: key.toList := List.isPrefixOf_iff_prefix

/-- The names both stores take: neither `..` in them nor a slash in front. -/
def Accepted (key : String) : Prop := ¬ "..".toList <:+: key.toList ∧ ¬ startsWith key "/" = true

instance (key : String) : Decidable (Accepted key) := inferInstanceAs (Decidable (_ ∧ _))

/-- `sorted(keys)`, by code points. -/
def sorted (keys : List String) : List String := KeyOrder.orderBy (fun key : String => key) keys

/-! ## `LocalObjectStore` -/

/-- A configured store: the parts of its root as given, and those of
`self.root.resolve()`. An absolute path has "/" as its first part, and a
resolved one is absolute. -/
structure LocalStore where
  root : List String
  resolved : List String

/-- `path.relative_to(base)`; `none` is the `ValueError`. -/
def relativeTo (path base : List String) : Option (List String) :=
  if base <+: path then some (path.drop base.length) else none

/-- Files and directories below `root`. -/
abbrev Root := FileTree String Bytes

/-- mirrors delivery/objects.py:21-28; `none` is the `ValueError`. Without `..`
the path resolved stays below the root. -/
def resolve (key : String) : Option (List String) := if Accepted key then some (parts key) else none

/-- mirrors delivery/objects.py:30-53: the parent with its missing ancestors, a
temporary file in it, and its rename to the target. The parent of the root is
there, and the root cannot be replaced. -/
def Root.putBytes (t : Root) (key : String) (data : Bytes) : Root × Res :=
  match resolve key with
  | none => (t, .raised)
  | some path =>
    match t.mkdirs path.dropLast with
    | none => (t, .raised)
    | some d =>
      match d.write path data with
      | none => (d, .raised)
      | some t' => (t', .done)

/-- mirrors delivery/objects.py:55-59; a directory exists and cannot be read. -/
def Root.getBytes (t : Root) (key : String) : Res :=
  match resolve key with
  | none => .raised
  | some path =>
    match t.node path with
    | none => .raised
    | some .dir => .raised
    | some (.file data) => .bytes data

/-- mirrors delivery/objects.py:61-65 -/
def Root.existsKey (t : Root) (key : String) : Res :=
  match resolve key with
  | none => .bool false
  | some path => .bool (t.node path).isSome

/-- The files are found below the root as given, and named from the root
resolved. mirrors delivery/objects.py:67-75 -/
def Root.listKeys (l : LocalStore) (t : Root) (start : String) : Res :=
  match resolve (if start = "" then "." else start) with
  | none => .raised
  | some _ =>
    match t.files.keys.mapM fun p => relativeTo (l.root ++ p) l.resolved with
    | none => .raised
    | some names => .keys (sorted ((names.map asPosix).filter (startsWith · start)))

/-- mirrors delivery/objects.py:77-82 -/
def Root.delete (t : Root) (key : String) : Root × Res :=
  match resolve key with
  | none => (t, .raised)
  | some path =>
    match t.node path with
    | none => (t, .done)
    | some .dir => (t, .raised)
    | some (.file _) => (t.remove path, .done)

def Root.call (l : LocalStore) (t : Root) : Op → Root × Res
  | .putBytes key data => t.putBytes key data
  | .getBytes key => (t, t.getBytes key)
  | .existsKey key => (t, t.existsKey key)
  | .delete key => t.delete key
  | .listKeys start => (t, t.listKeys l start)

/-! ## `S3ObjectStore` -/

/-- `s.strip("/")` -/
def stripSlash (s : String) : String :=
  .ofList ((s.toList.dropWhile (· = '/')).reverse.dropWhile (· = '/')).reverse

/-- A configured store: its prefix as given, and how the server orders and cuts
the keys of a listing into pages. -/
structure S3Store where
  configured : String
  pages : List String → List (List String)
  pages_perm : ∀ keys, (pages keys).flatten.Perm keys

/-- The objects of the bucket. -/
abbrev Bucket := Dict String Bytes

/-- mirrors delivery/objects.py:128 -/
def S3Store.base (s : S3Store) : String := stripSlash s.configured

/-- mirrors delivery/objects.py:163-166 -/
def S3Store.fullKey (s : S3Store) (key : String) : Option String :=
  if Accepted key then some (if s.base ≠ "" then s.base ++ "/" ++ key else key) else none

/-- `f"{self.prefix}/" if self.prefix else ""` -/
def S3Store.logicalBase (s : S3Store) : String := if s.base ≠ "" then s.base ++ "/" else ""

/-- mirrors delivery/objects.py:168-175 -/
def S3Store.fullStart (s : S3Store) (start : String) : Option String :=
  if Accepted start then
    some (if stripSlash start = "" then s.logicalBase else s.logicalBase ++ stripSlash start)
  else none

structure Response where
  contents : List String
  isTruncated : Bool
  nextToken : Option Nat

/-- `list_objects_v2`: the page the token stands for, of the keys that start as asked. -/
def S3Store.listObjects (s : S3Store) (b : Bucket) (start : String) (token : Option Nat) : Response :=
  let pages := s.pages (b.keys.filter (startsWith · start))
  let page := token.getD 0
  let more := page + 1 < pages.length
  ⟨pages.getD page [], more, if more then some (page + 1) else none⟩

/-- The keys of a page, without the base. -/
def S3Store.logicalKeys (s : S3Store) (contents : List String) : List String :=
  (contents.filter (startsWith · s.logicalBase)).map fun key =>
    .ofList (key.toList.drop s.logicalBase.toList.length)

/-- mirrors delivery/objects.py:182-199, the loop: at most `fuel` requests. -/
def S3Store.listLoop (s : S3Store) (b : Bucket) (start : String) :
    Nat → Option Nat → List String → Option (List String)
  | 0, _, _ => none
  | fuel + 1, token, keys =>
    let response := s.listObjects b start token
    let keys := keys ++ s.logicalKeys response.contents
    if ¬ response.isTruncated then some keys
    else
      match response.nextToken with
      | none => some keys
      | some token => s.listLoop b start fuel (some token) keys

/-- mirrors delivery/objects.py:177-200; one request a page is enough (`listLoop_eq`). -/
def S3Store.listKeys (s : S3Store) (b : Bucket) (start : String) : Res :=
  match s.fullStart start with
  | none => .raised
  | some full =>
    let requests := (s.pages (b.keys.filter (startsWith · full))).length + 1
    match s.listLoop b full requests none [] with
    | none => .raised
    | some keys => .keys (sorted keys)

/-- mirrors delivery/objects.py:202-226 -/
def S3Store.call (s : S3Store) (b : Bucket) : Op → Bucket × Res
  | .putBytes key data =>
    match s.fullKey key with
    | none => (b, .raised)
    | some full => (b.set full data, .done)
  | .getBytes key =>
    match s.fullKey key with
    | none => (b, .raised)
    | some full =>
      match b.get full with
      | none => (b, .raised)
      | some data => (b, .bytes data)
  | .existsKey key =>
    match s.fullKey key with
    | none => (b, .raised)
    | some full => (b, .bool (b.get full).isSome)
  | .delete key =>
    match s.fullKey key with
    | none => (b, .raised)
    | some full => (b.erase full, .done)
  | .listKeys start => (b, s.listKeys b start)

end BidScope.L9
