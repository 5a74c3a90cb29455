import BidScope.Core.Canonical
import BidScope.Core.Checked
import BidScope.L9Storage.Bundles

/-!
# Manifests of authorized bundles

The models of domain/snapshots.py, field by field: what each accepts, the errors
in the order pydantic notes them, and the JSON form of `model_dump(mode="json")`.
-/
namespace BidScope.L9.Authorized

open BidScope.L1 BidScope.L5

/-- A `datetime` as it is given; one without a zone is known by its `isoformat`. -/
inductive PyDatetime where
  | aware (t : Datetime)
  | naive (text : String)

/-- A parsed `HttpUrl`; `text` is its JSON form. -/
structure Url extends HttpUrl where
  scheme : String
  port : Option Nat
  username : Option String
  password : Option String
  query : Option String
  fragment : Option String

/-- What the models take from pydantic, on what `json.loads` returns, and from
the standard library. -/
structure PydanticLib where
  str : Json Json.Number → Checked FieldError String
  int : Json Json.Number → Checked FieldError Int
  datetime : Json Json.Number → Checked FieldError PyDatetime
  /-- `HttpUrl` -/
  url : String → Checked FieldError Url
  /-- an aware `datetime` in JSON -/
  timeText : Datetime → String
  /-- the text of an error by its type and the bound in it -/
  text : String → Nat → String
  /-- a key of a dictionary in the location of an error -/
  keyName : List UInt16 → String
  /-- `urlsplit(url).netloc`, or the text of the `ValueError` -/
  netloc : String → Except String String
  casefold : String → String
  strip : String → String
  repr : String → String

variable (lib : PydanticLib)

/-! ## Fields -/

def fault (type : String) (bound : Nat) : FieldError := ⟨[], type, lib.text type bound⟩

/-- A `ValueError` of a validator. -/
def valueError (text : String) : FieldError := ⟨[], "value_error", "Value error, " ++ text⟩

/-- The error as it is named one level up. -/
def below (name : String) (e : FieldError) : FieldError := { e with loc := name :: e.loc }

variable {α : Type}

/-- A member that has to be there. -/
def required (raw : Json Json.Number) (name : String) (parse : Json Json.Number → Checked FieldError α) :
    Checked FieldError α :=
  match raw.get name with
  | none => .wrong (fault lib "missing" 0) []
  | some v => parse v

def defaulted (raw : Json Json.Number) (name : String) (default : α) (parse : Json Json.Number → Checked FieldError α) :
    Checked FieldError α :=
  match raw.get name with
  | none => .ok default
  | some v => parse v

def nullable (parse : Json Json.Number → Checked FieldError α) : Json Json.Number → Checked FieldError (Option α)
  | .null => .ok none
  | v => some <$> parse v

def indexed (f : α → Checked FieldError β) (l : List α) : Checked FieldError (List β) :=
  Checked.each (fun e : α × Nat => (f e.1).under (below (toString e.2))) l.zipIdx

def listOf (parse : Json Json.Number → Checked FieldError α) : Json Json.Number → Checked FieldError (List α)
  | .arr items => indexed parse items
  | _ => .wrong (fault lib "list_type" 0) []

/-- A member of `dict[str, str]`. -/
def entryOf (e : List UInt16 × Json Json.Number) : Checked FieldError (String × String) :=
  Prod.mk <$> (lib.str (.str e.1)).under (below (lib.keyName e.1) ∘ below "[key]") <*>
    (lib.str e.2).under (below (lib.keyName e.1))

/-- `dict[str, str]`; the last of several members of one name counts. -/
def dictOf : Json Json.Number → Checked FieldError (Dict String String)
  | .obj fields => Dict.ofList <$> Checked.each (entryOf lib) (Dict.ofList fields).entries
  | _ => .wrong (fault lib "dict_type" 0) []

/-! ## Constraints -/

def tooShort (bound : Nat) (s : String) : Option FieldError :=
  if s.length < bound then some (fault lib "string_too_short" bound) else none

def tooLong (bound : Nat) (s : String) : Option FieldError :=
  if bound < s.length then some (fault lib "string_too_long" bound) else none

def tooFew (bound : Nat) (l : List α) : Option FieldError :=
  if l.length < bound then some (fault lib "too_short" bound) else none

def tooMany (bound : Nat) (l : List α) : Option FieldError :=
  if bound < l.length then some (fault lib "too_long" bound) else none

def tooSmall (bound : Nat) (n : Int) : Option FieldError :=
  if n < bound then some (fault lib "greater_than_equal" bound) else none

def tooLarge (bound : Nat) (n : Int) : Option FieldError :=
  if bound < n then some (fault lib "less_than_equal" bound) else none

/-- A constraint on the value, where there is one. -/
def onSome (violation : α → Option FieldError) (x : Option α) : Option FieldError := x.bind violation

/-- A string of the lengths. -/
def bounded (lo hi : Nat) (x : Checked FieldError String) : Checked FieldError String :=
  (x.ensure (tooShort lib lo)).ensure (tooLong lib hi)

/-- `_require_tz_aware`
mirrors domain/types.py:8-11 -/
def requireAware : PyDatetime → Checked FieldError Datetime
  | .aware t => .ok t
  | .naive _ => .wrong (valueError "datetime must be timezone-aware") []

/-! ## Contracts -/

inductive ReviewStatus where
  | approved | pending | rejected
  deriving DecidableEq, Repr

def ReviewStatus.value : ReviewStatus → String
  | .approved => "approved"
  | .pending => "pending"
  | .rejected => "rejected"

inductive UpdateSla where
  | weekly
  deriving DecidableEq, Repr

def UpdateSla.value : UpdateSla → String
  | .weekly => "weekly"

/-- The units of a string. -/
def jsonText : Json Json.Number → Option (List UInt16)
  | .str s => some s
  | _ => none

/-- The member of an enumeration or a `Literal` with the value. -/
def oneOf (type : String) (all : List α) (value : α → String) (v : Json Json.Number) : Checked FieldError α :=
  match all.find? fun a => jsonText v = some (Json.units (value a)) with
  | some a => .ok a
  | none => .wrong (fault lib type 0) []

/-- What is checked stands under the name of a field. -/
def field (name : String) (x : Checked FieldError α) : Checked FieldError α := x.under (below name)

/-- mirrors domain/snapshots.py:30-41 -/
structure SourceContract where
  contractVersion : String
  authorizationRef : String
  dataOwner : String
  regions : List String
  categories : List String
  reviewStatus : ReviewStatus
  reviewedAt : Option Datetime
  updateSla : UpdateSla
  retentionDays : Int

def isWordChar (c : Char) : Bool := c.isDigit || ('a' ≤ c && c ≤ 'z')

/-- `_CONTRACT_VERSION_RE.fullmatch`: words between hyphens, the last one `v` and a number. -/
def contractVersionMatches (s : String) : Bool :=
  match (s.toList.splitOn '-').reverse with
  | ('v' :: number) :: word :: words =>
    !number.isEmpty && number.all Char.isDigit && (word :: words).all fun w => !w.isEmpty && w.all isWordChar
  | _ => false

/-- mirrors domain/snapshots.py:43-48 -/
def contractVersionFault (s : String) : Option FieldError :=
  if contractVersionMatches s then none else some (valueError "contract_version must use a name-vN format")

def isControl (c : Char) : Bool := c.toNat ≤ 0x1F || c.toNat = 0x7F

/-- mirrors domain/snapshots.py:50-62 -/
def labelsFault (labels : List String) : Option FieldError :=
  if labels.any fun s => lib.strip s = "" || s.toList.any isControl then
    some (valueError "contract labels must be non-blank and contain no control characters")
  else none

/-- mirrors domain/snapshots.py:64-68 -/
def reviewFault (c : SourceContract) : Option FieldError :=
  if c.reviewStatus = .approved ∧ c.reviewedAt = none then
    some (valueError "approved data_contract requires reviewed_at")
  else none

def contractLabel (v : Json Json.Number) : Checked FieldError String := bounded lib 1 128 (lib.str v)

def contractLabels (v : Json Json.Number) : Checked FieldError (List String) :=
  (((listOf lib (contractLabel lib) v).ensure (tooFew lib 1)).ensure (tooMany lib 50)).ensure (labelsFault lib)

/-- The members of a contract as `json.loads` has them.
mirrors domain/snapshots.py:30-68 -/
def SourceContract.ofMembers (raw : Json Json.Number) : Checked FieldError SourceContract :=
  (SourceContract.mk <$>
    field "contract_version" (required lib raw "contract_version" fun v =>
      (bounded lib 1 64 (lib.str v)).ensure contractVersionFault) <*>
    field "authorization_ref" (required lib raw "authorization_ref" fun v =>
      (contractLabel lib v).ensure fun s => labelsFault lib [s]) <*>
    field "data_owner" (required lib raw "data_owner" fun v =>
      (contractLabel lib v).ensure fun s => labelsFault lib [s]) <*>
    field "regions" (required lib raw "regions" (contractLabels lib)) <*>
    field "categories" (required lib raw "categories" (contractLabels lib)) <*>
    field "review_status" (required lib raw "review_status"
      (oneOf lib "literal_error" [.approved, .pending, .rejected] ReviewStatus.value)) <*>
    field "reviewed_at" (defaulted raw "reviewed_at" none
      (nullable fun v => (lib.datetime v).andThen requireAware)) <*>
    field "update_sla" (required lib raw "update_sla" (oneOf lib "literal_error" [.weekly] UpdateSla.value)) <*>
    field "retention_days" (required lib raw "retention_days" fun v =>
      ((lib.int v).ensure fun n => if 0 < n then none else some (fault lib "greater_than" 0)).ensure
        (tooLarge lib 3650))).ensure reviewFault

def SourceContract.ofJson (raw : Json Json.Number) : Checked FieldError SourceContract :=
  match raw with
  | .obj _ => SourceContract.ofMembers lib raw
  | _ => .wrong (fault lib "model_type" 0) []

/-! ## Transport metadata -/

/-- mirrors domain/snapshots.py:71-82 -/
structure AcquisitionMetadata where
  responseSha256 : String
  statusCode : Int
  cursorBefore : Option String
  cursorAfter : Option String
  requestCount : Int
  recordCount : Int
  responseItemsField : String
  noticeFieldMap : Dict String String
  extra : Dict String String

/-- The arguments of an `AuthorizedAcquisitionMetadata`, each with what is wrong with its type. -/
structure AcquisitionInput where
  responseSha256 : Checked FieldError String
  statusCode : Checked FieldError Int
  cursorBefore : Checked FieldError (Option String)
  cursorAfter : Checked FieldError (Option String)
  requestCount : Checked FieldError Int
  recordCount : Checked FieldError Int
  responseItemsField : Checked FieldError String
  noticeFieldMap : Checked FieldError (Dict String String)
  extra : Checked FieldError (Dict String String)

def isHex (c : Char) : Bool := c.isDigit || ('a' ≤ c && c ≤ 'f') || ('A' ≤ c && c ≤ 'F')

/-- `_SHA256_RE.fullmatch` -/
def sha256Fullmatch (s : String) : Bool := s.length = 64 && s.toList.all isHex

/-- `_SHA256_RE.match`: the end of the pattern may stand before a last newline. -/
def sha256Match (s : String) : Bool :=
  sha256Fullmatch s || (s.toList.getLast? = some '\n' && sha256Fullmatch (.ofList s.toList.dropLast))

/-- mirrors domain/snapshots.py:84-89 -/
def responseSha256Fault (s : String) : Option FieldError :=
  if sha256Fullmatch s then none else some (valueError "response_sha256 must be a 64-character hex SHA-256")

def SAFE_ACQUISITION_EXTRA_KEYS : List String := ["operator_note", "content_type", "endpoint_version"]

/-- Parts of a name that tell of a credential.
mirrors domain/snapshots.py:104-118 and ingestion/materializer.py:26-37 -/
def SENSITIVE_METADATA_PARTS : List String :=
  ["secret", "password", "credential", "signing", "api_key", "apikey", "access_key", "authorization", "auth", "token"]

/-- Parts of a text that tell of a credential.
mirrors domain/snapshots.py:120-134 and ingestion/materializer.py:232-247 -/
def SENSITIVE_VALUE_MARKERS : List String :=
  ["bearer ", "basic ", "password=", "secret=", "api-key", "api_key=", "access_token=", "auth=", "token=",
    "authorization:"]

/-- `key.casefold().replace("-", "_")` -/
def normalizedKey (casefold : String → String) (key : String) : String :=
  .ofList ((casefold key).toList.map fun c => if c = '-' then '_' else c)

def sensitiveKey (casefold : String → String) (key : String) : Bool :=
  SENSITIVE_METADATA_PARTS.any fun part => within part (normalizedKey casefold key)

def sensitiveValue (casefold : String → String) (value : String) : Bool :=
  SENSITIVE_VALUE_MARKERS.any fun marker => within marker (casefold value)

/-- The loop over the items, with the length so far.
mirrors domain/snapshots.py:91-136 -/
def extraFault : Nat → List (String × String) → Option FieldError
  | _, [] => none
  | total, (key, item) :: rest =>
    if 64 < key.length ∨ 256 < item.length then some (valueError "acquisition metadata fields are too long")
    else if 4096 < total + (key.length + item.length) then some (valueError "acquisition metadata is too large")
    else if key ∉ SAFE_ACQUISITION_EXTRA_KEYS then
      some (valueError "acquisition metadata field is not allowlisted")
    else if sensitiveKey lib.casefold key then
      some (valueError "acquisition metadata contains credential-bearing fields")
    else if sensitiveValue lib.casefold item then
      some (valueError "acquisition metadata contains credential-bearing values")
    else extraFault (total + (key.length + item.length)) rest

/-- mirrors domain/snapshots.py:141-149 -/
def NOTICE_FIELDS : List String :=
  ["external_id", "title", "purchaser", "region", "publish_time", "deadline", "budget"]

/-- mirrors domain/snapshots.py:138-153 -/
def noticeFieldMapFault (d : Dict String String) : Option FieldError :=
  if d.entries.any fun e => e.1 ∉ NOTICE_FIELDS || lib.strip e.2 = "" || decide (64 < e.2.length) then
    some (valueError "notice field mapping is invalid")
  else none

/-- mirrors domain/snapshots.py:71-153 -/
def AcquisitionInput.validate (i : AcquisitionInput) : Checked FieldError AcquisitionMetadata :=
  AcquisitionMetadata.mk <$>
    field "response_sha256" ((bounded lib 64 64 i.responseSha256).ensure responseSha256Fault) <*>
    field "status_code" ((i.statusCode.ensure (tooSmall lib 100)).ensure (tooLarge lib 599)) <*>
    field "cursor_before" (i.cursorBefore.ensure (onSome (tooLong lib 512))) <*>
    field "cursor_after" (i.cursorAfter.ensure (onSome (tooLong lib 512))) <*>
    field "request_count" ((i.requestCount.ensure (tooSmall lib 1)).ensure (tooLarge lib 100)) <*>
    field "record_count" ((i.recordCount.ensure (tooSmall lib 0)).ensure (tooLarge lib 1000000)) <*>
    field "response_items_field" (bounded lib 1 64 i.responseItemsField) <*>
    field "notice_field_map" ((i.noticeFieldMap.ensure fun d => tooMany lib 16 d.entries).ensure
      (noticeFieldMapFault lib)) <*>
    field "extra" ((i.extra.ensure fun d => tooMany lib 32 d.entries).ensure fun d => extraFault lib 0 d.entries)

/-- The arguments as `json.loads` has them; six have a default. -/
def AcquisitionInput.ofJson (raw : Json Json.Number) : AcquisitionInput where
  responseSha256 := required lib raw "response_sha256" lib.str
  statusCode := required lib raw "status_code" lib.int
  cursorBefore := defaulted raw "cursor_before" none (nullable lib.str)
  cursorAfter := defaulted raw "cursor_after" none (nullable lib.str)
  requestCount := defaulted raw "request_count" 1 lib.int
  recordCount := defaulted raw "record_count" 0 lib.int
  responseItemsField := defaulted raw "response_items_field" "items" lib.str
  noticeFieldMap := defaulted raw "notice_field_map" .empty (dictOf lib)
  extra := defaulted raw "extra" .empty (dictOf lib)

def AcquisitionMetadata.ofJson (raw : Json Json.Number) : Checked FieldError AcquisitionMetadata :=
  match raw with
  | .obj _ => (AcquisitionInput.ofJson lib raw).validate lib
  | _ => .wrong (fault lib "model_type" 0) []

/-! ## Manifests -/

/-- mirrors domain/snapshots.py:156-177 -/
structure SnapshotManifest where
  schemaVersion : Int
  bundleId : String
  source : SourceName
  captureKind : CaptureKind
  sourceUrls : List Url
  retrievedAt : Datetime
  retrievalOutcome : String
  parserVersion : String
  files : Dict String String
  batchId : Option String
  dataContract : Option SourceContract
  acquisitionMetadata : Option AcquisitionMetadata

/-- What `model_validate` is given, each field with what is wrong with its type. -/
structure ManifestInput where
  schemaVersion : Checked FieldError Int
  bundleId : Checked FieldError String
  source : Checked FieldError SourceName
  captureKind : Checked FieldError CaptureKind
  /-- `none` for what is not a string -/
  sourceUrls : Checked FieldError (List (Option String))
  retrievedAt : Checked FieldError PyDatetime
  retrievalOutcome : Checked FieldError String
  parserVersion : Checked FieldError String
  files : Checked FieldError (Dict String String)
  batchId : Checked FieldError (Option String)
  dataContract : Checked FieldError (Option SourceContract)
  acquisitionMetadata : Checked FieldError (Option AcquisitionMetadata)

def rawUrl : Option String → Checked FieldError String
  | none => .wrong (valueError "source_urls entries must be raw strings") []
  | some url =>
    match lib.netloc url with
    | .error text => .wrong (valueError text) []
    | .ok netloc =>
      if within "@" netloc then .wrong (valueError "source_urls must not include URL credentials") [] else .ok url

/-- The loop of the validator before the URLs are parsed; it stops at the first error.
mirrors domain/snapshots.py:179-196 -/
def rawUrls : List (Option String) → Checked FieldError (List String)
  | [] => .ok []
  | url :: rest => (rawUrl lib url).andThen fun url => List.cons url <$> rawUrls rest

/-- mirrors domain/snapshots.py:198-208 -/
def httpsFault (url : Url) : Option FieldError :=
  if url.scheme ≠ "https" then some (valueError "source_urls must use HTTPS scheme")
  else if url.username ≠ none ∨ url.password ≠ none then
    some (valueError "source_urls must not include URL credentials")
  else if url.port ∉ [none, some 443] then some (valueError "source_urls must use the default HTTPS port")
  else none

/-- mirrors domain/snapshots.py:210-218 -/
def filesFault (files : Dict String String) : Option FieldError :=
  files.entries.findSome? fun e =>
    if sha256Match e.2 then none
    else some (valueError ("file " ++ e.1 ++ " hash must be a 64-character hex SHA-256, got: " ++ lib.repr e.2))

def isAlnum (c : Char) : Bool := c.isDigit || ('a' ≤ c && c ≤ 'z') || ('A' ≤ c && c ≤ 'Z')

/-- `_BATCH_ID_RE.fullmatch` -/
def batchIdMatches (s : String) : Bool :=
  match s.toList with
  | c :: rest => isAlnum c && rest.all (fun c => isAlnum c || c ∈ ['.', '_', '-']) && rest.length ≤ 127
  | [] => false

/-- mirrors domain/snapshots.py:220-225 -/
def batchIdFault (s : String) : Option FieldError :=
  if batchIdMatches s then none
  else some (valueError "batch_id must be a bounded identifier without path separators")

/-- `sorted(allowed)` of a source as it is printed. -/
def allowedText : SourceName → String
  | .ccgp => "['search.ccgp.gov.cn', 'www.ccgp.gov.cn']"
  | .ggzy => "['www.ggzy.gov.cn']"
  | .syntheticDemo => "[]"

/-- `text` where the condition holds. -/
def noted (cond : Bool) (text : String) : List String := if cond then [text] else []

/-- mirrors domain/provenance.py:42-99 -/
def provenanceErrors (source : SourceName) (captureKind : CaptureKind) (host : Option String)
    (externalId : String) : List String :=
  match host with
  | none => ["source URL has no host"]
  | some host =>
    if captureKind = .syntheticDemo then
      noted (source != .syntheticDemo) "synthetic_demo bundles must declare source=synthetic_demo" ++
      noted (host != SYNTHETIC_HOST) ("synthetic_demo URLs must use " ++ SYNTHETIC_HOST ++ "; got " ++ host) ++
      noted (!hasSyntheticPrefix externalId)
        ("synthetic_demo external_id must start with 'demo-'; got " ++ lib.repr externalId)
    else
      noted (source == .syntheticDemo) "official capture kinds must not use source=synthetic_demo" ++
      noted (host == SYNTHETIC_HOST) ("official capture kinds must not use " ++ SYNTHETIC_HOST ++ "; got " ++ host) ++
      (match officialHosts source with
        | none => ["official capture kinds require an official source; got " ++ source.value]
        | some allowed => noted (!allowed.contains host)
            ("source " ++ source.value ++ " may only reference " ++ allowedText source ++ "; got " ++ host)) ++
      noted (hasSyntheticPrefix externalId)
        ("official capture kinds must not use synthetic prefix 'demo-'; got " ++ lib.repr externalId)

/-- mirrors domain/snapshots.py:227-238 -/
def provenanceFault (m : SnapshotManifest) : Option FieldError :=
  m.sourceUrls.findSome? fun url =>
    match provenanceErrors lib m.source m.captureKind url.host m.bundleId with
    | [] => none
    | errors => some (valueError (joinWith "; " errors))

def LEGACY_CCGP_CURATED_BUNDLE_IDS : List String := ["ccgp-central-20260718"]

/-- `url.query or url.fragment` -/
def hasQueryOrFragment (url : Url) : Bool := url.query.getD "" != "" || url.fragment.getD "" != ""

/-- mirrors domain/snapshots.py:240-276 -/
def authorizedContractFault (m : SnapshotManifest) : Option FieldError :=
  if m.schemaVersion = 1 then
    if m.source = .ccgp ∧ m.captureKind = .curatedPublicExcerpt ∧ m.bundleId ∉ LEGACY_CCGP_CURATED_BUNDLE_IDS then
      some (valueError "schema_version 1 CCGP curated bundle is not in the legacy admission register")
    else none
  else if m.schemaVersion ≠ 2 then
    some (valueError ("unsupported snapshot schema_version: " ++ toString m.schemaVersion))
  else if m.source ≠ .ccgp ∨ m.captureKind = .syntheticDemo then
    some (valueError "schema_version 2 is reserved for CCGP authorized bundles")
  else if m.batchId = none then some (valueError "schema_version 2 requires batch_id")
  else
    match m.dataContract with
    | none => some (valueError "schema_version 2 requires a data_contract")
    | some contract =>
      if contract.reviewStatus ≠ .approved then
        some (valueError "authorized data contract review_status must be approved")
      else if m.captureKind ≠ .rawResponse then none
      else if m.files.get "response.json" = none then
        some (valueError "schema_version 2 raw_response requires response.json")
      else if m.sourceUrls.any hasQueryOrFragment then
        some (valueError "raw_response source URLs must not contain query or fragment data")
      else
        match m.acquisitionMetadata with
        | none => some (valueError "schema_version 2 raw_response requires acquisition_metadata")
        | some metadata =>
          if some metadata.responseSha256 ≠ m.files.get "response.json" then
            some (valueError "raw_response acquisition metadata hash mismatched")
          else none

/-- mirrors domain/snapshots.py:156-276 -/
def ManifestInput.validate (i : ManifestInput) : Checked FieldError SnapshotManifest :=
  ((SnapshotManifest.mk <$>
    field "schema_version" (i.schemaVersion.ensure (tooSmall lib 1)) <*>
    field "bundle_id" (i.bundleId.ensure (tooShort lib 1)) <*>
    field "source" i.source <*>
    field "capture_kind" i.captureKind <*>
    field "source_urls" ((((i.sourceUrls.andThen (rawUrls lib)).andThen (indexed lib.url)).ensure
      (tooFew lib 1)).ensure fun urls => urls.findSome? httpsFault) <*>
    field "retrieved_at" (i.retrievedAt.andThen requireAware) <*>
    field "retrieval_outcome" (i.retrievalOutcome.ensure (tooShort lib 1)) <*>
    field "parser_version" (i.parserVersion.ensure (tooShort lib 1)) <*>
    field "files" ((i.files.ensure fun d => tooFew lib 1 d.entries).ensure (filesFault lib)) <*>
    field "batch_id" (((i.batchId.ensure (onSome (tooShort lib 1))).ensure (onSome (tooLong lib 128))).ensure
      (onSome batchIdFault)) <*>
    field "data_contract" i.dataContract <*>
    field "acquisition_metadata" i.acquisitionMetadata).ensure (provenanceFault lib)).ensure authorizedContractFault

def urlEntry : Json Json.Number → Checked FieldError (Option String)
  | .str s => some <$> lib.str (.str s)
  | _ => .ok none

/-- The collection of URLs as `json.loads` has it. -/
def urlCollection : Json Json.Number → Checked FieldError (List (Option String))
  | .arr items => Checked.each (urlEntry lib) items
  | _ => .wrong (valueError "source_urls must be a supported raw string collection") []

def ManifestInput.ofJson (raw : Json Json.Number) : ManifestInput where
  schemaVersion := defaulted raw "schema_version" 1 lib.int
  bundleId := required lib raw "bundle_id" lib.str
  source := required lib raw "source" (oneOf lib "enum" [.ccgp, .ggzy, .syntheticDemo] SourceName.value)
  captureKind := required lib raw "capture_kind"
    (oneOf lib "enum" [.rawResponse, .curatedPublicExcerpt, .syntheticDemo] CaptureKind.value)
  sourceUrls := required lib raw "source_urls" (urlCollection lib)
  retrievedAt := required lib raw "retrieved_at" lib.datetime
  retrievalOutcome := required lib raw "retrieval_outcome" lib.str
  parserVersion := required lib raw "parser_version" lib.str
  files := required lib raw "files" (dictOf lib)
  batchId := defaulted raw "batch_id" none (nullable lib.str)
  dataContract := defaulted raw "data_contract" none (nullable (SourceContract.ofJson lib))
  acquisitionMetadata := defaulted raw "acquisition_metadata" none (nullable (AcquisitionMetadata.ofJson lib))

/-- `SnapshotManifest.model_validate` -/
def SnapshotManifest.ofJson (raw : Json Json.Number) : Checked FieldError SnapshotManifest :=
  (ManifestInput.ofJson lib raw).validate lib

/-! ## JSON forms -/

open Json (Data)

/-- A value or `None`. -/
def optional (form : α → Data) : Option α → Data
  | none => .none
  | some a => form a

def dictData (d : Dict String String) : Data := .dict (d.entries.map fun e => (e.1, .str e.2))

def timeData (t : Datetime) : Data := .str (lib.timeText t)

def SourceContract.members (c : SourceContract) : List (String × Data) :=
  [("contract_version", .str c.contractVersion), ("authorization_ref", .str c.authorizationRef),
    ("data_owner", .str c.dataOwner), ("regions", .list (c.regions.map .str)),
    ("categories", .list (c.categories.map .str)), ("review_status", .str c.reviewStatus.value),
    ("reviewed_at", optional (timeData lib) c.reviewedAt), ("update_sla", .str c.updateSla.value),
    ("retention_days", .int c.retentionDays)]

/-- `data_contract.model_dump(mode="json")` -/
def SourceContract.dump (c : SourceContract) : Data := .dict (c.members lib)

def AcquisitionMetadata.members (m : AcquisitionMetadata) : List (String × Data) :=
  [("response_sha256", .str m.responseSha256), ("status_code", .int m.statusCode),
    ("cursor_before", optional .str m.cursorBefore), ("cursor_after", optional .str m.cursorAfter),
    ("request_count", .int m.requestCount), ("record_count", .int m.recordCount),
    ("response_items_field", .str m.responseItemsField), ("notice_field_map", dictData m.noticeFieldMap),
    ("extra", dictData m.extra)]

/-- `acquisition_metadata.model_dump(mode="json")` -/
def AcquisitionMetadata.dump (m : AcquisitionMetadata) : Data := .dict m.members

def SnapshotManifest.members (m : SnapshotManifest) : List (String × Data) :=
  [("schema_version", .int m.schemaVersion), ("bundle_id", .str m.bundleId), ("source", .str m.source.value),
    ("capture_kind", .str m.captureKind.value), ("source_urls", .list (m.sourceUrls.map fun u => .str u.text)),
    ("retrieved_at", timeData lib m.retrievedAt), ("retrieval_outcome", .str m.retrievalOutcome),
    ("parser_version", .str m.parserVersion), ("files", dictData m.files), ("batch_id", optional .str m.batchId),
    ("data_contract", optional (SourceContract.dump lib) m.dataContract),
    ("acquisition_metadata", optional AcquisitionMetadata.dump m.acquisitionMetadata)]

/-- `manifest.model_dump(mode="json")` -/
def SnapshotManifest.dump (m : SnapshotManifest) : Data := .dict (m.members lib)

end BidScope.L9.Authorized
