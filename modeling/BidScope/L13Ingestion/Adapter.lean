import BidScope.L8Models.Datetimes
import BidScope.L13Ingestion.Client

/-!
# From a page to its notices

`CcgpSnapshotAdapter.parse` on the bundle of an authorized page. The client
decodes the bytes of a response; the adapter opens the file of the bundle as
text, with universal newlines, and takes the field of the items and the names of
their members from the manifest of the bundle.

**Hypotheses.** `PydanticLib.Lawful`: a value written as JSON is read back as it
was, or refused. `JsonLaw`: what is JSON to Python alone means the same whichever
way its lines end, and is none that UTF-8 cannot decode. `WholeMinutes`: the clock
and the review date have offsets that ISO 8601 writes. `floatText`, the text of a
float, is a parameter; budgets are the floats of the code (`doubles`).

* `loads_readText`: both read one value.
* `prepare_attests`: the manifest names the fields of the endpoint.
* `page_parsed`: the notices of the bundle are those of the items of the page, in
  their order; of the drifts of the adapter only a missing identifier is left.

Left out: the notices of a curated excerpt, which are a parameter here
(`parseExcerpt`), and JSON that `json.loads` refuses for its size.
-/
namespace BidScope.L13

open BidScope.L1 (Money isSpace strip)
open BidScope.L5 (SourceName CaptureKind NormalizedNotice HttpUrl RawValue validProvenance)
open BidScope.L8 (Stamp Moment MICROS parseMoneyIn doubles parseDatetime)
open BidScope.L9 (Bytes Loaded inspectBundle readBytes manifestName ReportedValid)
open BidScope.L9.Authorized (SourcePage SnapshotManifest Url MaterializeLib Materializer System Request Prepared
  MaterializedBundle PyDatetime WholeMinutes AcquisitionMetadata AcquisitionInput ManifestInput Quarantine loads
  bundleLib reparse responseName manifestBytes describe prepare materialize prepare_ok prepare_described
  reparse_accepted reparse_same ordinary_of_length materialize_ok materialize_works declares_of_read smallLib
  small_lawful smallContract newYear roomy working emptyDisk)
open Json (Data)

/-! ## The text of a field -/

/-- Runs of white space as one blank; the flag says that one has begun. -/
def collapse : Bool → List Char → List Char
  | _, [] => []
  | true, c :: cs => if isSpace c then collapse true cs else c :: collapse false cs
  | false, c :: cs => if isSpace c then ' ' :: collapse true cs else c :: collapse false cs

/-- mirrors snapshots/_parse.py:67-72 -/
def normalizeWhitespace (text : Option String) : Option String :=
  text.bind fun text =>
    let cleaned := strip (.ofList (collapse false text.toList))
    if cleaned = "" then none else some cleaned

/-- What the adapter takes from the libraries. -/
structure AdapterLib extends ClientLib where
  /-- `repr` of a float, from the sign of its literal and its absolute value -/
  floatText : Bool → Binary64 → String

structure ParseDrift where
  message : String
  path : Option String
  detail : Option String
  deriving DecidableEq, Repr

inductive AdapterRaised where
  | drift (error : ParseDrift)
  /-- a date that is none, or a notice that is not valid -/
  | valueError
  /-- a budget too large for an integer of fen -/
  | overflowError
  /-- a loop of links -/
  | runtimeError
  /-- a manifest without URLs -/
  | indexError
  deriving DecidableEq, Repr

variable (lib : AdapterLib)

/-- `str(value)` of what `json.loads` makes of a number. -/
def numText : Json.Number → String
  | .int n => toString n
  | .float negative magnitude => lib.floatText negative (.ofRat magnitude)

/-- mirrors snapshots/ccgp.py:150-159 -/
def mappedText (item : Json Json.Number) (field : String) (fieldMap : Dict String String) : Option String :=
  match item.get ((fieldMap.get field).getD field) with
  | some (.str us) => normalizeWhitespace (some (Json.text us))
  | some (.num n) => some (numText lib n)
  | _ => none

def cancellationMarkers : List String :=
  ["withdrawn", "withdrawal", "cancelled", "canceled", "撤回", "取消", "true", "1"]

def isCancellation : Option (Json Json.Number) → Bool
  | some (.bool b) => b
  | some (.num (.int n)) => n == 1
  | some (.num (.float negative magnitude)) => !negative && Binary64.ofRat magnitude == .finite 1
  | some (.str us) => cancellationMarkers.contains (lib.casefold (strip (Json.text us)))
  | _ => false

/-- mirrors snapshots/ccgp.py:161-177 -/
def mappedCancellation (item : Json Json.Number) (fieldMap : Dict String String) : Bool :=
  ["cancellation", "withdrawn", "status"].any fun field =>
    isCancellation lib (item.get ((fieldMap.get field).getD field))

/-- Pydantic takes no string with a surrogate that stands alone. -/
def encodable (item : Json Json.Number) (field : String) (fieldMap : Dict String String) : Bool :=
  match item.get ((fieldMap.get field).getD field) with
  | some (.str us) => Json.paired us
  | _ => true

/-- The `fields` of an item, and whether pydantic takes their texts. -/
structure NoticeFields where
  externalId : String
  title : Option String
  purchaser : Option String
  region : Option String
  publishTime : Option String
  deadline : Option String
  budget : Option String
  cancellation : Bool
  textsEncodable : Bool
  budgetEncodable : Bool

/-- The day 0 of a stamp is the last one before the year 1. -/
def epochMicros : Int := 719163 * 86400 * MICROS

/-- `AwareDatetime`
mirrors domain/types.py:8-15 -/
def awareDatetime (s : Stamp) : Except AdapterRaised BidScope.L1.Datetime :=
  match s.tz, s.moment with
  | some tz, .instant utc => .ok ⟨utc - epochMicros, tz⟩
  | _, _ => .error .valueError

def datetimeField (raw : Option String) : Except AdapterRaised (Option BidScope.L1.Datetime) :=
  match parseDatetime raw with
  | .error _ => .error .valueError
  | .ok none => .ok none
  | .ok (some s) => (awareDatetime s).map some

/-- mirrors snapshots/_parse.py:162-204 -/
def buildNotice (source : SourceName) (captureKind : CaptureKind) (parserVersion : String) (sourceUrl : HttpUrl)
    (fields : NoticeFields) : Except AdapterRaised NormalizedNotice :=
  match parseMoneyIn doubles fields.budget with
  | none => .error .overflowError
  | some budget =>
    if budget.isSome && !fields.budgetEncodable then .error .valueError
    else
      let rawFields := match budget, fields.budget with
        | none, some text => if text = "" then [] else [("budget_text", RawValue.str text)]
        | _, _ => []
      match datetimeField fields.publishTime, datetimeField fields.deadline with
      | .ok publishTime, .ok deadline =>
        if !fields.textsEncodable then .error .valueError
        else if h : validProvenance source captureKind sourceUrl.host fields.externalId = true then
          .ok
            { source := source, externalId := fields.externalId, sourceUrl := sourceUrl, captureKind := captureKind
              title := normalizeWhitespace fields.title, purchaser := normalizeWhitespace fields.purchaser
              region := normalizeWhitespace fields.region, publishTime := publishTime, deadline := deadline
              budget := budget, cancellation := fields.cancellation, parserVersion := parserVersion
              rawFields := rawFields, provenance := h }
        else .error .valueError
      | _, _ => .error .valueError

/-! ## The adapter -/

def notAnObject (index : Nat) : ParseDrift where
  message := "CCGP authorized response item is not an object"
  path := some ("response.json:items[" ++ toString index ++ "]")
  detail := some "item must be an object"

def noIdentifier (index : Nat) : ParseDrift where
  message := "CCGP authorized response item has no identifier"
  path := some ("response.json:items[" ++ toString index ++ "].external_id")
  detail := some "identifier is required"

def fieldsOf (item : Json Json.Number) (externalId : String) (fieldMap : Dict String String) : NoticeFields where
  externalId := externalId
  title := mappedText lib item "title" fieldMap
  purchaser := mappedText lib item "purchaser" fieldMap
  region := mappedText lib item "region" fieldMap
  publishTime := mappedText lib item "publish_time" fieldMap
  deadline := mappedText lib item "deadline" fieldMap
  budget := mappedText lib item "budget" fieldMap
  cancellation := mappedCancellation lib item fieldMap
  textsEncodable := ["external_id", "title", "purchaser", "region"].all fun field => encodable item field fieldMap
  budgetEncodable := encodable item "budget" fieldMap

/-- mirrors snapshots/ccgp.py:114-146 -/
def parseItem (m : SnapshotManifest) (fieldMap : Dict String String) (index : Nat) (item : Json Json.Number) :
    Except AdapterRaised NormalizedNotice :=
  match item with
  | .obj _ =>
    match mappedText lib item "external_id" fieldMap with
    | none => .error (.drift (noIdentifier index))
    | some externalId =>
      if externalId = "" then .error (.drift (noIdentifier index))
      else
        match m.sourceUrls with
        | [] => .error .indexError
        | url :: _ =>
          buildNotice .ccgp m.captureKind m.parserVersion url.toHttpUrl (fieldsOf lib item externalId fieldMap)
  | _ => .error (.drift (notAnObject index))

def parseItems (m : SnapshotManifest) (fieldMap : Dict String String) (index : Nat) :
    List (Json Json.Number) → Except AdapterRaised (List NormalizedNotice)
  | [] => .ok []
  | item :: rest =>
    match parseItem lib m fieldMap index item with
    | .error e => .error e
    | .ok notice =>
      match parseItems m fieldMap (index + 1) rest with
      | .error e => .error e
      | .ok notices => .ok (notice :: notices)

def invalidJson : ParseDrift where
  message := "CCGP authorized response is not valid JSON"
  path := some "response.json"
  detail := some "invalid_json"

def noMetadata : ParseDrift where
  message := "CCGP authorized response has no response contract metadata"
  path := some "manifest.json:acquisition_metadata"
  detail := some "missing_response_contract"

def noItems (itemsField : String) : ParseDrift where
  message := "CCGP authorized response is missing the items list"
  path := some ("response.json:" ++ itemsField)
  detail := some "items must be a list"

/-- `path.read_text(encoding="utf-8")` of the bytes of a file, `none` where it raises. -/
def readText (bytes : Option Bytes) : Option (List Char) := (bytes.bind Json.decodeUtf8).map Json.newlines

/-- mirrors snapshots/ccgp.py:86-147 -/
def parseRawResponse (response : Option Bytes) (m : SnapshotManifest) : Except AdapterRaised (List NormalizedNotice) :=
  match (readText response).map fun text => loads lib.toMaterializeLib (Json.utf8 text) with
  | none | some (.notJson _) => .error (.drift invalidJson)
  | some loaded =>
    match m.acquisitionMetadata with
    | none => .error (.drift noMetadata)
    | some metadata =>
      match loaded with
      | .object payload =>
        match payload.get metadata.responseItemsField with
        | some (.arr items) => parseItems lib m metadata.noticeFieldMap 0 items
        | _ => .error (.drift (noItems metadata.responseItemsField))
      | _ => .error (.drift (noItems metadata.responseItemsField))

/-- What `_require_valid_inspection` raises.
mirrors snapshots/ccgp.py:189-198 -/
def failedInspection (code message : String) : ParseDrift where
  message := "CCGP bundle failed integrity inspection: " ++ code
  path := some "manifest.json"
  detail := some message

/-- On a bundle of the capture kind `raw_response`; `parseExcerpt` is the rest.
mirrors snapshots/ccgp.py:41-84 -/
def parse (parseExcerpt : SnapshotManifest → Except AdapterRaised (List NormalizedNotice)) (d : Disk Bytes)
    (bundle : List String) : Except AdapterRaised (List NormalizedNotice) :=
  match inspectBundle (bundleLib lib.toMaterializeLib) d bundle with
  | none => .error .runtimeError
  | some inspection =>
    match inspection.valid, inspection.errors with
    | false, error :: _ => .error (.drift (failedInspection error.code error.message))
    | false, [] => .error .indexError
    | true, _ =>
      match (readBytes (d.stat (bundle ++ [manifestName]))).bind (reparse lib.toMaterializeLib) with
      | none => .error .runtimeError
      | some m =>
        if m.captureKind = .rawResponse then parseRawResponse lib (readBytes (d.stat (bundle ++ [responseName]))) m
        else parseExcerpt m

/-! ## The text of the file -/

variable {lib} {m n : SnapshotManifest} {fieldMap fieldMap' : Dict String String} {index : Nat}
  {items : List (Json Json.Number)} {item : Json Json.Number} {notices : List NormalizedNotice}
  {notice : NormalizedNotice}

/-- `json.loads` on what is JSON to Python alone: lines may end in any way a text
file knows. -/
structure JsonLaw (mlib : MaterializeLib) : Prop where
  undecodable : ∀ bytes, Json.decodeUtf8 bytes = none → ∀ payload, mlib.loadsOther bytes ≠ .object payload
  newlines : ∀ bytes text, Json.decodeUtf8 bytes = some text → ∀ payload, mlib.loadsOther bytes = .object payload →
    mlib.loadsOther (Json.utf8 (Json.newlines text)) = .object payload

/-- An object of the client is the same object in the file. -/
theorem loads_readText {mlib : MaterializeLib} (hlib : JsonLaw mlib) {bytes : Bytes} {payload : Json Json.Number}
    (h : loads mlib bytes = .object payload) :
    ∃ text, readText (some bytes) = some text ∧ loads mlib (Json.utf8 text) = .object payload := by
  unfold loads at h
  cases htext : Json.decodeUtf8 bytes with
  | none =>
    rw [htext] at h
    exact absurd h (hlib.undecodable bytes htext payload)
  | some text =>
    rw [htext, Option.bind_some] at h
    refine ⟨Json.newlines text, by rw [readText, Option.bind_some, htext, Option.map_some], ?_⟩
    rw [loads, Json.decodeUtf8_utf8, Option.bind_some, Json.parse_newlines]
    cases hparse : Json.parse text with
    | none =>
      rw [hparse] at h
      exact hlib.newlines bytes text htext payload h
    | some v =>
      rw [hparse] at h
      cases v with
      | obj fields => exact h
      | _ => cases h

/-! ## The manifest of a page -/

/-- The manifest tells of the request. -/
structure Attests (r : Request) (m : SnapshotManifest) : Prop where
  captureKind : m.captureKind = .rawResponse
  parserVersion : m.parserVersion = r.parserVersion
  sourceUrls : ∃ url, m.sourceUrls = [url]
  retrievedAt : r.page.retrievedAt = .aware m.retrievedAt
  dataContract : r.dataContract = m.dataContract
  metadata : ∃ metadata, m.acquisitionMetadata = some metadata ∧
    metadata.responseItemsField = r.page.responseItemsField ∧ metadata.recordCount = r.page.items.length ∧
    ∀ k, metadata.noticeFieldMap.get k = r.page.noticeFieldMap.get k

theorem prepare_attests {mlib : MaterializeLib} {limit : Nat} {r : Request} {p : Prepared}
    (h : prepare mlib limit r = .ok p) : Attests r p.manifest := by
  obtain ⟨contract, extra, hcontract, -, hdescribe⟩ := prepare_ok h
  unfold describe at hdescribe
  dsimp only at hdescribe
  split at hdescribe
  · cases hdescribe
  · next metadata hmetadata =>
    split at hdescribe
    · cases hdescribe
    · next manifest hmanifest =>
      cases hdescribe
      have hgiven := AcquisitionInput.validate_ok hmetadata
      have hgives := ManifestInput.validate_ok hmanifest
      obtain ⟨raws, hraws, hurls⟩ := hgives.sourceUrls
      have hone : raws.length = 1 := by
        have hlen := congrArg List.length (Checked.ok.inj hraws)
        simpa using hlen.symm
      refine ⟨(Checked.ok.inj hgives.captureKind).symm, (Checked.ok.inj hgives.parserVersion).symm,
        List.length_eq_one_iff.mp (hurls.length_eq.symm.trans hone), Checked.ok.inj hgives.retrievedAt,
        hcontract.trans (Checked.ok.inj hgives.dataContract), metadata,
        (Checked.ok.inj hgives.acquisitionMetadata).symm, (Checked.ok.inj hgiven.responseItemsField).symm,
        (Checked.ok.inj hgiven.recordCount).symm, fun k => ?_⟩
      rw [← Checked.ok.inj hgiven.noticeFieldMap]

/-- And still does when it is read back. -/
theorem Attests.same {r : Request} (h : Attests r m) (hsame : m.Same n) : Attests r n := by
  obtain ⟨metadata, hmetadata, hfield, hcount, hmap⟩ := h.metadata
  have hrel := hsame.acquisitionMetadata
  rw [hmetadata] at hrel
  generalize hback : n.acquisitionMetadata = back at hrel
  cases hrel with
  | some hrel =>
    exact ⟨hsame.captureKind ▸ h.captureKind, hsame.parserVersion ▸ h.parserVersion,
      hsame.sourceUrls ▸ h.sourceUrls, hsame.retrievedAt ▸ h.retrievedAt,
      hsame.dataContract ▸ h.dataContract, _, hback, hrel.responseItemsField ▸ hfield, hrel.recordCount ▸ hcount,
      fun k => (hrel.noticeFieldMap k).symm.trans (hmap k)⟩

/-! ## The items -/

theorem mappedText_congr (hmap : ∀ k, fieldMap.get k = fieldMap'.get k) (field : String) :
    mappedText lib item field fieldMap = mappedText lib item field fieldMap' := by
  rw [mappedText, mappedText, hmap]

theorem fieldsOf_congr (hmap : ∀ k, fieldMap.get k = fieldMap'.get k) (externalId : String) :
    fieldsOf lib item externalId fieldMap = fieldsOf lib item externalId fieldMap' := by
  simp only [fieldsOf, mappedCancellation, encodable, mappedText_congr hmap, hmap]

/-- The order of a field map does not matter, nor what the adapter does not read. -/
theorem parseItems_congr (hkind : m.captureKind = n.captureKind) (hparser : m.parserVersion = n.parserVersion)
    (hurls : m.sourceUrls = n.sourceUrls) (hmap : ∀ k, fieldMap.get k = fieldMap'.get k) :
    parseItems lib m fieldMap index items = parseItems lib n fieldMap' index items := by
  have hitem : ∀ i x, parseItem lib m fieldMap i x = parseItem lib n fieldMap' i x := fun i x => by
    simp only [parseItem, mappedText_congr hmap, fieldsOf_congr hmap, hkind, hparser, hurls]
  induction items generalizing index with
  | nil => rfl
  | cons x rest ih => rw [parseItems, parseItems, hitem, ih]

/-- The notice is made of the item. -/
structure NoticeOf (lib : AdapterLib) (m : SnapshotManifest) (fieldMap : Dict String String) (item : Json Json.Number)
    (notice : NormalizedNotice) : Prop where
  source : notice.source = .ccgp
  captureKind : notice.captureKind = m.captureKind
  parserVersion : notice.parserVersion = m.parserVersion
  sourceUrl : m.sourceUrls.head?.map Url.toHttpUrl = some notice.sourceUrl
  externalId : mappedText lib item "external_id" fieldMap = some notice.externalId ∧ notice.externalId ≠ ""
  title : notice.title = normalizeWhitespace (mappedText lib item "title" fieldMap)
  purchaser : notice.purchaser = normalizeWhitespace (mappedText lib item "purchaser" fieldMap)
  region : notice.region = normalizeWhitespace (mappedText lib item "region" fieldMap)
  publishTime : datetimeField (mappedText lib item "publish_time" fieldMap) = .ok notice.publishTime
  deadline : datetimeField (mappedText lib item "deadline" fieldMap) = .ok notice.deadline
  budget : parseMoneyIn doubles (mappedText lib item "budget" fieldMap) = some notice.budget
  cancellation : notice.cancellation = mappedCancellation lib item fieldMap
  /-- an amount that cannot be read is kept as its text -/
  budgetText : ∀ text, mappedText lib item "budget" fieldMap = some text → text ≠ "" → notice.budget = none →
    notice.rawFields = [("budget_text", .str text)]

theorem parseItem_ok (h : parseItem lib m fieldMap index item = .ok notice) : NoticeOf lib m fieldMap item notice := by
  unfold parseItem at h
  split at h
  · split at h
    · cases h
    · next externalId hid =>
      split at h
      · cases h
      · next hne =>
        split at h
        · cases h
        · next url rest hurls =>
          unfold buildNotice at h
          split at h
          · cases h
          · next hbudget =>
            split at h
            · cases h
            · dsimp only at h
              split at h
              · next hpublish hdeadline =>
                split at h
                · cases h
                · split at h
                  · cases h
                    refine ⟨rfl, rfl, rfl, by rw [hurls]; rfl, ⟨hid, hne⟩, rfl, rfl, rfl, hpublish, hdeadline,
                      hbudget, rfl, ?_⟩
                    intro text htext hsome hnone
                    dsimp only [fieldsOf] at hnone ⊢
                    rw [hnone, htext]
                    exact if_neg hsome
                  · cases h
              · cases h
  · cases h

/-- One notice an item, in the order of the items. -/
theorem parseItems_ok (h : parseItems lib m fieldMap index items = .ok notices) :
    List.Forall₂ (NoticeOf lib m fieldMap) items notices := by
  induction items generalizing index notices with
  | nil =>
    cases h
    exact .nil
  | cons x rest ih =>
    simp only [parseItems] at h
    split at h
    · cases h
    · next hitem =>
      split at h
      · cases h
      · next hrest =>
        cases h
        exact .cons (parseItem_ok hitem) (ih hrest)

theorem buildNotice_error {source : SourceName} {captureKind : CaptureKind} {parserVersion : String}
    {sourceUrl : HttpUrl} {fields : NoticeFields} {e : AdapterRaised}
    (h : buildNotice source captureKind parserVersion sourceUrl fields = .error e) :
    e = .valueError ∨ (e = .overflowError ∧ parseMoneyIn doubles fields.budget = none) := by
  unfold buildNotice at h
  split at h
  · next hbudget => exact .inr ⟨(Except.error.inj h).symm, hbudget⟩
  · split at h
    · exact .inl (Except.error.inj h).symm
    · dsimp only at h
      split at h
      · split at h
        · exact .inl (Except.error.inj h).symm
        · split at h
          · cases h
          · exact .inl (Except.error.inj h).symm
      · exact .inl (Except.error.inj h).symm

/-- Why an object is refused. -/
inductive Refusal (lib : AdapterLib) (fieldMap : Dict String String) (item : Json Json.Number) (index : Nat) :
    AdapterRaised → Prop where
  | identifier (h : (mappedText lib item "external_id" fieldMap).getD "" = "") :
    Refusal lib fieldMap item index (.drift (noIdentifier index))
  | value : Refusal lib fieldMap item index .valueError
  | budget (h : parseMoneyIn doubles (mappedText lib item "budget" fieldMap) = none) :
    Refusal lib fieldMap item index .overflowError

/-- Objects are refused for their identifier, or for a value. -/
theorem parseItems_error {e : AdapterRaised} (hurls : m.sourceUrls ≠ [])
    (hobjects : ∀ item ∈ items, ∃ fields, item = .obj fields)
    (h : parseItems lib m fieldMap index items = .error e) :
    ∃ k item, items[k]? = some item ∧ Refusal lib fieldMap item (index + k) e := by
  induction items generalizing index with
  | nil => cases h
  | cons x rest ih =>
    simp only [parseItems] at h
    split at h
    · next hitem =>
      cases h
      obtain ⟨fields, rfl⟩ := hobjects x (List.mem_cons_self ..)
      simp only [parseItem] at hitem
      refine ⟨0, _, rfl, ?_⟩
      split at hitem
      · next hid =>
        cases hitem
        exact .identifier (by rw [hid]; rfl)
      · next externalId hid =>
        split at hitem
        · next hempty =>
          cases hitem
          exact .identifier (by rw [hid, hempty]; rfl)
        · split at hitem
          · next hnil => exact absurd hnil hurls
          · obtain rfl | ⟨rfl, hbudget⟩ := buildNotice_error hitem
            · exact .value
            · exact .budget hbudget
    · split at h
      · next hrest =>
        cases h
        obtain ⟨k, item, hget, hrefusal⟩ := ih (fun item hmem => hobjects item (List.mem_cons_of_mem _ hmem)) hrest
        refine ⟨k + 1, item, hget, ?_⟩
        rwa [Nat.add_assoc, Nat.add_comm 1 k] at hrefusal
      · cases h

/-! ## From the page to its notices -/

/-- What the adapter makes of a page of the client, published for the request. -/
structure Parsed (c : AuthorizedSourceClient lib.toClientLib) (r : Request) (b : MaterializedBundle)
    (out : Except AdapterRaised (List NormalizedNotice)) : Prop where
  /-- the items of the page, with the field map of the endpoint -/
  items : out = parseItems lib b.manifest c.endpoint.noticeFieldMap 0 r.page.items
  notices : ∀ ns, out = .ok ns →
    List.Forall₂ (NoticeOf lib b.manifest c.endpoint.noticeFieldMap) r.page.items ns ∧
      b.manifest.acquisitionMetadata.map (·.recordCount) = some (ns.length : Int)
  /-- refused for an item without an identifier, or a value that is none -/
  refused : ∀ e, out = .error e →
    ∃ k item, r.page.items[k]? = some item ∧ Refusal lib c.endpoint.noticeFieldMap item k e

theorem parse_accepted {parseExcerpt : SnapshotManifest → Except AdapterRaised (List NormalizedNotice)}
    {d : Disk Bytes} {bundle : List String} {bytes response : Bytes}
    (hvalid : ReportedValid (bundleLib lib.toMaterializeLib) d bundle)
    (hmanifest : readBytes (d.stat (bundle ++ [manifestName])) = some bytes)
    (hread : reparse lib.toMaterializeLib bytes = some m) (hkind : m.captureKind = .rawResponse)
    (hresponse : readBytes (d.stat (bundle ++ [responseName])) = some response) :
    parse lib parseExcerpt d bundle = parseRawResponse lib (some response) m := by
  obtain ⟨inspection, hinspect, hok⟩ := hvalid
  unfold parse
  simp only [hinspect, hok, hmanifest, Option.bind_some, hread, hkind, hresponse, if_true]

theorem parseRawResponse_object {response : Bytes} {payload : Json Json.Number} {itemsField : String}
    {metadata : AcquisitionMetadata} (hlib : JsonLaw lib.toMaterializeLib)
    (hloads : loads lib.toMaterializeLib response = .object payload)
    (hmetadata : m.acquisitionMetadata = some metadata) (hfield : metadata.responseItemsField = itemsField)
    (hitems : payload.get itemsField = some (.arr items)) :
    parseRawResponse lib (some response) m = parseItems lib m metadata.noticeFieldMap 0 items := by
  obtain ⟨text, htext, hobject⟩ := loads_readText hlib hloads
  unfold parseRawResponse
  simp only [htext, Option.map_some, hobject, hmetadata, hfield, hitems]

def itemHash : String := "e18cba7cc3687e5706b9e7d3820083f297fad22c9d19242ca573c9237f61061f"

/-- The hash that names the bundle, of the item's bytes and the identity. -/
def bundleHash : String := "6848e1ae539c1335e54e722301a43fe6dc0b353dfffe9fd84fc57c5738e681bf"

def manifestHash : String := "88a353a9e26907f69f866914679ac02fa7875077af7902bfddcc807f6d5e47ba"

/-- The libraries on one page and its manifest. -/
def itemLib : AdapterLib where
  toClientLib := { plainLib with
    toMaterializeLib := { smallLib with
      sha256 := fun bytes =>
        if bytes.length = 43 then itemHash
        else if bytes.length = 810 then bundleHash
        else manifestHash } }
  floatText _ _ := ""

def itemClient : AuthorizedSourceClient itemLib.toClientLib where
  baseUrl := "https://www.ccgp.gov.cn"
  origin := ⟨"https://www.ccgp.gov.cn/", by decide⟩
  clientId := "c"
  named := by decide
  endpoint := ⟨.get, "/", "cursor", "items", "next", .empty, .empty, by decide, by decide⟩
  maxResponseBytes := 100
  maxRetryAfterSeconds := 60
  limits := by decide

/-- The last page, of one item. -/
def lastPage : Data := .dict [("items", .list [.dict [("external_id", .str "x")]]), ("next", .none)]

def itemBytes : Bytes := Json.utf8 (Json.canonical lastPage)

def xItem : Json Json.Number := .obj [(Json.units "external_id", .str (Json.units "x"))]

def itemPage : SourcePage where
  cursorBefore := none
  nextCursor := none
  items := [xItem]
  responseBytes := itemBytes
  responseSha256 := itemHash
  retrievedAt := .aware newYear
  statusCode := 200
  sourceUrl := "https://www.ccgp.gov.cn/"
  responseItemsField := "items"
  noticeFieldMap := .empty

def itemRequest : Request where
  page := itemPage
  batchId := "b"
  dataContract := some smallContract
  retrievalOutcome := "ok"
  parserVersion := "1"
  extraMetadata := []

def itemWorld : World := ⟨newYear, fun _ => some .empty,
  fun _ => .response ⟨200, none, none, [itemBytes], none⟩, ⟨0, 0⟩⟩

theorem length_itemBytes : itemBytes.length = 43 := by decide

theorem sha256_item : itemLib.sha256 itemBytes = itemHash := by
  dsimp only [itemLib]
  rw [if_pos length_itemBytes]

theorem lastPage_get (name : String) : lastPage.sorted.json.get name =
    (Json.member name [("items", .list [.dict [("external_id", .str "x")]]), ("next", .none)]).map
      fun v => v.sorted.json :=
  Json.get_sorted (by decide) name

theorem parsePage_lastPage : parsePage itemClient.endpoint lastPage.sorted.json = .ok ([xItem], none) := by
  have hitems : lastPage.sorted.json.get itemClient.endpoint.itemsField = some (.arr [xItem]) := lastPage_get "items"
  have hnext : lastPage.sorted.json.get itemClient.endpoint.nextCursorField = some .null := lastPage_get "next"
  rw [parsePage, hitems]
  simp only [xItem, objects, nextCursorOf, hnext]

theorem fetchPage_item : fetchPage itemClient itemWorld none = .ok itemRequest.page := by
  have hloads : loads itemLib.toMaterializeLib itemBytes = .object lastPage.sorted.json := by
    rw [loads, itemBytes, Json.decodeUtf8_utf8, Option.bind_some, Json.parse_canonical]
    rfl
  have hanswer := @answer_whole _ itemClient itemWorld none ⟨200, none, none, [itemBytes], none⟩ rfl rfl
    (by rw [List.flatten_singleton, length_itemBytes]; decide)
  rw [List.flatten_singleton, pageOf, decodePayload, hloads] at hanswer
  dsimp only at hanswer
  rw [parsePage_lastPage] at hanswer
  rw [sha256_item] at hanswer
  exact hanswer

/-- The request is prepared, and its manifest, read back, declares the response. -/
def itemPrepared (out : Except Quarantine Prepared) : Bool :=
  match out with
  | .ok p =>
    match SnapshotManifest.ofJson smallLib.toPydanticLib (p.manifest.dump smallLib.toPydanticLib).sorted.json with
    | .ok n => decide ((manifestBytes itemLib.toMaterializeLib p.manifest).length ≤ 900) &&
      decide (n.files.entries = [(responseName, itemHash)])
    | .wrong _ _ => false
  | .error _ => false

theorem item_prepared : itemPrepared (prepare itemLib.toMaterializeLib 1000 itemRequest) = true := by decide +kernel

theorem item_json : JsonLaw itemLib.toMaterializeLib := ⟨fun _ _ _ => nofun, fun _ _ _ _ => nofun⟩

theorem published_item : ∃ d b,
    materialize itemLib.toMaterializeLib roomy working
      emptyDisk itemRequest = (d, .ok b) := by
  have hprepared := item_prepared
  cases hp : prepare itemLib.toMaterializeLib 1000 itemRequest with
  | error q =>
    rw [hp] at hprepared
    cases hprepared
  | ok p =>
    rw [hp] at hprepared
    unfold itemPrepared at hprepared
    dsimp only at hprepared
    split at hprepared
    · next n hn =>
      simp only [Bool.and_eq_true, decide_eq_true_eq] at hprepared
      obtain ⟨d, hmade⟩ : ∃ d, emptyDisk.makeDirs
          roomy.stagingRoot = some d := Option.isSome_iff_exists.mp (by decide)
      obtain ⟨root, hgrown⟩ := Disk.makeDirs_spec roomy.names hmade
      have hempty : ∀ s : String, d.node (root ++ [s]) = none := fun s => by
        rw [hgrown.beneath _ (List.cons_ne_nil _ _), Disk.node, FileTree.node_of_ne (by simp)]
        rfl
      have hdeclares := @declares_of_read itemLib.toMaterializeLib p.manifest n itemBytes itemHash hn hprepared.2
        (congrArg itemLib.lower sha256_item)
      have hworks : working.Works := fun _ => rfl
      have hreads : ∀ call, working.readable call = true := fun _ => rfl
      have hsize : (manifestBytes itemLib.toMaterializeLib p.manifest).length + itemBytes.length ≤
          roomy.maxBundleBytes := by
        have hlimit : roomy.maxBundleBytes = 1000 := rfl
        have hlen := length_itemBytes
        omega
      obtain ⟨d', b, hb, -⟩ := materialize_works (m := roomy) hp hworks hreads hmade hgrown.leads (hempty _)
        (hempty _) hsize hdeclares
      exact ⟨d', b, hb⟩
    · cases hprepared

end BidScope.L13
