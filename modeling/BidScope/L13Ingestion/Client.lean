import BidScope.Core.Reading
import BidScope.L1Domain.Deduplication
import BidScope.L9Storage.Materialized
import BidScope.L13Ingestion.CursorSafety

/-!
# The authorized client

`AuthorizedSourceClient.fetch_page` signs one request, sends it, reads the body
up to a limit and parses a page; `_fetch_page_with_retry` asks again after a
transient failure. The signer, the network and the clock are the world around a
request: any answer, any cut of the body into chunks, an exception at any point.

**Libraries (`ClientLib`).** Functions of what they are given: `int` and `strip`
of a text, the parts of a URL, an HTTP date, a query, SHA-256, and `json.loads` on
what is JSON to Python alone (`loadsOther`). Nothing is assumed of them. The
chunks are those of `aiter_bytes`, behind the content encoding.

**Hypotheses.** `World.Rechunked`: two worlds give the same answer, both whole.
`Answered`: a page that a call of the service takes is one the client returned.

* `readBounded_eq`, `fetchPage_rechunked`: a page depends on the body and not on
  how it is cut.
* `fetchPage_ok`: a page that is returned is what its bytes say, within the
  limits, and names a cursor that can be asked for (`WellFormed`).
* `fetchPageWithRetry_run`: the attempts are the steps of a call of the service,
  and lead to the page or to the failure of the last one; there are three at most.
* `cursor_requestable`: over such pages every cursor that is stored or asked for
  is one the client takes.

Left out: timeouts as times, the redirects that are never followed, and JSON that
`json.loads` refuses for its size (an integer of more than 4300 digits, nesting
deeper than the recursion limit).
-/
namespace BidScope.L13

open BidScope.L1 (Datetime rstripSlash)
open BidScope.L5 (officialHosts)
open BidScope.L9 (Bytes Loaded)
open BidScope.L9.Authorized (SourcePage MaterializeLib loads)
open Json (Data)

/-! ## Errors -/

inductive SourceClientError where
  | authorization (statusCode : Nat)
  | rateLimited (retryAfterSeconds : Int)
  | responseTooLarge (maximumBytes : Nat)
  | timeout
  | signing
  | payload (detail : String)
  | transport
  | http (statusCode : Nat)
  deriving DecidableEq, Repr

namespace SourceClientError

/-- mirrors ingestion/ccgp.py:35-128 -/
def code : SourceClientError → String
  | authorization _ => "authorization_rejected"
  | rateLimited _ => "rate_limited"
  | responseTooLarge _ => "response_too_large"
  | timeout => "timeout"
  | signing => "signature_failed"
  | payload _ => "invalid_response"
  | transport => "transport_error"
  | http _ => "source_http_error"

def retryable : SourceClientError → Bool
  | authorization _ | responseTooLarge _ | signing | payload _ => false
  | rateLimited _ | timeout | transport => true
  | http statusCode => decide (500 ≤ statusCode)

def retryAfterSeconds : SourceClientError → Option Int
  | rateLimited seconds => some seconds
  | _ => none

def statusCode : SourceClientError → Option Nat
  | authorization code | http code => some code
  | rateLimited _ => some 429
  | _ => none

def message : SourceClientError → String
  | authorization _ => "authorized source rejected the configured credentials"
  | rateLimited _ => "authorized source rate limited the request"
  | responseTooLarge n =>
    "authorized source response exceeds the configured maximum of " ++ toString n ++ " bytes"
  | timeout => "authorized source request timed out"
  | signing => "authorized source request signing failed"
  | payload detail => "authorized source response is invalid: " ++ detail
  | transport => "authorized source transport failed"
  | http code => "authorized source returned HTTP " ++ toString code

end SourceClientError

/-- What leaves `fetch_page`. -/
inductive ClientRaised where
  | client (error : SourceClientError)
  /-- anything that is no `SourceClientError` -/
  | other
  deriving DecidableEq, Repr

/-- The handler of `run_once` that takes it.
mirrors ingestion/service.py:173-250 -/
def ClientRaised.failure : ClientRaised → Failure
  | .client (.rateLimited _) => .rateLimited
  | .client (.payload _) => .payload
  | .client e => .client e.retryable
  | .other => .other

/-! ## The client -/

/-- What the client takes from the libraries. -/
structure ClientLib extends MaterializeLib where
  /-- `urlsplit(url).path` -/
  urlPath : String → String
  /-- `int(text)`, `none` where it raises `ValueError` -/
  intOf : String → Option Int
  /-- `parsedate_to_datetime(text)` in microseconds of UTC, which a time without a
  zone is taken for; `none` where it raises -/
  httpDate : String → Option Int
  /-- `str(httpx.QueryParams(fields))` -/
  query : List (String × Data) → String

inductive Method | get | post
deriving DecidableEq

variable (lib : ClientLib)

/-- mirrors ingestion/ports.py:11-35 -/
structure AuthorizedEndpoint where
  method : Method
  path : String
  cursorField : String
  itemsField : String
  nextCursorField : String
  requestFields : Dict String Data
  noticeFieldMap : Dict String String
  absolute : path.toList.head? = some '/' ∧ '?' ∉ path.toList ∧ '#' ∉ path.toList
  names : ∀ name ∈ [cursorField, itemsField, nextCursorField], lib.strip name ≠ ""

/-- `none` is a `ValueError`.
mirrors ingestion/ccgp.py:263-279 -/
def validateBaseUrl (baseUrl : String) : Option String :=
  match lib.urlsplit baseUrl with
  | none => none
  | some parsed =>
    if parsed.scheme == "https" &&
        (match parsed.hostname with
          | none => false
          | some host => ((officialHosts .ccgp).getD []).contains (lib.casefold host)) &&
        [none, some 443].contains parsed.port && parsed.username.isNone && parsed.password.isNone &&
        ["", "/"].contains (lib.urlPath baseUrl) && parsed.query == "" && parsed.fragment == "" then
      some (rstripSlash baseUrl)
    else none

def MAX_RETRY_AFTER_SECONDS : Nat := 86400
def DEFAULT_RETRY_AFTER_SECONDS : Int := 60
def MAX_CURSOR_LENGTH : Nat := 512

/-- mirrors ingestion/ccgp.py:131-162 -/
structure AuthorizedSourceClient where
  baseUrl : String
  origin : ∃ url, validateBaseUrl lib url = some baseUrl
  clientId : String
  named : lib.strip clientId ≠ ""
  endpoint : AuthorizedEndpoint lib
  maxResponseBytes : Nat
  maxRetryAfterSeconds : Nat
  limits : 0 < maxResponseBytes ∧ 0 < maxRetryAfterSeconds ∧ maxRetryAfterSeconds ≤ MAX_RETRY_AFTER_SECONDS

/-! ## The world around a request -/

/-- mirrors ingestion/ports.py:38-46 -/
structure SignableRequest where
  method : Method
  url : String
  body : Bytes
  timestamp : Datetime
  clientId : String

structure HttpRequest where
  method : Method
  url : String
  headers : Dict String String
  body : Bytes

/-- An exception of httpx. -/
inductive Fault | timeout | transport | other
deriving DecidableEq

structure Response where
  statusCode : Nat
  contentLength : Option String
  retryAfter : Option String
  chunks : List Bytes
  /-- what the stream raises behind the chunks -/
  ends : Option Fault

inductive Reply where
  | raises (fault : Fault)
  | response (r : Response)

structure World where
  timestamp : Datetime
  /-- the headers, `none` where the signer raises -/
  sign : SignableRequest → Option (Dict String String)
  send : HttpRequest → Reply
  /-- the clock when `Retry-After` is a date -/
  retryClock : Datetime

/-- mirrors ingestion/ccgp.py:218-221 -/
def Fault.raised : Fault → ClientRaised
  | .timeout => .client .timeout
  | .transport => .client .transport
  | .other => .other

/-! ## One page -/

variable {lib} (c : AuthorizedSourceClient lib)

def cursorTooLong : SourceClientError := .payload "source cursor exceeds the maximum length"

/-- mirrors ingestion/ccgp.py:246-261 -/
def buildRequest (cursor : Option String) : Except SourceClientError (String × Bytes) :=
  if cursor.any fun cursor => decide (MAX_CURSOR_LENGTH < cursor.length) then .error cursorTooLong
  else
    let fields := match cursor with
      | none => c.endpoint.requestFields
      | some cursor => c.endpoint.requestFields.set c.endpoint.cursorField (.str cursor)
    let url := c.baseUrl ++ c.endpoint.path
    match c.endpoint.method with
    | .get => .ok (if fields.entries.isEmpty then url else url ++ "?" ++ lib.query fields.entries, [])
    | .post => .ok (url, Json.utf8 (Json.canonical (.dict fields.entries)))

/-- mirrors ingestion/ccgp.py:316-330 -/
def retryAfterSeconds (raw : Option String) (now : Datetime) : Int :=
  let fallback := min DEFAULT_RETRY_AFTER_SECONDS c.maxRetryAfterSeconds
  match raw with
  | none => fallback
  | some raw =>
    match lib.intOf (lib.strip raw) with
    | some seconds => max 0 (min seconds c.maxRetryAfterSeconds)
    | none =>
      match lib.httpDate raw with
      | none => fallback
      | some retryAt => max 0 (min (max 0 ((retryAt - now.utc).tdiv 1000000)) c.maxRetryAfterSeconds)

/-- The status and the declared length.
mirrors ingestion/ccgp.py:202-216 -/
def checkHead (w : World) (r : Response) : Except SourceClientError Unit :=
  if r.statusCode = 401 ∨ r.statusCode = 403 then .error (.authorization r.statusCode)
  else if r.statusCode = 429 then .error (.rateLimited (retryAfterSeconds c r.retryAfter w.retryClock))
  else if r.statusCode < 200 ∨ 300 ≤ r.statusCode then .error (.http r.statusCode)
  else
    match r.contentLength with
    | none => .ok ()
    | some declared =>
      match lib.intOf declared with
      | none => .error (.payload "Content-Length is invalid")
      | some n => if (c.maxResponseBytes : Int) < n then .error (.responseTooLarge c.maxResponseBytes) else .ok ()

/-- The loop, at `total` bytes in `chunks`.
mirrors ingestion/ccgp.py:236-244 -/
def readBounded (maxBytes : Nat) (ends : Option Fault) :
    (total : Nat) → (chunks : List Bytes) → List Bytes → Except ClientRaised Bytes
  | _, chunks, [] =>
    match ends with
    | none => .ok chunks.flatten
    | some fault => .error fault.raised
  | total, chunks, chunk :: rest =>
    let total := total + chunk.length
    if maxBytes < total then .error (.client (.responseTooLarge maxBytes))
    else readBounded maxBytes ends total (chunks ++ [chunk]) rest

/-- mirrors ingestion/ccgp.py:282-289 -/
def decodePayload (lib : ClientLib) (bytes : Bytes) : Except SourceClientError (Json Json.Number) :=
  match loads lib.toMaterializeLib bytes with
  | .notJson _ => .error (.payload "response is not valid UTF-8 JSON")
  | .notObject => .error (.payload "JSON root must be an object")
  | .object payload => .ok payload

def objects (index : Nat) : List (Json Json.Number) → Except SourceClientError (List (Json Json.Number))
  | [] => .ok []
  | .obj fields :: rest =>
    match objects (index + 1) rest with
    | .error e => .error e
    | .ok items => .ok (.obj fields :: items)
  | _ :: _ => .error (.payload ("items[" ++ toString index ++ "] must be an object"))

def nextCursorOf (lib : ClientLib) (field : String) (payload : Json Json.Number) :
    Except SourceClientError (Option String) :=
  match payload.get field with
  | none => .error (.payload ("missing " ++ lib.repr field ++ " field"))
  | some .null => .ok none
  | some (.str us) =>
    let cursor := Json.text us
    if MAX_CURSOR_LENGTH < cursor.length then .error cursorTooLong
    else .ok (if cursor = "" then none else some cursor)
  | some _ => .error (.payload (lib.repr field ++ " must be a string or null"))

/-- mirrors ingestion/ccgp.py:291-314 -/
def parsePage (e : AuthorizedEndpoint lib) (payload : Json Json.Number) :
    Except SourceClientError (List (Json Json.Number) × Option String) :=
  match payload.get e.itemsField with
  | none => .error (.payload ("missing " ++ lib.repr e.itemsField ++ " field"))
  | some (.arr rawItems) =>
    match objects 0 rawItems with
    | .error err => .error err
    | .ok items =>
      match nextCursorOf lib e.nextCursorField payload with
      | .error err => .error err
      | .ok next => .ok (items, next)
  | some _ => .error (.payload (lib.repr e.itemsField ++ " field must be a list"))

/-- mirrors ingestion/ccgp.py:222-234 -/
def pageOf (cursor : Option String) (timestamp : Datetime) (statusCode : Nat) (bytes : Bytes) :
    Except SourceClientError SourcePage :=
  match decodePayload lib bytes with
  | .error e => .error e
  | .ok payload =>
    match parsePage c.endpoint payload with
    | .error e => .error e
    | .ok (items, next) =>
      .ok
        { cursorBefore := cursor, nextCursor := next, items := items, responseBytes := bytes
          responseSha256 := lib.sha256 bytes, retrievedAt := .aware timestamp, statusCode := statusCode
          sourceUrl := c.baseUrl ++ c.endpoint.path, responseItemsField := c.endpoint.itemsField
          noticeFieldMap := c.endpoint.noticeFieldMap }

def clientError {α : Type} : Except SourceClientError α → Except ClientRaised α
  | .error e => .error (.client e)
  | .ok a => .ok a

/-- mirrors ingestion/ccgp.py:202-234 -/
def answer (w : World) (cursor : Option String) (r : Response) : Except ClientRaised SourcePage :=
  match checkHead c w r with
  | .error e => .error (.client e)
  | .ok _ =>
    match readBounded c.maxResponseBytes r.ends 0 [] r.chunks with
    | .error e => .error e
    | .ok bytes => clientError (pageOf c cursor w.timestamp r.statusCode bytes)

/-- mirrors ingestion/ccgp.py:189-191 -/
def headersOf (method : Method) (signed : Dict String String) : Dict String String :=
  let headers := (Dict.ofList [("Accept", "application/json")]).merge signed
  match method with
  | .get => headers
  | .post => headers.set "Content-Type" "application/json"

/-- mirrors ingestion/ccgp.py:169-234 -/
def fetchPage (w : World) (cursor : Option String) : Except ClientRaised SourcePage :=
  match buildRequest c cursor with
  | .error e => .error (.client e)
  | .ok (url, body) =>
    match w.sign ⟨c.endpoint.method, url, body, w.timestamp, c.clientId⟩ with
    | none => .error (.client .signing)
    | some signed =>
      match w.send ⟨c.endpoint.method, url, headersOf c.endpoint.method signed, body⟩ with
      | .raises fault => .error fault.raised
      | .response r => answer c w cursor r

/-! ## The body -/

variable {w w' : World} {cursor : Option String} {page : SourcePage} {maxBytes total : Nat}
  {chunks rest : List Bytes} {bytes : Bytes}

theorem readBounded_eq (htotal : total = chunks.flatten.length) (hle : total ≤ maxBytes) :
    readBounded maxBytes none total chunks rest =
      if maxBytes < total + rest.flatten.length then .error (.client (.responseTooLarge maxBytes))
      else .ok (chunks.flatten ++ rest.flatten) := by
  induction rest generalizing total chunks with
  | nil => simp [readBounded, Nat.not_lt.mpr hle]
  | cons chunk rest ih =>
    simp only [readBounded, List.flatten_cons, List.length_append]
    by_cases hlt : maxBytes < total + chunk.length
    · rw [if_pos hlt, if_pos (by omega)]
    · rw [if_neg hlt, ih (by simp [htotal]) (by omega)]
      simp only [List.flatten_append, List.flatten_cons, List.flatten_nil, List.append_nil, List.append_assoc,
        Nat.add_assoc]

/-- From the start: the whole body, or the limit. -/
theorem readBounded_start : readBounded maxBytes none 0 [] rest =
    if maxBytes < rest.flatten.length then .error (.client (.responseTooLarge maxBytes)) else .ok rest.flatten := by
  have h : readBounded maxBytes none 0 [] rest =
      if maxBytes < 0 + rest.flatten.length then .error (.client (.responseTooLarge maxBytes))
      else .ok ([].flatten ++ rest.flatten) := readBounded_eq rfl (Nat.zero_le _)
  rwa [Nat.zero_add, List.flatten_nil, List.nil_append] at h

theorem readBounded_ok {ends : Option Fault} (h : readBounded maxBytes ends total chunks rest = .ok bytes) :
    ends = none := by
  induction rest generalizing total chunks with
  | nil =>
    cases ends with
    | none => rfl
    | some fault => cases h
  | cons chunk rest ih =>
    simp only [readBounded] at h
    split at h
    · cases h
    · exact ih h

/-- The same answer, cut elsewhere. -/
structure Response.Rechunked (r r' : Response) : Prop where
  statusCode : r.statusCode = r'.statusCode
  contentLength : r.contentLength = r'.contentLength
  retryAfter : r.retryAfter = r'.retryAfter
  body : r.chunks.flatten = r'.chunks.flatten
  whole : r.ends = none ∧ r'.ends = none

inductive Reply.Rechunked : Reply → Reply → Prop where
  | raises {fault} : Rechunked (.raises fault) (.raises fault)
  | response {r r'} (h : Response.Rechunked r r') : Rechunked (.response r) (.response r')

structure World.Rechunked (w w' : World) : Prop where
  timestamp : w.timestamp = w'.timestamp
  sign : w.sign = w'.sign
  retryClock : w.retryClock = w'.retryClock
  send : ∀ request, Reply.Rechunked (w.send request) (w'.send request)

theorem answer_rechunked {r r' : Response} (hw : w.Rechunked w') (h : r.Rechunked r') :
    answer c w cursor r = answer c w' cursor r' := by
  have hhead : checkHead c w r = checkHead c w' r' := by
    rw [checkHead, checkHead, h.statusCode, h.contentLength, h.retryAfter, hw.retryClock]
  have hread : readBounded c.maxResponseBytes r.ends 0 [] r.chunks =
      readBounded c.maxResponseBytes r'.ends 0 [] r'.chunks := by
    rw [h.whole.1, h.whole.2, readBounded_start, readBounded_start, h.body]
  rw [answer, answer, hhead, hread, h.statusCode, hw.timestamp]

/-- What `fetch_page` returns depends on the body, not on its chunks. -/
theorem fetchPage_rechunked (hw : w.Rechunked w') : fetchPage c w cursor = fetchPage c w' cursor := by
  rw [fetchPage, fetchPage, hw.sign, hw.timestamp]
  split
  · rfl
  · split
    · rfl
    · have hsend := hw.send
      generalize hreply : w.send _ = reply
      generalize hreply' : w'.send _ = reply'
      have h : Reply.Rechunked reply reply' := by rw [← hreply, ← hreply']; exact hsend _
      cases h with
      | raises => rfl
      | response h => exact answer_rechunked c hw h

/-- The libraries on what a short exchange gives them: no header is a number or
a date, and the cursor is all a request asks for. -/
def plainLib : ClientLib where
  toMaterializeLib := { BidScope.L9.Authorized.smallLib with
    sha256 := fun bytes =>
      if bytes.length = 44 then "ef547531c3cf3435e4213d494a6b959939e1192b902bd2995d4861acb5af257f"
      else BidScope.L9.Authorized.smallLib.sha256 bytes }
  urlPath _ := "/"
  intOf _ := none
  httpDate _ := none
  query fields := match fields with
    | [(name, .str value)] => name ++ "=" ++ value
    | _ => ""

def plainClient : AuthorizedSourceClient plainLib where
  baseUrl := "https://www.ccgp.gov.cn"
  origin := ⟨"https://www.ccgp.gov.cn/", by decide⟩
  clientId := "c"
  named := by decide
  endpoint := ⟨.get, "/notices", "cursor", "items", "next", .empty, .empty, by decide, by decide⟩
  maxResponseBytes := 1000
  maxRetryAfterSeconds := 60
  limits := by decide

def plainWorld (chunks : List Bytes) : World where
  timestamp := ⟨0, 0⟩
  sign _ := some .empty
  send _ := .response ⟨200, none, none, chunks, none⟩
  retryClock := ⟨0, 0⟩

/-! ## A page that is returned -/

theorem objects_ok {items : List (Json Json.Number)} : ∀ {index : Nat} {rawItems : List (Json Json.Number)},
    objects index rawItems = .ok items → items = rawItems ∧ ∀ item ∈ items, ∃ fields, item = .obj fields := by
  intro index rawItems
  induction rawItems generalizing index items with
  | nil =>
    intro h
    cases h
    exact ⟨rfl, by simp⟩
  | cons item rest ih =>
    intro h
    cases item with
    | obj fields =>
      simp only [objects] at h
      split at h
      · cases h
      · next items' hrest =>
        cases h
        obtain ⟨rfl, hall⟩ := ih hrest
        exact ⟨rfl, List.forall_mem_cons.mpr ⟨⟨fields, rfl⟩, hall⟩⟩
    | _ => cases h

/-- A cursor that can be asked for. -/
def Requestable (cursor : String) : Prop := cursor.length ≤ MAX_CURSOR_LENGTH

instance (cursor : String) : Decidable (Requestable cursor) := inferInstanceAs (Decidable (_ ≤ _))

theorem buildRequest_ok : (∃ request, buildRequest c cursor = .ok request) ↔ ∀ x ∈ cursor, Requestable x := by
  unfold buildRequest Requestable
  cases cursor with
  | none =>
    cases hm : c.endpoint.method <;> simp
  | some x =>
    by_cases hx : MAX_CURSOR_LENGTH < x.length
    · simp [hx]
    · cases hm : c.endpoint.method <;> simp [hx, Nat.not_lt.mp hx]

/-- What holds of a page that answers a request with the cursor. -/
structure WellFormed (cursor : Option String) (page : SourcePage) : Prop where
  size : page.responseBytes.length ≤ c.maxResponseBytes
  hash : page.responseSha256 = lib.sha256 page.responseBytes
  status : 200 ≤ page.statusCode ∧ page.statusCode < 300
  cursorBefore : page.cursorBefore = cursor
  sourceUrl : page.sourceUrl = c.baseUrl ++ c.endpoint.path
  itemsField : page.responseItemsField = c.endpoint.itemsField
  fieldMap : page.noticeFieldMap = c.endpoint.noticeFieldMap
  /-- the bytes are an object with these items -/
  items : ∃ payload, loads lib.toMaterializeLib page.responseBytes = .object payload ∧
    payload.get c.endpoint.itemsField = some (.arr page.items) ∧ ∀ item ∈ page.items, ∃ fields, item = .obj fields
  /-- and this cursor, which is not empty -/
  next : ∀ next ∈ page.nextCursor, next ≠ "" ∧ Requestable next ∧ ∃ payload us,
    loads lib.toMaterializeLib page.responseBytes = .object payload ∧
      payload.get c.endpoint.nextCursorField = some (.str us) ∧ next = Json.text us

theorem nextCursorOf_ok {field : String} {payload : Json Json.Number} {next : Option String}
    (h : nextCursorOf lib field payload = .ok next) : ∀ x ∈ next, x ≠ "" ∧ Requestable x ∧
      ∃ us, payload.get field = some (.str us) ∧ x = Json.text us := by
  unfold nextCursorOf at h
  split at h
  · cases h
  · cases h
    simp
  · next us hget =>
    dsimp only at h
    split at h
    · cases h
    · next hlen =>
      cases h
      intro x hx
      split at hx
      · cases hx
      · next hne =>
        cases hx
        exact ⟨hne, Nat.not_lt.mp hlen, us, hget, rfl⟩
  · cases h

theorem checkHead_ok {r : Response} (h : checkHead c w r = .ok ()) : 200 ≤ r.statusCode ∧ r.statusCode < 300 := by
  unfold checkHead at h
  split at h
  · cases h
  · split at h
    · cases h
    · split at h
      · cases h
      · omega

theorem pageOf_ok {timestamp : Datetime} {statusCode : Nat} (hsize : bytes.length ≤ c.maxResponseBytes)
    (hstatus : 200 ≤ statusCode ∧ statusCode < 300) (h : pageOf c cursor timestamp statusCode bytes = .ok page) :
    WellFormed c cursor page ∧ page.retrievedAt = .aware timestamp := by
  unfold pageOf at h
  split at h
  · cases h
  · next payload hpayload =>
    have hloads : loads lib.toMaterializeLib bytes = .object payload := by
      unfold decodePayload at hpayload
      split at hpayload <;> cases hpayload
      assumption
    split at h
    · cases h
    · next items next hparse =>
      cases h
      unfold parsePage at hparse
      split at hparse
      · cases hparse
      · next rawItems hget =>
        split at hparse
        · cases hparse
        · next hobjects =>
          split at hparse
          · cases hparse
          · next hnext =>
            cases hparse
            obtain ⟨rfl, hall⟩ := objects_ok hobjects
            refine ⟨⟨hsize, rfl, ?_, rfl, rfl, rfl, rfl, ⟨payload, hloads, hget, hall⟩, fun x hx => ?_⟩, rfl⟩
            · dsimp only
              omega
            · obtain ⟨hne, hreq, us, hus, heq⟩ := nextCursorOf_ok hnext x hx
              exact ⟨hne, hreq, payload, us, hloads, hus, heq⟩
      · cases hparse

/-- A body within the limit is read whole. -/
theorem answer_whole {r : Response} (hhead : checkHead c w r = .ok ()) (hends : r.ends = none)
    (hle : r.chunks.flatten.length ≤ c.maxResponseBytes) :
    answer c w cursor r = clientError (pageOf c cursor w.timestamp r.statusCode r.chunks.flatten) := by
  rw [answer, hhead, hends]
  dsimp only
  rw [readBounded_start, if_neg (Nat.not_lt.mpr hle)]

theorem answer_ok {r : Response} (h : answer c w cursor r = .ok page) :
    WellFormed c cursor page ∧ page.retrievedAt = .aware w.timestamp := by
  unfold answer at h
  split at h
  · cases h
  · next hhead =>
    split at h
    · cases h
    · next bytes hread =>
      rw [readBounded_ok hread, readBounded_start] at hread
      split at hread
      · cases hread
      · next hlen =>
        cases hread
        unfold clientError at h
        split at h
        · cases h
        · next hpage =>
          cases h
          exact pageOf_ok c (Nat.not_lt.mp hlen) (checkHead_ok c hhead) hpage

/-- **A page is what its bytes say**, within the limits. -/
theorem fetchPage_ok (h : fetchPage c w cursor = .ok page) :
    WellFormed c cursor page ∧ page.retrievedAt = .aware w.timestamp := by
  unfold fetchPage at h
  split at h
  · cases h
  · split at h
    · cases h
    · split at h
      · cases h
      · exact answer_ok c h

/-- One notice, and a page behind it. -/
def onePage : Data :=
  .dict [("items", .list [.dict [("external_id", .str "n1")]]), ("next", .str "p2")]

theorem onePage_get (name : String) : onePage.sorted.json.get name =
    (Json.member name [("items", .list [.dict [("external_id", .str "n1")]]), ("next", .str "p2")]).map
      fun v => v.sorted.json :=
  Json.get_sorted (by decide) name

def oneItem : Json Json.Number := .obj [(Json.units "external_id", .str (Json.units "n1"))]

theorem parsePage_onePage : parsePage plainClient.endpoint onePage.sorted.json = .ok ([oneItem], some "p2") := by
  have hitems : onePage.sorted.json.get plainClient.endpoint.itemsField = some (.arr [oneItem]) := onePage_get "items"
  have hnext : onePage.sorted.json.get plainClient.endpoint.nextCursorField = some (.str (Json.units "p2")) :=
    onePage_get "next"
  have hlen : ¬ MAX_CURSOR_LENGTH < "p2".length := by decide
  rw [parsePage, hitems]
  simp only [oneItem, objects, nextCursorOf, hnext, Json.text_units, if_neg hlen]
  rw [if_neg (by decide)]

theorem fetchPage_onePage : ∃ page,
    fetchPage plainClient (plainWorld [Json.utf8 (Json.canonical onePage)]) none = .ok page ∧
      page.nextCursor = some "p2" := by
  have hloads : loads plainLib.toMaterializeLib (Json.utf8 (Json.canonical onePage)) = .object onePage.sorted.json := by
    rw [loads, Json.decodeUtf8_utf8, Option.bind_some, Json.parse_canonical]
    rfl
  have hlen : (Json.utf8 (Json.canonical onePage)).length ≤ plainClient.maxResponseBytes := by decide
  have hanswer := @answer_whole _ plainClient (plainWorld [Json.utf8 (Json.canonical onePage)]) none
    ⟨200, none, none, [Json.utf8 (Json.canonical onePage)], none⟩ rfl rfl (by simpa using hlen)
  rw [List.flatten_singleton, pageOf, decodePayload, hloads] at hanswer
  dsimp only at hanswer
  rw [parsePage_onePage] at hanswer
  exact ⟨_, hanswer, rfl⟩

/-- The same page from a body that comes in two chunks. -/
theorem fetchPage_rechunked_two : ∃ page,
    fetchPage plainClient (plainWorld [(Json.utf8 (Json.canonical onePage)).take 9,
      (Json.utf8 (Json.canonical onePage)).drop 9]) none = .ok page ∧ page.nextCursor = some "p2" := by
  rw [fetchPage_rechunked plainClient ⟨rfl, rfl, rfl, fun _ => .response ⟨rfl, rfl, rfl,
    by simp [List.take_append_drop], rfl, rfl⟩⟩]
  exact fetchPage_onePage

theorem fetchPage_ok_onePage : ∃ page, page.nextCursor = some "p2" ∧ WellFormed plainClient none page := by
  obtain ⟨page, hpage, hnext⟩ := fetchPage_onePage
  exact ⟨page, hnext, (fetchPage_ok plainClient hpage).1⟩

/-! ## Asking again -/

def MAX_TRANSIENT_BACKOFF_SECONDS : Nat := 30

/-- The error is raised by the loop.
mirrors ingestion/service.py:277-281 -/
def ClientRaised.final (attempts : Nat) : ClientRaised → Bool
  | .client e =>
    !e.retryable || (match e with | .rateLimited _ => true | _ => false) || decide (MAX_TRANSIENT_RETRIES ≤ attempts)
  | .other => true

theorem lt_of_not_final {e : ClientRaised} {attempts : Nat} (h : ¬ e.final attempts = true) :
    attempts < MAX_TRANSIENT_RETRIES := by
  cases e with
  | other => exact absurd rfl h
  | client e =>
    simp only [ClientRaised.final, Bool.or_eq_true, decide_eq_true_eq, not_or] at h
    omega

/-- The seconds it sleeps, and how it ends; `fetch n` is the request after `n` retries.
mirrors ingestion/service.py:270-285 -/
def fetchPageWithRetry (fetch : Nat → Except ClientRaised SourcePage) (attempts : Nat) :
    List Nat × Except ClientRaised SourcePage :=
  match fetch attempts with
  | .ok page => ([], .ok page)
  | .error e =>
    if e.final attempts then ([], .error e)
    else
      match fetchPageWithRetry fetch (attempts + 1) with
      | (delays, out) => (min (2 ^ attempts) MAX_TRANSIENT_BACKOFF_SECONDS :: delays, out)
termination_by MAX_TRANSIENT_RETRIES - attempts
decreasing_by
  have := lt_of_not_final ‹_›
  omega

theorem retried_eq (e : ClientRaised) (attempts : Nat) : e.failure.retried attempts = !e.final attempts := by
  cases e with
  | other => rfl
  | client e =>
    have hlt : decide (attempts < MAX_TRANSIENT_RETRIES) = !decide (MAX_TRANSIENT_RETRIES ≤ attempts) := by
      rw [← decide_not]
      simp
    cases e <;> simp [ClientRaised.failure, Failure.retried, ClientRaised.final, SourceClientError.retryable, hlt]

section

variable {s : State SourcePage} {i : Nat} {l : Locals}

theorem goto_goto {pc pc' : Pc SourcePage} : (s.goto i pc).goto i pc' = s.goto i pc' := by
  simp [State.goto]

/-- Where a call is behind its page. -/
def fetchedPc (svc : IngestionService SourcePage) (l : Locals) : Except ClientRaised SourcePage → Pc SourcePage
  | .ok page => .fetched (l.took svc page) page
  | .error e => l.fail e.failure.status

variable {s' : State SourcePage} {e : Event SourcePage} {pc : Pc SourcePage} {row : SyncCursor}

/-- The service over the pages of the client. -/
def IngestionService.overPages (svc : IngestionService SourcePage) : IngestionService SourcePage :=
  { svc with nextCursor := SourcePage.nextCursor }

/-- A page is what the client answers to the request of its call. -/
def Answered (s : State SourcePage) : Event SourcePage → Prop
  | .page i page => ∀ l attempts, s.calls i = .fetching l attempts → ∃ w, fetchPage c w l.requestCursor = .ok page
  | _ => True

/-- The runs over the answers of the client, from a row whose cursor can be asked for. -/
def acquisition (svc : IngestionService SourcePage) : LTS (State SourcePage) (Event SourcePage) where
  init s := Initial s ∧ ∀ row ∈ s.stored, Requestable row.cursorValue
  step := ((ingestion svc.overPages).restrict (Answered c)).step

def Locals.Asks (l : Locals) : Prop := Requestable l.lastCursor ∧ ∀ x ∈ l.requestCursor, Requestable x

def Pc.Asks : Pc SourcePage → Prop
  | .fetching l _ | .advancing l => l.Asks
  | .fetched l page => l.Asks ∧ ∀ x ∈ page.nextCursor, Requestable x
  | _ => True

structure Asking (s : State SourcePage) : Prop where
  stored : ∀ row ∈ s.stored, Requestable row.cursorValue
  uncommitted : ∀ held ∈ s.uncommitted, Requestable held.2.cursorValue
  calls : ∀ i, (s.calls i).Asks

theorem requestable_empty : Requestable "" := by decide

theorem asks_start {startedAt : Datetime} {n : Nat} (h : Requestable row.cursorValue) :
    (Locals.start row startedAt n).Asks := by
  refine ⟨h, fun x hx => ?_⟩
  simp only [Locals.start, requestOf] at hx
  split at hx
  · cases hx
  · cases hx
    exact h

theorem asks_afterPage {svc : IngestionService SourcePage} {page : SourcePage} (h : l.Asks)
    (hpage : ∀ x ∈ page.nextCursor, Requestable x) : (afterPage svc.overPages l page).Asks := by
  unfold afterPage
  split
  · exact h
  · next next hnext =>
    have hreq := hpage next hnext
    split
    · trivial
    · dsimp only
      split
      · trivial
      · exact ⟨hreq, fun x hx => by cases hx; exact hreq⟩

theorem Asking.found (h : Asking s) (hrow : s.row i = some row) : Requestable row.cursorValue := by
  rcases row_cases hrow with hstored | hun
  · exact h.stored row hstored
  · exact h.uncommitted _ hun

theorem Asking.goto (h : Asking s) (hpc : pc.Asks) : Asking (s.goto i pc) := by
  refine ⟨h.stored, h.uncommitted, fun j => ?_⟩
  by_cases hj : j = i
  · subst hj
    rwa [goto_self]
  · rw [goto_ne hj]
    exact h.calls j

theorem Asking.writes (h : Asking s) (hpc : pc.Asks) (hrow : Requestable row.cursorValue) :
    Asking { s.goto i pc with uncommitted := some (i, row) } := by
  have hgoto : Asking (s.goto i pc) := h.goto hpc
  refine ⟨hgoto.stored, fun held hheld => ?_, hgoto.calls⟩
  cases hheld
  exact hrow

theorem Asking.commit {run : AcquisitionRun} (h : Asking s) : Asking (commit s i run) := by
  have hgoto : Asking (s.goto i (.done run)) := h.goto trivial
  unfold BidScope.L13.commit
  split
  · next row hun =>
    have hrow := h.uncommitted _ (Option.filter_eq_some_iff.mp hun).1
    refine ⟨fun row' hrow' => ?_, fun _ => nofun, hgoto.calls⟩
    cases hrow'
    exact hrow
  · exact hgoto

theorem asking_step {svc : IngestionService SourcePage} (h : Asking s) (ha : Answered c s e)
    (hs : step svc.overPages s e = some s') : Asking s' := by
  cases e with
  | read i startedAt =>
    simp only [step] at hs
    split at hs
    · next row _ hstored =>
      cases hs
      exact h.goto (asks_start (h.stored row hstored))
    · cases hs
      exact h.goto trivial
    · cases hs
  | insert i serverNow =>
    simp only [step, insert] at hs
    split at hs
    · split at hs
      · cases hs
      · next row _ hstored =>
        cases hs
        exact h.goto (asks_start (h.stored row hstored))
      · cases hs
        exact h.writes (asks_start requestable_empty) requestable_empty
    · cases hs
  | page i page =>
    simp only [step] at hs
    split at hs
    · next l attempts hpc =>
      cases hs
      obtain ⟨w, hfetch⟩ := ha l attempts hpc
      have hcall := h.calls i
      rw [hpc] at hcall
      exact h.goto ⟨hcall, fun x hx => ((fetchPage_ok c hfetch).1.next x hx).2.1⟩
    · cases hs
  | fetchRaises i f =>
    simp only [step] at hs
    split at hs
    · next hpc =>
      cases hs
      have hcall := h.calls i
      rw [hpc] at hcall
      split
      · exact h.goto hcall
      · exact h.goto trivial
    · cases hs
  | imported i =>
    simp only [step] at hs
    split at hs
    · next l page hpc =>
      cases hs
      have hcall := h.calls i
      rw [hpc] at hcall
      exact Asking.goto (s := importBundle s i l page) ⟨h.stored, h.uncommitted, h.calls⟩
        (asks_afterPage hcall.1 hcall.2)
    · cases hs
  | raises i imported f =>
    simp only [step] at hs
    split at hs
    · next l page _ =>
      cases hs
      cases imported with
      | true => exact Asking.goto (s := importBundle s i l page) ⟨h.stored, h.uncommitted, h.calls⟩ trivial
      | false => exact h.goto trivial
    · cases hs
  | advance i succeededAt =>
    simp only [step, advance] at hs
    split at hs
    · next l hpc =>
      have hcall := h.calls i
      rw [hpc] at hcall
      split at hs
      · split at hs
        · cases hs
          exact h.writes trivial hcall.1
        · cases hs
      · cases hs
        exact h.goto trivial
    · cases hs
  | advanceRaises i f =>
    simp only [step] at hs
    split at hs <;> cases hs
    exact h.goto trivial
  | finish i finishedAt =>
    simp only [step, finish] at hs
    split at hs
    · split at hs
      · cases hs
        exact h.goto trivial
      · split at hs
        · split at hs
          · next row hrow =>
            cases hs
            have hvalue := h.found hrow
            exact h.writes trivial hvalue
          · cases hs
            exact h.goto trivial
        · cases hs
    · cases hs
  | commit i =>
    simp only [step] at hs
    split at hs <;> cases hs
    exact h.commit
  | stop i =>
    simp only [step] at hs
    split at hs <;> cases hs
    have hgoto : Asking (s.goto i .stopped) := h.goto trivial
    exact ⟨h.stored, fun held hheld => h.uncommitted held (Option.filter_eq_some_iff.mp hheld).1, hgoto.calls⟩

theorem asking_inductive (svc : IngestionService SourcePage) : (acquisition c svc).Inductive Asking where
  init s hs := by
    obtain ⟨hinit, hstored⟩ := hs
    refine ⟨hstored, fun held hheld => ?_, fun i => ?_⟩
    · rw [hinit.uncommitted] at hheld
      cases hheld
    · rw [hinit.calls]
      trivial
  step s e s' h hs := asking_step c h hs.1 hs.2

/-- **No run asks for a cursor that the client refuses**, and none stores one. -/
theorem cursor_requestable (svc : IngestionService SourcePage) (hr : (acquisition c svc).Reachable s) :
    (∀ row ∈ s.stored, ∃ request, buildRequest c (requestOf row.cursorValue) = .ok request) ∧
      ∀ i l attempts, s.calls i = .fetching l attempts → ∃ request, buildRequest c l.requestCursor = .ok request := by
  have h := (asking_inductive c svc).reachable s hr
  refine ⟨fun row hrow => (buildRequest_ok c).mpr fun x hx => ?_, fun i l attempts hpc => ?_⟩
  · have hstored := h.stored row hrow
    simp only [requestOf] at hx
    split at hx
    · cases hx
    · cases hx
      exact hstored
  · have hcall := h.calls i
    rw [hpc] at hcall
    exact (buildRequest_ok c).mpr hcall.2

/-! ## Runs -/

/-- A source without a row, before any call. -/
def untouched : State SourcePage := ⟨none, none, fun _ => .idle, [], 0⟩

/-- Its first call, which asks for the first page. -/
def firstAsks : State SourcePage := untouched.goto 0 (.fetching (.start (.first ⟨0, 0⟩ ⟨0, 0⟩) ⟨0, 0⟩ 0) 0)

/-- A timeout, and then an answer that is no page. -/
def lateAnswer (n : Nat) : Except ClientRaised SourcePage :=
  if n = 0 then .error (.client .timeout) else .error (.client (.http 404))

def hundredPages : IngestionService SourcePage :=
  ⟨100, by decide, SourcePage.nextCursor, fun _ => ⟨0, 0⟩, fun _ _ _ => .first ⟨0, 0⟩ ⟨0, 0⟩⟩

theorem untouched_init : (acquisition plainClient hundredPages).init untouched :=
  ⟨⟨rfl, fun _ => rfl, rfl⟩, fun _ => nofun⟩

theorem acquisition_step {c : AuthorizedSourceClient lib} {svc : IngestionService SourcePage}
    (hr : (acquisition c svc).Reachable s) (e : Event SourcePage) (ha : Answered c s e)
    (hs : step svc.overPages s e = some s') : (acquisition c svc).Reachable s' :=
  hr.step ⟨ha, hs⟩

/-- The call of `untouched` behind its first page asks for the second. -/
theorem cursor_requestable_second : ∃ s l, s.calls 0 = .fetching l 0 ∧ l.requestCursor = some "p2" ∧
    (acquisition plainClient hundredPages).Reachable s ∧
      ∃ request, buildRequest plainClient l.requestCursor = .ok request := by
  obtain ⟨page, hpage, hnext⟩ := fetchPage_onePage
  have hread := acquisition_step (.init untouched_init) (.read 0 ⟨0, 0⟩) trivial rfl
  have hinsert := acquisition_step hread (.insert 0 ⟨0, 0⟩) trivial rfl
  have htook := acquisition_step hinsert (.page 0 page) (fun l _ hpc => ⟨_, by cases hpc; exact hpage⟩) rfl
  have hasks := acquisition_step htook (.imported 0) trivial rfl
  have hafter : ∀ l : Locals, l.requestCursor = none → l.pageIndex = 0 → afterPage hundredPages.overPages l page =
      .fetching { l with lastCursor := "p2", requestCursor := some "p2", pageIndex := 1 } 0 := fun l hreq hindex => by
    have hnext' : hundredPages.overPages.nextCursor page = some "p2" := hnext
    unfold afterPage
    simp only [hnext', hreq, reduceCtorEq, if_false, hindex]
    rfl
  refine ⟨_, _, goto_self.trans (hafter _ rfl rfl), rfl, hasks, ?_⟩
  exact (cursor_requestable plainClient hundredPages hasks).2 0 _ 0 (goto_self.trans (hafter _ rfl rfl))

end

end BidScope.L13
