import BidScope.Core.KeyOrder
import BidScope.L9Storage.Manifests

/-!
# Manifests read back

A manifest, its JSON form written and read, and validated once more.

* `PydanticLib.Lawful`: what is asked of the library. It may refuse the JSON form
  of a value it took, a URL grown too long for one; it reads no other value.
* `AcquisitionInput.validate_ok`, `ManifestInput.validate_ok`: a model that is
  accepted holds what it was given.
* `dictOf_dump`: a dictionary comes back in the order of its keys.
* `reparsed`: a manifest comes back as it was. An offset of whole minutes is one
  ISO 8601 has a form for.
-/
namespace BidScope.L9.Authorized

open BidScope.L1 BidScope.L5 Checked
open Json (Data)

/-- The offset is one that ISO 8601 can write. -/
def WholeMinutes (t : Datetime) : Prop := (60000000 : Int) ∣ t.offset

structure PydanticLib.Lawful (lib : PydanticLib) : Prop where
  str : ∀ s t, lib.str (.str (Json.units s)) = .ok t → t = s
  int : ∀ n m : Int, lib.int (.num (.int n)) = .ok m → m = n
  datetime : ∀ t p, WholeMinutes t → lib.datetime (.str (Json.units (lib.timeText t))) = .ok p → p = .aware t
  /-- a URL is normalized once -/
  url : ∀ s u v, lib.url s = .ok u → lib.url u.text = .ok v → v = u

/-! ## The same values -/

/-- Equality in Python: a dictionary has no order. -/
structure AcquisitionMetadata.Same (m n : AcquisitionMetadata) : Prop where
  responseSha256 : m.responseSha256 = n.responseSha256
  statusCode : m.statusCode = n.statusCode
  cursorBefore : m.cursorBefore = n.cursorBefore
  cursorAfter : m.cursorAfter = n.cursorAfter
  requestCount : m.requestCount = n.requestCount
  recordCount : m.recordCount = n.recordCount
  responseItemsField : m.responseItemsField = n.responseItemsField
  noticeFieldMap : ∀ k, m.noticeFieldMap.get k = n.noticeFieldMap.get k
  extra : ∀ k, m.extra.get k = n.extra.get k

structure SnapshotManifest.Same (m n : SnapshotManifest) : Prop where
  schemaVersion : m.schemaVersion = n.schemaVersion
  bundleId : m.bundleId = n.bundleId
  source : m.source = n.source
  captureKind : m.captureKind = n.captureKind
  sourceUrls : m.sourceUrls = n.sourceUrls
  retrievedAt : m.retrievedAt = n.retrievedAt
  retrievalOutcome : m.retrievalOutcome = n.retrievalOutcome
  parserVersion : m.parserVersion = n.parserVersion
  files : ∀ k, m.files.get k = n.files.get k
  batchId : m.batchId = n.batchId
  dataContract : m.dataContract = n.dataContract
  acquisitionMetadata : Option.Rel AcquisitionMetadata.Same m.acquisitionMetadata n.acquisitionMetadata

/-- The times of the manifest are written as they are. -/
structure SnapshotManifest.Exact (m : SnapshotManifest) : Prop where
  retrievedAt : WholeMinutes m.retrievedAt
  reviewedAt : ∀ c ∈ m.dataContract, ∀ t ∈ c.reviewedAt, WholeMinutes t

variable {lib : PydanticLib} {α β : Type} {name : String} {x : Checked FieldError α} {a b : α}

/-! ## What is accepted was given -/

@[simp] theorem field_ok : field name x = .ok a ↔ x = .ok a := under_ok

theorem given_of_bounded {lo hi : Nat} {x : Checked FieldError String} {s : String}
    (h : bounded lib lo hi x = .ok s) : x = .ok s := (ensure_ok.mp (ensure_ok.mp h).1).1

theorem forall₂_zipIdx {r : α → β → Prop} : ∀ {l : List α} {bs : List β} {n : Nat},
    List.Forall₂ (fun (e : α × Nat) b => r e.1 b) (l.zipIdx n) bs ↔ List.Forall₂ r l bs
  | [], bs, n => by simp
  | a :: l, bs, n => by
    rw [List.zipIdx_cons, List.forall₂_cons_left_iff, List.forall₂_cons_left_iff]
    simp only [forall₂_zipIdx]

theorem indexed_ok {f : α → Checked FieldError β} {l : List α} {bs : List β} :
    indexed f l = .ok bs ↔ List.Forall₂ (fun a b => f a = .ok b) l bs := by
  rw [indexed, each_ok]
  simp only [under_ok]
  exact forall₂_zipIdx (r := fun a b => f a = .ok b)

/-- The metadata have the arguments' values. -/
structure AcquisitionInput.Gives (i : AcquisitionInput) (m : AcquisitionMetadata) : Prop where
  responseSha256 : i.responseSha256 = .ok m.responseSha256
  statusCode : i.statusCode = .ok m.statusCode
  cursorBefore : i.cursorBefore = .ok m.cursorBefore
  cursorAfter : i.cursorAfter = .ok m.cursorAfter
  requestCount : i.requestCount = .ok m.requestCount
  recordCount : i.recordCount = .ok m.recordCount
  responseItemsField : i.responseItemsField = .ok m.responseItemsField
  noticeFieldMap : i.noticeFieldMap = .ok m.noticeFieldMap
  extra : i.extra = .ok m.extra

theorem AcquisitionInput.validate_ok {i : AcquisitionInput} {m : AcquisitionMetadata}
    (h : i.validate lib = .ok m) : i.Gives m := by
  obtain ⟨_, extra, h, hextra, hmk1⟩ := seq_ok.mp h
  obtain ⟨_, noticeFieldMap, h, hmap, hmk2⟩ := seq_ok.mp h
  obtain ⟨_, responseItemsField, h, hitems, hmk3⟩ := seq_ok.mp h
  obtain ⟨_, recordCount, h, hrecords, hmk4⟩ := seq_ok.mp h
  obtain ⟨_, requestCount, h, hrequests, hmk5⟩ := seq_ok.mp h
  obtain ⟨_, cursorAfter, h, hafter, hmk6⟩ := seq_ok.mp h
  obtain ⟨_, cursorBefore, h, hbefore, hmk7⟩ := seq_ok.mp h
  obtain ⟨_, statusCode, h, hstatus, hmk8⟩ := seq_ok.mp h
  obtain ⟨responseSha256, hsha, hmk9⟩ := map_ok.mp h
  subst_vars
  simp only [field_ok, ensure_ok] at hextra hmap hitems hrecords hrequests hafter hbefore hstatus hsha
  exact ⟨given_of_bounded hsha.1, hstatus.1.1, hbefore.1, hafter.1, hrequests.1.1, hrecords.1.1,
    given_of_bounded hitems, hmap.1.1, hextra.1.1⟩

/-- The manifest has the values given, its URLs parsed. -/
structure ManifestInput.Gives (lib : PydanticLib) (i : ManifestInput) (m : SnapshotManifest) : Prop where
  schemaVersion : i.schemaVersion = .ok m.schemaVersion
  bundleId : i.bundleId = .ok m.bundleId
  source : i.source = .ok m.source
  captureKind : i.captureKind = .ok m.captureKind
  sourceUrls : ∃ raws : List String, i.sourceUrls = .ok (raws.map some) ∧
    List.Forall₂ (fun raw url => lib.url raw = .ok url) raws m.sourceUrls
  retrievedAt : i.retrievedAt = .ok (.aware m.retrievedAt)
  retrievalOutcome : i.retrievalOutcome = .ok m.retrievalOutcome
  parserVersion : i.parserVersion = .ok m.parserVersion
  files : i.files = .ok m.files
  batchId : i.batchId = .ok m.batchId
  dataContract : i.dataContract = .ok m.dataContract
  acquisitionMetadata : i.acquisitionMetadata = .ok m.acquisitionMetadata

theorem rawUrl_ok {raw : Option String} {url : String} (h : rawUrl lib raw = .ok url) : raw = some url := by
  cases raw with
  | none => cases h
  | some s =>
    unfold rawUrl at h
    cases hn : lib.netloc s with
    | error text => simp [hn] at h
    | ok netloc =>
      simp only [hn] at h
      split at h
      · cases h
      · rw [Checked.ok.inj h]

theorem rawUrls_ok : ∀ {raws : List (Option String)} {urls : List String},
    rawUrls lib raws = .ok urls → raws = urls.map some
  | [], urls, h => by
    obtain rfl := Checked.ok.inj h
    rfl
  | raw :: raws, urls, h => by
    obtain ⟨url, hurl, htail⟩ := andThen_ok.mp h
    obtain ⟨rest, hrest, rfl⟩ := map_ok.mp htail
    rw [rawUrl_ok hurl, rawUrls_ok hrest, List.map_cons]

theorem requireAware_ok {p : PyDatetime} {t : Datetime} (h : requireAware p = .ok t) : p = .aware t := by
  cases p with
  | aware t' => rw [Checked.ok.inj h]
  | naive text => cases h

theorem ManifestInput.validate_ok {i : ManifestInput} {m : SnapshotManifest}
    (h : i.validate lib = .ok m) : i.Gives lib m := by
  obtain ⟨⟨h, -⟩, -⟩ := And.imp_left ensure_ok.mp (ensure_ok.mp h)
  obtain ⟨_, acquisitionMetadata, h, hmetadata, hmk1⟩ := seq_ok.mp h
  obtain ⟨_, dataContract, h, hcontract, hmk2⟩ := seq_ok.mp h
  obtain ⟨_, batchId, h, hbatch, hmk3⟩ := seq_ok.mp h
  obtain ⟨_, files, h, hfiles, hmk4⟩ := seq_ok.mp h
  obtain ⟨_, parserVersion, h, hparser, hmk5⟩ := seq_ok.mp h
  obtain ⟨_, retrievalOutcome, h, houtcome, hmk6⟩ := seq_ok.mp h
  obtain ⟨_, retrievedAt, h, hretrieved, hmk7⟩ := seq_ok.mp h
  obtain ⟨_, sourceUrls, h, hurls, hmk8⟩ := seq_ok.mp h
  obtain ⟨_, captureKind, h, hkind, hmk9⟩ := seq_ok.mp h
  obtain ⟨_, source, h, hsource, hmk10⟩ := seq_ok.mp h
  obtain ⟨_, bundleId, h, hid, hmk11⟩ := seq_ok.mp h
  obtain ⟨schemaVersion, hversion, hmk12⟩ := map_ok.mp h
  subst_vars
  simp only [field_ok] at hmetadata hcontract hkind hsource
  simp only [field_ok, ensure_ok, andThen_ok] at hbatch hfiles hparser houtcome hretrieved hurls hid hversion
  obtain ⟨⟨⟨urls, ⟨raws, hraws, hraw⟩, hparsed⟩, -⟩, -⟩ := hurls
  obtain ⟨p, hp, haware⟩ := hretrieved
  rw [rawUrls_ok hraw] at hraws
  rw [requireAware_ok haware] at hp
  exact ⟨hversion.1, hid.1, hsource, hkind, ⟨urls, hraws, indexed_ok.mp hparsed⟩, hp, houtcome.1, hparser.1,
    hfiles.1.1, hbatch.1.1.1, hcontract, hmetadata⟩

/-! ## JSON forms read back -/

variable {l : List (String × Data)} {v : Data} {parse : Json Json.Number → Checked FieldError α}

theorem required_member (hd : (l.map Prod.fst).Nodup) (hm : Json.member name l = some v) :
    required lib (Data.dict l).sorted.json name parse = parse v.sorted.json := by
  rw [required, Json.get_sorted hd, hm]
  rfl

theorem defaulted_member {default : α} (hd : (l.map Prod.fst).Nodup) (hm : Json.member name l = some v) :
    defaulted (Data.dict l).sorted.json name default parse = parse v.sorted.json := by
  rw [defaulted, Json.get_sorted hd, hm]
  rfl

/-- The form of a value is read as that value or not at all. -/
def Reads (parse : Json Json.Number → Checked FieldError α) (form : α → Data) (a : α) : Prop :=
  ∀ b, parse (form a).sorted.json = .ok b → a = b

/-- A value read and then checked was read. -/
theorem Reads.ensure {form : α → Data} {violation : α → Option FieldError} (h : Reads parse form a) :
    Reads (fun v => (parse v).ensure violation) form a := fun b hb => h b (ensure_ok.mp hb).1

theorem Reads.required {form : α → Data} (h : Reads parse form a) (hd : (l.map Prod.fst).Nodup)
    (hm : Json.member name l = some (form a)) (hb : required lib (Data.dict l).sorted.json name parse = .ok b) :
    a = b := h b ((required_member hd hm).symm.trans hb)

theorem Reads.defaulted {form : α → Data} {default : α} (h : Reads parse form a) (hd : (l.map Prod.fst).Nodup)
    (hm : Json.member name l = some (form a)) (hb : defaulted (Data.dict l).sorted.json name default parse = .ok b) :
    a = b := h b ((defaulted_member hd hm).symm.trans hb)

theorem reads_str (hlib : lib.Lawful) (s : String) : Reads lib.str .str s := fun t h => (hlib.str s t h).symm

theorem reads_int (hlib : lib.Lawful) (n : Int) : Reads lib.int .int n := fun m h => (hlib.int n m h).symm

theorem reads_time (hlib : lib.Lawful) {t : Datetime} (ht : WholeMinutes t) :
    Reads (fun v => (lib.datetime v).andThen requireAware) (timeData lib) t := by
  intro t' h
  obtain ⟨p, hp, haware⟩ := andThen_ok.mp h
  rw [hlib.datetime t p ht hp] at haware
  exact Checked.ok.inj haware

theorem nullable_of_ne {v : Json Json.Number} (h : v ≠ .null) : nullable parse v = some <$> parse v := by
  unfold nullable
  split
  · exact absurd rfl h
  · rfl

theorem reads_optional {form : α → Data} (hnull : ∀ a, (form a).sorted.json ≠ .null) :
    ∀ x : Option α, (∀ a ∈ x, Reads parse form a) → Reads (nullable parse) (optional form) x
  | none, _, y, h => Checked.ok.inj h
  | some a, hx, y, h => by
    obtain ⟨b, hb, rfl⟩ := map_ok.mp ((nullable_of_ne (hnull a)).symm.trans h)
    rw [hx a rfl b hb]

theorem str_ne_null (s : String) : (Data.str s).sorted.json ≠ .null := by
  rw [Data.sorted, Data.json]
  intro h
  cases h

theorem dict_ne_null (l : List (String × Data)) : (Data.dict l).sorted.json ≠ .null := by
  rw [Data.sorted, Data.json]
  intro h
  cases h

theorem list_json (form : α → Data) (l : List α) :
    (Data.list (l.map form)).sorted.json = .arr (l.map fun a => (form a).sorted.json) := by
  rw [Data.sorted, Data.json, Json.sortedItems_eq, Json.jsonItems_eq, List.map_map, List.map_map]
  rfl

theorem reads_all {form : α → Data} : ∀ {l l' : List α}, (∀ a ∈ l, Reads parse form a) →
    List.Forall₂ (fun v b => parse v = .ok b) (l.map fun a => (form a).sorted.json) l' → l = l'
  | [], _, _, .nil => rfl
  | a :: l, _, h, .cons hb hrest => by
    rw [h a (List.mem_cons_self ..) _ hb, reads_all (fun a' ha => h a' (List.mem_cons_of_mem _ ha)) hrest]

theorem reads_list {form : α → Data} {l : List α} (h : ∀ a ∈ l, Reads parse form a) :
    Reads (listOf lib parse) (fun l => .list (l.map form)) l := by
  intro l' hread
  rw [list_json] at hread
  exact reads_all h (indexed_ok.mp hread)

theorem reads_value {type : String} {all : List α} {value : α → String} (hinj : ∀ a b, value a = value b → a = b)
    (a : α) : Reads (oneOf lib type all value) (fun a => .str (value a)) a := by
  intro b h
  unfold oneOf at h
  split at h
  · next a' hfind =>
    have hfound := List.find?_some hfind
    have htext : some (Json.units (value a)) = some (Json.units (value a')) := of_decide_eq_true hfound
    rw [hinj a a' (Json.units_injective (Option.some.inj htext)), Checked.ok.inj h]
  · cases h

/-- A member of a dictionary as it is read. -/
def entryJson (e : String × String) : List UInt16 × Json Json.Number := (Json.units e.1, .str (Json.units e.2))

theorem entryOf_json (hlib : lib.Lawful) {e p : String × String} (h : entryOf lib (entryJson e) = .ok p) : e = p := by
  obtain ⟨_, v, hkey, hvalue, hp⟩ := seq_ok.mp h
  obtain ⟨k, hk, rfl⟩ := map_ok.mp hkey
  have hkey := hlib.str e.1 k (under_ok.mp hk)
  have hvalue := hlib.str e.2 v (under_ok.mp hvalue)
  rw [← hp, hkey, hvalue]

theorem entries_read (hlib : lib.Lawful) : ∀ {es pairs : List (String × String)},
    List.Forall₂ (fun e p => entryOf lib e = .ok p) (es.map entryJson) pairs → es = pairs
  | [], _, .nil => rfl
  | e :: es, _, .cons hp hrest => by rw [entryOf_json hlib hp, entries_read hlib hrest]

/-- A dictionary comes back with its members, in the order of their keys. -/
theorem dictOf_dump (hlib : lib.Lawful) {d d' : Dict String String}
    (h : dictOf lib (dictData d).sorted.json = .ok d') (k : String) : d.get k = d'.get k := by
  obtain ⟨es, hperm, hes⟩ := KeyOrder.exists_perm_map (f := fun e : String × String => (e.1, (Data.str e.2).sorted))
    (l := d.entries) (m := (Json.sortedFields (d.entries.map fun e => (e.1, .str e.2))).insertionSort
      fun a b => Json.keyLe a b = true) (by
        rw [Json.sortedFields_eq, List.map_map]
        exact (List.perm_insertionSort _ _).symm)
  have hkeys : (es.map Prod.fst).Nodup := (hperm.map Prod.fst).nodup_iff.mpr d.distinct
  have hjson : (dictData d).sorted.json = .obj (es.map entryJson) := by
    rw [dictData, Data.sorted, ← hes, Data.json, Json.jsonFields_eq, List.map_map]
    rfl
  rw [hjson, dictOf] at h
  obtain ⟨pairs, hpairs, rfl⟩ := map_ok.mp h
  have hunits : ((es.map entryJson).map Prod.fst).Nodup := by
    have hnodup := hkeys.map fun _ _ hu => Json.units_injective hu
    rwa [List.map_map] at hnodup ⊢
  rw [Dict.entries_ofList hunits, each_ok] at hpairs
  obtain rfl := entries_read hlib hpairs
  refine Option.ext fun v => ?_
  rw [← Dict.mem_iff_get, ← Dict.mem_iff_get, Dict.entries_ofList hkeys, hperm.mem_iff]

/-! ## Models read back -/

theorem SourceContract.members_nodup (c : SourceContract) : ((c.members lib).map Prod.fst).Nodup := by
  show List.Nodup ["contract_version", "authorization_ref", "data_owner", "regions", "categories", "review_status",
    "reviewed_at", "update_sla", "retention_days"]
  decide

theorem reviewStatus_injective : ∀ a b : ReviewStatus, a.value = b.value → a = b := by
  intro a b h
  cases a <;> cases b <;> first | rfl | exact absurd h (by decide)

theorem updateSla_injective : ∀ a b : UpdateSla, a.value = b.value → a = b := fun .weekly .weekly _ => rfl

theorem reads_bounded (hlib : lib.Lawful) {lo hi : Nat} (s : String) :
    Reads (fun v => bounded lib lo hi (lib.str v)) .str s := (reads_str hlib s).ensure.ensure

theorem reads_labels (hlib : lib.Lawful) (l : List String) :
    Reads (contractLabels lib) (fun l => .list (l.map .str)) l :=
  (reads_list fun s _ => reads_bounded hlib s).ensure.ensure.ensure

/-- The contract has the values of the members. -/
structure SourceContract.Holds (lib : PydanticLib) (raw : Json Json.Number) (c : SourceContract) : Prop where
  contractVersion : required lib raw "contract_version" (fun v =>
    (bounded lib 1 64 (lib.str v)).ensure contractVersionFault) = .ok c.contractVersion
  authorizationRef : required lib raw "authorization_ref" (fun v =>
    (contractLabel lib v).ensure fun s => labelsFault lib [s]) = .ok c.authorizationRef
  dataOwner : required lib raw "data_owner" (fun v =>
    (contractLabel lib v).ensure fun s => labelsFault lib [s]) = .ok c.dataOwner
  regions : required lib raw "regions" (contractLabels lib) = .ok c.regions
  categories : required lib raw "categories" (contractLabels lib) = .ok c.categories
  reviewStatus : required lib raw "review_status"
    (oneOf lib "literal_error" [.approved, .pending, .rejected] ReviewStatus.value) = .ok c.reviewStatus
  reviewedAt : defaulted raw "reviewed_at" none
    (nullable fun v => (lib.datetime v).andThen requireAware) = .ok c.reviewedAt
  updateSla : required lib raw "update_sla" (oneOf lib "literal_error" [.weekly] UpdateSla.value) = .ok c.updateSla
  retentionDays : required lib raw "retention_days" (fun v =>
    ((lib.int v).ensure fun n => if 0 < n then none else some (fault lib "greater_than" 0)).ensure
      (tooLarge lib 3650)) = .ok c.retentionDays

theorem SourceContract.ofMembers_ok {raw : Json Json.Number} {c : SourceContract} (h : ofMembers lib raw = .ok c) :
    c.Holds lib raw := by
  obtain ⟨_, retentionDays, h, hdays, hmk1⟩ := seq_ok.mp (ensure_ok.mp h).1
  obtain ⟨_, updateSla, h, hsla, hmk2⟩ := seq_ok.mp h
  obtain ⟨_, reviewedAt, h, hreviewed, hmk3⟩ := seq_ok.mp h
  obtain ⟨_, reviewStatus, h, hstatus, hmk4⟩ := seq_ok.mp h
  obtain ⟨_, categories, h, hcategories, hmk5⟩ := seq_ok.mp h
  obtain ⟨_, regions, h, hregions, hmk6⟩ := seq_ok.mp h
  obtain ⟨_, dataOwner, h, howner, hmk7⟩ := seq_ok.mp h
  obtain ⟨_, authorizationRef, h, href, hmk8⟩ := seq_ok.mp h
  obtain ⟨contractVersion, hversion, hmk9⟩ := map_ok.mp h
  subst_vars
  rw [field_ok] at hdays hsla hreviewed hstatus hcategories hregions howner href hversion
  exact ⟨hversion, href, howner, hregions, hcategories, hstatus, hreviewed, hsla, hdays⟩

theorem SourceContract.reads (hlib : lib.Lawful) {c : SourceContract} (ht : ∀ t ∈ c.reviewedAt, WholeMinutes t) :
    Reads (SourceContract.ofJson lib) (SourceContract.dump lib) c := by
  intro c' h
  have hd := @SourceContract.members_nodup lib c
  have hc : c'.Holds lib (Data.dict (c.members lib)).sorted.json := ofMembers_ok h
  have hversion := Reads.required (reads_bounded hlib _).ensure hd rfl hc.contractVersion
  have href := Reads.required (reads_bounded hlib _).ensure hd rfl hc.authorizationRef
  have howner := Reads.required (reads_bounded hlib _).ensure hd rfl hc.dataOwner
  have hregions := Reads.required (reads_labels hlib _) hd rfl hc.regions
  have hcategories := Reads.required (reads_labels hlib _) hd rfl hc.categories
  have hstatus := Reads.required (reads_value reviewStatus_injective _) hd rfl hc.reviewStatus
  have hreviewed := Reads.defaulted (reads_optional (fun _ => str_ne_null _) c.reviewedAt fun t h =>
    reads_time hlib (ht t h)) hd rfl hc.reviewedAt
  have hsla := Reads.required (reads_value updateSla_injective _) hd rfl hc.updateSla
  have hdays := Reads.required (reads_int hlib _).ensure.ensure hd rfl hc.retentionDays
  cases c
  cases c'
  dsimp only at hversion href howner hregions hcategories hstatus hreviewed hsla hdays
  rw [hversion, href, howner, hregions, hcategories, hstatus, hreviewed, hsla, hdays]

theorem AcquisitionMetadata.members_nodup (m : AcquisitionMetadata) : (m.members.map Prod.fst).Nodup := by
  show List.Nodup ["response_sha256", "status_code", "cursor_before", "cursor_after", "request_count", "record_count",
    "response_items_field", "notice_field_map", "extra"]
  decide

/-- The metadata come back but for the order of their dictionaries. -/
theorem AcquisitionMetadata.reads (hlib : lib.Lawful) {m n : AcquisitionMetadata}
    (h : AcquisitionMetadata.ofJson lib m.dump.sorted.json = .ok n) : m.Same n := by
  have hd := m.members_nodup
  have hn : (AcquisitionInput.ofJson lib (Data.dict m.members).sorted.json).Gives n := AcquisitionInput.validate_ok h
  have hcursor : ∀ c : Option String, Reads (nullable lib.str) (optional .str) c := fun c =>
    reads_optional (fun _ => str_ne_null _) c fun s _ => reads_str hlib s
  obtain ⟨hsha, hstatus, hbefore, hafter, hrequests, hrecords, hitems, hmap, hextra⟩ := hn
  dsimp only [AcquisitionInput.ofJson] at hsha hstatus hbefore hafter hrequests hrecords hitems hmap hextra
  rw [defaulted_member hd (v := dictData m.noticeFieldMap) rfl] at hmap
  rw [defaulted_member hd (v := dictData m.extra) rfl] at hextra
  exact ⟨(reads_str hlib _).required hd rfl hsha, (reads_int hlib _).required hd rfl hstatus,
    (hcursor _).defaulted hd rfl hbefore, (hcursor _).defaulted hd rfl hafter,
    (reads_int hlib _).defaulted hd rfl hrequests, (reads_int hlib _).defaulted hd rfl hrecords,
    (reads_str hlib _).defaulted hd rfl hitems, dictOf_dump hlib hmap, dictOf_dump hlib hextra⟩

theorem SnapshotManifest.members_nodup (m : SnapshotManifest) : ((m.members lib).map Prod.fst).Nodup := by
  show List.Nodup ["schema_version", "bundle_id", "source", "capture_kind", "source_urls", "retrieved_at",
    "retrieval_outcome", "parser_version", "files", "batch_id", "data_contract", "acquisition_metadata"]
  decide

theorem sourceName_injective : ∀ a b : SourceName, a.value = b.value → a = b := by
  intro a b h
  cases a <;> cases b <;> first | rfl | exact absurd h (by decide)

theorem captureKind_injective : ∀ a b : CaptureKind, a.value = b.value → a = b := by
  intro a b h
  cases a <;> cases b <;> first | rfl | exact absurd h (by decide)

/-- A URL the library made is made again of its text, or of no other. -/
theorem urls_read (hlib : lib.Lawful) : ∀ {us vs : List Url} {raws : List String},
    (∀ u ∈ us, ∃ s, lib.url s = .ok u) →
    List.Forall₂ (fun v raw => urlEntry lib v = .ok raw) (us.map fun u => (Data.str u.text).sorted.json)
      (raws.map some) →
    List.Forall₂ (fun raw v => lib.url raw = .ok v) raws vs → us = vs
  | [], vs, [], _, _, hvs => (List.forall₂_nil_left_iff.mp hvs).symm
  | u :: us, vs, raw :: raws, hus, hraws, hvs => by
    obtain ⟨hraw, hrest⟩ := List.forall₂_cons.mp hraws
    obtain ⟨v, vs', hv, hvs', rfl⟩ := List.forall₂_cons_left_iff.mp hvs
    obtain ⟨s, hs⟩ := hus u (List.mem_cons_self ..)
    obtain ⟨text, htext, hsome⟩ := map_ok.mp hraw
    obtain rfl := Option.some.inj hsome
    obtain rfl := hlib.str u.text text htext
    rw [hlib.url s u v hs hv, urls_read hlib (fun u hu => hus u (List.mem_cons_of_mem _ hu)) hrest hvs']

/-- **Read back**, a manifest is the same: equal in every field, its dictionaries
but for their order. -/
theorem SnapshotManifest.reparsed (hlib : lib.Lawful) {m n : SnapshotManifest}
    (hurls : ∀ u ∈ m.sourceUrls, ∃ s, lib.url s = .ok u) (hexact : m.Exact)
    (h : SnapshotManifest.ofJson lib (m.dump lib).sorted.json = .ok n) : m.Same n := by
  have hd := @SnapshotManifest.members_nodup lib m
  have hn : (ManifestInput.ofJson lib (Data.dict (m.members lib)).sorted.json).Gives lib n :=
    ManifestInput.validate_ok h
  obtain ⟨hversion, hid, hsource, hkind, ⟨raws, hraws, hparsed⟩, hretrieved, houtcome, hparser, hfiles, hbatch,
    hcontract, hmetadata⟩ := hn
  dsimp only [ManifestInput.ofJson] at hversion hid hsource hkind hraws hretrieved
  dsimp only [ManifestInput.ofJson] at houtcome hparser hfiles hbatch hcontract hmetadata
  rw [required_member hd (v := .list (m.sourceUrls.map fun u => .str u.text)) rfl, list_json] at hraws
  rw [required_member hd (v := timeData lib m.retrievedAt) rfl] at hretrieved
  rw [required_member hd (v := dictData m.files) rfl] at hfiles
  rw [defaulted_member hd (v := optional AcquisitionMetadata.dump m.acquisitionMetadata) rfl] at hmetadata
  refine ⟨(reads_int hlib _).defaulted hd rfl hversion, (reads_str hlib _).required hd rfl hid,
    Reads.required (reads_value sourceName_injective _) hd rfl hsource,
    Reads.required (reads_value captureKind_injective _) hd rfl hkind,
    urls_read hlib hurls (each_ok.mp hraws) hparsed, ?_, (reads_str hlib _).required hd rfl houtcome,
    (reads_str hlib _).required hd rfl hparser, dictOf_dump hlib hfiles,
    Reads.defaulted (reads_optional (fun _ => str_ne_null _) _ fun s _ => reads_str hlib s) hd rfl hbatch,
    Reads.defaulted (reads_optional (fun _ => dict_ne_null _) _ fun c hc =>
      SourceContract.reads hlib (hexact.reviewedAt c hc)) hd rfl hcontract, ?_⟩
  · exact PyDatetime.aware.inj (hlib.datetime _ _ hexact.retrievedAt hretrieved).symm
  · cases hm : m.acquisitionMetadata with
    | none =>
      rw [hm] at hmetadata
      rw [← Checked.ok.inj hmetadata]
      exact .none
    | some metadata =>
      rw [hm] at hmetadata
      obtain ⟨read, hread, heq⟩ := map_ok.mp ((nullable_of_ne (dict_ne_null _)).symm.trans hmetadata)
      rw [← heq]
      exact .some (AcquisitionMetadata.reads hlib hread)

end BidScope.L9.Authorized
