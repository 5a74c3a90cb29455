import Mathlib.Data.List.Dedup
import BidScope.Core.LTS
import BidScope.L9Storage.Objects

/-!
# The two object stores against one finite map

Any sequence of calls made of both stores. `expected` is what a finite map from
keys to bytes answers: a key is there when its last put came after its last
delete. The stores keep to it in every run of which each call meets `Meets`: the
key of a put has no empty segment and no `.`, no key in use is a directory of
the tree or below a file, and nothing is listed below a root given by another
path than its resolved one, as a relative root is.

* `stores_agree_in_guarded_runs`: under that condition both answer as expected.
* `stores_disagree`: what happens without it.
-/
namespace BidScope.L9
open BidScope.L1

/-! ## What is expected -/

/-- The key a call writes, with its bytes or their removal. -/
def written : Op → Option (String × Option Bytes)
  | .putBytes key data => some (key, some data)
  | .delete key => some (key, none)
  | _ => none

/-- The bytes of `key`, when its last put came after its last delete. -/
def live (calls : List Op) (key : String) : Option Bytes :=
  (Ledger.last Prod.fst (calls.filterMap written) key).bind Prod.snd

def storedKeys (calls : List Op) : List String :=
  ((calls.filterMap written).map Prod.fst).dedup.filter fun key => (live calls key).isSome

/-- The answer after the calls made before. -/
def expected (calls : List Op) : Op → Res
  | .putBytes _ _ => .done
  | .getBytes key =>
    match live calls key with
    | none => .raised
    | some data => .bytes data
  | .existsKey key => .bool (live calls key).isSome
  | .delete _ => .done
  | .listKeys start => .keys (sorted ((storedKeys calls).filter (startsWith · start)))

/-! ## Runs -/

structure Stores where
  tree : Root
  bucket : Bucket
  calls : List Op

def Op.key : Op → String
  | .putBytes key _ => key
  | .getBytes key => key
  | .existsKey key => key
  | .delete key => key
  | .listKeys start => start

def Stores.after (l : LocalStore) (s3 : S3Store) (st : Stores) (op : Op) : Stores :=
  ⟨(st.tree.call l op).1, (s3.call st.bucket op).1, st.calls ++ [op]⟩

/-- Both stores, starting empty, under the same calls. -/
def stores (l : LocalStore) (s3 : S3Store) : LTS Stores Op where
  init st := st = ⟨.empty, .empty, []⟩
  step st op st' := Accepted op.key ∧ st' = st.after l s3 op

/-- The condition on a call, in the file tree before it. -/
def Meets (l : LocalStore) (st : Stores) : Op → Prop
  | .putBytes key _ => Canonical key ∧ st.tree.node (parts key) ≠ some .dir ∧
      ∀ q, q <+: parts key → q ≠ parts key → st.tree.file? q = none
  | .getBytes key => Canonical key ∨ st.tree.file? (parts key) = none
  | .existsKey key | .delete key => st.tree.node (parts key) ≠ some .dir ∧
      (Canonical key ∨ st.tree.file? (parts key) = none)
  | .listKeys start => (l.root = l.resolved ∨ st.tree.files.keys = []) ∧
      ∀ p ∈ st.tree.files.keys,
        startsWith (asPosix p) (stripSlash start) → startsWith (asPosix p) start

/-! ## The last write of a key -/

theorem live_snoc (calls : List Op) (op : Op) (key : String) :
    live (calls ++ [op]) key =
      match written op with
      | none => live calls key
      | some w => if w.1 = key then w.2 else live calls key := by
  unfold live
  rw [List.filterMap_append]
  cases hw : written op with
  | none => simp [hw]
  | some w =>
    simp only [List.filterMap_cons, hw, List.filterMap_nil]
    by_cases hk : w.1 = key
    · rw [Ledger.last_snoc_self hk, if_pos hk]
      rfl
    · rw [Ledger.last_snoc_ne hk, if_neg hk]

theorem mem_storedKeys (calls : List Op) (key : String) :
    key ∈ storedKeys calls ↔ (live calls key).isSome := by
  unfold storedKeys
  rw [List.mem_filter]
  refine ⟨fun h => h.2, fun h => ⟨?_, h⟩⟩
  obtain ⟨b, hb⟩ := Option.isSome_iff_exists.mp h
  obtain ⟨w, hw, -⟩ := Option.bind_eq_some_iff.mp hb
  obtain ⟨hmem, rfl⟩ := Ledger.last_mem hw
  exact List.mem_dedup.mpr (List.mem_map_of_mem hmem)

theorem nodup_storedKeys (calls : List Op) : (storedKeys calls).Nodup :=
  (List.nodup_dedup _).filter _

theorem sorted_eq_of_mem {l l' : List String} (hl : l.Nodup) (hl' : l'.Nodup)
    (h : ∀ key, key ∈ l ↔ key ∈ l') : sorted l = sorted l' := by
  have hp : l'.Perm l := (List.perm_ext_iff_of_nodup hl' hl).mpr fun key => (h key).symm
  exact KeyOrder.orderBy_unique ((KeyOrder.orderBy_perm _ l').trans hp) (by simpa using hl)
    (KeyOrder.orderBy_sorted _ l')

/-! ## Full keys -/

theorem fullKey_eq (s3 : S3Store) {key : String} (h : Accepted key) :
    s3.fullKey key = some (s3.logicalBase ++ key) := by
  unfold S3Store.fullKey S3Store.logicalBase
  rw [if_pos h]
  split <;> simp

theorem full_injective (s3 : S3Store) {k k' : String} (h : s3.logicalBase ++ k = s3.logicalBase ++ k') :
    k = k' := by
  have := congrArg String.toList h
  simpa [String.toList_inj] using this

theorem fullStart_eq (s3 : S3Store) {start : String} (h : Accepted start) :
    s3.fullStart start = some (s3.logicalBase ++ stripSlash start) := by
  unfold S3Store.fullStart
  rw [if_pos h]
  split
  · rename_i he
    simp [he]
  · rfl

theorem startsWith_full (s3 : S3Store) (key start : String) :
    startsWith (s3.logicalBase ++ key) (s3.logicalBase ++ start) = startsWith key start := by
  rw [Bool.eq_iff_iff, startsWith_iff, startsWith_iff, String.toList_append, String.toList_append,
    List.prefix_append_right_inj]

/-! ## The invariant -/

/-- Tree and bucket hold the keys that are live, the tree under their paths. -/
structure Agree (s3 : S3Store) (st : Stores) : Prop where
  names : ∀ p b, st.tree.file? p = some b → p ≠ [] ∧ ∀ s ∈ p, Name s
  files : ∀ key, Canonical key → st.tree.file? (parts key) = live st.calls key
  canonical : ∀ key, (live st.calls key).isSome → Canonical key
  bucket : ∀ key, st.bucket.get (s3.logicalBase ++ key) = live st.calls key
  full : ∀ x, (st.bucket.get x).isSome → ∃ key, x = s3.logicalBase ++ key

variable {l : LocalStore} {s3 : S3Store} {st : Stores}

theorem resolve_eq {key : String} (h : Accepted key) : resolve key = some (parts key) := if_pos h

/-- The calls that change nothing. -/
theorem Agree.read (h : Agree s3 st) {op : Op} (hw : written op = none) :
    Agree s3 ⟨st.tree, st.bucket, st.calls ++ [op]⟩ := by
  have hlive : live (st.calls ++ [op]) = live st.calls := funext fun key => by rw [live_snoc, hw]
  exact ⟨h.names, fun key hk => by rw [hlive]; exact h.files key hk,
    fun key hk => h.canonical key (by rwa [hlive] at hk), fun key => by rw [hlive]; exact h.bucket key,
    h.full⟩

theorem putBytes_of_put {t t' : Root} {key : String} {data : Bytes} (hacc : Accepted key)
    (h : t.put (parts key) data = some t') : t.putBytes key data = (t', .done) := by
  obtain ⟨d, hd, hw⟩ := FileTree.put_eq_some h
  unfold Root.putBytes
  rw [resolve_eq hacc]
  simp only [hd, hw]

theorem Agree.put (h : Agree s3 st) {key : String} {data : Bytes} {t' : Root} (hcan : Canonical key)
    (hput : st.tree.put (parts key) data = some t') :
    Agree s3 ⟨t', st.bucket.set (s3.logicalBase ++ key) data,
      st.calls ++ [.putBytes key data]⟩ where
  names p b hp := by
    rw [FileTree.file_put hput] at hp
    split at hp
    · rename_i he
      subst he
      exact ⟨parts_ne_nil hcan, fun s hs => parts_names hs⟩
    · exact h.names p b hp
  files k hk := by
    simp only [FileTree.file_put hput, live_snoc, written]
    by_cases he : key = k
    · simp [he]
    · rw [if_neg he, if_neg (fun hp => he (parts_injective hcan hk hp.symm)), h.files k hk]
  canonical k hk := by
    simp only [live_snoc, written] at hk
    split at hk
    · rename_i he
      exact he ▸ hcan
    · exact h.canonical k hk
  bucket k := by
    simp only [Dict.get_set, live_snoc, written]
    by_cases he : key = k
    · simp [he]
    · rw [if_neg he, if_neg (fun hf => he (full_injective s3 hf)), h.bucket k]
  full x hx := by
    rw [Dict.get_set] at hx
    split at hx
    · rename_i he
      exact ⟨key, he.symm⟩
    · exact h.full x hx

theorem Agree.erase (h : Agree s3 st) {key : String}
    (hkey : Canonical key ∨ st.tree.file? (parts key) = none) :
    Agree s3 ⟨st.tree.remove (parts key), st.bucket.erase (s3.logicalBase ++ key),
      st.calls ++ [.delete key]⟩ where
  names p b hp := by
    rw [FileTree.file_remove] at hp
    split at hp
    · cases hp
    · exact h.names p b hp
  files k hk := by
    simp only [FileTree.file_remove, live_snoc, written]
    by_cases he : key = k
    · simp [he]
    · rw [if_neg he]
      split
      · rename_i hp
        -- another key on the same path: nothing was stored there
        rcases hkey with hcan | hnone
        · exact absurd (parts_injective hcan hk hp.symm) he
        · rw [← h.files k hk, hp, hnone]
      · exact h.files k hk
  canonical k hk := by
    simp only [live_snoc, written] at hk
    split at hk
    · cases hk
    · exact h.canonical k hk
  bucket k := by
    simp only [Dict.get_erase, live_snoc, written]
    by_cases he : key = k
    · simp [he]
    · rw [if_neg he, if_neg (fun hf => he (full_injective s3 hf.symm)), h.bucket k]
  full x hx := by
    rw [Dict.get_erase] at hx
    split at hx
    · cases hx
    · exact h.full x hx

theorem agree_init (s3 : S3Store) : Agree s3 ⟨.empty, .empty, []⟩ where
  names p b hp := by
    rw [FileTree.file_empty] at hp
    cases hp
  files key _ := FileTree.file_empty _
  canonical key hk := by cases hk
  bucket key := rfl
  full x hx := by cases hx

/-! ## One call -/

attribute [local simp] S3Store.call

theorem live_of_file (h : Agree s3 st) {key : String}
    (hkey : Canonical key ∨ st.tree.file? (parts key) = none) :
    st.tree.file? (parts key) = live st.calls key := by
  rcases hkey with hcan | hnone
  · exact h.files key hcan
  · cases hl : live st.calls key with
    | none => exact hnone
    | some b => rw [← hl, h.files key (h.canonical key (by rw [hl]; rfl))]

/-- Both stores answer as expected, and still agree. -/
structure Answers (l : LocalStore) (s3 : S3Store) (st : Stores) (op : Op) : Prop where
  tree : (st.tree.call l op).2 = expected st.calls op
  bucket : (s3.call st.bucket op).2 = expected st.calls op
  agree : Agree s3 (st.after l s3 op)

theorem answers_put (h : Agree s3 st) {key : String} {data : Bytes} (hacc : Accepted key)
    (hm : Meets l st (.putBytes key data)) : Answers l s3 st (.putBytes key data) := by
  obtain ⟨hcan, hdir, hfile⟩ := hm
  obtain ⟨t', hput⟩ := Option.isSome_iff_exists.mp
    (FileTree.put_isSome_iff.mpr ⟨parts_ne_nil hcan, hdir, hfile⟩)
  have htree : st.tree.call l (.putBytes key data) = (t', .done) := putBytes_of_put hacc hput
  have hbucket : s3.call st.bucket (.putBytes key data) =
      (st.bucket.set (s3.logicalBase ++ key) data, .done) := by
    simp only [S3Store.call, fullKey_eq s3 hacc]
  refine ⟨by rw [htree]; rfl, by rw [hbucket]; rfl, ?_⟩
  unfold Stores.after
  rw [htree, hbucket]
  exact h.put hcan hput

theorem getBytes_eq {key : String} (hacc : Accepted key) (t : Root) :
    t.getBytes key = match t.file? (parts key) with
      | none => .raised
      | some data => .bytes data := by
  unfold Root.getBytes FileTree.file?
  rw [resolve_eq hacc]
  cases hn : t.node (parts key) with
  | none => simp only [hn]
  | some e => cases e <;> simp only [hn]

theorem answers_get (h : Agree s3 st) {key : String} (hacc : Accepted key)
    (hm : Meets l st (.getBytes key)) : Answers l s3 st (.getBytes key) := by
  refine ⟨?_, ?_, ?_⟩
  · show st.tree.getBytes key = _
    rw [getBytes_eq hacc, live_of_file h hm]
    rfl
  · simp only [S3Store.call, fullKey_eq s3 hacc, h.bucket, expected]
    cases live st.calls key <;> rfl
  · have hb : (s3.call st.bucket (.getBytes key)).1 = st.bucket := by
      simp only [S3Store.call, fullKey_eq s3 hacc]
      split <;> rfl
    unfold Stores.after
    rw [hb]
    exact h.read rfl

theorem isSome_node {t : Root} {path : List String} (hdir : t.node path ≠ some .dir) :
    (t.node path).isSome = (t.file? path).isSome := by
  unfold FileTree.file?
  cases hn : t.node path with
  | none => rfl
  | some e =>
    cases e with
    | dir => exact absurd hn hdir
    | file data => rfl

theorem answers_exists (h : Agree s3 st) {key : String} (hacc : Accepted key)
    (hm : Meets l st (.existsKey key)) : Answers l s3 st (.existsKey key) := by
  refine ⟨?_, ?_, ?_⟩
  · show st.tree.existsKey key = _
    unfold Root.existsKey
    rw [resolve_eq hacc]
    simp only [isSome_node hm.1, live_of_file h hm.2]
    rfl
  · simp only [S3Store.call, fullKey_eq s3 hacc, h.bucket, expected]
  · have hb : (s3.call st.bucket (.existsKey key)).1 = st.bucket := by
      simp only [S3Store.call, fullKey_eq s3 hacc]
    unfold Stores.after
    rw [hb]
    exact h.read rfl

theorem delete_eq {key : String} (hacc : Accepted key) {t : Root}
    (hdir : t.node (parts key) ≠ some .dir) : t.delete key = (t.remove (parts key), .done) := by
  unfold Root.delete
  rw [resolve_eq hacc]
  cases hn : t.node (parts key) with
  | none =>
    have hf : ¬ (t.file? (parts key)).isSome := by simp [FileTree.file_of_none hn]
    simp only [hn, FileTree.remove, dif_neg hf]
  | some e =>
    cases e with
    | dir => exact absurd hn hdir
    | file data => simp only [hn]

theorem answers_delete (h : Agree s3 st) {key : String} (hacc : Accepted key)
    (hm : Meets l st (.delete key)) : Answers l s3 st (.delete key) := by
  have htree : st.tree.call l (.delete key) = (st.tree.remove (parts key), .done) := delete_eq hacc hm.1
  have hbucket : s3.call st.bucket (.delete key) =
      (st.bucket.erase (s3.logicalBase ++ key), .done) := by
    simp only [S3Store.call, fullKey_eq s3 hacc]
  refine ⟨by rw [htree]; rfl, by rw [hbucket]; rfl, ?_⟩
  unfold Stores.after
  rw [htree, hbucket]
  exact h.erase hm.2

/-! ## Listings -/

theorem logicalKeys_append (l l' : List String) :
    s3.logicalKeys (l ++ l') = s3.logicalKeys l ++ s3.logicalKeys l' := by
  simp [S3Store.logicalKeys]

theorem flatten_drop_last {pages : List (List String)} {i : Nat} (h : ¬ i + 1 < pages.length) :
    (pages.drop i).flatten = pages.getD i [] := by
  by_cases hi : i < pages.length
  · rw [List.drop_eq_getElem_cons hi, List.drop_eq_nil_of_le (by omega)]
    simp [List.getD_eq_getElem?_getD, hi]
  · rw [List.drop_eq_nil_of_le (by omega)]
    simp [List.getD_eq_getElem?_getD, List.getElem?_eq_none (Nat.le_of_not_lt hi)]

theorem flatten_drop_more {pages : List (List String)} {i : Nat} (h : i + 1 < pages.length) :
    (pages.drop i).flatten = pages.getD i [] ++ (pages.drop (i + 1)).flatten := by
  have hi : i < pages.length := by omega
  rw [List.drop_eq_getElem_cons hi, List.flatten_cons, List.getD_eq_getElem?_getD,
    List.getElem?_eq_getElem hi, Option.getD_some]

/-- With one request a page the loop goes through every page. -/
theorem listLoop_eq (s3 : S3Store) (b : Bucket) (start : String) :
    ∀ (fuel : Nat) (token : Option Nat) (keys : List String),
      (s3.pages (b.keys.filter (startsWith · start))).length < fuel + token.getD 0 → 0 < fuel →
      s3.listLoop b start fuel token keys = some (keys ++ s3.logicalKeys
        ((s3.pages (b.keys.filter (startsWith · start))).drop (token.getD 0)).flatten)
  | 0, _, _, _, h => absurd h (Nat.lt_irrefl 0)
  | fuel + 1, token, keys, hlen, _ => by
    rw [S3Store.listLoop]
    by_cases hmore : token.getD 0 + 1 < (s3.pages (b.keys.filter (startsWith · start))).length
    · have ih := listLoop_eq s3 b start fuel (some (token.getD 0 + 1))
      simp only [Option.getD_some] at ih
      simp only [S3Store.listObjects, hmore, decide_true, not_true, if_false, if_true]
      rw [ih _ (by omega) (by omega), flatten_drop_more hmore, logicalKeys_append, List.append_assoc]
    · simp only [S3Store.listObjects, hmore, decide_false, Bool.false_eq_true, not_false_eq_true,
        if_true]
      rw [flatten_drop_last hmore]

theorem dropBase_full (s3 : S3Store) (key : String) :
    String.ofList ((s3.logicalBase ++ key).toList.drop s3.logicalBase.toList.length) = key := by
  simp

/-- The full keys of a listing, on whichever pages. -/
theorem mem_pages (h : Agree s3 st) {start x : String}
    (hx : x ∈ (s3.pages (st.bucket.keys.filter (startsWith · (s3.logicalBase ++ start)))).flatten) :
    ∃ key, x = s3.logicalBase ++ key ∧ (live st.calls key).isSome ∧ startsWith key start := by
  obtain ⟨hmem, hstart⟩ := List.mem_filter.mp ((s3.pages_perm _).mem_iff.mp hx)
  rw [Dict.mem_keys] at hmem
  obtain ⟨key, rfl⟩ := h.full x hmem
  rw [h.bucket] at hmem
  exact ⟨key, rfl, hmem, by rwa [startsWith_full] at hstart⟩

/-- The keys a listing of the bucket returns. -/
theorem mem_listed (h : Agree s3 st) (start key : String) :
    key ∈ s3.logicalKeys (s3.pages (st.bucket.keys.filter
        (startsWith · (s3.logicalBase ++ start)))).flatten ↔
      (live st.calls key).isSome ∧ startsWith key start := by
  unfold S3Store.logicalKeys
  rw [List.mem_map]
  constructor
  · rintro ⟨x, hx, rfl⟩
    obtain ⟨k, rfl, hlive, hstart⟩ := mem_pages h (List.mem_filter.mp hx).1
    rw [dropBase_full]
    exact ⟨hlive, hstart⟩
  · rintro ⟨hlive, hstart⟩
    refine ⟨s3.logicalBase ++ key, List.mem_filter.mpr ⟨?_, ?_⟩, dropBase_full s3 key⟩
    · rw [(s3.pages_perm _).mem_iff, List.mem_filter, Dict.mem_keys, h.bucket, startsWith_full]
      exact ⟨hlive, hstart⟩
    · rw [startsWith_iff, String.toList_append]
      exact List.prefix_append _ _

theorem nodup_listed (h : Agree s3 st) (start : String) :
    (s3.logicalKeys (s3.pages (st.bucket.keys.filter
      (startsWith · (s3.logicalBase ++ start)))).flatten).Nodup := by
  refine List.Nodup.map_on (fun x hx y hy he => ?_) (List.Nodup.filter _ ?_)
  · obtain ⟨k, rfl, -, -⟩ := mem_pages h (List.mem_filter.mp hx).1
    obtain ⟨k', rfl, -, -⟩ := mem_pages h (List.mem_filter.mp hy).1
    rw [dropBase_full, dropBase_full] at he
    rw [he]
  · exact (s3.pages_perm _).nodup_iff.mpr (List.Nodup.filter _ st.bucket.distinct)

theorem mem_paths (h : Agree s3 st) (key : String) :
    key ∈ st.tree.files.keys.map asPosix ↔ (live st.calls key).isSome := by
  rw [List.mem_map]
  constructor
  · rintro ⟨p, hp, rfl⟩
    rw [Dict.mem_keys, FileTree.get_files] at hp
    obtain ⟨b, hb⟩ := Option.isSome_iff_exists.mp hp
    obtain ⟨hne, hnames⟩ := h.names p b hb
    rw [← h.files _ (canonical_asPosix hne hnames), parts_asPosix hne hnames, hb]
    rfl
  · intro hl
    have hcan := h.canonical key hl
    refine ⟨parts key, ?_, asPosix_parts hcan⟩
    rw [Dict.mem_keys, FileTree.get_files, h.files key hcan]
    exact hl

theorem nodup_paths (h : Agree s3 st) : (st.tree.files.keys.map asPosix).Nodup := by
  refine List.Nodup.map_on (fun p hp q hq he => ?_) st.tree.files.distinct
  rw [Dict.mem_keys, FileTree.get_files] at hp hq
  obtain ⟨b, hb⟩ := Option.isSome_iff_exists.mp hp
  obtain ⟨c, hc⟩ := Option.isSome_iff_exists.mp hq
  obtain ⟨hpne, hpn⟩ := h.names p b hb
  obtain ⟨hqne, hqn⟩ := h.names q c hc
  rw [← parts_asPosix hpne hpn, ← parts_asPosix hqne hqn, he]

/-- Stripped, what does not begin with a slash only loses slashes at its end. -/
theorem stripSlash_start {start : String} (hacc : Accepted start) :
    (stripSlash start).toList <+: start.toList := by
  have hhead : start.toList.dropWhile (· = '/') = start.toList := by
    cases hs : start.toList with
    | nil => rfl
    | cons c cs =>
      have hc : c ≠ '/' := by
        rintro rfl
        exact hacc.2 (startsWith_iff.mpr (by rw [hs]; exact ⟨cs, rfl⟩))
      simp [hc]
  unfold stripSlash
  rw [String.toList_ofList, hhead]
  have hsuf := List.dropWhile_suffix (l := start.toList.reverse) (· = '/')
  simpa using List.reverse_prefix.mpr hsuf

/-- A root that is its own resolution names each file by its path below it. -/
theorem listed_names {t : Root} (h : l.root = l.resolved ∨ t.files.keys = []) :
    (t.files.keys.mapM fun p => relativeTo (l.root ++ p) l.resolved) = some t.files.keys := by
  rcases h with hroot | hnone
  · have hname : (fun p => relativeTo (l.root ++ p) l.resolved) = fun p => some p := by
      funext p
      rw [hroot, relativeTo, if_pos (List.prefix_append _ _), List.drop_left]
    rw [hname]
    simpa using List.mapM_pure (m := Option) (f := id) (l := t.files.keys)
  · rw [hnone]
    rfl

theorem answers_list (h : Agree s3 st) {start : String} (hacc : Accepted start)
    (hm : Meets l st (.listKeys start)) : Answers l s3 st (.listKeys start) := by
  have hstart : ∀ key, (live st.calls key).isSome →
      (startsWith key (stripSlash start) ↔ startsWith key start) := by
    intro key hlive
    constructor
    · intro hs
      obtain ⟨p, hp, rfl⟩ := List.mem_map.mp ((mem_paths h key).mpr hlive)
      exact hm.2 p hp hs
    · intro hs
      exact startsWith_iff.mpr ((stripSlash_start hacc).trans (startsWith_iff.mp hs))
  refine ⟨?_, ?_, ?_⟩
  · have hres : resolve (if start = "" then "." else start) ≠ none := by
      split
      · decide
      · rw [resolve_eq hacc]
        simp
    obtain ⟨p, hp⟩ := Option.ne_none_iff_exists'.mp hres
    show st.tree.listKeys l start = _
    unfold Root.listKeys
    rw [hp, listed_names hm.1]
    simp only [expected, Res.keys.injEq]
    refine sorted_eq_of_mem ((nodup_paths h).filter _) ((nodup_storedKeys _).filter _) fun key => ?_
    rw [List.mem_filter, List.mem_filter, mem_paths h, mem_storedKeys]
  · show s3.listKeys st.bucket start = _
    unfold S3Store.listKeys
    rw [fullStart_eq s3 hacc]
    have hloop := listLoop_eq s3 st.bucket (s3.logicalBase ++ stripSlash start) _ none []
      (Nat.lt_succ_self _) (Nat.succ_pos _)
    rw [Option.getD_none, List.drop_zero, List.nil_append] at hloop
    simp only [hloop, expected, Res.keys.injEq]
    refine sorted_eq_of_mem (nodup_listed h _) ((nodup_storedKeys _).filter _) fun key => ?_
    rw [mem_listed h, List.mem_filter, mem_storedKeys]
    exact and_congr_right (hstart key)
  · exact h.read rfl

/-! ## Runs -/

theorem answers (h : Agree s3 st) {op : Op} (hacc : Accepted op.key) (hm : Meets l st op) :
    Answers l s3 st op := by
  cases op with
  | putBytes key data => exact answers_put h hacc hm
  | getBytes key => exact answers_get h hacc hm
  | existsKey key => exact answers_exists h hacc hm
  | delete key => exact answers_delete h hacc hm
  | listKeys start => exact answers_list h hacc hm

theorem agree_inductive (l : LocalStore) (s3 : S3Store) :
    ((stores l s3).restrict (Meets l)).Inductive (Agree s3) where
  init st hst := by
    cases hst
    exact agree_init s3
  step st op st' h hs := by
    obtain ⟨hm, hacc, rfl⟩ := hs
    exact (answers h hacc hm).agree

/-- In a run whose calls meet the condition, whatever is called next under it is
answered alike by both stores, as one finite map answers. -/
theorem stores_agree_in_guarded_runs (l : LocalStore) (s3 : S3Store) (st : Stores) (op : Op)
    (hr : ((stores l s3).restrict (Meets l)).Reachable st) (hacc : Accepted op.key)
    (hm : Meets l st op) :
    (st.tree.call l op).2 = expected st.calls op ∧ (s3.call st.bucket op).2 = expected st.calls op :=
  have ha := answers ((agree_inductive l s3).reachable st hr) hacc hm
  ⟨ha.tree, ha.bucket⟩

/-! ## Without the condition -/

theorem onePage_perm (keys : List String) : [keys].flatten.Perm keys := by simp

/-- A bucket without a prefix, its listings on one page. -/
def onePage : S3Store := ⟨"", fun keys => [keys], onePage_perm⟩

/-- A root that is its own resolution. -/
def atRoot : LocalStore := ⟨["/", "srv", "data", "objects"], ["/", "srv", "data", "objects"]⟩

/-- The default `data/objects`, in a process started in `/srv`. -/
def relativeRoot : LocalStore := ⟨["data", "objects"], ["/", "srv", "data", "objects"]⟩

/-- After one put. -/
def afterPut (l : LocalStore) (key : String) : Stores :=
  Stores.after l onePage ⟨.empty, .empty, []⟩ (.putBytes key [1])

theorem afterPut_reachable {key : String} (h : Accepted key) :
    (stores l onePage).Reachable (afterPut l key) :=
  (LTS.Reachable.init rfl).step (l := .putBytes key [1]) ⟨h, rfl⟩

/-- A directory exists for one store only, cannot become an object in it and
cannot be removed from it; a key with an empty segment is read under another name;
a slash at the end of what a listing asks for counts in one store only; and below
a relative root nothing can be listed. -/
theorem stores_disagree :
    ((stores atRoot onePage).Reachable (afterPut atRoot "a/b") ∧
      (stores atRoot onePage).Reachable (afterPut atRoot "a//b") ∧
      (stores atRoot onePage).Reachable (afterPut atRoot "ab") ∧
      Accepted "a" ∧ Accepted "a/" ∧
      ((afterPut atRoot "a/b").tree.call atRoot (.existsKey "a")).2 = .bool true ∧
      (onePage.call (afterPut atRoot "a/b").bucket (.existsKey "a")).2 = .bool false ∧
      ((afterPut atRoot "a/b").tree.call atRoot (.putBytes "a" [2])).2 = .raised ∧
      (onePage.call (afterPut atRoot "a/b").bucket (.putBytes "a" [2])).2 = .done ∧
      ((afterPut atRoot "a/b").tree.call atRoot (.delete "a")).2 = .raised ∧
      (onePage.call (afterPut atRoot "a/b").bucket (.delete "a")).2 = .done ∧
      ((afterPut atRoot "a//b").tree.call atRoot (.getBytes "a/b")).2 = .bytes [1] ∧
      (onePage.call (afterPut atRoot "a//b").bucket (.getBytes "a/b")).2 = .raised ∧
      ((afterPut atRoot "ab").tree.call atRoot (.listKeys "a/")).2 = .keys [] ∧
      (onePage.call (afterPut atRoot "ab").bucket (.listKeys "a/")).2 = .keys ["ab"]) ∧
    (stores relativeRoot onePage).Reachable (afterPut relativeRoot "a/b") ∧
      ((afterPut relativeRoot "a/b").tree.call relativeRoot (.listKeys "")).2 = .raised ∧
      (onePage.call (afterPut relativeRoot "a/b").bucket (.listKeys "")).2 = .keys ["a/b"] :=
  ⟨⟨afterPut_reachable (by decide +kernel), afterPut_reachable (by decide +kernel),
      afterPut_reachable (by decide +kernel), by decide +kernel, by decide +kernel,
      by decide +kernel, by decide +kernel, by decide +kernel, by decide +kernel,
      by decide +kernel, by decide +kernel, by decide +kernel, by decide +kernel,
      by decide +kernel, by decide +kernel⟩,
    afterPut_reachable (by decide +kernel), by decide +kernel, by decide +kernel⟩

theorem afterPut_meets : Meets atRoot ⟨.empty, .empty, []⟩ (.putBytes "a/b" [1]) :=
  ⟨by decide +kernel, by decide +kernel, fun q _ _ => FileTree.file_empty q⟩

/-- A key stored under a root that is resolved is listed by both stores. -/
theorem stores_agree_after_put :
    ((afterPut atRoot "a/b").tree.call atRoot (.listKeys "a")).2 =
        expected (afterPut atRoot "a/b").calls (.listKeys "a") ∧
      (onePage.call (afterPut atRoot "a/b").bucket (.listKeys "a")).2 =
        expected (afterPut atRoot "a/b").calls (.listKeys "a") :=
  stores_agree_in_guarded_runs atRoot onePage (afterPut atRoot "a/b") (.listKeys "a")
    ((LTS.Reachable.init rfl).step ⟨afterPut_meets, by decide +kernel, rfl⟩) (by decide +kernel)
    ⟨.inl rfl, by decide +kernel⟩

end BidScope.L9
