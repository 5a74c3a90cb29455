import BidScope.L12Audit.Sanitisers

/-!
# What the sanitisers hide and bound

Values that are `Alike` differ only in what is stored under keys that name a
secret. A sanitiser `Redacts` a value when every value alike it gives the same
result, and this result is no deeper than two, its containers hold at most 32
items and its texts are short.

It does so exactly for the values it has `Covered` (`redacts_iff`): the test of
a key is made on the key after it was cut, so a long key can lose the word that
names the secret; and `redact_audit_value` cuts no set at the depth where it
cuts lists and dicts. What comes after the 32nd item, what is under a masked key and an
entry that a later one overwrites, their keys being cut to one, show nowhere.

* `keeps_iff`: the walk from a depth on, by the structure of the value.
* `sized_clean`: sizes are bounded whatever the value.
-/
namespace BidScope.L12

/-! ## What a result shows -/

mutual

/-- The same value up to what is stored under keys that name a secret. -/
def Alike (secret : List Char → Bool) : PyValue → PyValue → Prop
  | .dict items, w => ∃ others, w = .dict others ∧ AlikeEntries secret items others
  | .seq kind items, w => ∃ others, w = .seq kind others ∧ AlikeItems secret items others
  | .none, w => w = .none
  | .bool b, w => w = .bool b
  | .int n, w => w = .int n
  | .float bits, w => w = .float bits
  | .str s, w => w = .str s
  | .other s, w => w = .other s

def AlikeEntries (secret : List Char → Bool) :
    List (List Char × PyValue) → List (List Char × PyValue) → Prop
  | [], others => others = []
  | (key, value) :: rest, others => ∃ value' rest', others = (key, value') :: rest' ∧
    (secret key = true ∨ Alike secret value value') ∧ AlikeEntries secret rest rest'

def AlikeItems (secret : List Char → Bool) : List PyValue → List PyValue → Prop
  | [], others => others = []
  | item :: rest, others => ∃ item' rest', others = item' :: rest' ∧
    Alike secret item item' ∧ AlikeItems secret rest rest'

end

mutual

/-- How deep containers are nested. -/
def Clean.depth : Clean → Nat
  | .list items => depthItems items + 1
  | .dict items => depthEntries items + 1
  | .none => 0
  | .bool _ => 0
  | .int _ => 0
  | .float _ => 0
  | .str _ => 0

def depthItems : List Clean → Nat
  | [] => 0
  | item :: rest => max item.depth (depthItems rest)

def depthEntries : List (List Char × Clean) → Nat
  | [] => 0
  | (_, value) :: rest => max value.depth (depthEntries rest)

end

mutual

/-- Every container holds at most `MAX_ITEMS` items and every text at most `limit` characters. -/
def Clean.Sized (limit : Nat) : Clean → Prop
  | .list items => items.length ≤ MAX_ITEMS ∧ SizedItems limit items
  | .dict items => items.length ≤ MAX_ITEMS ∧ SizedEntries limit items
  | .str s => s.length ≤ limit
  | .none => True
  | .bool _ => True
  | .int _ => True
  | .float _ => True

def SizedItems (limit : Nat) : List Clean → Prop
  | [] => True
  | item :: rest => item.Sized limit ∧ SizedItems limit rest

def SizedEntries (limit : Nat) : List (List Char × Clean) → Prop
  | [] => True
  | (key, value) :: rest => (key.length ≤ limit ∧ value.Sized limit) ∧ SizedEntries limit rest

end

/-- A policy does for a value what sanitising is for. -/
structure Redacts (P : Policy) (limit : Nat) (v : PyValue) : Prop where
  hidden : ∀ w, Alike P.secret v w → P.clean 0 w = P.clean 0 v
  shallow : (P.clean 0 v).depth ≤ 2
  sized : (P.clean 0 v).Sized limit

/-! ## Which values it does so for -/

mutual

/-- At every place the walk reaches, a key that names a secret still does when
cut, and every container at depth two is dropped. -/
def Covered (P : Policy) : Nat → PyValue → Prop
  | depth, .dict items => P.cuts depth .dict = true ∨ depth < 2 ∧ CoveredEntries P depth MAX_ITEMS items
  | depth, .seq kind items =>
    P.cuts depth (.seq kind) = true ∨ depth < 2 ∧ CoveredItems P depth MAX_ITEMS items
  | _, .none => True
  | _, .bool _ => True
  | _, .int _ => True
  | _, .float _ => True
  | _, .str _ => True
  | _, .other _ => True

/-- An entry counts unless a later one of the next `n` has its key when cut. -/
def CoveredEntries (P : Policy) (depth : Nat) : Nat → List (List Char × PyValue) → Prop
  | 0, _ => True
  | _ + 1, [] => True
  | n + 1, (key, value) :: rest =>
    (P.key key ∈ (rest.take n).map (fun e => P.key e.1) ∨
      (P.secret key = true → P.secret (P.key key) = true) ∧
      (P.secret (P.key key) = false → Covered P (depth + 1) value)) ∧
    CoveredEntries P depth n rest

def CoveredItems (P : Policy) (depth : Nat) : Nat → List PyValue → Prop
  | 0, _ => True
  | _ + 1, [] => True
  | n + 1, item :: rest => Covered P (depth + 1) item ∧ CoveredItems P depth n rest

end

/-! ## Basic facts -/

mutual

theorem alike_refl (secret : List Char → Bool) : ∀ v : PyValue, Alike secret v v
  | .dict items => by
    rw [Alike]
    exact ⟨items, rfl, alikeEntries_refl secret items⟩
  | .seq kind items => by
    rw [Alike]
    exact ⟨items, rfl, alikeItems_refl secret items⟩
  | .none => by rw [Alike]
  | .bool _ => by rw [Alike]
  | .int _ => by rw [Alike]
  | .float _ => by rw [Alike]
  | .str _ => by rw [Alike]
  | .other _ => by rw [Alike]

theorem alikeEntries_refl (secret : List Char → Bool) :
    ∀ items : List (List Char × PyValue), AlikeEntries secret items items
  | [] => by rw [AlikeEntries]
  | (key, value) :: rest => by
    rw [AlikeEntries]
    exact ⟨value, rest, rfl, .inr (alike_refl secret value), alikeEntries_refl secret rest⟩

theorem alikeItems_refl (secret : List Char → Bool) : ∀ items : List PyValue, AlikeItems secret items items
  | [] => by rw [AlikeItems]
  | item :: rest => by
    rw [AlikeItems]
    exact ⟨item, rest, rfl, alike_refl secret item, alikeItems_refl secret rest⟩

end

theorem depthItems_le {n : Nat} : ∀ {items : List Clean},
    depthItems items ≤ n ↔ ∀ c ∈ items, c.depth ≤ n
  | [] => by simp [depthItems]
  | item :: rest => by
    rw [depthItems, Nat.max_le, @depthItems_le n rest, List.forall_mem_cons]

theorem depthEntries_le {n : Nat} : ∀ {items : List (List Char × Clean)},
    depthEntries items ≤ n ↔ ∀ e ∈ items, e.2.depth ≤ n
  | [] => by simp [depthEntries]
  | (key, value) :: rest => by
    rw [depthEntries, Nat.max_le, @depthEntries_le n rest, List.forall_mem_cons]

theorem sizedItems_iff {limit : Nat} : ∀ {items : List Clean},
    SizedItems limit items ↔ ∀ c ∈ items, c.Sized limit
  | [] => by simp [SizedItems]
  | item :: rest => by
    rw [SizedItems, @sizedItems_iff limit rest, List.forall_mem_cons]

theorem sizedEntries_iff {limit : Nat} : ∀ {items : List (List Char × Clean)},
    SizedEntries limit items ↔ ∀ e ∈ items, e.1.length ≤ limit ∧ e.2.Sized limit
  | [] => by simp [SizedEntries]
  | (key, value) :: rest => by
    rw [SizedEntries, @sizedEntries_iff limit rest, List.forall_mem_cons]

theorem alikeEntries_keys {secret : List Char → Bool} : ∀ {items others : List (List Char × PyValue)},
    AlikeEntries secret items others → others.map Prod.fst = items.map Prod.fst
  | [], others, h => by
    rw [AlikeEntries] at h
    rw [h]
  | (key, value) :: rest, others, h => by
    rw [AlikeEntries] at h
    obtain ⟨value', rest', rfl, -, hrest⟩ := h
    rw [List.map_cons, List.map_cons, alikeEntries_keys hrest]

section
variable {P : Policy} {depth n : Nat}

theorem keys_cleanEntries : ∀ {n : Nat} {items : List (List Char × PyValue)},
    (P.cleanEntries depth n items).map Prod.fst = (items.take n).map fun e => P.key e.1
  | 0, _ => by simp [Policy.cleanEntries]
  | _ + 1, [] => by simp [Policy.cleanEntries]
  | n + 1, (key, value) :: rest => by
    rw [Policy.cleanEntries, List.take_succ_cons, List.map_cons, List.map_cons, keys_cleanEntries]

/-- Entries alike are assigned to the same keys. -/
theorem keys_alike {items others : List (List Char × PyValue)} (h : AlikeEntries P.secret items others) :
    (others.take n).map (fun e => P.key e.1) = (items.take n).map fun e => P.key e.1 := by
  have hcut : ∀ xs : List (List Char × PyValue),
      (xs.take n).map (fun e => P.key e.1) = ((xs.map Prod.fst).take n).map P.key := by
    intro xs
    rw [← List.map_take, List.map_map]
    rfl
  rw [hcut, hcut, alikeEntries_keys h]

/-! ## The walk hides and bounds just what is covered -/

/-- `Redacts` from a depth on, sizes apart. -/
def Keeps (P : Policy) (depth : Nat) (v : PyValue) : Prop :=
  (∀ w, Alike P.secret v w → P.clean depth w = P.clean depth v) ∧ (P.clean depth v).depth ≤ 2 - depth

def KeepsItems (P : Policy) (depth n : Nat) (items : List PyValue) : Prop :=
  (∀ others, AlikeItems P.secret items others →
    P.cleanItems depth n others = P.cleanItems depth n items) ∧
  ∀ c ∈ P.cleanItems depth n items, c.depth ≤ 2 - (depth + 1)

/-- What an assignment leaves under each key, the entries alike. -/
def KeepsEntries (P : Policy) (depth n : Nat) (items : List (List Char × PyValue)) : Prop :=
  (∀ others, AlikeEntries P.secret items others → ∀ k,
    (Dict.ofList (P.cleanEntries depth n others)).get k =
      (Dict.ofList (P.cleanEntries depth n items)).get k) ∧
  ∀ k c, (Dict.ofList (P.cleanEntries depth n items)).get k = some c → c.depth ≤ 2 - (depth + 1)

theorem keeps_seq {kind : Sequence} {items : List PyValue} : Keeps P depth (.seq kind items) ↔
    P.cuts depth (.seq kind) = true ∨ depth < 2 ∧ KeepsItems P depth MAX_ITEMS items := by
  unfold Keeps KeepsItems
  simp only [Alike, forall_exists_index, and_imp, Policy.clean]
  by_cases hcut : P.cuts depth (.seq kind) = true
  · simp only [hcut, if_pos, true_or, iff_true]
    refine ⟨?_, by simp [Clean.depth]⟩
    rintro w others rfl -
    rw [Policy.clean, if_pos hcut]
  · rw [or_iff_right hcut]
    simp only [if_neg hcut, Clean.depth]
    constructor
    · rintro ⟨hsame, hdepth⟩
      refine ⟨by omega, fun others halike => ?_, depthItems_le.mp (by omega)⟩
      have h := hsame _ others rfl halike
      rw [Policy.clean, if_neg hcut] at h
      exact Clean.list.inj h
    · rintro ⟨hlt, hsame, hdepth⟩
      refine ⟨?_, by have := depthItems_le.mpr hdepth; omega⟩
      rintro w others rfl halike
      rw [Policy.clean, if_neg hcut, hsame others halike]

theorem keeps_dict {items : List (List Char × PyValue)} : Keeps P depth (.dict items) ↔
    P.cuts depth .dict = true ∨ depth < 2 ∧ KeepsEntries P depth MAX_ITEMS items := by
  unfold Keeps KeepsEntries
  simp only [Alike, forall_exists_index, and_imp, Policy.clean]
  by_cases hcut : P.cuts depth .dict = true
  · simp only [hcut, if_pos, true_or, iff_true]
    refine ⟨?_, by simp [Clean.depth]⟩
    rintro w others rfl -
    rw [Policy.clean, if_pos hcut]
  · rw [or_iff_right hcut]
    simp only [if_neg hcut, Clean.depth]
    constructor
    · rintro ⟨hsame, hdepth⟩
      refine ⟨by omega, fun others halike k => ?_, fun k c hget => ?_⟩
      · have h := hsame _ others rfl halike
        rw [Policy.clean, if_neg hcut] at h
        unfold Dict.get
        rw [Clean.dict.inj h]
      · exact depthEntries_le.mp (by omega) (k, c) ((Dict.mem_iff_get _ k c).mpr hget)
    · rintro ⟨hlt, hsame, hdepth⟩
      have hbound := depthEntries_le.mpr fun e he => hdepth e.1 e.2 ((Dict.mem_iff_get _ e.1 e.2).mp he)
      refine ⟨?_, by omega⟩
      rintro w others rfl halike
      have hkeys : (P.cleanEntries depth MAX_ITEMS others).map Prod.fst =
          (P.cleanEntries depth MAX_ITEMS items).map Prod.fst := by
        rw [keys_cleanEntries, keys_alike halike, keys_cleanEntries]
      rw [Policy.clean, if_neg hcut, Dict.ext_get (Dict.keys_ofList_congr hkeys) (hsame others halike)]

theorem keepsItems_cons {item : PyValue} {rest : List PyValue} : KeepsItems P depth (n + 1) (item :: rest) ↔
    Keeps P (depth + 1) item ∧ KeepsItems P depth n rest := by
  unfold Keeps KeepsItems
  simp only [Policy.cleanItems, List.forall_mem_cons]
  constructor
  · rintro ⟨hsame, hdepth, hrest⟩
    refine ⟨⟨fun w hw => ?_, hdepth⟩, fun others ho => ?_, hrest⟩
    · have h := hsame (w :: rest) (by rw [AlikeItems]; exact ⟨w, rest, rfl, hw, alikeItems_refl _ rest⟩)
      exact (List.cons.inj h).1
    · have h := hsame (item :: others)
        (by rw [AlikeItems]; exact ⟨item, others, rfl, alike_refl _ item, ho⟩)
      exact (List.cons.inj h).2
  · rintro ⟨⟨hitem, hdepth⟩, hsame, hrest⟩
    refine ⟨fun others ho => ?_, hdepth, hrest⟩
    rw [AlikeItems] at ho
    obtain ⟨item', rest', rfl, hi, hr⟩ := ho
    rw [Policy.cleanItems, hitem item' hi, hsame rest' hr]

theorem forall_alikeEntries_cons {secret : List Char → Bool} {key : List Char} {value : PyValue}
    {rest : List (List Char × PyValue)} {Q : List (List Char × PyValue) → Prop} :
    (∀ others, AlikeEntries secret ((key, value) :: rest) others → Q others) ↔
      ∀ value' rest', secret key = true ∨ Alike secret value value' → AlikeEntries secret rest rest' →
        Q ((key, value') :: rest') := by
  simp only [AlikeEntries, forall_exists_index, and_imp]
  constructor
  · intro h value' rest' hvalue hrest
    exact h _ value' rest' rfl hvalue hrest
  · rintro h others value' rest' rfl hvalue hrest
    exact h value' rest' hvalue hrest

/-- What an assignment of the value leaves, unless a later one overwrites it. -/
def Policy.assigned (P : Policy) (depth : Nat) (key : List Char) (value : PyValue) : Clean :=
  if P.secret (P.key key) then .str REDACTED else P.clean (depth + 1) value

def KeepsValue (P : Policy) (depth : Nat) (key : List Char) (value : PyValue) : Prop :=
  (∀ value', P.secret key = true ∨ Alike P.secret value value' →
    P.assigned depth key value' = P.assigned depth key value) ∧
  (P.assigned depth key value).depth ≤ 2 - (depth + 1)

theorem keepsValue_iff {key : List Char} {value : PyValue} : KeepsValue P depth key value ↔
    (P.secret key = true → P.secret (P.key key) = true) ∧
      (P.secret (P.key key) = false → Keeps P (depth + 1) value) := by
  unfold KeepsValue Policy.assigned
  cases hcut : P.secret (P.key key) with
  | true => simp [Clean.depth]
  | false =>
    simp only [Bool.false_eq_true, if_false, imp_false, true_imp_iff]
    constructor
    · rintro ⟨hsame, hdepth⟩
      refine ⟨fun hsecret => ?_, fun w hw => hsame w (.inr hw), hdepth⟩
      -- anything may stand under a key that names a secret
      have hzero := hsame (.int 0) (.inl hsecret)
      have hone := hsame (.int 1) (.inl hsecret)
      rw [← hzero, Policy.clean, Policy.clean] at hone
      cases hone
    · rintro ⟨hsecret, hsame, hdepth⟩
      exact ⟨fun w hw => hsame w (hw.resolve_left hsecret), hdepth⟩

theorem get_cleanEntries_cons {key : List Char} {value : PyValue} {rest : List (List Char × PyValue)}
    (k : List Char) : (Dict.ofList (P.cleanEntries depth (n + 1) ((key, value) :: rest))).get k =
      if P.key key = k ∧ P.key key ∉ (rest.take n).map (fun e => P.key e.1) then
        some (P.assigned depth key value)
      else (Dict.ofList (P.cleanEntries depth n rest)).get k := by
  have hcons : P.cleanEntries depth (n + 1) ((key, value) :: rest) =
      (P.key key, P.assigned depth key value) :: P.cleanEntries depth n rest := by
    rw [Policy.cleanEntries]
    rfl
  rw [hcons, ← @keys_cleanEntries P depth]
  by_cases hlater : P.key key ∈ (P.cleanEntries depth n rest).map Prod.fst
  · rw [if_neg fun h => h.2 hlater]
    exact Dict.get_ofList_cons_of_mem hlater k
  · rw [Dict.get_ofList_cons_of_notMem hlater]
    by_cases hk : P.key key = k
    · rw [if_pos hk, if_pos ⟨hk, hlater⟩]
    · rw [if_neg hk, if_neg fun h => hk h.1]

/-- Whatever is stored where a later entry overwrites it. -/
theorem keepsEntries_cons_of_mem {key : List Char} {value : PyValue} {rest : List (List Char × PyValue)}
    (hlater : P.key key ∈ (rest.take n).map fun e => P.key e.1) :
    KeepsEntries P depth (n + 1) ((key, value) :: rest) ↔ KeepsEntries P depth n rest := by
  have hself : P.secret key = true ∨ Alike P.secret value value := .inr (alike_refl _ value)
  have hother : ∀ rest', AlikeEntries P.secret rest rest' →
      P.key key ∈ (rest'.take n).map fun e => P.key e.1 := fun rest' h => by rwa [keys_alike h]
  unfold KeepsEntries
  simp only [forall_alikeEntries_cons, get_cleanEntries_cons]
  constructor
  · rintro ⟨hsame, hdepth⟩
    refine ⟨fun others ho k => ?_, fun k c hget => ?_⟩
    · have h := hsame value others hself ho k
      rwa [if_neg fun h => h.2 (hother others ho), if_neg fun h => h.2 hlater] at h
    · exact hdepth k c (by rwa [if_neg fun h => h.2 hlater])
  · rintro ⟨hsame, hdepth⟩
    refine ⟨fun value' others _ ho k => ?_, fun k c hget => ?_⟩
    · rw [if_neg fun h => h.2 (hother others ho), if_neg fun h => h.2 hlater]
      exact hsame others ho k
    · rw [if_neg fun h => h.2 hlater] at hget
      exact hdepth k c hget

theorem keepsEntries_cons_of_notMem {key : List Char} {value : PyValue} {rest : List (List Char × PyValue)}
    (hlast : P.key key ∉ (rest.take n).map fun e => P.key e.1) :
    KeepsEntries P depth (n + 1) ((key, value) :: rest) ↔
      KeepsValue P depth key value ∧ KeepsEntries P depth n rest := by
  have hother : ∀ rest', AlikeEntries P.secret rest rest' →
      P.key key ∉ (rest'.take n).map fun e => P.key e.1 := fun rest' h => by rwa [keys_alike h]
  -- the rest leaves nothing under the key
  have hnone : ∀ rest', AlikeEntries P.secret rest rest' →
      (Dict.ofList (P.cleanEntries depth n rest')).get (P.key key) = none := by
    intro rest' h
    rw [Dict.get_eq_none, Dict.mem_keys_ofList, keys_cleanEntries]
    exact hother rest' h
  have hrefl := alikeEntries_refl P.secret rest
  unfold KeepsEntries
  simp only [forall_alikeEntries_cons, get_cleanEntries_cons]
  constructor
  · rintro ⟨hsame, hdepth⟩
    refine ⟨⟨fun value' hv => ?_, ?_⟩, fun others ho k => ?_, fun k c hget => ?_⟩
    · have h := hsame value' rest hv hrefl (P.key key)
      rw [if_pos ⟨rfl, hlast⟩, if_pos ⟨rfl, hlast⟩] at h
      exact Option.some.inj h
    · exact hdepth (P.key key) _ (if_pos ⟨rfl, hlast⟩)
    · by_cases hk : P.key key = k
      · rw [← hk, hnone others ho, hnone rest hrefl]
      · have h := hsame value others (.inr (alike_refl _ value)) ho k
        rwa [if_neg fun h => hk h.1, if_neg fun h => hk h.1] at h
    · refine hdepth k c ?_
      rw [if_neg fun h => ?_]
      · exact hget
      · rw [← h.1, hnone rest hrefl] at hget
        cases hget
  · rintro ⟨⟨hvalue, hvdepth⟩, hsame, hdepth⟩
    refine ⟨fun value' others hv ho k => ?_, fun k c hget => ?_⟩
    · by_cases hk : P.key key = k
      · rw [if_pos ⟨hk, hother others ho⟩, if_pos ⟨hk, hlast⟩, hvalue value' hv]
      · rw [if_neg fun h => hk h.1, if_neg fun h => hk h.1]
        exact hsame others ho k
    · split at hget
      · rw [← Option.some.inj hget]
        exact hvdepth
      · exact hdepth k c hget

theorem keepsEntries_cons {key : List Char} {value : PyValue} {rest : List (List Char × PyValue)} :
    KeepsEntries P depth (n + 1) ((key, value) :: rest) ↔
      (P.key key ∈ (rest.take n).map (fun e => P.key e.1) ∨ KeepsValue P depth key value) ∧
      KeepsEntries P depth n rest := by
  by_cases hlater : P.key key ∈ (rest.take n).map fun e => P.key e.1
  · rw [keepsEntries_cons_of_mem hlater]
    exact (and_iff_right (.inl hlater)).symm
  · rw [keepsEntries_cons_of_notMem hlater, or_iff_right hlater]

end

mutual

/-- The walk hides and bounds from a depth on exactly what is covered there. -/
theorem keeps_iff {P : Policy} : ∀ (v : PyValue) (depth : Nat), Keeps P depth v ↔ Covered P depth v
  | .dict items, depth => by rw [keeps_dict, Covered, keepsEntries_iff items depth MAX_ITEMS]
  | .seq kind items, depth => by rw [keeps_seq, Covered, keepsItems_iff items depth MAX_ITEMS]
  | .none, depth => by simp [Keeps, Alike, Covered, Policy.clean, Clean.depth]
  | .bool _, depth => by simp [Keeps, Alike, Covered, Policy.clean, Clean.depth]
  | .int _, depth => by simp [Keeps, Alike, Covered, Policy.clean, Clean.depth]
  | .float _, depth => by simp [Keeps, Alike, Covered, Policy.clean, Clean.depth]
  | .str _, depth => by simp [Keeps, Alike, Covered, Policy.clean, Clean.depth]
  | .other s, depth => by
    simp only [Keeps, Alike, Covered, forall_eq, true_and, iff_true]
    rw [Policy.clean]
    split <;> simp [Clean.depth]

theorem keepsEntries_iff {P : Policy} : ∀ (items : List (List Char × PyValue)) (depth n : Nat),
    KeepsEntries P depth n items ↔ CoveredEntries P depth n items
  | items, depth, 0 => by simp [KeepsEntries, CoveredEntries, Policy.cleanEntries, Dict.ofList]
  | [], depth, n + 1 => by simp [KeepsEntries, CoveredEntries, AlikeEntries, Policy.cleanEntries, Dict.ofList]
  | (key, value) :: rest, depth, n + 1 => by
    rw [keepsEntries_cons, keepsValue_iff, keeps_iff value (depth + 1), keepsEntries_iff rest depth n,
      CoveredEntries]

theorem keepsItems_iff {P : Policy} : ∀ (items : List PyValue) (depth n : Nat),
    KeepsItems P depth n items ↔ CoveredItems P depth n items
  | items, depth, 0 => by simp [KeepsItems, CoveredItems, Policy.cleanItems]
  | [], depth, n + 1 => by simp [KeepsItems, CoveredItems, AlikeItems, Policy.cleanItems]
  | item :: rest, depth, n + 1 => by
    rw [keepsItems_cons, keeps_iff item (depth + 1), keepsItems_iff rest depth n, CoveredItems]

end

/-! ## Sizes -/

/-- A policy cuts what it returns, and its marks are short. -/
structure Policy.Cuts (P : Policy) (limit : Nat) : Prop where
  key : ∀ k, (P.key k).length ≤ limit
  str : ∀ s, (P.str s).length ≤ limit
  other : ∀ s, (P.other s).length ≤ limit
  redacted : REDACTED.length ≤ limit
  truncated : TRUNCATED.length ≤ limit

theorem length_cleanEntries {P : Policy} {depth : Nat} : ∀ {n : Nat} {items : List (List Char × PyValue)},
    (P.cleanEntries depth n items).length ≤ n
  | 0, _ => by simp [Policy.cleanEntries]
  | _ + 1, [] => by simp [Policy.cleanEntries]
  | n + 1, (key, value) :: rest => by
    rw [Policy.cleanEntries, List.length_cons]
    exact Nat.succ_le_succ length_cleanEntries

theorem length_cleanItems {P : Policy} {depth : Nat} : ∀ {n : Nat} {items : List PyValue},
    (P.cleanItems depth n items).length ≤ n
  | 0, _ => by simp [Policy.cleanItems]
  | _ + 1, [] => by simp [Policy.cleanItems]
  | n + 1, item :: rest => by
    rw [Policy.cleanItems, List.length_cons]
    exact Nat.succ_le_succ length_cleanItems

mutual

/-- Of any value. -/
theorem sized_clean {P : Policy} {limit : Nat} (h : P.Cuts limit) :
    ∀ (v : PyValue) (depth : Nat), (P.clean depth v).Sized limit
  | .dict items, depth => by
    rw [Policy.clean]
    split
    · exact h.truncated
    · rw [Clean.Sized, sizedEntries_iff]
      exact ⟨(Dict.length_ofList_le _).trans length_cleanEntries, fun e he =>
        sized_cleanEntries h items depth MAX_ITEMS e (Dict.mem_of_mem_ofList he)⟩
  | .seq kind items, depth => by
    rw [Policy.clean]
    split
    · exact h.truncated
    · rw [Clean.Sized, sizedItems_iff]
      exact ⟨length_cleanItems, sized_cleanItems h items depth MAX_ITEMS⟩
  | .other s, depth => by
    rw [Policy.clean]
    split
    · exact h.truncated
    · exact h.other s
  | .str s, _ => h.str s
  | .none, _ => trivial
  | .bool _, _ => trivial
  | .int _, _ => trivial
  | .float _, _ => trivial

theorem sized_cleanEntries {P : Policy} {limit : Nat} (h : P.Cuts limit) :
    ∀ (items : List (List Char × PyValue)) (depth n : Nat), ∀ e ∈ P.cleanEntries depth n items,
      e.1.length ≤ limit ∧ e.2.Sized limit
  | items, depth, 0 => by simp [Policy.cleanEntries]
  | [], depth, n + 1 => by simp [Policy.cleanEntries]
  | (key, value) :: rest, depth, n + 1 => by
    rw [Policy.cleanEntries, List.forall_mem_cons]
    refine ⟨⟨h.key key, ?_⟩, sized_cleanEntries h rest depth n⟩
    show Clean.Sized limit (if P.secret (P.key key) then _ else _)
    split
    · exact h.redacted
    · exact sized_clean h value (depth + 1)

theorem sized_cleanItems {P : Policy} {limit : Nat} (h : P.Cuts limit) :
    ∀ (items : List PyValue) (depth n : Nat), ∀ c ∈ P.cleanItems depth n items, c.Sized limit
  | items, depth, 0 => by simp [Policy.cleanItems]
  | [], depth, n + 1 => by simp [Policy.cleanItems]
  | item :: rest, depth, n + 1 => by
    rw [Policy.cleanItems, List.forall_mem_cons]
    exact ⟨sized_clean h item (depth + 1), sized_cleanItems h rest depth n⟩

end

/-- A masked match keeps its head and gets ten characters. -/
theorem length_masked {a : Regex.Re Char} {s t : List Char} {g : Regex.Groups Char}
    (h : (g, t) ∈ Regex.run (.group 1 a ++ secretRun) s) :
    t.length < s.length ∧ (masked g).length ≤ 10 * (s.length - t.length) := by
  obtain ⟨g₁, u, g₂, ha, hb, rfl⟩ := Regex.mem_run_seq.mp h
  obtain ⟨xs, g', rfl, -, rfl⟩ := (Regex.mem_run_group (Regex.run_suffix a s)).mp ha
  obtain ⟨-, ys, hne, -, rfl⟩ := Regex.mem_run_some.mp hb
  have hpos := List.length_pos_iff.mpr hne
  have hget : Regex.Groups.get (((1, xs) :: g') ++ g₂) 1 = some xs := rfl
  have hmark : REDACTED.length = 10 := by decide
  have hmasked : (masked (((1, xs) :: g') ++ g₂)).length = xs.length + 10 := by
    rw [masked, hget, Option.getD_some, List.length_append, hmark]
  rw [hmasked]
  simp only [List.length_append]
  omega

theorem length_sub_masked {a : Regex.Re Char} {starts : Option Char → Bool} {n : Nat} {s : List Char}
    (h : s.length ≤ n) : (Regex.sub (.group 1 a ++ secretRun) starts masked s).length ≤ 10 * n := by
  have hsub : (Regex.sub (.group 1 a ++ secretRun) starts masked s).length ≤ 10 * s.length := by
    refine Regex.length_sub_le (by omega) ?_ s
    intro s g t hrun
    exact length_masked hrun
  omega

theorem length_redactString (lib : PyText) (s : List Char) : (redactString lib s).length ≤ 100000 := by
  have htake : (s.take MAX_STRING_LENGTH).length ≤ 1000 := List.length_take_le ..
  unfold redactString SENSITIVE_VALUE_RE BEARER_RE
  exact length_sub_masked (n := 10000) (length_sub_masked (n := 1000) htake)

theorem auditPolicy_cuts (lib : PyText) : (auditPolicy lib).Cuts MAX_AUDIT_STRING_LENGTH where
  key _ := List.length_take_le ..
  str _ := List.length_take_le ..
  other _ := List.length_take_le ..
  redacted := by decide
  truncated := by decide

theorem logPolicy_cuts (lib : PyText) : (logPolicy lib).Cuts 100000 where
  key _ := (List.length_take_le ..).trans (by decide)
  str := length_redactString lib
  other := length_redactString lib
  redacted := by decide
  truncated := by decide

/-! ## Both sanitisers -/

theorem redacts_iff_of_cuts {P : Policy} {limit : Nat} (h : P.Cuts limit) (v : PyValue) :
    Redacts P limit v ↔ Covered P 0 v := by
  rw [← keeps_iff]
  exact ⟨fun hr => ⟨hr.hidden, hr.shallow⟩, fun hk => ⟨hk.1, hk.2, sized_clean h v 0⟩⟩

/-- Each sanitiser hides what is under keys that name a secret and bounds its
result exactly for the values its policy covers. -/
theorem redacts_iff (lib : PyText) (v : PyValue) :
    (Redacts (auditPolicy lib) MAX_AUDIT_STRING_LENGTH v ↔ Covered (auditPolicy lib) 0 v) ∧
      (Redacts (logPolicy lib) 100000 v ↔ Covered (logPolicy lib) 0 v) :=
  ⟨redacts_iff_of_cuts (auditPolicy_cuts lib) v, redacts_iff_of_cuts (logPolicy_cuts lib) v⟩

/-! ## What they do not cover -/

/-- Python's tables on ASCII. -/
def ascii : PyText where
  casefold s := s.map Char.toLower
  isalnum := Char.isAlphanum

/-- `{"x" * n + "token": secret}` -/
def underLongKey (n : Nat) (secret : Int) : PyValue :=
  .dict [(List.replicate n 'x' ++ "token".toList, .int secret)]

/-- Sets in sets. -/
def frozensets : Nat → PyValue
  | 0 => .int 0
  | n + 1 => .seq .frozenset [frozensets n]

theorem depth_frozensets (lib : PyText) : ∀ n depth : Nat,
    ((auditPolicy lib).clean depth (frozensets n)).depth = n
  | 0, _ => rfl
  | n + 1, depth => by
    have hcut : (auditPolicy lib).cuts depth (.seq .frozenset) = false := by simp [auditPolicy]
    rw [frozensets, Policy.clean, hcut, if_neg Bool.false_ne_true, Policy.cleanItems.eq_def]
    simp [MAX_ITEMS, Clean.depth, depthItems, Policy.cleanItems, depth_frozensets lib n]

/-- What is stored under one key that names a secret shows, of whatever policy
loses the name when it cuts the key. -/
theorem shows_of_cut {P : Policy} {key : List Char} (hdict : P.cuts 0 .dict = false)
    (hkey : P.secret key = true) (hcut : P.secret (P.key key) = false) :
    Alike P.secret (.dict [(key, .int 0)]) (.dict [(key, .int 1)]) ∧
      P.clean 0 (.dict [(key, .int 0)]) ≠ P.clean 0 (.dict [(key, .int 1)]) := by
  refine ⟨?_, ?_⟩
  · simp [Alike, AlikeEntries, hkey]
  · simp [Policy.clean, Policy.cleanEntries, MAX_ITEMS, hdict, hcut, Dict.ofList, Dict.set, Dict.put, Dict.empty]

theorem secrets_shown :
    (Alike (auditPolicy ascii).secret (underLongKey 1000 0) (underLongKey 1000 1) ∧
      redactAuditValue ascii (underLongKey 1000 0) ≠ redactAuditValue ascii (underLongKey 1000 1)) ∧
    (Alike (logPolicy ascii).secret (underLongKey 100 0) (underLongKey 100 1) ∧
      sanitize ascii (underLongKey 100 0) ≠ sanitize ascii (underLongKey 100 1)) ∧
    ∀ n, ∃ v, n < (redactAuditValue ascii v).depth := by
  refine ⟨shows_of_cut rfl ?_ ?_, shows_of_cut rfl ?_ ?_, fun n => ⟨frozensets (n + 1), ?_⟩⟩
  · decide +kernel
  · decide +kernel
  · decide +kernel
  · decide +kernel
  · rw [redactAuditValue, depth_frozensets]
    omega

end BidScope.L12
