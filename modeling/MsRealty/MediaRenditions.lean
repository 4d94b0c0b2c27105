import MsRealty.UntypedValues

/-!
# The renditions of a picture that are shown

`src/domain/media-rendition.ts`: what is read of the metadata of a picture's derivatives, and
which of them are published. The metadata are untrusted: any value at all, in the asset and in
the manifest of a publication. The parser takes a list or refuses it as a whole, and an item
that it took carries the descriptor read from it, so that all that follows is about
descriptors.
-/

namespace MediaRendition

open CanonicalText Untyped

/-! ## Descriptors -/

/-- `MediaRendition`. -/
structure Descriptor where
  key : JsString
  sha256 : JsString
  contentType : JsString
  width : ℤ
  height : ℤ
  byteSize : ℤ

/-- `/^[a-f0-9]{64}$/.test(text)`. -/
def isDigest (text : JsString) : Bool :=
  text.length = 64 ∧ text.all fun u => unit 'a' ≤ u ∧ u ≤ unit 'f' ∨ unit '0' ≤ u ∧ u ≤ unit '9'

/-- **The key of a rendition**: it names the asset and the digest. -/
def renditionKey (assetId sha256 : JsString) : JsString :=
  units "derivatives/" ++ assetId ++ units "/" ++ sha256 ++ units ".webp"

/-- What an item has to be for its asset, whatever the other items. -/
def Descriptor.Eligible (assetId : JsString) (r : Descriptor) : Prop :=
  isDigest r.sha256 = true ∧ r.key = renditionKey assetId r.sha256 ∧
    r.contentType = units "image/webp" ∧ (1 ≤ r.width ∧ r.width ≤ 2400) ∧
    (1 ≤ r.height ∧ r.height ≤ 2400) ∧ 1 ≤ r.byteSize

instance (assetId : JsString) (r : Descriptor) : Decidable (r.Eligible assetId) :=
  inferInstanceAs (Decidable (_ ∧ _ ∧ _ ∧ _ ∧ _ ∧ _))

/-- The members of an item that a descriptor has, if each is of its type. -/
def descriptor? (members : List (JsString × Value)) : Option Descriptor := do
  let sha256 ← (member members "sha256").string?
  let key ← (member members "key").string?
  let contentType ← (member members "contentType").string?
  let width ← (member members "width").safeInteger?
  let height ← (member members "height").safeInteger?
  let byteSize ← (member members "byteSize").safeInteger?
  pure { key, sha256, contentType, width, height, byteSize }

/-- **The checks of one item.** An array is an object without these members. -/
def checkItem (assetId : JsString) : Value → Option Descriptor
  | .object members => (descriptor? members).filter fun r => r.Eligible assetId
  | _ => none

/-- **An item that the parser took**: the value as it stands, with the descriptor that is read
from it. -/
structure Item (assetId : JsString) where
  value : Value
  descriptor : Descriptor
  read : checkItem assetId value = some descriptor

/-! ## The parser -/

/-- The loop over the items, with the widths and the digests of those before. -/
def parseItems (assetId : JsString) (widths : List ℤ) (digests : List JsString) :
    List Value → Option (List (Item assetId))
  | [] => some []
  | value :: values =>
    match h : checkItem assetId value with
    | none => none
    | some r =>
      if widths.contains r.width || digests.contains r.sha256 then none
      else (parseItems assetId (r.width :: widths) (r.sha256 :: digests) values).map
        (⟨value, r, h⟩ :: ·)

/-- **`parseMediaRenditions`.** -/
def parseMediaRenditions (value : Value) (assetId : JsString) : Option (List (Item assetId)) :=
  match value with
  | .undefined => some []
  | .array values => if values.length > 4 then none else parseItems assetId [] [] values
  | _ => none

/-! ## Publication -/

/-- The comparison of an item with a stored one, field by field. -/
def sameFields (item stored : Descriptor) : Bool :=
  item.key = stored.key && item.sha256 = stored.sha256 &&
    item.contentType = stored.contentType && item.width = stored.width &&
    item.height = stored.height && item.byteSize = stored.byteSize

/-- **`publishedMediaRenditions`.** -/
def publishedMediaRenditions (current snapshot : Value) (assetId : JsString) :
    Option (List (Item assetId)) :=
  match parseMediaRenditions current assetId, parseMediaRenditions snapshot assetId with
  | some asset, some manifest =>
    some ((manifest.filter fun item =>
      asset.any fun stored => sameFields item.descriptor stored.descriptor).mergeSort
        fun a b => a.descriptor.width - b.descriptor.width ≤ 0)
  | _, _ => none

theorem sameFields_iff {item stored : Descriptor} :
    sameFields item stored = true ↔ item = stored := by
  cases item
  cases stored
  simp [sameFields, and_assoc]

/-! ## What the parser takes -/

variable {assetId : JsString}

/-- The descriptor of an item is one for the asset. -/
theorem Item.eligible (item : Item assetId) : item.descriptor.Eligible assetId := by
  obtain ⟨value, r, h⟩ := item
  cases value with
  | object members => exact of_decide_eq_true (Option.filter_eq_some_iff.mp h).2
  | _ => cases h

/-- An item is the value that was read. -/
theorem Item.ext_value {a b : Item assetId} (h : a.value = b.value) : a = b := by
  obtain ⟨value, r, hr⟩ := a
  obtain ⟨value', r', hr'⟩ := b
  cases h
  rw [hr] at hr'
  cases hr'
  rfl

theorem parseItems_cons_none {value : Value} (h : checkItem assetId value = none)
    (widths : List ℤ) (digests : List JsString) (values : List Value) :
    parseItems assetId widths digests (value :: values) = none := by
  rw [parseItems]
  split
  · rfl
  · rename_i hr
    rw [h] at hr
    cases hr

theorem parseItems_cons (item : Item assetId) (widths : List ℤ) (digests : List JsString)
    (values : List Value) :
    parseItems assetId widths digests (item.value :: values) =
      if item.descriptor.width ∈ widths ∨ item.descriptor.sha256 ∈ digests then none
      else (parseItems assetId (item.descriptor.width :: widths)
        (item.descriptor.sha256 :: digests) values).map (item :: ·) := by
  obtain ⟨value, r, hread⟩ := item
  rw [parseItems]
  split
  · rename_i hr
    rw [hread] at hr
    cases hr
  · rename_i r' hr
    rw [hread] at hr
    cases hr
    simp only [Bool.or_eq_true, List.contains_iff_mem]

/-- **The items that the loop takes** are the values in their order, with widths and digests
that differ from each other and from those before. -/
theorem parseItems_eq_some_iff {values : List Value} {items : List (Item assetId)}
    {widths : List ℤ} {digests : List JsString} :
    parseItems assetId widths digests values = some items ↔
      items.map Item.value = values ∧
        ((items.map fun item => item.descriptor.width).Nodup ∧
          ∀ item ∈ items, item.descriptor.width ∉ widths) ∧
        (items.map fun item => item.descriptor.sha256).Nodup ∧
          ∀ item ∈ items, item.descriptor.sha256 ∉ digests := by
  induction values generalizing items widths digests with
  | nil =>
    rw [parseItems, List.map_eq_nil_iff]
    constructor
    · rintro h
      cases h
      simp
    · rintro ⟨rfl, -⟩
      rfl
  | cons value values ih =>
    cases hread : checkItem assetId value with
    | none =>
      rw [parseItems_cons_none hread]
      constructor
      · intro h
        cases h
      · rintro ⟨hvalues, -⟩
        obtain ⟨item, rest, rfl, rfl, -⟩ := List.map_eq_cons_iff.mp hvalues
        rw [item.read] at hread
        cases hread
    | some r =>
      rw [parseItems_cons ⟨value, r, hread⟩]
      constructor
      · intro h
        split_ifs at h with hseen
        obtain ⟨hwidth, hdigest⟩ := not_or.mp hseen
        obtain ⟨rest, hrest, rfl⟩ := Option.map_eq_some_iff.mp h
        obtain ⟨rfl, ⟨hwidths, hneww⟩, hdigests, hnewd⟩ := ih.mp hrest
        simp only [List.map_cons, List.nodup_cons, List.forall_mem_cons, List.mem_map, not_exists,
          not_and, true_and]
        simp only [List.mem_cons, not_or] at hneww hnewd
        exact ⟨⟨⟨fun item hitem => (hneww item hitem).1, hwidths⟩, hwidth,
            fun item hitem => (hneww item hitem).2⟩,
          ⟨fun item hitem => (hnewd item hitem).1, hdigests⟩, hdigest,
            fun item hitem => (hnewd item hitem).2⟩
      · rintro ⟨hvalues, ⟨hwidths, hneww⟩, hdigests, hnewd⟩
        obtain ⟨item, rest, rfl, hvalue, hrest⟩ := List.map_eq_cons_iff.mp hvalues
        obtain rfl : item = ⟨value, r, hread⟩ := Item.ext_value hvalue
        rw [List.forall_mem_cons] at hneww hnewd
        rw [List.map_cons, List.nodup_cons] at hwidths hdigests
        rw [if_neg (not_or.mpr ⟨hneww.1, hnewd.1⟩), ih.mpr ⟨hrest, ⟨hwidths.2, ?_⟩, hdigests.2, ?_⟩]
        · rfl
        · intro other hother
          rw [List.mem_cons, not_or]
          exact ⟨fun heq => hwidths.1 (heq ▸ List.mem_map_of_mem hother), hneww.2 other hother⟩
        · intro other hother
          rw [List.mem_cons, not_or]
          exact ⟨fun heq => hdigests.1 (heq ▸ List.mem_map_of_mem hother), hnewd.2 other hother⟩

/-- **`parseMediaRenditions` takes** a value that is missing, or a list of at most four
eligible items whose widths and digests differ. -/
theorem parseMediaRenditions_eq_some_iff {value : Value} {items : List (Item assetId)} :
    parseMediaRenditions value assetId = some items ↔
      (value = .undefined ∧ items = [] ∨
        value = .array (items.map Item.value) ∧ items.length ≤ 4) ∧
      (items.map fun item => item.descriptor.width).Nodup ∧
      (items.map fun item => item.descriptor.sha256).Nodup := by
  cases value with
  | undefined =>
    constructor
    · intro h
      cases h
      simp
    · rintro ⟨⟨-, rfl⟩ | ⟨h, -⟩, -⟩
      · rfl
      · cases h
  | array values =>
    simp only [parseMediaRenditions, reduceCtorEq, false_and, false_or, Value.array.injEq]
    constructor
    · intro h
      split_ifs at h with hlength
      obtain ⟨rfl, ⟨hwidths, -⟩, hdigests, -⟩ := parseItems_eq_some_iff.mp h
      rw [List.length_map] at hlength
      exact ⟨⟨rfl, by omega⟩, hwidths, hdigests⟩
    · rintro ⟨⟨rfl, hlength⟩, hwidths, hdigests⟩
      rw [if_neg (by rw [List.length_map]; omega), parseItems_eq_some_iff]
      exact ⟨rfl, ⟨hwidths, fun _ _ => List.not_mem_nil⟩, hdigests, fun _ _ => List.not_mem_nil⟩
  | _ => simp [parseMediaRenditions]

/-- **A key names one asset**: digests have one length. -/
theorem renditionKey_inj {assetId other sha256 digest : JsString} (hsha : isDigest sha256 = true)
    (hdigest : isDigest digest = true)
    (h : renditionKey assetId sha256 = renditionKey other digest) :
    assetId = other ∧ sha256 = digest := by
  have hlength : sha256.length = digest.length := by
    simp only [isDigest, decide_eq_true_eq] at hsha hdigest
    rw [hsha.1, hdigest.1]
  -- the suffix and the digest are of one length, so the texts before them are the same
  obtain ⟨hpart, -⟩ := List.append_inj' h rfl
  obtain ⟨hstart, rfl⟩ := List.append_inj' hpart hlength
  obtain ⟨hasset, -⟩ := List.append_inj' hstart rfl
  exact ⟨List.append_cancel_left hasset, rfl⟩

/-! ## What is published -/

/-- The items of the manifest that the asset has too, in the order of their widths. -/
def shared (asset manifest : List (Item assetId)) : List (Item assetId) :=
  (manifest.filter fun item =>
    asset.any fun stored => sameFields item.descriptor stored.descriptor).mergeSort
      fun a b => a.descriptor.width - b.descriptor.width ≤ 0

theorem mem_shared {asset manifest : List (Item assetId)} {item : Item assetId} :
    item ∈ shared asset manifest ↔
      item ∈ manifest ∧ ∃ stored ∈ asset, stored.descriptor = item.descriptor := by
  rw [shared, List.mem_mergeSort, List.mem_filter, List.any_eq_true]
  simp only [sameFields_iff]
  exact and_congr_right fun _ => exists_congr fun _ => and_congr_right fun _ => eq_comm

/-- What differs among all items of the manifest differs among those that are shared. -/
theorem nodup_shared {α : Type*} (f : Item assetId → α) (asset : List (Item assetId))
    {manifest : List (Item assetId)} (h : (manifest.map f).Nodup) :
    ((shared asset manifest).map f).Nodup := by
  have hkept := h.sublist ((List.filter_sublist (p := fun item : Item assetId =>
    asset.any fun stored => sameFields item.descriptor stored.descriptor)).map f)
  exact ((List.mergeSort_perm _ _).map f).nodup_iff.mpr hkept

/-- The shared items are sorted by their widths, no two of which are the same. -/
theorem widths_shared (asset : List (Item assetId)) {manifest : List (Item assetId)}
    (h : (manifest.map fun item => item.descriptor.width).Nodup) :
    (shared asset manifest).Pairwise fun a b => a.descriptor.width < b.descriptor.width := by
  have hsorted : (shared asset manifest).Pairwise fun a b =>
      decide (a.descriptor.width - b.descriptor.width ≤ 0) = true := by
    refine List.pairwise_mergeSort (fun a b c hab hbc => ?_) (fun a b => ?_) _
    · simp only [decide_eq_true_eq] at hab hbc ⊢
      omega
    · simp only [Bool.or_eq_true, decide_eq_true_eq]
      omega
  have hdistinct := List.pairwise_map.mp (nodup_shared _ asset h)
  refine (hsorted.and hdistinct).imp fun ⟨hle, hne⟩ => ?_
  exact lt_of_le_of_ne (by simpa using hle) hne

/-- **The renditions that are published**: none when a list is refused; otherwise those of the
manifest whose descriptor the asset has too, each once and in the order of their widths, with
keys of this asset and of no other. -/
structure Published (current snapshot : Value) (assetId : JsString)
    (result : Option (List (Item assetId))) : Prop where
  rejected : result = none ↔
    parseMediaRenditions current assetId = none ∨ parseMediaRenditions snapshot assetId = none
  exact : ∀ items, result = some items → ∃ asset manifest,
    parseMediaRenditions current assetId = some asset ∧
      parseMediaRenditions snapshot assetId = some manifest ∧
      (∀ item, item ∈ items ↔
        item ∈ manifest ∧ ∃ stored ∈ asset, stored.descriptor = item.descriptor) ∧
      ∀ r : Descriptor, r ∈ items.map Item.descriptor ↔
        r ∈ asset.map Item.descriptor ∧ r ∈ manifest.map Item.descriptor
  widths : ∀ items, result = some items →
    items.Pairwise fun a b => a.descriptor.width < b.descriptor.width
  digests : ∀ items, result = some items →
    (items.map fun item => item.descriptor.sha256).Nodup
  keys : ∀ items, result = some items → ∀ item ∈ items,
    item.descriptor.key = renditionKey assetId item.descriptor.sha256 ∧
      ∀ other digest, isDigest digest = true →
        item.descriptor.key = renditionKey other digest → other = assetId

/-- **Only exact descriptors in both lists are published**, whatever the two values are. -/
theorem publishedMediaRenditions_exact (current snapshot : Value) (assetId : JsString) :
    Published current snapshot assetId (publishedMediaRenditions current snapshot assetId) := by
  -- the list of the asset is read first, then that of the manifest
  cases hasset : parseMediaRenditions current assetId with
  | none =>
    have hnone : publishedMediaRenditions current snapshot assetId = none := by
      simp only [publishedMediaRenditions, hasset]
    rw [hnone]
    exact ⟨by simp [hasset], nofun, nofun, nofun, nofun⟩
  | some asset =>
    cases hmanifest : parseMediaRenditions snapshot assetId with
    | none =>
      have hnone : publishedMediaRenditions current snapshot assetId = none := by
        simp only [publishedMediaRenditions, hasset, hmanifest]
      rw [hnone]
      exact ⟨by simp [hmanifest], nofun, nofun, nofun, nofun⟩
    | some manifest =>
      have hsome : publishedMediaRenditions current snapshot assetId =
          some (shared asset manifest) := by
        simp only [publishedMediaRenditions, hasset, hmanifest, shared]
      obtain ⟨-, hwidths, hdigests⟩ := parseMediaRenditions_eq_some_iff.mp hmanifest
      rw [hsome]
      refine ⟨by simp [hasset, hmanifest], ?_, ?_, ?_, ?_⟩
      · rintro items ⟨⟩
        refine ⟨asset, manifest, hasset, hmanifest, fun item => mem_shared, fun r => ?_⟩
        simp only [List.mem_map, mem_shared]
        constructor
        · rintro ⟨item, ⟨hitem, stored, hstored, heq⟩, rfl⟩
          exact ⟨⟨stored, hstored, heq⟩, item, hitem, rfl⟩
        · rintro ⟨⟨stored, hstored, heq⟩, item, hitem, rfl⟩
          exact ⟨item, ⟨hitem, stored, hstored, heq⟩, rfl⟩
      · rintro items ⟨⟩
        exact widths_shared asset hwidths
      · rintro items ⟨⟩
        exact nodup_shared _ asset hdigests
      · rintro items ⟨⟩ item -
        obtain ⟨hdigest, hkey, -⟩ := item.eligible
        refine ⟨hkey, fun other digest hother h => ?_⟩
        exact (renditionKey_inj hdigest hother (hkey.symm.trans h)).1.symm

end MediaRendition
