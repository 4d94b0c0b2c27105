import Mathlib.Data.List.Sort
import MsRealty.Errors
import MsRealty.SearchFilter
import MsRealty.Unicode

/-!
# Search input

What a search is asked with, and the filters as applied
(`src/server/search/search.ts`). The shape of the input – which fields there
are, whole numbers, known enumeration values – is in the type `SearchInput`;
the bounds and formats are the *issues* of an input, each with the path of its
field and its code. An input without issues is normalized: choices are sorted
and free of duplicates, defaults are filled in.
-/

namespace Search

/-! ## Text -/

/-- The length of a string in UTF-16 code units. -/
def utf16Length (s : List Char) : ℕ := (Utf16.encode s).length

/-- The characters `String.prototype.trim` removes. -/
def isSpace (c : Char) : Bool :=
  c.val ∈ [0x09, 0x0a, 0x0b, 0x0c, 0x0d, 0x20, 0xa0, 0x1680, 0x2028, 0x2029, 0x202f,
    0x205f, 0x3000, 0xfeff] || 0x2000 ≤ c.val && c.val ≤ 0x200a

/-- `String.prototype.trim`. -/
def trim (s : String) : String :=
  String.ofList (((s.toList.dropWhile isSpace).reverse.dropWhile isSpace).reverse)

/-- Control characters, which no useful search contains. -/
def containsSearchControl (value : String) : Bool :=
  value.toList.any (fun c => c.val ≤ 0x1f || 0x7f ≤ c.val && c.val ≤ 0x9f)

/-- A hexadecimal digit of either case. -/
def isHexDigit (c : Char) : Bool :=
  c.isDigit || 'a' ≤ c && c ≤ 'f' || 'A' ≤ c && c ≤ 'F'

/-- The text of a UUID: hexadecimal digits in groups of 8, 4, 4, 4 and 12, the
third starting with a version and the fourth with the variant; or the nil or
the max UUID. -/
def isUuid (s : List Char) : Bool :=
  s.length = 36
      && s.zipIdx.all (fun p => if p.snd ∈ [8, 13, 18, 23] then p.fst = '-' else isHexDigit p.fst)
      && s[14]?.all (fun c => '1' ≤ c && c ≤ '8')
      && s[19]?.all (fun c => c ∈ ['8', '9', 'a', 'b', 'A', 'B'])
    || s = "00000000-0000-0000-0000-000000000000".toList
    || s = "ffffffff-ffff-ffff-ffff-ffffffffffff".toList

/-- A feature key of a search. -/
def isFeatureKey (s : List Char) : Bool :=
  1 ≤ s.length && s.length ≤ 40 && s.all (fun c => c.isLower || c.isDigit || c = '_')

/-! ## Input -/

/-- The orders of a result. -/
inductive SearchSort where
  | relevance
  | newest
  | priceAsc
  | priceDesc

/-- The name of an order. -/
def SearchSort.name : SearchSort → String
  | .relevance => "relevance"
  | .newest => "newest"
  | .priceAsc => "price_asc"
  | .priceDesc => "price_desc"

/-- What a search is asked with. -/
structure SearchInput where
  locale : PublicLocale
  purpose : ListingPurpose
  propertyTypes : Option (List PropertyType)
  placeIds : Option (List String)
  availability : Option (List CommercialState)
  price : Option PriceRange
  bedrooms : Option (Range ℤ)
  rooms : Option (Range ℤ)
  area : Option AreaRange
  mustHave : Option (List String)
  includeUnconfirmed : Option Bool
  q : Option String
  sort : Option SearchSort
  pageSize : Option ℤ
  cursor : Option String

/-- **The filters as applied**, defaults included. -/
structure NormalizedSearch where
  locale : PublicLocale
  criteria : SearchCriteria
  q : Option String
  sort : SearchSort
  pageSize : ℕ
  cursor : Option String

/-- The listings on a page, if the search does not say. -/
def defaultPageSize : ℕ := 24

/-- The most listings on a page. -/
def maxPageSize : ℕ := 60

/-- The commercial states that are still an offer. -/
def offeredStates : List CommercialState :=
  [.available, .confirmationRequired, .negotiating, .reservedWithRecordedBasis]

/-! ## Issues -/

/-- An issue of an input: the path of the field and the code. -/
abbrev Issue := String × String

/-- The issue of a number at a path: it must lie between two bounds. -/
def boundIssues {α : Type*} [LT α] [DecidableLT α] (low high : α) (path : String)
    (n : Option α) : List Issue :=
  match n with
  | none => []
  | some n =>
    (if n < low then [(path, "too_small")] else [])
      ++ (if high < n then [(path, "too_big")] else [])

/-- The issues of a range: both ends are in bounds, and in order. -/
def rangeIssues {α : Type*} [LT α] [DecidableLT α] (low high : α) (path : String)
    (range : Option (Range α)) : List Issue :=
  match range with
  | none => []
  | some range =>
    boundIssues low high (path ++ ".min") range.min
      ++ boundIssues low high (path ++ ".max") range.max
      ++ match range.min, range.max with
        | some min, some max => if max < min then [(path, "min_above_max")] else []
        | _, _ => []

/-- The issues of a list: at most `most` entries, each of them well formed. -/
def listIssues {α : Type*} (most : ℕ) (wellFormed : α → Bool) (path : String)
    (values : Option (List α)) : List Issue :=
  match values with
  | none => []
  | some values =>
    (values.zipIdx.filterMap (fun v =>
        if wellFormed v.fst then none else some (path ++ "." ++ toString v.snd, "invalid_format")))
      ++ (if most < values.length then [(path, "too_big")] else [])

/-- The issues of a text: at most `most` code units. -/
def lengthIssues (most : ℕ) (path : String) (text : Option String) : List Issue :=
  match text with
  | none => []
  | some text => if most < utf16Length text.toList then [(path, "too_big")] else []

/-- **The issues of an input**, field by field. -/
def issues (input : SearchInput) : List Issue :=
  listIssues 7 (fun _ => true) "propertyTypes" input.propertyTypes
    ++ listIssues 20 (fun id => isUuid id.toList) "placeIds" input.placeIds
    ++ listIssues 7 (fun _ => true) "availability" input.availability
    ++ rangeIssues 0 1000000000000 "price" (input.price.map PriceRange.toRange)
    ++ rangeIssues 0 100 "bedrooms" input.bedrooms
    ++ rangeIssues 0 100 "rooms" input.rooms
    ++ rangeIssues 0 10000000 "area" (input.area.map AreaRange.toRange)
    ++ listIssues 20 (fun key => isFeatureKey key.toList) "mustHave" input.mustHave
    ++ (if input.q.any containsSearchControl then [("q", "search_control_character")] else [])
    ++ lengthIssues 100 "q" (input.q.map trim)
    ++ boundIssues 1 (maxPageSize : ℤ) "pageSize" input.pageSize
    ++ lengthIssues 512 "cursor" input.cursor

/-- The codes recorded against each field, without repetition. -/
def fieldErrorsOf (found : List Issue) : FieldErrors :=
  (found.map Prod.fst).eraseDups.map (fun path =>
    (path, ((found.filter (fun issue => issue.fst = path)).map Prod.snd).eraseDups))

/-! ## Normalizing -/

/-- A choice in the order of its names and without repetition; an empty choice
is none. -/
def sortedUnique {α : Type*} [DecidableEq α] (name : α → String)
    (values : Option (List α)) : Option (List α) :=
  (values.filter (fun values => !values.isEmpty)).map (fun values =>
    values.eraseDups.insertionSort (fun a b => name a ≤ name b))

/-- The criteria of an input. -/
def criteriaOf (input : SearchInput) : SearchCriteria where
  purpose := input.purpose
  propertyTypes := sortedUnique PropertyType.name input.propertyTypes
  placeIds := sortedUnique id (input.placeIds.map (fun ids => ids.map String.toLower))
  -- Sold, let and withdrawn listings are history: shown only when asked for.
  availability := some ((sortedUnique CommercialState.name input.availability).getD
    (offeredStates.insertionSort (fun a b => a.name ≤ b.name)))
  price := input.price
  bedrooms := input.bedrooms
  rooms := input.rooms
  area := input.area
  mustHave := sortedUnique id input.mustHave
  includeNeedsConfirmation := input.includeUnconfirmed = some true

/-- **Validates a search** and returns the filters as applied. -/
def normalizeSearch (input : SearchInput) : Except (AppError Unit) NormalizedSearch :=
  match issues input with
  | [] =>
    .ok {
      locale := input.locale
      criteria := criteriaOf input
      q := (input.q.map trim).filter (fun q => q ≠ "")
      sort := input.sort.getD .relevance
      pageSize := (input.pageSize.map Int.toNat).getD defaultPageSize
      cursor := input.cursor }
  | found =>
    .error { AppError.ofCode .validationFailed with fieldErrors := some (fieldErrorsOf found) }

/-- A search that was accepted has no issues, and its filters are those of the
input. -/
theorem normalizeSearch_ok {input : SearchInput} {search : NormalizedSearch}
    (h : normalizeSearch input = .ok search) :
    issues input = [] ∧ search = {
      locale := input.locale
      criteria := criteriaOf input
      q := (input.q.map trim).filter (fun q => q ≠ "")
      sort := input.sort.getD .relevance
      pageSize := (input.pageSize.map Int.toNat).getD defaultPageSize
      cursor := input.cursor } := by
  unfold normalizeSearch at h
  split at h
  · rename_i hissues
    exact ⟨hissues, (Except.ok.inj h).symm⟩
  · cases h

/-- **A normalized choice is never empty.** -/
theorem sortedUnique_ne_nil {α : Type*} [DecidableEq α] {name : α → String}
    {values : Option (List α)} {chosen : List α}
    (h : sortedUnique name values = some chosen) : chosen ≠ [] := by
  obtain ⟨vs, hvs, rfl⟩ := Option.map_eq_some_iff.mp h
  obtain ⟨v, hv⟩ : ∃ v, v ∈ vs := by
    cases vs with
    | nil => simp at hvs
    | cons v vs => exact ⟨v, List.mem_cons_self⟩
  exact List.ne_nil_of_mem ((List.mem_insertionSort _).mpr (List.mem_eraseDups.mpr hv))

end Search
