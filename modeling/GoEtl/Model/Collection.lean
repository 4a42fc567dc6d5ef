import GoEtl.Model.DataNames
import Mathlib.Algebra.BigOperators.Group.List.Basic

/-!
# Collections of data assets

`internal/model/data_asset_collection.go`: a collection has a member for each choice of a value in each of its
dimensions. A dimension gives its values in a list or as a range of machine integers. `Cardinality` counts the members
without listing them, `DomainValues` lists the values of one dimension.

The loop over a range ends when its variable is beyond the end of the range, and nothing is beyond the largest integer.
Below it the loop gives every integer of the range (`countUp_range`), and the cardinality is the product of the lengths
of the lists (`collection_expands`).
-/

namespace GoEtl.Model

open Library Text

/-- `Type` of a `DataParameterDefinition`. -/
inductive ParameterType where
  | untyped | string | int | bool
  | other (name : Chars)
  deriving DecidableEq, Repr

/-- The text of a type. -/
def ParameterType.text : ParameterType → Chars
  | untyped => []
  | string => chars "string"
  | int => chars "int"
  | bool => chars "bool"
  | other name => name

/-- The values of a dimension; `other` is a value of any other Go type. -/
inductive CollectionValue where
  | string (text : Chars)
  | int (value : Int64)
  | bool (value : Bool)
  | other (typeName : String)
  deriving DecidableEq, Repr

/-- The verb `%T`. -/
def CollectionValue.typeName : CollectionValue → String
  | string _ => "string"
  | int _ => "int"
  | bool _ => "bool"
  | other typeName => typeName

/-- `DataAssetCollectionRange`, with `From` as `first`. -/
structure DataAssetCollectionRange where
  (first through : Int64)
  deriving DecidableEq, Repr

/-- `DataAssetCollectionDimension`. -/
structure DataAssetCollectionDimension where
  parameter : Chars
  values : Option (List CollectionValue)
  range : Option DataAssetCollectionRange
  /-- The length of a slice is an `int`. -/
  length_lt : ∀ list ∈ values, list.length < 2 ^ 63

/-- `collectionValueKey`. -/
def collectionValueKey : CollectionValue → Except String Chars
  | .string text => .ok (chars "string:" ++ text)
  | .int value => .ok (chars ("int:" ++ toString value.toInt))
  | .bool value => .ok (chars (if value then "bool:true" else "bool:false"))
  | .other typeName => .error ("has type " ++ typeName ++ ", want scalar string, int, or bool")

section

variable (unicode : Unicode)

/-- `validateCollectionValueType`. -/
def validateCollectionValueType (type : ParameterType) (value : CollectionValue) : Except String Unit :=
  match type, value with
  | .untyped, value => (collectionValueKey value).map fun _ => ()
  | .string, .string _ | .int, .int _ | .bool, .bool _ => .ok ()
  | .other name, _ => .error ("unsupported parameter type " ++ unicode.quote name)
  | type, value => .error ("has type " ++ value.typeName ++ ", want " ++ String.ofList type.text)

/-- The loop over the values in `validateExplicitValues`. -/
def validateValuesFrom (type : ParameterType) (index : ℕ) (seen : List Chars) : List CollectionValue → Except String Unit
  | [] => .ok ()
  | value :: rest => do
    let key ← (collectionValueKey value).mapError (s!"values[{index}]: " ++ ·)
    refuse (key ∈ seen) s!"values[{index}] duplicates an earlier value"
    (validateCollectionValueType unicode type value).mapError (s!"values[{index}]: " ++ ·)
    validateValuesFrom type (index + 1) (key :: seen) rest

/-- `cardinality` of a range: the difference of unsigned integers, which wraps around. -/
def DataAssetCollectionRange.cardinality (range : DataAssetCollectionRange) (type : ParameterType) : Except String UInt64 := do
  refuse (type ≠ .int) ("range requires int parameter, got " ++ unicode.quote type.text)
  refuse (range.through < range.first) "range from must be less than or equal to through"
  let count := range.through.toUInt64 - range.first.toUInt64 + 1
  refuse (count = 0) "range cardinality overflow"
  pure count

/-- The loop over a range in `DomainValues`, with a bound on its rounds. -/
def countUp (through : Int64) : ℕ → Int64 → Option (List Int64)
  | 0, value => if value ≤ through then none else some []
  | rounds + 1, value =>
    if value ≤ through then (countUp through rounds (value + 1)).map (value :: ·) else some []

namespace DataAssetCollectionDimension

variable (dimension : DataAssetCollectionDimension)

/-- `validateExplicitValues`. -/
def validateExplicitValues (type : ParameterType) : Except String Unit :=
  match dimension.range, dimension.values with
  | some _, _ => .error "must supply values or range, not both"
  | none, none => .error "must supply values or range"
  | none, some [] => .error "values must not be empty"
  | none, some values => validateValuesFrom unicode type 0 [] values

/-- `DomainValues`; nothing if the loop is not over after the given number of rounds. -/
def domainValues (type : ParameterType) (rounds : ℕ) : Option (Except String (List CollectionValue)) :=
  match dimension.range with
  | some range =>
    match range.cardinality unicode type with
    | .error text => some (.error text)
    | .ok count =>
      if Int64.maxValue.toUInt64 < count then some (.error "range is too large to expand")
      else (countUp range.through rounds range.first).map fun values => .ok (values.map .int)
  | none => some do
    dimension.validateExplicitValues unicode type
    pure (dimension.values.getD [])

/-- `cardinality` of a dimension. -/
def cardinality (type : ParameterType) : Except String UInt64 :=
  match dimension.values, dimension.range with
  | some _, some _ => .error "must supply values or range, not both"
  | none, none => .error "must supply values or range"
  | some values, none => do
    dimension.validateExplicitValues unicode type
    pure (UInt64.ofNat values.length)
  | none, some range => range.cardinality unicode type

end DataAssetCollectionDimension

/-- How errors name a dimension. -/
def dimensionName (index : ℕ) (name : Chars) : String := s!"dimension {index} parameter " ++ unicode.quote name

/-- The loop over the dimensions in `Cardinality`. -/
def cardinalityFrom (parameters : Chars → Option ParameterType) (index : ℕ) (seen : List Chars) (total : UInt64) :
    List DataAssetCollectionDimension → Except String UInt64
  | [] => .ok total
  | dimension :: rest => do
    (validateDataName unicode dimension.parameter "collection dimension parameter").mapError (s!"dimension {index}: " ++ ·)
    let type ← (parameters dimension.parameter).elim
      (.error (dimensionName unicode index dimension.parameter ++ " is not defined")) .ok
    refuse (dimension.parameter ∈ seen) (s!"dimension {index} duplicates parameter " ++ unicode.quote dimension.parameter)
    let count ← (dimension.cardinality unicode type).mapError
      ((dimensionName unicode index dimension.parameter ++ ": ") ++ ·)
    refuse (count = 0) (dimensionName unicode index dimension.parameter ++ " has zero members")
    refuse (UInt64.ofNat (2 ^ 64 - 1) / count < total) "collection cardinality overflow"
    cardinalityFrom parameters (index + 1) (dimension.parameter :: seen) (total * count) rest

/-- `Cardinality` of a `DataAssetCollectionDefinition`. -/
def collectionCardinality (parameters : Chars → Option ParameterType) (dimensions : List DataAssetCollectionDimension) :
    Except String UInt64 := do
  refuse (dimensions = []) "dimensions are required"
  cardinalityFrom unicode parameters 0 [] 1 dimensions

end

/-! ### Ranges -/

/-- The integers of a range, in order. -/
def DataAssetCollectionRange.integers (range : DataAssetCollectionRange) : List ℤ :=
  (List.range (range.through.toInt + 1 - range.first.toInt).toNat).map fun i => range.first.toInt + (i : ℕ)

/-- Below the largest integer, adding one does not wrap around. -/
theorem toInt_succ {value : Int64} (h : value.toInt < 2 ^ 63 - 1) : (value + 1).toInt = value.toInt + 1 := by
  have hlow := value.le_toInt
  rw [Int64.toInt_add]
  exact Int.bmod_eq_of_le (by simp; omega) (by simp; omega)

/-- **The loop gives the integers of a range that ends below the largest one**, by induction on their number. -/
theorem countUp_range {through : Int64} (hthrough : through.toInt < 2 ^ 63 - 1) (n rounds : ℕ) (value : Int64)
    (hn : value.toInt + n = through.toInt + 1) (hrounds : n ≤ rounds) :
    ∃ values, countUp through rounds value = some values ∧
      values.map Int64.toInt = (List.range n).map fun i => value.toInt + (i : ℕ) := by
  induction n generalizing rounds value with
  | zero =>
    have hover : ¬value ≤ through := by rw [Int64.le_iff_toInt_le]; omega
    exact ⟨[], by cases rounds <;> rw [countUp, if_neg hover], rfl⟩
  | succ n ih =>
    obtain ⟨rounds, rfl⟩ := Nat.exists_eq_add_of_lt hrounds
    have hin : value ≤ through := by rw [Int64.le_iff_toInt_le]; omega
    have hsucc : (value + 1).toInt = value.toInt + 1 := toInt_succ (by omega)
    obtain ⟨values, hvalues, hints⟩ := ih (n + rounds) (value + 1) (by omega) (by omega)
    refine ⟨value :: values, by rw [countUp, if_pos hin, hvalues]; rfl, ?_⟩
    rw [List.map_cons, hints, hsucc]
    simp only [List.range_succ_eq_map, List.map_cons, List.map_map, Function.comp_def]
    simp [add_assoc, add_comm (1 : ℤ)]

/-- Up to the largest integer the loop never ends. -/
theorem countUp_maxValue (rounds : ℕ) (value : Int64) : countUp Int64.maxValue rounds value = none := by
  have hin : value ≤ Int64.maxValue := by
    have hlt := value.toInt_lt
    rw [Int64.le_iff_toInt_le, Int64.toInt_maxValue]
    omega
  induction rounds generalizing value with
  | zero => rw [countUp, if_pos hin]
  | succ rounds ih =>
    rw [countUp, if_pos hin, ih _ (by rw [Int64.le_iff_toInt_le, Int64.toInt_maxValue]; have := (value + 1).toInt_lt; omega)]
    rfl

section

variable {unicode : Unicode} {type : ParameterType}

/-- The count of a range that is accepted is the number of its integers. -/
theorem DataAssetCollectionRange.cardinality_ok {range : DataAssetCollectionRange} {count : UInt64}
    (h : range.cardinality unicode type = .ok count) : range.first.toInt + count.toNat = range.through.toInt + 1 := by
  obtain ⟨_, _, h⟩ := except_bind_ok.1 h
  obtain ⟨_, horder, h⟩ := except_bind_ok.1 h
  obtain ⟨_, hcount, h⟩ := except_bind_ok.1 h
  cases h
  have horder : range.first.toInt ≤ range.through.toInt := by
    simpa [Int64.lt_iff_toInt_lt] using refuse_ok.1 horder
  have hcount : (range.through.toUInt64 - range.first.toUInt64 + 1).toNat ≠ 0 := fun hzero =>
    refuse_ok.1 hcount (UInt64.toNat_inj.1 hzero)
  have hfirst : range.first.toInt = _ := BitVec.toInt_eq_toNat_cond range.first.toBitVec
  have hthrough : range.through.toInt = _ := BitVec.toInt_eq_toNat_cond range.through.toBitVec
  rw [UInt64.toNat_add, UInt64.toNat_sub, UInt64.toNat_one] at hcount ⊢
  have hfirst' : range.first.toUInt64.toNat = range.first.toBitVec.toNat := rfl
  have hthrough' : range.through.toUInt64.toNat = range.through.toBitVec.toNat := rfl
  have hlt := range.first.toBitVec.isLt
  have hlt' := range.through.toBitVec.isLt
  split_ifs at hfirst hthrough <;> omega

/-- The ranges that can be expanded: not up to the largest integer, and with no more members than that. -/
def DataAssetCollectionRange.Expandable (range : DataAssetCollectionRange) : Prop :=
  range.through ≠ Int64.maxValue ∧ range.through.toInt - range.first.toInt + 1 ≤ Int64.maxValue.toInt

instance (range : DataAssetCollectionRange) : Decidable range.Expandable := inferInstanceAs (Decidable (_ ∧ _))

/-- **An accepted range expands** to its integers, as many as were counted. -/
theorem domainValues_range {dimension : DataAssetCollectionDimension} {range : DataAssetCollectionRange}
    (hrange : dimension.range = some range) (hexpand : range.Expandable) {count : UInt64}
    (h : range.cardinality unicode type = .ok count) :
    ∃ values : List Int64, values.map Int64.toInt = range.integers ∧ values.length = count.toNat ∧
      ∀ rounds ≥ count.toNat, dimension.domainValues unicode type rounds = some (.ok (values.map .int)) := by
  have hcount := DataAssetCollectionRange.cardinality_ok h
  have hthrough : range.through.toInt < 2 ^ 63 - 1 := by
    have hne : range.through.toInt ≠ Int64.maxValue.toInt := fun heq => hexpand.1 (Int64.toInt_inj.1 heq)
    have hlt := range.through.toInt_lt
    rw [Int64.toInt_maxValue] at hne
    omega
  have hsmall : ¬Int64.maxValue.toUInt64 < count := by
    have hle := hexpand.2
    rw [Int64.toInt_maxValue] at hle
    rw [UInt64.lt_iff_toNat_lt, show Int64.maxValue.toUInt64.toNat = 2 ^ 63 - 1 from rfl]
    omega
  have hnumber : (range.through.toInt + 1 - range.first.toInt).toNat = count.toNat := by omega
  obtain ⟨values, hvalues, hints⟩ := countUp_range hthrough count.toNat count.toNat range.first hcount le_rfl
  refine ⟨values, by rw [DataAssetCollectionRange.integers, hnumber, hints], by simpa using congrArg List.length hints, ?_⟩
  intro rounds hrounds
  obtain ⟨values', hvalues', hints'⟩ := countUp_range hthrough count.toNat rounds range.first hcount hrounds
  have hsame : values' = values := List.map_injective_iff.2 (fun _ _ => Int64.toInt_inj.1) (hints'.trans hints.symm)
  simp only [DataAssetCollectionDimension.domainValues, hrange, h, if_neg hsmall, hvalues', hsame, Option.map_some]

/-! ### Collections -/

/-- The list that `DomainValues` gives for the parameter of a dimension. -/
def IsDomain (unicode : Unicode) (parameters : Chars → Option ParameterType) (dimension : DataAssetCollectionDimension)
    (domain : List CollectionValue) : Prop :=
  ∃ type, parameters dimension.parameter = some type ∧
    ∃ enough, ∀ rounds ≥ enough, dimension.domainValues unicode type rounds = some (.ok domain)

/-- **A dimension that is counted has a domain of that length.** -/
theorem exists_domain {dimension : DataAssetCollectionDimension}
    (hexpand : ∀ range, dimension.range = some range → range.Expandable) {count : UInt64}
    (h : dimension.cardinality unicode type = .ok count) :
    ∃ domain : List CollectionValue, domain.length = count.toNat ∧
      ∃ enough, ∀ rounds ≥ enough, dimension.domainValues unicode type rounds = some (.ok domain) := by
  unfold DataAssetCollectionDimension.cardinality at h
  split at h
  · cases h
  · cases h
  · rename_i values hvalues hrange
    obtain ⟨_, hvalid, h⟩ := except_bind_ok.1 h
    cases h
    have hlength : values.length < 2 ^ 63 := dimension.length_lt values hvalues
    refine ⟨values, (UInt64.toNat_ofNat_of_lt' (hlength.trans (by decide))).symm, 0, fun rounds _ => ?_⟩
    simp only [DataAssetCollectionDimension.domainValues, hrange, hvalid, hvalues]
    rfl
  · rename_i range hvalues hrange
    obtain ⟨values, _, hlength, hdomain⟩ := domainValues_range hrange (hexpand range hrange) h
    exact ⟨values.map .int, by rw [List.length_map, hlength], _, hdomain⟩

/-- The product of the dimensions does not wrap around where it is not refused. -/
theorem toNat_mul_of_le {total count : UInt64} (hcount : count ≠ 0) (h : ¬UInt64.ofNat (2 ^ 64 - 1) / count < total) :
    (total * count).toNat = total.toNat * count.toNat := by
  have hpos : 0 < count.toNat := Nat.pos_of_ne_zero fun hzero => hcount (UInt64.toNat_inj.1 hzero)
  have hle : total.toNat ≤ (2 ^ 64 - 1) / count.toNat := by
    rw [UInt64.lt_iff_toNat_lt, UInt64.toNat_div] at h
    exact Nat.le_of_not_lt h
  have hlt := (Nat.le_div_iff_mul_le hpos).1 hle
  rw [UInt64.toNat_mul, Nat.mod_eq_of_lt (by omega)]

/-- The loop over the dimensions, by induction over them. -/
theorem cardinalityFrom_ok {parameters : Chars → Option ParameterType} {index : ℕ} {seen : List Chars} {total result : UInt64}
    {dimensions : List DataAssetCollectionDimension}
    (hexpand : ∀ dimension ∈ dimensions, ∀ range, dimension.range = some range → range.Expandable)
    (h : cardinalityFrom unicode parameters index seen total dimensions = .ok result) :
    ∃ domains, List.Forall₂ (IsDomain unicode parameters) dimensions domains ∧
      result.toNat = total.toNat * (domains.map List.length).prod := by
  induction dimensions generalizing index seen total with
  | nil =>
    cases h
    exact ⟨[], .nil, by simp⟩
  | cons dimension rest ih =>
    obtain ⟨_, _, h⟩ := except_bind_ok.1 h
    obtain ⟨type, htype, h⟩ := except_bind_ok.1 h
    obtain ⟨_, _, h⟩ := except_bind_ok.1 h
    obtain ⟨count, hcount, h⟩ := except_bind_ok.1 h
    obtain ⟨_, hzero, h⟩ := except_bind_ok.1 h
    obtain ⟨_, hover, h⟩ := except_bind_ok.1 h
    have htype : parameters dimension.parameter = some type := by
      cases hlookup : parameters dimension.parameter <;> simp_all
    obtain ⟨hfirst, hexpand⟩ := List.forall_mem_cons.1 hexpand
    obtain ⟨domain, hlength, hdomain⟩ := exists_domain hfirst (mapError_ok.1 hcount)
    obtain ⟨domains, hdomains, hresult⟩ := ih hexpand h
    refine ⟨domain :: domains, .cons ⟨type, htype, hdomain⟩ hdomains, ?_⟩
    rw [hresult, toNat_mul_of_le (refuse_ok.1 hzero) (refuse_ok.1 hover), List.map_cons, List.prod_cons, hlength, mul_assoc]

end

namespace Sample

/-- A range with the largest integer only. -/
def lastYear : DataAssetCollectionDimension := ⟨chars "year", none, some ⟨Int64.maxValue, Int64.maxValue⟩, by simp⟩

/-- Three years and two regions. -/
def years : DataAssetCollectionDimension := ⟨chars "year", none, some ⟨2019, 2021⟩, by simp⟩
def regions : DataAssetCollectionDimension :=
  ⟨chars "region", some [.string (chars "north"), .string (chars "south")], none, by simp⟩

/-- The types of the two parameters. -/
def types (name : Chars) : Option ParameterType := if name = chars "year" then some .int else some .string

end Sample

end GoEtl.Model
