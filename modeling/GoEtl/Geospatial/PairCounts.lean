import Mathlib.Data.List.AList
import Mathlib.Data.List.Sort
import Mathlib.Data.Finset.Card
import Mathlib.Algebra.BigOperators.Group.List.Lemmas
import Mathlib.Algebra.Order.Ring.Int

/-!
# Counting pairs of raster values

`pairCountAccumulator` of `internal/geospatial/pair_counts.go` counts how often a field and a value stand at the same
position of two rasters, which it is given in chunks. What it has counted is a function of the pixels so far
(`Counted`), so that the chunks do not matter (`pair_counts_of_chunks`).

A Go map is walked in any order. The rows are made from the entries of the map in some order and sorted.
-/

namespace GoEtl.Geospatial

/-- A field and the value at its position. -/
abbrev Pixel := UInt32 × UInt16

/-- The key of a pair. -/
def pairKey (pixel : Pixel) : UInt64 := pixel.1.toUInt64 <<< 16 ||| pixel.2.toUInt64

/-- `PairCountRow`. -/
structure PairCountRow where
  fieldId : UInt32
  valueId : UInt16
  count : UInt64
  deriving DecidableEq

/-- `PairCountMetadata`, without the name of the type of counts. -/
structure PairCountMetadata where
  (validPixels skippedFieldNodata skippedValueNodata distinctFields distinctValues distinctPairs : UInt64)
  deriving DecidableEq

/-- `pairCountAccumulator`. -/
structure PairCountAccumulator where
  counts : AList fun _ : UInt64 => UInt64
  distinctFields : Finset UInt32
  distinctValues : Finset UInt16
  (validPixels skippedFieldNodata skippedValueNodata : UInt64)
  includeValueNodata : Bool

/-- `newPairCountAccumulator`. -/
def newPairCountAccumulator (includeValueNodata : Bool) : PairCountAccumulator := ⟨∅, ∅, ∅, 0, 0, 0, includeValueNodata⟩

namespace PairCountAccumulator

section Model

variable (fieldNodata : UInt32) (valueNodata : UInt16)

/-- A round of the loop in `AddChunk`. -/
def addPixel (acc : PairCountAccumulator) (pixel : Pixel) : Except String PairCountAccumulator :=
  if pixel.1 = fieldNodata then .ok { acc with skippedFieldNodata := acc.skippedFieldNodata + 1 }
  else if !acc.includeValueNodata && pixel.2 == valueNodata then
    .ok { acc with skippedValueNodata := acc.skippedValueNodata + 1 }
  else
    let count := (acc.counts.lookup (pairKey pixel)).getD 0
    if count = 0xffffffffffffffff then
      .error ("count overflow for field_id=" ++ toString pixel.1 ++ " crop_id=" ++ toString pixel.2)
    else .ok { acc with
      counts := acc.counts.insert (pairKey pixel) (count + 1)
      validPixels := acc.validPixels + 1
      distinctFields := insert pixel.1 acc.distinctFields
      distinctValues := insert pixel.2 acc.distinctValues }

/-- `AddChunk`. -/
def addChunk (acc : PairCountAccumulator) (chunk : List UInt32 × List UInt16) : Except String PairCountAccumulator :=
  if chunk.1.length ≠ chunk.2.length then
    .error ("field/value chunk lengths differ: " ++ toString chunk.1.length ++ " != " ++ toString chunk.2.length)
  else (chunk.1.zip chunk.2).foldlM (addPixel fieldNodata valueNodata) acc

end Model

/-- The row of an entry. -/
def row (entry : (_ : UInt64) × UInt64) : PairCountRow :=
  ⟨(entry.1 >>> 16).toUInt32, (entry.1 &&& 0xffff).toUInt16, entry.2⟩

end PairCountAccumulator

/-- The order of the rows. -/
def PairCountRow.less (a b : PairCountRow) : Bool :=
  if a.fieldId = b.fieldId then a.valueId < b.valueId else a.fieldId < b.fieldId

namespace PairCountAccumulator

/-- `Rows`, where the map is walked in this order. -/
def rows (order : List ((_ : UInt64) × UInt64)) : List PairCountRow :=
  (order.map row).insertionSort fun a b => !b.less a

/-- `Metadata`. -/
def metadata (acc : PairCountAccumulator) : PairCountMetadata where
  validPixels := acc.validPixels
  skippedFieldNodata := acc.skippedFieldNodata
  skippedValueNodata := acc.skippedValueNodata
  distinctFields := .ofNat acc.distinctFields.card
  distinctValues := .ofNat acc.distinctValues.card
  distinctPairs := .ofNat acc.counts.entries.length

end PairCountAccumulator

/-! ### Keys -/

theorem pairKey_toNat (pixel : Pixel) : (pairKey pixel).toNat = pixel.1.toNat * 65536 + pixel.2.toNat := by
  have hfield := pixel.1.toNat_lt
  have hvalue := pixel.2.toNat_lt
  have hshift : pixel.1.toNat <<< 16 % 2 ^ 64 = pixel.1.toNat <<< 16 := by
    rw [Nat.shiftLeft_eq]
    omega
  have hor := Nat.shiftLeft_add_eq_or_of_lt (i := 16) hvalue pixel.1.toNat
  simp only [pairKey, UInt64.toNat_or, UInt64.toNat_shiftLeft, UInt32.toNat_toUInt64, UInt16.toNat_toUInt64]
  rw [show (16 : UInt64).toNat % 64 = 16 from rfl, hshift, ← hor, Nat.shiftLeft_eq]

/-- A row shows the pair of its key. -/
theorem row_pairKey (pixel : Pixel) (count : UInt64) :
    PairCountAccumulator.row ⟨pairKey pixel, count⟩ = ⟨pixel.1, pixel.2, count⟩ := by
  have hfield := pixel.1.toNat_lt
  have hvalue := pixel.2.toNat_lt
  have hkey := pairKey_toNat pixel
  have hfirst : (pairKey pixel >>> 16).toUInt32 = pixel.1 := by
    apply UInt32.toNat.inj
    rw [UInt64.toNat_toUInt32, UInt64.toNat_shiftRight, hkey, show (16 : UInt64).toNat % 64 = 16 from rfl,
      Nat.shiftRight_eq_div_pow]
    omega
  have hsecond : (pairKey pixel &&& 0xffff).toUInt16 = pixel.2 := by
    apply UInt16.toNat.inj
    rw [UInt64.toNat_toUInt16, UInt64.toNat_and, hkey, show (0xffff : UInt64).toNat = 2 ^ 16 - 1 from rfl,
      Nat.and_two_pow_sub_one_eq_mod]
    omega
  rw [PairCountAccumulator.row, hfirst, hsecond]

theorem pairKey_injective : Function.Injective pairKey := by
  intro a b hab
  have hrow := (row_pairKey a 0).symm.trans ((congrArg (PairCountAccumulator.row ⟨·, 0⟩) hab).trans (row_pairKey b 0))
  simp only [PairCountRow.mk.injEq] at hrow
  exact Prod.ext hrow.1 hrow.2.1

theorem PairCountRow.less_iff (a b : PairCountRow) :
    a.less b = true ↔ pairKey (a.fieldId, a.valueId) < pairKey (b.fieldId, b.valueId) := by
  have ha := a.valueId.toNat_lt
  have hb := b.valueId.toNat_lt
  rw [PairCountRow.less, UInt64.lt_iff_toNat_lt, pairKey_toNat, pairKey_toNat]
  split_ifs with hfield
  · simp [hfield, UInt16.lt_iff_toNat_lt]
  · have hne : a.fieldId.toNat ≠ b.fieldId.toNat := fun heq => hfield (UInt32.toNat.inj heq)
    simp only [decide_eq_true_eq, UInt32.lt_iff_toNat_lt]
    omega

/-! ### What has been counted -/

/-- The values that are not counted. -/
structure Nodata where
  field : UInt32
  value : UInt16
  includeValue : Bool

/-- The pixel is counted. -/
def Nodata.keeps (nodata : Nodata) (pixel : Pixel) : Bool :=
  pixel.1 ≠ nodata.field && !(!nodata.includeValue && pixel.2 == nodata.value)

/-- The pixels that are counted. -/
def Nodata.valid (nodata : Nodata) (pixels : List Pixel) : List Pixel := pixels.filter nodata.keeps

/-- Chunks one after the other, from the start. -/
def addChunks (nodata : Nodata) (chunks : List (List UInt32 × List UInt16)) : Except String PairCountAccumulator :=
  chunks.foldlM (PairCountAccumulator.addChunk nodata.field nodata.value) (newPairCountAccumulator nodata.includeValue)

/-- **What the accumulator has counted** after these pixels. -/
structure Counted (nodata : Nodata) (pixels : List Pixel) (acc : PairCountAccumulator) : Prop where
  setting : acc.includeValueNodata = nodata.includeValue
  counts : ∀ pixel, acc.counts.lookup (pairKey pixel) =
    if (nodata.valid pixels).count pixel = 0 then none else some (.ofNat ((nodata.valid pixels).count pixel))
  keys : ∀ key ∈ acc.counts, ∃ pixel, pairKey pixel = key
  valid : acc.validPixels.toNat = (nodata.valid pixels).length
  total : acc.validPixels.toNat + acc.skippedFieldNodata.toNat + acc.skippedValueNodata.toNat = pixels.length

variable {nodata : Nodata} {pixels : List Pixel} {acc : PairCountAccumulator}

theorem toNat_succ {n : UInt64} (h : n.toNat + 1 < 2 ^ 64) : (n + 1).toNat = n.toNat + 1 := by
  rw [UInt64.toNat_add, show (1 : UInt64).toNat = 1 from rfl, Nat.mod_eq_of_lt h]

theorem Counted.new : Counted nodata [] (newPairCountAccumulator nodata.includeValue) where
  setting := rfl
  counts _ := rfl
  keys key hkey := absurd hkey (AList.notMem_empty key)
  valid := rfl
  total := rfl

/-- **A pixel** is counted, or it is skipped. -/
theorem Counted.addPixel (h : Counted nodata pixels acc) (hsmall : pixels.length + 1 < 2 ^ 64) (pixel : Pixel) :
    ∃ acc', acc.addPixel nodata.field nodata.value pixel = .ok acc' ∧ Counted nodata (pixels ++ [pixel]) acc' := by
  have htotal := h.total
  have hlength : (pixels ++ [pixel]).length = pixels.length + 1 := List.length_append
  have hskip : nodata.keeps pixel = false → nodata.valid (pixels ++ [pixel]) = nodata.valid pixels := by
    intro hnot
    simp [Nodata.valid, hnot]
  unfold PairCountAccumulator.addPixel
  split_ifs with hfield hvalue
  · have hsame := hskip (by simp [Nodata.keeps, hfield])
    refine ⟨_, rfl, h.setting, by rw [hsame]; exact h.counts, h.keys, by rw [hsame]; exact h.valid, ?_⟩
    dsimp only
    rw [toNat_succ (by omega), hlength]
    omega
  · rw [h.setting] at hvalue
    have hsame := hskip (by rw [Nodata.keeps, hvalue]; simp)
    refine ⟨_, rfl, h.setting, by rw [hsame]; exact h.counts, h.keys, by rw [hsame]; exact h.valid, ?_⟩
    dsimp only
    rw [toNat_succ (by omega), hlength]
    omega
  · rw [h.setting] at hvalue
    have hkeeps : nodata.keeps pixel = true := by rw [Nodata.keeps, Bool.eq_false_iff.2 hvalue]; simp [hfield]
    have hmore : nodata.valid (pixels ++ [pixel]) = nodata.valid pixels ++ [pixel] := by simp [Nodata.valid, hkeeps]
    have hbound : (nodata.valid pixels).count pixel ≤ acc.validPixels.toNat := h.valid ▸ List.count_le_length
    have hcount : (acc.counts.lookup (pairKey pixel)).getD 0 = .ofNat ((nodata.valid pixels).count pixel) := by
      rw [h.counts pixel]
      split_ifs with hzero
      · rw [hzero]
        rfl
      · rfl
    have hmax : UInt64.ofNat ((nodata.valid pixels).count pixel) ≠ 0xffffffffffffffff := by
      intro hmax
      have hmax := congrArg UInt64.toNat hmax
      rw [UInt64.toNat_ofNat_of_lt' (show _ < 2 ^ 64 by omega),
        show (0xffffffffffffffff : UInt64).toNat = 2 ^ 64 - 1 from rfl] at hmax
      omega
    dsimp only
    rw [hcount, if_neg hmax]
    refine ⟨_, rfl, h.setting, fun other => ?_, fun key hkey => ?_, ?_, ?_⟩
    · rw [hmore, List.count_append, List.count_singleton]
      by_cases hother : other = pixel
      · subst hother
        simp [AList.lookup_insert]
      · rw [AList.lookup_insert_ne (pairKey_injective.ne hother), h.counts other]
        simp [Ne.symm hother]
    · rcases (AList.mem_insert _).1 hkey with rfl | hkey
      · exact ⟨pixel, rfl⟩
      · exact h.keys key hkey
    · rw [hmore, List.length_append, List.length_singleton, ← h.valid]
      exact toNat_succ (by omega)
    · dsimp only
      rw [toNat_succ (by omega), hlength]
      omega

/-- **A run of the loop.** -/
theorem Counted.addPixels (more : List Pixel) (h : Counted nodata pixels acc) (hsmall : (pixels ++ more).length < 2 ^ 64) :
    ∃ acc', more.foldlM (PairCountAccumulator.addPixel nodata.field nodata.value) acc = .ok acc' ∧
      Counted nodata (pixels ++ more) acc' := by
  induction more generalizing pixels acc with
  | nil => exact ⟨acc, rfl, by simpa using h⟩
  | cons pixel more ih =>
    obtain ⟨acc₁, hpixel, h₁⟩ := h.addPixel (by simp at hsmall; omega) pixel
    obtain ⟨acc₂, hmore, h₂⟩ := ih h₁ (by simpa using hsmall)
    refine ⟨acc₂, ?_, by simpa using h₂⟩
    rw [List.foldlM_cons, hpixel]
    exact hmore

/-- The chunks do not matter: their pixels are added one by one. -/
theorem addChunks_eq (chunks : List (List UInt32 × List UInt16))
    (hchunks : ∀ chunk ∈ chunks, chunk.1.length = chunk.2.length) :
    addChunks nodata chunks = (chunks.flatMap fun chunk => chunk.1.zip chunk.2).foldlM
      (PairCountAccumulator.addPixel nodata.field nodata.value) (newPairCountAccumulator nodata.includeValue) := by
  unfold addChunks
  generalize newPairCountAccumulator nodata.includeValue = acc
  induction chunks generalizing acc with
  | nil => rfl
  | cons chunk chunks ih =>
    rw [List.forall_mem_cons] at hchunks
    rw [List.foldlM_cons, List.flatMap_cons, List.foldlM_append, PairCountAccumulator.addChunk, if_neg (not_not.2 hchunks.1)]
    exact bind_congr fun acc => ih hchunks.2 acc

/-! ### Rows -/

/-- The key of a row's pair. -/
def PairCountRow.key (row : PairCountRow) : UInt64 := pairKey (row.fieldId, row.valueId)

open PairCountAccumulator

section Rows

variable {order : List ((_ : UInt64) × UInt64)} (h : Counted nodata pixels acc) (hsmall : pixels.length < 2 ^ 64)
  (horder : order.Perm acc.counts.entries)

include h hsmall

/-- The entries of the map are the pairs that have been counted. -/
theorem Counted.mem_entries {key count : UInt64} : ⟨key, count⟩ ∈ acc.counts.entries ↔
    ∃ pixel ∈ nodata.valid pixels, pairKey pixel = key ∧ count.toNat = (nodata.valid pixels).count pixel := by
  have hbound : ∀ pixel, (nodata.valid pixels).count pixel < 2 ^ 64 := fun pixel =>
    (List.count_le_length.trans (List.length_filter_le _ _)).trans_lt hsmall
  rw [← AList.mem_lookup_iff, Option.mem_def]
  constructor
  · intro hlookup
    obtain ⟨pixel, rfl⟩ := h.keys key (AList.lookup_isSome.1 (by rw [hlookup]; rfl))
    rw [h.counts pixel] at hlookup
    split_ifs at hlookup with hzero
    cases hlookup
    exact ⟨pixel, List.count_pos_iff.1 (Nat.pos_of_ne_zero hzero), rfl, UInt64.toNat_ofNat_of_lt' (hbound pixel)⟩
  · rintro ⟨pixel, hmem, rfl, hcount⟩
    rw [h.counts pixel, if_neg (List.count_pos_iff.2 hmem).ne', ← hcount, UInt64.ofNat_toNat]

include horder

theorem Counted.mem_rows {row : PairCountRow} : row ∈ rows order ↔
    (row.fieldId, row.valueId) ∈ nodata.valid pixels ∧
      row.count.toNat = (nodata.valid pixels).count (row.fieldId, row.valueId) := by
  rw [rows, List.mem_insertionSort, List.mem_map]
  constructor
  · rintro ⟨⟨key, count⟩, hentry, rfl⟩
    obtain ⟨pixel, hmem, rfl, hcount⟩ := (h.mem_entries hsmall).1 (horder.mem_iff.1 hentry)
    rw [row_pairKey]
    exact ⟨hmem, hcount⟩
  · rintro ⟨hmem, hcount⟩
    exact ⟨⟨row.key, row.count⟩, horder.mem_iff.2 ((h.mem_entries hsmall).2 ⟨_, hmem, rfl, hcount⟩), row_pairKey _ _⟩

theorem Counted.keys_rows : ((rows order).map PairCountRow.key).Perm acc.counts.keys := by
  have hrow : ∀ entry ∈ acc.counts.entries, (row entry).key = entry.1 := by
    rintro ⟨key, count⟩ hentry
    obtain ⟨pixel, _, rfl, _⟩ := (h.mem_entries hsmall).1 hentry
    rw [row_pairKey]
    rfl
  refine ((List.perm_insertionSort _ _).map _).trans ?_
  rw [List.map_map]
  refine (horder.map _).trans (List.Perm.of_eq ?_)
  exact List.map_congr_left hrow

/-- **The rows stand in strictly increasing order.** -/
theorem Counted.rows_increasing : (rows order).Pairwise fun a b => a.less b = true := by
  have hle : ∀ a b : PairCountRow, (!b.less a) = true ↔ a.key ≤ b.key := by
    intro a b
    rw [Bool.not_eq_true', Bool.eq_false_iff, Ne, PairCountRow.less_iff, UInt64.not_lt]
    rfl
  have : Std.Total fun a b : PairCountRow => (!b.less a) = true :=
    ⟨fun a b => by simpa only [hle] using UInt64.le_total a.key b.key⟩
  have : IsTrans PairCountRow fun a b => (!b.less a) = true :=
    ⟨fun a b c => by simpa only [hle] using UInt64.le_trans⟩
  have hdistinct : (rows order).Pairwise fun a b => a.key ≠ b.key :=
    List.pairwise_map.1 ((h.keys_rows hsmall horder).nodup_iff.2 acc.counts.keys_nodup)
  refine ((List.pairwise_insertionSort _ (order.map _)).and hdistinct).imp fun ⟨hab, hne⟩ => ?_
  exact (PairCountRow.less_iff _ _).2 (UInt64.lt_of_le_of_ne ((hle _ _).1 hab) hne)

/-- **The counts sum to the valid pixels.** -/
theorem Counted.sum_rows :
    ((rows order).map fun row => row.count.toNat).sum = acc.validPixels.toNat := by
  have hcount : ∀ row ∈ rows order,
      row.count.toNat = ((nodata.valid pixels).map pairKey).count row.key := by
    intro row hrow
    rw [((h.mem_rows hsmall horder).1 hrow).2, PairCountRow.key, List.count_map_of_injective _ _ pairKey_injective]
  have hkeys : acc.counts.keys.Perm ((nodata.valid pixels).map pairKey).dedup := by
    refine (List.perm_ext_iff_of_nodup acc.counts.keys_nodup (List.nodup_dedup _)).2 fun key => ?_
    rw [List.mem_dedup, List.mem_map]
    constructor
    · intro hkey
      obtain ⟨⟨_, count⟩, hentry, rfl⟩ := List.mem_map.1 hkey
      obtain ⟨pixel, hmem, hpixel, _⟩ := (h.mem_entries hsmall).1 hentry
      exact ⟨pixel, hmem, hpixel⟩
    · rintro ⟨pixel, hmem, rfl⟩
      rw [← AList.mem_keys, ← AList.lookup_isSome, h.counts pixel, if_neg (List.count_pos_iff.2 hmem).ne']
      rfl
  calc _ = (((rows order).map PairCountRow.key).map
          (((nodata.valid pixels).map pairKey).count ·)).sum := by
        rw [List.map_congr_left hcount, List.map_map]
        rfl
    _ = (((nodata.valid pixels).map pairKey).dedup.map (((nodata.valid pixels).map pairKey).count ·)).sum :=
        (((h.keys_rows hsmall horder).trans hkeys).map _).sum_eq
    _ = _ := by rw [List.sum_map_count_dedup_eq_length, List.length_map, h.valid]

end Rows

/-- The rows do not depend on the order in which the map is walked. -/
theorem rows_of_perm {order order' : List ((_ : UInt64) × UInt64)} (hperm : order'.Perm order)
    (hless : (rows order).Pairwise fun a b => a.less b = true)
    (hless' : (rows order').Pairwise fun a b => a.less b = true) :
    rows order' = rows order := by
  refine List.Perm.eq_of_pairwise (fun a b _ _ hab hba => ?_) hless' hless ?_
  · rw [PairCountRow.less_iff] at hab hba
    exact absurd hba (UInt64.lt_asymm hab)
  · exact (List.perm_insertionSort _ _).trans ((hperm.map _).trans (List.perm_insertionSort _ _).symm)

/-! ### Chunks -/

theorem flatMap_zip (chunks : List (List UInt32 × List UInt16))
    (hchunks : ∀ chunk ∈ chunks, chunk.1.length = chunk.2.length) :
    (chunks.flatMap fun chunk => chunk.1.zip chunk.2) = (chunks.flatMap Prod.fst).zip (chunks.flatMap Prod.snd) := by
  induction chunks with
  | nil => rfl
  | cons chunk chunks ih =>
    rw [List.forall_mem_cons] at hchunks
    simp only [List.flatMap_cons, ih hchunks.2, List.zip_append hchunks.1]

/-- **Pair counting is independent of chunking.** Two rasters of one length below `2 ^ 64`, cut into chunks in any way,
give the accumulator that they give as one chunk, and so its metadata. The rows are the same in every order in which the
map may be walked: strictly increasing, one for each pair that stands at a position that is not excluded, with the
number of those positions. -/
theorem pair_counts_of_chunks (nodata : Nodata) (fields : List UInt32) (values : List UInt16)
    (hlength : fields.length = values.length) (hsmall : fields.length < 2 ^ 64)
    (chunks : List (List UInt32 × List UInt16)) (hchunks : ∀ chunk ∈ chunks, chunk.1.length = chunk.2.length)
    (hfields : chunks.flatMap Prod.fst = fields) (hvalues : chunks.flatMap Prod.snd = values) :
    ∃ acc rows, addChunks nodata chunks = .ok acc ∧ addChunks nodata [(fields, values)] = .ok acc ∧
      (∀ order : List ((_ : UInt64) × UInt64), order.Perm acc.counts.entries → PairCountAccumulator.rows order = rows) ∧
      rows.Pairwise (fun a b => a.less b = true) ∧
      (∀ row, row ∈ rows ↔ (row.fieldId, row.valueId) ∈ nodata.valid (fields.zip values) ∧
        row.count.toNat = (nodata.valid (fields.zip values)).count (row.fieldId, row.valueId)) ∧
      (rows.map fun row => row.count.toNat).sum = acc.metadata.validPixels.toNat ∧
      acc.metadata.validPixels.toNat + acc.metadata.skippedFieldNodata.toNat + acc.metadata.skippedValueNodata.toNat =
        fields.length := by
  have hzip : (fields.zip values).length = fields.length := by rw [List.length_zip, ← hlength, min_self]
  have hpixels : (fields.zip values).length < 2 ^ 64 := hzip ▸ hsmall
  obtain ⟨acc, hacc, h⟩ := (@Counted.new nodata).addPixels (fields.zip values) hpixels
  rw [List.nil_append] at h
  have hrows := h.rows_increasing hpixels (List.Perm.refl _)
  refine ⟨acc, PairCountAccumulator.rows acc.counts.entries, ?_, ?_, fun order horder => ?_, hrows,
    fun row => h.mem_rows hpixels (List.Perm.refl _), h.sum_rows hpixels (List.Perm.refl _), h.total.trans hzip⟩
  · rw [addChunks_eq chunks hchunks, flatMap_zip chunks hchunks, hfields, hvalues, hacc]
  · rw [addChunks_eq _ (by simpa using hlength), List.flatMap_singleton, hacc]
  · exact rows_of_perm horder hrows (h.rows_increasing hpixels horder)

/-- Three pixels in two chunks, the last one without a field. -/
theorem pair_counts_of_chunks_sample : ∃ acc rows,
    addChunks ⟨0, 0, false⟩ [([7, 7], [3, 3]), ([0], [3])] = .ok acc ∧
      addChunks ⟨0, 0, false⟩ [([7, 7, 0], [3, 3, 3])] = .ok acc ∧
      PairCountAccumulator.rows acc.counts.entries = rows ∧ (⟨7, 3, 2⟩ : PairCountRow) ∈ rows := by
  obtain ⟨acc, rows, hchunks, hone, hrows, _, hmem, _⟩ := pair_counts_of_chunks ⟨0, 0, false⟩ [7, 7, 0] [3, 3, 3] rfl
    (by decide) [([7, 7], [3, 3]), ([0], [3])] (by decide) rfl rfl
  exact ⟨acc, rows, hchunks, hone, hrows _ (List.Perm.refl _), (hmem _).2 (by decide)⟩

end GoEtl.Geospatial
