import GoEtl.Document.DataTree

/-!
# Overlaying documents

`internal/document/overlay.go`: `OverlayDataTrees` lays the data of documents one over the other. Maps and slices of Go are
references, so what a tree is depends on the memory: a `Heap` of cells, in which a tree is *stored* at some addresses. Every
value of a source is cloned before it is put into the result, and the cells of the result are the only ones that are written.

So the sources are left alone, the result is the overlay of the trees, and it does not share a cell with them
(`overlayDataTrees_runs`): a change to the sources later on does not change it. `overlay_documents` puts this together with what
`overlay` is.

Cells may refer to each other in cycles, and the recursion of the source has no bound then; here it is bounded by a depth.
-/

namespace GoEtl.Document

open Library Text DataTree

variable {α : Type}

/-! ### Memory -/

/-- A value of the type `any`. -/
inductive Slot (α : Type) where
  | null
  | scalar (value : α)
  | ref (kind : Kind) (address : ℕ)

/-- `value.(map[string]any)`. -/
def Slot.object? : Slot α → Option ℕ
  | .ref .object address => some address
  | _ => none

/-- What a map or a slice refers to. -/
structure Cell (α : Type) where
  kind : Kind
  children : List (Chars × Slot α)

/-- The cells, by their addresses. -/
abbrev Heap (α : Type) := List (Cell α)

/-- How a computation ends without a result. -/
inductive Failure where
  /-- An error of the source. -/
  | message (text : String)
  /-- A reference to nothing, or deeper than the bound. -/
  | outside

/-- A computation that reads and writes cells. -/
abbrev Action (α : Type) := EStateM Failure (Heap α)

/-- The children of a map or a slice. -/
def readCell (kind : Kind) (address : ℕ) : Action α (List (Chars × Slot α)) := fun heap =>
  match heap[address]? with
  | some cell => if cell.kind = kind then .ok cell.children heap else .error .outside heap
  | none => .error .outside heap

/-- `make`, with the children that are put in right after it. -/
def allocate (cell : Cell α) : Action α (Slot α) := fun heap => .ok (.ref cell.kind heap.length) (heap ++ [cell])

/-- `target[key] = value`. -/
def writeField (target : ℕ) (key : Chars) (value : Slot α) : Action α Unit := do
  let fields ← readCell .object target
  modify fun heap => heap.set target ⟨.object, putSorted key value fields⟩

/-! ### The source -/

/-- `jsonPointerEscape`. -/
def jsonPointerEscape (segment : Chars) : Chars :=
  segment.flatMap fun c => if c = '~' then ['~', '0'] else if c = '/' then ['~', '1'] else [c]

/-- `appendDataPath`. -/
def appendDataPath (parent segment : Chars) : Chars := parent ++ '/' :: jsonPointerEscape segment

/-- The path of a child: a key is escaped, an index is not. -/
def childPath : Kind → Chars → Chars → Chars
  | .object, path, key => appendDataPath path key
  | .list, path, index => path ++ '/' :: index

/-- `dataShapeName`. -/
def dataShapeName : Slot α → String
  | .ref .object _ => "object"
  | .ref .list _ => "list"
  | _ => "scalar"

/-- The layer that each path was last written from. -/
abbrev Provenance := List (Chars × Chars)

section

variable (layer : Chars)

/-- `cloneDataValue`. -/
def cloneDataValue : ℕ → Chars → Slot α → Action α (Slot α)
  | _, path, .null =>
    throw (.message ("data overlay at " ++ String.ofList path ++ " from " ++ String.ofList layer ++
      ": null cannot delete or replace data"))
  | _, _, .scalar value => pure (.scalar value)
  | 0, _, .ref _ _ => throw .outside
  | depth + 1, path, .ref kind address => do
    let children ← readCell kind address
    let copied ← children.mapM fun child => do
      let copy ← cloneDataValue depth (childPath kind path child.1) child.2
      pure (child.1, copy)
    allocate ⟨kind, copied⟩

/-- `markDataProvenance`. -/
def markDataProvenance : ℕ → Chars → Provenance → Slot α → Action α Provenance
  | 0, _, _, .ref .object _ => throw .outside
  | depth + 1, path, provenance, .ref .object address => do
    let children ← readCell .object address
    children.foldlM (fun provenance child => markDataProvenance depth (appendDataPath path child.1) provenance child.2)
      ((path, layer) :: provenance)
  | _, path, provenance, _ => pure ((path, layer) :: provenance)

/-- The error of a field that is an object in one layer only. -/
def conflict (provenance : Provenance) (path : Chars) (current next : Slot α) : Failure :=
  let previous := match provenance.lookup path with
    | some (c :: rest) => c :: rest
    | _ => chars "earlier data layer"
  .message ("data overlay at " ++ String.ofList path ++ " from " ++ String.ofList layer ++ " conflicts with " ++
    String.ofList previous ++ ": cannot replace " ++ dataShapeName current ++ " with " ++ dataShapeName next)

/-- A round of the loop in `overlayDataObject`, with the call for the objects in it as an argument. -/
def overlayDataField (depth : ℕ) (overlayObject : ℕ → ℕ → Chars → Provenance → Action α Provenance) (target : ℕ) (path : Chars)
    (provenance : Provenance) (field : Chars × Slot α) : Action α Provenance := do
  let itemPath := appendDataPath path field.1
  let next ← cloneDataValue layer depth itemPath field.2
  let fields ← readCell .object target
  match fields.lookup field.1 with
  | none => do
    writeField target field.1 next
    markDataProvenance layer depth itemPath provenance next
  | some current =>
    match current.object?, next.object? with
    | some currentObject, some nextObject => overlayObject currentObject nextObject itemPath provenance
    | none, none => do
      writeField target field.1 next
      markDataProvenance layer depth itemPath provenance next
    | _, _ => throw (conflict layer provenance itemPath current next)

/-- `overlayDataObject`. -/
def overlayDataObject : ℕ → ℕ → ℕ → Chars → Provenance → Action α Provenance
  | 0, _, _, _, _ => throw .outside
  | depth + 1, target, source, path, provenance => do
    let fields ← readCell .object source
    fields.foldlM (overlayDataField layer depth (overlayDataObject depth) target path) provenance

end

/-- `DataOverlaySource`, whose tree may be a nil map. -/
structure DataOverlaySource where
  layer : Chars
  tree : Option ℕ

/-- The loop in `OverlayDataTrees`. -/
def overlaySources (depth target : ℕ) : ℕ → Provenance → List DataOverlaySource → Action α Unit
  | _, _, [] => pure ()
  | index, provenance, source :: rest =>
    match source.tree with
    | none => overlaySources depth target (index + 1) provenance rest
    | some tree => do
      let layer := if source.layer = [] then chars "data layer " ++ Nat.toDigits 10 index else source.layer
      let provenance ← overlayDataObject layer depth target tree [] provenance
      overlaySources depth target (index + 1) provenance rest

/-- `OverlayDataTrees`: the address of the result. -/
def overlayDataTrees (depth : ℕ) (sources : List DataOverlaySource) : Action α ℕ := do
  let target ← modifyGet fun heap => (heap.length, heap ++ [⟨.object, []⟩])
  overlaySources depth target 0 [] sources
  pure target

/-- The overlay of the overlays of groups of sources. -/
def overlayGroups (depth : ℕ) (groups : List (List DataOverlaySource)) : Action α ℕ := do
  let results ← groups.mapM (overlayDataTrees depth)
  overlayDataTrees depth (results.map fun result => ⟨[], some result⟩)

/-! ### Trees in memory -/

/-- A tree with the addresses of its lists and objects. -/
abbrev Built (α : Type) := DataTree α ℕ

variable {children : List (Chars × Built α)} {tree : Built α}

namespace DataTree

/-- The value that refers to a tree. -/
def slot : Built α → Slot α
  | .null => .null
  | .scalar value => .scalar value
  | .node address kind _ => .ref kind address

/-- The values that refer to children. -/
def slots (children : List (Chars × Built α)) : List (Chars × Slot α) := children.map (Prod.map id slot)

mutual

/-- The tree without its addresses. -/
def erase : Built α → Tree α
  | .null => .null
  | .scalar value => .scalar value
  | .node _ kind children => .node () kind (eraseAll children)

/-- The children without their addresses. -/
def eraseAll : List (Chars × Built α) → Fields α
  | [] => []
  | (label, child) :: rest => (label, child.erase) :: eraseAll rest

end

mutual

/-- The addresses of a tree. -/
def addresses : Built α → List ℕ
  | .node address _ children => address :: addressesAll children
  | _ => []

/-- The addresses of children. -/
def addressesAll : List (Chars × Built α) → List ℕ
  | [] => []
  | (_, child) :: rest => child.addresses ++ addressesAll rest

end

mutual

/-- The cells of the tree are in memory. -/
def Stored (heap : Heap α) : Built α → Prop
  | .node address kind children => heap[address]? = some ⟨kind, slots children⟩ ∧ StoredAll heap children
  | _ => True

/-- The cells of the children are in memory. -/
def StoredAll (heap : Heap α) : List (Chars × Built α) → Prop
  | [] => True
  | (_, child) :: rest => child.Stored heap ∧ StoredAll heap rest

end

theorem eraseAll_eq (children : List (Chars × Built α)) : eraseAll children = children.map (Prod.map id erase) := by
  induction children with
  | nil => rfl
  | cons child rest ih => rw [eraseAll, ih, List.map_cons, Prod.map]; rfl

theorem addressesAll_eq (children : List (Chars × Built α)) : addressesAll children = children.flatMap (·.2.addresses) := by
  induction children with
  | nil => rfl
  | cons child rest ih => rw [addressesAll, ih, List.flatMap_cons]

theorem storedAll_iff {heap : Heap α} :
    StoredAll heap children ↔ ∀ child ∈ children, child.2.Stored heap := by
  induction children with
  | nil => simp [StoredAll]
  | cons child rest ih => simp [StoredAll, ih]

mutual

theorem nullFree_erase : ∀ tree : Built α, tree.erase.nullFree = tree.nullFree
  | .null => rfl
  | .scalar _ => rfl
  | .node _ _ children => nullFreeAll_erase children

theorem nullFreeAll_erase : ∀ children : List (Chars × Built α), nullFreeAll (eraseAll children) = nullFreeAll children
  | [] => rfl
  | (_, child) :: rest => by rw [eraseAll, nullFreeAll, nullFreeAll, nullFree_erase child, nullFreeAll_erase rest]

end

mutual

theorem depth_erase : ∀ tree : Built α, tree.erase.depth = tree.depth
  | .null => rfl
  | .scalar _ => rfl
  | .node _ _ children => congrArg (· + 1) (depthAll_erase children)

theorem depthAll_erase : ∀ children : List (Chars × Built α), depthAll (eraseAll children) = depthAll children
  | [] => rfl
  | (_, child) :: rest => by rw [eraseAll, depthAll, depthAll, depth_erase child, depthAll_erase rest]

end

theorem inOrder_eraseAll : InOrder (eraseAll children) ↔ InOrder children := by
  rw [eraseAll_eq, InOrder, List.pairwise_map]
  exact Iff.rfl

mutual

theorem valid_erase : ∀ tree : Built α, tree.erase.Valid ↔ tree.Valid
  | .null => Iff.rfl
  | .scalar _ => Iff.rfl
  | .node _ _ children => and_congr (imp_congr_right fun _ => inOrder_eraseAll) (validAll_erase children)

theorem validAll_erase : ∀ children : List (Chars × Built α), ValidAll (eraseAll children) ↔ ValidAll children
  | [] => Iff.rfl
  | (_, child) :: rest => and_congr (valid_erase child) (validAll_erase rest)

end

mutual

/-- A tree is in every memory that has its cells. -/
theorem Stored.congr {heap heap' : Heap α} : ∀ {tree : Built α}, tree.Stored heap →
    (∀ address ∈ tree.addresses, heap'[address]? = heap[address]?) → tree.Stored heap'
  | .null, _, _ => trivial
  | .scalar _, _, _ => trivial
  | .node _ _ _, h, hsame =>
    ⟨(hsame _ (List.mem_cons_self ..)).trans h.1, StoredAll.congr h.2 fun a ha => hsame a (List.mem_cons_of_mem _ ha)⟩

/-- Children are in every memory that has their cells. -/
theorem StoredAll.congr {heap heap' : Heap α} : ∀ {children : List (Chars × Built α)}, StoredAll heap children →
    (∀ address ∈ addressesAll children, heap'[address]? = heap[address]?) → StoredAll heap' children
  | [], _, _ => trivial
  | _ :: _, h, hsame => ⟨h.1.congr fun a ha => hsame a (List.mem_append_left _ ha),
      StoredAll.congr h.2 fun a ha => hsame a (List.mem_append_right _ ha)⟩

end

mutual

theorem Stored.lt {heap : Heap α} : ∀ {tree : Built α}, tree.Stored heap → ∀ address ∈ tree.addresses, address < heap.length
  | .null, _, _, h => by cases h
  | .scalar _, _, _, h => by cases h
  | .node _ _ _, hstored, _, h => by
    rcases List.mem_cons.1 h with rfl | h
    · exact (List.getElem?_eq_some_iff.1 hstored.1).1
    · exact StoredAll.lt hstored.2 _ h

theorem StoredAll.lt {heap : Heap α} : ∀ {children : List (Chars × Built α)}, StoredAll heap children →
    ∀ address ∈ addressesAll children, address < heap.length
  | [], _, _, h => by cases h
  | _ :: _, hstored, _, h => by
    rcases List.mem_append.1 h with h | h
    · exact hstored.1.lt _ h
    · exact StoredAll.lt hstored.2 _ h

end

end DataTree

/-! ### Computations -/

variable {β γ δ : Type} {heap heap' : Heap α} {writable writable' : ℕ → Prop}

theorem bind_ok {x : Action α β} {f : β → Action α γ} {b : β} (h : x heap = .ok b heap') : (x >>= f) heap = f b heap' := by
  show EStateM.bind x f heap = _
  rw [EStateM.bind, h]

theorem bind_error {x : Action α β} {f : β → Action α γ} {e : Failure} (h : x heap = .error e heap') :
    (x >>= f) heap = .error e heap' := by
  show EStateM.bind x f heap = _
  rw [EStateM.bind, h]

theorem readCell_ok {kind : Kind} {address : ℕ} {children : List (Chars × Slot α)}
    (h : heap[address]? = some ⟨kind, children⟩) : readCell kind address heap = .ok children heap := by
  simp [readCell, h]

/-- No cell is lost, and those that may not be written are as before. -/
structure Keeps (writable : ℕ → Prop) (heap heap' : Heap α) : Prop where
  length : heap.length ≤ heap'.length
  same : ∀ address, ¬writable address → heap'[address]? = heap[address]?

namespace Keeps

theorem refl : Keeps writable heap heap := ⟨le_rfl, fun _ _ => rfl⟩

theorem trans {heap'' : Heap α} (h : Keeps writable heap heap') (h' : Keeps writable heap' heap'') :
    Keeps writable heap heap'' :=
  ⟨h.length.trans h'.length, fun a ha => (h'.same a ha).trans (h.same a ha)⟩

theorem mono (h : Keeps writable heap heap') (hmore : ∀ a, writable a → writable' a) : Keeps writable' heap heap' :=
  ⟨h.length, fun a ha => h.same a fun hwritable => ha (hmore a hwritable)⟩

/-- New cells are put behind the others. -/
theorem append (heap new : Heap α) : Keeps (heap.length ≤ ·) heap (heap ++ new) :=
  ⟨by simp, fun _ ha => List.getElem?_append_left (Nat.not_le.1 ha)⟩

variable (h : Keeps (heap.length ≤ ·) heap heap')

include h

theorem stored (hstored : tree.Stored heap) : tree.Stored heap' :=
  hstored.congr fun a ha => h.same a (Nat.not_le.2 (hstored.lt a ha))

theorem storedAll (hstored : StoredAll heap children) : StoredAll heap' children :=
  hstored.congr fun a ha => h.same a (Nat.not_le.2 (hstored.lt a ha))

theorem exists_append : ∃ new, heap' = heap ++ new := by
  have hbefore : heap <+: heap' := by
    rw [List.prefix_iff_getElem?]
    intro i hi
    rw [h.same i (Nat.not_le.2 hi), List.getElem?_eq_getElem hi]
  exact hbefore.imp fun _ => Eq.symm

end Keeps

/-- What a computation does: it writes to some cells only, and it has a result if one is expected, or else an error of the
source. -/
def Runs (heap : Heap α) (writable : ℕ → Prop) (post : γ → β → Heap α → Prop) :
    Option γ → EStateM.Result Failure (Heap α) β → Prop
  | some expected, result => ∃ value heap', result = .ok value heap' ∧ Keeps writable heap heap' ∧ post expected value heap'
  | none, result => ∃ text heap', result = .error (.message text) heap' ∧ Keeps writable heap heap'

/-- The memory that a computation leaves. -/
def after : EStateM.Result Failure (Heap α) β → Heap α
  | .ok _ heap => heap
  | .error _ heap => heap

/-- The computation succeeded. -/
def Succeeds (result : EStateM.Result Failure (Heap α) β) : Prop := ∃ value heap, result = .ok value heap

namespace Runs

variable {post : γ → β → Heap α → Prop} {expected : Option γ} {result : EStateM.Result Failure (Heap α) β}

theorem done {e : γ} {value : β} (h : post e value heap) : Runs heap writable post (some e) (.ok value heap) :=
  ⟨value, heap, rfl, .refl, h⟩

theorem map {δ : Type} {post' : δ → β → Heap α → Prop} (h : Runs heap writable post expected result) (g : γ → δ)
    (hmore : ∀ a, writable a → writable' a)
    (hpost : ∀ e value heap', Keeps writable heap heap' → post e value heap' → post' (g e) value heap') :
    Runs heap writable' post' (expected.map g) result := by
  cases expected with
  | none =>
    obtain ⟨text, heap', hresult, hkeeps⟩ := h
    exact ⟨text, heap', hresult, hkeeps.mono hmore⟩
  | some e =>
    obtain ⟨value, heap', hresult, hkeeps, hvalue⟩ := h
    exact ⟨value, heap', hresult, hkeeps.mono hmore, hpost e value heap' hkeeps hvalue⟩

theorem mono {post' : γ → β → Heap α → Prop} (h : Runs heap writable post expected result)
    (hmore : ∀ a, writable a → writable' a)
    (hpost : ∀ e value heap', Keeps writable heap heap' → post e value heap' → post' e value heap') :
    Runs heap writable' post' expected result := by
  have hmap := h.map id hmore hpost
  rwa [Option.map_id] at hmap

/-- What was done before counts too. -/
theorem trans (h : Runs heap' writable post expected result) (hkeeps : Keeps writable heap heap') :
    Runs heap writable post expected result := by
  cases expected with
  | none =>
    obtain ⟨text, heap'', hresult, hkeeps'⟩ := h
    exact ⟨text, heap'', hresult, hkeeps.trans hkeeps'⟩
  | some e =>
    obtain ⟨value, heap'', hresult, hkeeps', hvalue⟩ := h
    exact ⟨value, heap'', hresult, hkeeps.trans hkeeps', hvalue⟩

/-- **One after the other.** -/
theorem bind {x : Action α β} {f : β → Action α δ} {ε : Type} {next : γ → Option ε} {post' : ε → δ → Heap α → Prop}
    (h : Runs heap writable post expected (x heap)) (hnext : ∀ e value heap', expected = some e → Keeps writable heap heap' →
      post e value heap' → Runs heap' writable post' (next e) (f value heap')) :
    Runs heap writable post' (expected.bind next) ((x >>= f) heap) := by
  cases expected with
  | none =>
    obtain ⟨text, heap', hrun, hkeeps⟩ := h
    exact ⟨text, heap', bind_error hrun, hkeeps⟩
  | some e =>
    obtain ⟨value, heap', hrun, hkeeps, hvalue⟩ := h
    rw [Option.bind_some, bind_ok hrun]
    exact (hnext e value heap' rfl hkeeps hvalue).trans hkeeps

theorem succeeds (h : Runs heap writable post expected result) : Succeeds result ↔ expected.isSome := by
  cases expected with
  | none =>
    obtain ⟨text, heap', rfl, _⟩ := h
    exact iff_of_false (fun ⟨_, _, hok⟩ => by cases hok) (by simp)
  | some e =>
    obtain ⟨value, heap', rfl, _⟩ := h
    exact iff_of_true ⟨value, heap', rfl⟩ rfl

theorem of_ok {value : β} (h : Runs heap writable post expected (.ok value heap')) : ∃ e, expected = some e ∧ post e value heap' := by
  cases expected with
  | none =>
    obtain ⟨text, heap', hresult, _⟩ := h
    cases hresult
  | some e =>
    obtain ⟨value, heap', hresult, _, hvalue⟩ := h
    cases hresult
    exact ⟨e, rfl, hvalue⟩

theorem after_eq (h : Runs heap (heap.length ≤ ·) post expected result) : ∃ new, after result = heap ++ new := by
  cases expected with
  | none =>
    obtain ⟨text, heap', rfl, hkeeps⟩ := h
    exact hkeeps.exists_append
  | some e =>
    obtain ⟨value, heap', rfl, hkeeps, _⟩ := h
    exact hkeeps.exists_append

end Runs

/-! ### Cloning -/

/-- Addresses from some address on, no two of them the same. -/
structure Fresh (start : ℕ) (addresses : List ℕ) : Prop where
  nodup : addresses.Nodup
  fresh : ∀ a ∈ addresses, start ≤ a

theorem Fresh.append {start middle : ℕ} {first rest : List ℕ} (h : Fresh start first) (hbelow : ∀ a ∈ first, a < middle)
    (h' : Fresh middle rest) (hle : start ≤ middle) : Fresh start (first ++ rest) := by
  refine ⟨List.nodup_append.2 ⟨h.nodup, h'.nodup, fun a ha b hb hab => ?_⟩, fun a ha => ?_⟩
  · have hlt := hbelow a ha
    have hge := h'.fresh b hb
    omega
  · rcases List.mem_append.1 ha with ha | ha
    · exact h.fresh a ha
    · exact hle.trans (h'.fresh a ha)

/-- A copy of the tree that is expected, in new cells. -/
def Copied (start : ℕ) (expected : Tree α) (value : Slot α) (heap : Heap α) : Prop :=
  ∃ copy : Built α, value = copy.slot ∧ copy.erase = expected ∧ copy.Stored heap ∧ Fresh start copy.addresses

/-- Copies of the children that are expected, in new cells. -/
def CopiedAll (start : ℕ) (expected : Fields α) (values : List (Chars × Slot α)) (heap : Heap α) : Prop :=
  ∃ copies, values = slots copies ∧ eraseAll copies = expected ∧ StoredAll heap copies ∧ Fresh start (addressesAll copies)

/-- A tree that has no null. -/
def cleaned (tree : Built α) : Option (Tree α) := if tree.nullFree then some tree.erase else none

/-- Children that have no null. -/
def cleanedAll (children : List (Chars × Built α)) : Option (Fields α) :=
  if nullFreeAll children then some (eraseAll children) else none

theorem cleanedAll_cons (child : Chars × Built α) (rest : List (Chars × Built α)) :
    cleanedAll (child :: rest) = (cleaned child.2).bind fun first =>
      (cleanedAll rest).bind fun others => some ((child.1, first) :: others) := by
  unfold cleanedAll cleaned
  rw [nullFreeAll]
  cases child.2.nullFree <;> cases nullFreeAll rest <;> rfl

theorem slots_cons (child : Chars × Built α) (rest : List (Chars × Built α)) :
    slots (child :: rest) = (child.1, child.2.slot) :: slots rest := rfl

/-- The loop over the children. -/
theorem cloneChildren_runs (clone : Chars × Slot α → Action α (Slot α))
    (hclone : ∀ child ∈ children, ∀ heap, child.2.Stored heap →
      Runs heap (heap.length ≤ ·) (Copied heap.length) (cleaned child.2) (clone (child.1, child.2.slot) heap))
    (hstored : StoredAll heap children) : Runs heap (heap.length ≤ ·) (CopiedAll heap.length) (cleanedAll children)
      (((slots children).mapM fun child => do let copy ← clone child; pure (child.1, copy) : Action α _) heap) := by
  induction children generalizing heap with
  | nil => exact .done ⟨[], rfl, rfl, trivial, .nil, by simp [addressesAll]⟩
  | cons child rest ih =>
    rw [List.forall_mem_cons] at hclone
    rw [slots_cons, List.mapM_cons, cleanedAll_cons, bind_assoc]
    simp only [pure_bind]
    refine (hclone.1 heap hstored.1).bind fun first _ heap' _ hkeeps ⟨copy, hcopy, herase, hcopyStored, hfresh⟩ => ?_
    refine Runs.mono (Runs.bind (ih hclone.2 (hkeeps.storedAll hstored.2))
      fun others _ heap'' _ hkeeps' ⟨copies, hcopies, heraseAll, hcopiesStored, hfresh'⟩ => .done ?_)
      (fun a => hkeeps.length.trans) fun _ _ _ _ h => h
    refine ⟨(child.1, copy) :: copies, by rw [slots_cons, hcopy, hcopies], by rw [eraseAll, herase, heraseAll],
      ⟨hkeeps'.stored hcopyStored, hcopiesStored⟩, ?_⟩
    exact hfresh.append hcopyStored.lt hfresh' hkeeps.length

/-- **A clone is a copy in new cells.** -/
theorem cloneDataValue_runs (layer : Chars) (depth : ℕ) (path : Chars) (tree : Built α) (heap : Heap α)
    (hstored : tree.Stored heap) (hdepth : tree.depth ≤ depth) :
    Runs heap (heap.length ≤ ·) (Copied heap.length) (cleaned tree) (cloneDataValue layer depth path tree.slot heap) := by
  induction tree using children_induction generalizing depth path heap with
  | null => cases depth <;> exact ⟨_, heap, rfl, .refl⟩
  | scalar value => cases depth <;> exact .done ⟨.scalar value, rfl, rfl, trivial, .nil, by simp [addresses]⟩
  | node address kind children ih =>
    cases depth with
    | zero => cases hdepth
    | succ depth =>
      have hcleaned : cleaned (.node address kind children) = (cleanedAll children).bind fun copied => some (.node () kind copied) := by
        unfold cleaned cleanedAll
        rw [nullFree]
        cases nullFreeAll children <;> rfl
      rw [hcleaned]
      have hchildren := cloneChildren_runs (fun child => cloneDataValue layer depth (childPath kind path child.1) child.2)
        (fun child hchild heap hchildStored => ih child hchild depth _ heap hchildStored
          (depthAll_le.1 (Nat.le_of_succ_le_succ hdepth) child hchild)) hstored.2
      have hunfold : cloneDataValue layer (depth + 1) path (.ref kind address : Slot α) = (do
          let children ← readCell kind address
          let copied ← children.mapM fun child => do
            let copy ← cloneDataValue layer depth (childPath kind path child.1) child.2
            pure (child.1, copy)
          allocate ⟨kind, copied⟩) := rfl
      rw [slot, hunfold, bind_ok (readCell_ok hstored.1)]
      refine hchildren.bind fun _ _ heap' _ hkeeps ⟨copies, hcopies, herase, hcopiesStored, hfresh⟩ => ?_
      have hnew := Keeps.append heap' [⟨kind, slots copies⟩]
      refine ⟨_, heap' ++ [⟨kind, slots copies⟩], by rw [hcopies]; rfl, hnew.mono fun a => hkeeps.length.trans,
        .node heap'.length kind copies, rfl, by rw [erase, herase], ⟨by simp, hnew.storedAll hcopiesStored⟩, ?_⟩
      refine ⟨List.nodup_cons.2 ⟨fun hmem => lt_irrefl _ (hcopiesStored.lt _ hmem), hfresh.nodup⟩, ?_⟩
      exact List.forall_mem_cons.2 ⟨hkeeps.length, hfresh.fresh⟩

/-- Marking reads only. -/
theorem markDataProvenance_ok (layer : Chars) (depth : ℕ) (path : Chars) (provenance : Provenance) (tree : Built α)
    (hstored : tree.Stored heap) (hdepth : tree.depth ≤ depth) :
    ∃ provenance', markDataProvenance layer depth path provenance tree.slot heap = .ok provenance' heap := by
  induction tree using children_induction generalizing depth path provenance with
  | null => cases depth <;> exact ⟨_, rfl⟩
  | scalar value => cases depth <;> exact ⟨_, rfl⟩
  | node address kind children ih =>
    cases depth with
    | zero => cases hdepth
    | succ depth =>
      cases kind with
      | list => exact ⟨_, rfl⟩
      | object =>
        have hunfold : markDataProvenance layer (depth + 1) path provenance (.ref .object address : Slot α) = (do
            let children ← readCell .object address
            children.foldlM (fun provenance child =>
              markDataProvenance layer depth (appendDataPath path child.1) provenance child.2)
              ((path, layer) :: provenance)) := rfl
        rw [slot, hunfold, bind_ok (readCell_ok hstored.1)]
        generalize (path, layer) :: provenance = provenance
        have hchildren := hstored.2
        have hdeep := depthAll_le.1 (Nat.le_of_succ_le_succ hdepth)
        clear hunfold hdepth hstored
        induction children generalizing provenance with
        | nil => exact ⟨provenance, rfl⟩
        | cons child rest ihrest =>
          rw [List.forall_mem_cons] at hdeep ih
          obtain ⟨provenance', hrun⟩ := ih.1 depth (appendDataPath path child.1) provenance hchildren.1 hdeep.1
          obtain ⟨provenance'', hrun'⟩ := ihrest ih.2 provenance' hchildren.2 hdeep.2
          exact ⟨provenance'', by rw [slots_cons, List.foldlM_cons, bind_ok hrun, hrun']⟩

/-! ### Targets -/

variable {address : ℕ} {fields : List (Chars × Built α)} {key : Chars} {value : Built α}

/-- An object with its address. -/
abbrev object (address : ℕ) (fields : List (Chars × Built α)) : Built α := .node address .object fields

/-- An object that is written to: its cells are in memory, no two of them the same, and its keys are in order. -/
structure Target (heap : Heap α) (address : ℕ) (fields : List (Chars × Built α)) : Prop where
  stored : (object address fields).Stored heap
  valid : (object address fields).Valid
  nodup : (object address fields).addresses.Nodup

namespace Target

theorem order (h : Target heap address fields) : InOrder fields := h.valid.1 rfl

theorem not_mem_child (h : Target heap address fields) {child : Chars × Built α} (hchild : child ∈ fields) :
    address ∉ child.2.addresses := by
  intro hmem
  refine (List.nodup_cons.1 h.nodup).1 ?_
  rw [addressesAll_eq]
  exact List.mem_flatMap.2 ⟨child, hchild, hmem⟩

theorem mem_of_child {child : Chars × Built α} (hchild : child ∈ fields) {a : ℕ} (ha : a ∈ child.2.addresses) :
    a ∈ (object address fields).addresses := by
  refine List.mem_cons_of_mem _ ?_
  rw [addressesAll_eq]
  exact List.mem_flatMap.2 ⟨child, hchild, ha⟩

/-- The cells of two fields are not the same. -/
theorem disjoint (h : Target heap address fields) {child other : Chars × Built α} (hchild : child ∈ fields)
    (hother : other ∈ fields) (hne : child.1 ≠ other.1) : List.Disjoint child.2.addresses other.2.addresses := by
  have hnodup := (List.nodup_cons.1 h.nodup).2
  rw [addressesAll_eq, List.nodup_flatMap] at hnodup
  have hsymm : Std.Symm (Function.onFun List.Disjoint fun child : Chars × Built α => child.2.addresses) :=
    ⟨fun _ _ hdisjoint => List.disjoint_symm hdisjoint⟩
  exact hnodup.2.forall hchild hother fun heq => hne (by rw [heq])

/-- An object in an object. -/
theorem child (h : Target heap address fields) {note : ℕ} {inner : List (Chars × Built α)}
    (hchild : (key, object note inner) ∈ fields) : Target heap note inner := by
  have hnodup := (List.nodup_cons.1 h.nodup).2
  rw [addressesAll_eq, List.nodup_flatMap] at hnodup
  exact ⟨storedAll_iff.1 h.stored.2 _ hchild, validAll_iff.1 h.valid.2 _ hchild, hnodup.1 _ hchild⟩

/-- **A field was written**, and the cells of the other fields were left alone. -/
theorem put (h : Target heap address fields) (hcell : heap'[address]? = some ⟨.object, slots (putSorted key value fields)⟩)
    (hvalue : value.Stored heap') (hvalid : value.Valid) (hnodup : value.addresses.Nodup) (haddress : address ∉ value.addresses)
    (hothers : ∀ field ∈ fields, field.1 ≠ key → ∀ a ∈ field.2.addresses, heap'[a]? = heap[a]? ∧ a ∉ value.addresses) :
    Target heap' address (putSorted key value fields) := by
  have hfields := (List.nodup_cons.1 h.nodup).2
  rw [addressesAll_eq, List.nodup_flatMap] at hfields
  refine ⟨⟨hcell, storedAll_iff.2 fun field hfield => ?_⟩,
    ⟨fun _ => inOrder_putSorted h.order key value, validAll_iff.2 fun field hfield => ?_⟩, List.nodup_cons.2 ⟨?_, ?_⟩⟩
  · rcases h.order.mem_put hfield with rfl | ⟨hmem, hne⟩
    · exact hvalue
    · exact (storedAll_iff.1 h.stored.2 field hmem).congr fun a ha => (hothers field hmem hne a ha).1
  · rcases h.order.mem_put hfield with rfl | ⟨hmem, hne⟩
    · exact hvalid
    · exact validAll_iff.1 h.valid.2 field hmem
  · rw [addressesAll_eq]
    intro hmem
    obtain ⟨field, hfield, hmem⟩ := List.mem_flatMap.1 hmem
    rcases h.order.mem_put hfield with rfl | ⟨hold, hne⟩
    · exact haddress hmem
    · exact h.not_mem_child hold hmem
  · rw [addressesAll_eq, List.nodup_flatMap]
    refine ⟨fun field hfield => ?_, pairwise_putSorted (fun _ _ hd => List.disjoint_symm hd) h.order hfields.2
      fun field hfield hne a hvalue ha => (hothers field hfield hne a ha).2 hvalue⟩
    rcases h.order.mem_put hfield with rfl | ⟨hold, hne⟩
    · exact hnodup
    · exact hfields.1 field hold

theorem mem_addresses_put (h : Target heap address fields) {a : ℕ}
    (ha : a ∈ (object address (putSorted key value fields)).addresses) :
    a ∈ value.addresses ∨ a ∈ (object address fields).addresses := by
  rcases List.mem_cons.1 ha with rfl | ha
  · exact .inr (List.mem_cons_self ..)
  · rw [addressesAll_eq] at ha
    obtain ⟨field, hfield, hmem⟩ := List.mem_flatMap.1 ha
    rcases h.order.mem_put hfield with rfl | ⟨hold, hne⟩
    · exact .inl hmem
    · exact .inr (mem_of_child hold hmem)

end Target

/-! ### Overlaying -/

/-- The cells of an object and all new ones. -/
def Reach (heap : Heap α) (address : ℕ) (fields : List (Chars × Built α)) (a : ℕ) : Prop :=
  a ∈ (object address fields).addresses ∨ heap.length ≤ a

/-- The target has the fields that are expected, in cells that may be written. -/
def Overlaid (writable : ℕ → Prop) (address : ℕ) (expected : Fields α) (heap : Heap α) : Prop :=
  ∃ fields, eraseAll fields = expected ∧ Target heap address fields ∧ ∀ a ∈ (object address fields).addresses, writable a

theorem Overlaid.mono {expected : Fields α} (h : Overlaid writable address expected heap)
    (hmore : ∀ a, writable a → writable' a) : Overlaid writable' address expected heap :=
  h.imp fun _ h => ⟨h.1, h.2.1, fun a ha => hmore a (h.2.2 a ha)⟩

/-- What laying fields over a target does to it: the target has the merged fields, or there is an error. Other cells are
left alone. -/
abbrev Overlays (heap : Heap α) (address : ℕ) (fields : List (Chars × Built α)) (merged : Option (Fields α))
    (result : EStateM.Result Failure (Heap α) β) : Prop :=
  Runs heap (Reach heap address fields) (fun e _ heap' => Overlaid (Reach heap address fields) address e heap') merged result

theorem lookup_slots (fields : List (Chars × Built α)) (key : Chars) : (slots fields).lookup key = (fields.lookup key).map slot :=
  lookup_map_values slot fields key

theorem inOrder_slots (h : InOrder fields) : InOrder (slots fields) := List.pairwise_map.2 h

theorem lookup_eraseAll (fields : List (Chars × Built α)) (key : Chars) :
    (eraseAll fields).lookup key = (fields.lookup key).map erase := by
  rw [eraseAll_eq, lookup_map_values]

theorem eraseAll_putSorted (fields : List (Chars × Built α)) (key : Chars) (value : Built α) :
    eraseAll (putSorted key value fields) = putSorted key value.erase (eraseAll fields) := by
  rw [eraseAll_eq, eraseAll_eq, map_putSorted]

theorem slots_putSorted (fields : List (Chars × Built α)) (key : Chars) (value : Built α) :
    slots (putSorted key value fields) = putSorted key value.slot (slots fields) :=
  map_putSorted slot fields key value

theorem object?_leaf (h : tree.leaf? = some tree) : tree.slot.object? = none := by
  cases tree with
  | null => rfl
  | scalar value => rfl
  | node address kind children => cases kind with
    | list => rfl
    | object => cases h

theorem erase_leaf (h : tree.leaf? = some tree) : tree.erase.leaf? = some tree.erase := by
  cases tree with
  | null => rfl
  | scalar value => rfl
  | node address kind children => cases kind with
    | list => rfl
    | object => cases h

variable {depth : ℕ}

/-- A value that can be laid over a target: none of its cells is one of the target. -/
structure Apart (heap : Heap α) (depth address : ℕ) (fields : List (Chars × Built α)) (value : Built α) : Prop where
  stored : value.Stored heap
  valid : value.Valid
  depth_le : value.depth ≤ depth
  disjoint : List.Disjoint value.addresses (object address fields).addresses

/-- The cells of a target, those of a value that is put into it, and all new ones. -/
def Joined (heap : Heap α) (address : ℕ) (fields : List (Chars × Built α)) (value : Built α) (a : ℕ) : Prop :=
  a ∈ value.addresses ∨ Reach heap address fields a

/-- **A new value is written into the target.** -/
theorem write_runs (layer path : Chars) (provenance : Provenance) (key : Chars) (htarget : Target heap address fields)
    (hvalue : Apart heap depth address fields value) (hnodup : value.addresses.Nodup) :
    Runs heap (Joined heap address fields value) (fun e _ heap' => Overlaid (Joined heap address fields value) address e heap')
      (some (putSorted key value.erase (eraseAll fields)))
      ((do writeField address key value.slot; markDataProvenance layer depth path provenance value.slot :
        Action α Provenance) heap) := by
  have hwrite : writeField address key value.slot heap =
      .ok () (heap.set address ⟨.object, slots (putSorted key value fields)⟩) := by
    rw [writeField, bind_ok (readCell_ok htarget.stored.1), slots_putSorted]
    rfl
  have hroot : address ∉ value.addresses := fun hmem => hvalue.disjoint hmem (List.mem_cons_self ..)
  have hother : ∀ a ≠ address, (heap.set address ⟨.object, slots (putSorted key value fields)⟩)[a]? = heap[a]? :=
    fun a ha => List.getElem?_set_ne (Ne.symm ha)
  have hstored := hvalue.stored.congr fun a ha => hother a fun heq => hroot (heq ▸ ha)
  obtain ⟨provenance', hmark⟩ := markDataProvenance_ok layer depth path provenance value hstored hvalue.depth_le
  refine ⟨provenance', _, by rw [bind_ok hwrite, hmark], ⟨by simp, fun a ha => hother a ?_⟩, putSorted key value fields,
    eraseAll_putSorted .., ?_, fun a ha => (htarget.mem_addresses_put ha).imp_right .inl⟩
  · rintro rfl
    exact ha (.inr (.inl (List.mem_cons_self ..)))
  · have hcell := List.getElem?_set_self (a := (⟨.object, slots (putSorted key value fields)⟩ : Cell α))
      (htarget.stored.lt address (List.mem_cons_self ..))
    refine htarget.put hcell hstored hvalue.valid hnodup hroot fun field hfield _ a ha => ⟨hother a ?_, fun hmem => ?_⟩
    · rintro rfl
      exact htarget.not_mem_child hfield ha
    · exact hvalue.disjoint hmem (Target.mem_of_child hfield ha)

/-- What the call for objects in objects does. -/
def OverlaysObjects (depth : ℕ) (overlayObject : ℕ → ℕ → Chars → Provenance → Action α Provenance) : Prop :=
  ∀ (heap : Heap α) (address source : ℕ) (fields inner : List (Chars × Built α)) (path : Chars) (provenance : Provenance),
    Target heap address fields → Apart heap depth address fields (object source inner) →
    Overlays heap address fields (mergeFields (eraseAll inner) (eraseAll fields)) (overlayObject address source path provenance heap)

variable {overlayObject : ℕ → ℕ → Chars → Provenance → Action α Provenance}

/-- **An object is laid over an object** in the target. -/
theorem nested_runs (hobject : OverlaysObjects depth overlayObject) (htarget : Target heap address fields) {current source : ℕ}
    {currentFields sourceFields : List (Chars × Built α)} (hlookup : fields.lookup key = some (object current currentFields))
    (hvalue : Apart heap depth address fields (object source sourceFields)) (path : Chars) (provenance : Provenance) :
    Overlays heap address fields ((mergeFields (eraseAll sourceFields) (eraseAll currentFields)).map
        fun merged => putSorted key (.node () .object merged) (eraseAll fields))
      (overlayObject current source path provenance heap) := by
  have hmem := mem_of_lookup hlookup
  have hinside : ∀ a, Reach heap current currentFields a → Reach heap address fields a :=
    fun a ha => ha.imp_left (Target.mem_of_child hmem)
  refine (hobject heap current source currentFields sourceFields path provenance (htarget.child hmem)
    { hvalue with disjoint := fun a ha hcurrent => hvalue.disjoint ha (Target.mem_of_child hmem hcurrent) }).map _ hinside ?_
  rintro _ provenance' heap' hkeeps ⟨fields', rfl, hinner, hreach⟩
  -- the cells of the target outside of the inner object were not written
  have hkept : ∀ a ∈ (object address fields).addresses, a ∉ (object current currentFields).addresses →
      heap'[a]? = heap[a]? ∧ a ∉ (object current fields').addresses := by
    intro a ha hnot
    have hout : ¬Reach heap current currentFields a := not_or.2 ⟨hnot, Nat.not_le.2 (htarget.stored.lt a ha)⟩
    exact ⟨hkeeps.same a hout, fun hnew => hout (hreach a hnew)⟩
  have hroot := hkept address (List.mem_cons_self ..) (htarget.not_mem_child hmem)
  have hcell : heap'[address]? = some ⟨.object, slots (putSorted key (object current fields') fields)⟩ := by
    have hslot : (slots fields).lookup key = some (object current fields').slot := by
      rw [lookup_slots, hlookup]
      rfl
    rw [hroot.1, slots_putSorted, (inOrder_slots htarget.order).put_same hslot]
    exact htarget.stored.1
  refine ⟨putSorted key (object current fields') fields, by rw [eraseAll_putSorted, erase], ?_, fun a ha => ?_⟩
  · refine htarget.put hcell hinner.stored hinner.valid hinner.nodup hroot.2 fun field hfield hne a ha => ?_
    exact hkept a (Target.mem_of_child hfield ha) fun hcurrent => htarget.disjoint hfield hmem hne ha hcurrent
  · rcases htarget.mem_addresses_put ha with hnew | hold
    · exact hinside a (hreach a hnew)
    · exact .inl hold

/-- A round of the loop once the value is cloned. By cases over what is there and what comes: nothing, a leaf or an
object. -/
theorem lay_runs {layer path : Chars} (hobject : OverlaysObjects depth overlayObject) (provenance : Provenance)
    (htarget : Target heap address fields) (hvalue : Apart heap depth address fields value) (hnodup : value.addresses.Nodup)
    (hnull : value.erase.nullFree = true) :
    Runs heap (Joined heap address fields value) (fun e _ heap' => Overlaid (Joined heap address fields value) address e heap')
      ((mergeValue value.erase ((eraseAll fields).lookup key)).map fun merged => putSorted key merged (eraseAll fields))
      ((match (slots fields).lookup key with
        | none => do
          writeField address key value.slot
          markDataProvenance layer depth path provenance value.slot
        | some current =>
          match current.object?, value.slot.object? with
          | some currentObject, some nextObject => overlayObject currentObject nextObject path provenance
          | none, none => do
            writeField address key value.slot
            markDataProvenance layer depth path provenance value.slot
          | _, _ => throw (conflict layer provenance path current value.slot) : Action α Provenance) heap) := by
  have hwrite := write_runs layer path provenance key htarget hvalue hnodup
  rw [lookup_slots, lookup_eraseAll]
  cases hlookup : fields.lookup key with
  | none =>
    rw [Option.map_none, Option.map_none, mergeValue_new hnull]
    exact hwrite
  | some current =>
    simp only [Option.map_some]
    rcases value.leaf?_cases with hleaf | ⟨source, sourceFields, rfl⟩
    · rw [object?_leaf hleaf]
      rcases current.leaf?_cases with hcurrent | ⟨currentAddress, currentFields, rfl⟩
      · rw [object?_leaf hcurrent, mergeValue_replace (erase_leaf hleaf) hnull (erase_leaf hcurrent)]
        exact hwrite
      · rw [erase, mergeValue_blocked (erase_leaf hleaf)]
        exact ⟨_, heap, rfl, .refl⟩
    · rcases current.leaf?_cases with hcurrent | ⟨currentAddress, currentFields, rfl⟩
      · rw [object?_leaf hcurrent, erase, mergeValue_conflict _ (erase_leaf hcurrent)]
        exact ⟨_, heap, rfl, .refl⟩
      · have hmerge : mergeValue (object source sourceFields).erase (some (object currentAddress currentFields).erase) =
            (mergeFields (eraseAll sourceFields) (eraseAll currentFields)).map (.node () .object) := by
          rw [erase, mergeValue_object, show nullFreeAll (eraseAll sourceFields) = true from hnull]
          rfl
        rw [hmerge, Option.map_map]
        exact (nested_runs hobject htarget hlookup hvalue path provenance).mono (fun _ => .inr)
          fun _ _ _ _ h => h.mono fun _ => .inr

/-- **A round of the loop** writes the merged value of a field. -/
theorem overlayDataField_runs {layer path : Chars} (hobject : OverlaysObjects depth overlayObject) (provenance : Provenance)
    (htarget : Target heap address fields) (key : Chars) {source : Built α} (hstored : source.Stored heap)
    (hvalid : source.Valid) (hdepth : source.depth ≤ depth) :
    Overlays heap address fields
      ((mergeValue source.erase ((eraseAll fields).lookup key)).map fun value => putSorted key value (eraseAll fields))
      (overlayDataField layer depth overlayObject address path provenance (key, source.slot) heap) := by
  have hcleaned : (mergeValue source.erase ((eraseAll fields).lookup key)).map (putSorted key · (eraseAll fields)) =
      (cleaned source).bind fun copied =>
        (mergeValue copied ((eraseAll fields).lookup key)).map (putSorted key · (eraseAll fields)) := by
    unfold cleaned
    cases hnull : source.nullFree with
    | true => rfl
    | false => rw [mergeValue_null (by rw [nullFree_erase, hnull])]; rfl
  have hclone := (cloneDataValue_runs layer depth (appendDataPath path key) source heap hstored hdepth).mono
    (fun a (ha : heap.length ≤ a) => (.inr ha : Reach heap address fields a)) fun _ _ _ hkeeps hcopy => And.intro hkeeps hcopy
  rw [hcleaned]
  refine hclone.bind fun copied _ heap' hexpected _ ⟨hkeeps, copy, hcopy, herase, hcopyStored, hfresh⟩ => ?_
  obtain ⟨hnull, rfl⟩ : source.nullFree = true ∧ source.erase = copied := by
    unfold cleaned at hexpected
    split at hexpected
    · exact ⟨‹_›, Option.some.inj hexpected⟩
    · cases hexpected
  have htarget' : Target heap' address fields := ⟨hkeeps.stored htarget.stored, htarget.valid, htarget.nodup⟩
  have hvalue : Apart heap' depth address fields copy :=
    { stored := hcopyStored
      valid := by rw [← valid_erase, herase, valid_erase]; exact hvalid
      depth_le := by rw [← depth_erase, herase, depth_erase]; exact hdepth
      disjoint := fun a ha hmem => absurd (hfresh.fresh a ha) (Nat.not_le.2 (htarget.stored.lt a hmem)) }
  have hreach : ∀ a, Joined heap' address fields copy a → Reach heap address fields a := by
    rintro a (ha | ha | ha)
    · exact .inr (hfresh.fresh a ha)
    · exact .inl ha
    · exact .inr (hkeeps.length.trans ha)
  rw [hcopy, bind_ok (readCell_ok htarget'.stored.1), ← herase]
  exact (lay_runs hobject provenance htarget' hvalue hfresh.nodup (by rw [herase, nullFree_erase, hnull])).mono hreach
    fun _ _ _ _ h => h.mono hreach

theorem Overlays.done (htarget : Target heap address fields) (value : β) :
    Overlays heap address fields (some (eraseAll fields)) (.ok value heap) :=
  Runs.done ⟨fields, rfl, htarget, fun _ => .inl⟩

/-- **One after the other**: what was laid over a target is laid over again. -/
theorem Overlays.bind {merged : Option (Fields α)} {next : Fields α → Option (Fields α)} {x : Action α β} {f : β → Action α γ}
    (h : Overlays heap address fields merged (x heap)) (hnext : ∀ heap' fields' value, Target heap' address fields' →
      Keeps (Reach heap address fields) heap heap' → (∀ a ∈ (object address fields').addresses, Reach heap address fields a) →
      Overlays heap' address fields' (next (eraseAll fields')) (f value heap')) :
    Overlays heap address fields (merged.bind next) ((x >>= f) heap) := by
  refine Runs.bind h ?_
  rintro _ value heap' _ hkeeps ⟨fields', rfl, htarget, hreach⟩
  have hmore : ∀ a, Reach heap' address fields' a → Reach heap address fields a := by
    rintro a (ha | ha)
    · exact hreach a ha
    · exact .inr (hkeeps.length.trans ha)
  exact (hnext heap' fields' value htarget hkeeps hreach).mono hmore fun _ _ _ _ h => h.mono hmore

/-- **The loop over the fields.** By induction over them: the fields that are left are not in the cells of the target. -/
theorem overlayDataFields_runs {layer path : Chars} (hobject : OverlaysObjects depth overlayObject)
    (source : List (Chars × Built α)) (provenance : Provenance) (htarget : Target heap address fields)
    (hstored : StoredAll heap source) (hvalid : ValidAll source) (hdepth : ∀ child ∈ source, child.2.depth ≤ depth)
    (hdisjoint : List.Disjoint (addressesAll source) (object address fields).addresses) :
    Overlays heap address fields (mergeFields (eraseAll source) (eraseAll fields))
      ((slots source).foldlM (overlayDataField layer depth overlayObject address path) provenance heap) := by
  induction source generalizing heap fields provenance with
  | nil => exact .done htarget provenance
  | cons child rest ih =>
    rw [List.forall_mem_cons] at hdepth
    have hmerge : mergeFields (eraseAll (child :: rest)) (eraseAll fields) =
        ((mergeValue child.2.erase ((eraseAll fields).lookup child.1)).map
          fun value => putSorted child.1 value (eraseAll fields)).bind (mergeFields (eraseAll rest)) := by
      rw [eraseAll, mergeFields]
      cases mergeValue child.2.erase ((eraseAll fields).lookup child.1) <;> rfl
    rw [hmerge, slots_cons, List.foldlM_cons]
    refine (overlayDataField_runs hobject provenance htarget child.1 hstored.1 hvalid.1 hdepth.1).bind
      fun heap' fields' provenance' htarget' hkeeps hreach => ?_
    have hrest : ∀ a ∈ addressesAll rest, ¬Reach heap address fields a := fun a ha =>
      not_or.2 ⟨fun hmem => hdisjoint (List.mem_append_right _ ha) hmem, Nat.not_le.2 (hstored.2.lt a ha)⟩
    refine ih provenance' htarget' ?_ hvalid.2 hdepth.2 fun a ha hmem => hrest a ha (hreach a hmem)
    exact hstored.2.congr fun a ha => hkeeps.same a (hrest a ha)

/-- **Objects are laid over objects**, to any depth. -/
theorem overlayDataObject_runs (layer : Chars) (depth : ℕ) :
    OverlaysObjects depth (overlayDataObject layer depth : ℕ → ℕ → Chars → Provenance → Action α Provenance) := by
  induction depth with
  | zero =>
    intro heap address source fields inner path provenance _ hvalue
    cases hvalue.depth_le
  | succ depth ih =>
    intro heap address source fields inner path provenance htarget hvalue
    rw [overlayDataObject, bind_ok (readCell_ok hvalue.stored.1)]
    exact overlayDataFields_runs ih inner provenance htarget hvalue.stored.2 hvalue.valid.2
      (depthAll_le.1 (Nat.le_of_succ_le_succ hvalue.depth_le)) fun a ha => hvalue.disjoint (List.mem_cons_of_mem _ ha)

/-! ### Documents -/

/-- A source has a tree with these fields. A nil map has none. -/
def Holds (heap : Heap α) (source : DataOverlaySource) (fields : Fields α) : Prop :=
  match source.tree with
  | none => fields = []
  | some address => ∃ built, (DataTree.node address .object built : Built α).Stored heap ∧ eraseAll built = fields

/-- The layers that sources have. -/
abbrev Layers (heap : Heap α) (sources : List DataOverlaySource) (layers : List (Fields α)) : Prop :=
  List.Forall₂ (Holds heap) sources layers

variable {sources : List DataOverlaySource} {layers : List (Fields α)}

/-- What is held in memory is held in every memory that has the same cells and more. -/
theorem Layers.keeps (h : Layers heap sources layers) (hkeeps : Keeps (heap.length ≤ ·) heap heap') :
    Layers heap' sources layers := by
  refine h.imp ?_
  rintro ⟨name, _ | tree⟩ fields hsource
  · exact hsource
  · exact hsource.imp fun _ hbuilt => ⟨hkeeps.stored hbuilt.1, hbuilt.2⟩

/-- **The loop over the sources.** Their cells come before those of the target. -/
theorem overlaySources_runs (depth address : ℕ) {base : Heap α} (hheld : Layers base sources layers)
    (hvalid : ∀ layer ∈ layers, ValidFields layer) (hdepth : ∀ layer ∈ layers, depthAll layer < depth)
    (index : ℕ) (provenance : Provenance) (htarget : Target heap address fields) (hkeeps : Keeps (base.length ≤ ·) base heap)
    (hfresh : ∀ a ∈ (object address fields).addresses, base.length ≤ a) :
    Runs heap (base.length ≤ ·) (fun e _ heap' => Overlaid (base.length ≤ ·) address e heap')
      (layers.foldlM (fun target source => mergeFields source target) (eraseAll fields))
      (overlaySources depth address index provenance sources heap) := by
  induction hheld generalizing heap fields index provenance with
  | nil => exact .done ⟨fields, rfl, htarget, hfresh⟩
  | @cons source layer sources layers hsource _ ih =>
    rw [List.forall_mem_cons] at hvalid hdepth
    rw [List.foldlM_cons]
    obtain ⟨name, _ | tree⟩ := source
    · obtain rfl : layer = [] := hsource
      exact ih hvalid.2 hdepth.2 (index + 1) provenance htarget hkeeps hfresh
    · obtain ⟨built, hstored, rfl⟩ := hsource
      have hreach : ∀ a, Reach heap address fields a → base.length ≤ a := by
        rintro a (ha | ha)
        · exact hfresh a ha
        · exact hkeeps.length.trans ha
      have hvalue : Apart heap depth address fields (object tree built) :=
        { stored := hkeeps.stored hstored
          valid := ⟨fun _ => inOrder_eraseAll.1 hvalid.1.1, (validAll_erase built).1 hvalid.1.2⟩
          depth_le := by rw [← depth_erase]; exact hdepth.1
          disjoint := fun a ha hmem => absurd (hfresh a hmem) (Nat.not_le.2 (hstored.lt a ha)) }
      refine (Runs.mono (overlayDataObject_runs _ depth heap address tree fields built [] provenance htarget hvalue) hreach
        fun _ _ _ _ h => h.mono hreach).bind ?_
      rintro _ provenance' heap' _ hkeeps' ⟨fields', rfl, htarget', hfresh'⟩
      exact ih hvalid.2 hdepth.2 (index + 1) provenance' htarget' (hkeeps.trans hkeeps') hfresh'

/-- **Overlaying in memory**: the result is the overlay of the layers in new cells, or there is an error. The cells that were
there are as before. -/
theorem overlayDataTrees_runs (hheld : Layers heap sources layers) (hvalid : ∀ layer ∈ layers, ValidFields layer)
    (hdepth : ∀ layer ∈ layers, depthAll layer < depth) :
    Runs heap (heap.length ≤ ·) (fun e address heap' => Overlaid (heap.length ≤ ·) address e heap') (overlay layers)
      (overlayDataTrees depth sources heap) := by
  have htarget : Target (heap ++ [⟨.object, []⟩]) heap.length [] :=
    ⟨⟨by simp [slots], trivial⟩, ⟨fun _ => List.Pairwise.nil, trivial⟩, by simp [addresses, addressesAll]⟩
  have hkeeps := Keeps.append heap [⟨.object, []⟩]
  have hsources := overlaySources_runs depth heap.length hheld hvalid hdepth 0 [] htarget hkeeps
    (by simp [addresses, addressesAll])
  have hrun : overlayDataTrees depth sources heap =
      (overlaySources depth heap.length 0 [] sources >>= fun _ => pure heap.length) (heap ++ [⟨.object, []⟩]) := rfl
  rw [hrun, ← Option.bind_fun_some (overlay layers)]
  exact (hsources.bind fun _ _ _ _ _ h => .done h).trans hkeeps

/-- The overlays of the groups: each has its result in new cells, or one of them has an error. -/
theorem overlayEach_runs {groups : List (List DataOverlaySource)} {layers : List (List (Fields α))}
    (hheld : List.Forall₂ (Layers heap) groups layers) (hvalid : ∀ group ∈ layers, ∀ layer ∈ group, ValidFields layer)
    (hdepth : ∀ group ∈ layers, ∀ layer ∈ group, depthAll layer < depth) :
    Runs heap (heap.length ≤ ·) (fun results found heap' => Layers heap' (found.map fun address => ⟨[], some address⟩) results)
      (layers.mapM overlay) (groups.mapM (overlayDataTrees depth) heap) := by
  induction groups generalizing layers heap with
  | nil =>
    cases hheld
    exact .done .nil
  | cons group groups ih =>
    obtain ⟨layer, layers, hgroup, hgroups, rfl⟩ := List.forall₂_cons_left_iff.1 hheld
    rw [List.forall_mem_cons] at hvalid hdepth
    rw [List.mapM_cons, List.mapM_cons]
    refine (overlayDataTrees_runs hgroup hvalid.1 hdepth.1).bind ?_
    rintro _ address heap' _ hkeeps ⟨fields, rfl, htarget, _⟩
    have hrest := ih (hgroups.imp fun _ _ h => h.keeps hkeeps) hvalid.2 hdepth.2
    refine Runs.mono (Runs.bind hrest fun others found heap'' _ hkeeps' hothers => .done ?_)
      (fun a => hkeeps.length.trans) fun _ _ _ _ h => h
    exact .cons ⟨fields, hkeeps'.stored htarget.stored, rfl⟩ hothers

/-- The overlay of the overlays of groups. -/
theorem overlayGroups_runs {groups : List (List DataOverlaySource)} {layers : List (List (Fields α))}
    (hheld : List.Forall₂ (Layers heap) groups layers) (hvalid : ∀ group ∈ layers, ∀ layer ∈ group, ValidFields layer)
    (hdepth : ∀ group ∈ layers, ∀ layer ∈ group, depthAll layer < depth)
    (hresults : ∀ results, layers.mapM overlay = some results → ∀ result ∈ results, depthAll result < depth) :
    Runs heap (heap.length ≤ ·) (fun e address heap' => Holds heap' ⟨[], some address⟩ e)
      ((layers.mapM overlay).bind overlay) (overlayGroups depth groups heap) := by
  refine (overlayEach_runs hheld hvalid hdepth).bind fun results found heap' hall hkeeps hheld' => ?_
  have hvalid' := fun fields hfields => ((views_of_groups hvalid hall).2.1 fields hfields).1
  refine (overlayDataTrees_runs hheld' hvalid' (hresults results hall)).mono (fun a => hkeeps.length.trans) ?_
  rintro _ address heap'' _ ⟨fields, rfl, htarget, _⟩
  exact ⟨fields, htarget.stored, rfl⟩

/-- Trees are of bounded depth. -/
theorem exists_depth (layers : List (Fields α)) : ∃ bound, ∀ layer ∈ layers, depthAll layer < bound := by
  induction layers with
  | nil => exact ⟨0, by simp⟩
  | cons layer layers ih =>
    obtain ⟨bound, hbound⟩ := ih
    refine ⟨max bound (depthAll layer + 1), List.forall_mem_cons.2 ⟨by omega, fun other hother => ?_⟩⟩
    have := hbound other hother
    omega

theorem allCompatible_iff (layers : List (Fields α)) :
    AllCompatible Option.isNone (layers.map fieldsView) ↔ ∀ path, ∀ layer ∈ layers, ∀ other ∈ layers, ∀ leaf,
      fieldsView layer path = some none → fieldsView other path ≠ some (some leaf) := by
  constructor
  · intro h path layer hlayer other hother leaf hobject hleaf
    have := h _ (List.mem_map_of_mem hlayer) _ (List.mem_map_of_mem hother) path none (some leaf) hobject hleaf
    cases this
  · intro h a ha b hb path x y hx hy
    obtain ⟨layer, hlayer, rfl⟩ := List.mem_map.1 ha
    obtain ⟨other, hother, rfl⟩ := List.mem_map.1 hb
    cases x with
    | none => cases y with
      | none => rfl
      | some leaf => exact absurd hy (h path layer hlayer other hother leaf hx)
    | some leaf => cases y with
      | none => exact absurd hx (h path other hother layer hlayer leaf hy)
      | some leaf' => rfl

/-- **Overlaying documents**, given in groups of sources. At every depth from some depth on: it succeeds exactly if there is
no null and no path is an object in one layer and a leaf in another; the sources are as before; at each path below the root
the result has what the last layer that has something there has, also after any change to the cells of the sources; and
overlaying the overlays of the groups succeeds exactly if overlaying all sources does, with the same result. -/
theorem overlay_documents (heap : Heap α) (groups : List (List DataOverlaySource)) (layers : List (List (Fields α)))
    (hheld : List.Forall₂ (Layers heap) groups layers) (hvalid : ∀ group ∈ layers, ∀ layer ∈ group, ValidFields layer) :
    ∃ enough, ∀ depth ≥ enough,
      (Succeeds (overlayDataTrees depth groups.flatten heap) ↔
        (∀ layer ∈ layers.flatten, nullFreeAll layer = true) ∧
          ∀ path, ∀ layer ∈ layers.flatten, ∀ other ∈ layers.flatten, ∀ leaf,
            fieldsView layer path = some none → fieldsView other path ≠ some (some leaf)) ∧
      (∃ new, after (overlayDataTrees depth groups.flatten heap) = heap ++ new) ∧
      (∀ address heap', overlayDataTrees depth groups.flatten heap = .ok address heap' → ∃ fields,
        (∀ later : Heap α, (∀ a, heap.length ≤ a → later[a]? = heap'[a]?) → Holds later ⟨[], some address⟩ fields) ∧
        ∀ path ≠ [], fieldsView fields path = layered (layers.flatten.map fieldsView) path) ∧
      (Succeeds (overlayGroups depth groups heap) ↔ Succeeds (overlayDataTrees depth groups.flatten heap)) ∧
      ∀ address heap' address' heap'', overlayDataTrees depth groups.flatten heap = .ok address heap' →
        overlayGroups depth groups heap = .ok address' heap'' → ∃ fields fields', Holds heap' ⟨[], some address⟩ fields ∧
          Holds heap'' ⟨[], some address'⟩ fields' ∧ fieldsView fields = fieldsView fields' := by
  have hflat : Layers heap groups.flatten layers.flatten := List.rel_flatten hheld
  have hvalidAll : ∀ layer ∈ layers.flatten, ValidFields layer := by
    intro layer hlayer
    obtain ⟨group, hgroup, hlayer⟩ := List.mem_flatten.1 hlayer
    exact hvalid group hgroup layer hlayer
  obtain ⟨hsome, hview⟩ := overlay_spec layers.flatten hvalidAll
  have hsame := overlay_groups layers hvalid
  obtain ⟨bound, hbound⟩ := exists_depth layers.flatten
  obtain ⟨bound', hbound'⟩ := exists_depth ((layers.mapM overlay).getD [])
  refine ⟨max bound bound', fun depth hdepth => ?_⟩
  have hdepthAll : ∀ layer ∈ layers.flatten, depthAll layer < depth := fun layer hlayer => by
    have := hbound layer hlayer
    omega
  have hruns := overlayDataTrees_runs hflat hvalidAll hdepthAll
  have hdepthResults : ∀ results, layers.mapM overlay = some results → ∀ result ∈ results, depthAll result < depth := by
    intro results hall result hresult
    have := hbound' result (by rw [hall]; exact hresult)
    omega
  have hgroups := overlayGroups_runs hheld hvalid
    (fun group hgroup layer hlayer => hdepthAll layer (List.mem_flatten_of_mem hgroup hlayer)) hdepthResults
  refine ⟨?_, hruns.after_eq, fun address heap' hrun => ?_, ?_, fun address heap' address' heap'' hrun hrun' => ?_⟩
  · rw [hruns.succeeds, hsome, allCompatible_iff]
  · rw [hrun] at hruns
    obtain ⟨_, hexpected, fields, rfl, htarget, hfresh⟩ := hruns.of_ok
    refine ⟨eraseAll fields, fun later hlater => ⟨fields, ?_, rfl⟩, fun path hpath => ?_⟩
    · exact htarget.stored.congr fun a ha => hlater a (hfresh a ha)
    · rw [(hview _ hexpected).2]
      cases path with
      | nil => exact absurd rfl hpath
      | cons key path => exact layered_bottom _ key path
  · rw [hgroups.succeeds, hruns.succeeds, ← Option.isSome_map (f := fieldsView), hsame, Option.isSome_map]
  · rw [hrun] at hruns
    rw [hrun'] at hgroups
    obtain ⟨_, hexpected, fields, rfl, htarget, _⟩ := hruns.of_ok
    obtain ⟨fields', hexpected', hheld'⟩ := hgroups.of_ok
    rw [hexpected, hexpected'] at hsame
    exact ⟨_, fields', ⟨fields, htarget.stored, rfl⟩, hheld', (Option.some.inj hsame).symm⟩

namespace Sample

/-- Two documents with one field of the same name. -/
def documents : Heap ℕ := [⟨.object, [(chars "a", .scalar 1)]⟩, ⟨.object, [(chars "a", .scalar 2)]⟩]

/-- The fields of a document. -/
def layer (value : ℕ) : Fields ℕ := [(chars "a", .scalar value)]

/-- Two groups with a document each. -/
def groups : List (List DataOverlaySource) := [[⟨[], some 0⟩], [⟨[], some 1⟩]]

theorem holds : List.Forall₂ (Layers documents) groups [[layer 1], [layer 2]] := by
  refine .cons (.cons ?_ .nil) (.cons (.cons ?_ .nil) .nil)
  · exact ⟨[(chars "a", .scalar 1)], ⟨rfl, trivial, trivial⟩, rfl⟩
  · exact ⟨[(chars "a", .scalar 2)], ⟨rfl, trivial, trivial⟩, rfl⟩

theorem valid : ∀ group ∈ [[layer 1], [layer 2]], ∀ fields ∈ group, ValidFields fields := by
  have hvalid : ∀ value, ValidFields (layer value) := fun value => ⟨List.pairwise_singleton .., trivial, trivial⟩
  intro group hgroup fields hfields
  simp only [List.mem_cons, List.not_mem_nil, or_false] at hgroup
  rcases hgroup with rfl | rfl <;> exact List.mem_singleton.1 hfields ▸ hvalid _

/-- The second document replaces the field of the first one. -/
theorem second_document_wins : List.Forall₂ (Layers documents) groups [[layer 1], [layer 2]] ∧
    ∃ enough, ∀ depth ≥ enough, ∀ address heap, overlayDataTrees depth groups.flatten documents = .ok address heap →
      ∃ fields, Holds heap ⟨[], some address⟩ fields ∧ fieldsView fields [chars "a"] = some (some (.scalar 2)) := by
  refine ⟨holds, ?_⟩
  obtain ⟨enough, h⟩ := overlay_documents documents groups [[layer 1], [layer 2]] holds valid
  refine ⟨enough, fun depth hdepth address heap hrun => ?_⟩
  obtain ⟨fields, hheld, hview⟩ := (h depth hdepth).2.2.1 address heap hrun
  exact ⟨fields, hheld heap fun _ _ => rfl, (hview _ (by decide)).trans rfl⟩

end Sample

end GoEtl.Document
