import RouteDocs.Yaml.Content
import RouteDocs.Proofs.Entries
import RouteDocs.Proofs.FlowNodes

/-!
# `RouteDocs.Proofs.FlowContent`: the value of a one-line mapping

The nodes of a line with a name and a mapping of scalars become cells, and the cells a value.
`read_line` says which: a mapping from the name to the mapping of the keys and the values of the
scalars. `read_longName` is about a name that is too long to be a key.

The keys are texts, so nothing is merged and no key is changed. Scalars get their cells when
they are met. The two mappings wait for their turn, the inner one behind the outer.
-/

set_option autoImplicit false

namespace RouteDocs.Yaml

open Text

/-- What has a value as a scalar is of a kind of scalars. -/
theorem Kind.isScalar_of_scalarValue {place : Nat} {kind : Kind} {text : Text} {v : Scalar}
    (h : scalarValue place kind text = .ok v) : kind.isScalar = true := by
  cases kind <;> first | rfl | cases h

namespace Construction

/-- Construction with the nodes of a document, the cells made so far and the collections that
wait. -/
def onCells (nodes : List Node) (cells : List (Option (View Nat))) (waiting : List Nat)
    (merges : Nat) :
    Construction := ⟨nodes.toArray, cells.toArray, waiting, merges⟩

section
variable {nodes : List Node} {cells : List (Option (View Nat))} {waiting : List Nat}
  {merges number : Nat}

/-- Looking up a node that is there. -/
theorem run_nodeAt {n : Node} (h : nodes[number]? = some n) :
    (nodeAt number).run (onCells nodes cells waiting merges)
      = .ok (n, onCells nodes cells waiting merges) := by
  show Except.ok ((nodes.toArray[number]?).getD .empty, onCells nodes cells waiting merges) = _
  rw [List.getElem?_toArray, h]
  rfl

/-- Looking up the entries of a mapping. -/
theorem run_entriesOf {kind : Kind} {entries : List (Nat × Nat)}
    (h : nodes[number]? = some (.mapping kind entries)) :
    (entriesOf number).run (onCells nodes cells waiting merges)
      = .ok (entries, onCells nodes cells waiting merges) := by
  simp [entriesOf, run_nodeAt h, ok_bind]
  rfl

/-- Putting the entries back changes nothing. -/
theorem run_setEntries {kind : Kind} {entries : List (Nat × Nat)}
    (h : nodes[number]? = some (.mapping kind entries)) :
    (setEntries number entries).run (onCells nodes cells waiting merges)
      = .ok ((), onCells nodes cells waiting merges) := by
  have hset : nodes.set number (.mapping kind entries) = nodes := by
    obtain ⟨hlt, heq⟩ := List.getElem?_eq_some_iff.mp h
    rw [← heq, List.set_getElem_self]
  have hrun : (setNode number (.mapping kind entries)).run (onCells nodes cells waiting merges)
      = .ok ((), onCells nodes cells waiting merges) := by
    show Except.ok ((), (⟨nodes.toArray.setIfInBounds number (.mapping kind entries),
      cells.toArray, waiting,
      merges⟩ : Construction)) = _
    rw [List.setIfInBounds_toArray, hset]
    rfl
  simp [setEntries, run_nodeAt h, ok_bind, hrun]

/-- All keys are texts. -/
def TextKeys (nodes : List Node) (entries : List (Nat × Nat)) : Prop :=
  ∀ e ∈ entries, ∃ t, nodes[e.1]? = some (.scalar .str t)

/-- A key that is a text stays as it is. -/
theorem run_readAsText {t : Text} (h : nodes[number]? = some (.scalar .str t)) :
    (readAsText number).run (onCells nodes cells waiting merges)
      = .ok ((), onCells nodes cells waiting merges) := by
  simp [readAsText, run_nodeAt h, ok_bind]
  rfl

/-- There is no merge key among texts. -/
theorem run_takeMerge {entries : List (Nat × Nat)} (h : TextKeys nodes entries) :
    (takeMerge entries).run (onCells nodes cells waiting merges)
      = .ok (none, onCells nodes cells waiting merges) := by
  induction entries with
  | nil => rfl
  | cons e entries ih =>
      obtain ⟨⟨t, ht⟩, hrest⟩ := List.forall_mem_cons.mp h
      simp [takeMerge, run_nodeAt ht, ok_bind, Node.kind, ih hrest]

/-- So preparing the keys changes nothing. -/
theorem run_readKeys {entries : List (Nat × Nat)} (h : TextKeys nodes entries) :
    (entries.foldlM (fun _ e => readAsText e.1) PUnit.unit).run
        (onCells nodes cells waiting merges) = .ok ((), onCells nodes cells waiting merges) := by
  induction entries with
  | nil => rfl
  | cons e entries ih =>
      obtain ⟨⟨t, ht⟩, hrest⟩ := List.forall_mem_cons.mp h
      simp [run_readAsText ht, ok_bind, ih hrest]

/-- A mapping whose keys are texts merges nothing. -/
theorem run_merge {kind : Kind} {entries : List (Nat × Nat)}
    (hn : nodes[number]? = some (.mapping kind entries)) (h : TextKeys nodes entries) :
    (merge number).run (onCells nodes cells waiting merges)
      = .ok ((), onCells nodes cells waiting merges) := by
  have htake : (takeMerges (merges + 1) maxChain number).run (onCells nodes cells waiting merges)
      = .ok ([], onCells nodes cells waiting merges) := by
    rw [takeMerges]
    simp [run_entriesOf hn, ok_bind, run_readKeys h, run_takeMerge h]
    rfl
  have hmerges : (onCells nodes cells waiting merges).merges = merges := rfl
  simp [merge, ok_bind, hmerges, htake, run_entriesOf hn, run_setEntries hn]

/-- Filling a cell. -/
theorem run_setCell (v : View Nat) :
    (setCell number v).run (onCells nodes cells waiting merges)
      = .ok ((), onCells nodes (cells.set number (some v)) waiting merges) := by
  show Except.ok ((), (⟨nodes.toArray, cells.toArray.setIfInBounds number (some v),
    waiting, merges⟩ :
    Construction)) = _
  rw [List.setIfInBounds_toArray]
  rfl

/-- The text of a scalar is its own: nothing stands for another. -/
theorem run_scalarText {kind : Kind} {text : Text}
    (hn : nodes[number]? = some (.scalar kind text)) :
    (scalarText maxChain number).run (onCells nodes cells waiting merges)
      = .ok (text, onCells nodes cells waiting merges) := by
  rw [show maxChain = 979 + 1 from rfl, scalarText]
  simp [run_nodeAt hn, ok_bind]
  rfl

/-- A scalar gets its value when it is first met. -/
theorem run_cellOf_scalar {kind : Kind} {text : Text} {v : Scalar}
    (hn : nodes[number]? = some (.scalar kind text)) (hc : cells[number]? = some none)
    (hv : scalarValue number kind text = .ok v) :
    (cellOf number).run (onCells nodes cells waiting merges)
      = .ok (number, onCells nodes (cells.set number (some (.scalar v))) waiting merges) := by
  have hkind := Kind.isScalar_of_scalarValue hv
  have hcell : (onCells nodes cells waiting merges).cells[number]? = some none := by
    rw [onCells, List.getElem?_toArray, hc]
  simp [cellOf, hcell, ok_bind, run_nodeAt hn, Node.kind, hkind, run_scalarText hn, hv, run_setCell]

/-- A mapping gets its cell when it is first met, and waits for its parts. -/
theorem run_cellOf_mapping {entries : List (Nat × Nat)}
    (hn : nodes[number]? = some (.mapping .map entries))
    (hc : cells[number]? = some none) :
    (cellOf number).run (onCells nodes cells waiting merges)
      = .ok (number, onCells nodes (cells.set number (some (.map [])))
        (number :: waiting) merges) := by
  have hcell : (onCells nodes cells waiting merges).cells[number]? = some none := by
    rw [onCells, List.getElem?_toArray, hc]
  simp [cellOf, hcell, ok_bind, run_nodeAt hn, Node.kind, Kind.isScalar,
    Kind.emptyCell?, run_setCell]
  rfl

/-- A key is read as a scalar, whose cell is then filled. -/
theorem run_keyOf {kind : Kind} {text : Text} {v : Scalar}
    (hn : nodes[number]? = some (.scalar kind text))
    (hc : cells[number]? = some none) (hv : scalarValue number kind text = .ok v) :
    (keyOf number).run (onCells nodes cells waiting merges)
      = .ok (v, onCells nodes (cells.set number (some (.scalar v))) waiting merges) := by
  have hlt : number < cells.length := (List.getElem?_eq_some_iff.mp hc).1
  have hcell : (onCells nodes (cells.set number (some (.scalar v))) waiting merges).cells[number]?
      = some (some (.scalar v)) := by
    rw [onCells, List.getElem?_toArray, List.getElem?_set_self hlt]
  simp [keyOf, run_cellOf_scalar hn hc hv, ok_bind, hcell]
  rfl

end

/-- The cells of an entry. -/
def entryCells (e : Text × Atom) : List (Option (View Nat)) :=
  [some (.scalar (.str e.1.asUnits)), some (.scalar e.2.value)]

/-- The entries of a mapping's cell, from the numbers of its entries. -/
def cellEntries (start : Nat) : (entries : List (Text × Atom)) → List (Scalar × Nat)
  | [] => []
  | e :: entries => (.str e.1.asUnits, start + 1) :: cellEntries (start + 2) entries

/-- One entry: its key and its value get their cells. -/
theorem run_entry (e : Text × Atom) (nodes more : List Node) (cells rest : List (Option (View Nat)))
    (hlength : nodes.length = cells.length) (waiting : List Nat) (merges : Nat) :
    (do return (← keyOf nodes.length, ← cellOf (nodes.length + 1)) : Construct (Scalar × Nat)).run
      (onCells (nodes ++ (Composer.entryNodes e ++ more))
        (cells ++ none :: none :: rest) waiting merges)
      = .ok ((.str e.1.asUnits, nodes.length + 1),
          onCells (nodes ++ (Composer.entryNodes e ++ more))
            (cells ++ (entryCells e ++ rest)) waiting
            merges) := by
  -- The key and the value are the next two nodes, and theirs are the next two cells.
  have hkeyNode : (nodes ++ (Composer.entryNodes e ++ more))[nodes.length]?
      = some (.scalar .str e.1.asUnits) := by
    simp [Composer.entryNodes]
  have hvalueNode : (nodes ++ (Composer.entryNodes e ++ more))[nodes.length + 1]?
      = some (.scalar e.2.kind e.2.content) := by
    simp [Composer.entryNodes]
  have hkeyCell : (cells ++ none :: none :: rest)[nodes.length]? = some none := by
    simp [hlength]
  have hvalueCell : (cells ++ some (.scalar (.str e.1.asUnits)) :: none :: rest)[nodes.length + 1]?
      = some none := by
    simp [hlength]
  have hkeySet : (cells ++ none :: none :: rest).set nodes.length
      (some (.scalar (.str e.1.asUnits)))
      = cells ++ some (.scalar (.str e.1.asUnits)) :: none :: rest := by
    simp [hlength]
  have hvalueSet : (cells ++ some (.scalar (.str e.1.asUnits)) :: none :: rest).set
      (nodes.length + 1)
      (some (.scalar e.2.value)) = cells ++ (entryCells e ++ rest) := by
    simp [hlength, entryCells]
  have hkey : (keyOf nodes.length).run (onCells (nodes ++ (Composer.entryNodes e ++ more))
      (cells ++ none :: none :: rest) waiting merges) = _ := run_keyOf hkeyNode hkeyCell rfl
  have hvalue : (cellOf (nodes.length + 1)).run (onCells (nodes ++ (Composer.entryNodes e ++ more))
      (cells ++ some (.scalar (.str e.1.asUnits)) :: none :: rest) waiting merges) = _ :=
    run_cellOf_scalar hvalueNode hvalueCell (e.2.scalarValue_eq _)
  rw [hkeySet] at hkey
  rw [hvalueSet] at hvalue
  simp only [StateT.run_bind, hkey, ok_bind, hvalue]
  rfl

/-- The keys and values of a mapping get their cells one after the other. -/
theorem run_mapM_entries (entries : List (Text × Atom)) (nodes : List Node)
    (cells : List (Option (View Nat)))
    (hlength : nodes.length = cells.length) (waiting : List Nat) (merges : Nat) :
    ((Composer.entryNumbers nodes.length entries).mapM fun e =>
        (do return (← keyOf e.1, ← cellOf e.2) : Construct (Scalar × Nat))).run
      (onCells (nodes ++ entries.flatMap Composer.entryNodes)
        (cells ++ List.replicate (2 * entries.length) none) waiting merges)
      = .ok (cellEntries nodes.length entries,
          onCells (nodes ++ entries.flatMap Composer.entryNodes)
            (cells ++ entries.flatMap entryCells) waiting
            merges) := by
  induction entries generalizing nodes cells with
  | nil =>
      simp [Composer.entryNumbers, cellEntries]
      rfl
  | cons e entries ih =>
      have hentry := run_entry e nodes (entries.flatMap Composer.entryNodes) cells
        (List.replicate (2 * entries.length) none) hlength waiting merges
      -- The other entries start two nodes and two cells further on.
      have hrest := ih (nodes ++ Composer.entryNodes e) (cells ++ entryCells e)
        (by simp [hlength, Composer.entryNodes, entryCells])
      have hlen : (nodes ++ Composer.entryNodes e).length = nodes.length + 2 := by
        simp [Composer.entryNodes]
      rw [hlen, List.append_assoc, List.append_assoc, List.append_assoc] at hrest
      rw [List.flatMap_cons, List.flatMap_cons, List.length_cons, Nat.mul_succ, List.replicate_succ,
        List.replicate_succ, Composer.entryNumbers, List.mapM_cons]
      simp only [StateT.run_bind, hentry, ok_bind, hrest]
      rfl

/-- The parts of a mapping whose keys are texts. -/
theorem run_parts {nodes : List Node} {cells : List (Option (View Nat))} {waiting : List Nat}
    {merges number : Nat} {numbers : List (Nat × Nat)}
    (hn : nodes[number]? = some (.mapping .map numbers))
    (hkeys : TextKeys nodes numbers) {entries : List (Scalar × Nat)} {done : Construction}
    (h : (numbers.mapM fun e =>
        (do return (← keyOf e.1, ← cellOf e.2) : Construct (Scalar × Nat))).run
      (onCells nodes cells waiting merges) = .ok (entries, done)) :
    (parts number).run (onCells nodes cells waiting merges)
      = .ok (.map (Entries.ofList entries), done) := by
  have hentries : (mapEntries number).run (onCells nodes cells waiting merges)
      = .ok (Entries.ofList entries, done) := by
    simp only [mapEntries, StateT.run_bind, run_nodeAt hn, ok_bind, run_merge hn hkeys,
      run_entriesOf hn, h]
    rfl
  simp [parts, run_nodeAt hn, ok_bind, Node.kind, hentries]

/-- The keys of the entries are texts, as they stand in quotes. -/
theorem textKeys_entryNumbers (entries : List (Text × Atom)) (nodes : List Node) :
    TextKeys (nodes ++ entries.flatMap Composer.entryNodes)
      (Composer.entryNumbers nodes.length entries) := by
  induction entries generalizing nodes with
  | nil =>
      intro e he
      cases he
  | cons e entries ih =>
      have hrest := ih (nodes ++ Composer.entryNodes e)
      have hlen : (nodes ++ Composer.entryNodes e).length = nodes.length + 2 := by
        simp [Composer.entryNodes]
      rw [hlen, List.append_assoc, ← List.flatMap_cons] at hrest
      rw [Composer.entryNumbers]
      intro x hx
      rcases List.mem_cons.mp hx with rfl | hx
      · exact ⟨e.1.asUnits, by simp [Composer.entryNodes]⟩
      · exact hrest x hx

/-- The cells of a line's nodes. -/
def lineCells (name : Text) (entries : List (Text × Atom)) : List (Option (View Nat)) :=
  some (.map [(.str name.asUnits, 2)]) :: some (.scalar (.str name.asUnits)) ::
    some (.map (Entries.ofList (cellEntries 3 entries))) :: entries.flatMap entryCells

/-- The outer mapping gets its parts: the name and the cell of the inner mapping, which waits. -/
theorem run_parts_outer (name : Text) (entries : List (Text × Atom)) (merges : Nat)
    (rest : List (Option (View Nat))) :
    (parts 0).run (onCells (Composer.lineNodes name entries)
      (some (.map []) :: none :: none :: rest) [] merges)
      = .ok (.map [(.str name.asUnits, 2)], onCells (Composer.lineNodes name entries)
          (some (.map []) :: some (.scalar (.str name.asUnits)) :: some (.map []) :: rest)
          [2] merges) := by
  have hkey : (keyOf 1).run (onCells (Composer.lineNodes name entries)
      (some (.map []) :: none :: none :: rest) [] merges) = .ok (.str name.asUnits,
        onCells (Composer.lineNodes name entries)
          (some (.map []) :: some (.scalar (.str name.asUnits)) :: none :: rest) [] merges) :=
    run_keyOf rfl rfl rfl
  have hvalue : (cellOf 2).run (onCells (Composer.lineNodes name entries)
      (some (.map []) :: some (.scalar (.str name.asUnits)) :: none :: rest) [] merges) = .ok (2,
        onCells (Composer.lineNodes name entries)
          (some (.map []) :: some (.scalar (.str name.asUnits)) :: some (.map []) :: rest)
          [2] merges) :=
    run_cellOf_mapping rfl rfl
  have hkeys : TextKeys (Composer.lineNodes name entries) [(1, 2)] := by
    intro e he
    obtain rfl := List.mem_singleton.mp he
    exact ⟨name.asUnits, rfl⟩
  -- One entry: the text of the name is read, and the inner mapping is put on the list of what
  -- waits.
  have hmap : ([(1, 2)].mapM fun e =>
        (do return (← keyOf e.1, ← cellOf e.2) : Construct (Scalar × Nat))).run
      (onCells (Composer.lineNodes name entries) (some (.map []) :: none :: none :: rest) [] merges)
        = .ok ([(.str name.asUnits, 2)], onCells (Composer.lineNodes name entries)
          (some (.map []) :: some (.scalar (.str name.asUnits)) :: some (.map []) :: rest)
          [2] merges) := by
    simp only [List.mapM_cons, List.mapM_nil, StateT.run_bind, hkey, ok_bind, hvalue]
    rfl
  exact run_parts rfl hkeys hmap

/-- The inner mapping gets its parts. -/
theorem run_parts_inner (name : Text) (entries : List (Text × Atom)) (merges : Nat)
    (first second third : Option (View Nat)) :
    (parts 2).run (onCells (Composer.lineNodes name entries)
        (first :: second :: third :: List.replicate (2 * entries.length) none) [] merges)
      = .ok (.map (Entries.ofList (cellEntries 3 entries)),
        onCells (Composer.lineNodes name entries)
          (first :: second :: third :: entries.flatMap entryCells) [] merges) := by
  have hkeys := textKeys_entryNumbers entries [.mapping .map [(1, 2)], .scalar .str name.asUnits,
    .mapping .map (Composer.entryNumbers 3 entries)]
  have hmap := run_mapM_entries entries [.mapping .map [(1, 2)], .scalar .str name.asUnits,
    .mapping .map (Composer.entryNumbers 3 entries)] [first, second, third] rfl [] merges
  exact run_parts rfl hkeys hmap

section
variable {nodes : List Node} {cells : List (Option (View Nat))} {waiting : List Nat} {merges : Nat}

/-- A collection whose turn has come gets its parts. -/
theorem run_fillAll_turn {number : Nat} {turn waiting' : List Nat}
    {cells' : List (Option (View Nat))}
    {v : View Nat} (h : (parts number).run (onCells nodes cells waiting merges)
      = .ok (v, onCells nodes cells' waiting' merges)) (fuel : Nat) :
    (fillAll (fuel + 1) (number :: turn)).run (onCells nodes cells waiting merges)
      = (fillAll fuel turn).run (onCells nodes (cells'.set number (some v)) waiting' merges) := by
  simp [fillAll, h, ok_bind, run_setCell]

/-- The turn comes to the collections that wait. -/
theorem run_fillAll_waiting {number : Nat} (fuel : Nat) :
    (fillAll (fuel + 1) []).run (onCells nodes cells [number] merges)
      = (fillAll fuel [number]).run (onCells nodes cells [] merges) := by
  rw [fillAll]
  rfl

/-- When nothing waits any more, all is filled. -/
theorem run_fillAll_nil (fuel : Nat) :
    (fillAll (fuel + 1) []).run (onCells nodes cells [] merges)
      = .ok ((), onCells nodes cells [] merges) := by
  rw [fillAll]
  rfl

end

/-- The two mappings get their parts, the outer one first. -/
theorem run_fillAll (name : Text) (entries : List (Text × Atom)) (merges fuel : Nat) :
    (fillAll (fuel + 5) []).run (onCells (Composer.lineNodes name entries)
        (some (.map []) :: none :: none :: List.replicate (2 * entries.length) none) [0] merges)
      = .ok ((), onCells (Composer.lineNodes name entries) (lineCells name entries) [] merges) := by
  rw [run_fillAll_waiting, run_fillAll_turn (run_parts_outer name entries merges _),
    run_fillAll_waiting, List.set_cons_zero,
    run_fillAll_turn (run_parts_inner name entries merges _ _ _), run_fillAll_nil]
  rfl

end Construction

/-- Every entry has two nodes. -/
theorem length_flatMap_entryNodes (entries : List (Text × Atom)) :
    (entries.flatMap Composer.entryNodes).length = 2 * entries.length := by
  induction entries with
  | nil => rfl
  | cons e entries ih =>
      rw [List.flatMap_cons, List.length_append, ih, List.length_cons, Composer.entryNodes]
      simp only [List.length_cons, List.length_nil]
      omega

/-- The cells of a line's nodes. -/
theorem NodeGraph.content_line (name : Text) (entries : List (Text × Atom)) :
    NodeGraph.content ⟨(Composer.lineNodes name entries).toArray, 0⟩
      = .ok ⟨((Construction.lineCells name entries).map (·.getD (.scalar .null))).toArray, 0⟩ := by
  have hsize : (Composer.lineNodes name entries).length = 2 * entries.length + 3 := by
    rw [Composer.lineNodes, List.length_cons, List.length_cons, List.length_cons,
      length_flatMap_entryNodes]
  have hcells : Array.replicate (2 * entries.length + 3) (none : Option (View Nat))
      = (none :: none :: none :: List.replicate (2 * entries.length) none).toArray := by
    rw [← List.toArray_replicate, List.replicate_succ, List.replicate_succ, List.replicate_succ]
  have hroot : ∀ merges, (Construction.cellOf 0).run
      (Construction.onCells (Composer.lineNodes name entries)
      (none :: none :: none :: List.replicate (2 * entries.length) none) [] merges)
        = .ok (0, Construction.onCells (Composer.lineNodes name entries)
          (some (.map []) :: none :: none :: List.replicate (2 * entries.length) none)
          [0] merges) :=
    fun merges => Construction.run_cellOf_mapping rfl rfl
  -- The fuel in the form that filling the cells asks for.
  have hfuel : 2 * (2 * entries.length + 3) + 2 = (4 * entries.length + 3) + 5 := by omega
  have hstart : ∀ merges, (⟨(Composer.lineNodes name entries).toArray,
      (none :: none :: none :: List.replicate (2 * entries.length) none).toArray, [], merges⟩ :
        Construction)
        = Construction.onCells (Composer.lineNodes name entries)
          (none :: none :: none :: List.replicate (2 * entries.length) none) [] merges :=
    fun _ => rfl
  rw [NodeGraph.content]
  simp only [List.size_toArray, hsize, hcells, StateT.run_bind, hstart, hroot, ok_bind, hfuel,
    Construction.run_fillAll]
  show Except.ok (⟨(Construction.lineCells name entries).toArray.map _, 0⟩ : Part) = _
  rw [List.map_toArray]

/-! ### The tree -/

/-- The tree below a cell with a scalar is the scalar. -/
theorem unfold_scalar {cells : Array (View Nat)} {cell : Nat} {s : Scalar}
    (h : cells[cell]? = some (.scalar s))
    (fuel : Nat) (around : List Nat) : Part.unfold cells (fuel + 1) around cell = .scalar s := by
  rw [Part.unfold, h]
  rfl

/-- The tree below a cell with a mapping has the trees below its entries, if the mapping is not
inside of itself. -/
theorem unfold_map {cells : Array (View Nat)} {cell : Nat} {entries : List (Scalar × Nat)}
    (h : cells[cell]? = some (.map entries)) (fuel : Nat) {around : List Nat}
    (haround : cell ∉ around) :
    Part.unfold cells (fuel + 1) around cell
      = .map (entries.map fun e => (e.1, Part.unfold cells fuel (cell :: around) e.2)) := by
  rw [Part.unfold, h]
  simp [haround]

/-- The entries of the inner mapping lead to the values of the scalars. -/
theorem map_cellEntries (entries : List (Text × Atom))
    (cells : List (Option (View Nat))) (fuel : Nat)
    (around : List Nat) :
    (Construction.cellEntries cells.length entries).map (fun e => (e.1,
        Part.unfold ((cells ++ entries.flatMap Construction.entryCells).map
          (·.getD (.scalar .null))).toArray
          (fuel + 1) around e.2))
      = entries.map fun e => (.str e.1.asUnits, .scalar e.2.value) := by
  induction entries generalizing cells with
  | nil => rfl
  | cons e entries ih =>
      have hrest := ih (cells ++ Construction.entryCells e)
      have hlen : (cells ++ Construction.entryCells e).length = cells.length + 2 := by
        simp [Construction.entryCells]
      rw [hlen, List.append_assoc, ← List.flatMap_cons] at hrest
      have hvalue : ((cells ++ (e :: entries).flatMap Construction.entryCells).map
          (·.getD (.scalar .null))).toArray[cells.length + 1]? = some (.scalar e.2.value) := by
        simp [Construction.entryCells]
      rw [Construction.cellEntries, List.map_cons, List.map_cons, unfold_scalar hvalue, hrest]

/-- The tree below the cells of a line. -/
theorem value_lineCells (name : Text) (entries : List (Text × Atom)) :
    Part.value ⟨((Construction.lineCells name entries).map (·.getD (.scalar .null))).toArray, 0⟩
      = .map [(.str name.asUnits,
          .map (Entries.ofList (entries.map fun e => (.str e.1.asUnits, .scalar e.2.value))))] := by
  have hinner := map_cellEntries entries [some (.map [(.str name.asUnits, 2)]),
    some (.scalar (.str name.asUnits)),
    some (.map (Entries.ofList (Construction.cellEntries 3 entries)))]
  rw [Part.value, List.size_toArray, List.length_map, Construction.lineCells]
  simp only [List.length_cons]
  rw [unfold_map rfl _ (by simp), List.map_singleton, unfold_map rfl _ (by simp),
    Entries.map_ofList]
  exact congrArg (fun es => Value.map [(.str name.asUnits, .map (Entries.ofList es))]) (hinner _ _)

/-! ### Reading -/

/-- A line is read as a mapping from its name to the mapping of its entries. -/
theorem read_line {name : Text} (hname : (Json.stringText name).length ≤ 1024)
    {entries : List (Text × Atom)} (hkeys : ∀ e ∈ entries, (Json.stringText e.1).length ≤ 1024) :
    (read (Scanner.lineText name entries)).map Part.value
      = .ok (.map [(.str name.asUnits,
          .map (Entries.ofList
            (entries.map fun e => (.str e.1.asUnits, .scalar e.2.value))))]) := by
  rw [read, NodeGraph.ofText?_line hname hkeys, ok_bind]
  simp only [NodeGraph.content_line, Except.map, value_lineCells]

/-- A line with a name that is too long for a key is not read. -/
theorem read_longName {name : Text} (hname : 1024 < (Json.stringText name).length)
    (entries : List (Text × Atom)) : read (Scanner.lineText name entries) = .error .malformed := by
  rw [read, NodeGraph.ofText?_longName hname]
  rfl

end RouteDocs.Yaml
