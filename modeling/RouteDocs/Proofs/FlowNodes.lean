import RouteDocs.Yaml.Node
import RouteDocs.Proofs.FlowTokens

/-!
# `RouteDocs.Proofs.FlowNodes`: the nodes of a one-line mapping

The tokens of a line with a name and a mapping of scalars are composed into nodes.
`NodeGraph.ofText?_line` gives them. Composition numbers the nodes as it meets them: the outer
mapping is the first, its key the second and its value, the inner mapping, the third, and then
come the keys and values of the inner mapping in turn. A name that is too long to be a key
leaves a token that nothing may follow (`NodeGraph.ofText?_longName`).

Each step of composition has an equation for its run on a list of tokens. The entries of the
inner mapping are an induction over one such step.
-/

set_option autoImplicit false

namespace RouteDocs.Yaml

open Text

/-- A step that is known to end can be gone through. -/
theorem ok_bind {ε α β : Type} (a : α) (f : α → Except ε β) : (Except.ok a >>= f) = f a := rfl

/-! ### Composition -/

namespace Composer

/-- Composition with tokens left and nodes made, and without anchors. -/
def onTokens (ts : List Token) (nodes : List Node) : Composer :=
  ⟨ts, none, defaultHandles, [], nodes.toArray⟩

section
variable (t : Token) (ts : List Token) (nodes : List Node)

/-- The next token is looked at. -/
theorem run_peek : peek.run (onTokens (t :: ts) nodes) = .ok (t, onTokens (t :: ts) nodes) := rfl

/-- It is passed over. -/
theorem run_advance : advance.run (onTokens (t :: ts) nodes) = .ok ((), onTokens ts nodes) := rfl

/-- A token is accepted where it stands. -/
theorem run_accept_self : (accept t).run (onTokens (t :: ts) nodes)
    = .ok (true, onTokens ts nodes) := by
  simp only [accept, StateT.run_bind, run_peek, ok_bind, if_true, run_advance]
  rfl

/-- Where another one stands it is not, and nothing is passed over. -/
theorem run_accept_of_ne {u : Token} (h : u ≠ t) :
    (accept t).run (onTokens (u :: ts) nodes) = .ok (false, onTokens (u :: ts) nodes) := by
  simp only [accept, StateT.run_bind, run_peek, ok_bind, if_neg h]
  rfl

/-- A token that has to come is passed over. -/
theorem run_expect : (expect t).run (onTokens (t :: ts) nodes) = .ok ((), onTokens ts nodes) := by
  simp only [expect, StateT.run_bind, run_accept_self, ok_bind, if_true]
  rfl

/-- A node without an anchor goes behind the others. -/
theorem run_place (n : Node) :
    (place none n).run (onTokens ts nodes) = .ok (nodes.length, onTokens ts (nodes ++ [n])) := by
  show Except.ok (nodes.toArray.size,
    (⟨ts, none, defaultHandles, [], nodes.toArray.push n⟩ : Composer)) = _
  rw [List.push_toArray, List.size_toArray]
  rfl

/-- A node is put in the place that was kept for it. -/
theorem run_fill (number : Nat) (n : Node) :
    (fill number n).run (onTokens ts nodes) = .ok (number, onTokens ts (nodes.set number n)) := by
  show Except.ok (number, (⟨ts, none, defaultHandles, [], nodes.toArray.setIfInBounds number n⟩ :
    Composer))
    = _
  rw [List.setIfInBounds_toArray]
  rfl

end

/-- There is room for this depth. -/
theorem checkDepth_eq {depth : Nat} (h : depth ≤ maxNesting) : checkDepth depth = pure () := by
  rw [checkDepth, if_neg (by omega)]

/-- A scalar is one node. -/
theorem run_node_atom (fuel : Nat) {depth : Nat} (hdepth : depth ≤ maxNesting)
    (block indentless : Bool)
    (a : Atom) (ts : List Token) (nodes : List Node) :
    (node (fuel + 1) depth block indentless).run
      (onTokens (.scalar a.content a.isPlain :: ts) nodes)
      = .ok (nodes.length, onTokens ts (nodes ++ [.scalar a.kind a.content])) := by
  have hkind : scalarKind none false a.isPlain a.content = a.kind := by
    cases a <;> rfl
  rw [node, checkDepth_eq hdepth, ← hkind, ← run_place]
  rfl

/-- The nodes of an entry. -/
def entryNodes (e : Text × Atom) : List Node :=
  [.scalar .str e.1.asUnits, .scalar e.2.kind e.2.content]

/-- The numbers of the entries whose nodes start at a number. -/
def entryNumbers : (start : Nat) → (entries : List (Text × Atom)) → List (Nat × Nat)
  | _, [] => []
  | start, _ :: entries => (start, start + 1) :: entryNumbers (start + 2) entries

/-- One entry of a flow mapping, with a comma in front unless it is the first. -/
theorem run_flowEntries_cons (fuel : Nat) {depth : Nat} (hdepth : depth ≤ maxNesting) (first : Bool)
    (e : Text × Atom) (ts : List Token) (nodes : List Node) :
    (flowEntries (fuel + 2) depth first).run
        (onTokens ((if first then [] else [.flowEntry]) ++ (Scanner.entryTokens e ++ ts)) nodes)
      = ((flowEntries (fuel + 1) depth false).run (onTokens ts (nodes ++ entryNodes e))).map
          fun r => ((nodes.length, nodes.length + 1) :: r.1, r.2) := by
  have hkey : (node (fuel + 1) depth false false).run
      (onTokens (.scalar e.1.asUnits false :: .value ::
        .scalar e.2.content e.2.isPlain :: ts) nodes)
        = .ok (nodes.length, onTokens (.value :: .scalar e.2.content e.2.isPlain :: ts)
            (nodes ++ [.scalar .str e.1.asUnits])) :=
    run_node_atom fuel hdepth false false (.quoted e.1) _ nodes
  have hvalue := run_node_atom fuel hdepth false false e.2 ts (nodes ++ [.scalar .str e.1.asUnits])
  rw [flowEntries]
  -- The first entry has no comma in front; the rest is the same.
  cases first with
  | true =>
      simp [Scanner.entryTokens, run_accept_of_ne, run_accept_self, run_peek, ok_bind, endsFlowKey,
        endsFlowValue, hkey, hvalue, entryNodes]
      rfl
  | false =>
      simp [Scanner.entryTokens, run_accept_of_ne, run_accept_self, run_expect, run_peek, ok_bind,
        endsFlowKey, endsFlowValue, hkey, hvalue, entryNodes]
      rfl

/-- The tokens of entries, each with a comma in front. -/
def moreTokens (entries : List (Text × Atom)) : List Token :=
  entries.flatMap fun e => .flowEntry :: Scanner.entryTokens e

/-- The tokens of entries: those of the first, and those of the others with a comma in
front of each. -/
theorem entriesTokens_cons (e : Text × Atom) (entries : List (Text × Atom)) :
    Scanner.entriesTokens (e :: entries) = Scanner.entryTokens e ++ moreTokens entries := by
  induction entries generalizing e with
  | nil => simp [Scanner.entriesTokens, moreTokens]
  | cons e' entries ih =>
      have hcons : Scanner.entriesTokens (e :: e' :: entries)
          = Scanner.entryTokens e ++ [.flowEntry] ++ Scanner.entriesTokens (e' :: entries) := by
        simp [Scanner.entriesTokens, List.intercalate_cons_cons]
      rw [hcons, ih]
      simp [moreTokens]

/-- The entries of a flow mapping behind the first. -/
theorem run_flowEntries_more {depth : Nat} (hdepth : depth ≤ maxNesting)
    (entries : List (Text × Atom))
    (ts : List Token) (nodes : List Node) {fuel : Nat} (hfuel : entries.length < fuel) :
    (flowEntries fuel depth false).run
      (onTokens (moreTokens entries ++ .flowMappingEnd :: ts) nodes)
      = .ok (entryNumbers nodes.length entries,
        onTokens ts (nodes ++ entries.flatMap entryNodes)) := by
  induction entries generalizing nodes fuel with
  | nil =>
      obtain ⟨fuel, rfl⟩ : ∃ k, fuel = k + 1 := ⟨fuel - 1, by omega⟩
      rw [flowEntries]
      simp [moreTokens, run_accept_self, ok_bind, entryNumbers]
      rfl
  | cons e entries ih =>
      rw [List.length_cons] at hfuel
      obtain ⟨fuel, rfl⟩ : ∃ k, fuel = k + 2 := ⟨fuel - 2, by omega⟩
      -- Each further entry has a comma in front, and its nodes behind those before it.
      have hstep := run_flowEntries_cons fuel hdepth false e
        (moreTokens entries ++ .flowMappingEnd :: ts) nodes
      have htokens : moreTokens (e :: entries) ++ .flowMappingEnd :: ts
          = (if false = true then [] else [Token.flowEntry]) ++
            (Scanner.entryTokens e ++ (moreTokens entries ++ .flowMappingEnd :: ts)) := by
        simp [moreTokens]
      rw [htokens, hstep, ih (nodes ++ entryNodes e) (by omega)]
      simp [Except.map, entryNumbers, entryNodes]

/-- All entries of a flow mapping. -/
theorem run_flowEntries {depth : Nat} (hdepth : depth ≤ maxNesting) (entries : List (Text × Atom))
    (ts : List Token) (nodes : List Node) {fuel : Nat} (hfuel : entries.length < fuel) :
    (flowEntries fuel depth true).run
        (onTokens (Scanner.entriesTokens entries ++ .flowMappingEnd :: ts) nodes)
      = .ok (entryNumbers nodes.length entries,
        onTokens ts (nodes ++ entries.flatMap entryNodes)) := by
  cases entries with
  | nil =>
      obtain ⟨fuel, rfl⟩ : ∃ k, fuel = k + 1 := ⟨fuel - 1, by omega⟩
      rw [flowEntries]
      simp [Scanner.entriesTokens, run_accept_self, ok_bind, entryNumbers]
      rfl
  | cons e entries =>
      rw [List.length_cons] at hfuel
      obtain ⟨fuel, rfl⟩ : ∃ k, fuel = k + 2 := ⟨fuel - 2, by omega⟩
      have hstep := run_flowEntries_cons fuel hdepth true e
        (moreTokens entries ++ .flowMappingEnd :: ts) nodes
      rw [if_pos rfl, List.nil_append] at hstep
      rw [entriesTokens_cons, List.append_assoc, hstep,
        run_flowEntries_more hdepth entries ts (nodes ++ entryNodes e) (by omega)]
      simp [Except.map, entryNumbers, entryNodes]

/-- The nodes of a line, by their numbers. -/
def lineNodes (name : Text) (entries : List (Text × Atom)) : List Node :=
  .mapping .map [(1, 2)] :: .scalar .str name.asUnits :: .mapping .map (entryNumbers 3 entries) ::
    entries.flatMap entryNodes

/-- The flow mapping behind the name. -/
theorem run_node_flowMapping (entries : List (Text × Atom)) (ts : List Token) (first second : Node)
    {fuel : Nat} (hfuel : entries.length < fuel) :
    (node (fuel + 1) 1 true true).run
        (onTokens (.flowMappingStart :: (Scanner.entriesTokens entries ++ .flowMappingEnd :: ts))
          [first, second])
      = .ok (2, onTokens ts (first :: second :: .mapping .map (entryNumbers 3 entries) ::
          entries.flatMap entryNodes)) := by
  have hdepth : 2 ≤ maxNesting := by decide
  have hentries := run_flowEntries hdepth entries ts [first, second, .empty] hfuel
  rw [node, checkDepth_eq (by decide)]
  simp [run_peek, ok_bind, properties, fullTag?, run_place, run_advance, hentries, run_fill, kindOr]

/-- The block mapping of a line: its name and the flow mapping. -/
theorem run_node_line (name : Text) (entries : List (Text × Atom)) {fuel : Nat}
    (hfuel : entries.length < fuel) :
    (node (fuel + 3) 0 true false).run (onTokens (Scanner.lineTokens name entries) [])
      = .ok (0, onTokens [.streamEnd] (lineNodes name entries)) := by
  have htokens : Scanner.lineTokens name entries
      = .blockMappingStart :: .key :: .scalar name.asUnits false :: .value :: .flowMappingStart ::
        (Scanner.entriesTokens entries ++ .flowMappingEnd :: .blockEnd :: [.streamEnd]) := by
    simp [Scanner.lineTokens]
  have hname : (node (fuel + 1) 1 true true).run (onTokens (.scalar name.asUnits false :: .value ::
      .flowMappingStart :: (Scanner.entriesTokens entries ++ .flowMappingEnd :: .blockEnd ::
        [.streamEnd]))
      [.empty]) = .ok (1, onTokens (.value :: .flowMappingStart ::
        (Scanner.entriesTokens entries ++ .flowMappingEnd :: .blockEnd :: [.streamEnd]))
        [.empty, .scalar .str name.asUnits]) :=
    run_node_atom fuel (by decide) true true (.quoted name) _ [.empty]
  have hmapping := run_node_flowMapping entries [.blockEnd, .streamEnd] .empty
    (.scalar .str name.asUnits) hfuel
  -- Behind the flow mapping there is no other key, so the block ends.
  have hend : ∀ nodes, (blockEntries (fuel + 1) 1).run (onTokens [.blockEnd, .streamEnd] nodes)
      = .ok ([], onTokens [.streamEnd] nodes) := by
    intro nodes
    rw [blockEntries]
    simp [run_accept_of_ne, run_expect, ok_bind]
  have hentries : (blockEntries (fuel + 2) 1).run
      (onTokens (.key :: .scalar name.asUnits false :: .value ::
      .flowMappingStart :: (Scanner.entriesTokens entries ++ .flowMappingEnd :: .blockEnd ::
        [.streamEnd]))
      [.empty]) = .ok ([(1, 2)], onTokens [.streamEnd] (.empty :: .scalar .str name.asUnits ::
        .mapping .map (entryNumbers 3 entries) :: entries.flatMap entryNodes)) := by
    rw [blockEntries]
    simp [run_accept_self, run_peek, ok_bind, endsBlockPart, hname, hmapping, hend]
  rw [htokens, node, checkDepth_eq (by decide)]
  simp [run_peek, ok_bind, properties, fullTag?, run_place, run_advance, hentries, run_fill,
    kindOr, lineNodes]

/-- A line is one document. -/
theorem run_document_line (name : Text) (entries : List (Text × Atom)) {fuel : Nat}
    (hfuel : entries.length + 3 < fuel) :
    (document fuel).run (onTokens (Scanner.lineTokens name entries) [])
      = .ok (some 0, onTokens [] (lineNodes name entries)) := by
  obtain ⟨fuel, rfl⟩ : ∃ k, fuel = k + 3 := ⟨fuel - 3, by omega⟩
  have hnode := run_node_line name entries (show entries.length < fuel by omega)
  have hpeek : peek.run (onTokens (Scanner.lineTokens name entries) [])
      = .ok (.blockMappingStart, onTokens (Scanner.lineTokens name entries) []) := rfl
  rw [document]
  simp [hpeek, ok_bind, hnode, skipDocumentEnds, run_accept_of_ne, run_expect]

/-- There is a token for each entry, so the fuel, which the tokens give, is enough. -/
theorem length_le_moreTokens (entries : List (Text × Atom)) :
    entries.length ≤ (moreTokens entries).length := by
  induction entries with
  | nil => exact Nat.le_refl _
  | cons e entries ih =>
      simp only [moreTokens, List.flatMap_cons, List.length_append, List.length_cons] at ih ⊢
      omega

/-- The same where the first entry has no comma in front. -/
theorem length_le_entriesTokens (entries : List (Text × Atom)) :
    entries.length ≤ (Scanner.entriesTokens entries).length := by
  cases entries with
  | nil => exact Nat.zero_le _
  | cons e entries =>
      have hmore := length_le_moreTokens entries
      rw [entriesTokens_cons, List.length_append, List.length_cons, Scanner.entryTokens]
      simp only [List.length_cons, List.length_nil]
      omega

/-- The tokens of a line are more than its entries. -/
theorem length_lt_lineTokens (name : Text) (entries : List (Text × Atom)) :
    entries.length < (Scanner.lineTokens name entries).length := by
  have hentries := length_le_entriesTokens entries
  simp only [Scanner.lineTokens, List.length_append, List.length_cons]
  omega

end Composer

/-- The nodes of a line with a name that is not too long. -/
theorem NodeGraph.ofText?_line {name : Text} (hname : (Json.stringText name).length ≤ 1024)
    {entries : List (Text × Atom)} (hkeys : ∀ e ∈ entries, (Json.stringText e.1).length ≤ 1024) :
    NodeGraph.ofText? (Scanner.lineText name entries)
      = .ok (some ⟨(Composer.lineNodes name entries).toArray, 0⟩) := by
  have hlength := Composer.length_lt_lineTokens name entries
  have hdocument := Composer.run_document_line name entries
    (show entries.length + 3 < 2 * (Scanner.lineTokens name entries).length + 4 by omega)
  rw [NodeGraph.ofText?, TokenStream.ofText_line hname entries hkeys]
  show (StateT.run _ (Composer.onTokens _ []) >>= _) = _
  rw [hdocument]
  rfl

/-- A name that is too long is followed by nothing that could be read. -/
theorem NodeGraph.ofText?_longName {name : Text} (hname : 1024 < (Json.stringText name).length)
    (entries : List (Text × Atom)) :
    NodeGraph.ofText? (Scanner.lineText name entries) = .error .malformed := by
  have hnode : (Composer.node 6 0 true false).run ⟨[.scalar name.asUnits false], some .malformed,
      Composer.defaultHandles, [], #[]⟩ = .ok (0, ⟨[], some .malformed, Composer.defaultHandles, [],
        #[.scalar .str name.asUnits]⟩) := by
    rw [Composer.node]
    rfl
  have hdocument : (Composer.document 6).run ⟨[.scalar name.asUnits false], some .malformed,
      Composer.defaultHandles, [], #[]⟩ = .error .malformed := by
    rw [Composer.document]
    show (StateT.run (Composer.node 6 0 true false) _ >>= _) = _
    rw [hnode]
    rfl
  rw [NodeGraph.ofText?, TokenStream.ofText_longName hname]
  show (StateT.run (Composer.document 6) _ >>= _) = _
  rw [hdocument]
  rfl

end RouteDocs.Yaml
