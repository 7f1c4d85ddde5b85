/-
This file shows that the drawings of a program show each node and each edge of its graphs once.
-/

import ShaderAnalysis.Proofs.Graph.Gathering
import ShaderAnalysis.Proofs.Listing.Solid
import ShaderAnalysis.Report.Basic

namespace ShaderAnalysis

namespace Dot

/-- What is written for a character. -/
def written (character : Char) : List Char := if character = '"' then ['\\', '"'] else [character]

theorem escapeList (text : String) : (escape text).toList = text.toList.flatMap written := by
  rw [escape, String.toList_ofList]
  congr 1
  funext character
  simp [written]

theorem writtenMember {text : List Char} {character : Char}
    (member : character ∈ text.flatMap written) : character ∈ text ∨ character = '\\' := by
  obtain ⟨original, among, place⟩ := List.mem_flatMap.mp member
  unfold written at place
  split at place
  · rename_i quote
    rcases List.mem_pair.mp place with slash | same
    · exact .inr slash
    · exact .inl (same ▸ quote ▸ among)
  · exact .inl (List.mem_singleton.mp place ▸ among)

/-- No text is written with a quote in front. -/
theorem writtenFirst (text rest : List Char) : text.flatMap written ≠ '"' :: rest := by
  cases text with
  | nil => simp
  | cons character text => by_cases quote : character = '"' <;> simp [written, quote]

theorem writtenInjective {first second : List Char}
    (same : first.flatMap written = second.flatMap written) : first = second := by
  have nonempty : ∀ (character : Char) (text : List Char),
      (character :: text).flatMap written ≠ [] := by
    intro character text
    by_cases quote : character = '"' <;> simp [written, quote]
  induction first generalizing second with
  | nil =>
      cases second with
      | nil => rfl
      | cons other second => exact absurd same.symm (nonempty other second)
  | cons character first inductionHypothesis =>
      cases second with
      | nil => exact absurd same (nonempty character first)
      | cons other second =>
          rw [List.flatMap_cons, List.flatMap_cons, written, written] at same
          -- A backslash of the text is not followed by a quote, so it differs from a written quote.
          split at same
          · rename_i quote
            split at same
            · rename_i otherQuote
              rw [quote, otherQuote, inductionHypothesis (List.append_cancel_left same)]
            · exact absurd (List.cons.inj same).2.symm (writtenFirst _ _)
          · split at same
            · exact absurd (List.cons.inj same).2 (writtenFirst _ _)
            · obtain ⟨rfl, rest⟩ := List.cons.inj same
              rw [inductionHypothesis rest]

theorem escapeInjective {first second : String} (same : escape first = escape second) :
    first = second := by
  rw [← String.toList_inj, escapeList, escapeList] at same
  exact String.toList_inj.mp (writtenInjective same)

theorem escapeSolid {text : String} (solid : Text.Solid text.toList) :
    Text.Solid (escape text).toList := by
  rw [escapeList]
  intro character member
  rcases writtenMember member with among | rfl
  · exact solid character among
  · decide

theorem escapeUnbroken {text : String} (unbroken : '\n' ∉ text.toList) :
    '\n' ∉ (escape text).toList := by
  rw [escapeList]
  intro member
  rcases writtenMember member with among | slash
  · exact unbroken among
  · exact absurd slash (by decide)

section

variable {source target : String} (sourceSolid : Text.Solid source.toList)
  (targetSolid : Text.Solid target.toList)

theorem edgeLineList (source target : String) :
    (edgeLine source target).toList = ('"' :: source.toList ++ ['"', ':', 's']) ++
      ' ' :: (['-', '>'] ++ ' ' :: ('"' :: target.toList ++ ['"', ';'])) := by
  simp [edgeLine, quoted]

/-- Without blanks in its identifiers an edge line has three parts. -/
theorem edgeLineParts (sourceUnspaced : ' ' ∉ source.toList)
    (targetUnspaced : ' ' ∉ target.toList) :
    (edgeLine source target).toList.splitOn ' ' =
      ['"' :: source.toList ++ ['"', ':', 's'], ['-', '>'],
        '"' :: target.toList ++ ['"', ';']] := by
  rw [edgeLineList, List.splitOn_append_cons_self_of_not_mem (by simp [sourceUnspaced]),
    List.splitOn_append_cons_self_of_not_mem (by decide),
    List.splitOn_eq_singleton (by simp [targetUnspaced])]

include sourceSolid targetSolid

/-- An edge line leads from one identifier to one other only. -/
theorem edgeLineInjective {otherSource otherTarget : String}
    (same : edgeLine source target = edgeLine otherSource otherTarget) :
    source = otherSource ∧ target = otherTarget := by
  have spaces : ∀ source target : String, (edgeLine source target).toList.count ' ' =
      source.toList.count ' ' + target.toList.count ' ' + 2 := by
    intro source target
    rw [edgeLineList]
    simp
    omega
  have sourceUnspaced := Text.solidWithout sourceSolid (by decide : Text.isBlank ' ' = true)
  have targetUnspaced := Text.solidWithout targetSolid (by decide : Text.isBlank ' ' = true)
  have counts := spaces otherSource otherTarget
  rw [← same, spaces, List.count_eq_zero_of_not_mem sourceUnspaced,
    List.count_eq_zero_of_not_mem targetUnspaced] at counts
  have parts := edgeLineParts sourceUnspaced targetUnspaced
  rw [same, edgeLineParts (List.count_eq_zero.mp (by omega)) (List.count_eq_zero.mp (by omega))]
    at parts
  simpa [String.toList_inj, eq_comm] using parts

end

theorem nodeLineUnbroken {identifier label style : String}
    (identifierKept : '\n' ∉ identifier.toList) (labelKept : '\n' ∉ label.toList)
    (styleKept : '\n' ∉ style.toList) :
    '\n' ∉ (nodeLine identifier label style).toList := by
  simp [nodeLine, quoted, identifierKept, labelKept, styleKept]

theorem edgeLineUnbroken {source target : String} (sourceKept : '\n' ∉ source.toList)
    (targetKept : '\n' ∉ target.toList) : '\n' ∉ (edgeLine source target).toList := by
  simp [edgeLine, quoted, sourceKept, targetKept]

section

variable {α : Type} (nodes : List α) (next : α → List α) (identifier title style : α → String)

def nodeLines : List String :=
  nodes.map fun node => nodeLine (identifier node) (title node) (style node)

/-- The lines of the edges in the order of the nodes and of their successors. -/
def edgeLines : List String :=
  nodes.flatMap fun node => (next node).map fun target =>
    edgeLine (identifier node) (identifier target)

/-- The identifiers that the edge lines lead to from a given one. -/
def targetsDrawn (identifiers edges : List String) (source : String) : List String :=
  edges.filterMap fun line => identifiers.find? (edgeLine source · == line)

/-- A text draws a graph if its lines are those of the nodes and those of the edges between the two
lines at its start and the one at its end. All the nodes have their own identifiers, and no edge
line comes twice. The identifiers of every edge line are each that of one node, and from the edge
lines the successors of every node can be told. -/
structure Draws (text : String) : Prop where
  lines : text.toList.splitOn '\n' =
    (["digraph \x7b", "node [shape=box]"] ++ nodeLines nodes identifier title style ++
      edgeLines nodes next identifier ++ ["\x7d"]).map String.toList ++ [[]]
  distinct : (nodes.map identifier).Nodup
  edgesOnce : (edgeLines nodes next identifier).Nodup
  known : ∀ line ∈ edgeLines nodes next identifier, ∀ source target,
    line = edgeLine source target →
      (nodes.map identifier).count source = 1 ∧ (nodes.map identifier).count target = 1
  determined : ∀ node ∈ nodes,
    targetsDrawn (nodes.map identifier) (edgeLines nodes next identifier) (identifier node) =
      (next node).map identifier

variable {nodes next identifier title style}

theorem edgeLinesMember (line : String) : line ∈ edgeLines nodes next identifier ↔
    ∃ node ∈ nodes, ∃ target ∈ next node,
      edgeLine (identifier node) (identifier target) = line := by
  simp [edgeLines]

variable (distinct : (nodes.map identifier).Nodup)
  (closed : ∀ node ∈ nodes, ∀ target ∈ next node, target ∈ nodes)
  (solid : ∀ node ∈ nodes, Text.Solid (identifier node).toList)

section

include closed solid

theorem edgeKnown {node target : α} (member : node ∈ nodes) (edge : target ∈ next node)
    {source other : String} (same : edgeLine (identifier node) (identifier target) =
      edgeLine source other) : identifier node = source ∧ identifier target = other :=
  edgeLineInjective (solid node member) (solid target (closed node member target edge)) same

/-- Among the identifiers the target of an edge line is found from its own source only. -/
theorem targetFound {node target : α} (member : node ∈ nodes) (edge : target ∈ next node)
    (source : String) :
    (nodes.map identifier).find?
        (edgeLine source · == edgeLine (identifier node) (identifier target)) =
      if identifier node = source then some (identifier target) else none := by
  have known : ∀ candidate, (edgeLine source candidate ==
      edgeLine (identifier node) (identifier target)) = true →
        identifier node = source ∧ identifier target = candidate := fun candidate reads =>
    edgeKnown closed solid member edge (beq_iff_eq.mp reads).symm
  split
  · rename_i same
    cases found : (nodes.map identifier).find?
        (edgeLine source · == edgeLine (identifier node) (identifier target)) with
    | none =>
        have missing := List.find?_eq_none.mp found _
          (List.mem_map_of_mem (closed node member target edge))
        simp [same] at missing
    | some candidate =>
        have reads := List.find?_some found
        rw [(known candidate reads).2]
  · rename_i differs
    rw [List.find?_eq_none]
    intro candidate _ reads
    exact differs (known candidate reads).1

/-- From a given source the edge lines lead to the successors of the nodes with this identifier. -/
theorem targetsOf (source : String) :
    targetsDrawn (nodes.map identifier) (edgeLines nodes next identifier) source =
      nodes.flatMap fun node => if identifier node = source then (next node).map identifier
        else [] := by
  rw [targetsDrawn, edgeLines, List.filterMap_flatMap]
  apply List.flatMap_congr
  intro node member
  rw [List.filterMap_map]
  split
  · rename_i same
    refine (List.filterMap_congr fun target edge => ?_).trans
      (congrFun List.filterMap_eq_map (next node))
    exact (targetFound closed solid member edge source).trans (if_pos same)
  · rename_i differs
    rw [List.filterMap_eq_nil_iff]
    intro target edge
    exact (targetFound closed solid member edge source).trans (if_neg differs)

end

include distinct closed solid

theorem targetsDetermined {node : α} (member : node ∈ nodes) :
    targetsDrawn (nodes.map identifier) (edgeLines nodes next identifier) (identifier node) =
      (next node).map identifier := by
  rw [targetsOf closed solid]
  obtain ⟨before, behind, rfl⟩ := List.append_of_mem member
  have others : ∀ part : List α, (∀ other ∈ part, identifier other ≠ identifier node) →
      part.flatMap (fun other => if identifier other = identifier node
        then (next other).map identifier else []) = [] := by
    intro part differ
    rw [List.flatMap_eq_nil_iff]
    intro other among
    exact if_neg (differ other among)
  rw [List.map_append, List.map_cons, List.nodup_append, List.nodup_cons] at distinct
  obtain ⟨_, ⟨notBehind, _⟩, notBefore⟩ := distinct
  rw [List.flatMap_append, List.flatMap_cons, if_pos rfl, others before, others behind,
    List.nil_append, List.append_nil]
  · intro other among same
    exact notBehind (same ▸ List.mem_map_of_mem among)
  · intro other among
    exact notBefore _ (List.mem_map_of_mem among) _ List.mem_cons_self

theorem edgesDistinct (once : ∀ node ∈ nodes, (next node).Nodup) :
    (edgeLines nodes next identifier).Nodup := by
  have injective : ∀ first ∈ nodes, ∀ second ∈ nodes, identifier first = identifier second →
      first = second := fun first firstMember second secondMember =>
    List.inj_on_of_nodup_map distinct firstMember secondMember
  rw [edgeLines, List.nodup_flatMap]
  constructor
  · intro node member
    apply List.Nodup.map_on _ (once node member)
    intro first firstEdge second secondEdge same
    have targets := (edgeKnown closed solid member firstEdge same).2
    exact injective first (closed node member first firstEdge) second
      (closed node member second secondEdge) targets
  · apply List.Pairwise.imp_of_mem _ (List.Nodup.of_map identifier distinct)
    intro first second firstMember secondMember differ line firstLine secondLine
    obtain ⟨target, edge, rfl⟩ := List.mem_map.mp firstLine
    obtain ⟨other, otherEdge, same⟩ := List.mem_map.mp secondLine
    have sources := (edgeKnown closed solid secondMember otherEdge same).1
    exact differ (injective second secondMember first firstMember sources).symm

theorem drawsGraph (once : ∀ node ∈ nodes, (next node).Nodup)
    (unbroken : ∀ node ∈ nodes, '\n' ∉ (title node).toList ∧ '\n' ∉ (style node).toList) :
    Draws nodes next identifier title style
      (drawing (nodeLines nodes identifier title style) (edgeLines nodes next identifier)) where
  lines := by
    have kept : ∀ node ∈ nodes, '\n' ∉ (identifier node).toList := fun node member =>
      Text.solidWithout (solid node member) (by decide)
    apply Text.linesUnlines
    simp only [List.forall_mem_append]
    refine ⟨⟨⟨by decide, fun line member => ?_⟩, fun line member => ?_⟩, by decide⟩
    · obtain ⟨node, among, rfl⟩ := List.mem_map.mp member
      exact nodeLineUnbroken (kept node among) (unbroken node among).1 (unbroken node among).2
    · obtain ⟨node, among, target, edge, rfl⟩ := (edgeLinesMember line).mp member
      exact edgeLineUnbroken (kept node among) (kept target (closed node among target edge))
  distinct := distinct
  edgesOnce := edgesDistinct distinct closed solid once
  known := by
    intro line member source target same
    obtain ⟨node, among, other, edge, rfl⟩ := (edgeLinesMember line).mp member
    obtain ⟨rfl, rfl⟩ := edgeKnown closed solid among edge same
    exact ⟨List.count_eq_one_of_mem distinct (List.mem_map_of_mem among),
      List.count_eq_one_of_mem distinct (List.mem_map_of_mem (closed node among other edge))⟩
  determined node member := targetsDetermined distinct closed solid member

end

/-- The blocks that follow a block. -/
def following (program : Program) (block : Block) : List Block :=
  block.successors.filterMap (program.blocks[·]?)

/-- The label of the node of a block. -/
def blockTitle (compact : Bool) (block : Block) : String :=
  escape block.label ++ "\\n" ++ blockContent compact block

/-- The label of a node; it shows an instruction or tells what stands in for one. -/
def nodeTitle (program : Program) (graph : Graph) (index : Nat) : String :=
  (graph.nodes[index]?.map fun node => escape (nodeContent program node).1 ++ "\\l").getD ""

def nodeStyle (program : Program) (graph : Graph) (index : Nat) : String :=
  (graph.nodes[index]?.map fun node => (nodeContent program node).2).getD ""

theorem blocksDrawing (program : Program) (compact : Bool) :
    blocks program compact =
      drawing (nodeLines program.blocks blockIdentifier (blockTitle compact) style)
        (edgeLines program.blocks (following program) blockIdentifier) := by
  have edges : blockEdges program = fun block => (following program block).map fun target =>
      edgeLine (blockIdentifier block) (blockIdentifier target) := by
    funext block
    rw [blockEdges, following, List.map_filterMap]
  rw [blocks, edges]
  rfl

theorem instructionsDrawing (program : Program) (graph : Graph) :
    instructions program graph =
      drawing
        (nodeLines (graph.gather .forward graph.entry) nodeIdentifier (nodeTitle program graph)
          (nodeStyle program graph))
        (edgeLines (graph.gather .forward graph.entry) graph.successors nodeIdentifier) := by
  have lines : (graph.gather .forward graph.entry).flatMap (instructionLine program graph) =
      nodeLines (graph.gather .forward graph.entry) nodeIdentifier (nodeTitle program graph)
        (nodeStyle program graph) := by
    rw [nodeLines, List.map_eq_flatMap]
    apply List.flatMap_congr
    intro index member
    have found : graph.nodes[index]? = some _ :=
      Array.getElem?_eq_getElem (Graph.gatherInside member)
    simp [instructionLine, nodeTitle, nodeStyle, found]
  rw [instructions, lines]
  rfl

section

variable {stream : List Instruction} {program : Program}
  (built : Program.build stream = .ok program)

include built

/-- A block is followed by the blocks at the positions that its successors name. -/
theorem followingAt {block : Block} (member : block ∈ program.blocks) :
    List.Forall₂ (fun index target => program.blocks[index]? = some target) block.successors
      (following program block) := by
  have inside : ∀ index ∈ block.successors, index < program.blocks.length := by
    obtain ⟨index, found⟩ := List.getElem?_of_mem member
    rw [← Program.successorsAt program found]
    exact fun target => Program.successorsInside built
  unfold following
  generalize block.successors = successors at inside
  induction successors with
  | nil => exact .nil
  | cons index indices inductionHypothesis =>
      obtain ⟨first, rest⟩ := List.forall_mem_cons.mp inside
      have found := List.getElem?_eq_getElem first
      simp only [List.filterMap_cons, found]
      exact .cons found (inductionHypothesis rest)

theorem blockIdentifiersDistinct : (program.blocks.map blockIdentifier).Nodup := by
  have labels : program.blocks.map blockIdentifier =
      program.labels.map fun label => "n_" ++ escape label := by
    rw [Program.labels, List.map_map]
    rfl
  rw [labels]
  apply List.Nodup.map _ (Program.labelsNodup built)
  intro first second same
  exact escapeInjective ((String.append_right_inj "n_").mp same)

theorem followingDistinct {block : Block} (member : block ∈ program.blocks) :
    (following program block).Nodup := by
  have distinct : program.blocks.Nodup := .of_map _ (blockIdentifiersDistinct built)
  have once : block.successors.Nodup := by
    obtain ⟨index, found⟩ := List.getElem?_of_mem member
    rw [← Program.successorsAt program found]
    exact Program.successorsOnce built index
  apply List.Nodup.filterMap _ once
  intro first second target firstFound secondFound
  have inside := (List.getElem?_eq_some_iff.mp firstFound).1
  exact (List.getElem?_inj inside distinct).mp (firstFound.trans secondFound.symm)

variable (solid : ∀ instruction ∈ stream, instruction.Solid)

include solid

theorem blockLabelSolid {block : Block} (member : block ∈ program.blocks) :
    Text.Solid block.label.toList :=
  Program.labelsSolid built solid block.label (List.mem_map_of_mem member)

theorem blockContentUnbroken {block : Block} (member : block ∈ program.blocks) (compact : Bool) :
    '\n' ∉ (blockContent compact block).toList := by
  unfold blockContent
  split
  · have digits := Text.solidWithout (Text.decimalSolid block.instructions.length)
      (by decide : Text.isBlank '\n' = true)
    rw [String.toList_append, List.mem_append, not_or]
    exact ⟨digits, by decide⟩
  · have bodies : ∀ instruction ∈ block.instructions, '\n' ∉ (escape instruction.body).toList :=
      fun instruction inside => escapeUnbroken (Program.bodiesUnbroken built solid instruction
        (List.mem_flatMap.mpr ⟨block, member, inside⟩))
    simpa [String.toList_join] using bodies

theorem blocksDrawn (compact : Bool) :
    Draws program.blocks (following program) blockIdentifier (blockTitle compact) style
      (blocks program compact) := by
  rw [blocksDrawing]
  apply drawsGraph (blockIdentifiersDistinct built)
  · intro block _ target edge
    obtain ⟨index, _, found⟩ := List.mem_filterMap.mp edge
    exact List.mem_of_getElem? found
  · intro block member
    rw [blockIdentifier, String.toList_append, Text.solidAppend]
    exact ⟨by decide, escapeSolid (blockLabelSolid built solid member)⟩
  · exact fun block member => followingDistinct built member
  · intro block member
    have label := escapeUnbroken (Text.solidWithout (blockLabelSolid built solid member)
      (by decide : Text.isBlank '\n' = true))
    have content := blockContentUnbroken built solid member compact
    refine ⟨by simp [blockTitle, label, content], ?_⟩
    unfold style
    split <;> decide

end

section

variable {program : Program} {graph : Graph} {index : Nat}

theorem instructionShown {instruction : Instruction}
    (found : graph.instruction? index = some instruction) :
    nodeTitle program graph index = escape instruction.body ++ "\\l" ∧
      nodeStyle program graph index = "" := by
  obtain ⟨node, place, holds⟩ := Option.bind_eq_some_iff.mp found
  simp [nodeTitle, nodeStyle, nodeContent, place, holds]

/-- A node that lacks an instruction shows which end of the program it stands for. -/
theorem placeholderShown {block : Block} (bound : index < graph.size)
    (lacking : graph.instruction? index = none)
    (found : program.blocks[(graph.place index).1]? = some block) :
    (block.label = Block.entryLabel →
      nodeTitle program graph index = "Entry\\l" ∧
        nodeStyle program graph index = "style=rounded") ∧
    (block.label = Block.exitLabel →
      nodeTitle program graph index = "Exit\\l" ∧
        nodeStyle program graph index = "style=rounded") := by
  have node : graph.nodes[index]? = some graph.nodes[index] := Array.getElem?_eq_getElem bound
  have without : graph.nodes[index].instruction = none := by
    simpa [Graph.instruction?, node] using lacking
  have stands : program.blocks[graph.nodes[index].block]? = some block := by
    simpa [Graph.place, node] using found
  simp only [nodeTitle, nodeStyle, node, nodeContent, without, stands, Option.map_some,
    Option.getD_some, style]
  constructor
  · intro label
    have entry : block.isEntry = true := by rw [Block.isEntry, label, BEq.rfl]
    simp only [entry, Bool.true_or, if_true]
    decide
  · intro label
    have exit : block.isEntry = false ∧ block.isExit = true := by
      rw [Block.isEntry, Block.isExit, label]
      decide
    simp only [exit, Bool.or_true, Bool.false_eq_true, if_false, if_true]
    decide

end

/-- A node shows its instruction. Those that lack one are the nodes of the entry and the exit, and
they tell which of the two they stand for. -/
structure ShowsPlace (program : Program) (graph : Graph) (index : Nat) : Prop where
  lacking : graph.instruction? index = none ↔
    (graph.place index).1 = program.entry ∨ (graph.place index).1 = program.exit
  instruction : ∀ instruction, graph.instruction? index = some instruction →
    nodeTitle program graph index = escape instruction.body ++ "\\l" ∧
      nodeStyle program graph index = ""
  entry : (graph.place index).1 = program.entry →
    nodeTitle program graph index = "Entry\\l" ∧ nodeStyle program graph index = "style=rounded"
  exit : (graph.place index).1 = program.exit →
    nodeTitle program graph index = "Exit\\l" ∧ nodeStyle program graph index = "style=rounded"

section

variable {stream : List Instruction} {program : Program}
  (built : Program.build stream = .ok program)

include built

theorem lackingIffEnd {start index : Nat}
    (bound : index < (Graph.expandFrom program start).size) :
    (Graph.expandFrom program start).instruction? index = none ↔
      ((Graph.expandFrom program start).place index).1 = program.entry ∨
        ((Graph.expandFrom program start).place index).1 = program.exit := by
  obtain ⟨inside, within⟩ := Graph.placeInside bound
  have found := List.getElem?_eq_getElem inside
  rw [Graph.widthAt program found] at within
  rw [Graph.instructionPlace index bound, ← Program.emptyIffEnd built found, found,
    Option.bind_some, List.getElem?_eq_none_iff, ← List.length_eq_zero_iff]
  omega

theorem nodesShown {start index : Nat} (bound : index < (Graph.expandFrom program start).size) :
    ShowsPlace program (Graph.expandFrom program start) index := by
  obtain ⟨inside, _⟩ := Graph.placeInside bound
  have found := List.getElem?_eq_getElem inside
  have lacking := lackingIffEnd built bound
  refine ⟨lacking, fun _ => instructionShown, fun first => ?_, fun last => ?_⟩
  · apply (placeholderShown bound (lacking.mpr (.inl first)) found).1
    exact Program.labelOf found (first ▸ Program.entryLabelled built)
  · apply (placeholderShown bound (lacking.mpr (.inr last)) found).2
    exact Program.labelOf found (last ▸ Program.exitLabelled built)

theorem nodeTextUnbroken (solid : ∀ instruction ∈ stream, instruction.Solid) {start index : Nat}
    (bound : index < (Graph.expandFrom program start).size) :
    '\n' ∉ (nodeTitle program (Graph.expandFrom program start) index).toList ∧
      '\n' ∉ (nodeStyle program (Graph.expandFrom program start) index).toList := by
  have shown := nodesShown built bound
  cases holds : (Graph.expandFrom program start).instruction? index with
  | none =>
      rcases shown.lacking.mp holds with first | last
      · rw [(shown.entry first).1, (shown.entry first).2]
        decide
      · rw [(shown.exit last).1, (shown.exit last).2]
        decide
  | some instruction =>
      have member : instruction ∈ program.instructions := by
        rw [Graph.instructionPlace index bound] at holds
        obtain ⟨block, found, place⟩ := Option.bind_eq_some_iff.mp holds
        exact List.mem_flatMap.mpr ⟨block, List.mem_of_getElem? found, List.mem_of_getElem? place⟩
      have body := escapeUnbroken (Program.bodiesUnbroken built solid instruction member)
      rw [(shown.instruction instruction holds).1, (shown.instruction instruction holds).2]
      exact ⟨by simp [body], by decide⟩

/-- The nodes of the whole program are gathered from its entry. -/
theorem gatherPerm :
    ((Graph.expand program).gather .forward (Graph.expand program).entry).Perm
      (List.range (Graph.expand program).size) := by
  have coherent := Graph.expandBuilt built
  apply (List.perm_ext_iff_of_nodup (Graph.gatherNodup _ _ _) List.nodup_range).mpr
  intro node
  rw [List.mem_range]
  refine ⟨Graph.gatherInside, fun bound => ?_⟩
  exact (coherent.gatherForward coherent.entryInside node).mpr (coherent.reached node bound)

theorem instructionsDrawn (solid : ∀ instruction ∈ stream, instruction.Solid) :
    Draws ((Graph.expand program).gather .forward (Graph.expand program).entry)
      (Graph.expand program).successors nodeIdentifier (nodeTitle program (Graph.expand program))
      (nodeStyle program (Graph.expand program)) (instructions program (Graph.expand program)) := by
  have coherent := Graph.expandBuilt built
  rw [instructionsDrawing]
  apply drawsGraph
  · apply List.Nodup.map _ (Graph.gatherNodup _ _ _)
    intro first second same
    exact Nat.repr_inj.mp ((String.append_right_inj "n").mp same)
  · intro node _ target edge
    exact (gatherPerm built).mem_iff.mpr (List.mem_range.mpr (coherent.inside node target edge))
  · intro node _
    rw [nodeIdentifier, String.toList_append, Text.solidAppend]
    exact ⟨by decide, Text.decimalSolid node⟩
  · intro node _
    exact Graph.successorsDistinct (Program.buildClosed built) (Program.successorsOnce built)
      (Program.entryInside built) node
  · intro node member
    exact nodeTextUnbroken built solid (Graph.gatherInside member)

end

/-- The label of the loop holds a quote. -/
def quotedListing : String :=
  "shader main\na\"b:\ns_nop 0\ns_cbranch_scc0 a\"b\ns_endpgm\nend"

end Dot

end ShaderAnalysis
