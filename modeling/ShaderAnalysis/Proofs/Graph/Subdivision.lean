/-
This file shows which nodes are processed after a node of a graph was divided in two.
-/

import ShaderAnalysis.Proofs.Graph.Gathering

namespace ShaderAnalysis

open Relation

namespace Graph

/-- The wider graph has an image of every node of the graph and one fresh node. The fresh node uses
no register and stands between one of the nodes and the successors of that node. -/
structure Subdivides (graph wide : Graph) (image : Nat → Nat) (node fresh : Nat) : Prop where
  inside : node < graph.size
  goesOn : graph.successors node ≠ []
  freshInside : fresh < wide.size
  imageInside : ∀ other < graph.size, image other < wide.size
  apart : ∀ other < graph.size, image other ≠ fresh
  distinct : ∀ first < graph.size, ∀ second < graph.size, image first = image second →
    first = second
  covered : ∀ other < wide.size, other = fresh ∨ ∃ source < graph.size, image source = other
  edges : ∀ other < graph.size, other ≠ node →
    wide.successors (image other) = (graph.successors other).map image
  leads : wide.successors (image node) = [fresh]
  follows : wide.successors fresh = (graph.successors node).map image
  registers : ∀ other < graph.size, wide.registers (image other) = graph.registers other
  unused : wide.registers fresh = {}

namespace Subdivides

variable {graph wide : Graph} {image : Nat → Nat} {node fresh : Nat}
  (subdivides : graph.Subdivides wide image node fresh) (coherent : graph.Coherent)

include subdivides

/-- An edge becomes an edge, or a path over the fresh node. -/
theorem reachesEdge {source target : Nat} (edge : target ∈ graph.successors source) :
    Reaches wide.successors (image source) (image target) := by
  have imageEdge : image target ∈ (graph.successors source).map image := List.mem_map_of_mem edge
  by_cases same : source = node
  · subst same
    have first : fresh ∈ wide.successors (image source) := by simp [subdivides.leads]
    exact (ReflTransGen.single first).tail (subdivides.follows ▸ imageEdge)
  · exact .single (subdivides.edges source (sourceInside edge) same ▸ imageEdge)

theorem reachesImage {source target : Nat} (path : Reaches graph.successors source target) :
    Reaches wide.successors (image source) (image target) := by
  induction path with
  | refl => exact .refl
  | tail _ edge inductionHypothesis =>
      exact inductionHypothesis.trans (subdivides.reachesEdge edge)

include coherent

/-- A path to an image comes from a path in the graph. -/
theorem reachesSource {target start : Nat} (targetInside : target < graph.size)
    (path : Reaches wide.successors start (image target)) :
    (∀ source < graph.size, image source = start → Reaches graph.successors source target) ∧
      (start = fresh → Reaches graph.successors node target) := by
  -- The induction is on the path from its start, which is the fresh node or an image.
  induction path using ReflTransGen.head_induction_on with
  | refl =>
      refine ⟨fun source inside same => ?_, fun same => ?_⟩
      · rw [subdivides.distinct source inside target targetInside same]
        exact .refl
      · exact absurd same (subdivides.apart target targetInside)
  | @head start next edge _ inductionHypothesis =>
      constructor
      · intro source inside same
        subst same
        by_cases isNode : source = node
        · subst isNode
          rw [subdivides.leads, List.mem_singleton] at edge
          exact inductionHypothesis.2 edge
        · rw [subdivides.edges source inside isNode] at edge
          obtain ⟨successor, sourceEdge, isImage⟩ := List.mem_map.mp edge
          have later := inductionHypothesis.1 successor (coherent.inside _ _ sourceEdge) isImage
          exact later.head sourceEdge
      · intro same
        subst same
        rw [subdivides.follows] at edge
        obtain ⟨successor, sourceEdge, isImage⟩ := List.mem_map.mp edge
        have later := inductionHypothesis.1 successor (coherent.inside _ _ sourceEdge) isImage
        exact later.head sourceEdge

omit coherent in
theorem lastImage {other : Nat} (inside : other < wide.size) :
    wide.successors other = [] ↔
      ∃ source < graph.size, image source = other ∧ graph.successors source = [] := by
  constructor
  · intro last
    rcases subdivides.covered other inside with rfl | ⟨source, sourceInside, rfl⟩
    · rw [subdivides.follows, List.map_eq_nil_iff] at last
      exact absurd last subdivides.goesOn
    · refine ⟨source, sourceInside, rfl, ?_⟩
      by_cases same : source = node
      · rw [same, subdivides.leads] at last
        cases last
      · rwa [subdivides.edges source sourceInside same, List.map_eq_nil_iff] at last
  · rintro ⟨source, sourceInside, rfl, last⟩
    by_cases same : source = node
    · exact absurd (same ▸ last) subdivides.goesOn
    · rw [subdivides.edges source sourceInside same, last, List.map_nil]

omit coherent in
theorem singleExit (single : graph.SingleExit) : wide.SingleExit := by
  intro first firstInside second secondInside firstLast secondLast
  obtain ⟨firstSource, firstBound, rfl, firstEnds⟩ := (subdivides.lastImage firstInside).mp firstLast
  obtain ⟨secondSource, secondBound, rfl, secondEnds⟩ :=
    (subdivides.lastImage secondInside).mp secondLast
  rw [single firstSource firstBound secondSource secondBound firstEnds secondEnds]

variable (single : graph.SingleExit) (wideCoherent : wide.Coherent)

include single wideCoherent

/-- The images of the processed nodes are processed. -/
theorem processedImage {source : Nat} (inside : source < graph.size) :
    image source ∈ wide.processingOrder ↔ source ∈ graph.processingOrder := by
  rw [wideCoherent.processedIff (subdivides.singleExit single), coherent.processedIff single]
  simp only [inside, subdivides.imageInside source inside, true_and]
  constructor
  · intro leads exit exitInside last
    have imageInside := subdivides.imageInside exit exitInside
    have imageLast := (subdivides.lastImage imageInside).mpr ⟨exit, exitInside, rfl, last⟩
    exact (subdivides.reachesSource coherent exitInside
      (leads _ imageInside imageLast)).1 source inside rfl
  · intro leads exit exitInside last
    obtain ⟨sourceExit, sourceInside, rfl, sourceLast⟩ := (subdivides.lastImage exitInside).mp last
    exact subdivides.reachesImage (leads sourceExit sourceInside sourceLast)

theorem processedFresh : fresh ∈ wide.processingOrder ↔ node ∈ graph.processingOrder := by
  rw [← subdivides.processedImage coherent single wideCoherent subdivides.inside]
  have edge : fresh ∈ wide.successors (image node) := by simp [subdivides.leads]
  constructor
  · exact wideCoherent.processingOrderClosed edge
  · intro member
    rw [wideCoherent.processedIff (subdivides.singleExit single)] at member ⊢
    refine ⟨subdivides.freshInside, fun exit exitInside last => ?_⟩
    -- The way from the node to the exit is not empty and begins at the fresh node.
    rcases (member.2 exit exitInside last).cases_head with rfl | ⟨next, first, path⟩
    · rw [subdivides.leads] at last
      cases last
    · rw [subdivides.leads, List.mem_singleton] at first
      exact first ▸ path

end Subdivides

end Graph

end ShaderAnalysis
