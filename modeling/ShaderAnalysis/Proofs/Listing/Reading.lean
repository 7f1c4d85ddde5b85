/-
This file shows which instructions can be read from the body of a shader dump.
-/

import ShaderAnalysis.Listing.Instructions
import ShaderAnalysis.Proofs.Listing.Lines

namespace ShaderAnalysis

namespace Listing

/-- Such a token can stand first in a line of the body. -/
structure Heads (token : String) : Prop where
  isToken : TokenLine.Token token
  leads : token.toList.head? ≠ some ';'
  inside : token ≠ "end"
  means : isMetadata token = false

/-- An operand is a token without a comma. -/
structure Operand (operand : String) : Prop where
  isToken : TokenLine.Token operand
  single : ',' ∉ operand.toList

/-- An instruction that can be read from the body of a shader dump. -/
structure Readable (instruction : Instruction) : Prop where
  head : Heads instruction.mnemonic
  decodes : label? instruction.mnemonic = none
  operands : ∀ operand ∈ instruction.operands, Operand operand
  label : ∀ label, instruction.label = some label → Heads (label ++ ":")

/-- Tokens that are joined by blanks have no comment between them. -/
theorem joinedTokensFree {tokens : List String} (known : ∀ token ∈ tokens, TokenLine.Token token) :
    TokenLine.CommentFree (" ".intercalate tokens).toList := by
  rw [String.toList_intercalate]
  apply Text.joinInduction TokenLine.CommentFree
  · simp [TokenLine.CommentFree]
  · simpa using fun token member => (known token member).free
  · intro before behind beforeFree behindFree
    rw [List.append_assoc]
    exact TokenLine.commentFreeAppend (by decide) beforeFree behindFree

/-- The operands of a line are words of its tokens. -/
theorem operandsOfMember {tokens : List String} (known : ∀ token ∈ tokens, TokenLine.Token token)
    {operand : String} (member : operand ∈ operandsOf tokens) : Operand operand := by
  obtain ⟨piece, among, first⟩ := List.mem_filterMap.mp member
  have inside := (Text.piecesInfix _).2 piece among
  have apart := Text.piecesApart _ piece among
  have word := List.mem_of_mem_head? first
  refine ⟨TokenLine.tokensOfMember
    (TokenLine.commentFreeInfix inside (joinedTokensFree known)) word, fun comma => ?_⟩
  obtain ⟨characters, characterMember, rfl⟩ := List.mem_map.mp word
  rw [String.toList_ofList] at comma
  have cut := apart ',' ((Text.wordsMember characterMember).2.subset comma)
  simp at cut

/-- The lines of a body come from the listing and stand in the body. -/
theorem delimitedMember {format : ListingFormat} {role : Bool → TokenLine → Body.Role}
    {opened : Option Nat} {lines body : List TokenLine}
    (found : Body.delimited format role opened lines = .ok body) :
    ∀ line ∈ body, line ∈ lines ∧ role true line = .stands := by
  fun_induction Body.delimited format role opened lines generalizing body with
  | case1 => cases found
  | case2 => cases found
  | case3 opened line rest _ inductionHypothesis =>
      intro other member
      have known := inductionHypothesis found other member
      exact ⟨List.mem_cons_of_mem _ known.1, known.2⟩
  | case4 =>
      cases found
      simp
  | case5 => cases found
  | case6 opened line rest stands isOpen inductionHypothesis =>
      cases later : Body.delimited format role opened rest with
      | error _ => simp [later, Except.map] at found
      | ok others =>
          obtain rfl : line :: others = body := by simpa [later, Except.map] using found
          rw [List.forall_mem_cons]
          refine ⟨⟨List.mem_cons_self, isOpen ▸ stands⟩, fun other member => ?_⟩
          have known := inductionHypothesis later other member
          exact ⟨List.mem_cons_of_mem _ known.1, known.2⟩
  | case7 opened line rest _ _ inductionHypothesis =>
      intro other member
      have known := inductionHypothesis found other member
      exact ⟨List.mem_cons_of_mem _ known.1, known.2⟩

/-- The lines of the body of a shader dump have tokens that can stand in it. -/
theorem dumpMember {text : List Char} {body : List TokenLine}
    (found : Body.read .shaderDump text = .ok body) :
    ∀ line ∈ body, (∀ token ∈ line.tokens, TokenLine.Token token) ∧
      line.head.toList.head? ≠ some ';' ∧ line.head ≠ "end" := by
  intro line member
  obtain ⟨among, stands⟩ := delimitedMember found line member
  obtain ⟨⟨numberedText, number⟩, _, lineText⟩ := List.mem_filterMap.mp among
  unfold Body.dumpRole at stands
  split at stands
  · cases stands
  · rename_i notMarker
    split at stands
    · cases stands
    · rename_i notEnd
      obtain ⟨tokens, leads⟩ := (TokenLine.ofTextTokens lineText).resolve_left notMarker
      exact ⟨tokens, leads, by simpa using notEnd⟩

theorem labelColon {token label : String} (found : label? token = some label) :
    label ++ ":" = token := by
  unfold label? at found
  split at found
  · rename_i ends
    rw [← Option.some.inj found, ← String.toList_inj, String.toList_append, String.toList_ofList]
    exact List.dropLast_append_getLast? _ ends
  · cases found

theorem colonLabel (label : String) : label? (label ++ ":") = some label := by
  simp [label?]

/-- Whatever is decoded can be read again. -/
theorem decodeReadable (table : OpcodeTable) {pending : Option String} {body : List TokenLine}
    (waits : ∀ label, pending = some label → Heads (label ++ ":"))
    (known : ∀ line ∈ body, (∀ token ∈ line.tokens, TokenLine.Token token) ∧
      line.head.toList.head? ≠ some ';' ∧ line.head ≠ "end") :
    ∀ instruction ∈ decodeFrom table pending body, Readable instruction ∧
      ∃ encoded mnemonic operands label,
        instruction = .decode table encoded mnemonic operands label := by
  fun_induction decodeFrom table pending body with
  | case1 => simp
  | case2 pending line rest metadata inductionHypothesis =>
      rw [List.forall_mem_cons] at known
      exact inductionHypothesis waits known.2
  | case3 pending line rest means label labels inductionHypothesis =>
      rw [List.forall_mem_cons] at known
      obtain ⟨⟨tokens, leads, inside⟩, others⟩ := known
      apply inductionHypothesis _ others
      rintro _ ⟨rfl⟩
      rw [labelColon labels]
      exact ⟨tokens _ List.mem_cons_self, leads, inside, by simpa using means⟩
  | case4 pending line rest means decodes inductionHypothesis =>
      rw [List.forall_mem_cons] at known
      obtain ⟨⟨tokens, leads, inside⟩, others⟩ := known
      rw [List.forall_mem_cons]
      refine ⟨⟨⟨?_, ?_, ?_, ?_⟩, _, _, _, _, rfl⟩, inductionHypothesis (by simp) others⟩
      · rw [Instruction.decodeMnemonic]
        exact ⟨tokens _ List.mem_cons_self, leads, inside, by simpa using means⟩
      · rw [Instruction.decodeMnemonic]
        exact decodes
      · intro operand member
        exact operandsOfMember (fun token among => tokens token (List.mem_cons_of_mem _ among)) member
      · exact waits

end Listing

end ShaderAnalysis
