/-
This file shows which lines of a listing are its body and which line is to blame if there is none.
-/

import ShaderAnalysis.Listing.Body
import ShaderAnalysis.Proofs.Listing.Lines

namespace ShaderAnalysis

namespace Body

open TokenLine (Ascending)

/-- The lines that are numbered between two lines. -/
def between (lines : List TokenLine) (opener closer : TokenLine) : List TokenLine :=
  lines.filter fun line => opener.number < line.number && line.number < closer.number

def isDelimiter (line : TokenLine) : Bool := line.head == "shader" || line.head == "end"

def isEnd (line : TokenLine) : Bool := line.head == "end"

def isAnnouncement (line : TokenLine) : Bool :=
  line.head == "Disassembly" && line.tail.head? == some "for"

def isMarker (line : TokenLine) : Bool := line.tokens == TokenLine.dumpMarker

/-- The body between `shader` and `end`: the first two delimiters have to be these. -/
def pairedBody (lines : List TokenLine) : Except ReadError (List TokenLine) :=
  match lines.filter isDelimiter with
  | [] => .error (.missingBody .shaderAnalyzer)
  | first :: others =>
      if first.head = "end" then .error (.mismatchedDelimiter first.number "end")
      else match others with
        | [] => .error (.unterminatedBody first.number)
        | second :: _ =>
            if second.head = "shader" then .error (.mismatchedDelimiter second.number "shader")
            else .ok (between lines first second)

/-- The body from the first opening line to the next `end`, without the opening lines in it. -/
def openedBody (format : ListingFormat) (opens : TokenLine → Bool) (lines : List TokenLine) :
    Except ReadError (List TokenLine) :=
  match lines.find? opens with
  | none => .error (.missingBody format)
  | some opener =>
      match lines.find? fun line => opener.number < line.number && isEnd line with
      | none => .error (.unterminatedBody opener.number)
      | some closer => .ok ((between lines opener closer).filter (!opens ·))

/-- No `end` may stand before the first announcement. -/
def announcedBody (lines : List TokenLine) : Except ReadError (List TokenLine) :=
  match (lines.takeWhile (!isAnnouncement ·)).find? isEnd with
  | some stray => .error (.mismatchedDelimiter stray.number "end")
  | none => openedBody .hsail isAnnouncement lines

/-- All lines in small letters, through the first `s_endpgm`. -/
def loweredBody (lines : List TokenLine) : List TokenLine :=
  let lowered := lines.map lowercaseLine
  lowered.take (lowered.findIdx (·.head == "s_endpgm") + 1)

section

variable {before rest : List TokenLine} {opener closer : TokenLine} {stops : TokenLine → Bool}

/-- Between an opening line and the next line that stops stand the lines that do not stop. -/
theorem betweenNext (ascending : Ascending (before ++ opener :: rest))
    (found : rest.find? stops = some closer) :
    between (before ++ opener :: rest) opener closer = rest.takeWhile (!stops ·) := by
  obtain ⟨stopping, inner, later, rfl, passing⟩ := List.find?_eq_some_iff_append.mp found
  obtain ⟨_, behind, apart⟩ := List.pairwise_append.mp ascending
  obtain ⟨above, rising⟩ := List.pairwise_cons.mp behind
  obtain ⟨_, closing, below⟩ := List.pairwise_append.mp rising
  have early : ∀ line ∈ before, line.number < opener.number := fun line member =>
    apart line member opener List.mem_cons_self
  have inside : ∀ line ∈ inner, opener.number < line.number ∧ line.number < closer.number :=
    fun line member => ⟨above line (List.mem_append_left _ member),
      below line member closer List.mem_cons_self⟩
  have late : ∀ line ∈ later, closer.number < line.number := (List.pairwise_cons.mp closing).1
  have stopped : (inner ++ closer :: later).takeWhile (!stops ·) = inner := by
    rw [List.takeWhile_append_of_pos passing, List.takeWhile_cons_of_neg (by simp [stopping]),
      List.append_nil]
  rw [stopped, between, List.filter_append, List.filter_cons_of_neg (by simp), List.filter_append,
    List.filter_cons_of_neg (by simp), List.filter_eq_nil_iff.mpr, List.filter_eq_self.mpr,
    List.filter_eq_nil_iff.mpr, List.append_nil, List.nil_append]
  · intro line member
    have bound := late line member
    simp only [Bool.and_eq_true, decide_eq_true_eq]
    omega
  · intro line member
    simpa using inside line member
  · intro line member
    have bound := early line member
    simp only [Bool.and_eq_true, decide_eq_true_eq]
    omega

theorem findBehind (ascending : Ascending (before ++ opener :: rest)) (stops : TokenLine → Bool) :
    (before ++ opener :: rest).find? (fun line => opener.number < line.number && stops line) =
      rest.find? stops := by
  obtain ⟨_, behind, apart⟩ := List.pairwise_append.mp ascending
  have above := (List.pairwise_cons.mp behind).1
  have nothing : before.find? (fun line => opener.number < line.number && stops line) = none := by
    rw [List.find?_eq_none]
    intro line member
    have bound := apart line member opener List.mem_cons_self
    simp only [Bool.and_eq_true, decide_eq_true_eq]
    omega
  rw [List.find?_append, nothing, Option.none_or, List.find?_cons_of_neg (by simp),
    ← List.head?_filter, ← List.head?_filter]
  congr 1
  apply List.filter_congr
  intro line member
  simp [above line member]

end

section

variable {role : Bool → TokenLine → Role}

/-- A body that is open goes on unless it is closed or broken. -/
def Role.stops : Role → Bool
  | .closes | .breaks => true
  | .opens | .stands => false

theorem delimitedOutside (format : ListingFormat) {before : List TokenLine}
    (standing : ∀ line ∈ before, role false line = .stands) (rest : List TokenLine) :
    delimited format role none (before ++ rest) = delimited format role none rest := by
  induction before with
  | nil => rfl
  | cons line before inductionHypothesis =>
      obtain ⟨stands, others⟩ := List.forall_mem_cons.mp standing
      rw [List.cons_append, delimited, Option.isSome_none, stands]
      exact inductionHypothesis others

/-- Inside a body the first line that stops decides, and the lines before it that do not open the
body again make up the body. -/
theorem delimitedInside (format : ListingFormat) (opened : Nat) (rest : List TokenLine) :
    delimited format role (some opened) rest =
      match rest.find? fun line => (role true line).stops with
      | none => .error (.unterminatedBody opened)
      | some last =>
          if role true last = .breaks then .error (.mismatchedDelimiter last.number last.head)
          else .ok ((rest.takeWhile fun line => !(role true line).stops).filter
            (role true · = .stands)) := by
  induction rest with
  | nil => rfl
  | cons line rest inductionHypothesis =>
      rw [delimited, Option.isSome_some]
      cases known : role true line with
      | opens => simp [Role.stops, known, inductionHypothesis]
      | closes => simp [Role.stops, known]
      | breaks => simp [Role.stops, known]
      | stands =>
          have goesOn : (role true line).stops = false := by rw [known]; rfl
          rw [List.find?_cons_of_neg (by simp [goesOn]),
            List.takeWhile_cons_of_pos (by simp [goesOn]),
            List.filter_cons_of_pos (by simp [known]), if_pos rfl, inductionHypothesis]
          cases rest.find? fun line => (role true line).stops with
          | none => rfl
          | some last =>
              dsimp only
              split <;> rfl

end

section

variable {lines : List TokenLine}

/-- A body is opened by some of the lines, perhaps again and again, and closed by `end`. -/
structure OpenedBy (opens : TokenLine → Bool) (role : Bool → TokenLine → Role) : Prop where
  apart : ∀ line, opens line = true → isEnd line = false
  outside : ∀ line, opens line = true → role false line = .opens
  inside : ∀ line, role true line =
    if opens line then .opens else if isEnd line then .closes else .stands

section

variable {format : ListingFormat} {opens : TokenLine → Bool} {role : Bool → TokenLine → Role}
  (known : OpenedBy opens role)

include known

theorem openedStops (line : TokenLine) : (role true line).stops = isEnd line := by
  rw [known.inside]
  cases opened : opens line with
  | true => simp [Role.stops, known.apart line opened]
  | false => cases isEnd line <;> rfl

theorem openedInside {before rest : List TokenLine} {opener : TokenLine}
    (ascending : Ascending (before ++ opener :: rest))
    (first : (before ++ opener :: rest).find? opens = some opener) :
    delimited format role (some opener.number) rest =
      openedBody format opens (before ++ opener :: rest) := by
  simp only [delimitedInside, openedStops known, openedBody, first, findBehind ascending]
  cases found : rest.find? isEnd with
  | none => rfl
  | some closer =>
      have unbroken : role true closer ≠ .breaks := by
        rw [known.inside]
        split
        · simp
        · split <;> simp
      dsimp only
      rw [if_neg unbroken, betweenNext ascending found]
      congr 1
      apply List.filter_congr
      intro line member
      have goesOn : isEnd line = false := by simpa using List.mem_takeWhile_imp member
      rw [known.inside, goesOn]
      cases opens line <;> rfl

/-- Where the lines before the first opening line are of no account, the body is the opened one. -/
theorem delimitedOpened (ascending : Ascending lines)
    (standing : ∀ line ∈ lines.takeWhile (!opens ·), role false line = .stands) :
    delimited format role none lines = openedBody format opens lines := by
  cases found : lines.find? opens with
  | none =>
      have never : lines.takeWhile (!opens ·) = lines := by
        rw [List.takeWhile_eq_self_iff]
        simpa using List.find?_eq_none.mp found
      rw [never] at standing
      simpa [delimited, openedBody, found] using delimitedOutside format standing []
  | some opener =>
      obtain ⟨opening, before, rest, rfl, fresh⟩ := List.find?_eq_some_iff_append.mp found
      rw [List.takeWhile_append_of_pos fresh, List.takeWhile_cons_of_neg (by simp [opening]),
        List.append_nil] at standing
      rw [delimitedOutside format standing, delimited, Option.isSome_none,
        known.outside opener opening]
      exact openedInside known ascending found

end

theorem dumpOpened : OpenedBy isMarker dumpRole where
  apart line marker := by
    have tokens : line.tokens = TokenLine.dumpMarker := by simpa [isMarker] using marker
    have head : line.head = ";" := (List.cons.inj tokens).1
    simp [isEnd, head]
  outside line marker := by simpa [dumpRole, isMarker] using marker
  inside line := by simp [dumpRole, isMarker, isEnd]

theorem dumpBody (ascending : Ascending lines) :
    delimited .shaderDump dumpRole none lines = openedBody .shaderDump isMarker lines := by
  apply delimitedOpened dumpOpened ascending
  intro line member
  have other : isMarker line = false := by simpa using List.mem_takeWhile_imp member
  simpa [dumpRole, isMarker] using other

theorem hsailOpened : OpenedBy isAnnouncement hsailRole where
  apart line announces := by
    have head : line.head = "Disassembly" := by simp_all [isAnnouncement]
    simp [isEnd, head]
  outside line announces := by
    rw [hsailRole, if_pos (by simpa [isAnnouncement] using announces)]
  inside line := by simp [hsailRole, isAnnouncement, isEnd]

theorem hsailBody (ascending : Ascending lines) :
    delimited .hsail hsailRole none lines = announcedBody lines := by
  have unannounced : ∀ line ∈ lines.takeWhile (!isAnnouncement ·), hsailRole false line =
      if isEnd line then .breaks else .stands := by
    intro line member
    have other : isAnnouncement line = false := by simpa using List.mem_takeWhile_imp member
    rw [hsailRole, if_neg (by simpa [isAnnouncement] using other)]
    simp [isEnd]
  unfold announcedBody
  cases found : (lines.takeWhile (!isAnnouncement ·)).find? isEnd with
  | none =>
      apply delimitedOpened hsailOpened ascending
      intro line member
      rw [unannounced line member, if_neg (List.find?_eq_none.mp found line member)]
  | some stray =>
      obtain ⟨ending, before, later, early, fresh⟩ := List.find?_eq_some_iff_append.mp found
      rw [early] at unannounced
      have standing : ∀ line ∈ before, hsailRole false line = .stands := by
        intro line member
        rw [unannounced line (List.mem_append_left _ member),
          if_neg (by simpa using fresh line member)]
      have breaking : hsailRole false stray = .breaks := by
        rw [unannounced stray (by simp), if_pos ending]
      have head : stray.head = "end" := by simpa [isEnd] using ending
      rw [← List.takeWhile_append_dropWhile (p := (!isAnnouncement ·)) (l := lines), early,
        List.append_assoc, delimitedOutside .hsail standing, List.cons_append, delimited,
        Option.isSome_none, breaking, head]

theorem analyzerStands {line : TokenLine} (other : isDelimiter line = false) (inside : Bool) :
    analyzerRole inside line = .stands := by
  simp only [isDelimiter, Bool.or_eq_false_iff, beq_eq_false_iff_ne] at other
  simp [analyzerRole, other]

theorem analyzerStops (line : TokenLine) :
    (analyzerRole true line).stops = isDelimiter line := by
  unfold analyzerRole isDelimiter
  split
  · simp [Role.stops, *]
  · split <;> simp [Role.stops, *]

/-- Inside a body the next delimiter has to be an `end`. -/
theorem analyzerInside {before rest : List TokenLine} {opener : TokenLine}
    (ascending : Ascending (before ++ opener :: rest)) :
    delimited .shaderAnalyzer analyzerRole (some opener.number) rest =
      match rest.filter isDelimiter with
      | [] => .error (.unterminatedBody opener.number)
      | second :: _ =>
          if second.head = "shader" then .error (.mismatchedDelimiter second.number "shader")
          else .ok (between (before ++ opener :: rest) opener second) := by
  simp only [delimitedInside, analyzerStops]
  cases delimiters : rest.filter isDelimiter with
  | nil =>
      have missing : rest.find? isDelimiter = none := by rw [← List.head?_filter, delimiters]; rfl
      rw [missing]
  | cons second more =>
      have found : rest.find? isDelimiter = some second := by
        rw [← List.head?_filter, delimiters]
        rfl
      rw [found]
      dsimp only
      rw [betweenNext ascending found]
      by_cases again : second.head = "shader"
      · rw [if_pos again, if_pos (by simp [analyzerRole, again]), again]
      · have closing : second.head = "end" := by
          simpa [isDelimiter, again] using List.find?_some found
        rw [if_neg again, if_neg (by simp [analyzerRole, closing]), List.filter_eq_self.mpr]
        intro line member
        have plain : isDelimiter line = false := by simpa using List.mem_takeWhile_imp member
        simp [analyzerStands plain]

theorem analyzerBody (ascending : Ascending lines) :
    delimited .shaderAnalyzer analyzerRole none lines = pairedBody lines := by
  unfold pairedBody
  cases delimiters : lines.filter isDelimiter with
  | nil =>
      have standing : ∀ line ∈ lines, analyzerRole false line = .stands := fun line member =>
        analyzerStands (by simpa using List.filter_eq_nil_iff.mp delimiters line member) false
      simpa [delimited] using delimitedOutside .shaderAnalyzer standing []
  | cons first others =>
      obtain ⟨before, rest, rfl, fresh, delimits, rfl⟩ := List.filter_eq_cons_iff.mp delimiters
      have standing : ∀ line ∈ before, analyzerRole false line = .stands := fun line member =>
        analyzerStands (by simpa using fresh line member) false
      rw [delimitedOutside .shaderAnalyzer standing, delimited, Option.isSome_none]
      dsimp only
      by_cases closing : first.head = "end"
      · rw [if_pos closing, show analyzerRole false first = .breaks by simp [analyzerRole, closing],
          closing]
      · have opening : first.head = "shader" := by simpa [isDelimiter, closing] using delimits
        rw [if_neg closing, show analyzerRole false first = .opens by simp [analyzerRole, opening]]
        exact analyzerInside ascending

theorem rawBody (lines : List TokenLine) : throughEnd lines = loweredBody lines := by
  induction lines with
  | nil => rfl
  | cons line rest inductionHypothesis =>
      simp only [loweredBody, List.map_cons, List.findIdx_cons, throughEnd]
      by_cases ending : (lowercaseLine line).head = "s_endpgm"
      · simp [ending]
      · have goesOn : ((lowercaseLine line).head == "s_endpgm") = false := by simpa using ending
        rw [if_neg ending, goesOn, cond_false, List.take_succ_cons, inductionHypothesis,
          loweredBody]

end

/-- The lines of a listing are numbered as they stand in it. In each explicit format they have the
body that its delimiters ask for, and a listing without such a body is refused with the number of
the line to blame. -/
theorem bodyLocated (text : List Char) :
    Ascending (TokenLine.ofListing text) ∧
    (∀ line ∈ TokenLine.ofListing text, line.tokens ≠ [] ∧ 0 < line.number ∧
      ∃ source, (text.splitOn '\n')[line.number - 1]? = some source ∧
        TokenLine.ofText? line.number source = some line) ∧
    read .shaderAnalyzer text = pairedBody (TokenLine.ofListing text) ∧
    read .hsail text = announcedBody (TokenLine.ofListing text) ∧
    read .shaderDump text = openedBody .shaderDump isMarker (TokenLine.ofListing text) ∧
    read .raw text = .ok (loweredBody (TokenLine.ofListing text)) := by
  have ascending := TokenLine.ofListingAscending text
  refine ⟨ascending, fun line member => ⟨List.cons_ne_nil _ _, TokenLine.ofListingSource member⟩,
    analyzerBody ascending, hsailBody ascending, dumpBody ascending, ?_⟩
  exact congrArg Except.ok (rawBody (TokenLine.ofListing text))

-- The comment and the blank line are dropped, but they still count.
example : read .shaderAnalyzer "; header\n\nshader a\nshader b\nend".toList =
    .error (.mismatchedDelimiter 4 "shader") := by
  decide +kernel

end Body

end ShaderAnalysis
