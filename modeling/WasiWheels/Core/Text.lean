import Mathlib.Data.List.Basic

/-! Text as the shell and its filters cut it: parameter expansions, lines, fields and words. -/

namespace WasiWheels

abbrev Text := List Char

namespace Text

/-- `${text%%sep*}`, and the first field of a line split at the separator. -/
def beforeFirst (sep : Char) (text : Text) : Text := text.takeWhile (· ≠ sep)

/-- `${text##*sep}` -/
def afterLast (sep : Char) (text : Text) : Text := (text.reverse.takeWhile (· ≠ sep)).reverse

/-- `${text#start}` -/
def withoutPrefix (start text : Text) : Text := if start.isPrefixOf text then text.drop start.length else text

/-- The lines written one after the other. -/
def unlines (lines : List Text) : Text := lines.flatMap (· ++ ['\n'])

/-- The lines a `read` loop or awk goes through. -/
def lines (text : Text) : List Text := (text.splitOnP (· == '\n')).dropLast

/-- What the shell splits unquoted text at. -/
def blank (char : Char) : Bool := char == ' ' || char == '\t' || char == '\n'

/-- The words of an unquoted expansion. -/
def words (text : Text) : List Text := (text.splitOnP blank).filter fun word => !word.isEmpty

/-- `IFS=sep read -r first second rest`, for a separator the shell counts as white space. -/
def readThree (sep : Char) (line : Text) : Text × Text × Text :=
  let first := line.dropWhile (· = sep)
  let second := (first.dropWhile (· ≠ sep)).dropWhile (· = sep)
  let third := (second.dropWhile (· ≠ sep)).dropWhile (· = sep)
  (first.takeWhile (· ≠ sep), second.takeWhile (· ≠ sep), (third.reverse.dropWhile (· = sep)).reverse)

variable {sep : Char} {text : Text}

theorem withoutPrefix_append (start rest : Text) : withoutPrefix start (start ++ rest) = rest := by
  rw [withoutPrefix, if_pos (List.isPrefixOf_iff_prefix.mpr (List.prefix_append start rest)), List.drop_left]

theorem beforeFirst_append (free : sep ∉ text) (rest : Text) : beforeFirst sep (text ++ sep :: rest) = text := by
  induction text with
  | nil => simp [beforeFirst]
  | cons char tail ih =>
    have differs : char ≠ sep := fun same => free (same ▸ List.mem_cons_self)
    have later := ih fun member => free (List.mem_cons_of_mem _ member)
    simpa [beforeFirst, differs] using later

theorem afterLast_append (free : sep ∉ text) (before : Text) : afterLast sep (before ++ sep :: text) = text := by
  have reversed : sep ∉ text.reverse := by simpa using free
  have cut := beforeFirst_append reversed before.reverse
  rw [beforeFirst] at cut
  rw [afterLast, List.reverse_append, List.reverse_cons, List.append_assoc, List.singleton_append, cut,
    List.reverse_reverse]

theorem splitOnP_join {sep : Char → Bool} {terminator : Char} (cuts : sep terminator = true) (pieces : List Text)
    (free : ∀ piece ∈ pieces, ∀ char ∈ piece, sep char = false) :
    (pieces.flatMap (· ++ [terminator])).splitOnP sep = pieces ++ [[]] := by
  induction pieces with
  | nil => rfl
  | cons piece rest ih =>
    have later := ih fun other member => free other (List.mem_cons_of_mem _ member)
    rw [List.flatMap_cons, List.append_assoc, List.singleton_append,
      List.splitOnP_append_cons_of_forall_mem (free piece List.mem_cons_self) _ cuts, later]
    rfl

theorem lines_unlines (pieces : List Text) (free : ∀ piece ∈ pieces, '\n' ∉ piece) : lines (unlines pieces) = pieces := by
  have apart : ∀ piece ∈ pieces, ∀ char ∈ piece, (char == '\n') = false := by
    intro piece member char among
    simpa using fun same : char = '\n' => free piece member (same ▸ among)
  rw [lines, unlines, splitOnP_join rfl pieces apart, List.dropLast_concat]

theorem forall_of_mem_splitOnP {cut : Char → Bool} {piece : Text} (member : piece ∈ text.splitOnP cut) :
    ∀ char ∈ piece, cut char = false := by
  induction text generalizing piece with
  | nil =>
    rw [List.mem_singleton.mp member]
    exact fun char among => by cases among
  | cons first rest ih =>
    rw [List.splitOnP_cons_eq_if_modifyHead] at member
    split at member
    · rcases List.mem_cons.mp member with empty | later
      · rw [empty]
        exact fun char among => by cases among
      · exact ih later
    · rename_i plain
      cases pieces : rest.splitOnP cut with
      | nil => exact absurd pieces (List.splitOnP_ne_nil cut rest)
      | cons head tail =>
        rw [pieces, List.modifyHead_cons] at member
        rcases List.mem_cons.mp member with extended | later
        · rw [extended]
          intro char among
          rcases List.mem_cons.mp among with same | inside
          · rw [same]
            exact Bool.eq_false_iff.mpr plain
          · exact ih (pieces ▸ List.mem_cons_self) char inside
        · exact ih (pieces ▸ List.mem_cons_of_mem _ later)

theorem newline_not_mem {line : Text} (member : line ∈ lines text) : '\n' ∉ line := by
  intro among
  have plain := forall_of_mem_splitOnP (List.dropLast_subset _ member) '\n' among
  revert plain
  decide

/-- The words of one piece a line, where no piece has a blank in it. -/
theorem words_unlines_filter (pieces : List Text) (free : ∀ piece ∈ pieces, ∀ char ∈ piece, blank char = false) :
    words (unlines pieces) = pieces.filter fun piece => !piece.isEmpty := by
  rw [words, unlines, splitOnP_join rfl pieces free, List.filter_append]
  exact List.append_nil _

theorem words_unlines (pieces : List Text) (filled : ∀ piece ∈ pieces, piece ≠ [])
    (free : ∀ piece ∈ pieces, ∀ char ∈ piece, blank char = false) : words (unlines pieces) = pieces := by
  rw [words_unlines_filter pieces free]
  apply List.filter_eq_self.mpr
  intro piece member
  simp [filled piece member]

theorem dropWhile_filled {keep : Char → Bool} (filled : text ≠ []) (free : ∀ char ∈ text, keep char = false)
    (rest : Text) : (text ++ rest).dropWhile keep = text ++ rest := by
  cases text with
  | nil => exact absurd rfl filled
  | cons char tail => simp [free char List.mem_cons_self]

theorem cut_append (free : sep ∉ text) (rest : Text) :
    (text ++ sep :: rest).takeWhile (· ≠ sep) = text ∧ (text ++ sep :: rest).dropWhile (· ≠ sep) = sep :: rest := by
  have taken := beforeFirst_append free rest
  rw [beforeFirst] at taken
  refine ⟨taken, ?_⟩
  have whole := List.takeWhile_append_dropWhile (p := fun char => decide (char ≠ sep)) (l := text ++ sep :: rest)
  rw [taken] at whole
  exact List.append_cancel_left whole

/-- Three fields without separators come back as they were. -/
theorem readThree_fields {first second third : Text} (filled₁ : first ≠ []) (filled₂ : second ≠ [])
    (filled₃ : third ≠ []) (free₁ : sep ∉ first) (free₂ : sep ∉ second) (free₃ : sep ∉ third) :
    readThree sep (first ++ sep :: (second ++ sep :: third)) = (first, second, third) := by
  have differs {field : Text} (free : sep ∉ field) : ∀ char ∈ field, decide (char = sep) = false := by
    intro char member
    simpa using fun same : char = sep => free (same ▸ member)
  have skip {field : Text} (filled : field ≠ []) (free : sep ∉ field) (rest : Text) :
      (field ++ rest).dropWhile (· = sep) = field ++ rest := dropWhile_filled filled (differs free) rest
  have start := skip filled₁ free₁ (sep :: (second ++ sep :: third))
  have middle : (sep :: (second ++ sep :: third)).dropWhile (· = sep) = second ++ sep :: third := by
    rw [List.dropWhile_cons_of_pos (by simp)]
    exact skip filled₂ free₂ _
  have last : (sep :: third).dropWhile (· = sep) = third := by
    rw [List.dropWhile_cons_of_pos (by simp)]
    simpa using skip filled₃ free₃ []
  have trimmed : (third.reverse.dropWhile (· = sep)).reverse = third := by
    have reversed : (third.reverse ++ []).dropWhile (· = sep) = third.reverse ++ [] :=
      skip (by simpa using filled₃) (by simpa using free₃) []
    rw [List.append_nil] at reversed
    rw [reversed, List.reverse_reverse]
  obtain ⟨taken₁, left₁⟩ := cut_append free₁ (second ++ sep :: third)
  obtain ⟨taken₂, left₂⟩ := cut_append free₂ third
  simp only [readThree, start, taken₁, left₁, middle, taken₂, left₂, last, trimmed]

end Text

end WasiWheels
