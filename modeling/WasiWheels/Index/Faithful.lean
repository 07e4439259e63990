import WasiWheels.Index.Emission
import Mathlib.Data.List.TakeWhile

/-! Which failures of `build-pages-index.sh` a status of 0 can hide. -/

namespace WasiWheels.Index

open Text (beforeFirst afterLast lines)
open Script (failing failing_eq_false)

/-- The line lists a wheel, under a name that begins with the name of a package. -/
def ListsWheel (line : Text) : Prop :=
  whl <:+ afterLast ' ' line ∧ (afterLast ' ' line).head? ≠ some '-' ∧ (afterLast ' ' line).head? ≠ some '\t'

def NamesWheel (sums : Text) : Prop := ∃ line ∈ lines sums, ListsWheel line

theorem blank_toLower {char : Char} (blank : Text.blank char.toLower = true) : char.toLower = char := by
  rcases toLower_cases char with same | ⟨_, lower⟩
  · exact same
  · have letter : part char.toLower = true := by simp [part, Char.isAlphanum, Char.isAlpha, lower]
    rw [(part_plain letter).2] at blank
    cases blank

/-- Normalising makes no blank. -/
theorem blank_of_normalize {name : Text} {char : Char} (member : char ∈ normalize name)
    (blank : Text.blank char = true) : char ∈ name := by
  rcases mem_collapse member with dash | ⟨among, _⟩
  · subst dash
    cases blank
  · obtain ⟨original, listed, same⟩ := List.mem_map.mp among
    subst same
    rw [blank_toLower blank]
    exact listed

theorem collapse_head (name : Text) :
    (collapse name).head? = name.head?.map fun char => if separator char then '-' else char := by
  induction name with
  | nil => rfl
  | cons first rest ih =>
    rw [collapse]
    cases dash : separator first with
    | false => simp [dash]
    | true =>
      cases rest with
      | nil => simp [dash]
      | cons second tail =>
        cases again : separator second with
        | false => simp [dash, again]
        | true => simpa [dash, again] using ih

theorem normalize_head_tab {name : Text} : (normalize name).head? = some '\t' ↔ name.head? = some '\t' := by
  rw [normalize, collapse_head]
  cases name with
  | nil => exact Iff.rfl
  | cons first rest =>
    simp only [List.map_cons, List.head?_cons, Option.map_some, Option.some.injEq, separator_toLower]
    constructor
    · intro tab
      split at tab
      · cases tab
      · have plain := blank_toLower (by rw [tab]; rfl)
        rw [← plain, tab]
    · intro tab
      rw [tab]
      rfl

theorem beforeFirst_nil {sep : Char} {text : Text} : beforeFirst sep text = [] ↔ text = [] ∨ text.head? = some sep := by
  cases text with
  | nil => simp [beforeFirst]
  | cons first rest =>
    by_cases same : first = sep
    · simp [beforeFirst, same]
    · simp [beforeFirst, same]

theorem normalize_nil {name : Text} : normalize name = [] ↔ name = [] := by
  constructor
  · intro empty
    by_contra filled
    exact collapse_filled (fun mapped => filled (List.map_eq_nil_iff.mp mapped)) empty
  · intro empty
    rw [empty]
    rfl

theorem beforeFirst_cut (sep : Char) (text rest : Text) :
    beforeFirst sep (text ++ sep :: rest) = beforeFirst sep text := by
  induction text with
  | nil => simp [beforeFirst]
  | cons first tail ih =>
    by_cases same : first = sep
    · simp [beforeFirst, same]
    · simpa [beforeFirst, same] using ih

theorem mem_beforeFirst {sep char : Char} {text : Text} (member : char ∈ beforeFirst sep text) :
    char ∈ text ∧ char ≠ sep :=
  ⟨(List.takeWhile_prefix _).subset member, by simpa using List.mem_takeWhile_imp member⟩

theorem mem_afterLast {sep char : Char} {text : Text} (member : char ∈ afterLast sep text) :
    char ∈ text ∧ char ≠ sep := by
  have reversed : char ∈ beforeFirst sep text.reverse := List.mem_reverse.mp member
  exact ⟨List.mem_reverse.mp (mem_beforeFirst reversed).1, (mem_beforeFirst reversed).2⟩

/-- The file name of a line, and the row made of it. -/
theorem entryOf_some {line row : Text} (entry : entryOf line = some row) : whl <:+ afterLast ' ' line ∧
    row = normalize (beforeFirst '-' (afterLast ' ' line)) ++
      '\t' :: (afterLast ' ' line ++ '\t' :: beforeFirst ' ' line) := by
  unfold entryOf at entry
  split at entry
  · cases entry
  · dsimp only at entry
    split at entry
    · rename_i suffix
      exact ⟨List.isSuffixOf_iff_suffix.mp suffix, (Option.some.inj entry).symm⟩
    · cases entry

/-- The first column of a row has no blank in it. -/
theorem column_plain {line row : Text} (listed : '\n' ∉ line) (entry : entryOf line = some row) :
    ∀ char ∈ beforeFirst '\t' row, Text.blank char = false := by
  obtain ⟨_, rfl⟩ := entryOf_some entry
  rw [beforeFirst_cut]
  intro char member
  obtain ⟨among, tab⟩ := mem_beforeFirst member
  apply Bool.eq_false_iff.mpr
  intro blank
  obtain ⟨inName, space⟩ := mem_afterLast (mem_beforeFirst (blank_of_normalize among blank)).1
  simp only [Text.blank, Bool.or_eq_true, beq_iff_eq] at blank
  rcases blank with (same | same) | same
  · exact space same
  · exact tab same
  · exact listed (same ▸ inName)

/-- The column is empty when the file name begins with the dash or with a tab. -/
theorem column_nil {line row : Text} (entry : entryOf line = some row) :
    beforeFirst '\t' row = [] ↔ ¬ ListsWheel line := by
  obtain ⟨suffix, rfl⟩ := entryOf_some entry
  rw [beforeFirst_cut, beforeFirst_nil, normalize_nil, normalize_head_tab, beforeFirst_nil]
  have filled : afterLast ' ' line ≠ [] := by
    intro empty
    rw [empty] at suffix
    cases List.suffix_nil.mp suffix
  cases name : afterLast ' ' line with
  | nil => exact absurd name filled
  | cons first rest =>
    rw [name] at suffix
    by_cases dash : first = '-'
    · simp [ListsWheel, name, dash]
    · simp [ListsWheel, name, dash, suffix, beforeFirst]

theorem entryOf_none {line : Text} (skipped : entryOf line = none) : ¬ ListsWheel line := by
  rintro ⟨suffix, _⟩
  have filled : line ≠ [] := by
    intro empty
    rw [empty] at suffix
    cases List.suffix_nil.mp suffix
  rw [entryOf, if_neg filled] at skipped
  dsimp only at skipped
  rw [if_pos (List.isSuffixOf_iff_suffix.mpr suffix)] at skipped
  cases skipped

theorem entryOf_newline {line row : Text} (listed : '\n' ∉ line) (entry : entryOf line = some row) : '\n' ∉ row := by
  obtain ⟨_, rfl⟩ := entryOf_some entry
  simp only [List.mem_append, List.mem_cons, not_or]
  have name : '\n' ∉ afterLast ' ' line := fun member => listed (mem_afterLast member).1
  refine ⟨fun member => ?_, by decide, name, by decide, fun member => listed (mem_beforeFirst member).1⟩
  exact name (mem_beforeFirst (blank_of_normalize member rfl)).1

/-- The index of a release is empty when its SHA256SUMS names no wheel. -/
theorem packages_nil {release : Release} : packages (entries (some release)) = [] ↔ ¬ NamesWheel release.sums := by
  have rows : lines (entries (some release)) = (lines release.sums).filterMap entryOf := by
    apply Text.lines_unlines
    intro row member
    obtain ⟨line, listed, entry⟩ := List.mem_filterMap.mp member
    exact entryOf_newline (Text.newline_not_mem listed) entry
  have plain : ∀ column ∈ sortUnique ((lines (entries (some release))).map (beforeFirst '\t')),
      ∀ char ∈ column, Text.blank char = false := by
    intro column member
    obtain ⟨row, among, rfl⟩ := List.mem_map.mp (mem_sortUnique.mp member)
    obtain ⟨line, listed, entry⟩ := List.mem_filterMap.mp (rows ▸ among)
    exact column_plain (Text.newline_not_mem listed) entry
  rw [packages, Text.words_unlines_filter _ plain, List.filter_eq_nil_iff]
  constructor
  · rintro empty ⟨line, listed, lists⟩
    cases entry : entryOf line with
    | none => exact entryOf_none entry lists
    | some row =>
      have among : row ∈ lines (entries (some release)) := rows ▸ List.mem_filterMap.mpr ⟨line, listed, entry⟩
      have column := empty _ (mem_sortUnique.mpr (List.mem_map_of_mem among))
      exact (column_nil entry).mp (by simpa using column) lists
  · intro none column member
    obtain ⟨row, among, rfl⟩ := List.mem_map.mp (mem_sortUnique.mp member)
    obtain ⟨line, listed, entry⟩ := List.mem_filterMap.mp (rows ▸ among)
    simp [(column_nil entry).mpr fun lists => none ⟨line, listed, lists⟩]

/-- `index.html` and no package in it. -/
def emptyIndex : Tree := [⟨indexHtml, [.header rootTitle, .footer]⟩]

theorem tree_some (awk : Awk) (slug : Text) (release : Release) :
    (pagesIndex awk slug (some release)).tree = emptyIndex ↔ ¬ NamesWheel release.sums := by
  rw [← packages_nil]
  constructor
  · intro same
    have pages := congrArg List.length same
    simpa [Site.tree, pagesIndex, emptyIndex] using pages
  · intro empty
    simp [Site.tree, pagesIndex, emptyIndex, empty]

section
variable (awk : Awk) (repository : Repository) (outcome : Command → Option Failure)

/-- The run in which nothing goes wrong. -/
def fine : Command → Option Failure := fun _ => none

/-- A status of 0 means the tree of the run in which nothing goes wrong. -/
def Faithful : Prop := ∀ before, (script awk repository outcome before).1 = .fall () →
  (script awk repository outcome before).2 = (script awk repository fine before).2

/-- A status of 0 and an empty index mean that there is no published release. -/
def Honest : Prop := ∀ before, (script awk repository outcome before).1 = .fall () →
  (script awk repository outcome before).2 = emptyIndex → repository.latest = none

/-- A command of the run fails whose status ends the script. -/
def Stopped : Prop := ∃ command ∈ commands awk (viewed repository outcome), failing (answer repository outcome) command = true

end

section
variable {awk : Awk} {repository : Repository} {outcome : Command → Option Failure}

theorem script_stopped (stopped : Stopped awk repository outcome) (before : Tree) :
    (script awk repository outcome before).1 ≠ .fall () := by
  intro falls
  obtain ⟨failure, thrown⟩ := script_tries.2 stopped before
  rw [thrown] at falls
  cases falls

theorem script_unstopped (unstopped : ¬ Stopped awk repository outcome) (before : Tree) :
    script awk repository outcome before =
      (.fall (), (pagesIndex awk repository.slug ((viewed repository outcome).map Published.release)).tree) := by
  apply script_tries.1
  intro command member
  by_contra failed
  exact unstopped ⟨command, member, by simpa using failed⟩

/-- What is refused to the undisturbed run is refused to every run. -/
theorem answer_fine {command : Command} (succeeds : answer repository outcome command = none) :
    answer repository fine command = none := by
  cases command with
  | checkSlug => exact succeeds
  | view | download =>
    unfold answer at succeeds ⊢
    dsimp only at succeeds ⊢
    split
    · rename_i refused
      rw [if_pos refused] at succeeds
      cases succeeds
    · rfl
  | _ => rfl

theorem viewed_fine (seen : outcome .view = none ∨ repository.latest = none) :
    viewed repository outcome = repository.latest := by
  cases latest : repository.latest with
  | none => simp [viewed, answer, latest]
  | some published =>
    have succeeds : outcome .view = none := by simpa [latest] using seen
    simp [viewed, answer, latest, succeeds]

theorem viewed_failed {published : Published} (latest : repository.latest = some published)
    (failed : outcome .view ≠ none) : viewed repository outcome = none := by
  obtain ⟨failure, status⟩ := Option.ne_none_iff_exists'.mp failed
  simp [viewed, answer, latest, status]

/-- When the lookup is answered, a status of 0 means that all went well. -/
theorem faithful_of_seen (seen : outcome .view = none ∨ repository.latest = none) : Faithful awk repository outcome := by
  intro before falls
  have unstopped : ¬ Stopped awk repository outcome := fun stopped => script_stopped stopped before falls
  have same : viewed repository outcome = viewed repository fine := (viewed_fine seen).trans (viewed_fine (.inl rfl)).symm
  have alike : ¬ Stopped awk repository fine := by
    rintro ⟨command, member, failed⟩
    apply unstopped
    refine ⟨command, same ▸ member, ?_⟩
    by_contra succeeds
    have answered := answer_fine (failing_eq_false.mp (by simpa using succeeds))
    rw [failing_eq_false.mpr answered] at failed
    cases failed
  rw [script_unstopped unstopped, script_unstopped alike, same]

/-- A release without SHA256SUMS stops the undisturbed run before it writes anything. -/
theorem script_unsummed {published : Published} (slug : repository.slug ≠ []) (latest : repository.latest = some published)
    (unsummed : published.sums = none) (before : Tree) : (script awk repository fine before).2 = [] := by
  obtain ⟨slug', latest'⟩ := repository
  obtain ⟨tag, named, sums⟩ := published
  dsimp only at slug latest unsummed
  subst latest unsummed
  cases slug' with
  | nil => exact absurd rfl slug
  | cons first rest => rfl

theorem slug_of_unstopped (unstopped : ¬ Stopped awk repository outcome) : repository.slug ≠ [] := by
  intro empty
  apply unstopped
  refine ⟨.checkSlug, List.mem_append_left _ List.mem_cons_self, ?_⟩
  simp [failing, answer, empty]

/-- Every release found without SHA256SUMS stops the script. -/
theorem stopped_of_unsummed {published : Published} (found : viewed repository outcome = some published)
    (latest : repository.latest = some published) (unsummed : published.sums = none) : Stopped awk repository outcome := by
  refine ⟨.download, ?_, ?_⟩
  · rw [found]
    simp [commands, buildCommands, gatherCommands]
  · simp [failing, answer, latest, unsummed]

/-- With its SHA256SUMS in place, nothing stops the undisturbed run. -/
theorem fine_unstopped {published : Published} (slug : repository.slug ≠ []) (latest : repository.latest = some published)
    (summed : published.sums ≠ none) : ¬ Stopped awk repository fine := by
  rintro ⟨command, _, failed⟩
  have answered : answer repository fine command = none := by
    cases command with
    | checkSlug => simp [answer, slug]
    | view => simp [answer, latest, fine]
    | download => simp [answer, latest, fine, summed]
    | _ => rfl
  rw [failing_eq_false.mpr answered] at failed
  cases failed

/-- A lookup that fails is taken for a repository without releases. -/
theorem faithful_of_failed {published : Published} (latest : repository.latest = some published)
    (failed : outcome .view ≠ none) (unstopped : ¬ Stopped awk repository outcome) :
    Faithful awk repository outcome ↔ ∃ sums, published.sums = some sums ∧ ¬ NamesWheel sums := by
  have emitted : ∀ before, script awk repository outcome before = (.fall (), emptyIndex) := by
    intro before
    rw [script_unstopped unstopped, viewed_failed latest failed]
    rfl
  have faithful : Faithful awk repository outcome ↔ ∀ before, (script awk repository fine before).2 = emptyIndex := by
    unfold Faithful
    simp only [emitted, forall_const, eq_comm]
  rw [faithful]
  have slug := slug_of_unstopped unstopped
  cases summed : published.sums with
  | none =>
    refine iff_of_false (fun same => ?_) (fun ⟨_, absent, _⟩ => by cases absent)
    have written := (script_unsummed slug latest summed []).symm.trans (same [])
    cases written
  | some sums =>
    have found : viewed repository fine = some published := (viewed_fine (.inl rfl)).trans latest
    have unhindered : ¬ Stopped awk repository fine :=
      fine_unstopped slug latest (by rw [summed]; exact Option.some_ne_none sums)
    have released := script_unstopped unhindered
    have index := tree_some awk repository.slug published.release
    rw [Published.release, summed] at index
    simp only [released, found, Option.map_some, Published.release, summed, forall_const, Option.some.injEq,
      exists_eq_left']
    exact index

theorem faithful_iff : Faithful awk repository outcome ↔
    (outcome .view = none ∨ repository.latest = none ∨ Stopped awk repository outcome ∨
      ∃ published sums, repository.latest = some published ∧ published.sums = some sums ∧ ¬ NamesWheel sums) := by
  by_cases seen : outcome .view = none ∨ repository.latest = none
  · refine iff_of_true (faithful_of_seen seen) ?_
    exact seen.imp_right .inl
  · obtain ⟨failed, unreleased⟩ := not_or.mp seen
    rw [or_iff_right failed, or_iff_right unreleased]
    by_cases stopped : Stopped awk repository outcome
    · exact iff_of_true (fun before falls => absurd falls (script_stopped stopped before)) (.inl stopped)
    · obtain ⟨published, latest⟩ := Option.ne_none_iff_exists'.mp unreleased
      rw [or_iff_right stopped, faithful_of_failed latest failed stopped]
      simp only [latest, Option.some.injEq, exists_and_left, exists_eq_left']

theorem honesty_iff : Honest awk repository outcome ↔
    (repository.latest = none ∨ Stopped awk repository outcome ∨ (outcome .view = none ∧
      ∃ published sums, repository.latest = some published ∧ published.sums = some sums ∧ NamesWheel sums)) := by
  by_cases unreleased : repository.latest = none
  · exact iff_of_true (fun _ _ _ => unreleased) (.inl unreleased)
  · rw [or_iff_right unreleased]
    by_cases stopped : Stopped awk repository outcome
    · exact iff_of_true (fun before falls => absurd falls (script_stopped stopped before)) (.inl stopped)
    · obtain ⟨published, latest⟩ := Option.ne_none_iff_exists'.mp unreleased
      rw [or_iff_right stopped]
      have honest : Honest awk repository outcome ↔
          (pagesIndex awk repository.slug ((viewed repository outcome).map Published.release)).tree ≠ emptyIndex := by
        unfold Honest
        simp only [script_unstopped stopped, forall_const, unreleased]
      rw [honest]
      by_cases answered : outcome .view = none
      · have found := (viewed_fine (.inl answered)).trans latest
        cases summed : published.sums with
        | none => exact absurd (stopped_of_unsummed found latest summed) stopped
        | some sums =>
          have index := tree_some awk repository.slug published.release
          rw [Published.release, summed] at index
          rw [found, Option.map_some, Published.release, summed, Ne, index, not_not, and_iff_right answered]
          simp only [latest, Option.some.injEq, exists_and_left, exists_eq_left', summed, Option.getD_some]
      · rw [viewed_failed latest answered]
        refine iff_of_false (fun differs => differs rfl) (fun succeeds => answered succeeds.1)

/-- Exactly when a status of 0 can be trusted: the one failure it hides is that of the lookup. -/
theorem trusted_iff (awk : Awk) (repository : Repository) (outcome : Command → Option Failure) :
    (Faithful awk repository outcome ↔
      (outcome .view = none ∨ repository.latest = none ∨ Stopped awk repository outcome ∨
        ∃ published sums, repository.latest = some published ∧ published.sums = some sums ∧ ¬ NamesWheel sums)) ∧
    (Honest awk repository outcome ↔
      (repository.latest = none ∨ Stopped awk repository outcome ∨ (outcome .view = none ∧
        ∃ published sums, repository.latest = some published ∧ published.sums = some sums ∧ NamesWheel sums))) :=
  ⟨faithful_iff, honesty_iff⟩

end

/-- One line of SHA256SUMS: a digest and `a-.whl`. -/
def oneLine : Text := ['d', ' ', ' ', 'a', '-', '.', 'w', 'h', 'l']

/-- A repository whose latest release lists one wheel. -/
def oneWheel : Repository where
  slug := ['o', '/', 'r']
  latest := some ⟨['v'], by decide, some (Text.unlines [oneLine])⟩

/-- Nothing fails but the lookup of the latest release. -/
def outage (command : Command) : Option Failure := if command = .view then some ⟨1, Nat.one_ne_zero⟩ else none

/-- The script exits with 0, and every package has vanished. -/
theorem outage_vanishes : ¬ Faithful .exact oneWheel outage ∧ ¬ Honest .exact oneWheel outage := by
  have emitted : script .exact oneWheel outage [] = (.fall (), emptyIndex) := rfl
  constructor
  · rw [faithful_iff]
    rintro (answered | unreleased | stopped | ⟨published, sums, latest, summed, unnamed⟩)
    · cases answered
    · cases unreleased
    · exact script_stopped stopped [] rfl
    · cases latest
      cases summed
      refine unnamed ⟨oneLine, ?_, by decide, by decide, by decide⟩
      rw [Text.lines_unlines [oneLine] (by decide)]
      exact List.mem_singleton_self oneLine
  · intro honest
    have unreleased := honest [] rfl (congrArg Prod.snd emitted)
    cases unreleased

end WasiWheels.Index
