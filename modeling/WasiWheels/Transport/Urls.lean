import WasiWheels.Transport.Client
import Mathlib.Data.List.TakeWhile

/-! The URLs `ParseUrl` splits rightly: those without a fragment whose path is not left out
before a query. -/

namespace WasiWheels.Transport

theorem find_absent {sep : Char} {text : List Char} (absent : sep ∉ text) : find [sep] text = none := by
  induction text with
  | nil => rfl
  | cons head rest ih =>
    have differs : sep ≠ head := fun same => absent (same ▸ List.mem_cons_self)
    rw [find, ih fun member => absent (List.mem_cons_of_mem _ member)]
    simp [List.isPrefixOf, differs]

theorem find_append {sep : Char} {before : List Char} (absent : sep ∉ before) (rest : List Char) :
    find [sep] (before ++ sep :: rest) = some before.length := by
  induction before with
  | nil => simp [find, List.isPrefixOf]
  | cons head tail ih =>
    have differs : sep ≠ head := fun same => absent (same ▸ List.mem_cons_self)
    rw [List.cons_append, find, ih fun member => absent (List.mem_cons_of_mem _ member)]
    simp [List.isPrefixOf, differs]

/-- An http or https URL in its parts: `rest` is all that follows the authority. -/
structure Url where
  https : Bool
  authority : List Char
  rest : List Char
  named : authority ≠ []
  plain : ∀ char ∈ authority, char ≠ '/' ∧ char ≠ '?' ∧ char ≠ '#'
  begins : ∀ char ∈ rest.head?, char = '/' ∨ char = '?' ∨ char = '#'

namespace Url

variable (url : Url)

def scheme : List Char := if url.https then ['h', 't', 't', 'p', 's'] else ['h', 't', 't', 'p']

def text : String := String.ofList (url.scheme ++ [':', '/', '/'] ++ url.authority ++ url.rest)

/-- The path of the URL. -/
def path : List Char := url.rest.takeWhile fun char => decide (char ≠ '?' ∧ char ≠ '#')

/-- The query with its question mark, without the fragment. -/
def query : List Char := (url.rest.takeWhile (· ≠ '#')).dropWhile (· ≠ '?')

/-- What the request asks the authority for. -/
def target : List Char := (if url.path = [] then ['/'] else url.path) ++ url.query

/-- Nothing of the URL ends up in another part of it. -/
structure Split (parsed : ParsedUrl) : Prop where
  https : parsed.https = url.https
  authority : parsed.authority = String.ofList url.authority
  path : parsed.path = String.ofList url.target
  slashed : parsed.path.toList.head? = some '/'

/-- What `ParseUrl` makes of the authority and what follows it. -/
def cut (https : Bool) (text : List Char) : ParsedUrl :=
  match find ['/'] text with
  | none => { https, authority := String.ofList text, path := "/" }
  | some length => { https, authority := String.ofList (text.take length), path := String.ofList (text.drop length) }

theorem parseUrl_text : parseUrl url.text = cut url.https (url.authority ++ url.rest) := by
  have mark : "://".toList = [':', '/', '/'] := by decide
  have slash : "/".toList = ['/'] := by decide
  have http : "http".toList = ['h', 't', 't', 'p'] := by decide
  have found : find [':', '/', '/'] (url.scheme ++ [':', '/', '/'] ++ url.authority ++ url.rest) =
      some url.scheme.length := by
    unfold scheme
    cases url.https <;> simp [find, List.isPrefixOf]
  have named : decide ((url.scheme ++ [':', '/', '/'] ++ url.authority ++ url.rest).take url.scheme.length ≠
      ['h', 't', 't', 'p']) = url.https := by
    unfold scheme
    cases url.https <;> simp
  have after : (url.scheme ++ [':', '/', '/'] ++ url.authority ++ url.rest).drop (url.scheme.length + 3) =
      url.authority ++ url.rest := by
    unfold scheme
    cases url.https <;> simp
  unfold parseUrl text cut
  rw [String.toList_ofList, mark, slash, http]
  dsimp only
  rw [found]
  dsimp only
  rw [named, after]
  cases find ['/'] (url.authority ++ url.rest) with
  | none => rfl
  | some length =>
    dsimp only
    rw [← List.drop_drop, after]

theorem authority_free : '/' ∉ url.authority := fun member => (url.plain _ member).1 rfl

/-- The parts of the URL stay where they are if a path begins right after the authority. -/
theorem cut_path (https : Bool) (tail : List Char) (slashed : url.rest = '/' :: tail) :
    cut https (url.authority ++ url.rest) =
      { https, authority := String.ofList url.authority, path := String.ofList url.rest } := by
  rw [cut, slashed, find_append url.authority_free]
  dsimp only
  rw [List.take_left, List.drop_left]

theorem cut_bare (https : Bool) (bare : url.rest = []) :
    cut https (url.authority ++ url.rest) = { https, authority := String.ofList url.authority, path := "/" } := by
  rw [cut, bare, List.append_nil, find_absent url.authority_free]

/-- Text that begins with no slash goes to the authority. -/
theorem cut_misplaced (https : Bool) (char : Char) (tail : List Char) (other : char ≠ '/')
    (begun : url.rest = char :: tail) :
    (cut https (url.authority ++ url.rest)).authority ≠ String.ofList url.authority := by
  have longer (more : List Char) : String.ofList (url.authority ++ char :: more) ≠ String.ofList url.authority := by
    intro same
    have lists := String.ofList_injective same
    simp at lists
  rw [cut, begun]
  by_cases slashed : '/' ∈ tail
  · obtain ⟨before, after, rfl, absent⟩ := List.eq_append_cons_of_mem slashed
    have free : '/' ∉ url.authority ++ char :: before := by
      rw [List.mem_append, List.mem_cons]
      rintro (inside | same | later)
      · exact url.authority_free inside
      · exact other same.symm
      · exact absent later
    have joined :
        url.authority ++ char :: (before ++ '/' :: after) = (url.authority ++ char :: before) ++ '/' :: after := by
      simp
    rw [joined, find_append free]
    dsimp only
    rw [List.take_left]
    exact longer before
  · have free : '/' ∉ url.authority ++ char :: tail := by
      rw [List.mem_append, List.mem_cons]
      rintro (inside | same | later)
      · exact url.authority_free inside
      · exact other same.symm
      · exact slashed later
    rw [find_absent free]
    exact longer tail

theorem target_fragmentless : '#' ∉ url.target := by
  unfold target path query
  rw [List.mem_append]
  rintro (before | after)
  · split at before
    · exact absurd before (by decide)
    · simpa using List.mem_takeWhile_imp before
  · simpa using List.mem_takeWhile_imp ((List.dropWhile_sublist _).subset after)

theorem target_path (tail : List Char) (slashed : url.rest = '/' :: tail) (unfragmented : '#' ∉ url.rest) :
    url.target = url.rest := by
  have differs : ∀ char ∈ url.rest, char ≠ '#' := fun char member same => unfragmented (same ▸ member)
  have kept : url.rest.takeWhile (· ≠ '#') = url.rest := by
    rw [List.takeWhile_eq_self_iff]
    simpa using differs
  have path : url.path = url.rest.takeWhile (· ≠ '?') := by
    rw [← kept, List.takeWhile_takeWhile]
    simp [Url.path]
  have filled : url.path ≠ [] := by
    rw [path, slashed]
    simp
  rw [target, if_neg filled, path, query, kept, List.takeWhile_append_dropWhile]

/-- `ParseUrl` is right for exactly the URLs without a fragment that begin their path, if
anything follows the authority at all. -/
theorem split_iff : url.Split (parseUrl url.text) ↔
    '#' ∉ url.rest ∧ (url.rest = [] ∨ url.rest.head? = some '/') := by
  rw [parseUrl_text]
  cases begun : url.rest with
  | nil =>
    have target : url.target = ['/'] := by simp [target, path, query, begun]
    rw [← begun, url.cut_bare url.https begun]
    refine iff_of_true ⟨rfl, rfl, by rw [target], by simp⟩ ?_
    rw [begun]
    exact ⟨List.not_mem_nil, .inl rfl⟩
  | cons char tail =>
    rw [← begun]
    by_cases slashed : char = '/'
    · subst slashed
      rw [url.cut_path url.https tail begun]
      constructor
      · intro split
        have kept : url.rest = url.target := String.ofList_injective split.path
        refine ⟨?_, .inr (by rw [begun]; rfl)⟩
        rw [kept]
        exact url.target_fragmentless
      · rintro ⟨unfragmented, -⟩
        refine ⟨rfl, rfl, by rw [url.target_path tail begun unfragmented], ?_⟩
        rw [String.toList_ofList, begun]
        rfl
    · refine iff_of_false (fun split => ?_) ?_
      · exact url.cut_misplaced url.https char tail slashed begun split.authority
      · rw [begun]
        rintro ⟨-, empty | headed⟩
        · cases empty
        · exact slashed (Option.some.inj headed)

/-- A query right after the authority, with a slash in it. -/
def redirect : Url where
  https := true
  authority := ['h', '.', 'o', 'r', 'g']
  rest := ['?', 'u', '=', 'a', '/', 'b']
  named := by decide
  plain := by simp
  begins := by simp

/-- Half of the query goes to the authority. -/
theorem redirect_misplaced : ¬ redirect.Split (parseUrl redirect.text) := by
  intro split
  exact absurd split.authority (by decide +kernel)

end Url

end WasiWheels.Transport
