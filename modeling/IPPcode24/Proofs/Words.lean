import IPPcode24.Source.Line

/-!
# Words and lines

A word of a source text is not empty and holds no blank and no number sign. Reading a
line gives such words, and reading the line on which such words stand between single
spaces gives them back. Lines that end in a line feed are read back one by one.
-/

namespace IPPcode24

namespace Text

/-- A cut is at the first occurrence of the mark. -/
theorem cut_eq_some_iff {mark : Char} {text front rest : Text} :
    cut mark text = some (front, rest) ↔ text = front ++ mark :: rest ∧ mark ∉ front := by
  induction text generalizing front with
  | nil => simp [cut]
  | cons c others ih =>
    rw [cut]
    split
    · rename_i here
      subst here
      constructor
      · intro found
        cases found
        exact ⟨rfl, List.not_mem_nil⟩
      · rintro ⟨split, absent⟩
        cases front with
        | nil =>
          cases split
          rfl
        | cons d front =>
          cases split
          exact absurd List.mem_cons_self absent
    · rename_i other
      constructor
      · intro found
        obtain ⟨⟨before, after⟩, later, same⟩ := Option.map_eq_some_iff.mp found
        cases same
        obtain ⟨rfl, absent⟩ := ih.mp later
        refine ⟨rfl, fun member => ?_⟩
        rcases List.mem_cons.mp member with same | member
        · exact other same.symm
        · exact absent member
      · rintro ⟨split, absent⟩
        cases front with
        | nil =>
          cases split
          exact absurd rfl other
        | cons d front =>
          cases split
          have later := ih.mpr ⟨rfl, fun member => absent (List.mem_cons_of_mem _ member)⟩
          rw [later]
          rfl

theorem cut_append {mark : Char} {front : Text} (absent : mark ∉ front) (rest : Text) :
    cut mark (front ++ mark :: rest) = some (front, rest) :=
  cut_eq_some_iff.mpr ⟨rfl, absent⟩

/-- The first piece ends at the first occurrence of the mark. -/
theorem pieces_append {mark : Char} {piece : Text} (absent : mark ∉ piece) (rest : Text) :
    pieces mark (piece ++ mark :: rest) = piece :: pieces mark rest := by
  induction piece with
  | nil => exact if_pos rfl
  | cons c piece ih =>
    have other : c ≠ mark := fun same => absent (same ▸ List.mem_cons_self)
    have later := ih fun member => absent (List.mem_cons_of_mem c member)
    rw [List.cons_append, pieces, if_neg other, later]

theorem pieces_of_not_mem {mark : Char} {text : Text} (absent : mark ∉ text) :
    pieces mark text = [text] := by
  induction text with
  | nil => rfl
  | cons c rest ih =>
    have other : c ≠ mark := fun same => absent (same ▸ List.mem_cons_self)
    have later := ih fun member => absent (List.mem_cons_of_mem c member)
    rw [pieces, if_neg other, later]

theorem before_cons (mark c : Char) (rest : Text) :
    before mark (c :: rest) = if c = mark then [] else c :: before mark rest := by
  by_cases here : c = mark
  · rw [if_pos here, before, List.takeWhile_cons_of_neg (by simpa using here)]
  · rw [if_neg here, before, List.takeWhile_cons_of_pos (by simpa using here), before]

theorem before_append_of_not_mem {mark : Char} {front : Text} (absent : mark ∉ front)
    (back : Text) : before mark (front ++ back) = front ++ before mark back :=
  List.takeWhile_append_of_pos fun _ member =>
    decide_eq_true fun same => absent (same ▸ member)

theorem before_of_not_mem {mark : Char} {text : Text} (absent : mark ∉ text) :
    before mark text = text := by
  have none : before mark [] = [] := rfl
  have whole := before_append_of_not_mem absent []
  rwa [none, List.append_nil] at whole

theorem before_append {mark : Char} {front : Text} (absent : mark ∉ front) (rest : Text) :
    before mark (front ++ mark :: rest) = front := by
  rw [before_append_of_not_mem absent, before_cons, if_pos rfl, List.append_nil]

/-- The text before a mark is the whole text, or the mark follows it. -/
theorem before_cases (mark : Char) (text : Text) :
    mark ∉ before mark text ∧
      (before mark text = text ∨ ∃ rest, text = before mark text ++ mark :: rest) := by
  induction text with
  | nil => exact ⟨List.not_mem_nil, Or.inl rfl⟩
  | cons c rest ih =>
    rw [before_cons]
    by_cases here : c = mark
    · rw [if_pos here]
      exact ⟨List.not_mem_nil, Or.inr ⟨rest, congrArg (· :: rest) here⟩⟩
    · obtain ⟨absent, split⟩ := ih
      rw [if_neg here]
      constructor
      · intro member
        rcases List.mem_cons.mp member with same | later
        · exact here same.symm
        · exact absent later
      · rcases split with same | ⟨after, same⟩
        · exact Or.inl (congrArg (c :: ·) same)
        · exact Or.inr ⟨after, congrArg (c :: ·) same⟩

theorem before_append_of_mem {mark : Char} {front : Text} (marked : mark ∈ front) (back : Text) :
    before mark (front ++ back) = before mark front := by
  obtain ⟨absent, whole | ⟨rest, split⟩⟩ := before_cases mark front
  · rw [whole] at absent
    exact absurd marked absent
  · rw [split, List.append_assoc, List.cons_append, before_append absent, before_append absent]

/-! ## Words between blanks -/

theorem splitWords_cons (c : Char) (rest : Text) :
    splitWords (c :: rest) =
      if isBlank c then ([], words rest)
      else (c :: (splitWords rest).1, (splitWords rest).2) := rfl

theorem splitWords_append {word : Text} (solid : ∀ c ∈ word, isBlank c = false) (rest : Text) :
    splitWords (word ++ rest) = (word ++ (splitWords rest).1, (splitWords rest).2) := by
  induction word with
  | nil => rfl
  | cons c word ih =>
    have first := solid c List.mem_cons_self
    have later := ih fun d member => solid d (List.mem_cons_of_mem c member)
    simp [splitWords_cons, first, later]

/-- A word that ends at a blank is the first word of the text. -/
theorem words_append {word : Text} (occupied : word ≠ [])
    (solid : ∀ c ∈ word, isBlank c = false) {c : Char} (blank : isBlank c = true)
    (rest : Text) : words (word ++ c :: rest) = word :: words rest := by
  rw [words, splitWords_append solid, splitWords_cons, if_pos blank]
  simp [occupied]

theorem words_of_solid {word : Text} (occupied : word ≠ [])
    (solid : ∀ c ∈ word, isBlank c = false) : words word = [word] := by
  rw [words, ← List.append_nil word, splitWords_append solid]
  simp [splitWords, occupied]

/-- The word holds characters of the text but no blanks. -/
def Solid (text word : Text) : Prop := ∀ c ∈ word, c ∈ text ∧ isBlank c = false

theorem Solid.cons {text word : Text} (solid : Solid text word) (c : Char) :
    Solid (c :: text) word := fun d inside =>
  ⟨List.mem_cons_of_mem c (solid d inside).1, (solid d inside).2⟩

theorem solid_of_splitWords (text : Text) :
    Solid text (splitWords text).1 ∧ ∀ word ∈ (splitWords text).2, word ≠ [] ∧ Solid text word := by
  induction text with
  | nil => simp [splitWords, Solid]
  | cons c rest ih =>
    obtain ⟨first, others⟩ := ih
    have laterOthers : ∀ word ∈ (splitWords rest).2, word ≠ [] ∧ Solid (c :: rest) word :=
      fun word member => ⟨(others word member).1, (others word member).2.cons c⟩
    rw [splitWords_cons]
    split
    · refine ⟨by simp [Solid], ?_⟩
      intro word member
      simp only [words] at member
      split at member
      · exact laterOthers word member
      · rename_i occupied
        rcases List.mem_cons.mp member with rfl | member
        · exact ⟨occupied, first.cons c⟩
        · exact laterOthers word member
    · rename_i solid
      refine ⟨fun d inside => ?_, laterOthers⟩
      rcases List.mem_cons.mp inside with rfl | inside
      · exact ⟨List.mem_cons_self, by simpa using solid⟩
      · exact first.cons c d inside

theorem solid_of_mem_words {text word : Text} (member : word ∈ words text) :
    word ≠ [] ∧ Solid text word := by
  obtain ⟨first, others⟩ := solid_of_splitWords text
  simp only [words] at member
  split at member
  · exact others word member
  · rename_i occupied
    rcases List.mem_cons.mp member with rfl | member
    · exact ⟨occupied, first⟩
    · exact others word member

end Text

namespace Source

/-! ## Words of a line -/

/-- A character that neither ends a word nor begins a comment. -/
def IsPlain (c : Char) : Prop := Text.isBlank c = false ∧ c ≠ '#'

instance (c : Char) : Decidable (IsPlain c) := inferInstanceAs (Decidable (_ ∧ _))

/-- What can stand as a word of a line. -/
structure IsWord (word : Text) : Prop where
  occupied : word ≠ []
  plain : ∀ c ∈ word, IsPlain c

instance (word : Text) : Decidable (IsWord word) :=
  decidable_of_iff (word ≠ [] ∧ word.all (fun c => decide (IsPlain c)) = true)
    ⟨fun both => ⟨both.1, fun c inside => of_decide_eq_true (List.all_eq_true.mp both.2 c inside)⟩,
      fun proper => ⟨proper.occupied,
        List.all_eq_true.mpr fun c inside => decide_eq_true (proper.plain c inside)⟩⟩

theorem isWord_of_mem_wordsOfLine {line word : Text} (member : word ∈ wordsOfLine line) :
    IsWord word := by
  obtain ⟨occupied, solid⟩ := Text.solid_of_mem_words member
  refine ⟨occupied, fun c inside => ?_⟩
  obtain ⟨kept, notBlank⟩ := solid c inside
  have notMark : (line.takeWhile (· ≠ '#')).all (· ≠ '#') = true := List.all_takeWhile
  exact ⟨notBlank, by simpa using List.all_eq_true.mp notMark c kept⟩

theorem numbered_cons_of_wordless {number : Nat} {line : Text} {lines : List Text}
    (wordless : wordsOfLine line = []) :
    numbered number (line :: lines) = numbered (number + 1) lines := by
  rw [numbered, wordless]

theorem numbered_cons_of_words {number : Nat} {line : Text} {lines : List Text}
    {words : List Text} (found : wordsOfLine line = words) (occupied : words ≠ []) :
    numbered number (line :: lines) = (number, words) :: numbered (number + 1) lines := by
  rw [numbered, found]
  cases words with
  | nil => exact absurd rfl occupied
  | cons word words => rfl

theorem isWord_of_mem_numbered {number : Nat} {lines : List Text} {entry : Nat × List Text}
    (member : entry ∈ numbered number lines) : ∀ word ∈ entry.2, IsWord word := by
  induction lines generalizing number with
  | nil => cases member
  | cons line rest ih =>
    by_cases wordless : wordsOfLine line = []
    · rw [numbered_cons_of_wordless wordless] at member
      exact ih member
    · rw [numbered_cons_of_words rfl wordless] at member
      rcases List.mem_cons.mp member with rfl | member
      · exact fun word => isWord_of_mem_wordsOfLine
      · exact ih member

/-- The words of a source text can stand as words. -/
theorem isWord_of_mem_wordedLines {text : Text} {entry : Nat × List Text}
    (member : entry ∈ wordedLines text) : ∀ word ∈ entry.2, IsWord word :=
  isWord_of_mem_numbered member

/-- Words on a line between single spaces. -/
def joined : List Text → Text
  | [] => []
  | word :: rest => word ++ rest.flatMap (' ' :: ·)

theorem words_joined {words : List Text} (every : ∀ word ∈ words, IsWord word) :
    Text.words (joined words) = words := by
  cases words with
  | nil => rfl
  | cons word rest =>
    rw [joined]
    induction rest generalizing word with
    | nil =>
      obtain ⟨occupied, plain⟩ := every word List.mem_cons_self
      rw [List.flatMap_nil, List.append_nil]
      exact Text.words_of_solid occupied fun c inside => (plain c inside).1
    | cons second rest ih =>
      obtain ⟨occupied, plain⟩ := every word List.mem_cons_self
      have later := ih second fun other member => every other (List.mem_cons_of_mem word member)
      rw [List.flatMap_cons, List.cons_append,
        Text.words_append occupied (fun c inside => (plain c inside).1) (by decide), later]

theorem plain_of_mem_joined {words : List Text} (every : ∀ word ∈ words, IsWord word) {c : Char}
    (inside : c ∈ joined words) : c = ' ' ∨ IsPlain c := by
  cases words with
  | nil => cases inside
  | cons word rest =>
    rcases List.mem_append.mp inside with first | later
    · exact Or.inr ((every word List.mem_cons_self).plain c first)
    · obtain ⟨other, member, inside⟩ := List.mem_flatMap.mp later
      rcases List.mem_cons.mp inside with space | inside
      · exact Or.inl space
      · exact Or.inr ((every other (List.mem_cons_of_mem word member)).plain c inside)

/-- The words on a line between single spaces are read back. -/
theorem wordsOfLine_joined {words : List Text} (every : ∀ word ∈ words, IsWord word) :
    wordsOfLine (joined words) = words := by
  have unmarked : '#' ∉ joined words := by
    intro inside
    rcases plain_of_mem_joined every inside with impossible | plain
    · revert impossible
      decide
    · exact plain.2 rfl
  rw [wordsOfLine, Text.before_of_not_mem unmarked, words_joined every]

theorem newline_not_mem_joined {words : List Text} (every : ∀ word ∈ words, IsWord word) :
    '\n' ∉ joined words := by
  intro inside
  rcases plain_of_mem_joined every inside with impossible | plain
  · revert impossible
    decide
  · exact absurd plain.1 (by decide)

end Source

end IPPcode24
