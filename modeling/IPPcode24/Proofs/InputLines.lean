import IPPcode24.Input

/-!
# Lines of an input

The bytes of a text hold a line feed exactly where the text holds one, so the line that a
text without line feeds makes up is read as a whole, whatever follows its line feed. One
carriage return at its end is dropped. Blanks around a word do not matter to the types
that trim their lines.
-/

namespace IPPcode24

namespace Text

theorem toNat_of_mem_utf8EncodeChar {c : Char} {byte : UInt8}
    (member : byte ∈ String.utf8EncodeChar c) (ascii : byte.toNat < 128) :
    c.toNat = byte.toNat := by
  have value {n : Nat} (below : n < 256) (same : byte = UInt8.ofNat n) : byte.toNat = n := by
    rw [same, UInt8.toNat_ofNat_of_lt' below]
  -- every byte of a longer character is above the ASCII range
  unfold String.utf8EncodeChar at member
  simp only at member
  split at member
  · exact (value (by omega) (List.mem_singleton.mp member)).symm
  · split at member
    · simp only [List.mem_cons, List.not_mem_nil, or_false] at member
      rcases member with same | same <;> have code := value (by omega) same <;> omega
    · split at member <;> simp only [List.mem_cons, List.not_mem_nil, or_false] at member
      · rcases member with same | same | same <;> have code := value (by omega) same <;> omega
      · rcases member with same | same | same | same <;>
          have code := value (by omega) same <;> omega

theorem ten_not_mem_utf8EncodeChar {c : Char} (other : c ≠ '\n') :
    (10 : UInt8) ∉ String.utf8EncodeChar c := fun member =>
  other (Char.toNat_inj.mp (toNat_of_mem_utf8EncodeChar member (by decide)))

theorem ten_not_mem_utf8 {line : Text} (single : '\n' ∉ line) : (10 : UInt8) ∉ utf8 line := by
  intro member
  obtain ⟨c, inside, byte⟩ := List.mem_flatMap.mp member
  exact ten_not_mem_utf8EncodeChar (fun same => single (same ▸ inside)) byte

theorem utf8_eq_nil_iff {text : Text} : utf8 text = [] ↔ text = [] := by
  cases text with
  | nil => exact ⟨fun _ => rfl, fun _ => rfl⟩
  | cons c rest => simp [utf8, String.utf8EncodeChar_ne_nil]

theorem ofUtf8?_eq_some_iff {bytes : List UInt8} {text : Text} :
    ofUtf8? bytes = some text ↔ bytes = utf8 text := by
  constructor
  · intro decoded
    obtain ⟨characters, given, rfl⟩ := Option.map_eq_some_iff.mp decoded
    have present : bytes.toByteArray.utf8Decode?.isSome = true := by rw [given]; rfl
    have encoded := ByteArray.utf8Encode_get_utf8Decode? (h := present)
    rw [Option.get_of_eq_some present given] at encoded
    exact (List.toByteArray_inj.mp encoded).symm
  · rintro rfl
    exact ofUtf8?_utf8 text

theorem utf8_injective {text other : Text} (same : utf8 text = utf8 other) : text = other :=
  Option.some.inj ((ofUtf8?_eq_some_iff.mpr same).symm.trans (ofUtf8?_utf8 text)).symm

/-! ## Blanks at the ends -/

theorem dropWhile_isBlank_append {blanks word : Text} (blank : ∀ c ∈ blanks, isBlank c = true)
    (solid : ∀ c ∈ word.head?, isBlank c = false) :
    (blanks ++ word).dropWhile isBlank = word := by
  rw [List.dropWhile_append_of_pos blank]
  cases word with
  | nil => rfl
  | cons c rest => exact List.dropWhile_cons_of_neg (by simp [solid c rfl])

/-- The word is what the text has between the blanks at its ends. -/
structure Trimmed (text word : Text) : Prop where
  split : ∃ front back, text = front ++ word ++ back ∧
    (∀ c ∈ front, isBlank c = true) ∧ ∀ c ∈ back, isBlank c = true
  first : ∀ c ∈ word.head?, isBlank c = false
  last : ∀ c ∈ word.getLast?, isBlank c = false

theorem not_isBlank_of_dropWhile (text : Text) :
    ∀ c ∈ (text.dropWhile isBlank).head?, isBlank c = false := by
  intro c first
  have stopped := List.head?_dropWhile_not isBlank text
  rw [Option.mem_def.mp first] at stopped
  exact stopped

/-- The blanks at the ends are dropped, and they alone. -/
theorem trim_eq_iff {text word : Text} : trim text = word ↔ Trimmed text word := by
  constructor
  · rintro rfl
    have front := List.takeWhile_append_dropWhile (p := isBlank) (l := text)
    have back :=
      List.takeWhile_append_dropWhile (p := isBlank) (l := (text.dropWhile isBlank).reverse)
    have middle : text.dropWhile isBlank =
        trim text ++ ((text.dropWhile isBlank).reverse.takeWhile isBlank).reverse := by
      rw [trim, ← List.reverse_append, back, List.reverse_reverse]
    refine ⟨⟨text.takeWhile isBlank,
      ((text.dropWhile isBlank).reverse.takeWhile isBlank).reverse, ?_, ?_, ?_⟩, ?_, ?_⟩
    · rw [List.append_assoc, ← middle, front]
    · exact List.all_eq_true.mp List.all_takeWhile
    · exact fun c member =>
        List.all_eq_true.mp List.all_takeWhile c (List.mem_reverse.mp member)
    · intro c first
      refine not_isBlank_of_dropWhile text c ?_
      rw [middle, List.head?_append, Option.mem_def.mp first]
      rfl
    · intro c last
      refine not_isBlank_of_dropWhile (text.dropWhile isBlank).reverse c ?_
      rwa [trim, List.getLast?_reverse] at last
  · rintro ⟨⟨front, back, rfl, blankFront, blankBack⟩, first, last⟩
    have lastSolid : ∀ c ∈ word.reverse.head?, isBlank c = false := by
      rwa [List.head?_reverse]
    have blankReverse : ∀ c ∈ back.reverse, isBlank c = true := fun c member =>
      blankBack c (List.mem_reverse.mp member)
    cases word with
    | nil =>
      have blank : ∀ c ∈ front ++ back, isBlank c = true := fun c member =>
        (List.mem_append.mp member).elim (blankFront c) (blankBack c)
      have dropped : (front ++ back ++ []).dropWhile isBlank = [] :=
        dropWhile_isBlank_append blank nofun
      rw [List.append_nil] at dropped
      rw [trim, List.append_nil, dropped]
      rfl
    | cons c rest =>
      have firstSolid : ∀ d ∈ (c :: rest ++ back).head?, isBlank d = false := first
      rw [trim, List.append_assoc, dropWhile_isBlank_append blankFront firstSolid,
        List.reverse_append, dropWhile_isBlank_append blankReverse lastSolid, List.reverse_reverse]

theorem Trimmed.unique {text word other : Text} (trimmed : Trimmed text word)
    (trimmedToo : Trimmed text other) : word = other := by
  rw [← trim_eq_iff.mpr trimmed, trim_eq_iff.mpr trimmedToo]

theorem trim_of_blanks {front word back : Text} (blankFront : ∀ c ∈ front, isBlank c = true)
    (blankBack : ∀ c ∈ back, isBlank c = true) (solid : ∀ c ∈ word, isBlank c = false) :
    trim (front ++ word ++ back) = word :=
  trim_eq_iff.mpr ⟨⟨front, back, rfl, blankFront, blankBack⟩,
    fun c first => solid c (List.mem_of_mem_head? first),
    fun c last => solid c (List.mem_of_mem_getLast? last)⟩

theorem trim_append_blank (text : Text) {c : Char} (blank : isBlank c = true) :
    trim (text ++ [c]) = trim text := by
  have single : [c].dropWhile isBlank = [] := List.dropWhile_cons_of_pos blank
  rw [trim, trim, List.dropWhile_append]
  split
  · rename_i nothing
    rw [single, List.isEmpty_iff.mp nothing]
  · rw [List.reverse_append, List.reverse_singleton, List.singleton_append,
      List.dropWhile_cons_of_pos blank]

end Text

namespace Input

theorem splitLine_of_not_mem {front : List UInt8} (single : 10 ∉ front) (rest : List UInt8) :
    splitLine (front ++ 10 :: rest) = (front ++ [10], rest) := by
  induction front with
  | nil => rfl
  | cons byte front ih =>
    have other : byte ≠ 10 := fun same => single (same ▸ List.mem_cons_self)
    have later := ih fun member => single (List.mem_cons_of_mem byte member)
    rw [List.cons_append, splitLine, if_neg other, later]
    rfl

theorem splitLine_of_unterminated {bytes : List UInt8} (single : 10 ∉ bytes) :
    splitLine bytes = (bytes, []) := by
  induction bytes with
  | nil => rfl
  | cons byte rest ih =>
    have other : byte ≠ 10 := fun same => single (same ▸ List.mem_cons_self)
    rw [splitLine, if_neg other, ih fun member => single (List.mem_cons_of_mem byte member)]

/-- The text in a line without the carriage return that may come before the line feed. -/
theorem dropLineEnd_append (line : Text) :
    dropLineEnd (line ++ ['\n']) =
      if line.getLast? = some '\r' then line.dropLast else line := by
  rcases line.eq_nil_or_concat with rfl | ⟨front, c, rfl⟩
  · rfl
  · rw [List.concat_eq_append]
    have reversed : (front ++ [c] ++ ['\n']).reverse = '\n' :: c :: front.reverse := by simp
    rw [dropLineEnd, reversed, List.getLast?_concat, List.dropLast_concat]
    by_cases returns : c = '\r'
    · simp [returns]
    · simp [returns]

theorem dropLineEnd_of_not_mem {line : Text} (single : '\n' ∉ line) : dropLineEnd line = line := by
  have notFirst (rest : Text) : line.reverse ≠ '\n' :: rest := fun same =>
    single (List.mem_reverse.mp (same ▸ List.mem_cons_self))
  unfold dropLineEnd
  split
  · rename_i same
    exact absurd same (notFirst _)
  · rename_i same
    exact absurd same (notFirst _)
  · rfl

/-- What ends a line is blank. -/
theorem trim_dropLineEnd (line : Text) :
    Text.trim (dropLineEnd (line ++ ['\n'])) = Text.trim line := by
  rw [dropLineEnd_append]
  split
  · rename_i returns
    obtain ⟨front, rfl⟩ := List.getLast?_eq_some_iff.mp returns
    rw [List.dropLast_concat, Text.trim_append_blank front (by decide)]
  · rfl

theorem nextLine_of_terminated {line : Text} (single : '\n' ∉ line) (rest : List UInt8) :
    nextLine ⟨Text.utf8 line ++ 10 :: rest⟩ = (some (dropLineEnd (line ++ ['\n'])), ⟨rest⟩) := by
  have split := splitLine_of_not_mem (Text.ten_not_mem_utf8 single) rest
  have encoded : Text.utf8 line ++ [10] = Text.utf8 (line ++ ['\n']) :=
    (Text.utf8_append line ['\n']).symm
  simp only [nextLine, split, encoded, Text.ofUtf8?_utf8, Option.map_some]
  rw [if_neg (by simp [Text.utf8_eq_nil_iff])]

theorem nextLine_of_unterminated {line : Text} (single : '\n' ∉ line) :
    nextLine ⟨Text.utf8 line⟩ = (if line = [] then none else some line, ⟨[]⟩) := by
  rw [nextLine, splitLine_of_unterminated (Text.ten_not_mem_utf8 single)]
  simp only [Text.utf8_eq_nil_iff, Text.ofUtf8?_utf8, Option.map_some,
    dropLineEnd_of_not_mem single]
  split <;> rfl

theorem nextLine_snd (input : Input) : input.nextLine.2 = ⟨(splitLine input.bytes).2⟩ := by
  simp only [nextLine]
  split <;> rfl

/-- A read takes the next line, unless it asks for nil. -/
theorem read_snd (kind : Kind) (input : Input) :
    (input.read kind).2 = if kind = .nil then input else input.nextLine.2 := by
  cases kind with
  | nil => rfl
  | int | bool | string | float =>
    cases given : input.nextLine with
    | mk line? rest => cases line? <;> simp [read, given]

/-- What a read gives is the value that the next line stands for, if there is one. -/
theorem read_fst {kind : Kind} (takes : kind ≠ .nil) (input : Input) :
    (input.read kind).1 = input.nextLine.1.elim (.ok none) (valueOfLine kind) := by
  cases kind with
  | nil => exact absurd rfl takes
  | int | bool | string | float =>
    cases given : input.nextLine with
    | mk line? rest => cases line? <;> simp [read, given]

/-- A request that takes a line is answered with what the line stands for. -/
theorem read_of_nextLine {kind : Kind} {line : Text} {input rest : Input} (asks : kind ≠ .nil)
    (next : input.nextLine = (some line, rest)) :
    input.read kind = (valueOfLine kind line, rest) := by
  refine Prod.ext ?_ ?_
  · rw [read_fst asks, next]
    rfl
  · rw [read_snd, if_neg asks, next]

/-- The input begins with the line, and the rest follows after its line feed; a last line may
lack one. -/
inductive Begins (line : Text) : Input → Input → Prop where
  | terminated (rest : List UInt8) : Begins line ⟨Text.utf8 line ++ 10 :: rest⟩ ⟨rest⟩
  | last : Begins line ⟨Text.utf8 line⟩ ⟨[]⟩

/-- The end of an input has no value of any type. -/
theorem read_nil (kind : Kind) : read kind ⟨[]⟩ = (.ok none, ⟨[]⟩) := by
  cases kind <;> rfl

end Input

end IPPcode24
