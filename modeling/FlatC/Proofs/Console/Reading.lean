import FlatC.Console

/-!
# Reading from the console

Words and single characters are read from one input, in any order.  A reading can leave the input
inside a word or among blanks, and the next one goes on from there, so that together they take the
input apart from its start: each takes a piece, the pieces stand in the input one behind the other,
and what follows the last of them is pending.

* `Text.words` are the words of a text, by its blanks;
* `Console.Takes` says which piece a reading takes and what it answers; `Console.exists_takes` that
  there is such a piece, and `Console.read_of_takes` that it is the one that is taken;
* `Console.pending_eq` puts the pieces of several readings together, and `Console.answer_word` lists
  the answers of repeated readings of a word;
* `Console.input_is_read_piece_by_piece` says this of every sequence of readings.
-/

namespace FlatC

/-! ## Words -/

namespace Text

/-- The text is at its end or goes on with a blank. -/
def AtBreak (text : List Char) : Prop :=
  ∀ c, text.head? = some c → isBlank c = true

/-- The words of a text: what stands between its blanks. -/
def words (text : List Char) : List (List Char) :=
  (text.splitOnP isBlank).filter fun word => !word.isEmpty

variable {blanks word rest : List Char}

theorem words_cons_blank {c : Char} (blank : isBlank c = true) :
    words (c :: rest) = words rest := by
  have split : (c :: rest).splitOnP isBlank = [] :: rest.splitOnP isBlank := by
    simpa using List.splitOnP_append_cons [] rest blank
  rw [words, split]
  rfl

theorem words_blanks_append (blank : ∀ c ∈ blanks, isBlank c = true) :
    words (blanks ++ rest) = words rest := by
  induction blanks with
  | nil => rfl
  | cons c blanks ih =>
    rw [List.cons_append, words_cons_blank (blank c List.mem_cons_self)]
    exact ih fun d among => blank d (List.mem_cons_of_mem c among)

/-- What stands in front of a break without a blank in it is the first word. -/
theorem words_word_append (nonempty : word ≠ []) (solid : ∀ c ∈ word, isBlank c = false)
    (ended : AtBreak rest) : words (word ++ rest) = word :: words rest := by
  have kept : [word].filter (fun word => !word.isEmpty) = [word] := by simpa using nonempty
  cases rest with
  | nil =>
    rw [List.append_nil, words, List.splitOnP_eq_singleton solid, kept]
    rfl
  | cons c rest =>
    have blank : isBlank c = true := ended c rfl
    rw [words_cons_blank blank, words, List.splitOnP_append_cons word rest blank,
      List.splitOnP_eq_singleton solid, List.filter_append, kept]
    rfl

end Text

/-! ## Pieces of the input -/

namespace Console

/-- A way to read from the input. -/
inductive Reading where
  /-- The next word, behind any blanks. -/
  | word
  /-- The next character, blank or not. -/
  | char
deriving DecidableEq, Repr

/-- Reads from the input.  A character is answered as a text of one. -/
def read (console : Console) : Reading → Option (List Char) × Console
  | .word => console.nextWord
  | .char =>
    let (c, console) := console.nextChar
    (c.map fun c => [c], console)

/-- The piece of the input that a reading takes, its answer, and what it leaves of the input. -/
inductive Takes :
    Reading → (piece : List Char) → Option (List Char) → (rest : List Char) → Prop where
  /-- A word is taken with all blanks in front of it, up to the next blank or the end. -/
  | word (blanks word rest : List Char) (blank : ∀ c ∈ blanks, Text.isBlank c = true)
      (nonempty : word ≠ []) (solid : ∀ c ∈ word, Text.isBlank c = false)
      (ended : Text.AtBreak rest) : Takes .word (blanks ++ word) (some word) rest
  /-- Without a word in it, the rest of the input is blank and taken as a whole. -/
  | noWord (blanks : List Char) (blank : ∀ c ∈ blanks, Text.isBlank c = true) :
      Takes .word blanks none []
  | char (c : Char) (rest : List Char) : Takes .char [c] (some [c]) rest
  /-- At the end of the input there is nothing to take. -/
  | noChar : Takes .char [] none []

variable {reading : Reading} {piece rest : List Char} {answer : Option (List Char)}

/-- Every input begins with a piece for a reading. -/
theorem exists_takes (reading : Reading) (pending : List Char) :
    ∃ piece answer rest, pending = piece ++ rest ∧ Takes reading piece answer rest := by
  cases reading with
  | char =>
    cases pending with
    | nil => exact ⟨[], none, [], rfl, .noChar⟩
    | cons c rest => exact ⟨[c], some [c], rest, rfl, .char c rest⟩
  | word =>
    have cut : pending.takeWhile Text.isBlank ++ pending.dropWhile Text.isBlank = pending :=
      List.takeWhile_append_dropWhile
    have blank : ∀ c ∈ pending.takeWhile Text.isBlank, Text.isBlank c = true :=
      List.all_eq_true.mp List.all_takeWhile
    cases behind : pending.dropWhile Text.isBlank with
    | nil =>
      rw [behind, List.append_nil] at cut
      refine ⟨pending, none, [], (List.append_nil _).symm, .noWord pending ?_⟩
      rwa [cut] at blank
    | cons c more =>
      have first : Text.isBlank c = false := by
        have head := List.head?_dropWhile_not Text.isBlank pending
        rwa [behind] at head
      let solid := fun c => !Text.isBlank c
      refine ⟨pending.takeWhile Text.isBlank ++ (c :: more).takeWhile solid, _,
        (c :: more).dropWhile solid, ?_, .word _ _ _ blank ?_ ?_ ?_⟩
      · rw [List.append_assoc, List.takeWhile_append_dropWhile, ← behind, cut]
      · rw [List.takeWhile_cons_of_pos (by simp [solid, first])]
        exact List.cons_ne_nil _ _
      · intro d among
        have all := List.all_eq_true.mp (List.all_takeWhile (p := solid)) d among
        simpa [solid] using all
      · intro d next
        have head := List.head?_dropWhile_not solid (c :: more)
        rw [next] at head
        simpa [solid] using head

/-- The piece that an input begins with is the one that the reading takes.  Nothing but the input
changes on the console. -/
theorem read_of_takes {console : Console} (start : console.pending = piece ++ rest)
    (taken : Takes reading piece answer rest) :
    console.read reading = (answer, { console with pending := rest }) := by
  cases taken with
  | char c rest => simp [read, nextChar, start]
  | noChar =>
    obtain ⟨output, pending, line, callDepth, iterations⟩ := console
    obtain rfl : pending = [] := start
    rfl
  | noWord blanks blank =>
    have nothing : console.pending.dropWhile Text.isBlank = [] := by
      rw [start, List.dropWhile_append_of_pos blank]
      rfl
    simp [read, nextWord, nothing]
  | word blanks word rest blank nonempty solid ended =>
    obtain ⟨c, more, rfl⟩ := List.exists_cons_of_ne_nil nonempty
    have first : Text.isBlank c = false := solid c List.mem_cons_self
    have behind : console.pending.dropWhile Text.isBlank = (c :: more) ++ rest := by
      rw [start, List.append_assoc, List.dropWhile_append_of_pos blank, List.cons_append,
        List.dropWhile_cons_of_neg (by simp [first])]
    have inWord : ∀ d ∈ c :: more, (!Text.isBlank d) = true := fun d among => by
      simp [solid d among]
    have stopped : rest.takeWhile (fun d => !Text.isBlank d) = [] ∧
        rest.dropWhile (fun d => !Text.isBlank d) = rest := by
      cases rest with
      | nil => exact ⟨rfl, rfl⟩
      | cons d rest => simp [ended d rfl]
    simp only [read, nextWord, behind, List.takeWhile_append_of_pos inWord,
      List.dropWhile_append_of_pos inWord, stopped, List.append_nil]
    rfl

/-! ## Sequences of readings -/

/-- The console after some readings. -/
def after (console : Console) (readings : List Reading) : Console :=
  readings.foldl (fun console reading => (console.read reading).2) console

/-- The part of the input that is pending before a reading and not after it. -/
def consumed (console : Console) (reading : Reading) : List Char :=
  console.pending.take (console.pending.length - (console.read reading).2.pending.length)

/-- What each of some readings consumes, in order. -/
def pieces (console : Console) : List Reading → List (List Char)
  | [] => []
  | reading :: readings =>
    console.consumed reading :: (console.read reading).2.pieces readings

/-- How much of an input has been read when the console has only the pending part left. -/
def cursor (input : List Char) (console : Console) : Nat :=
  input.length - console.pending.length

variable {console : Console}

/-- A reading consumes the piece that it takes. -/
theorem read_spec (console : Console) (reading : Reading) :
    console.pending = console.consumed reading ++ (console.read reading).2.pending ∧
      Takes reading (console.consumed reading) (console.read reading).1
        (console.read reading).2.pending ∧
      (console.read reading).2 =
        { console with pending := (console.read reading).2.pending } := by
  obtain ⟨piece, answer, rest, start, taken⟩ := exists_takes reading console.pending
  have done := read_of_takes start taken
  have length : console.pending.length - rest.length = piece.length := by
    rw [start, List.length_append, Nat.add_sub_cancel]
  have eaten : console.consumed reading = piece := by
    rw [consumed, done, length, start, List.take_left]
  rw [eaten, done]
  exact ⟨start, taken, rfl⟩

theorem after_cons (console : Console) (reading : Reading) (readings : List Reading) :
    console.after (reading :: readings) = (console.read reading).2.after readings :=
  rfl

/-- The input is what has been consumed, piece by piece, and what is pending. -/
theorem pending_eq (console : Console) (readings : List Reading) :
    console.pending = (console.pieces readings).flatten ++ (console.after readings).pending := by
  induction readings generalizing console with
  | nil => rfl
  | cons reading readings ih =>
    obtain ⟨start, -, -⟩ := console.read_spec reading
    rw [pieces, List.flatten_cons, List.append_assoc, after_cons, ← ih, ← start]

/-- Readings change nothing on the console but what is pending. -/
theorem after_eq (console : Console) (readings : List Reading) :
    console.after readings =
      { console with pending := (console.after readings).pending } := by
  induction readings generalizing console with
  | nil => rfl
  | cons reading readings ih =>
    obtain ⟨-, -, only⟩ := console.read_spec reading
    rw [after_cons, ih]
    generalize ((console.read reading).2.after readings).pending = last
    rw [only]

/-- What is pending is the end of the input, so the cursor stands between the two parts. -/
theorem cursor_of_append {input front : List Char} (split : input = front ++ console.pending) :
    console.cursor input = front.length := by
  rw [cursor, split, List.length_append, Nat.add_sub_cancel]

/-- A word that is read is the first of the words that are pending, and the others are still
pending. -/
theorem read_word (console : Console) :
    (console.read .word).1 = (Text.words console.pending).head? ∧
      Text.words (console.read .word).2.pending = (Text.words console.pending).tail := by
  obtain ⟨start, taken, -⟩ := console.read_spec .word
  generalize console.consumed .word = piece, (console.read .word).1 = answer,
    (console.read .word).2.pending = rest at start taken
  cases taken with
  | noWord _ blank =>
    rw [start, Text.words_blanks_append blank]
    exact ⟨rfl, rfl⟩
  | word blanks word _ blank nonempty solid ended =>
    simp [start, Text.words_blanks_append blank, Text.words_word_append nonempty solid ended]

/-- Words alone are answered in the order in which they are pending, and nothing after the last. -/
theorem answer_word (console : Console) (n : Nat) :
    ((console.after (List.replicate n .word)).read .word).1 = (Text.words console.pending)[n]? := by
  induction n generalizing console with
  | zero => exact console.read_word.1.trans List.head?_eq_getElem?
  | succ n ih =>
    rw [List.replicate_succ, after_cons, ih, console.read_word.2, List.getElem?_tail]

/-- **Readings lose and repeat nothing.**  Take any input, any sequence of readings of it and any
reading after them.  The cursor lies inside the input, what is pending stands behind it, and what
stands before it are the pieces that the readings have consumed, in order.  The next reading moves
it on by the piece that it takes: for a word, all blanks that come first and the word behind them,
which has no blank in it and is followed by one or by the end, and nothing else but blanks if there
is no word left; for a character, that character, or nothing at the end.  From there on, words alone
are answered as they are separated by the blanks that are left. -/
theorem input_is_read_piece_by_piece (console : Console) (readings : List Reading)
    (reading : Reading) :
    let input := console.pending
    let here := console.after readings
    let next := (here.read reading).2
    here = { console with pending := here.pending } ∧
      here.cursor input ≤ next.cursor input ∧ next.cursor input ≤ input.length ∧
      input.drop (here.cursor input) = here.pending ∧
      input.take (here.cursor input) = (console.pieces readings).flatten ∧
      here.pending = here.consumed reading ++ next.pending ∧
      Takes reading (here.consumed reading) (here.read reading).1 next.pending ∧
      ∀ n, ((here.after (List.replicate n .word)).read .word).1 =
        (Text.words here.pending)[n]? := by
  intro input here next
  obtain ⟨start, taken, -⟩ := here.read_spec reading
  have split : input = (console.pieces readings).flatten ++ here.pending :=
    console.pending_eq readings
  have split' : input = ((console.pieces readings).flatten ++ here.consumed reading) ++
      next.pending := by
    rw [List.append_assoc, ← start, ← split]
  have place := cursor_of_append split
  have place' := cursor_of_append split'
  refine ⟨console.after_eq readings, ?_, Nat.sub_le .., ?_, ?_, start, taken, here.answer_word⟩
  · rw [place, place', List.length_append]
    exact Nat.le_add_right ..
  · rw [place, split, List.drop_left]
  · rw [place, split, List.take_left]

/-- The input of two words and a letter, read as a word, a character and words. -/
example :
    let console := Console.start "  12 abc\n x".toList
    (console.read .word).1 = some "12".toList ∧
      ((console.after [.word]).read .char).1 = some " ".toList ∧
      ((console.after [.word, .char]).read .word).1 = some "abc".toList ∧
      ((console.after [.word, .char, .word]).read .word).1 = some "x".toList ∧
      ((console.after [.word, .char, .word, .word]).read .word).1 = none := by
  decide

end Console

end FlatC
