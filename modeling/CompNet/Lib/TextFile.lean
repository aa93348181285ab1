import CompNet.Lib.CString

/-!
# Text files read with `fgets`

A file is the list of its bytes.  `lines` cuts it behind every newline.  `fgets`
reads a line too, but not more bytes than its buffer takes, so that a program that
calls it until nothing is left reads the lines when none is too long, and more
pieces than there are lines otherwise.  `textWords` are the runs of a line without white
space, and `scanWord` is what a `%s` of `sscanf` reads.
-/

namespace CompNet.Lib

/-! ## Lines -/

/-- The lines with their newlines, which the last one may lack. -/
def lines : List UInt8 → List (List UInt8)
  | [] => []
  | c :: file =>
      if c = 10 then [c] :: lines file
      else
        match lines file with
        | [] => [[c]]
        | line :: more => (c :: line) :: more

theorem lines_newline (file : List UInt8) : lines (10 :: file) = [10] :: lines file := by
  rw [lines, if_pos rfl]

theorem lines_eq_nil {file : List UInt8} : lines file = [] ↔ file = [] := by
  cases file with
  | nil => simp [lines]
  | cons c file =>
      rw [lines]
      split
      · simp
      · split <;> simp

/-- Another byte is put in front of the first line. -/
theorem lines_eq_cons {c : UInt8} {file line : List UInt8} {more : List (List UInt8)}
    (other : c ≠ 10) (first : lines (c :: file) = line :: more) :
    ∃ behind, line = c :: behind ∧
      (behind = [] ∧ file = [] ∧ more = [] ∨ lines file = behind :: more) := by
  rw [lines, if_neg other] at first
  split at first
  · next none =>
      cases first
      exact ⟨[], rfl, .inl ⟨rfl, lines_eq_nil.mp none, rfl⟩⟩
  · next behind rest later =>
      cases first
      exact ⟨behind, rfl, .inr later⟩

/-- A line has bytes, and only the last one of them can be a newline. -/
theorem newline_last {file line : List UInt8} (member : line ∈ lines file) :
    line ≠ [] ∧ 10 ∉ line.dropLast := by
  induction file generalizing line with
  | nil => cases member
  | cons c file ih =>
      rw [lines] at member
      split at member
      · rcases List.mem_cons.mp member with rfl | later
        · exact ⟨by simp, by simp⟩
        · exact ih later
      · next other =>
          split at member
          · rw [List.mem_singleton.mp member]
            exact ⟨by simp, by simp⟩
          · next first more cut =>
              rw [cut] at ih
              rcases List.mem_cons.mp member with rfl | later
              · obtain ⟨some, clean⟩ := ih List.mem_cons_self
                refine ⟨by simp, ?_⟩
                rw [List.dropLast_cons_of_ne_nil some, List.mem_cons, not_or]
                exact ⟨Ne.symm other, clean⟩
              · exact ih (List.mem_cons_of_mem first later)

/-- What `fgets` stores in a buffer with room for `room` bytes and a NUL, and what it
leaves. -/
def fgets : Nat → List UInt8 → List UInt8 × List UInt8
  | 0, file => ([], file)
  | _, [] => ([], [])
  | room + 1, c :: file =>
      if c = 10 then ([c], file) else ((c :: (fgets room file).1), (fgets room file).2)

theorem fgets_nil (room : Nat) : fgets room [] = ([], []) := by
  cases room <;> rfl

theorem length_fgets_le (room : Nat) (file : List UInt8) :
    (fgets room file).2.length ≤ file.length := by
  induction room generalizing file with
  | zero => rfl
  | succ room ih =>
      cases file with
      | nil => simp [fgets]
      | cons c file =>
          rw [fgets]
          split
          · simp
          · exact Nat.le_succ_of_le (ih file)

/-- What is stored has room. -/
theorem length_fgets_stored (room : Nat) (file : List UInt8) :
    (fgets room file).1.length ≤ room := by
  induction room generalizing file with
  | zero => exact Nat.le_refl 0
  | succ room ih =>
      cases file with
      | nil => exact Nat.zero_le _
      | cons c file =>
          rw [fgets]
          split
          · exact Nat.succ_le_succ (Nat.zero_le room)
          · exact Nat.succ_le_succ (ih file)

/-- Without a newline the room is filled. -/
theorem fgets_filled {room : Nat} {file : List UInt8} (line : 10 ∉ file.take room) :
    (fgets room file).1 = file.take room := by
  induction room generalizing file with
  | zero => rfl
  | succ room ih =>
      cases file with
      | nil => rfl
      | cons c file =>
          rw [List.take_succ_cons, List.mem_cons, not_or] at line
          rw [fgets, if_neg (Ne.symm line.1), List.take_succ_cons, ih line.2]

/-- Each call leaves less of the file. -/
theorem length_fgets_lt (room : Nat) {file : List UInt8} (some : file ≠ []) :
    (fgets (room + 1) file).2.length < file.length := by
  obtain ⟨c, rest, rfl⟩ := List.exists_cons_of_ne_nil some
  rw [fgets]
  split
  · simp
  · exact Nat.lt_succ_of_le (length_fgets_le room rest)

/-- A line that has room is read whole. -/
theorem fgets_short {room : Nat} {file line : List UInt8} {more : List (List UInt8)}
    (first : lines file = line :: more) (short : line.length ≤ room) :
    (fgets room file).1 = line ∧ lines (fgets room file).2 = more := by
  induction file generalizing room line with
  | nil => simp [lines] at first
  | cons c file ih =>
      by_cases newline : c = 10
      · subst newline
        rw [lines_newline] at first
        cases first
        cases room with
        | zero => simp at short
        | succ room => simp [fgets]
      · obtain ⟨behind, rfl, ⟨rfl, rfl, rfl⟩ | later⟩ := lines_eq_cons newline first
        · cases room with
          | zero => simp at short
          | succ room => simp [fgets, newline, fgets_nil, lines]
        · cases room with
          | zero => simp at short
          | succ room =>
              obtain ⟨whole, rest⟩ := ih later (by simpa using short)
              simp only [fgets, newline, if_false, whole, rest, and_self]

/-- A longer line is cut, and what is left of it is the next line. -/
theorem fgets_long {room : Nat} {file line : List UInt8} {more : List (List UInt8)}
    (first : lines file = line :: more) (long : room < line.length) :
    ∃ behind, lines (fgets room file).2 = behind :: more := by
  induction room generalizing file line with
  | zero => exact ⟨line, by rw [fgets, first]⟩
  | succ room ih =>
      cases file with
      | nil => simp [lines] at first
      | cons c file =>
          by_cases newline : c = 10
          · subst newline
            rw [lines_newline] at first
            cases first
            simp at long
          · obtain ⟨behind, rfl, ⟨rfl, rfl, rfl⟩ | later⟩ := lines_eq_cons newline first
            · simp at long
            · simp only [fgets, newline, if_false]
              exact ih later (by simpa using long)

/-- The pieces that calls of `fgets` return, one after the other, until nothing is left. -/
inductive Reads (room : Nat) : List UInt8 → List (List UInt8) → Prop
  | done : Reads room [] []
  | next {file : List UInt8} {pieces : List (List UInt8)} :
      file ≠ [] → Reads room (fgets room file).2 pieces →
        Reads room file ((fgets room file).1 :: pieces)

namespace Reads

variable {room : Nat} {file : List UInt8} {pieces : List (List UInt8)}

/-- The lines are the pieces if there is room for each. -/
theorem eq_lines (reads : Reads room file pieces)
    (short : ∀ line ∈ lines file, line.length ≤ room) : pieces = lines file := by
  induction reads with
  | done => rfl
  | @next file pieces some _ ih =>
      obtain ⟨line, more, first⟩ := List.exists_cons_of_ne_nil (mt lines_eq_nil.mp some)
      rw [first] at short
      obtain ⟨whole, rest⟩ := fgets_short first (short line List.mem_cons_self)
      rw [rest] at ih
      rw [whole, first, ih fun later member => short later (List.mem_cons_of_mem _ member)]

/-- A line that is cut makes more pieces than there are lines. -/
theorem length_lines_le (reads : Reads room file pieces) :
    (lines file).length ≤ pieces.length ∧
      (pieces.length ≤ (lines file).length → ∀ line ∈ lines file, line.length ≤ room) := by
  induction reads with
  | done => simp [lines]
  | @next file pieces some _ ih =>
      obtain ⟨line, more, first⟩ := List.exists_cons_of_ne_nil (mt lines_eq_nil.mp some)
      obtain ⟨fewer, uncut⟩ := ih
      by_cases short : line.length ≤ room
      · obtain ⟨-, rest⟩ := fgets_short first short
        rw [rest] at fewer uncut
        rw [first]
        refine ⟨by simpa using fewer, fun most => List.forall_mem_cons.mpr ⟨short, ?_⟩⟩
        exact uncut (by simpa using most)
      · obtain ⟨behind, rest⟩ := fgets_long first (Nat.lt_of_not_le short)
        rw [rest, List.length_cons] at fewer
        rw [first]
        simp only [List.length_cons]
        exact ⟨by omega, fun most => by omega⟩

end Reads

/-! ## Words -/

/-- `isspace` of the C locale. -/
def isspace (c : UInt8) : Bool := c == 32 || (9 ≤ c && c ≤ 13)

/-- The runs of a text without white space. -/
def textWords (s : List UInt8) : List (List UInt8) := (s.splitOnP isspace).filter (· ≠ [])

/-- `%s`: white space is skipped and a word is read, if there is one. -/
def scanWord (s : List UInt8) : Option (List UInt8 × List UInt8) :=
  let rest := s.dropWhile isspace
  if rest.isEmpty then none else some (rest.takeWhile (!isspace ·), rest.dropWhile (!isspace ·))

theorem textWords_nil : textWords [] = [] := by
  simp [textWords]

/-- White space separates words. -/
theorem textWords_append {c : UInt8} (space : isspace c = true) (s t : List UInt8) :
    textWords (s ++ c :: t) = textWords s ++ textWords t := by
  rw [textWords, List.splitOnP_append_cons s t space, List.filter_append, textWords, textWords]

theorem textWords_of_chars {w : List UInt8} (nonempty : w ≠ [])
    (chars : ∀ c ∈ w, isspace c = false) : textWords w = [w] := by
  rw [textWords, List.splitOnP_eq_singleton chars]
  simp [nonempty]

/-- White space in front of a text makes no word. -/
theorem textWords_skip {lead : List UInt8} (spaces : ∀ c ∈ lead, isspace c = true)
    (s : List UInt8) : textWords (lead ++ s) = textWords s := by
  induction lead with
  | nil => rfl
  | cons c lead ih =>
      obtain ⟨here, later⟩ := List.forall_mem_cons.mp spaces
      rw [List.cons_append, ← List.nil_append (c :: (lead ++ s)), textWords_append here, ih later,
        textWords_nil, List.nil_append]

/-- The token that white space delimits is the next word. -/
theorem textWords_token {s lead tok behind : List UInt8} (token : Token isspace s lead tok behind) :
    textWords s = tok :: textWords behind := by
  rw [token.split, List.append_assoc, textWords_skip token.delims]
  cases behind with
  | nil => rw [List.append_nil, textWords_of_chars token.nonempty token.chars, textWords_nil]
  | cons c behind =>
      have space := token.stops c behind rfl
      have skip := textWords_append space [] behind
      rw [List.nil_append, textWords_nil, List.nil_append] at skip
      rw [textWords_append space, textWords_of_chars token.nonempty token.chars, skip]
      rfl

/-- The words of a text are those that one `%s` after the other reads. -/
theorem scanWord_of_words {s w : List UInt8} {ws : List (List UInt8)}
    (first : textWords s = w :: ws) :
    ∃ rest, scanWord s = some (w, rest) ∧ textWords rest = ws ∧ ∀ c ∈ w ++ rest, c ∈ s := by
  rcases exists_token isspace s with blank | ⟨lead, tok, behind, token⟩
  · have skip := textWords_skip blank []
    rw [List.append_nil, textWords_nil, first] at skip
    cases skip
  · rw [textWords_token token] at first
    cases first
    obtain ⟨c, tail, cons⟩ := List.exists_cons_of_ne_nil token.nonempty
    have whole := List.takeWhile_append_dropWhile (p := (!isspace ·)) (l := w ++ behind)
    rw [token.takeWhile_tok] at whole
    have left := List.append_cancel_left whole
    refine ⟨behind, ?_, rfl, fun c member => ?_⟩
    · simp only [scanWord, token.dropWhile_lead, token.takeWhile_tok, left]
      rw [if_neg (by simp [cons])]
    · rw [token.split, List.append_assoc]
      exact List.mem_append_right lead member

end CompNet.Lib
