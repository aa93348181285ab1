import Mathlib.Data.List.TakeWhile

/-!
# C strings in byte buffers

A buffer is the list of its bytes.  A pointer into it is an offset, or, where
nothing is written, the bytes from there to the end of the buffer.  Reading a
string whose terminator is not inside the buffer is out of bounds and gives
`none`.  `strtokR` is `strtok_r` as the GNU library implements it: it skips
delimiters, takes the longest run of other characters and overwrites the
delimiter behind it, if there is one, by a NUL.
-/

namespace CompNet.Lib

/-- The string a pointer points at. -/
def cstring (s : List UInt8) : Option (List UInt8) :=
  if 0 ∈ s then some (s.takeWhile (· != 0)) else none

/-- A NUL-free text in front of a NUL is read back whole. -/
theorem cstring_append {str post : List UInt8} (clean : 0 ∉ str) :
    cstring (str ++ 0 :: post) = some str := by
  have inside : 0 ∈ str ++ 0 :: post := by simp
  rw [cstring, if_pos inside, List.takeWhile_append_of_pos]
  · simp
  · intro c member
    have other : c ≠ 0 := fun zero => clean (zero ▸ member)
    simpa using other

/-- What `cstring` reads, and what follows it. -/
theorem cstring_eq_some {s str : List UInt8} (read : cstring s = some str) :
    0 ∉ str ∧ ∃ post, s = str ++ 0 :: post := by
  unfold cstring at read
  split at read
  · next inside =>
      cases read
      refine ⟨fun zero => ?_, ?_⟩
      · simpa using List.mem_takeWhile_imp zero
      · cases rest : s.dropWhile (· != 0) with
        | nil =>
            have clean := List.dropWhile_eq_nil_iff.mp rest 0 inside
            simp at clean
        | cons c post =>
            have zero : c = 0 := by
              have stops := List.head_dropWhile_not (l := s) (· != 0) (by simp [rest])
              simpa [rest] using stops
            rw [zero] at rest
            refine ⟨post, ?_⟩
            rw [← rest, List.takeWhile_append_dropWhile]
  · cases read

/-- A NUL-free start is part of what is read. -/
theorem cstring_prefix {pre rest str : List UInt8} (clean : 0 ∉ pre)
    (read : cstring (pre ++ rest) = some str) : ∃ behind, str = pre ++ behind := by
  have chars : ∀ c ∈ pre, (c != 0) = true := by
    intro c member
    have other : c ≠ 0 := fun zero => clean (zero ▸ member)
    simpa using other
  unfold cstring at read
  split at read
  · cases read
    exact ⟨_, List.takeWhile_append_of_pos chars⟩
  · cases read

/-! ## Characters -/

/-- `index` finds the first occurrence of a character. -/
theorem idxOf?_first {c : UInt8} {pre : List UInt8} (post : List UInt8) (fresh : c ∉ pre) :
    (pre ++ c :: post).idxOf? c = some pre.length := by
  induction pre with
  | nil => simp [List.idxOf?_cons]
  | cons d pre ih =>
      have other : d ≠ c := fun same => fresh (by simp [same])
      have later : c ∉ pre := fun member => fresh (List.mem_cons_of_mem d member)
      rw [List.cons_append, List.idxOf?_cons, if_neg (by simpa using other), ih later]
      rfl

theorem idxOf?_eq_first {c : UInt8} {s : List UInt8} {i : Nat} (found : s.idxOf? c = some i) :
    ∃ pre post, s = pre ++ c :: post ∧ c ∉ pre ∧ pre.length = i := by
  induction s generalizing i with
  | nil => simp at found
  | cons d s ih =>
      rw [List.idxOf?_cons] at found
      split at found
      · next same =>
          cases found
          exact ⟨[], s, by simp [beq_iff_eq.mp same], by simp, rfl⟩
      · next other =>
          obtain ⟨j, later, rfl⟩ := Option.map_eq_some_iff.mp found
          obtain ⟨pre, post, rfl, fresh, rfl⟩ := ih later
          refine ⟨d :: pre, post, rfl, ?_, rfl⟩
          rw [List.mem_cons, not_or]
          exact ⟨fun same => other (by simp [same]), fresh⟩

/-! ## Substrings -/

/-- `strstr` on a string: the offset of the first occurrence of `pat`. -/
def strstr (pat : List UInt8) : List UInt8 → Option Nat
  | [] => if pat.isEmpty then some 0 else none
  | c :: s => if pat.isPrefixOf (c :: s) then some 0 else (strstr pat s).map (· + 1)

/-- Where `strstr` stops, the text before it holds no occurrence. -/
theorem strstr_eq_some {pat s : List UInt8} {i : Nat} (found : strstr pat s = some i) :
    ∃ pre post, s = pre ++ pat ++ post ∧ pre.length = i ∧ (pat ≠ [] → ¬ pat <:+: pre) := by
  induction s generalizing i with
  | nil =>
      rw [strstr] at found
      split at found
      · next empty =>
          cases found
          have none : pat = [] := by simpa using empty
          exact ⟨[], [], by simp [none], rfl, fun some => absurd none some⟩
      · cases found
  | cons c s ih =>
      rw [strstr] at found
      split at found
      · next here =>
          cases found
          obtain ⟨post, whole⟩ := List.isPrefixOf_iff_prefix.mp here
          refine ⟨[], post, by simp [whole], rfl, fun some occurs => some ?_⟩
          simpa using occurs
      · next notHere =>
          obtain ⟨j, later, rfl⟩ := Option.map_eq_some_iff.mp found
          obtain ⟨pre, post, rfl, rfl, fresh⟩ := ih later
          refine ⟨c :: pre, post, rfl, rfl, fun some occurs => ?_⟩
          rcases List.infix_cons_iff.mp occurs with ⟨tail, starts⟩ | inside
          · apply notHere
            rw [List.isPrefixOf_iff_prefix]
            refine ⟨tail ++ pat ++ post, ?_⟩
            rw [← List.append_assoc, ← List.append_assoc, starts]
            simp
          · exact fresh some inside

theorem strstr_eq_none {pat s : List UInt8} (none : strstr pat s = none) : ¬ pat <:+: s := by
  induction s with
  | nil =>
      rw [strstr] at none
      split at none
      · cases none
      · next some =>
          intro occurs
          exact some (by simpa using occurs)
  | cons c s ih =>
      rw [strstr] at none
      split at none
      · cases none
      · next notHere =>
          intro occurs
          rcases List.infix_cons_iff.mp occurs with starts | inside
          · exact notHere (List.isPrefixOf_iff_prefix.mpr starts)
          · exact ih (by simpa using none) inside

/-- Two different bytes are found where they first stand: no occurrence can
straddle the text before them. -/
theorem strstr_pair {a b : UInt8} (differ : a ≠ b) {pre post : List UInt8}
    (fresh : ¬ [a, b] <:+: pre) : strstr [a, b] (pre ++ a :: b :: post) = some pre.length := by
  induction pre with
  | nil => simp [strstr, List.isPrefixOf]
  | cons c pre ih =>
      have notHere : ¬ [a, b].isPrefixOf (c :: (pre ++ a :: b :: post)) = true := by
        intro here
        obtain ⟨tail, whole⟩ := List.isPrefixOf_iff_prefix.mp here
        simp only [List.cons_append, List.nil_append, List.cons.injEq] at whole
        obtain ⟨rfl, second⟩ := whole
        cases pre with
        | nil =>
            simp only [List.nil_append, List.cons.injEq] at second
            exact differ second.1.symm
        | cons d pre =>
            simp only [List.cons_append, List.cons.injEq] at second
            obtain ⟨rfl, -⟩ := second
            exact fresh ⟨[], pre, rfl⟩
      have later : ¬ [a, b] <:+: pre := fun inside => fresh (List.infix_cons inside)
      rw [List.cons_append, strstr, if_neg notHere, ih later]
      rfl

/-- A byte that is neither of the two separates the occurrences. -/
theorem pair_separated {a b c : UInt8} {x y : List UInt8} (left : c ≠ a) (right : c ≠ b)
    (before : ¬ [a, b] <:+: x) (behind : ¬ [a, b] <:+: y) : ¬ [a, b] <:+: x ++ c :: y := by
  induction x with
  | nil =>
      intro occurs
      rcases List.infix_cons_iff.mp occurs with ⟨tail, starts⟩ | inside
      · exact left (List.cons.inj starts).1.symm
      · exact behind inside
  | cons d x ih =>
      intro occurs
      rcases List.infix_cons_iff.mp occurs with ⟨tail, starts⟩ | inside
      · simp only [List.cons_append, List.nil_append, List.cons.injEq] at starts
        obtain ⟨rfl, starts⟩ := starts
        cases x with
        | nil => exact right (List.cons.inj starts).1.symm
        | cons e x =>
            obtain ⟨rfl, -⟩ := List.cons.inj starts
            exact before ⟨[], x, rfl⟩
      · exact ih (fun inside => before (List.infix_cons inside)) inside

/-! ## Tokens -/

/-- The next token of `str`: the delimiters before it, the token, and what is
behind it, which is nothing or starts with a delimiter. -/
structure Token (isDelim : UInt8 → Bool) (str lead tok behind : List UInt8) : Prop where
  split : str = lead ++ tok ++ behind
  delims : ∀ c ∈ lead, isDelim c = true
  nonempty : tok ≠ []
  chars : ∀ c ∈ tok, isDelim c = false
  stops : ∀ c rest, behind = c :: rest → isDelim c = true

/-- A token in front of a known delimiter. -/
theorem Token.cons {isDelim : UInt8 → Bool} {lead tok behind : List UInt8} {d : UInt8}
    (delims : ∀ c ∈ lead, isDelim c = true) (nonempty : tok ≠ [])
    (chars : ∀ c ∈ tok, isDelim c = false) (delim : isDelim d = true) :
    Token isDelim (lead ++ tok ++ d :: behind) lead tok (d :: behind) := by
  refine ⟨rfl, delims, nonempty, chars, ?_⟩
  intro c rest same
  obtain ⟨rfl, -⟩ := List.cons.inj same
  exact delim

/-- The delimiters of a token can be counted out. -/
theorem Token.chars_of_all {isDelim : UInt8 → Bool} {tok : List UInt8}
    (none : (tok.all fun c => !isDelim c) = true) : ∀ c ∈ tok, isDelim c = false := by
  intro c member
  have here := List.all_eq_true.mp none c member
  simpa using here

/-- A string consists of delimiters, or it has a next token. -/
theorem exists_token (isDelim : UInt8 → Bool) (str : List UInt8) :
    (∀ c ∈ str, isDelim c = true) ∨ ∃ lead tok behind, Token isDelim str lead tok behind := by
  by_cases blank : ∀ c ∈ str, isDelim c = true
  · exact .inl blank
  refine .inr ⟨str.takeWhile isDelim, (str.dropWhile isDelim).takeWhile (!isDelim ·),
    (str.dropWhile isDelim).dropWhile (!isDelim ·), ?_, ?_, ?_, ?_, ?_⟩
  · rw [List.append_assoc, List.takeWhile_append_dropWhile, List.takeWhile_append_dropWhile]
  · exact fun c member => List.mem_takeWhile_imp member
  · have some : str.dropWhile isDelim ≠ [] :=
      fun none => blank (List.dropWhile_eq_nil_iff.mp none)
    have stops := List.head_dropWhile_not isDelim some
    rw [← List.cons_head_tail some, List.takeWhile_cons_of_pos (by simpa using stops)]
    simp
  · intro c member
    simpa using List.mem_takeWhile_imp member
  · intro c rest behind
    have stops := List.head_dropWhile_not (l := str.dropWhile isDelim) (!isDelim ·)
      (by simp [behind])
    simpa [behind] using stops

theorem Token.takeWhile_lead {isDelim : UInt8 → Bool} {str lead tok behind : List UInt8}
    (token : Token isDelim str lead tok behind) : str.takeWhile isDelim = lead := by
  obtain ⟨c, rest, rfl⟩ := List.exists_cons_of_ne_nil token.nonempty
  have stop : isDelim c = false := token.chars c List.mem_cons_self
  rw [token.split, List.append_assoc, List.takeWhile_append_of_pos token.delims]
  simp [stop]

theorem Token.dropWhile_lead {isDelim : UInt8 → Bool} {str lead tok behind : List UInt8}
    (token : Token isDelim str lead tok behind) : str.dropWhile isDelim = tok ++ behind := by
  have whole := List.takeWhile_append_dropWhile (p := isDelim) (l := str)
  rw [token.takeWhile_lead] at whole
  have split := token.split
  rw [List.append_assoc] at split
  exact List.append_cancel_left (whole.trans split)

theorem Token.takeWhile_tok {isDelim : UInt8 → Bool} {str lead tok behind : List UInt8}
    (token : Token isDelim str lead tok behind) :
    (tok ++ behind).takeWhile (!isDelim ·) = tok := by
  rw [List.takeWhile_append_of_pos (fun c member => by simp [token.chars c member])]
  cases behind with
  | nil => simp
  | cons c rest => simp [token.stops c rest rfl]

/-- The three parts of a token are determined by the string. -/
theorem Token.unique {isDelim : UInt8 → Bool} {str lead tok behind lead' tok' behind' : List UInt8}
    (token : Token isDelim str lead tok behind) (token' : Token isDelim str lead' tok' behind') :
    lead = lead' ∧ tok = tok' ∧ behind = behind' := by
  have sameLead : lead = lead' := token.takeWhile_lead.symm.trans token'.takeWhile_lead
  have sameRest : tok ++ behind = tok' ++ behind' :=
    token.dropWhile_lead.symm.trans token'.dropWhile_lead
  have sameTok : tok = tok' := by
    rw [← token.takeWhile_tok, ← token'.takeWhile_tok, sameRest]
  subst sameTok
  exact ⟨sameLead, rfl, List.append_cancel_left sameRest⟩

/-- `strtok_r`: the buffer afterwards, the token's offset and `*save_ptr`. -/
def strtokR (isDelim : UInt8 → Bool) (mem : List UInt8) (s : Nat) :
    Option (List UInt8 × Option Nat × Nat) :=
  match cstring (mem.drop s) with
  | none => none
  | some str =>
      let start := s + (str.takeWhile isDelim).length
      let rest := str.dropWhile isDelim
      if rest.isEmpty then some (mem, none, start)
      else
        let stop := start + (rest.takeWhile (!isDelim ·)).length
        if stop = s + str.length then some (mem, some start, stop)
        else some (mem.set stop 0, some start, stop + 1)

section

variable {isDelim : UInt8 → Bool} {mem str lead tok behind : List UInt8} {s : Nat}
  (pre post : List UInt8)

/-- The string at an offset of a buffer whose pieces are known. -/
theorem cstring_drop (memory : mem = pre ++ str ++ 0 :: post) (start : s = pre.length)
    (clean : 0 ∉ str) : cstring (mem.drop s) = some str := by
  rw [memory, start, List.append_assoc, List.drop_left, cstring_append clean]

/-- Nothing but delimiters: no token. -/
theorem strtokR_blank (memory : mem = pre ++ str ++ 0 :: post) (start : s = pre.length)
    (clean : 0 ∉ str) (blank : ∀ c ∈ str, isDelim c = true) :
    strtokR isDelim mem s = some (mem, none, s + str.length) := by
  have whole : str.takeWhile isDelim = str := List.takeWhile_eq_self_iff.mpr blank
  have nothing : str.dropWhile isDelim = [] := List.dropWhile_eq_nil_iff.mpr blank
  have read := cstring_drop pre post memory start clean
  simp only [strtokR, read, whole, nothing, List.isEmpty_nil, if_true]

/-- A token at the end of the string. -/
theorem strtokR_last (memory : mem = pre ++ str ++ 0 :: post) (start : s = pre.length)
    (clean : 0 ∉ str) (token : Token isDelim str lead tok []) :
    strtokR isDelim mem s = some (mem, some (s + lead.length), s + str.length) := by
  have length : str.length = lead.length + tok.length := by
    rw [token.split]
    simp
  have read := cstring_drop pre post memory start clean
  simp only [strtokR, read, token.takeWhile_lead, token.dropWhile_lead, token.takeWhile_tok]
  rw [if_neg (by simpa using token.nonempty), if_pos (by omega)]
  simp only [Option.some.injEq, Prod.mk.injEq, true_and]
  omega

/-- A token with a delimiter behind it, which becomes a NUL. -/
theorem strtokR_cut {d : UInt8} (memory : mem = pre ++ str ++ 0 :: post) (start : s = pre.length)
    (clean : 0 ∉ str) (token : Token isDelim str lead tok (d :: behind)) :
    strtokR isDelim mem s =
      some (pre ++ lead ++ tok ++ 0 :: (behind ++ 0 :: post), some (s + lead.length),
        s + lead.length + tok.length + 1) := by
  have length : str.length = lead.length + tok.length + (behind.length + 1) := by
    rw [token.split]
    simp only [List.length_append, List.length_cons]
  have pieces : mem = (pre ++ lead ++ tok) ++ d :: (behind ++ 0 :: post) := by
    rw [memory, token.split]
    simp
  have read := cstring_drop pre post memory start clean
  have offset : s + lead.length + tok.length = (pre ++ lead ++ tok).length := by
    simp [start, Nat.add_assoc]
  simp only [strtokR, read, token.takeWhile_lead, token.dropWhile_lead, token.takeWhile_tok]
  rw [if_neg (by simp), if_neg (by omega), offset, pieces,
    List.set_append_right _ _ (Nat.le_refl _)]
  simp

end

end CompNet.Lib
