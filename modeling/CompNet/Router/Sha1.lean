import CompNet.Lib.Sha1
import CompNet.Router.Frame

/-!
# The SHA-1 of `sha1.c`

The context keeps the digest so far, the length of the message in bits and the block that
is being filled.  `SHA1Input` takes a message in any number of pieces, `SHA1Result` pads
the last block.  `sha1Result_run` says when the digest is computed, and that it is then
the digest of all that was put in.
-/

namespace CompNet.Router

open CompNet.Lib
open CompNet.Lib.Sha1 (schedule compress digest pad bytesOf64)

/-! ## The context -/

/-- `SHA1Context`. -/
structure SHA1Context where
  messageDigest : Words
  lengthLow : UInt32
  lengthHigh : UInt32
  messageBlock : Bytes
  size : messageBlock.length = 64
  messageBlockIndex : Nat
  computed : Bool
  corrupted : Bool

/-- `SHA1Reset`; `Message_Block` stays as it is. -/
def sha1Reset (context : SHA1Context) : SHA1Context :=
  { context with
    lengthLow := 0
    lengthHigh := 0
    messageBlockIndex := 0
    messageDigest := ⟨0x67452301, 0xEFCDAB89, 0x98BADCFE, 0x10325476, 0xC3D2E1F0⟩
    computed := false
    corrupted := false }

/-- `SHA1CircularShift`. -/
def sha1CircularShift (bits word : UInt32) : UInt32 :=
  ((word <<< bits) &&& 0xFFFFFFFF) ||| (word >>> (32 - bits))

/-! ## A block -/

/-- A word of `Message_Block`. -/
def sha1Word (block : Bytes) (t : Nat) : UInt32 :=
  ((block.getD (t * 4) 0).toUInt32 <<< 24) ||| ((block.getD (t * 4 + 1) 0).toUInt32 <<< 16) |||
    ((block.getD (t * 4 + 2) 0).toUInt32 <<< 8) ||| (block.getD (t * 4 + 3) 0).toUInt32

/-- The array `W`, which each turn of the second loop extends. -/
def sha1Words (block : Bytes) : List UInt32 :=
  (List.range' 16 64).foldl
    (fun w t => w ++ [sha1CircularShift 1 (w.getD (t - 3) 0 ^^^ w.getD (t - 8) 0 ^^^
      w.getD (t - 14) 0 ^^^ w.getD (t - 16) 0)])
    ((List.range' 0 16).map (sha1Word block))

/-- One turn of the four loops, with the function and the constant of the loop. -/
def sha1Turn (w : List UInt32) (logic : UInt32 → UInt32 → UInt32 → UInt32) (k : UInt32)
    (words : Words) (t : Nat) : Words :=
  let temp := sha1CircularShift 5 words.a + logic words.b words.c words.d + words.e +
    w.getD t 0 + k
  let temp := temp &&& 0xFFFFFFFF
  ⟨temp, words.a, sha1CircularShift 30 words.b, words.c, words.d⟩

/-- `SHA1ProcessMessageBlock`. -/
def sha1ProcessMessageBlock (context : SHA1Context) : SHA1Context :=
  let w := sha1Words context.messageBlock
  let h := context.messageDigest
  let v := (List.range' 0 20).foldl
    (sha1Turn w (fun b c d => (b &&& c) ||| (~~~b &&& d)) 0x5A827999) h
  let v := (List.range' 20 20).foldl (sha1Turn w (fun b c d => b ^^^ c ^^^ d) 0x6ED9EBA1) v
  let v := (List.range' 40 20).foldl
    (sha1Turn w (fun b c d => (b &&& c) ||| (b &&& d) ||| (c &&& d)) 0x8F1BBCDC) v
  let v := (List.range' 60 20).foldl (sha1Turn w (fun b c d => b ^^^ c ^^^ d) 0xCA62C1D6) v
  { context with
    messageDigest := ⟨(h.a + v.a) &&& 0xFFFFFFFF, (h.b + v.b) &&& 0xFFFFFFFF,
      (h.c + v.c) &&& 0xFFFFFFFF, (h.d + v.d) &&& 0xFFFFFFFF, (h.e + v.e) &&& 0xFFFFFFFF⟩
    messageBlockIndex := 0 }

/-! ## Input -/

/-- `context->Message_Block[context->Message_Block_Index++] = c`. -/
def SHA1Context.put (c : UInt8) (context : SHA1Context) : SHA1Context :=
  { context with
    messageBlock := context.messageBlock.set context.messageBlockIndex c
    size := by rw [List.length_set, context.size]
    messageBlockIndex := context.messageBlockIndex + 1 }

/-- Eight more bits. -/
def SHA1Context.lengthen (context : SHA1Context) : SHA1Context :=
  let low := (context.lengthLow + 8) &&& 0xFFFFFFFF
  if low = 0 then
    let high := (context.lengthHigh + 1) &&& 0xFFFFFFFF
    { context with
      lengthLow := low
      lengthHigh := high
      corrupted := context.corrupted || high == 0 }
  else { context with lengthLow := low }

/-- One turn of the loop of `SHA1Input`. -/
def sha1Byte (context : SHA1Context) (c : UInt8) : SHA1Context :=
  let context := (context.put c).lengthen
  if context.messageBlockIndex = 64 then sha1ProcessMessageBlock context else context

/-- The loop of `SHA1Input`. -/
def sha1Loop : Bytes → SHA1Context → SHA1Context
  | [], context => context
  | c :: message, context =>
      if context.corrupted then context else sha1Loop message (sha1Byte context c)

/-- `SHA1Input`. -/
def sha1Input (message : Bytes) (context : SHA1Context) : SHA1Context :=
  if message.isEmpty then context
  else if context.computed || context.corrupted then { context with corrupted := true }
  else sha1Loop message context

/-! ## Result -/

/-- `while(Message_Block_Index < limit) Message_Block[Message_Block_Index++] = 0;` -/
def SHA1Context.zeros (limit : Nat) (context : SHA1Context) : SHA1Context :=
  (SHA1Context.put 0)^[limit - context.messageBlockIndex] context

/-- The eight bytes of the length. -/
def SHA1Context.lengthBytes (context : SHA1Context) : Bytes :=
  [(context.lengthHigh >>> 24).toUInt8, (context.lengthHigh >>> 16).toUInt8,
    (context.lengthHigh >>> 8).toUInt8, context.lengthHigh.toUInt8,
    (context.lengthLow >>> 24).toUInt8, (context.lengthLow >>> 16).toUInt8,
    (context.lengthLow >>> 8).toUInt8, context.lengthLow.toUInt8]

/-- The length goes to the end of the block. -/
def SHA1Context.putLength (context : SHA1Context) : SHA1Context :=
  { context with
    messageBlock := context.messageBlock.take 56 ++ context.lengthBytes
    size := by simp [context.size, SHA1Context.lengthBytes] }

/-- `SHA1PadMessage`. -/
def sha1PadMessage (context : SHA1Context) : SHA1Context :=
  let context :=
    if context.messageBlockIndex > 55 then
      (sha1ProcessMessageBlock ((context.put 0x80).zeros 64)).zeros 56
    else (context.put 0x80).zeros 56
  sha1ProcessMessageBlock context.putLength

/-- `SHA1Result`. -/
def sha1Result (context : SHA1Context) : Int × SHA1Context :=
  if context.corrupted then (0, context)
  else if context.computed then (1, context)
  else (1, { sha1PadMessage context with computed := true })

/-! ## The compression function -/

@[simp] theorem and_allOnes (x : UInt32) : x &&& 0xFFFFFFFF = x := by
  apply UInt32.toBitVec_inj.mp
  exact BitVec.and_allOnes

theorem sha1CircularShift_eq (bits word : UInt32) :
    sha1CircularShift bits word = Sha1.rotl bits word := by
  rw [sha1CircularShift, and_allOnes, Sha1.rotl]

theorem sha1Word_eq (block : Bytes) (t : Nat) : sha1Word block t = Sha1.wordAt block t := by
  rw [sha1Word, Sha1.wordAt, Nat.mul_comm]

theorem getD_schedule {block : Bytes} {n t : Nat} (inside : t < n) :
    ((List.range' 0 n).map (schedule block)).getD t 0 = schedule block t := by
  simp [List.getD_eq_getElem?_getD, inside]

/-- The array holds the words of the schedule. -/
theorem sha1Words_eq (block : Bytes) :
    sha1Words block = (List.range' 0 80).map (schedule block) := by
  have first : (List.range' 0 16).map (sha1Word block) =
      (List.range' 0 16).map (schedule block) := by
    apply List.map_congr_left
    intro t member
    rw [sha1Word_eq, schedule, if_pos (by simpa using member)]
  have extended (k : Nat) :
      (List.range' 16 k).foldl
        (fun w t => w ++ [sha1CircularShift 1 (w.getD (t - 3) 0 ^^^ w.getD (t - 8) 0 ^^^
          w.getD (t - 14) 0 ^^^ w.getD (t - 16) 0)])
        ((List.range' 0 16).map (schedule block)) =
      (List.range' 0 (16 + k)).map (schedule block) := by
    induction k with
    | zero => rfl
    | succ k ih =>
        rw [List.range'_1_concat (s := 16), List.foldl_append, ih, ← Nat.add_assoc,
          List.range'_1_concat (s := 0), List.map_append, Nat.zero_add]
        simp only [List.foldl_cons, List.foldl_nil, List.map_cons, List.map_nil]
        rw [getD_schedule (by omega), getD_schedule (by omega), getD_schedule (by omega),
          getD_schedule (by omega), sha1CircularShift_eq]
        conv_rhs => rw [schedule, if_neg (by omega)]
  rw [sha1Words, first]
  exact extended 64

/-- The turns of one loop are rounds. -/
theorem foldl_sha1Turn {block : Bytes} {logic : UInt32 → UInt32 → UInt32 → UInt32} {k : UInt32}
    {first : Nat} (words : Words) (inside : first + 20 ≤ 80)
    (same : ∀ t, first ≤ t → t < first + 20 →
      logic = Sha1.logic t ∧ k = Sha1.constant t) :
    (List.range' first 20).foldl (sha1Turn (sha1Words block) logic k) words =
      (List.range' first 20).foldl (Sha1.round block) words := by
  apply List.foldl_ext
  intro w t member
  rw [List.mem_range'_1] at member
  obtain ⟨rfl, rfl⟩ := same t member.1 member.2
  rw [sha1Turn, Sha1.round, sha1Words_eq, getD_schedule (by omega), and_allOnes,
    sha1CircularShift_eq, sha1CircularShift_eq]

/-- `SHA1ProcessMessageBlock` compresses its block. -/
theorem sha1ProcessMessageBlock_eq (context : SHA1Context) :
    sha1ProcessMessageBlock context =
      { context with
        messageDigest := compress context.messageDigest context.messageBlock
        messageBlockIndex := 0 } := by
  have rounds : List.range 80 =
      List.range' 0 20 ++ List.range' 20 20 ++ List.range' 40 20 ++ List.range' 60 20 := by
    decide
  rw [sha1ProcessMessageBlock, compress, rounds]
  simp only [List.foldl_append, and_allOnes]
  rw [foldl_sha1Turn _ (by decide), foldl_sha1Turn _ (by decide), foldl_sha1Turn _ (by decide),
    foldl_sha1Turn _ (by decide)]
  all_goals
    intro t least less
    refine ⟨?_, ?_⟩
    · funext b c d
      grind [Sha1.logic]
    · grind [Sha1.constant]

/-! ## The block that is being filled -/

/-- The bytes of the block so far. -/
def SHA1Context.filled (context : SHA1Context) : Bytes :=
  context.messageBlock.take context.messageBlockIndex

theorem SHA1Context.length_filled {context : SHA1Context}
    (inside : context.messageBlockIndex ≤ 64) :
    context.filled.length = context.messageBlockIndex := by
  rw [SHA1Context.filled, List.length_take, context.size, Nat.min_eq_left inside]

theorem SHA1Context.filled_whole {context : SHA1Context}
    (full : context.messageBlockIndex = 64) : context.filled = context.messageBlock := by
  rw [SHA1Context.filled, full, ← context.size, List.take_length]

theorem SHA1Context.filled_put {context : SHA1Context} {c : UInt8}
    (inside : context.messageBlockIndex < 64) : (context.put c).filled = context.filled ++ [c] := by
  have bound : context.messageBlockIndex < context.messageBlock.length := by
    rw [context.size]
    exact inside
  simp only [SHA1Context.filled, SHA1Context.put]
  rw [List.take_add_one, List.take_set_of_le (Nat.le_refl _), List.getElem?_set_self bound]
  rfl

@[simp] theorem SHA1Context.put_messageDigest (context : SHA1Context) (c : UInt8) :
    (context.put c).messageDigest = context.messageDigest := rfl

/-- Zeros up to a place in the block. -/
theorem SHA1Context.zeros_spec {limit : Nat} {context : SHA1Context}
    (inside : context.messageBlockIndex ≤ limit) (bound : limit ≤ 64) :
    (context.zeros limit).messageDigest = context.messageDigest ∧
      (context.zeros limit).messageBlockIndex = limit ∧
      (context.zeros limit).lengthBytes = context.lengthBytes ∧
      (context.zeros limit).corrupted = context.corrupted ∧
      (context.zeros limit).filled =
        context.filled ++ List.replicate (limit - context.messageBlockIndex) 0 := by
  rw [SHA1Context.zeros]
  generalize count : limit - context.messageBlockIndex = n
  induction n generalizing context with
  | zero => exact ⟨rfl, by show context.messageBlockIndex = limit; omega, rfl, rfl, by simp⟩
  | succ n ih =>
      rw [Function.iterate_succ_apply]
      have less : context.messageBlockIndex < 64 := by omega
      obtain ⟨digest, index, length, corrupted, filled⟩ := @ih (context.put 0)
        (by show context.messageBlockIndex + 1 ≤ limit; omega)
        (by show limit - (context.messageBlockIndex + 1) = n; omega)
      refine ⟨digest, index, length, corrupted, ?_⟩
      rw [filled, filled_put less, List.append_assoc, List.replicate_succ]
      rfl

/-- `message` has been put in, and no result asked for. -/
structure Absorbed (context : SHA1Context) (message : Bytes) : Prop where
  buffered : Buffered compress 64 Sha1.initial message context.messageDigest context.filled
  inside : context.messageBlockIndex < 64
  length : context.lengthHigh.toNat * 2 ^ 32 + context.lengthLow.toNat = 8 * message.length
  computed : context.computed = false
  corrupted : context.corrupted = false

theorem absorbed_reset (old : SHA1Context) : Absorbed (sha1Reset old) [] := by
  refine ⟨?_, Nat.zero_lt_succ 63, by simp [sha1Reset], rfl, rfl⟩
  have empty : (sha1Reset old).filled = [] := rfl
  rw [empty]
  exact .nil (by decide)

/-- The length counts on until it leaves its 64 bits. -/
theorem SHA1Context.lengthen_spec {context : SHA1Context} {n : Nat}
    (length : context.lengthHigh.toNat * 2 ^ 32 + context.lengthLow.toNat = 8 * n) :
    ∃ low high corrupted,
      context.lengthen =
        { context with lengthLow := low, lengthHigh := high, corrupted := corrupted } ∧
      (corrupted = true ↔ context.corrupted = true ∨ n + 1 = 2 ^ 61) ∧
      (n + 1 < 2 ^ 61 → high.toNat * 2 ^ 32 + low.toNat = 8 * (n + 1)) := by
  have lowValue : (context.lengthLow + 8).toNat = (context.lengthLow.toNat + 8) % 2 ^ 32 :=
    UInt32.toNat_add _ 8
  have highValue : (context.lengthHigh + 1).toNat = (context.lengthHigh.toNat + 1) % 2 ^ 32 :=
    UInt32.toNat_add _ 1
  have none : (0 : UInt32).toNat = 0 := rfl
  have lowBound := context.lengthLow.toNat_lt
  have highBound := context.lengthHigh.toNat_lt
  simp only [SHA1Context.lengthen, and_allOnes]
  split
  · next wraps =>
      rw [← UInt32.toNat_inj, lowValue, none] at wraps
      refine ⟨_, _, _, rfl, ?_, ?_⟩
      · rw [Bool.or_eq_true, beq_iff_eq, ← UInt32.toNat_inj, highValue, none]
        refine or_congr Iff.rfl ?_
        omega
      · intro less
        have fits : context.lengthHigh.toNat + 1 < 2 ^ 32 := by omega
        rw [highValue, lowValue, wraps, Nat.mod_eq_of_lt fits, Nat.add_zero]
        omega
  · next counts =>
      rw [← UInt32.toNat_inj, lowValue, none] at counts
      refine ⟨_, _, context.corrupted, rfl, ?_, ?_⟩
      · refine ⟨.inl, fun either => either.resolve_right ?_⟩
        omega
      · intro less
        rw [lowValue]
        omega

/-- A byte is put in, unless it is the one that is too many. -/
theorem Absorbed.byte {context : SHA1Context} {message : Bytes}
    (absorbed : Absorbed context message) (c : UInt8) :
    ((sha1Byte context c).corrupted = true ↔ message.length + 1 = 2 ^ 61) ∧
      (message.length + 1 < 2 ^ 61 → Absorbed (sha1Byte context c) (message ++ [c])) := by
  obtain ⟨buffered, inside, length, computed, corrupted⟩ := absorbed
  have filled := @SHA1Context.filled_put context c inside
  have count : (context.filled ++ [c]).length = context.messageBlockIndex + 1 := by
    rw [List.length_append, SHA1Context.length_filled inside.le]
    rfl
  have size : (message ++ [c]).length = message.length + 1 := List.length_append
  obtain ⟨low, high, broken, lengthened, breaks, counts⟩ := (context.put c).lengthen_spec length
  have breaks : broken = true ↔ message.length + 1 = 2 ^ 61 := by
    rw [breaks]
    exact or_iff_right (by simp [SHA1Context.put, corrupted])
  rw [sha1Byte, lengthened]
  dsimp only
  split
  · next full =>
      have whole : context.filled ++ [c] = (context.put c).messageBlock := by
        rw [← filled]
        exact SHA1Context.filled_whole full
      rw [sha1ProcessMessageBlock_eq]
      refine ⟨breaks, fun less => ⟨?_, Nat.zero_lt_succ 63, ?_, computed, ?_⟩⟩
      · have folded := buffered.fill (count.trans full)
        rw [whole] at folded
        exact folded
      · rw [size]
        exact counts less
      · exact Bool.eq_false_iff.mpr fun corrupt => by
          have := breaks.mp corrupt
          omega
  · next room =>
      have inside' : context.messageBlockIndex + 1 < 64 := by
        have : context.messageBlockIndex + 1 ≠ 64 := room
        omega
      refine ⟨breaks, fun less => ⟨?_, inside', ?_, computed, ?_⟩⟩
      · have kept := buffered.keep (count.trans_lt inside')
        rw [← filled] at kept
        exact kept
      · rw [size]
        exact counts less
      · exact Bool.eq_false_iff.mpr fun corrupt => by
          have := breaks.mp corrupt
          omega

/-- The message is shorter than its length field lets it be. -/
theorem Absorbed.short {context : SHA1Context} {message : Bytes}
    (absorbed : Absorbed context message) : message.length < 2 ^ 61 := by
  have low := context.lengthLow.toNat_lt
  have high := context.lengthHigh.toNat_lt
  have length := absorbed.length
  omega

theorem sha1Loop_corrupted {context : SHA1Context} (corrupted : context.corrupted = true)
    (message : Bytes) : sha1Loop message context = context := by
  cases message with
  | nil => rfl
  | cons c message => rw [sha1Loop, if_pos corrupted]

/-- A message is put in, or the context is corrupted. -/
theorem Absorbed.loop {context : SHA1Context} {before : Bytes} (message : Bytes)
    (absorbed : Absorbed context before) :
    (2 ^ 61 ≤ (before ++ message).length → (sha1Loop message context).corrupted = true) ∧
      ((before ++ message).length < 2 ^ 61 →
        Absorbed (sha1Loop message context) (before ++ message)) := by
  induction message generalizing context before with
  | nil =>
      rw [List.append_nil]
      exact ⟨fun long => absurd absorbed.short (Nat.not_lt.mpr long), fun _ => absorbed⟩
  | cons c message ih =>
      obtain ⟨breaks, keeps⟩ := absorbed.byte c
      have short := absorbed.short
      rw [sha1Loop, if_neg (by simp [absorbed.corrupted])]
      by_cases last : before.length + 1 = 2 ^ 61
      · have broken := breaks.mpr last
        rw [sha1Loop_corrupted broken]
        refine ⟨fun _ => broken, fun less => ?_⟩
        rw [List.length_append, List.length_cons] at less
        omega
      · have later := ih (keeps (by omega))
        rw [List.append_assoc, List.singleton_append] at later
        exact later

/-! ## Padding -/

/-- The eight bytes are the length, most significant first. -/
theorem SHA1Context.lengthBytes_eq {context : SHA1Context} {n : Nat}
    (length : context.lengthHigh.toNat * 2 ^ 32 + context.lengthLow.toNat = n) :
    context.lengthBytes = bytesOf64 n := by
  have low := context.lengthLow.toNat_lt
  rw [SHA1Context.lengthBytes, bytesOf64]
  simp only [List.cons.injEq, ← UInt8.toNat_inj, UInt32.toNat_toUInt8, UInt32.toNat_shiftRight,
    UInt8.toNat_ofNat', Nat.shiftRight_eq_div_pow, UInt32.reduceToNat, Nat.reduceMod]
  refine ⟨?_, ?_, ?_, ?_, ?_, ?_, ?_, ?_, trivial⟩
  all_goals omega

/-- `context->Message_Block[context->Message_Block_Index++] = 0x80;` and the zeros after it. -/
theorem SHA1Context.filled_padding {context : SHA1Context} {limit : Nat}
    (inside : context.messageBlockIndex < limit) (bound : limit ≤ 64) :
    ((context.put 0x80).zeros limit).filled =
      context.filled ++ 0x80 :: List.replicate (limit - 1 - context.messageBlockIndex) 0 := by
  have one : (context.put 0x80).messageBlockIndex = context.messageBlockIndex + 1 := rfl
  obtain ⟨-, -, -, -, filled⟩ := @zeros_spec limit (context.put 0x80) (by omega) bound
  have left : limit - 1 - context.messageBlockIndex =
      limit - (context.messageBlockIndex + 1) := by
    omega
  rw [filled, filled_put (by omega), one, left, List.append_assoc, List.singleton_append]

/-- The padding is in, but for the length. -/
structure Sha1Padded (context : SHA1Context) (message : Bytes) : Prop where
  buffered : Buffered compress 64 Sha1.initial
    (message ++ 0x80 :: List.replicate ((119 - message.length % 64) % 64) 0)
    context.messageDigest context.filled
  index : context.messageBlockIndex = 56
  bytes : context.lengthBytes = bytesOf64 (8 * message.length)
  corrupted : context.corrupted = false

theorem Absorbed.index {context : SHA1Context} {message : Bytes}
    (absorbed : Absorbed context message) :
    context.messageBlockIndex = message.length % 64 := by
  rw [← SHA1Context.length_filled absorbed.inside.le, absorbed.buffered.length_buf]

theorem SHA1Context.lengthBytes_folded (context : SHA1Context) (words : Words) (index : Nat) :
    { context with messageDigest := words, messageBlockIndex := index }.lengthBytes =
      context.lengthBytes := by
  simp only [SHA1Context.lengthBytes]

theorem Absorbed.bytes {context : SHA1Context} {message : Bytes}
    (absorbed : Absorbed context message) :
    context.lengthBytes = bytesOf64 (8 * message.length) :=
  SHA1Context.lengthBytes_eq absorbed.length

/-- The length has room in the block. -/
theorem Absorbed.padded_early {context : SHA1Context} {message : Bytes}
    (absorbed : Absorbed context message) (early : context.messageBlockIndex ≤ 55) :
    Sha1Padded ((context.put 0x80).zeros 56) message := by
  have index := absorbed.index
  have one : (context.put 0x80).messageBlockIndex = context.messageBlockIndex + 1 := rfl
  obtain ⟨digest, last, length, corrupted, -⟩ :=
    @SHA1Context.zeros_spec 56 (context.put 0x80) (by omega) (by omega)
  have filled := @SHA1Context.filled_padding context 56 (by omega) (by omega)
  have room : (context.filled ++
      0x80 :: List.replicate (55 - context.messageBlockIndex) 0).length < 64 := by
    rw [List.length_append, List.length_cons, List.length_replicate,
      SHA1Context.length_filled (by omega)]
    omega
  have zeros : (119 - message.length % 64) % 64 = 55 - context.messageBlockIndex := by omega
  refine ⟨?_, last, length.trans absorbed.bytes, corrupted.trans absorbed.corrupted⟩
  rw [filled, digest, zeros]
  exact absorbed.buffered.keep room

/-- The length goes to a block of its own. -/
theorem Absorbed.padded_late {context : SHA1Context} {message : Bytes}
    (absorbed : Absorbed context message) (late : 55 < context.messageBlockIndex) :
    Sha1Padded ((sha1ProcessMessageBlock ((context.put 0x80).zeros 64)).zeros 56) message := by
  have index := absorbed.index
  have inside := absorbed.inside
  have one : (context.put 0x80).messageBlockIndex = context.messageBlockIndex + 1 := rfl
  obtain ⟨digest, full, length, corrupted, -⟩ :=
    @SHA1Context.zeros_spec 64 (context.put 0x80) (by omega) (by omega)
  have filled := @SHA1Context.filled_padding context 64 inside (by omega)
  rw [SHA1Context.filled_whole full] at filled
  have count : (context.filled ++
      0x80 :: List.replicate (63 - context.messageBlockIndex) 0).length = 64 := by
    rw [List.length_append, List.length_cons, List.length_replicate,
      SHA1Context.length_filled inside.le]
    omega
  -- the first block is full and folded, nothing is kept
  have first := absorbed.buffered.fill count
  rw [← filled] at first
  rw [sha1ProcessMessageBlock_eq, digest, SHA1Context.put_messageDigest]
  generalize (context.put 0x80).zeros 64 = block at *
  obtain ⟨digest', last, length', corrupted', filled'⟩ :=
    @SHA1Context.zeros_spec 56 { block with
      messageDigest := compress context.messageDigest block.messageBlock
      messageBlockIndex := 0 } (Nat.zero_le _) (by omega)
  have zeros : (119 - message.length % 64) % 64 = 63 - context.messageBlockIndex + 56 := by omega
  refine ⟨?_, last, ?_, ?_⟩
  · have later := @Buffered.keep _ _ _ _ _ _ _ _ (List.replicate 56 0) first
      (by rw [List.nil_append, List.length_replicate]; omega)
    rw [List.append_assoc, List.cons_append, ← List.replicate_add, ← zeros] at later
    rw [filled', digest']
    exact later
  · rw [length', SHA1Context.lengthBytes_folded]
    exact length.trans absorbed.bytes
  · exact corrupted'.trans (corrupted.trans absorbed.corrupted)

/-- The length completes the last block. -/
theorem Sha1Padded.processed {context : SHA1Context} {message : Bytes}
    (padded : Sha1Padded context message) :
    (sha1ProcessMessageBlock context.putLength).messageDigest = digest message ∧
      (sha1ProcessMessageBlock context.putLength).corrupted = false := by
  obtain ⟨buffered, index, bytes, corrupted⟩ := padded
  have whole : context.putLength.messageBlock = context.filled ++ context.lengthBytes := by
    rw [SHA1Context.filled, index]
    rfl
  have full : (context.filled ++ context.lengthBytes).length = 64 := by
    rw [List.length_append, SHA1Context.length_filled (by omega), index]
    rfl
  rw [sha1ProcessMessageBlock_eq, digest, pad, ← bytes]
  refine ⟨?_, corrupted⟩
  show compress context.messageDigest context.putLength.messageBlock = _
  rw [whole]
  exact (buffered.fill full).eq_foldl

/-- `SHA1PadMessage` leaves the digest of what was put in. -/
theorem Absorbed.sha1PadMessage {context : SHA1Context} {message : Bytes}
    (absorbed : Absorbed context message) :
    (sha1PadMessage context).messageDigest = digest message ∧
      (sha1PadMessage context).corrupted = false := by
  rw [CompNet.Router.sha1PadMessage]
  split
  · next late => exact (absorbed.padded_late late).processed
  · next early => exact (absorbed.padded_early (Nat.le_of_not_lt early)).processed

/-! ## Any calls -/

/-- The calls on a context that has been reset. -/
inductive Sha1Call
  | input (message : Bytes)
  | result

def Sha1Call.exec (context : SHA1Context) : Sha1Call → SHA1Context
  | .input message => sha1Input message context
  | .result => (sha1Result context).2

/-- What a call puts in. -/
def Sha1Call.bytes : Sha1Call → Bytes
  | .input message => message
  | .result => []

/-- Nothing is put in once a result is asked for, and all of it is shorter than `2 ^ 61` bytes. -/
def Proper (calls : List Sha1Call) : Prop :=
  calls.Pairwise (fun first later => first = .result → later.bytes = []) ∧
    (calls.flatMap Sha1Call.bytes).length < 2 ^ 61

/-- Where the context is after `calls`. -/
inductive Outcome (calls : List Sha1Call) (context : SHA1Context) : Prop
  | broken (corrupted : context.corrupted = true) (improper : ¬ Proper calls)
  | done (corrupted : context.corrupted = false) (computed : context.computed = true)
      (proper : Proper calls) (asked : .result ∈ calls)
      (digested : context.messageDigest = digest (calls.flatMap Sha1Call.bytes))
  | going (none : .result ∉ calls) (absorbed : Absorbed context (calls.flatMap Sha1Call.bytes))

section Outcome

variable {calls : List Sha1Call} {context : SHA1Context}

theorem proper_append {call : Sha1Call} :
    Proper (calls ++ [call]) ↔ Proper calls ∧ (.result ∈ calls → call.bytes = []) ∧
      (calls.flatMap Sha1Call.bytes ++ call.bytes).length < 2 ^ 61 := by
  rw [Proper, Proper, List.pairwise_append, List.flatMap_append, List.flatMap_singleton]
  constructor
  · rintro ⟨⟨before, -, between⟩, short⟩
    refine ⟨⟨before, ?_⟩, fun asked => between _ asked _ (List.mem_singleton_self _) rfl, short⟩
    rw [List.length_append] at short
    exact Nat.lt_of_le_of_lt (Nat.le_add_right _ _) short
  · rintro ⟨⟨before, -⟩, between, short⟩
    refine ⟨⟨before, List.pairwise_singleton _ _, ?_⟩, short⟩
    rintro first member later here rfl
    rw [List.mem_singleton.mp here]
    exact between member

theorem proper_of_not_asked (none : .result ∉ calls)
    (short : (calls.flatMap Sha1Call.bytes).length < 2 ^ 61) : Proper calls :=
  ⟨List.pairwise_of_forall_mem_list fun _ member _ _ asked => absurd (asked ▸ member) none, short⟩

theorem proper_append_nil {call : Sha1Call} (empty : call.bytes = []) :
    Proper (calls ++ [call]) ↔ Proper calls := by
  rw [proper_append, empty, List.append_nil]
  exact ⟨fun proper => proper.1, fun proper => ⟨proper, fun _ => rfl, proper.2⟩⟩

/-- A call that puts nothing in and leaves the context as it is. -/
theorem Outcome.stay {call : Sha1Call} (empty : call.bytes = [])
    (none : .result ∉ calls → call ≠ .result) (outcome : Outcome calls context) :
    Outcome (calls ++ [call]) context := by
  have bytes : (calls ++ [call]).flatMap Sha1Call.bytes = calls.flatMap Sha1Call.bytes := by
    rw [List.flatMap_append, List.flatMap_singleton, empty, List.append_nil]
  cases outcome with
  | broken corrupted improper =>
      exact .broken corrupted ((proper_append_nil empty).not.mpr improper)
  | done corrupted computed proper asked digested =>
      exact .done corrupted computed ((proper_append_nil empty).mpr proper)
        (List.mem_append_left _ asked) (by rw [bytes]; exact digested)
  | going notAsked absorbed =>
      refine .going ?_ (by rw [bytes]; exact absorbed)
      intro asked
      rcases List.mem_append.mp asked with before | last
      · exact notAsked before
      · exact none notAsked (List.mem_singleton.mp last).symm

theorem Outcome.input (message : Bytes) (outcome : Outcome calls context) :
    Outcome (calls ++ [.input message]) (sha1Input message context) := by
  have bytes : (calls ++ [Sha1Call.input message]).flatMap Sha1Call.bytes =
      calls.flatMap Sha1Call.bytes ++ message := by
    rw [List.flatMap_append, List.flatMap_singleton]
    rfl
  rw [sha1Input]
  split
  · next empty => exact outcome.stay (List.isEmpty_iff.mp empty) (by simp)
  · next some =>
      have some : message ≠ [] := by simpa using some
      cases outcome with
      | broken corrupted improper =>
          rw [if_pos (by simp [corrupted])]
          exact .broken rfl fun proper => improper (proper_append.mp proper).1
      | done corrupted computed proper asked digested =>
          rw [if_pos (by simp [computed])]
          exact .broken rfl fun proper => some ((proper_append.mp proper).2.1 asked)
      | going none absorbed =>
          rw [if_neg (by simp [absorbed.computed, absorbed.corrupted])]
          obtain ⟨breaks, keeps⟩ := absorbed.loop message
          by_cases short : (calls.flatMap Sha1Call.bytes ++ message).length < 2 ^ 61
          · refine .going ?_ (by rw [bytes]; exact keeps short)
            simpa using none
          · refine .broken (breaks (Nat.le_of_not_lt short)) fun proper => ?_
            exact short (proper_append.mp proper).2.2

theorem Outcome.result (outcome : Outcome calls context) :
    Outcome (calls ++ [.result]) (sha1Result context).2 := by
  have bytes : (calls ++ [Sha1Call.result]).flatMap Sha1Call.bytes =
      calls.flatMap Sha1Call.bytes := by
    simp [Sha1Call.bytes]
  rw [sha1Result]
  split
  · next corrupted =>
      cases outcome with
      | broken _ improper => exact .broken corrupted ((proper_append_nil rfl).not.mpr improper)
      | done intact => exact absurd corrupted (by simp [intact])
      | going _ absorbed => exact absurd corrupted (by simp [absorbed.corrupted])
  · next intact =>
      split
      · next computed =>
          cases outcome with
          | broken corrupted => exact absurd corrupted intact
          | done corrupted computed proper asked digested =>
              exact Outcome.stay rfl (absurd asked)
                (.done corrupted computed proper asked digested)
          | going _ absorbed => exact absurd computed (by simp [absorbed.computed])
      · next fresh =>
          cases outcome with
          | broken corrupted => exact absurd corrupted intact
          | done _ computed => exact absurd computed fresh
          | going none absorbed =>
              obtain ⟨digested, corrupted⟩ := absorbed.sha1PadMessage
              refine .done corrupted rfl ?_ (List.mem_append_right _ (List.mem_singleton_self _)) ?_
              · exact (proper_append_nil rfl).mpr (proper_of_not_asked none absorbed.short)
              · rw [bytes]
                exact digested

end Outcome

theorem outcome_run {before : List Sha1Call} {context : SHA1Context} (calls : List Sha1Call)
    (outcome : Outcome before context) :
    Outcome (before ++ calls) (calls.foldl Sha1Call.exec context) := by
  induction calls generalizing before context with
  | nil =>
      rw [List.append_nil]
      exact outcome
  | cons call calls ih =>
      have step : Outcome (before ++ [call]) (call.exec context) := by
        cases call with
        | input message => exact outcome.input message
        | result => exact outcome.result
      have rest := ih step
      rw [List.append_assoc, List.singleton_append] at rest
      exact rest

theorem Outcome.sha1Result {calls : List Sha1Call} {context : SHA1Context}
    (outcome : Outcome calls context) :
    ((sha1Result context).1 = 1 ↔ Proper calls) ∧
      (Proper calls →
        (sha1Result context).2.messageDigest = digest (calls.flatMap Sha1Call.bytes)) := by
  rw [CompNet.Router.sha1Result]
  cases outcome with
  | broken corrupted improper =>
      rw [if_pos corrupted]
      exact ⟨⟨fun zero => absurd zero Int.zero_ne_one, fun proper => absurd proper improper⟩,
        fun proper => absurd proper improper⟩
  | done corrupted computed proper asked digested =>
      rw [if_neg (by simp [corrupted]), if_pos computed]
      exact ⟨⟨fun _ => proper, fun _ => rfl⟩, fun _ => digested⟩
  | going none absorbed =>
      rw [if_neg (by simp [absorbed.corrupted]), if_neg (by simp [absorbed.computed])]
      have proper := proper_of_not_asked none absorbed.short
      exact ⟨⟨fun _ => proper, fun _ => rfl⟩, fun _ => absorbed.sha1PadMessage.1⟩

theorem outcome_reset (old : SHA1Context) : Outcome [] (sha1Reset old) :=
  .going List.not_mem_nil (absorbed_reset old)

/-- `SHA1Result` succeeds exactly after proper calls, and then has the digest of all that they
put in, whatever the pieces. -/
theorem sha1Result_run (old : SHA1Context) (calls : List Sha1Call) :
    let context := calls.foldl Sha1Call.exec (sha1Reset old)
    ((sha1Result context).1 = 1 ↔ Proper calls) ∧
      (Proper calls →
        (sha1Result context).2.messageDigest = digest (calls.flatMap Sha1Call.bytes)) :=
  (outcome_run calls (outcome_reset old)).sha1Result

/-- The digest of `"abc"`. -/
example :
    (sha1Result (sha1Input [0x61, 0x62, 0x63] (sha1Reset
      ⟨Sha1.initial, 0, 0, List.replicate 64 0, rfl, 0, false, false⟩))).2.messageDigest =
      ⟨0xa9993e36, 0x4706816a, 0xba3e2571, 0x7850c26c, 0x9cd0d89d⟩ := by
  decide +kernel

end CompNet.Router
