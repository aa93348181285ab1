import CompNet.Lib.Command
import CompNet.Proxy.Parse

/-!
# What the request line parser accepts

The cuts `strtok_r` makes are followed through the buffer, part by part, and
come out as a description of the accepted lines in terms of the line alone
(`Accepts`).  It is then compared with the absolute-URI form (`AbsoluteUri`).
Every line of that form is accepted with its parts as fields; the converse
fails for two kinds of lines, and `Misread` names them: the address is the last
word of the line, so that the version is read behind the buffer, or the address
is not of the form but passes the tests.
-/

namespace CompNet.Proxy

open CompNet.Lib

/-! ## Steps of the parser -/

@[simp] theorem inBounds_some {α : Type} (a : α) : inBounds (some a) = .ok a := rfl
@[simp] theorem inBounds_none {α : Type} : inBounds (none : Option α) = .error .outOfBounds := rfl
@[simp] theorem orReject_some {α : Type} (a : α) : orReject (some a) = .ok a := rfl
@[simp] theorem orReject_none {α : Type} : orReject (none : Option α) = .error .rejected := rfl
@[simp] theorem rejectIf_true : rejectIf true = .error .rejected := rfl
@[simp] theorem rejectIf_false : rejectIf false = .ok () := rfl

theorem strlen_drop {mem str : Bytes} {s : Nat} (pre post : Bytes)
    (memory : mem = pre ++ str ++ 0 :: post) (start : s = pre.length) (clean : 0 ∉ str) :
    strlen mem s = .ok str.length := by
  rw [strlen, cstring_drop pre post memory start clean]
  rfl

/-- Inside a buffer that ends in a NUL every string ends. -/
theorem strlen_inside {mem : Bytes} {s : Nat} (le : s ≤ mem.length) :
    ∃ n, strlen (mem ++ [0]) s = .ok n := by
  have inside : 0 ∈ (mem ++ [0]).drop s := by
    rw [List.drop_append_of_le_length le]
    simp
  rw [strlen, cstring, if_pos inside]
  exact ⟨_, rfl⟩

/-! ## Words -/

section

variable {line lead method rest gap addr version : Bytes} {d e : UInt8}

theorem readWords_blank (clean : 0 ∉ line) (blank : ∀ c ∈ line, isSpace c = true) :
    readWords line = .error .rejected := by
  have cut : strtokR isSpace (line ++ [0]) 0 = _ := strtokR_blank [] [] rfl rfl clean blank
  simp [readWords, cut]

/-- A line that ends with its first word. -/
theorem readWords_one (clean : 0 ∉ line) (first : Token isSpace line lead method []) :
    readWords line = .error .rejected := by
  have cut : strtokR isSpace (line ++ [0]) 0 = _ := strtokR_last [] [] rfl rfl clean first
  have none : strtokR isSpace (line ++ [0]) (0 + line.length) = _ :=
    strtokR_blank line [] (show line ++ [0] = line ++ [] ++ 0 :: [] by simp) (by simp) (by simp)
      (by simp)
  simp only [readWords, cut, inBounds_some, ok_bind, orReject_some, none, orReject_none, error_bind]

/-- The buffer after the first word has been cut. -/
theorem cut_first (clean : 0 ∉ line) (first : Token isSpace line lead method (d :: rest)) :
    strtokR isSpace (line ++ [0]) 0 =
      some (lead ++ method ++ 0 :: (rest ++ [0]), some lead.length,
        (lead ++ method ++ [0]).length) := by
  have cut : strtokR isSpace (line ++ [0]) 0 = _ := strtokR_cut [] [] rfl rfl clean first
  rw [cut]
  simp [Nat.add_assoc]

/-- A line of one word and spaces. -/
theorem readWords_trailing (clean : 0 ∉ line)
    (first : Token isSpace line lead method (d :: rest)) (cleanRest : 0 ∉ rest)
    (blank : ∀ c ∈ rest, isSpace c = true) : readWords line = .error .rejected := by
  have none : strtokR isSpace (lead ++ method ++ 0 :: (rest ++ [0])) (lead ++ method ++ [0]).length
      = _ := strtokR_blank (lead ++ method ++ [0]) [] (by simp) rfl cleanRest blank
  simp only [readWords, cut_first clean first, inBounds_some, ok_bind, orReject_some, none,
    orReject_none, error_bind]

/-- The address is the last word: the version is read behind the buffer. -/
theorem readWords_last (clean : 0 ∉ line)
    (first : Token isSpace line lead method (d :: rest)) (cleanRest : 0 ∉ rest)
    (second : Token isSpace rest gap addr []) : readWords line = .error .outOfBounds := by
  have whole : rest = gap ++ addr := by simpa using second.split
  have cleanAddr : 0 ∉ addr := fun zero => cleanRest (by simp [whole, zero])
  have cut : strtokR isSpace (lead ++ method ++ 0 :: (rest ++ [0])) (lead ++ method ++ [0]).length
      = _ := strtokR_last (lead ++ method ++ [0]) [] (by simp) rfl cleanRest second
  have length : strlen (lead ++ method ++ 0 :: (rest ++ [0]))
      ((lead ++ method ++ [0]).length + gap.length) = .ok addr.length :=
    strlen_drop (lead ++ method ++ 0 :: gap) [] (by simp [whole]) (by simp; omega) cleanAddr
  have behind : (lead ++ method ++ 0 :: (rest ++ [0])).length ≤
      (lead ++ method ++ [0]).length + gap.length + addr.length + 1 := by
    simp [whole]
    omega
  have outside : cstring ((lead ++ method ++ 0 :: (rest ++ [0])).drop
      ((lead ++ method ++ [0]).length + gap.length + addr.length + 1)) = none := by
    rw [List.drop_eq_nil_of_le behind]
    rfl
  simp only [readWords, cut_first clean first, inBounds_some, ok_bind, orReject_some, cut, length,
    outside, inBounds_none, error_bind]

/-- The buffer of a line of at least three parts. -/
def wordsBuffer (lead method gap addr version : Bytes) : Bytes :=
  lead ++ method ++ 0 :: gap ++ addr ++ 0 :: version ++ [0]

/-- A line of at least three parts. -/
theorem readWords_three (clean : 0 ∉ line)
    (first : Token isSpace line lead method (d :: rest)) (cleanRest : 0 ∉ rest)
    (second : Token isSpace rest gap addr (e :: version)) :
    readWords line =
      if httpSlash.isPrefixOf version then
        .ok (wordsBuffer lead method gap addr version, lead.length,
          (lead ++ method ++ 0 :: gap).length, (lead ++ method ++ 0 :: gap ++ addr ++ [0]).length)
      else .error .rejected := by
  have whole : rest = gap ++ addr ++ e :: version := second.split
  have cleanAddr : 0 ∉ addr := fun zero => cleanRest (by simp [whole, zero])
  have cleanVersion : 0 ∉ version := fun zero => cleanRest (by simp [whole, zero])
  have buffer : (lead ++ method ++ [0]) ++ gap ++ addr ++ 0 :: (version ++ 0 :: []) =
      wordsBuffer lead method gap addr version := by simp [wordsBuffer]
  have offset : (lead ++ method ++ [0]).length + gap.length =
      (lead ++ method ++ 0 :: gap).length := by
    simp
    omega
  have cut : strtokR isSpace (lead ++ method ++ 0 :: (rest ++ [0])) (lead ++ method ++ [0]).length
      = _ := strtokR_cut (lead ++ method ++ [0]) [] (by simp) rfl cleanRest second
  rw [buffer, offset] at cut
  have length : strlen (wordsBuffer lead method gap addr version)
      (lead ++ method ++ 0 :: gap).length = .ok addr.length :=
    strlen_drop (lead ++ method ++ 0 :: gap) (version ++ [0]) (by simp [wordsBuffer]) rfl cleanAddr
  have stop : (lead ++ method ++ 0 :: gap).length + addr.length + 1 =
      (lead ++ method ++ 0 :: gap ++ addr ++ [0]).length := by
    simp only [List.length_append, List.length_cons, List.length_nil]
  have text : cstring ((wordsBuffer lead method gap addr version).drop
      (lead ++ method ++ 0 :: gap ++ addr ++ [0]).length) = some version :=
    cstring_drop (lead ++ method ++ 0 :: gap ++ addr ++ [0]) [] (by simp [wordsBuffer]) rfl
      cleanVersion
  simp only [readWords, cut_first clean first, inBounds_some, ok_bind, orReject_some, cut, length,
    stop, text]
  cases httpSlash.isPrefixOf version <;> simp

end

/-! ## Scheme and host part -/

/-- `abs_uri_len`, with what stands before the scheme, the scheme, the address
and the version: the length of the string three bytes behind the scheme's
length, which ends where the scheme ends, where the address ends, or where the
version ends. -/
def absUriLen (delims scheme addr version : Bytes) : Nat :=
  if 3 ≤ delims.length then delims.length - 3
  else if scheme.length + 3 ≤ addr.length then addr.length - scheme.length - 3
  else version.length

/-- In a URI that starts with its scheme the length is right. -/
theorem absUriLen_nil {scheme addr : Bytes} (version : Bytes)
    (fits : scheme.length + 3 ≤ addr.length) :
    absUriLen [] scheme addr version = addr.length - scheme.length - 3 := by
  rw [absUriLen, if_neg (by simp), if_pos fits]

section

variable {mem pre addr version delims scheme rest slashes hostPart : Bytes} {c : UInt8} {s : Nat}

/-- The buffer with the address at `s` and the version behind it. -/
structure AddressAt (mem : Bytes) (s : Nat) (pre addr version : Bytes) : Prop where
  memory : mem = pre ++ addr ++ 0 :: (version ++ [0])
  start : s = pre.length
  clean : 0 ∉ addr
  cleanVersion : 0 ∉ version
  http : httpSlash.isPrefixOf version = true

theorem AddressAt.version_length (at_ : AddressAt mem s pre addr version) : 5 ≤ version.length := by
  have starts := List.isPrefixOf_iff_prefix.mp at_.http
  exact starts.length_le

theorem readAuthority_blank (at_ : AddressAt mem s pre addr version)
    (blank : ∀ c ∈ addr, isColonOrSlash c = true) : readAuthority mem s = .error .rejected := by
  have none := strtokR_blank pre _ at_.memory at_.start at_.clean blank
  simp only [readAuthority, none, inBounds_some, ok_bind, orReject_none, error_bind]

/-- The address ends with its scheme. -/
theorem readAuthority_scheme (at_ : AddressAt mem s pre addr version)
    (token : Token isColonOrSlash addr delims scheme []) :
    readAuthority mem s = .error .rejected := by
  have whole : addr = delims ++ scheme := by simpa using token.split
  have cleanScheme : 0 ∉ scheme := fun zero => at_.clean (by simp [whole, zero])
  have cut := strtokR_last pre _ at_.memory at_.start at_.clean token
  have length : strlen mem (s + delims.length) = .ok scheme.length :=
    strlen_drop (pre ++ delims) (version ++ [0]) (by simp [at_.memory, whole])
      (by simp [at_.start]) cleanScheme
  have long := at_.version_length
  have ends : mem = (pre ++ addr ++ 0 :: version) ++ [0] := by simp [at_.memory]
  obtain ⟨n, behind⟩ : ∃ n, strlen mem (s + scheme.length + 3) = .ok n := by
    rw [ends]
    apply strlen_inside
    simp [at_.start, whole]
    omega
  have none : strtokR isSlash mem (s + addr.length) = _ :=
    strtokR_blank (pre ++ addr) (version ++ [0])
      (show mem = pre ++ addr ++ [] ++ 0 :: (version ++ [0]) by simp [at_.memory])
      (by simp [at_.start]) (by simp) (by simp)
  simp only [readAuthority, cut, inBounds_some, ok_bind, orReject_some, length, behind, none,
    orReject_none, error_bind]

/-- The buffer after the scheme has been cut. -/
def schemeBuffer (pre delims scheme rest version : Bytes) : Bytes :=
  pre ++ delims ++ scheme ++ 0 :: (rest ++ 0 :: (version ++ [0]))

/-- The length the parser takes for that of the rest of the URI. -/
theorem strlen_absUri (at_ : AddressAt mem s pre addr version)
    (token : Token isColonOrSlash addr delims scheme (c :: rest)) (some : rest ≠ []) :
    strlen (schemeBuffer pre delims scheme rest version) (s + scheme.length + 3) =
      .ok (absUriLen delims scheme addr version) := by
  have whole : addr = delims ++ scheme ++ c :: rest := token.split
  have clean : ∀ {text : Bytes}, (∀ c ∈ text, c ∈ addr) → 0 ∉ text :=
    fun inside zero => at_.clean (inside 0 zero)
  have length : addr.length = delims.length + scheme.length + (rest.length + 1) := by
    rw [whole]
    simp only [List.length_append, List.length_cons]
  have one : 1 ≤ rest.length := List.length_pos_iff.mpr some
  unfold absUriLen
  split
  · -- inside the delimiters and the scheme
    next three =>
      have cleanText : 0 ∉ (delims ++ scheme).drop (scheme.length + 3) := clean fun c member => by
        rw [whole]
        exact List.mem_append_left _ (List.mem_of_mem_drop member)
      have result : strlen (schemeBuffer pre delims scheme rest version) (s + scheme.length + 3) =
          .ok ((delims ++ scheme).drop (scheme.length + 3)).length :=
        strlen_drop (pre ++ (delims ++ scheme).take (scheme.length + 3))
          (rest ++ 0 :: (version ++ [0])) (by simp [schemeBuffer]) (by simp [at_.start]; omega)
          cleanText
      rw [result]
      simp
      omega
  · next few =>
      split
      · next fits =>
          have cleanText : 0 ∉ rest.drop (2 - delims.length) := clean fun c member => by
            rw [whole]
            simp [List.mem_of_mem_drop member]
          have result : strlen (schemeBuffer pre delims scheme rest version)
              (s + scheme.length + 3) = .ok (rest.drop (2 - delims.length)).length :=
            strlen_drop (pre ++ delims ++ scheme ++ 0 :: rest.take (2 - delims.length))
              (version ++ [0]) (by simp [schemeBuffer]) (by simp [at_.start]; omega) cleanText
          rw [result]
          simp
          omega
      · next past =>
          exact strlen_drop (pre ++ delims ++ scheme ++ 0 :: (rest ++ [0])) []
            (by simp [schemeBuffer]) (by simp [at_.start]; omega) at_.cleanVersion

/-- The buffer after the scheme has been cut, and the pointer behind the cut. -/
theorem cut_scheme (at_ : AddressAt mem s pre addr version)
    (token : Token isColonOrSlash addr delims scheme (c :: rest)) :
    strtokR isColonOrSlash mem s =
        some (schemeBuffer pre delims scheme rest version, some (pre ++ delims).length,
          (pre ++ delims ++ scheme ++ [0]).length) ∧
      strlen (schemeBuffer pre delims scheme rest version) (pre ++ delims).length =
        .ok scheme.length := by
  have whole : addr = delims ++ scheme ++ c :: rest := token.split
  have cleanScheme : 0 ∉ scheme := fun zero => at_.clean (by simp [whole, zero])
  have cut := strtokR_cut pre _ at_.memory at_.start at_.clean token
  refine ⟨?_, ?_⟩
  · rw [cut, at_.start]
    simp [schemeBuffer, Nat.add_assoc]
  · exact strlen_drop (pre ++ delims) _ rfl rfl cleanScheme

/-- No host behind the scheme. -/
theorem readAuthority_noHost (at_ : AddressAt mem s pre addr version)
    (token : Token isColonOrSlash addr delims scheme (c :: rest))
    (blank : ∀ c ∈ rest, isSlash c = true) : readAuthority mem s = .error .rejected := by
  have whole : addr = delims ++ scheme ++ c :: rest := token.split
  have cleanRest : 0 ∉ rest := fun zero => at_.clean (by simp [whole, zero])
  obtain ⟨cut, length⟩ := cut_scheme at_ token
  have long := at_.version_length
  obtain ⟨n, behind⟩ : ∃ n, strlen (schemeBuffer pre delims scheme rest version)
      (s + scheme.length + 3) = .ok n := by
    have ends : schemeBuffer pre delims scheme rest version =
        (pre ++ delims ++ scheme ++ 0 :: (rest ++ 0 :: version)) ++ [0] := by simp [schemeBuffer]
    rw [ends]
    apply strlen_inside
    simp [at_.start]
    omega
  have none : strtokR isSlash (schemeBuffer pre delims scheme rest version)
      (pre ++ delims ++ scheme ++ [0]).length = _ :=
    strtokR_blank (pre ++ delims ++ scheme ++ [0]) (version ++ [0]) (by simp [schemeBuffer]) rfl
      cleanRest blank
  simp only [readAuthority, cut, inBounds_some, ok_bind, orReject_some, length, behind, none,
    orReject_none, error_bind]

/-- The bytes behind the NUL of the host part: the path without its slash, if
there is one, and the version. -/
def pathBuffer (version : Bytes) : Bytes → Bytes
  | [] => version ++ [0]
  | _ :: text => text ++ 0 :: (version ++ [0])

/-- The host part has been found. -/
theorem readAuthority_host {path : Bytes} (at_ : AddressAt mem s pre addr version)
    (token : Token isColonOrSlash addr delims scheme (c :: rest))
    (host : Token isSlash rest slashes hostPart path) :
    readAuthority mem s =
      if hostPart.length = absUriLen delims scheme addr version then .error .rejected
      else
        .ok (pre ++ delims ++ scheme ++ 0 :: slashes ++ hostPart ++ 0 :: pathBuffer version path,
          (pre ++ delims).length, (pre ++ delims ++ scheme ++ 0 :: slashes).length,
          (pre ++ delims ++ scheme ++ 0 :: slashes ++ hostPart).length + min 1 path.length) := by
  have whole : addr = delims ++ scheme ++ c :: rest := token.split
  have parts : rest = slashes ++ hostPart ++ path := host.split
  have cleanRest : 0 ∉ rest := fun zero => at_.clean (by simp [whole, zero])
  have cleanHost : 0 ∉ hostPart := fun zero => cleanRest (by simp [parts, zero])
  have some : rest ≠ [] := by
    intro empty
    rw [empty] at parts
    exact host.nonempty (by simpa using (List.append_eq_nil_iff.mp
      (List.append_eq_nil_iff.mp parts.symm).1).2)
  obtain ⟨cut, length⟩ := cut_scheme at_ token
  have behind := strlen_absUri at_ token some
  have buffer : schemeBuffer pre delims scheme rest version =
      (pre ++ delims ++ scheme ++ [0]) ++ rest ++ 0 :: (version ++ [0]) := by simp [schemeBuffer]
  have offset : (pre ++ delims ++ scheme ++ [0]).length + slashes.length =
      (pre ++ delims ++ scheme ++ 0 :: slashes).length := by
    simp
    omega
  have found : strtokR isSlash (schemeBuffer pre delims scheme rest version)
      (pre ++ delims ++ scheme ++ [0]).length =
      .some (pre ++ delims ++ scheme ++ 0 :: slashes ++ hostPart ++ 0 :: pathBuffer version path,
        .some (pre ++ delims ++ scheme ++ 0 :: slashes).length,
        (pre ++ delims ++ scheme ++ 0 :: slashes ++ hostPart).length + min 1 path.length) := by
    cases path with
    | nil =>
        rw [strtokR_last _ _ buffer rfl cleanRest host, offset]
        simp [schemeBuffer, pathBuffer, parts]
        omega
    | cons d text =>
        rw [strtokR_cut _ _ buffer rfl cleanRest host, offset]
        simp [pathBuffer]
        omega
  have hostLength : strlen (pre ++ delims ++ scheme ++ 0 :: slashes ++ hostPart ++
      0 :: pathBuffer version path) (pre ++ delims ++ scheme ++ 0 :: slashes).length =
      .ok hostPart.length :=
    strlen_drop (pre ++ delims ++ scheme ++ 0 :: slashes)
      (pathBuffer version path) rfl rfl cleanHost
  simp only [readAuthority, cut, inBounds_some, ok_bind, orReject_some, length, behind, found,
    hostLength]
  by_cases same : hostPart.length = absUriLen delims scheme addr version
  · simp [same]
  · rw [if_neg same, beq_false_of_ne same, rejectIf_false, ok_bind, pure_eq_ok]

end

/-! ## Path -/

/-- The path that is stored for what stands behind the host part. -/
def storedPath : Bytes → Bytes
  | [] => [slash]
  | _ :: text => slash :: text

/-- A path that starts with two slashes. -/
def doubleSlash : Bytes → Bool
  | _ :: c :: _ => isSlash c
  | _ => false

theorem readPath_spec {base version path : Bytes} (cleanPath : 0 ∉ path)
    (oneWord : ∀ c ∈ path, isSpace c = false) :
    readPath (base ++ 0 :: pathBuffer version path) (base.length + min 1 path.length) =
      if doubleSlash path then .error .rejected
      else .ok (base ++ 0 :: pathBuffer version path, storedPath path) := by
  cases path with
  | nil =>
      have none : strtokR isSpace (base ++ 0 :: pathBuffer version [])
        (base.length + min 1 0) = _ :=
        strtokR_blank base (version ++ [0])
          (show base ++ 0 :: pathBuffer version [] = base ++ [] ++ 0 :: (version ++ [0]) by
            simp [pathBuffer]) (by simp) (by simp) (by simp)
      simp only [readPath, List.length_nil, none, inBounds_some, ok_bind, copyPath]
      rfl
  | cons d text =>
      have cleanText : 0 ∉ text := fun zero => cleanPath (by simp [zero])
      have start : base.length + min 1 (d :: text).length = (base ++ [0]).length := by simp
      have memory : base ++ 0 :: pathBuffer version (d :: text) =
          (base ++ [0]) ++ text ++ 0 :: (version ++ [0]) := by simp [pathBuffer]
      cases text with
      | nil =>
          have none : strtokR isSpace (base ++ 0 :: pathBuffer version [d])
              (base.length + min 1 [d].length) = _ :=
            strtokR_blank (base ++ [0]) (version ++ [0]) memory start cleanText (by simp)
          simp only [readPath, none, inBounds_some, ok_bind, copyPath]
          rfl
      | cons c text =>
          have token : Token isSpace (c :: text) [] (c :: text) [] :=
            ⟨by simp, by simp, by simp, fun c member => oneWord c (List.mem_cons_of_mem d member),
              by simp⟩
          have found := strtokR_last (base ++ [0]) (version ++ [0]) memory start cleanText token
          have read : cstring ((base ++ 0 :: pathBuffer version (d :: c :: text)).drop
              (base.length + min 1 (d :: c :: text).length)) = some (c :: text) :=
            cstring_drop (base ++ [0]) (version ++ [0]) memory start cleanText
          simp only [readPath, found, inBounds_some, ok_bind, copyPath, List.length_nil,
            Nat.add_zero, read, List.head?_cons, doubleSlash, storedPath]
          by_cases double : c = slash
          · simp [double, isSlash]
          · have single : (some c == some slash) = false := by simp [double]
            simp [single, isSlash, double]

/-! ## Host and port -/

section

variable {mem base hostPart post colons host behind : Bytes} {s : Nat}

/-- The port that the test finds bad: an `int` that is 0 while `errno` is `EINVAL`. -/
def portBad (errno : Errno) : Option Bytes → Bool
  | none => false
  | some text => (strtol errno text).1 % 2 ^ 32 == 0 && (strtol errno text).2 == .einval

theorem clampLong_errno (value : Int) : (clampLong .other value).2 = .other := by
  unfold clampLong
  split
  · rfl
  · split <;> rfl

/-- Without `EINVAL` to begin with the port is never found bad. -/
theorem portBad_other (port : Option Bytes) : portBad .other port = false := by
  cases port with
  | none => rfl
  | some text =>
      have fine : (strtol .other text).2 = .other := clampLong_errno _
      rw [portBad, fine, show (Errno.other == Errno.einval) = false from rfl, Bool.and_false]

theorem checkPort_some {errno : Errno} {p : Nat} {text : Bytes}
    (read : cstring (mem.drop p) = some text) :
    checkPort errno mem (some p) = rejectIf (portBad errno (some text)) := by
  simp only [checkPort, read, inBounds_some, ok_bind, portBad]

/-- Nothing but colons. -/
theorem readHostPort_blank {errno : Errno} (memory : mem = base ++ hostPart ++ 0 :: post)
    (start : s = base.length) (clean : 0 ∉ hostPart) (blank : ∀ c ∈ hostPart, isColon c = true) :
    readHostPort errno mem s = .error .rejected := by
  have none := strtokR_blank base post memory start clean blank
  have noPort : strtokR isSlash mem (s + hostPart.length) = _ :=
    strtokR_blank (base ++ hostPart) post
      (show mem = base ++ hostPart ++ [] ++ 0 :: post by simp [memory]) (by simp [start])
      (by simp) (by simp)
  simp only [readHostPort, none, inBounds_some, ok_bind, noPort, orReject_none, error_bind]

/-- The bytes behind the NUL of the host: the port without its colon, if there is
a colon, and what follows. -/
def portBuffer (post : Bytes) : Bytes → Bytes
  | [] => post
  | _ :: text => text ++ 0 :: post

/-- The port that is stored for what stands behind the host. -/
def storedPort : Bytes → Option Bytes
  | _ :: c :: text => some (c :: text)
  | _ => none

theorem readHostPort_spec {errno : Errno} (memory : mem = base ++ hostPart ++ 0 :: post)
    (start : s = base.length) (clean : 0 ∉ hostPart) (noSlash : ∀ c ∈ hostPart, isSlash c = false)
    (token : Token isColon hostPart colons host behind) :
    readHostPort errno mem s =
      if portBad errno (storedPort behind) then .error .rejected
      else .ok (base ++ colons ++ host ++ 0 :: portBuffer post behind, (base ++ colons).length,
        (storedPort behind).map fun _ => (base ++ colons ++ host ++ [0]).length) := by
  have whole : hostPart = colons ++ host ++ behind := token.split
  have offset : s + colons.length = (base ++ colons).length := by simp [start]
  cases behind with
  | nil =>
      have found := strtokR_last base post memory start clean token
      have noPort : strtokR isSlash mem (s + hostPart.length) = _ :=
        strtokR_blank (base ++ hostPart) post
          (show mem = base ++ hostPart ++ [] ++ 0 :: post by simp [memory]) (by simp [start])
          (by simp) (by simp)
      simp only [readHostPort, found, inBounds_some, ok_bind, noPort, orReject_some, checkPort,
        offset, storedPort, portBuffer]
      simp [memory, whole, portBad]
  | cons d text =>
      have found := strtokR_cut base post memory start clean token
      have cleanText : 0 ∉ text := fun zero => clean (by simp [whole, zero])
      have buffer : base ++ colons ++ host ++ 0 :: (text ++ 0 :: post) =
          (base ++ colons ++ host ++ [0]) ++ text ++ 0 :: post := by simp
      have save : s + colons.length + host.length + 1 = (base ++ colons ++ host ++ [0]).length := by
        simp only [start, List.length_append, List.length_cons, List.length_nil]
      rw [save, offset] at found
      cases text with
      | nil =>
          have noPort : strtokR isSlash (base ++ colons ++ host ++ 0 :: ([] ++ 0 :: post))
              (base ++ colons ++ host ++ [0]).length = _ :=
            strtokR_blank _ post buffer rfl cleanText (by simp)
          simp only [readHostPort, found, inBounds_some, ok_bind, noPort, orReject_some, checkPort,
            storedPort, portBuffer]
          rfl
      | cons c text =>
          have port : Token isSlash (c :: text) [] (c :: text) [] := by
            refine ⟨by simp, by simp, by simp, ?_, by simp⟩
            intro c member
            exact noSlash c (by rw [whole]; simp [List.mem_cons_of_mem d member])
          have cut := strtokR_last _ post buffer rfl cleanText port
          have read := cstring_drop _ post buffer rfl cleanText
          rw [List.length_nil, Nat.add_zero] at cut
          simp only [readHostPort, found, inBounds_some, ok_bind, cut, orReject_some,
            checkPort_some read, storedPort, portBuffer]
          by_cases bad : portBad errno (some (c :: text)) = true
          · simp [bad, rejectIf]
          · simp [bad, rejectIf]

end

/-! ## Whole lines -/

/-- The pieces the cuts leave of an accepted line, in the order in which they
stand in it. -/
structure Pieces where
  lead : Bytes
  method : Bytes
  gap : Bytes
  delims : Bytes
  scheme : Bytes
  separator : UInt8
  slashes : Bytes
  colons : Bytes
  host : Bytes
  behindHost : Bytes
  path : Bytes
  version : Bytes

def Pieces.hostPart (p : Pieces) : Bytes := p.colons ++ p.host ++ p.behindHost

def Pieces.rest (p : Pieces) : Bytes := p.slashes ++ p.hostPart ++ p.path

def Pieces.addr (p : Pieces) : Bytes := p.delims ++ p.scheme ++ p.separator :: p.rest

def Pieces.line (p : Pieces) : Bytes :=
  p.lead ++ p.method ++ space :: (p.gap ++ p.addr ++ space :: p.version)

/-- What the parser stores. -/
def Pieces.fields (p : Pieces) : Fields where
  method := p.method
  protocol := p.scheme
  host := p.host
  port := storedPort p.behindHost
  path := storedPath p.path
  version := p.version

/-- The cuts fall where the pieces meet, and the tests pass. -/
structure Pieces.WellCut (p : Pieces) : Prop where
  words : Token isSpace p.line p.lead p.method (space :: (p.gap ++ p.addr ++ space :: p.version))
  address : Token isSpace (p.gap ++ p.addr ++ space :: p.version) p.gap p.addr (space :: p.version)
  scheme : Token isColonOrSlash p.addr p.delims p.scheme (p.separator :: p.rest)
  hostPart : Token isSlash p.rest p.slashes p.hostPart p.path
  host : Token isColon p.hostPart p.colons p.host p.behindHost
  http : httpSlash.isPrefixOf p.version = true
  absolute : p.hostPart.length ≠ absUriLen p.delims p.scheme p.addr p.version
  single : doubleSlash p.path = false

/-- The line's address is its last word. -/
def AddressLast (line : Bytes) : Prop :=
  ∃ lead method gap addr, line = lead ++ method ++ gap ++ addr ∧
    (∀ c ∈ lead ++ gap, c = space) ∧ (∀ c ∈ method ++ addr, c ≠ space) ∧
    method ≠ [] ∧ gap ≠ [] ∧ addr ≠ []

/-- A request line that is accepted: it is cut into pieces that pass the tests, and its port is
not found bad. -/
def GoodLine (errno : Errno) (line : Bytes) : Prop :=
  ∃ p : Pieces, p.WellCut ∧ p.line = line ∧ portBad errno (storedPort p.behindHost) = false

theorem isSpace_eq_true {c : UInt8} : isSpace c = true ↔ c = space := by simp [isSpace]
theorem isSpace_eq_false {c : UInt8} : isSpace c = false ↔ c ≠ space := by simp [isSpace]

theorem parseRequestLine_addressLast {errno : Errno} {line : Bytes} (clean : 0 ∉ line)
    (last : AddressLast line) : parseRequestLine errno line = .error .outOfBounds := by
  obtain ⟨lead, method, gap, addr, whole, spaces, words, someMethod, someGap, someAddr⟩ := last
  obtain ⟨d, gap, rfl⟩ := List.exists_cons_of_ne_nil someGap
  have isDelim : ∀ c ∈ lead ++ d :: gap, isSpace c = true :=
    fun c member => isSpace_eq_true.mpr (spaces c member)
  have isChar : ∀ c ∈ method ++ addr, isSpace c = false :=
    fun c member => isSpace_eq_false.mpr (words c member)
  have first : Token isSpace line lead method (d :: (gap ++ addr)) := by
    refine ⟨by simp [whole], fun c member => isDelim c (by simp [member]), someMethod,
      fun c member => isChar c (by simp [member]), ?_⟩
    intro c rest same
    exact isDelim c (by simp [(List.cons.inj same).1])
  have second : Token isSpace (gap ++ addr) gap addr [] := by
    refine ⟨by simp, fun c member => isDelim c (by simp [member]), someAddr,
      fun c member => isChar c (by simp [member]), ?_⟩
    intro c rest same
    cases same
  have cleanRest : 0 ∉ gap ++ addr := by
    intro zero
    apply clean
    rw [whole]
    rcases List.mem_append.mp zero with h | h <;> simp [h]
  simp only [parseRequestLine, readWords_last clean first cleanRest second, error_bind]

/-- What stands before the scheme's end in the buffer: the part that is not cut
any more. -/
def Pieces.front (p : Pieces) : Bytes :=
  p.lead ++ p.method ++ 0 :: p.gap ++ p.delims ++ p.scheme ++ 0 :: p.slashes

/-- The buffer after all cuts. -/
def Pieces.buffer (p : Pieces) : Bytes :=
  p.front ++ p.colons ++ p.host ++ 0 :: portBuffer (pathBuffer p.version p.path) p.behindHost

/-- The pointers into it. -/
def Pieces.requestLine (p : Pieces) : RequestLine where
  mem := p.buffer
  method := p.lead.length
  protocol := (p.lead ++ p.method ++ 0 :: p.gap ++ p.delims).length
  host := (p.front ++ p.colons).length
  port := (storedPort p.behindHost).map fun _ => (p.front ++ p.colons ++ p.host ++ [0]).length
  path := storedPath p.path
  version := (p.lead ++ p.method ++ 0 :: p.gap ++ p.addr ++ [0]).length

/-- An accepted line is cut into its pieces. -/
theorem parseRequestLine_pieces {errno : Errno} {p : Pieces} (clean : 0 ∉ p.line)
    (cut : p.WellCut) (fine : portBad errno (storedPort p.behindHost) = false) :
    parseRequestLine errno p.line = .ok p.requestLine := by
  have cleanRest : 0 ∉ p.gap ++ p.addr ++ space :: p.version :=
    fun zero => clean
      (by rw [Pieces.line]; exact List.mem_append_right _ (List.mem_cons_of_mem _ zero))
  have cleanAddr : 0 ∉ p.addr := fun zero => cleanRest (by simp [zero])
  have cleanVersion : 0 ∉ p.version := fun zero => cleanRest (by simp [zero])
  have cleanHostPart : 0 ∉ p.hostPart :=
    fun zero => cleanAddr (by simp [Pieces.addr, Pieces.rest, zero])
  have cleanPath : 0 ∉ p.path := fun zero => cleanAddr (by simp [Pieces.addr, Pieces.rest, zero])
  have oneWord : ∀ c ∈ p.path, isSpace c = false := fun c member =>
    cut.address.chars c (by simp [Pieces.addr, Pieces.rest, member])
  have words := readWords_three clean cut.words cleanRest cut.address
  rw [if_pos cut.http] at words
  have at_ : AddressAt (wordsBuffer p.lead p.method p.gap p.addr p.version)
      (p.lead ++ p.method ++ 0 :: p.gap).length (p.lead ++ p.method ++ 0 :: p.gap)
      p.addr p.version :=
    ⟨by simp [wordsBuffer], rfl, cleanAddr, cleanVersion, cut.http⟩
  have authority := readAuthority_host at_ cut.scheme cut.hostPart
  rw [if_neg cut.absolute] at authority
  have path : readPath (p.front ++ p.hostPart ++ 0 :: pathBuffer p.version p.path)
      ((p.front ++ p.hostPart).length + min 1 p.path.length) = _ := readPath_spec cleanPath oneWord
  rw [if_neg (by rw [cut.single]; decide)] at path
  have hostPort : readHostPort errno (p.front ++ p.hostPart ++ 0 :: pathBuffer p.version p.path)
      p.front.length = _ :=
    readHostPort_spec rfl rfl cleanHostPart cut.hostPart.chars cut.host
  rw [fine, if_neg Bool.false_ne_true] at hostPort
  rw [Pieces.front] at path hostPort
  simp only [parseRequestLine, words, ok_bind, authority, path, hostPort, pure_eq_ok]
  rfl

theorem Pieces.requestLine_fields {p : Pieces} (clean : 0 ∉ p.line) :
    p.requestLine.fields = some p.fields := by
  have cleanMethod : 0 ∉ p.method := fun zero => clean (by simp [Pieces.line, zero])
  have cleanAddr : 0 ∉ p.addr := fun zero => clean (by simp [Pieces.line, zero])
  have cleanVersion : 0 ∉ p.version := fun zero => clean (by simp [Pieces.line, zero])
  have cleanScheme : 0 ∉ p.scheme := fun zero => cleanAddr (by simp [Pieces.addr, zero])
  have cleanHost : 0 ∉ p.host :=
    fun zero => cleanAddr (by simp [Pieces.addr, Pieces.rest, Pieces.hostPart, zero])
  have cleanBehind : 0 ∉ p.behindHost :=
    fun zero => cleanAddr (by simp [Pieces.addr, Pieces.rest, Pieces.hostPart, zero])
  have method : cstring (p.buffer.drop p.lead.length) = some p.method :=
    cstring_drop p.lead
      (p.gap ++ p.delims ++ p.scheme ++ 0 :: p.slashes ++ p.colons ++ p.host ++
        0 :: portBuffer (pathBuffer p.version p.path) p.behindHost)
      (by simp [Pieces.buffer, Pieces.front]) rfl cleanMethod
  have protocol : cstring (p.buffer.drop (p.lead ++ p.method ++ 0 :: p.gap ++ p.delims).length) =
      some p.scheme :=
    cstring_drop (p.lead ++ p.method ++ 0 :: p.gap ++ p.delims)
      (p.slashes ++ p.colons ++ p.host ++
        0 :: portBuffer (pathBuffer p.version p.path) p.behindHost)
      (by simp [Pieces.buffer, Pieces.front]) rfl cleanScheme
  have host : cstring (p.buffer.drop (p.front ++ p.colons).length) = some p.host :=
    cstring_drop _ _ rfl rfl cleanHost
  have version :
      cstring (p.buffer.drop (p.lead ++ p.method ++ 0 :: p.gap ++ p.addr ++ [0]).length) =
      some p.version := by
    obtain ⟨pre, memory, length⟩ : ∃ pre, p.buffer = pre ++ p.version ++ 0 :: [] ∧
        (p.lead ++ p.method ++ 0 :: p.gap ++ p.addr ++ [0]).length = pre.length := by
      cases behind : p.behindHost with
      | nil =>
          cases path : p.path with
          | nil =>
              refine ⟨p.front ++ p.colons ++ p.host ++ [0], ?_, ?_⟩
              · simp [Pieces.buffer, portBuffer, pathBuffer, behind, path]
              · simp [Pieces.front, Pieces.addr, Pieces.rest, Pieces.hostPart, behind, path]
          | cons d text =>
              refine ⟨p.front ++ p.colons ++ p.host ++ 0 :: text ++ [0], ?_, ?_⟩
              · simp [Pieces.buffer, portBuffer, pathBuffer, behind, path]
              · simp [Pieces.front, Pieces.addr, Pieces.rest, Pieces.hostPart, behind, path]
      | cons c port =>
          cases path : p.path with
          | nil =>
              refine ⟨p.front ++ p.colons ++ p.host ++ 0 :: port ++ [0], ?_, ?_⟩
              · simp [Pieces.buffer, portBuffer, pathBuffer, behind, path]
              · simp [Pieces.front, Pieces.addr, Pieces.rest, Pieces.hostPart, behind, path]
          | cons d text =>
              refine ⟨p.front ++ p.colons ++ p.host ++ 0 :: port ++ 0 :: text ++ [0], ?_, ?_⟩
              · simp [Pieces.buffer, portBuffer, pathBuffer, behind, path]
              · simp [Pieces.front, Pieces.addr, Pieces.rest, Pieces.hostPart, behind, path]
    exact cstring_drop pre [] memory length cleanVersion
  match behind : p.behindHost with
  | [] | [_] =>
      simp only [RequestLine.fields, Pieces.requestLine, Pieces.fields, method, protocol, host,
        version, behind, storedPort, Option.map_none]
      rfl
  | d :: c :: port =>
      have cleanPort : 0 ∉ c :: port := fun zero => cleanBehind (by simp [behind, zero])
      have text : cstring (p.buffer.drop (p.front ++ p.colons ++ p.host ++ [0]).length) =
          some (c :: port) :=
        cstring_drop _ (pathBuffer p.version p.path)
          (by simp [Pieces.buffer, portBuffer, behind]) rfl cleanPort
      simp only [RequestLine.fields, Pieces.requestLine, Pieces.fields, method, protocol, host,
        version, behind, storedPort, Option.map_some, text]
      rfl

/-- A line of at least three parts is rejected or cut into pieces. -/
theorem parseRequestLine_three {errno : Errno} {line lead method rest gap addr version : Bytes}
    (clean : 0 ∉ line) (first : Token isSpace line lead method (space :: rest))
    (second : Token isSpace rest gap addr (space :: version)) :
    parseRequestLine errno line = .error .rejected ∨ GoodLine errno line := by
  have whole : line = lead ++ method ++ space :: rest := first.split
  have parts : rest = gap ++ addr ++ space :: version := second.split
  have cleanRest : 0 ∉ rest := fun zero => clean (by simp [whole, zero])
  have words := readWords_three clean first cleanRest second
  by_cases other : ¬ httpSlash.isPrefixOf version = true
  · rw [if_neg other] at words
    simp only [parseRequestLine, words, error_bind, true_or]
  have http : httpSlash.isPrefixOf version = true := by simpa using other
  rw [if_pos http] at words
  have cleanAddr : 0 ∉ addr := fun zero => cleanRest (by simp [parts, zero])
  have cleanVersion : 0 ∉ version := fun zero => cleanRest (by simp [parts, zero])
  have at_ : AddressAt (wordsBuffer lead method gap addr version)
      (lead ++ method ++ 0 :: gap).length (lead ++ method ++ 0 :: gap) addr version :=
    ⟨by simp [wordsBuffer], rfl, cleanAddr, cleanVersion, http⟩
  rcases exists_token isColonOrSlash addr with blank | ⟨delims, scheme, behind, third⟩
  · have authority := readAuthority_blank at_ blank
    simp only [parseRequestLine, words, ok_bind, authority, error_bind, true_or]
  rcases behind with - | ⟨separator, uri⟩
  · have authority := readAuthority_scheme at_ third
    simp only [parseRequestLine, words, ok_bind, authority, error_bind, true_or]
  rcases exists_token isSlash uri with blank | ⟨slashes, hostPart, path, fourth⟩
  · have authority := readAuthority_noHost at_ third blank
    simp only [parseRequestLine, words, ok_bind, authority, error_bind, true_or]
  have authority := readAuthority_host at_ third fourth
  by_cases relative : hostPart.length = absUriLen delims scheme addr version
  · rw [if_pos relative] at authority
    simp only [parseRequestLine, words, ok_bind, authority, error_bind, true_or]
  rw [if_neg relative] at authority
  have address : addr = delims ++ scheme ++ separator :: uri := third.split
  have uriParts : uri = slashes ++ hostPart ++ path := fourth.split
  have inPath : ∀ c ∈ path, c ∈ addr := fun c member => by simp [address, uriParts, member]
  have cleanHost : 0 ∉ hostPart := fun zero => cleanAddr (by simp [address, uriParts, zero])
  have storePath : readPath (lead ++ method ++ 0 :: gap ++ delims ++ scheme ++ 0 :: slashes ++
      hostPart ++ 0 :: pathBuffer version path) _ = _ :=
    readPath_spec (fun zero => cleanAddr (inPath 0 zero))
      (fun c member => second.chars c (inPath c member))
  by_cases double : doubleSlash path = true
  · rw [if_pos double] at storePath
    simp only [parseRequestLine, words, ok_bind, authority, storePath, error_bind, true_or]
  rw [if_neg double] at storePath
  rcases exists_token isColon hostPart with blank | ⟨colons, host, behindHost, fifth⟩
  · have hostPort : readHostPort errno (lead ++ method ++ 0 :: gap ++ delims ++ scheme ++
        0 :: slashes ++ hostPart ++ 0 :: pathBuffer version path) _ = _ :=
      readHostPort_blank rfl rfl cleanHost blank
    simp only [parseRequestLine, words, ok_bind, authority, storePath, hostPort, error_bind,
      true_or]
  by_cases bad : portBad errno (storedPort behindHost) = true
  · have hostPort : readHostPort errno (lead ++ method ++ 0 :: gap ++ delims ++ scheme ++
        0 :: slashes ++ hostPart ++ 0 :: pathBuffer version path) _ = _ :=
      readHostPort_spec rfl rfl cleanHost fourth.chars fifth
    rw [if_pos bad] at hostPort
    simp only [parseRequestLine, words, ok_bind, authority, storePath, hostPort, error_bind,
      true_or]
  right
  have hostParts : hostPart = colons ++ host ++ behindHost := fifth.split
  subst hostParts uriParts address parts whole
  exact ⟨⟨lead, method, gap, delims, scheme, separator, slashes, colons, host, behindHost, path,
    version⟩, ⟨first, second, third, fourth, fifth, http, relative, by simpa using double⟩, rfl,
    by simpa using bad⟩

/-- Every line is one of three: its address is its last word, it is rejected, or
it is cut into pieces. -/
theorem parseRequestLine_cases (errno : Errno) {line : Bytes} (clean : 0 ∉ line) :
    AddressLast line ∨ parseRequestLine errno line = .error .rejected ∨ GoodLine errno line := by
  rcases exists_token isSpace line with blank | ⟨lead, method, behind, first⟩
  · have words := readWords_blank clean blank
    simp only [parseRequestLine, words, error_bind, true_or, or_true]
  rcases behind with - | ⟨d, rest⟩
  · have words := readWords_one clean first
    simp only [parseRequestLine, words, error_bind, true_or, or_true]
  obtain rfl : d = space := isSpace_eq_true.mp (first.stops d rest rfl)
  have whole : line = lead ++ method ++ space :: rest := first.split
  have cleanRest : 0 ∉ rest := fun zero => clean (by simp [whole, zero])
  rcases exists_token isSpace rest with blank | ⟨gap, addr, behind, second⟩
  · have words := readWords_trailing clean first cleanRest blank
    simp only [parseRequestLine, words, error_bind, true_or, or_true]
  rcases behind with - | ⟨e, version⟩
  · left
    have parts : rest = gap ++ addr := by simpa using second.split
    refine ⟨lead, method, space :: gap, addr, by simp [whole, parts], ?_, ?_, first.nonempty,
      by simp, second.nonempty⟩
    · intro c member
      rcases List.mem_append.mp member with before | between
      · exact isSpace_eq_true.mp (first.delims c before)
      · rcases List.mem_cons.mp between with rfl | between
        · rfl
        · exact isSpace_eq_true.mp (second.delims c between)
    · intro c member
      rcases List.mem_append.mp member with before | behind
      · exact isSpace_eq_false.mp (first.chars c before)
      · exact isSpace_eq_false.mp (second.chars c behind)
  · right
    obtain rfl : e = space := isSpace_eq_true.mp (second.stops e version rfl)
    exact parseRequestLine_three clean first second

end CompNet.Proxy
