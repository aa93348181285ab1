import CompNet.Proxy.RequestLine

/-!
# Absolute-URI requests

The lines that the parser should accept (`AbsoluteUri`) against those that it
does.  Every line of the form is accepted with its parts as fields.  The
converse fails for two kinds of lines, which `Misread` names: the address is the
last word of the line, so that the version is read behind the buffer, or the
address is not of the form, but the runs of delimiters that `strtok_r` skips
and the tests on what it leaves let it pass.
-/

namespace CompNet.Proxy

open CompNet.Lib

/-! ## Whole requests -/

theorem strstr_of_infix {pat s : Bytes} (occurs : pat <:+: s) : (strstr pat s).isNone = false := by
  cases found : strstr pat s with
  | none => exact absurd occurs (strstr_eq_none found)
  | some i => rfl

/-- A request with a blank line before its first NUL: its first line is parsed, and
then its headers. -/
theorem parsedRequestParse_split {errno : Errno} {pr : ParsedRequest} {line rest str : Bytes}
    (unused : pr.buf = none) (clean : 0 ∉ line) (oneLine : ¬ crlf <:+: line)
    (read : cstring (rest ++ [0]) = some str)
    (blankLine : crlf ++ crlf <:+: line ++ crlf ++ str)
    (short : (line ++ crlf ++ rest).length ≤ 65535) :
    parsedRequestParse errno pr (line ++ crlf ++ rest) =
      match parseRequestLine errno line with
      | .error .outOfBounds => none
      | .error .rejected => some (-1, { pr with buf := none, path := none })
      | .ok parsed =>
          parseHeaders ((line ++ crlf ++ rest).length + 1) (pr.withLine parsed) (rest ++ [0]) := by
  obtain ⟨cleanStr, post, whole⟩ := cstring_eq_some read
  have long : 4 ≤ (line ++ crlf ++ rest).length := by
    have inLine : 4 ≤ (line ++ crlf ++ str).length := blankLine.length_le
    have size := congrArg List.length whole
    simp only [List.length_append, List.length_cons, List.length_nil] at inLine size ⊢
    omega
  have text : cstring (line ++ crlf ++ rest ++ [0]) = some (line ++ crlf ++ str) := by
    have cleanAll : 0 ∉ line ++ crlf ++ str := by
      simp [crlf, clean, cleanStr]
    rw [List.append_assoc, whole, ← List.append_assoc]
    exact cstring_append cleanAll
  have blank := strstr_of_infix blankLine
  have stop : strstr crlf (line ++ crlf ++ str) = some line.length := strstr_crlf oneLine
  have first : (line ++ crlf ++ rest ++ [0]).take line.length = line := by simp
  have others : (line ++ crlf ++ rest ++ [0]).drop (line.length + 2) = rest ++ [0] := by
    rw [List.append_assoc _ rest]
    exact drop_crlf line (rest ++ [0])
  have fresh : pr.buf.isSome = false := by rw [unused, Option.isSome_none]
  have size : ¬ ((line ++ crlf ++ rest).length < 4 ∨ (line ++ crlf ++ rest).length > 65535) := by
    omega
  simp only [parsedRequestParse, fresh, Bool.false_eq_true, if_false, if_neg size, text,
    Option.bind_eq_bind, Option.bind_some, blank, stop, first, others]
  cases parseRequestLine errno line with
  | error stop =>
      cases stop with
      | outOfBounds => rfl
      | rejected => rfl
  | ok parsed =>
      show parseHeaders (line ++ crlf ++ rest ++ [0]).length _ _ = _
      rw [List.length_append, List.length_singleton]

/-- What a whole request of one line comes to. -/
theorem parsedRequestParse_line {errno : Errno} {line : Bytes} (clean : 0 ∉ line)
    (oneLine : ¬ crlf <:+: line) (short : line.length + 4 ≤ 65535) :
    parsedRequestParse errno parsedRequestCreate (line ++ crlf ++ crlf) =
      match parseRequestLine errno line with
      | .error .outOfBounds => none
      | .error .rejected => some (-1, parsedRequestCreate)
      | .ok parsed => some (0, parsedRequestCreate.withLine parsed) := by
  have read : cstring (crlf ++ [0]) = some crlf := cstring_append (by decide)
  have blankLine : crlf ++ crlf <:+: line ++ crlf ++ crlf := ⟨line, [], by simp⟩
  rw [parsedRequestParse_split rfl clean oneLine read blankLine (by simp [crlf]; omega)]
  rfl

/-! ## The form -/

/-- The parts of an absolute-URI request line. -/
structure Fields.WellFormed (f : Fields) : Prop where
  method : f.method ≠ [] ∧ ∀ c ∈ f.method, c ≠ space
  protocol : f.protocol ≠ [] ∧ ∀ c ∈ f.protocol, c ≠ space ∧ c ≠ colon ∧ c ≠ slash
  host : f.host ≠ [] ∧ ∀ c ∈ f.host, c ≠ space ∧ c ≠ colon ∧ c ≠ slash
  port : ∀ port, f.port = some port → port ≠ [] ∧ ∀ c ∈ port, c ≠ space ∧ c ≠ slash
  path : ∃ text, f.path = slash :: text ∧ (∀ c ∈ text, c ≠ space) ∧ text.head? ≠ some slash
  version : httpSlash <+: f.version

/-- `METHOD scheme://host[:port]/path HTTP/...`, with spaces in front, one or more
spaces behind the method and one space in front of the version. -/
def AbsoluteUri (line : Bytes) (f : Fields) : Prop :=
  f.WellFormed ∧ ∃ lead gap : Bytes, (∀ c ∈ lead, c = space) ∧ (∀ c ∈ gap, c = space) ∧
    line = lead ++ f.method ++ [space] ++ gap ++ f.protocol ++ [colon, slash, slash] ++ f.host ++
      portText f.port ++ f.path ++ [space] ++ f.version

/-- An accepted address that is not of the form: delimiters in front of the
scheme, a slash behind it, more or fewer than two slashes in front of the host,
colons there, or a colon without a port. -/
def Pieces.Irregular (p : Pieces) : Prop :=
  p.delims ≠ [] ∨ p.separator = slash ∨ p.slashes.length ≠ 2 ∨ p.colons ≠ [] ∨
    p.behindHost = [colon]

/-- The lines on which the parser does not do what it is for. -/
def Misread (line : Bytes) : Prop :=
  AddressLast line ∨ ∃ p : Pieces, p.WellCut ∧ p.Irregular ∧ p.line = line

/-- The parser accepts a request of one line if the line is of the form, and only
then, and stores its parts. -/
def ParsedAsForm (line : Bytes) : Prop :=
  ∃ ret pr, parsedRequestParse .other parsedRequestCreate (line ++ crlf ++ crlf) = some (ret, pr) ∧
    (ret = 0 ↔ ∃ f, AbsoluteUri line f) ∧
    (ret = 0 → ∀ f, AbsoluteUri line f → pr.fields = some f)

theorem isColonOrSlash_eq_false {c : UInt8} :
    isColonOrSlash c = false ↔ c ≠ colon ∧ c ≠ slash := by simp [isColonOrSlash]
theorem isSlash_eq_true {c : UInt8} : isSlash c = true ↔ c = slash := by simp [isSlash]
theorem isSlash_eq_false {c : UInt8} : isSlash c = false ↔ c ≠ slash := by simp [isSlash]
theorem isColon_eq_true {c : UInt8} : isColon c = true ↔ c = colon := by simp [isColon]
theorem isColon_eq_false {c : UInt8} : isColon c = false ↔ c ≠ colon := by simp [isColon]

/-- The pieces of a line of the form. -/
def Fields.pieces (f : Fields) (lead gap : Bytes) : Pieces where
  lead := lead
  method := f.method
  gap := gap
  delims := []
  scheme := f.protocol
  separator := colon
  slashes := [slash, slash]
  colons := []
  host := f.host
  behindHost := portText f.port
  path := f.path
  version := f.version

section

variable {f : Fields} {lead gap : Bytes}

theorem Fields.WellFormed.port_chars (form : f.WellFormed) :
    ∀ c ∈ portText f.port, c ≠ space ∧ c ≠ slash := by
  intro c member
  cases port : f.port with
  | none => simp [portText, port] at member
  | some port' =>
      rw [portText.eq_def, port] at member
      rcases List.mem_cons.mp member with rfl | member
      · exact ⟨by decide, by decide⟩
      · exact (form.port port' port).2 c member

theorem Fields.WellFormed.path_chars (form : f.WellFormed) : ∀ c ∈ f.path, c ≠ space := by
  obtain ⟨text, path, oneWord, -⟩ := form.path
  intro c member
  rw [path] at member
  rcases List.mem_cons.mp member with rfl | member
  · decide
  · exact oneWord c member

theorem Fields.WellFormed.addr_chars (form : f.WellFormed) :
    ∀ c ∈ (f.pieces lead gap).addr, c ≠ space := by
  intro c member
  simp only [Pieces.addr, Pieces.rest, Pieces.hostPart, Fields.pieces, List.mem_append,
    List.mem_cons, List.not_mem_nil, false_or, or_false] at member
  rcases member with member | rfl | ((rfl | rfl) | (member | member)) | member
  · exact (form.protocol.2 c member).1
  · decide
  · decide
  · decide
  · exact (form.host.2 c member).1
  · exact (form.port_chars c member).1
  · exact form.path_chars c member

theorem Fields.WellFormed.hostPart_token (form : f.WellFormed) :
    Token isSlash (f.pieces lead gap).rest [slash, slash] (f.pieces lead gap).hostPart
      f.path := by
  obtain ⟨text, path, -, -⟩ := form.path
  rw [path]
  have whole : (f.pieces lead gap).rest =
      [slash, slash] ++ (f.pieces lead gap).hostPart ++ slash :: text := by
    rw [← path]
    rfl
  rw [whole]
  refine Token.cons (List.all_eq_true.mp (by decide)) ?_ ?_ rfl
  · simp [Pieces.hostPart, Fields.pieces, form.host.1]
  · intro c member
    rw [isSlash_eq_false]
    rcases List.mem_append.mp member with member | member
    · exact (form.host.2 c (by simpa [Fields.pieces] using member)).2.2
    · exact (form.port_chars c member).2

theorem Fields.WellFormed.host_token (form : f.WellFormed) :
    Token isColon (f.pieces lead gap).hostPart [] f.host (portText f.port) := by
  refine ⟨rfl, by simp, form.host.1,
    fun c member => isColon_eq_false.mpr (form.host.2 c member).2.1, ?_⟩
  intro c rest same
  cases port : f.port with
  | none => simp [portText, port] at same
  | some port' =>
      rw [port, portText] at same
      obtain ⟨rfl, -⟩ := List.cons.inj same
      rfl

theorem Fields.WellFormed.pieces_wellCut (form : f.WellFormed)
    (leads : ∀ c ∈ lead, c = space) (gaps : ∀ c ∈ gap, c = space) :
    (f.pieces lead gap).WellCut := by
  obtain ⟨text, path, _, single⟩ := form.path
  have words : Token isSpace (f.pieces lead gap).line lead f.method _ :=
    Token.cons (fun c member => isSpace_eq_true.mpr (leads c member)) form.method.1
      (fun c member => isSpace_eq_false.mpr (form.method.2 c member)) (by decide)
  have address : Token isSpace _ gap (f.pieces lead gap).addr (space :: f.version) :=
    Token.cons (fun c member => isSpace_eq_true.mpr (gaps c member)) (by simp [Pieces.addr])
      (fun c member => isSpace_eq_false.mpr (form.addr_chars c member)) (by decide)
  have scheme : Token isColonOrSlash (f.pieces lead gap).addr [] f.protocol
      (colon :: (f.pieces lead gap).rest) :=
    Token.cons (fun c member => absurd member List.not_mem_nil) form.protocol.1
      (fun c member => isColonOrSlash_eq_false.mpr (form.protocol.2 c member).2) rfl
  refine ⟨words, address, scheme, form.hostPart_token, form.host_token,
    List.isPrefixOf_iff_prefix.mpr form.version, ?_, ?_⟩
  · -- the path makes the rest of the URI longer than the host part
    have length : (f.pieces lead gap).addr.length =
        f.protocol.length + 3 + ((f.pieces lead gap).hostPart.length + (text.length + 1)) := by
      simp [Pieces.addr, Pieces.rest, Fields.pieces, path]
      omega
    have behind : absUriLen [] f.protocol (f.pieces lead gap).addr f.version = _ :=
      absUriLen_nil f.version (by omega)
    show (f.pieces lead gap).hostPart.length ≠
      absUriLen [] f.protocol (f.pieces lead gap).addr f.version
    omega
  · show doubleSlash f.path = false
    rw [path]
    cases text with
    | nil => rfl
    | cons c text => exact isSlash_eq_false.mpr (by simpa using single)

end

theorem Fields.WellFormed.stored_port {f : Fields} (form : f.WellFormed) :
    storedPort (portText f.port) = f.port := by
  cases text : f.port with
  | none => rfl
  | some port =>
      obtain ⟨c, rest, rfl⟩ := List.exists_cons_of_ne_nil (form.port port text).1
      rfl

theorem Fields.WellFormed.pieces_fields {f : Fields} (form : f.WellFormed) {lead gap : Bytes} :
    (f.pieces lead gap).fields = f := by
  obtain ⟨text, path, -⟩ := form.path
  have stored : storedPath f.path = f.path := by rw [path, storedPath]
  simp only [Pieces.fields, Fields.pieces, stored, form.stored_port]

/-- A line of the form is cut into its parts. -/
theorem AbsoluteUri.wellCut {line : Bytes} {f : Fields} (uri : AbsoluteUri line f) :
    ∃ p : Pieces, p.WellCut ∧ ¬ p.Irregular ∧ p.line = line ∧ p.fields = f := by
  obtain ⟨form, lead, gap, leads, gaps, whole⟩ := uri
  refine ⟨f.pieces lead gap, form.pieces_wellCut leads gaps, ?_, ?_, ?_⟩
  · intro given
    rcases given with delims | separator | slashes | colons | port
    · exact delims rfl
    · exact absurd separator (by decide : colon ≠ slash)
    · exact slashes rfl
    · exact colons rfl
    · cases text : f.port with
      | none => simp [Fields.pieces, portText, text] at port
      | some port' =>
          have some := (form.port port' text).1
          simp [Fields.pieces, portText, text, some] at port
  · rw [whole]
    simp [Pieces.line, Pieces.addr, Pieces.rest, Pieces.hostPart, Fields.pieces]
  · exact form.pieces_fields

/-! ## What the parser stores -/

/-- Whatever the parser accepts, the fields it stores are those of the form. -/
theorem Pieces.WellCut.fields_wellFormed {p : Pieces} (cut : p.WellCut) : p.fields.WellFormed := by
  have noSpace : ∀ c ∈ p.addr, c ≠ space := fun c member =>
    isSpace_eq_false.mp (cut.address.chars c member)
  have noSlash : ∀ c ∈ p.hostPart, c ≠ slash := fun c member =>
    isSlash_eq_false.mp (cut.hostPart.chars c member)
  have inAddr : ∀ c ∈ p.hostPart, c ∈ p.addr := fun c member => by
    simp [Pieces.addr, Pieces.rest, member]
  refine ⟨⟨cut.words.nonempty, ?_⟩, ⟨cut.scheme.nonempty, ?_⟩, ⟨cut.host.nonempty, ?_⟩, ?_, ?_,
    List.isPrefixOf_iff_prefix.mp cut.http⟩
  · intro c member
    exact isSpace_eq_false.mp (cut.words.chars c member)
  · intro c member
    exact ⟨noSpace c (List.mem_append_left _ (List.mem_append_right _ member)),
      isColonOrSlash_eq_false.mp (cut.scheme.chars c member)⟩
  · intro c member
    have inHostPart : c ∈ p.hostPart :=
      List.mem_append_left _ (List.mem_append_right _ member)
    exact ⟨noSpace c (inAddr c inHostPart), isColon_eq_false.mp (cut.host.chars c member),
      noSlash c inHostPart⟩
  · intro port stored
    change storedPort p.behindHost = some port at stored
    rcases behind : p.behindHost with _ | ⟨d, _ | ⟨c, text⟩⟩
    · simp [behind, storedPort] at stored
    · simp [behind, storedPort] at stored
    · simp only [behind, storedPort, Option.some.injEq] at stored
      subst stored
      refine ⟨by simp, fun b member => ?_⟩
      have inHostPart : b ∈ p.hostPart :=
        List.mem_append_right _ (by rw [behind]; exact List.mem_cons_of_mem d member)
      exact ⟨noSpace b (inAddr b inHostPart), noSlash b inHostPart⟩
  · have double := cut.single
    have inAddr : ∀ c ∈ p.path, c ∈ p.addr := fun c member => by
      simp [Pieces.addr, Pieces.rest, member]
    cases path : p.path with
    | nil => exact ⟨[], by simp [Pieces.fields, path, storedPath], by simp, by simp⟩
    | cons d text =>
        refine ⟨text, by simp [Pieces.fields, path, storedPath], fun c member => ?_, ?_⟩
        · exact noSpace c (inAddr c (by rw [path]; exact List.mem_cons_of_mem d member))
        · cases text with
          | nil => simp
          | cons c text =>
              rw [path] at double
              simpa using isSlash_eq_false.mp double

/-- Pieces that are not irregular make up a line of the form. -/
theorem Pieces.WellCut.absoluteUri {p : Pieces} (cut : p.WellCut) (regular : ¬ p.Irregular) :
    AbsoluteUri p.line p.fields := by
  simp only [Pieces.Irregular, not_or, ne_eq, not_not] at regular
  obtain ⟨delims, separator, two, colons, port⟩ := regular
  have separator : p.separator = colon := by
    have delim := cut.scheme.stops p.separator p.rest rfl
    simp only [isColonOrSlash, Bool.or_eq_true, beq_iff_eq] at delim
    exact delim.resolve_right separator
  have slashes : p.slashes = [slash, slash] := by
    rw [List.eq_replicate_iff.mpr
      ⟨two, fun c member => isSlash_eq_true.mp (cut.hostPart.delims c member)⟩]
    rfl
  have behind : p.behindHost = portText (storedPort p.behindHost) := by
    match text : p.behindHost with
    | [] => rfl
    | [d] =>
        obtain rfl : d = colon := isColon_eq_true.mp (cut.host.stops d [] text)
        exact absurd text port
    | d :: c :: rest =>
        obtain rfl : d = colon := isColon_eq_true.mp (cut.host.stops d (c :: rest) text)
        rfl
  have path : p.path = storedPath p.path := by
    match text : p.path with
    | [] =>
        -- without a path the host part is all of the rest of the URI
        have length : p.addr.length = p.scheme.length + 3 + p.hostPart.length := by
          simp [Pieces.addr, Pieces.rest, delims, slashes, text]
          omega
        have absolute := cut.absolute
        rw [delims, absUriLen_nil p.version (by omega)] at absolute
        omega
    | d :: rest =>
        obtain rfl : d = slash := isSlash_eq_true.mp (cut.hostPart.stops d rest text)
        rfl
  refine ⟨cut.fields_wellFormed, p.lead, p.gap,
    fun c member => isSpace_eq_true.mp (cut.words.delims c member),
    fun c member => isSpace_eq_true.mp (cut.address.delims c member), ?_⟩
  simp only [Pieces.line, Pieces.addr, Pieces.rest, Pieces.hostPart, Pieces.fields, delims, slashes,
    separator, colons]
  rw [← behind, ← path]
  simp

/-- The pieces of a line are determined by it. -/
theorem Pieces.WellCut.unique {p q : Pieces} (cut : p.WellCut) (cut' : q.WellCut)
    (same : p.line = q.line) : p = q := by
  have words := cut.words
  rw [same] at words
  obtain ⟨lead, method, rest⟩ := words.unique cut'.words
  have rest := (List.cons.inj rest).2
  have address := cut.address
  rw [rest] at address
  obtain ⟨gap, addr, version⟩ := address.unique cut'.address
  have version := (List.cons.inj version).2
  have scheme := cut.scheme
  rw [addr] at scheme
  obtain ⟨delims, protocol, behind⟩ := scheme.unique cut'.scheme
  obtain ⟨separator, uri⟩ := List.cons.inj behind
  have hostPart := cut.hostPart
  rw [uri] at hostPart
  obtain ⟨slashes, hostParts, path⟩ := hostPart.unique cut'.hostPart
  have host := cut.host
  rw [hostParts] at host
  obtain ⟨colons, name, port⟩ := host.unique cut'.host
  cases p
  cases q
  simp_all

/-! ## The comparison -/

section

variable {line : Bytes} (clean : 0 ∉ line) (oneLine : ¬ crlf <:+: line)
  (short : line.length + 4 ≤ 65535)
include clean oneLine short

/-- A request whose line is cut into pieces. -/
theorem parsedRequestParse_pieces {p : Pieces} (cut : p.WellCut) (whole : p.line = line) :
    ∃ pr, parsedRequestParse .other parsedRequestCreate (line ++ crlf ++ crlf) = some (0, pr) ∧
      pr.fields = some p.fields := by
  subst whole
  refine ⟨parsedRequestCreate.withLine p.requestLine, ?_, ?_⟩
  · rw [parsedRequestParse_line clean oneLine short,
      parseRequestLine_pieces clean cut (portBad_other _)]
  · rw [ParsedRequest.fields_withLine, Pieces.requestLine_fields clean]

theorem not_parsedAsForm_of_misread (misread : Misread line) : ¬ ParsedAsForm line := by
  intro given
  rcases given with ⟨ret, pr, parse, accepts, -⟩
  rcases misread with last | ⟨p, cut, irregular, whole⟩
  · rw [parsedRequestParse_line clean oneLine short,
      parseRequestLine_addressLast clean last] at parse
    cases parse
  · obtain ⟨pr', accepted, -⟩ := parsedRequestParse_pieces clean oneLine short cut whole
    rw [accepted] at parse
    cases parse
    obtain ⟨f, uri⟩ := accepts.mp rfl
    obtain ⟨q, cut', regular, whole', -⟩ := uri.wellCut
    obtain rfl : p = q := cut.unique cut' (whole.trans whole'.symm)
    exact regular irregular

theorem parsedAsForm_of_not_misread (fine : ¬ Misread line) : ParsedAsForm line := by
  rw [Misread, not_or, not_exists] at fine
  obtain ⟨notLast, pieces⟩ := fine
  rcases parseRequestLine_cases .other clean with last | rejected | ⟨p, cut, whole, -⟩
  · exact absurd last notLast
  · refine ⟨-1, parsedRequestCreate, ?_, ⟨fun zero => absurd zero (by decide), ?_⟩,
      fun zero => absurd zero (by decide)⟩
    · rw [parsedRequestParse_line clean oneLine short, rejected]
    · intro given
      rcases given with ⟨f, uri⟩
      obtain ⟨q, cut, -, rfl, -⟩ := uri.wellCut
      rw [parseRequestLine_pieces clean cut (portBad_other _)] at rejected
      cases rejected
  · have regular : ¬ p.Irregular := fun irregular => pieces p ⟨cut, irregular, whole⟩
    obtain ⟨pr, accepted, fields⟩ := parsedRequestParse_pieces clean oneLine short cut whole
    refine ⟨0, pr, accepted, ⟨fun _ => ?_, fun _ => rfl⟩, fun _ f uri => ?_⟩
    · rw [← whole]
      exact ⟨p.fields, cut.absoluteUri regular⟩
    · obtain ⟨q, cut', -, whole', rfl⟩ := uri.wellCut
      obtain rfl : p = q := cut.unique cut' (whole.trans whole'.symm)
      exact fields

/-- The parser accepts exactly the requests of the form, apart from the lines it
misreads. -/
theorem parsedAsForm_iff_not_misread : ParsedAsForm line ↔ ¬ Misread line := by
  constructor
  · intro form misread
    exact not_parsedAsForm_of_misread clean oneLine short misread form
  · exact parsedAsForm_of_not_misread clean oneLine short

end

/-- `GET http://h/ HTTP/1.0`. -/
def rootRequest : Bytes :=
  [71, 69, 84, 32, 104, 116, 116, 112, 58, 47, 47, 104, 47, 32, 72, 84, 84, 80, 47, 49, 46, 48]

theorem rootRequest_parsedAsForm_iff : ParsedAsForm rootRequest ↔ ¬ Misread rootRequest :=
  parsedAsForm_iff_not_misread (by decide) (by decide) (by decide)

/-- `GET /foo/bar HTTP/1.0`, in pieces: `foo` is taken for the scheme and `bar` for
the host. -/
def originForm : Pieces where
  lead := []
  method := [71, 69, 84]
  gap := []
  delims := [slash]
  scheme := [102, 111, 111]
  separator := slash
  slashes := []
  colons := []
  host := [98, 97, 114]
  behindHost := []
  path := []
  version := [72, 84, 84, 80, 47, 49, 46, 48]

theorem originForm_wellCut : originForm.WellCut := by
  refine ⟨Token.cons ?_ (by decide) ?_ (by decide), Token.cons ?_ (by decide) ?_ (by decide),
    Token.cons ?_ (by decide) ?_ (by decide), ⟨by decide, ?_, by decide, ?_, ?_⟩,
    ⟨by decide, ?_, by decide, ?_, ?_⟩, by decide, by decide, by decide⟩
  all_goals first
    | exact List.all_eq_true.mp (by decide)
    | exact Token.chars_of_all (by decide)
    | (intro c rest same; cases same)

theorem originForm_not_parsedAsForm :
    originForm.line =
        [71, 69, 84, 32, 47, 102, 111, 111, 47, 98, 97, 114, 32, 72, 84, 84, 80, 47, 49, 46, 48] ∧
      0 ∉ originForm.line ∧ ¬ crlf <:+: originForm.line ∧ originForm.line.length + 4 ≤ 65535 ∧
      ¬ ParsedAsForm originForm.line := by
  refine ⟨by decide, by decide, by decide, by decide, ?_⟩
  apply not_parsedAsForm_of_misread (by decide) (by decide) (by decide)
  exact .inr ⟨originForm, originForm_wellCut, .inl (by decide), rfl⟩

end CompNet.Proxy
